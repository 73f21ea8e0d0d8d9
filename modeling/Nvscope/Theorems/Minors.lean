import Nvscope.Lemmas.Information
import Nvscope.Model.InPlace
import Nvscope.Theorems.Decision

/-!
# The three decoders of minor numbers

Device nodes, their names and the lines of information files are decoded by three loops, which accept the same
numerals and never overflow.
-/

namespace Nvscope

open Lib

/-- The value of a numeral is stored; anything else leaves what was there. -/
def decoded (s : CStr) (minor : Int32) : Bool × Int32 :=
  if IsNumeral s then (true, Int32.ofNat (decimal s)) else (false, minor)

theorem storeDigits_eq {ds : CStr} (hne : ds ≠ []) (value : Int32) :
    storeDigits value ds = some (decoded ds value) := by
  rw [storeDigits, parseDigitsIn_eq (by decide), Option.map_some, parseDigits_numeral hne, decoded]
  split <;> rfl

theorem decoded_of_not_digit {c : UInt8} (cs : CStr) (hc : isDigit c = false) (minor : Int32) :
    decoded (c :: cs) minor = (false, minor) := by
  refine if_neg fun h => ?_
  rw [h.2.1 c List.mem_cons_self] at hc
  cases hc

theorem decimalAfterInto_append (pre s : CStr) (minor : Int32) :
    decimalAfterInto pre (pre ++ s) minor = some (decoded s minor) := by
  have hpre : pre.isPrefixOf (pre ++ s) = true := List.isPrefixOf_iff_prefix.mpr (List.prefix_append pre s)
  rw [decimalAfterInto, hpre, List.drop_left' rfl]
  cases s with
  | nil => rfl
  | cons c cs =>
      cases hc : isDigit c with
      | false => rw [decoded_of_not_digit cs hc]; simp [hc]
      | true => rw [← storeDigits_eq (List.cons_ne_nil c cs)]; simp [hc]

theorem parseNonnegativeIntInto_eq (s : CStr) (value : Int32) :
    parseNonnegativeIntInto s value = some (decoded s value) := by
  cases s with
  | nil => rfl
  | cons c cs => exact storeDigits_eq (List.cons_ne_nil c cs) value

/-- The decoders with an `int` behind a pointer are the decoders of the rest of the model. -/
theorem decimalAfterInto_eq (pre name : CStr) (minor : Int32) :
    decimalAfterInto pre name minor =
      some ((decimalAfter pre name).isSome, (decimalAfter pre name).getD minor) := by
  cases hpre : pre.isPrefixOf name with
  | false => rw [decimalAfterInto, decimalAfter, hpre]; rfl
  | true =>
      obtain ⟨s, rfl⟩ := List.isPrefixOf_iff_prefix.mp hpre
      rw [decimalAfterInto_append, decimalAfter_append, decoded]
      split <;> rfl

theorem parseNonnegativeIntInto_parse (s : CStr) (value : Int32) :
    parseNonnegativeIntInto s value =
      some ((parseNonnegativeInt s).isSome, (parseNonnegativeInt s).getD value) := by
  rw [parseNonnegativeIntInto_eq, parseNonnegativeInt_eq, decoded]
  split <;> rfl

/-- A path that is no device node leaves the minor of the record as it was initialised. -/
theorem classifyPath_of_not_device {path : CStr} (h : parseNvidiaMinor path = none) :
    (classifyPath (some path)).2.kind ≠ .nvidiaDevice ∧ (classifyPath (some path)).2.deviceMinor = -1 := by
  simp only [classifyPath, h]
  split
  · exact ⟨FdKind.noConfusion, rfl⟩
  · split
    · exact ⟨FdKind.noConfusion, rfl⟩
    · split
      · exact ⟨FdKind.noConfusion, rfl⟩
      · unfold classifyProcGpuPath
        split
        · exact ⟨FdKind.noConfusion, rfl⟩
        · exact ⟨FdKind.noConfusion, rfl⟩

/-- All three accept exactly the numerals whose value is an `int`, and give that value; they leave the caller's
minor alone otherwise. No product or sum on the way overflows. -/
theorem minor_decoders_agree (s : CStr) (minor : Int32) :
    (s ≠ [] ∧ (∀ c ∈ s, isDigit c = true) ∧ decimal s ≤ 2147483647 →
      ∃ v : Int32, v.toInt = decimal s ∧
        nameIsNvidiaMinorInto (ascii "nvidia" ++ s) minor = some (true, v) ∧
        parseNvidiaMinorInto (ascii "/dev/nvidia" ++ s) minor = some (true, v) ∧
        parseNonnegativeIntInto s minor = some (true, v) ∧
        (classifyPath (some (ascii "/dev/nvidia" ++ s))).2.kind = .nvidiaDevice ∧
        (classifyPath (some (ascii "/dev/nvidia" ++ s))).2.deviceMinor = v) ∧
    (¬ (s ≠ [] ∧ (∀ c ∈ s, isDigit c = true) ∧ decimal s ≤ 2147483647) →
      nameIsNvidiaMinorInto (ascii "nvidia" ++ s) minor = some (false, minor) ∧
      parseNvidiaMinorInto (ascii "/dev/nvidia" ++ s) minor = some (false, minor) ∧
      parseNonnegativeIntInto s minor = some (false, minor) ∧
      (classifyPath (some (ascii "/dev/nvidia" ++ s))).2.kind ≠ .nvidiaDevice ∧
      (classifyPath (some (ascii "/dev/nvidia" ++ s))).2.deviceMinor = -1) := by
  rw [nameIsNvidiaMinorInto, parseNvidiaMinorInto, decimalAfterInto_append, decimalAfterInto_append,
    parseNonnegativeIntInto_eq]
  constructor
  · intro (h : IsNumeral s)
    have hdecoded : decoded s minor = (true, Int32.ofNat (decimal s)) := if_pos h
    rw [hdecoded, classifyPath_device h]
    exact ⟨_, Int32.toInt_ofNat_of_lt (Nat.lt_of_le_of_lt h.2.2 (by decide)), rfl, rfl, rfl, rfl, rfl⟩
  · intro (h : ¬ IsNumeral s)
    have hdecoded : decoded s minor = (false, minor) := if_neg h
    have hminor : parseNvidiaMinor (ascii "/dev/nvidia" ++ s) = none := by
      rw [parseNvidiaMinor, decimalAfter_append, if_neg h]
    rw [hdecoded]
    exact ⟨rfl, rfl, rfl, classifyPath_of_not_device hminor⟩

end Nvscope
