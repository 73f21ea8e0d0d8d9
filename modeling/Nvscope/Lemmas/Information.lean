import Nvscope.Lemmas.Paths
import Nvscope.Model.Detection

/-!
# The lines of an information file

A line belongs to at most one of the three keys. While no value is rejected, the structure holds the last
value of each key.
-/

namespace Nvscope

open Lib

variable {key line v : CStr} {lines : List CStr}

/-! ## Values -/

/-- The line starts with the key, and `v` is the rest without the blanks at its two ends. -/
def HasValue (key line v : CStr) : Prop :=
  ∃ rest, line = key ++ rest ∧ Trimmed isBlank rest v

theorem valueAfterKey_append (key rest : CStr) :
    valueAfterKey (key ++ rest) key = some (trim isBlank rest) := by
  have hcond : (decide ((key ++ rest).length < key.length) || (key ++ rest).take key.length != key) = false := by
    simp
  rw [valueAfterKey, hcond, if_neg Bool.false_ne_true, List.drop_left' rfl]
  rfl

theorem valueAfterKey_eq_none : valueAfterKey line key = none ↔ ¬ key <+: line := by
  constructor
  · rintro h ⟨rest, rfl⟩
    rw [valueAfterKey_append] at h
    cases h
  · intro h
    have hcond : (decide (line.length < key.length) || line.take key.length != key) = true := by
      rw [Bool.or_eq_true, bne_iff_ne]
      exact Or.inr fun htake => h (htake ▸ List.take_prefix _ _)
    rw [valueAfterKey, hcond, if_pos rfl]

theorem valueAfterKey_eq_some : valueAfterKey line key = some v ↔ HasValue key line v := by
  constructor
  · intro h
    have hpre : key <+: line := by
      by_contra hno
      rw [valueAfterKey_eq_none.mpr hno] at h
      cases h
    obtain ⟨rest, rfl⟩ := hpre
    rw [valueAfterKey_append, Option.some.injEq] at h
    exact ⟨rest, rfl, trim_eq_iff.mp h⟩
  · rintro ⟨rest, rfl, htrim⟩
    rw [valueAfterKey_append, trim_eq_iff.mpr htrim]

/-- Keys that start differently do not share a line. -/
theorem valueAfterKey_other {key' : CStr} (h : valueAfterKey line key = some v) (hkey : key ≠ [])
    (hkey' : key' ≠ []) (hne : key.head? ≠ key'.head?) : valueAfterKey line key' = none := by
  obtain ⟨rest, rfl, -⟩ := valueAfterKey_eq_some.mp h
  rw [valueAfterKey_eq_none]
  rintro ⟨rest', heq⟩
  have hhead := congrArg List.head? heq
  rw [List.head?_append_of_ne_nil _ hkey, List.head?_append_of_ne_nil _ hkey'] at hhead
  exact hne hhead.symm

/-- The values of a key, line by line. -/
def values (key : CStr) (lines : List CStr) : List CStr :=
  lines.filterMap fun line => valueAfterKey line key

theorem values_concat (key : CStr) (lines : List CStr) (line : CStr) :
    values key (lines ++ [line]) = values key lines ++ (valueAfterKey line key).toList := by
  rw [values, List.filterMap_append]
  cases h : valueAfterKey line key <;> simp [values, h]

theorem mem_values : v ∈ values key lines ↔ ∃ line ∈ lines, HasValue key line v := by
  simp only [values, List.mem_filterMap, valueAfterKey_eq_some]

theorem values_eq_nil : values key lines = [] ↔ ∀ line ∈ lines, ¬ key <+: line := by
  simp only [values, List.filterMap_eq_nil_iff, valueAfterKey_eq_none]

theorem parseNonnegativeInt_eq (src : CStr) :
    parseNonnegativeInt src = if IsNumeral src then some (Int32.ofNat (decimal src)) else none := by
  rw [parseNonnegativeInt]
  by_cases hempty : src = []
  · rw [if_pos (by rw [hempty]; rfl), if_neg fun h => h.1 hempty]
  · rw [if_neg (by rwa [List.length_eq_zero_iff]), parseDigits_numeral hempty]
    by_cases hnum : IsNumeral src
    · rw [if_pos hnum, if_pos hnum]
      rfl
    · rw [if_neg hnum, if_neg hnum]
      rfl

/-! ## One line -/

/-- What a line does to `ok` and the structure. -/
inductive LineEffect (st : Bool × GpuInfo) (line : CStr) (st' : Bool × GpuInfo) : Prop where
  | uuid (v : CStr) (value : valueAfterKey line uuidKey = some v) (noBus : valueAfterKey line busKey = none)
      (noMinor : valueAfterKey line minorKey = none)
      (after : st' = if v.length < procUuidMax then (st.1, { st.2 with uuid := v }) else (false, st.2))
  | bus (v : CStr) (noUuid : valueAfterKey line uuidKey = none) (value : valueAfterKey line busKey = some v)
      (noMinor : valueAfterKey line minorKey = none)
      (after : st' = if 0 < v.length ∧ v.length < procBusIdMax then (st.1, { st.2 with busId := v })
        else (false, st.2))
  | minor (v : CStr) (noUuid : valueAfterKey line uuidKey = none) (noBus : valueAfterKey line busKey = none)
      (value : valueAfterKey line minorKey = some v)
      (after : st' = if IsNumeral v then (st.1, { st.2 with deviceMinor := Int32.ofNat (decimal v) })
        else (false, st.2))
  | other (noUuid : valueAfterKey line uuidKey = none) (noBus : valueAfterKey line busKey = none)
      (noMinor : valueAfterKey line minorKey = none) (after : st' = st)

theorem copySliceExact_eq {n : Nat} (hn : n ≠ 0) (src : CStr) :
    copySliceExact n src = if src.length < n then some src else none := by
  by_cases hfits : src.length < n
  · have hcond : (decide (n = 0) || decide (src.length ≥ n)) = false := by simp [hn, hfits]
    rw [copySliceExact, hcond, if_neg Bool.false_ne_true, if_pos hfits]
  · have hcond : (decide (n = 0) || decide (src.length ≥ n)) = true := by
      simpa [hn] using Nat.le_of_not_lt hfits
    rw [copySliceExact, hcond, if_pos rfl, if_neg hfits]

theorem parseGpuLine_effect (st : Bool × GpuInfo) (line : CStr) :
    LineEffect st (dropReturn line) (parseGpuLine st line) := by
  unfold parseGpuLine
  simp only
  cases huuid : valueAfterKey (dropReturn line) uuidKey with
  | some v =>
      refine .uuid v huuid (valueAfterKey_other huuid (by decide) (by decide) (by decide))
        (valueAfterKey_other huuid (by decide) (by decide) (by decide)) ?_
      simp only
      rw [copySliceExact_eq (by decide)]
      by_cases hfits : v.length < procUuidMax
      · rw [if_pos hfits, if_pos hfits]
      · rw [if_neg hfits, if_neg hfits]
  | none =>
      cases hbus : valueAfterKey (dropReturn line) busKey with
      | some v =>
          refine .bus v huuid hbus (valueAfterKey_other hbus (by decide) (by decide) (by decide)) ?_
          simp only
          rw [copySliceExact_eq (by decide)]
          by_cases hempty : v.length = 0
          · rw [if_pos hempty, if_neg fun h => absurd hempty (Nat.ne_of_gt h.1)]
          · rw [if_neg hempty]
            by_cases hfits : v.length < procBusIdMax
            · rw [if_pos hfits, if_pos ⟨Nat.pos_of_ne_zero hempty, hfits⟩]
            · rw [if_neg hfits, if_neg fun h => hfits h.2]
      | none =>
          cases hminor : valueAfterKey (dropReturn line) minorKey with
          | some v =>
              refine .minor v huuid hbus hminor ?_
              simp only
              rw [parseNonnegativeInt_eq]
              by_cases hnum : IsNumeral v
              · rw [if_pos hnum, if_pos hnum]
              · rw [if_neg hnum, if_neg hnum]
          | none => exact .other huuid hbus hminor rfl

/-! ## All lines -/

/-- No value of the lines is rejected. -/
structure GoodValues (lines : List CStr) : Prop where
  uuid : ∀ v ∈ values uuidKey lines, v.length < procUuidMax
  bus : ∀ v ∈ values busKey lines, 0 < v.length ∧ v.length < procBusIdMax
  minor : ∀ v ∈ values minorKey lines, IsNumeral v

theorem goodValues_concat {lines : List CStr} {line : CStr} :
    GoodValues (lines ++ [line]) ↔ GoodValues lines ∧
      (∀ v, valueAfterKey line uuidKey = some v → v.length < procUuidMax) ∧
      (∀ v, valueAfterKey line busKey = some v → 0 < v.length ∧ v.length < procBusIdMax) ∧
      ∀ v, valueAfterKey line minorKey = some v → IsNumeral v := by
  constructor
  · rintro ⟨huuid, hbus, hminor⟩
    simp only [values_concat, List.mem_append, Option.mem_toList] at huuid hbus hminor
    exact ⟨⟨fun v hv => huuid v (Or.inl hv), fun v hv => hbus v (Or.inl hv), fun v hv => hminor v (Or.inl hv)⟩,
      fun v hv => huuid v (Or.inr hv), fun v hv => hbus v (Or.inr hv), fun v hv => hminor v (Or.inr hv)⟩
  · rintro ⟨h, huuid, hbus, hminor⟩
    constructor
    all_goals simp only [values_concat, List.mem_append, Option.mem_toList]
    · exact fun v hv => hv.elim (h.uuid v) (huuid v)
    · exact fun v hv => hv.elim (h.bus v) (hbus v)
    · exact fun v hv => hv.elim (h.minor v) (hminor v)

/-- What the loop holds after the lines. -/
structure Parsed (lines : List CStr) (st : Bool × GpuInfo) : Prop where
  ok : st.1 = true ↔ GoodValues lines
  uuid : st.1 = true → st.2.uuid = (values uuidKey lines).getLast?.getD []
  busId : st.1 = true → st.2.busId = (values busKey lines).getLast?.getD []
  minor : st.1 = true → st.2.deviceMinor =
    ((values minorKey lines).getLast?.map fun ds => Int32.ofNat (decimal ds)).getD (-1)

theorem parsed_nil : Parsed [] (true, zeroGpuInfo) where
  ok := ⟨fun _ => ⟨fun _ h => absurd h List.not_mem_nil, fun _ h => absurd h List.not_mem_nil,
    fun _ h => absurd h List.not_mem_nil⟩, fun _ => rfl⟩
  uuid _ := rfl
  busId _ := rfl
  minor _ := rfl

/-- A line whose value is rejected. -/
theorem Parsed.reject {info : GpuInfo} (h : ¬ GoodValues (lines ++ [line])) :
    Parsed (lines ++ [line]) (false, info) where
  ok := ⟨fun hf => absurd hf Bool.false_ne_true, fun hgood => absurd hgood h⟩
  uuid hf := absurd hf Bool.false_ne_true
  busId hf := absurd hf Bool.false_ne_true
  minor hf := absurd hf Bool.false_ne_true

/-- Step lemma. -/
theorem Parsed.step {st st' : Bool × GpuInfo} (h : Parsed lines st) (heffect : LineEffect st line st') :
    Parsed (lines ++ [line]) st' := by
  obtain ⟨ok, info⟩ := st
  cases heffect with
  | uuid v value noBus noMinor after =>
      by_cases hfits : v.length < procUuidMax
      · rw [after, if_pos hfits]
        constructor
        · rw [goodValues_concat, ← h.ok]
          simp [value, noBus, noMinor, hfits]
        · simp [values_concat, value]
        · simpa [values_concat, noBus] using h.busId
        · simpa [values_concat, noMinor] using h.minor
      · rw [after, if_neg hfits]
        exact .reject fun hgood => hfits ((goodValues_concat.mp hgood).2.1 v value)
  | bus v noUuid value noMinor after =>
      by_cases hfits : 0 < v.length ∧ v.length < procBusIdMax
      · rw [after, if_pos hfits]
        constructor
        · rw [goodValues_concat, ← h.ok]
          simp [value, noUuid, noMinor, hfits]
        · simpa [values_concat, noUuid] using h.uuid
        · simp [values_concat, value]
        · simpa [values_concat, noMinor] using h.minor
      · rw [after, if_neg hfits]
        exact .reject fun hgood => hfits ((goodValues_concat.mp hgood).2.2.1 v value)
  | minor v noUuid noBus value after =>
      by_cases hnum : IsNumeral v
      · rw [after, if_pos hnum]
        constructor
        · rw [goodValues_concat, ← h.ok]
          simp [value, noUuid, noBus, hnum]
        · simpa [values_concat, noUuid] using h.uuid
        · simpa [values_concat, noBus] using h.busId
        · simp [values_concat, value]
      · rw [after, if_neg hnum]
        exact .reject fun hgood => hnum ((goodValues_concat.mp hgood).2.2.2 v value)
  | other noUuid noBus noMinor after =>
      rw [after]
      constructor
      · rw [goodValues_concat, ← h.ok]
        simp [noUuid, noBus, noMinor]
      · simpa [values_concat, noUuid] using h.uuid
      · simpa [values_concat, noBus] using h.busId
      · simpa [values_concat, noMinor] using h.minor

theorem parsed_foldl {st : Bool × GpuInfo} (h : Parsed lines st) (raw : List CStr) :
    Parsed (lines ++ raw.map dropReturn) (raw.foldl parseGpuLine st) := by
  induction raw generalizing lines st with
  | nil => simpa using h
  | cons line raw ih =>
      have hstep := ih (h.step (parseGpuLine_effect st line))
      rwa [List.append_assoc] at hstep

/-- The lines of a text. -/
def textLines (text : CStr) : List CStr :=
  (text.splitOn newline).map dropReturn

theorem parseGpuLine_nil (st : Bool × GpuInfo) : parseGpuLine st [] = st :=
  rfl

/-- Run lemma: the loop over a text. -/
theorem parsed_text (text : CStr) :
    Parsed (textLines text) (scanLines newline parseGpuLine text [] (true, zeroGpuInfo)) := by
  rw [scanLines_eq parseGpuLine_nil List.not_mem_nil]
  exact parsed_foldl parsed_nil _

end Nvscope
