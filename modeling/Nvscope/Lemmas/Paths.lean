import Nvscope.Model.Preload

/-!
# What the path matchers accept
-/

namespace Nvscope

open Lib

/-! ## Information paths -/

theorem append_drop_take_eq {pre path suf : CStr} (hpre : pre <+: path)
    (hlen : pre.length + suf.length ≤ path.length) (hsuf : path.drop (path.length - suf.length) = suf) :
    pre ++ ((path.drop pre.length).take (path.length - suf.length - pre.length) ++ suf) = path := by
  obtain ⟨rest, rfl⟩ := hpre
  have hle : suf.length ≤ rest.length := by simpa using hlen
  rw [List.length_append, Nat.add_sub_assoc hle] at hsuf ⊢
  rw [List.drop_length_add_append] at hsuf
  rw [List.drop_left' rfl, Nat.add_sub_cancel_left]
  conv_rhs => rw [← List.take_append_drop (rest.length - suf.length) rest, hsuf]

theorem of_procInfoBus {n : Nat} {path b : CStr} (h : procInfoBus n path = some b) :
    path = informationPath b ∧ 0 < b.length ∧ b.length < n ∧ slash ∉ b := by
  unfold procInfoBus at h
  split at h
  · cases h
  · rename_i hmatch
    simp only [Bool.or_eq_true, decide_eq_true_eq, Bool.not_eq_true', not_or, Nat.not_le,
      Bool.not_eq_false, bne_iff_ne, ne_eq, Decidable.not_not, List.isPrefixOf_iff_prefix] at hmatch
    obtain ⟨⟨hlen, hpre⟩, hsuf⟩ := hmatch
    simp only at h
    split at h
    · cases h
    · rename_i hbus
      split at h
      · cases h
      · rename_i hslash
        simp only [Option.some.injEq] at h
        subst h
        simp only [Bool.or_eq_true, decide_eq_true_eq, not_or, ge_iff_le, Nat.not_le] at hbus
        have hpath := append_drop_take_eq hpre (by omega) hsuf
        exact ⟨hpath.symm, Nat.pos_of_ne_zero hbus.1, hbus.2, hslash⟩

theorem procInfoBus_informationPath {n : Nat} {b : CStr} (hpos : 0 < b.length) (hlt : b.length < n)
    (hslash : slash ∉ b) : procInfoBus n (informationPath b) = some b := by
  have hlen : (informationPath b).length = gpusPrefix.length + (b.length + informationSuffix.length) := by
    simp [informationPath]
  have hpre : gpusPrefix.isPrefixOf (informationPath b) = true := by
    rw [List.isPrefixOf_iff_prefix]
    exact ⟨b ++ informationSuffix, rfl⟩
  have hcut : (informationPath b).length - informationSuffix.length = (gpusPrefix ++ b).length := by
    rw [hlen, List.length_append]
    omega
  have hsuf : (informationPath b).drop ((informationPath b).length - informationSuffix.length) =
      informationSuffix := by
    rw [hcut, informationPath, ← List.append_assoc, List.drop_left' rfl]
  have hbus : ((informationPath b).drop gpusPrefix.length).take
      ((informationPath b).length - informationSuffix.length - gpusPrefix.length) = b := by
    rw [hcut, List.length_append, Nat.add_sub_cancel_left, informationPath, List.drop_left' rfl,
      List.take_left' rfl]
  have hcond : ((informationPath b).length ≤ gpusPrefix.length + informationSuffix.length ||
      !gpusPrefix.isPrefixOf (informationPath b) || (informationPath b).drop
        ((informationPath b).length - informationSuffix.length) != informationSuffix) = false := by
    rw [hpre, hsuf, hlen]
    simp only [Bool.not_true, Bool.or_false, bne_self_eq_false, decide_eq_false_iff_not]
    omega
  have hfits : (decide (b.length = 0) || decide (b.length ≥ n)) = false := by
    simp only [Bool.or_eq_false_iff, decide_eq_false_iff_not]
    omega
  simp only [procInfoBus, hcond, hbus, hfits, Bool.false_eq_true, ↓reduceIte, hslash]

/-- The shared matcher accepts exactly the information paths whose bus id fits. -/
theorem procInfoBus_eq_some {n : Nat} {path b : CStr} :
    procInfoBus n path = some b ↔
      path = informationPath b ∧ 0 < b.length ∧ b.length < n ∧ slash ∉ b := by
  constructor
  · exact of_procInfoBus
  · rintro ⟨rfl, hpos, hlt, hslash⟩
    exact procInfoBus_informationPath hpos hlt hslash

theorem extractProcBus_eq_some {path b : CStr} :
    extractProcBus (some path) procBusIdMax = some b ↔
      path = informationPath b ∧ 0 < b.length ∧ b.length < procBusIdMax ∧ slash ∉ b := by
  simp only [extractProcBus, Option.bind_some, Option.bind_eq_some_iff, copySliceExact]
  constructor
  · rintro ⟨bus, hbus, hcopy⟩
    split at hcopy
    · cases hcopy
    · cases hcopy; exact procInfoBus_eq_some.mp hbus
  · intro h
    refine ⟨b, procInfoBus_eq_some.mpr h, ?_⟩
    rw [if_neg (by simp; omega)]

theorem informationPath_ne_gpusDir (b : CStr) : informationPath b ≠ gpusDir := by
  intro h
  have hlen := congrArg List.length h
  have hg : gpusDir.length = 24 := by decide
  have hp : gpusPrefix.length = 25 := by decide
  simp only [informationPath, List.length_append] at hlen
  omega

theorem head_informationPath (b : CStr) : (informationPath b).head? = some slash := by
  have h : gpusPrefix = slash :: gpusPrefix.tail := by decide
  rw [informationPath, h]
  rfl

theorem head_append_informationSuffix {n : CStr} (hne : n ≠ []) (hslash : slash ∉ n) :
    (n ++ informationSuffix).head? ≠ some slash := by
  cases n with
  | nil => exact absurd rfl hne
  | cons c cs =>
      intro hc
      rw [List.cons_append, List.head?_cons, Option.some.injEq] at hc
      exact hslash (by rw [hc]; exact List.mem_cons_self)

theorem length_informationPath (n : CStr) : (informationPath n).length = 37 + n.length := by
  have hp : gpusPrefix.length = 25 := by decide
  have hs : informationSuffix.length = 12 := by decide
  rw [informationPath, List.length_append, List.length_append]
  omega

/-- The path of a bus id fits into a path buffer. -/
theorem length_informationPath_lt {n : CStr} (h : n.length < procBusIdMax) :
    (informationPath n).length < pathMax := by
  rw [length_informationPath]
  exact Nat.lt_trans (Nat.add_lt_add_left h 37) (by decide)

/-! ## The path decision -/

theorem allowedContainsBus_iff {a : AllowedGpus} {b : CStr} :
    allowedContainsBus (some a) (some b) = true ↔
      a.valid = true ∧ b ≠ [] ∧ ∃ g ∈ a.gpus, g.busId = b := by
  simp only [allowedContainsBus]
  split
  · rename_i h
    simp only [Bool.or_eq_true, Bool.not_eq_true', beq_iff_eq] at h
    constructor
    · intro hf; cases hf
    · rintro ⟨hv, hb, -⟩
      rcases h with h | h
      · rw [hv] at h; cases h
      · exact absurd h hb
  · rename_i h
    simp only [Bool.or_eq_true, Bool.not_eq_true', beq_iff_eq, not_or, Bool.not_eq_false] at h
    simp [h.1, h.2]

/-- The names the filters let through: `.`, `..` and the bus ids, which are not empty, of the allowed
GPUs. -/
def Visible (a : AllowedGpus) (name : CStr) : Prop :=
  name = dot ∨ name = dotdot ∨ name ≠ [] ∧ ∃ g ∈ a.gpus, g.busId = name

instance (a : AllowedGpus) (name : CStr) : Decidable (Visible a name) :=
  inferInstanceAs (Decidable (_ ∨ _ ∨ _))

theorem keepName_iff {a : AllowedGpus} (ha : a.valid = true) {name : CStr} :
    keepName a name = true ↔ Visible a name := by
  simp only [keepName, Bool.or_eq_true, beq_iff_eq, allowedContainsBus_iff, ha, true_and, Visible,
    or_assoc]

theorem procPathAllowed_informationPath {a : AllowedGpus} {b : CStr} (hpos : 0 < b.length)
    (hlt : b.length < procBusIdMax) (hslash : slash ∉ b) :
    procPathAllowed (some a) (some (informationPath b)) = .deny ↔
      a.valid = true ∧ ∀ g ∈ a.gpus, g.busId ≠ b := by
  have hbus := extractProcBus_eq_some.mpr ⟨rfl, hpos, hlt, hslash⟩
  have hne : b ≠ [] := List.ne_nil_of_length_pos hpos
  have hdir : (some (informationPath b) : Option CStr) ≠ some gpusDir := by
    simpa using informationPath_ne_gpusDir b
  simp only [procPathAllowed, reduceCtorEq, ↓reduceIte, hdir, hbus]
  cases hv : a.valid with
  | false => simp
  | true =>
      cases hc : allowedContainsBus (some a) (some b) with
      | true =>
          obtain ⟨-, -, g, hg, hb⟩ := allowedContainsBus_iff.mp hc
          simp only [Bool.not_true, Bool.false_eq_true, ↓reduceIte, reduceCtorEq, true_and, false_iff]
          exact fun hno => hno g hg hb
      | false =>
          simp only [Bool.not_true, Bool.false_eq_true, ↓reduceIte, true_and, true_iff]
          intro g hg hb
          rw [allowedContainsBus_iff.mpr ⟨hv, hne, g, hg, hb⟩] at hc
          cases hc

theorem eq_informationPath_of_deny {a : AllowedGpus} {path : CStr}
    (h : procPathAllowed (some a) (some path) = .deny) :
    ∃ b, path = informationPath b ∧ 0 < b.length ∧ b.length < procBusIdMax ∧ slash ∉ b := by
  unfold procPathAllowed at h
  simp only [reduceCtorEq, ↓reduceIte] at h
  split at h
  · cases h
  · cases hbus : extractProcBus (some path) procBusIdMax with
    | none => rw [hbus] at h; cases h
    | some b => exact ⟨b, extractProcBus_eq_some.mp hbus⟩

/-- Denied are exactly the information paths, with a bus id of 1 to 31 bytes, of GPUs outside a valid
allowed set. -/
theorem procPathAllowed_eq_deny {a : AllowedGpus} {path : CStr} :
    procPathAllowed (some a) (some path) = .deny ↔
      a.valid = true ∧ ∃ b, path = informationPath b ∧ 0 < b.length ∧ b.length < procBusIdMax ∧
        slash ∉ b ∧ ∀ g ∈ a.gpus, g.busId ≠ b := by
  constructor
  · intro h
    obtain ⟨b, rfl, hpos, hlt, hslash⟩ := eq_informationPath_of_deny h
    obtain ⟨hv, hno⟩ := (procPathAllowed_informationPath hpos hlt hslash).mp h
    exact ⟨hv, b, rfl, hpos, hlt, hslash, hno⟩
  · rintro ⟨hv, b, rfl, hpos, hlt, hslash, hno⟩
    exact (procPathAllowed_informationPath hpos hlt hslash).mpr ⟨hv, hno⟩

/-! ## Classification -/

theorem classified_eq_some {path : CStr} {r : FdRecord} :
    classified path = some r ↔ classifyPath (some path) = (true, r) := by
  unfold classified
  obtain ⟨ok, r'⟩ := classifyPath (some path)
  cases ok <;> simp

theorem classified_eq_none {path : CStr} :
    classified path = none ↔ (classifyPath (some path)).1 = false := by
  unfold classified
  obtain ⟨ok, r'⟩ := classifyPath (some path)
  cases ok <;> simp

/-- The directory of the GPUs is tracked as such, -/
theorem classified_gpusDir : ∃ r, classified gpusDir = some r ∧ r.kind = .procGpusDir := by
  refine ⟨_, classified_eq_some.mpr rfl, ?_⟩
  decide

/-- and no other path is. -/
theorem eq_gpusDir_of_kind {path : CStr} {r : FdRecord} (h : classified path = some r)
    (hk : r.kind = .procGpusDir) : path = gpusDir := by
  rw [classified_eq_some, classifyPath] at h
  simp only at h
  split at h
  · cases h; cases hk
  · split at h
    · cases h; cases hk
    · split at h
      · cases h; cases hk
      · split at h
        · assumption
        · unfold classifyProcGpuPath at h
          split at h
          · cases h
          · cases h; cases hk

/-! ## Minors -/

/-- A numeral whose value is an `int`. -/
def IsNumeral (ds : CStr) : Prop :=
  ds ≠ [] ∧ (∀ c ∈ ds, isDigit c = true) ∧ decimal ds ≤ intMax

instance (ds : CStr) : Decidable (IsNumeral ds) :=
  inferInstanceAs (Decidable (_ ∧ _ ∧ _))

theorem parseDigits_numeral {ds : CStr} (hne : ds ≠ []) :
    parseDigits intMax 0 ds = if IsNumeral ds then some (decimal ds) else none := by
  have hiff : (ds.all isDigit ∧ decimalFrom 0 ds ≤ intMax) ↔ IsNumeral ds := by
    rw [List.all_eq_true]
    exact ⟨fun h => ⟨hne, h⟩, fun h => h.2⟩
  rw [parseDigits_eq (by decide) (Nat.zero_le _)]
  by_cases hnum : IsNumeral ds
  · rw [if_pos hnum, if_pos (hiff.mpr hnum)]
    rfl
  · rw [if_neg hnum, if_neg fun h => hnum (hiff.mp h)]

theorem decimalAfter_append (pre ds : CStr) :
    decimalAfter pre (pre ++ ds) = if IsNumeral ds then some (Int32.ofNat (decimal ds)) else none := by
  have hpre : pre.isPrefixOf (pre ++ ds) = true := List.isPrefixOf_iff_prefix.mpr (List.prefix_append pre ds)
  rw [decimalAfter, hpre, List.drop_left' rfl]
  cases ds with
  | nil => rfl
  | cons c cs =>
      have hne : c :: cs ≠ [] := List.cons_ne_nil _ _
      change (if (!isDigit c) = true then none else (parseDigits intMax 0 (c :: cs)).map Int32.ofNat) = _
      by_cases hc : isDigit c = true
      · rw [hc, Bool.not_true, if_neg Bool.false_ne_true, parseDigits_numeral hne]
        by_cases hnum : IsNumeral (c :: cs)
        · rw [if_pos hnum, if_pos hnum]
          rfl
        · rw [if_neg hnum, if_neg hnum]
          rfl
      · have hnum : ¬ IsNumeral (c :: cs) := fun h => hc (h.2.1 c List.mem_cons_self)
        rw [Bool.not_eq_true] at hc
        rw [if_neg hnum, hc]
        rfl

/-- Names of the shape the two minor parsers accept. -/
theorem decimalAfter_eq_some {pre name : CStr} {minor : Int32} :
    decimalAfter pre name = some minor ↔
      ∃ ds, name = pre ++ ds ∧ IsNumeral ds ∧ minor = Int32.ofNat (decimal ds) := by
  constructor
  · intro h
    have hpre : pre <+: name := by
      rw [← List.isPrefixOf_iff_prefix]
      by_contra hno
      rw [Bool.not_eq_true] at hno
      rw [decimalAfter, hno] at h
      cases h
    obtain ⟨ds, rfl⟩ := hpre
    rw [decimalAfter_append] at h
    split at h
    · rename_i hnum
      cases h
      exact ⟨ds, rfl, hnum, rfl⟩
    · cases h
  · rintro ⟨ds, rfl, hnum, rfl⟩
    rw [decimalAfter_append, if_pos hnum]

end Nvscope
