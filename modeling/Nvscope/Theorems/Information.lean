import Nvscope.Lemmas.Information

/-!
# The parser of information files
-/

namespace Nvscope

open Lib

/-- The lines of the text are those of an information file, whose bus id may be left to its path. -/
structure WellFormed (path : Option CStr) (text : CStr) : Prop where
  uuid : ∀ line ∈ textLines text, ∀ v, HasValue uuidKey line v → v.length ≤ 95
  bus : ∀ line ∈ textLines text, ∀ v, HasValue busKey line v → 1 ≤ v.length ∧ v.length ≤ 31
  minor : ∀ line ∈ textLines text, ∀ v, HasValue minorKey line v → IsNumeral v
  hasMinor : ∃ line ∈ textLines text, minorKey <+: line
  hasBus : (∃ line ∈ textLines text, busKey <+: line) ∨
    ∃ b, path = some (informationPath b) ∧ 1 ≤ b.length ∧ b.length ≤ 31 ∧ slash ∉ b

/-- The value of the last line with the key. -/
def LastValue (key text v : CStr) : Prop :=
  ∃ before line after, textLines text = before ++ line :: after ∧ HasValue key line v ∧
    ∀ line' ∈ after, ¬ key <+: line'

/-- The structure holds what the text says, and its strings fit into their arrays. -/
structure Describes (path : Option CStr) (text : CStr) (info : GpuInfo) : Prop where
  minor : ∃ ds, LastValue minorKey text ds ∧ info.deviceMinor.toInt = decimal ds
  busId : LastValue busKey text info.busId ∨
    (∀ line ∈ textLines text, ¬ busKey <+: line) ∧ path = some (informationPath info.busId)
  uuid : LastValue uuidKey text info.uuid ∨
    (∀ line ∈ textLines text, ¬ uuidKey <+: line) ∧ info.uuid = []
  busIdFits : info.busId.length < procBusIdMax
  uuidFits : info.uuid.length < procUuidMax

variable {path : Option CStr} {text key v : CStr} {st : Bool × GpuInfo}

/-! ## Values of a text -/

theorem lastValue_iff : (values key (textLines text)).getLast? = some v ↔ LastValue key text v := by
  rw [values, List.getLast?_filterMap, List.findSome?_eq_some_iff]
  constructor
  · rintro ⟨after, line, before, hlines, hvalue, hafter⟩
    refine ⟨before.reverse, line, after.reverse, ?_, valueAfterKey_eq_some.mp hvalue,
      fun line' hline' => valueAfterKey_eq_none.mp (hafter line' (List.mem_reverse.mp hline'))⟩
    have hreverse := congrArg List.reverse hlines
    simpa using hreverse
  · rintro ⟨before, line, after, hlines, hvalue, hafter⟩
    refine ⟨after.reverse, line, before.reverse, ?_, valueAfterKey_eq_some.mpr hvalue,
      fun line' hline' => valueAfterKey_eq_none.mpr (hafter line' (List.mem_reverse.mp hline'))⟩
    rw [hlines]
    simp

theorem lastValue_or_none (key text : CStr) :
    (∃ v, (values key (textLines text)).getLast? = some v ∧ v ∈ values key (textLines text)) ∨
      values key (textLines text) = [] := by
  cases h : (values key (textLines text)).getLast? with
  | none => exact Or.inr (List.getLast?_eq_none_iff.mp h)
  | some v => exact Or.inl ⟨v, rfl, List.mem_of_getLast? h⟩

theorem exists_line_iff : (∃ line ∈ textLines text, key <+: line) ↔ values key (textLines text) ≠ [] := by
  rw [ne_eq, values_eq_nil]
  push Not
  rfl

theorem wellFormed_iff : WellFormed path text ↔
    GoodValues (textLines text) ∧ values minorKey (textLines text) ≠ [] ∧
      (values busKey (textLines text) ≠ [] ∨
        ∃ b, path = some (informationPath b) ∧ 1 ≤ b.length ∧ b.length ≤ 31 ∧ slash ∉ b) := by
  constructor
  · rintro ⟨huuid, hbus, hminor, hasMinor, hasBus⟩
    refine ⟨⟨?_, ?_, ?_⟩, exists_line_iff.mp hasMinor, hasBus.imp exists_line_iff.mp id⟩
    · intro v hv
      obtain ⟨line, hline, hvalue⟩ := mem_values.mp hv
      exact Nat.lt_succ_of_le (huuid line hline v hvalue)
    · intro v hv
      obtain ⟨line, hline, hvalue⟩ := mem_values.mp hv
      exact (hbus line hline v hvalue).imp id Nat.lt_succ_of_le
    · intro v hv
      obtain ⟨line, hline, hvalue⟩ := mem_values.mp hv
      exact hminor line hline v hvalue
  · rintro ⟨hgood, hasMinor, hasBus⟩
    exact {
      uuid := fun line hline v hvalue => Nat.le_of_lt_succ (hgood.uuid v (mem_values.mpr ⟨line, hline, hvalue⟩))
      bus := fun line hline v hvalue =>
        (hgood.bus v (mem_values.mpr ⟨line, hline, hvalue⟩)).imp id Nat.le_of_lt_succ
      minor := fun line hline v hvalue => hgood.minor v (mem_values.mpr ⟨line, hline, hvalue⟩)
      hasMinor := exists_line_iff.mpr hasMinor
      hasBus := hasBus.imp exists_line_iff.mpr id }

/-! ## After the loop -/

theorem toInt_decimal {ds : CStr} (h : IsNumeral ds) : (Int32.ofNat (decimal ds)).toInt = decimal ds :=
  Int32.toInt_ofNat_of_lt (Nat.lt_of_le_of_lt h.2.2 (by decide))

theorem Parsed.busId_eq_nil (h : Parsed (textLines text) st) (hok : st.1 = true) :
    st.2.busId = [] ↔ values busKey (textLines text) = [] := by
  rw [h.busId hok]
  rcases lastValue_or_none busKey text with ⟨v, hlast, hmem⟩ | hnone
  · have hpos := ((h.ok.mp hok).bus v hmem).1
    rw [hlast]
    exact ⟨fun hv => absurd hv (List.ne_nil_of_length_pos hpos), fun hv => absurd hmem (by rw [hv]; simp)⟩
  · rw [hnone]
    exact ⟨fun _ => rfl, fun _ => rfl⟩

theorem Parsed.minor_nonneg (h : Parsed (textLines text) st) (hok : st.1 = true) :
    0 ≤ st.2.deviceMinor ↔ values minorKey (textLines text) ≠ [] := by
  rw [h.minor hok]
  rcases lastValue_or_none minorKey text with ⟨v, hlast, hmem⟩ | hnone
  · have hnum := (h.ok.mp hok).minor v hmem
    rw [hlast]
    exact ⟨fun _ => List.ne_nil_of_mem hmem, fun _ =>
      Int32.zero_le_ofNat_of_lt (Nat.lt_of_le_of_lt hnum.2.2 (by decide))⟩
  · rw [hnone]
    exact ⟨fun hle => absurd hle (by decide), fun hne => absurd rfl hne⟩

theorem extractProcBus_some_iff {b : CStr} : extractProcBus path procBusIdMax = some b ↔
    path = some (informationPath b) ∧ 1 ≤ b.length ∧ b.length ≤ 31 ∧ slash ∉ b := by
  cases path with
  | none => exact ⟨fun h => (nomatch h), fun h => (nomatch h.1)⟩
  | some path =>
      rw [extractProcBus_eq_some, Option.some.injEq, Nat.lt_succ_iff]
      rfl

/-- Nothing is missing: the bus id is the one of the lines or, where they have none, the one of the path. -/
theorem completeGpuInfo_of_complete {busId : CStr} (hok : st.1 = true) (hminor : 0 ≤ st.2.deviceMinor)
    (hne : busId ≠ [])
    (hbus : st.2.busId = busId ∨ st.2.busId = [] ∧ extractProcBus path procBusIdMax = some busId) :
    completeGpuInfo path st = (true, { st.2 with busId := busId, present := true }) := by
  obtain ⟨ok, info⟩ := st
  simp only at hok hminor hbus
  subst hok
  rcases hbus with hsame | ⟨hempty, hpath⟩
  · subst hsame
    have hcond : (true && info.busId == []) = false := by simp [hne]
    simp only [completeGpuInfo, hcond, Bool.false_eq_true, ↓reduceIte]
    simp [hminor, hne]
  · have hcond : (true && info.busId == []) = true := by simp [hempty]
    simp only [completeGpuInfo, hcond, ↓reduceIte, hpath]
    simp [hminor, hne]

/-- Something is missing. -/
theorem completeGpuInfo_of_not
    (h : st.1 = true → 0 ≤ st.2.deviceMinor → st.2.busId = [] ∧ extractProcBus path procBusIdMax = none) :
    (completeGpuInfo path st).1 = false ∧ (completeGpuInfo path st).2.present = false := by
  obtain ⟨ok, info⟩ := st
  cases ok with
  | false => exact ⟨rfl, rfl⟩
  | true =>
      by_cases hminor : 0 ≤ info.deviceMinor
      · obtain ⟨hempty, hpath⟩ := h rfl hminor
        have hcond : (true && info.busId == []) = true := by simpa using hempty
        simp only [completeGpuInfo, hcond, ↓reduceIte, hpath]
        exact ⟨rfl, rfl⟩
      · have hneg : decide (0 ≤ info.deviceMinor) = false := decide_eq_false hminor
        cases hempty : (true && info.busId == []) with
        | false =>
            simp only [completeGpuInfo, hempty, Bool.false_eq_true, ↓reduceIte, hneg]
            exact ⟨rfl, rfl⟩
        | true =>
            simp only [completeGpuInfo, hempty, ↓reduceIte]
            cases extractProcBus path procBusIdMax with
            | none => exact ⟨rfl, rfl⟩
            | some busId =>
                simp only [hneg]
                exact ⟨rfl, rfl⟩

/-- What the parser makes of good lines: the last value of each key, and the bus id of the path where no line
has one. -/
structure Reads (path : Option CStr) (lines : List CStr) (info : GpuInfo) : Prop where
  good : GoodValues lines
  minor : ∃ ds, (values minorKey lines).getLast? = some ds ∧ info.deviceMinor = Int32.ofNat (decimal ds)
  busId : (values busKey lines).getLast? = some info.busId ∨
    values busKey lines = [] ∧ extractProcBus path procBusIdMax = some info.busId
  uuid : info.uuid = (values uuidKey lines).getLast?.getD []
  present : info.present = true

theorem Reads.busId_ne_nil {lines : List CStr} {info : GpuInfo} (h : Reads path lines info) : info.busId ≠ [] := by
  rcases h.busId with hlast | ⟨-, hpath⟩
  · exact List.ne_nil_of_length_pos (h.good.bus _ (List.mem_of_getLast? hlast)).1
  · exact List.ne_nil_of_length_pos (extractProcBus_some_iff.mp hpath).2.1

theorem parse_of_reads {info : GpuInfo} (h : Reads path (textLines text) info) :
    parseGpuInformation path (some text) = (true, info) := by
  have hp := parsed_text text
  simp only [parseGpuInformation]
  generalize scanLines newline parseGpuLine text [] (true, zeroGpuInfo) = st at hp
  have hok := hp.ok.mpr h.good
  obtain ⟨ds, hlast, hminor⟩ := h.minor
  have hst : st.2.deviceMinor = info.deviceMinor := by
    rw [hp.minor hok, hlast, hminor]
    rfl
  have hnonneg := (hp.minor_nonneg hok).mpr (List.ne_nil_of_mem (List.mem_of_getLast? hlast))
  have hbus : st.2.busId = info.busId ∨ st.2.busId = [] ∧ extractProcBus path procBusIdMax = some info.busId := by
    rcases h.busId with hbus | ⟨hnone, hpath⟩
    · left
      rw [hp.busId hok, hbus]
      rfl
    · exact Or.inr ⟨(hp.busId_eq_nil hok).mpr hnone, hpath⟩
  have huuid : st.2.uuid = info.uuid := by rw [hp.uuid hok, h.uuid]
  have hpresent := h.present
  rw [completeGpuInfo_of_complete hok hnonneg h.busId_ne_nil hbus]
  cases info
  simp only at hst huuid hpresent ⊢
  rw [hst, huuid, hpresent]

theorem parse_of_not_reads (h : ∀ info, ¬ Reads path (textLines text) info) :
    (parseGpuInformation path (some text)).1 = false ∧ (parseGpuInformation path (some text)).2.present = false := by
  have hp := parsed_text text
  simp only [parseGpuInformation]
  generalize scanLines newline parseGpuLine text [] (true, zeroGpuInfo) = st at hp
  refine completeGpuInfo_of_not fun hok hnonneg => ?_
  have hgood := hp.ok.mp hok
  obtain ⟨ds, hlast, -⟩ := (lastValue_or_none minorKey text).resolve_right ((hp.minor_nonneg hok).mp hnonneg)
  have hno : ∀ busId, ¬ ((values busKey (textLines text)).getLast? = some busId ∨
      values busKey (textLines text) = [] ∧ extractProcBus path procBusIdMax = some busId) :=
    fun busId hbus => h ⟨true, _, busId, _⟩ ⟨hgood, ⟨ds, hlast, rfl⟩, hbus, rfl, rfl⟩
  have hnone : values busKey (textLines text) = [] := by
    rcases lastValue_or_none busKey text with ⟨v, hv, -⟩ | hnone
    · exact absurd (Or.inl hv) (hno v)
    · exact hnone
  refine ⟨(hp.busId_eq_nil hok).mpr hnone, ?_⟩
  cases hpath : extractProcBus path procBusIdMax with
  | none => rfl
  | some b => exact absurd (Or.inr ⟨hnone, hpath⟩) (hno b)

/-- Spec of `nvfix_parse_gpu_information`. -/
theorem parse_eq_true_iff {info : GpuInfo} :
    parseGpuInformation path (some text) = (true, info) ↔ Reads path (textLines text) info := by
  refine ⟨fun h => ?_, parse_of_reads⟩
  rcases Classical.em (∃ info, Reads path (textLines text) info) with ⟨info', hreads⟩ | hno
  · rw [parse_of_reads hreads] at h
    cases h
    exact hreads
  · obtain ⟨hret, -⟩ := parse_of_not_reads fun info hreads => hno ⟨info, hreads⟩
    rw [h] at hret
    cases hret

theorem wellFormed_iff_reads : WellFormed path text ↔ ∃ info, Reads path (textLines text) info := by
  rw [wellFormed_iff]
  constructor
  · rintro ⟨hgood, hminor, hbus⟩
    obtain ⟨ds, hlast, -⟩ := (lastValue_or_none minorKey text).resolve_right hminor
    rcases lastValue_or_none busKey text with ⟨v, hv, -⟩ | hnone
    · exact ⟨⟨true, _, v, _⟩, hgood, ⟨ds, hlast, rfl⟩, Or.inl hv, rfl, rfl⟩
    · obtain ⟨b, hb⟩ := hbus.resolve_left fun hne => hne hnone
      exact ⟨⟨true, _, b, _⟩, hgood, ⟨ds, hlast, rfl⟩, Or.inr ⟨hnone, extractProcBus_some_iff.mpr hb⟩, rfl, rfl⟩
  · rintro ⟨info, h⟩
    obtain ⟨ds, hlast, -⟩ := h.minor
    refine ⟨h.good, List.ne_nil_of_mem (List.mem_of_getLast? hlast), h.busId.imp (fun hlast => ?_) fun hpath => ?_⟩
    · exact List.ne_nil_of_mem (List.mem_of_getLast? hlast)
    · exact ⟨_, extractProcBus_some_iff.mp hpath.2⟩

theorem Reads.describes {info : GpuInfo} (h : Reads path (textLines text) info) : Describes path text info where
  minor := by
    obtain ⟨ds, hlast, hminor⟩ := h.minor
    refine ⟨ds, lastValue_iff.mp hlast, ?_⟩
    rw [hminor]
    exact toInt_decimal (h.good.minor ds (List.mem_of_getLast? hlast))
  busId := h.busId.imp lastValue_iff.mp fun hpath =>
    ⟨values_eq_nil.mp hpath.1, (extractProcBus_some_iff.mp hpath.2).1⟩
  uuid := by
    rw [h.uuid]
    rcases lastValue_or_none uuidKey text with ⟨v, hlast, -⟩ | hnone
    · rw [hlast]
      exact Or.inl (lastValue_iff.mp hlast)
    · rw [hnone]
      exact Or.inr ⟨values_eq_nil.mp hnone, rfl⟩
  busIdFits := by
    rcases h.busId with hlast | ⟨-, hpath⟩
    · exact (h.good.bus _ (List.mem_of_getLast? hlast)).2
    · exact Nat.lt_succ_of_le (extractProcBus_some_iff.mp hpath).2.2.1
  uuidFits := by
    rw [h.uuid]
    rcases lastValue_or_none uuidKey text with ⟨v, hlast, hmem⟩ | hnone
    · rw [hlast]
      exact h.good.uuid v hmem
    · rw [hnone]
      decide

/-- `nvfix_parse_gpu_information` returns 1 exactly on well-formed texts, and then the structure holds the
last value of each key. The structure is marked as present if and only if 1 is returned. -/
theorem parseGpuInformation_correct (path : Option CStr) (text : CStr) :
    let (ret, info) := parseGpuInformation path (some text)
    (ret = true ↔ WellFormed path text) ∧ info.present = ret ∧ (ret = true → Describes path text info) := by
  rw [wellFormed_iff_reads]
  rcases Classical.em (∃ info, Reads path (textLines text) info) with hreads | hno
  · obtain ⟨info, h⟩ := hreads
    rw [parse_of_reads h]
    exact ⟨⟨fun _ => ⟨info, h⟩, fun _ => rfl⟩, h.present, fun _ => h.describes⟩
  · obtain ⟨hret, hpresent⟩ := parse_of_not_reads fun info h => hno ⟨info, h⟩
    simp only [hret, hpresent]
    exact ⟨⟨fun hf => absurd hf Bool.false_ne_true, fun h => absurd h hno⟩, trivial,
      fun hf => absurd hf Bool.false_ne_true⟩

/-- Without a bus line the path gives the bus id. -/
example : parseGpuInformation (some (informationPath (ascii "0000:07:00.0")))
    (some (ascii "GPU UUID: GPU-7 \r\nDevice Minor:\t7")) =
      (true, ⟨true, 7, ascii "0000:07:00.0", ascii "GPU-7"⟩) := by
  decide +kernel

end Nvscope
