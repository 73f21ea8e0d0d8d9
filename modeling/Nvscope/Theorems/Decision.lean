import Nvscope.Lemmas.Selection
import Nvscope.Theorems.Spelling

/-!
# The decision on a path

It follows from the selection of the GPUs alone, and it denies only what the classifier tracks as an
information file.
-/

namespace Nvscope

open Lib

variable {path b : CStr} {allowed : Option AllowedGpus}

theorem extractProcBus_iff :
    extractProcBus (some path) procBusIdMax = some b ↔ path = informationPath b ∧ IsBusId b := by
  rw [extractProcBus_eq_some]
  exact ⟨fun ⟨hpath, hpos, hlt, hslash⟩ => ⟨hpath, hpos, hlt, hslash⟩,
    fun ⟨hpath, hb⟩ => ⟨hpath, hb.nonempty, hb.short, hb.noSlash⟩⟩

theorem procPathAllowed_eq_ignore :
    procPathAllowed allowed (some path) = .ignore ↔
      path ≠ gpusDir ∧ ¬ ∃ b, path = informationPath b ∧ IsBusId b := by
  have hnull : (some path : Option CStr) ≠ none := Option.some_ne_none path
  rw [procPathAllowed, if_neg hnull]
  by_cases hdir : path = gpusDir
  · rw [if_pos (congrArg some hdir)]
    exact ⟨ProcDecision.noConfusion, fun h => absurd hdir h.1⟩
  · rw [if_neg fun h => hdir (Option.some.inj h)]
    cases hbus : extractProcBus (some path) procBusIdMax with
    | none =>
        refine ⟨fun _ => ⟨hdir, ?_⟩, fun _ => rfl⟩
        rintro ⟨b, hb⟩
        rw [extractProcBus_iff.mpr hb] at hbus
        cases hbus
    | some b =>
        refine ⟨fun h => ?_, fun h => absurd ⟨b, extractProcBus_iff.mp hbus⟩ h.2⟩
        cases allowed with
        | none => cases h
        | some a =>
            simp only at h
            split at h
            · cases h
            · split at h <;> cases h

theorem procPathAllowed_deny_iff {a : AllowedGpus} :
    procPathAllowed (some a) (some path) = .deny ↔
      a.valid = true ∧ ∃ b, path = informationPath b ∧ IsBusId b ∧ ∀ g ∈ a.gpus, g.busId ≠ b := by
  rw [procPathAllowed_eq_deny]
  constructor
  · rintro ⟨hv, b, hpath, hpos, hlt, hslash, hno⟩
    exact ⟨hv, b, hpath, ⟨hpos, hlt, hslash⟩, hno⟩
  · rintro ⟨hv, b, hpath, hb, hno⟩
    exact ⟨hv, b, hpath, hb.nonempty, hb.short, hb.noSlash, hno⟩

/-- A path that is not left to the kernel is denied or allowed. -/
theorem procPathAllowed_eq_allow :
    procPathAllowed allowed (some path) = .allow ↔
      (path = gpusDir ∨ ∃ b, path = informationPath b ∧ IsBusId b) ∧
        procPathAllowed allowed (some path) ≠ .deny := by
  have hignore := @procPathAllowed_eq_ignore path allowed
  cases hdecision : procPathAllowed allowed (some path) with
  | ignore =>
      obtain ⟨hdir, hinfo⟩ := hignore.mp hdecision
      exact ⟨ProcDecision.noConfusion, fun h => absurd h.1 (not_or.mpr ⟨hdir, hinfo⟩)⟩
  | deny => exact ⟨ProcDecision.noConfusion, fun h => absurd rfl h.2⟩
  | allow =>
      refine ⟨fun _ => ⟨?_, ProcDecision.noConfusion⟩, fun _ => rfl⟩
      by_contra hno
      rw [hignore.mpr (not_or.mp hno)] at hdecision
      cases hdecision

/-- The directory itself is no information file. -/
theorem not_deny_gpusDir (a : AllowedGpus) : procPathAllowed (some a) (some gpusDir) ≠ .deny := by
  rw [ne_eq, procPathAllowed_deny_iff]
  rintro ⟨-, b, hpath, -⟩
  exact informationPath_ne_gpusDir b hpath.symm

/-! ## From the topology to the decision -/

theorem buildAllowedGpus_valid_iff (infos : List GpuInfo) (mountedMinors : List Int32)
    (explicitUuid : Option CStr) : (buildAllowedGpus infos mountedMinors explicitUuid).valid = true ↔
      (selected infos mountedMinors explicitUuid).take maxGpus ≠ [] := by
  have hmax : maxGpus ≠ 0 := by decide
  rw [buildAllowedGpus_valid, ne_eq, List.take_eq_nil_iff, not_or]
  simp [selected, hmax]

/-- The stored GPUs are the first 32 selected ones. With them, exactly the information paths of other bus ids
are denied, exactly the directory and the other information paths are allowed, and nothing else is
decided. -/
theorem selection_decides (infos : List GpuInfo) (mountedMinors : List Int32) (explicitUuid : Option CStr)
    (path : CStr) :
    let sel := (selected infos mountedMinors explicitUuid).take maxGpus
    let a := buildAllowedGpus infos mountedMinors explicitUuid
    let denied := sel ≠ [] ∧ ∃ b, path = informationPath b ∧ IsBusId b ∧ ∀ g ∈ sel, g.busId ≠ b
    let known := ∃ b, path = informationPath b ∧ IsBusId b
    a.gpus = sel ∧ (a.valid = true ↔ sel ≠ []) ∧
      (procPathAllowed (some a) (some path) = .deny ↔ denied) ∧
      (procPathAllowed (some a) (some path) = .allow ↔ path = gpusDir ∨ known ∧ ¬ denied) ∧
      (procPathAllowed (some a) (some path) = .ignore ↔ ¬ (path = gpusDir ∨ known)) := by
  intro sel a denied known
  have hgpus : a.gpus = sel := buildAllowedGpus_gpus infos
  have hvalid : a.valid = true ↔ sel ≠ [] := buildAllowedGpus_valid_iff infos mountedMinors explicitUuid
  have hdeny : procPathAllowed (some a) (some path) = .deny ↔ denied := by
    rw [procPathAllowed_deny_iff, hvalid, hgpus]
  refine ⟨hgpus, hvalid, hdeny, ?_, ?_⟩
  · rw [procPathAllowed_eq_allow]
    constructor
    · rintro ⟨hdir | hknown, hno⟩
      · exact Or.inl hdir
      · exact Or.inr ⟨hknown, fun h => hno (hdeny.mpr h)⟩
    · rintro (hdir | ⟨hknown, hno⟩)
      · refine ⟨Or.inl hdir, ?_⟩
        rw [hdir]
        exact not_deny_gpusDir a
      · exact ⟨Or.inr hknown, fun h => hno (hdeny.mp h)⟩
  · rw [procPathAllowed_eq_ignore, not_or]

/-! ## What is tracked and what is denied -/

theorem ne_informationPath_of_dev (h : ascii "/dev/nvidia" <+: path) (b : CStr) : path ≠ informationPath b := by
  rintro rfl
  obtain ⟨rest, hrest⟩ := h
  have htake := congrArg (List.take 2) hrest
  revert htake
  simp [informationPath, gpusPrefix, ascii]

theorem parseNvidiaMinor_informationPath (b : CStr) : parseNvidiaMinor (informationPath b) = none := by
  cases hp : parseNvidiaMinor (informationPath b) with
  | none => rfl
  | some minor =>
      obtain ⟨ds, hpath, -⟩ := decimalAfter_eq_some.mp hp
      exact absurd rfl (ne_informationPath_of_dev ⟨ds, hpath.symm⟩ b)

/-- An information file is tracked under its bus id, which is never cut. -/
theorem classifyPath_informationPath (hb : IsBusId b) :
    classifyPath (some (informationPath b)) = (true,
      { kind := .procGpuInfo, deviceMinor := -1, path := copyString pathMax (some (informationPath b)), busId := b }) := by
  have hctl := (@ne_informationPath_of_dev (ascii "/dev/nvidiactl") ⟨ascii "ctl", by decide⟩ b).symm
  have huvm := (@ne_informationPath_of_dev (ascii "/dev/nvidia-uvm") ⟨ascii "-uvm", by decide⟩ b).symm
  have hslice : copySlice busIdMax b = b := by
    have hlt : ¬ b.length ≥ busIdMax := Nat.not_le_of_lt hb.short
    rw [copySlice, if_neg hlt, List.take_length]
  simp only [classifyPath, hctl, huvm, parseNvidiaMinor_informationPath, informationPath_ne_gpusDir,
    classifyProcGpuPath, procInfoBus_informationPath hb.nonempty hb.short hb.noSlash, hslice, ↓reduceIte]

/-- A device node is tracked under its minor. -/
theorem classifyPath_device {ds : CStr} (h : IsNumeral ds) :
    classifyPath (some (ascii "/dev/nvidia" ++ ds)) = (true,
      { kind := .nvidiaDevice, deviceMinor := Int32.ofNat (decimal ds),
        path := copyString pathMax (some (ascii "/dev/nvidia" ++ ds)), busId := [] }) := by
  have hne : ∀ cs c, c ∈ cs → isDigit c = false → ascii "/dev/nvidia" ++ ds ≠ ascii "/dev/nvidia" ++ cs := by
    intro cs c hc hdigit heq
    obtain rfl := List.append_cancel_left heq
    rw [h.2.1 c hc] at hdigit
    cases hdigit
  have hctl : ascii "/dev/nvidia" ++ ds ≠ ascii "/dev/nvidiactl" := hne (ascii "ctl") _ List.mem_cons_self (by decide)
  have huvm : ascii "/dev/nvidia" ++ ds ≠ ascii "/dev/nvidia-uvm" := hne (ascii "-uvm") _ List.mem_cons_self (by decide)
  have hminor : parseNvidiaMinor (ascii "/dev/nvidia" ++ ds) = some (Int32.ofNat (decimal ds)) := by
    rw [parseNvidiaMinor, decimalAfter_append, if_pos h]
  simp only [classifyPath, hctl, huvm, hminor, ↓reduceIte]

theorem kind_eq_procGpuInfo (h : (classifyPath (some path)).2.kind = .procGpuInfo) :
    ∃ b, path = informationPath b ∧ IsBusId b := by
  have hknown : Recognised path := by
    by_contra hno
    rw [classifyPath_of_not_recognised hno] at h
    cases h
  cases hknown with
  | ctl => cases h
  | uvm => cases h
  | device ds numeral => rw [classifyPath_device numeral] at h; cases h
  | gpusDir => exact absurd h (by decide)
  | information b pos lt noSlash => exact ⟨b, rfl, pos, lt, noSlash⟩

theorem classifyPath_busId_iff :
    (classifyPath (some path)).1 = true ∧ (classifyPath (some path)).2.kind = .procGpuInfo ∧
      (classifyPath (some path)).2.busId = b ↔ extractProcBus (some path) procBusIdMax = some b := by
  rw [extractProcBus_iff]
  constructor
  · rintro ⟨-, hkind, hbus⟩
    obtain ⟨b', rfl, hb'⟩ := kind_eq_procGpuInfo hkind
    rw [classifyPath_informationPath hb'] at hbus
    cases hbus
    exact ⟨rfl, hb'⟩
  · rintro ⟨rfl, hb⟩
    rw [classifyPath_informationPath hb]
    exact ⟨rfl, rfl, rfl⟩

/-- The bus id is that of an allowed GPU. -/
def Allows (allowed : Option AllowedGpus) (b : CStr) : Prop :=
  ∃ a, allowed = some a ∧ ∃ g ∈ a.gpus, g.busId = b

def Valid (allowed : Option AllowedGpus) : Prop :=
  ∃ a, allowed = some a ∧ a.valid = true

theorem not_deny_none : procPathAllowed none (some path) ≠ .deny := by
  intro h
  unfold procPathAllowed at h
  simp only [reduceCtorEq, ↓reduceIte] at h
  split at h
  · cases h
  · split at h <;> cases h

theorem deny_informationPath_iff (hb : IsBusId b) :
    procPathAllowed allowed (some (informationPath b)) = .deny ↔ Valid allowed ∧ ¬ Allows allowed b := by
  cases allowed with
  | none =>
      refine ⟨fun h => absurd h not_deny_none, ?_⟩
      rintro ⟨⟨_, ha, -⟩, -⟩
      cases ha
  | some a =>
      rw [procPathAllowed_informationPath hb.nonempty hb.short hb.noSlash]
      constructor
      · rintro ⟨hv, hno⟩
        refine ⟨⟨a, rfl, hv⟩, ?_⟩
        rintro ⟨_, ha, g, hg, hbus⟩
        cases ha
        exact hno g hg hbus
      · rintro ⟨⟨_, ha, hv⟩, hno⟩
        cases ha
        exact ⟨hv, fun g hg hbus => hno ⟨a, rfl, g, hg, hbus⟩⟩

theorem informationPath_of_deny (h : procPathAllowed allowed (some path) = .deny) :
    ∃ b, path = informationPath b ∧ IsBusId b := by
  cases allowed with
  | none => exact absurd h not_deny_none
  | some a =>
      obtain ⟨-, b, hpath, hb, -⟩ := procPathAllowed_deny_iff.mp h
      exact ⟨b, hpath, hb⟩

theorem ignore_of_dev (h : ascii "/dev/nvidia" <+: path) : procPathAllowed allowed (some path) = .ignore := by
  rw [procPathAllowed_eq_ignore]
  constructor
  · rintro rfl
    revert h
    decide
  · rintro ⟨b, hpath, -⟩
    exact ne_informationPath_of_dev h b hpath

/-- The classifier and the matcher of the decision cut out the same bus id. Only information files are
denied, and one that is tracked is denied if and only if its recorded bus id is not allowed; device nodes and
unknown paths are left to the kernel. -/
theorem classifier_decides (path : CStr) (allowed : Option AllowedGpus) :
    let ok := (classifyPath (some path)).1
    let record := (classifyPath (some path)).2
    (∀ b, ok = true ∧ record.kind = .procGpuInfo ∧ record.busId = b ↔
      extractProcBus (some path) procBusIdMax = some b) ∧
    (procPathAllowed allowed (some path) = .deny →
      ok = true ∧ record.kind = .procGpuInfo ∧ ¬ Allows allowed record.busId) ∧
    (ok = true → record.kind = .procGpuInfo →
      (procPathAllowed allowed (some path) = .deny ↔ Valid allowed ∧ ¬ Allows allowed record.busId)) ∧
    (ok = false ∨ record.kind = .nvidiaCtl ∨ record.kind = .nvidiaUvm ∨ record.kind = .nvidiaDevice →
      procPathAllowed allowed (some path) = .ignore) := by
  intro ok record
  refine ⟨fun b => classifyPath_busId_iff, fun hdeny => ?_, fun _ hkind => ?_, fun hother => ?_⟩
  · obtain ⟨b, rfl, hb⟩ := informationPath_of_deny hdeny
    have hrecord := classifyPath_informationPath hb
    simp only [ok, record, hrecord]
    exact ⟨trivial, trivial, ((deny_informationPath_iff hb).mp hdeny).2⟩
  · obtain ⟨b, rfl, hb⟩ := kind_eq_procGpuInfo hkind
    have hrecord := classifyPath_informationPath hb
    simp only [record, hrecord]
    exact deny_informationPath_iff hb
  · by_contra hdecided
    have hknown : Recognised path := by
      by_contra hno
      exact hdecided (procPathAllowed_of_not_recognised allowed hno)
    cases hknown with
    | ctl => exact hdecided (ignore_of_dev ⟨ascii "ctl", by decide⟩)
    | uvm => exact hdecided (ignore_of_dev ⟨ascii "-uvm", by decide⟩)
    | device ds numeral => exact hdecided (ignore_of_dev (List.prefix_append _ ds))
    | gpusDir => exact absurd hother (by decide)
    | information b pos lt noSlash =>
        have hrecord := classifyPath_informationPath ⟨pos, lt, noSlash⟩
        simp [ok, record, hrecord] at hother

end Nvscope
