import Nvscope.Lemmas.Paths

/-!
# Which GPUs are selected, and which paths that denies
-/

namespace Nvscope

open Lib

/-- A bus id that an information path can name. -/
structure IsBusId (b : CStr) : Prop where
  nonempty : 0 < b.length
  short : b.length < procBusIdMax
  noSlash : slash ∉ b

variable {mountedMinors : List Int32} {explicitUuid : Option CStr}

/-- The GPU is present, its minor is mounted, and it has the explicit UUID where a non-empty one is given. -/
def Selected (mountedMinors : List Int32) (explicitUuid : Option CStr) (info : GpuInfo) : Prop :=
  info.present = true ∧ info.deviceMinor ∈ mountedMinors ∧
    ∀ uuid, explicitUuid = some uuid → uuid ≠ [] → info.uuid = uuid

theorem isSelected_iff {info : GpuInfo} :
    isSelected mountedMinors explicitUuid info = true ↔ Selected mountedMinors explicitUuid info := by
  have hminor : minorIsMounted info.deviceMinor mountedMinors = true ↔ info.deviceMinor ∈ mountedMinors := by
    simp [minorIsMounted]
  cases explicitUuid with
  | none => simp [isSelected, Selected, hminor]
  | some uuid => simp [isSelected, Selected, hminor, and_assoc, or_iff_not_imp_left]

instance (info : GpuInfo) : Decidable (Selected mountedMinors explicitUuid info) :=
  decidable_of_iff _ isSelected_iff

def selected (infos : List GpuInfo) (mountedMinors : List Int32) (explicitUuid : Option CStr) :
    List GpuInfo :=
  infos.filter (Selected mountedMinors explicitUuid)

theorem buildLoop_eq (infos : List GpuInfo) (allowed : AllowedGpus) :
    (buildLoop mountedMinors explicitUuid infos allowed).gpus =
      allowed.gpus ++ (selected infos mountedMinors explicitUuid).take (maxGpus - allowed.gpus.length) := by
  induction infos generalizing allowed with
  | nil => simp [buildLoop, selected]
  | cons info infos ih =>
      unfold buildLoop
      by_cases hroom : allowed.gpus.length < maxGpus
      · by_cases hsel : Selected mountedMinors explicitUuid info
        · have hone : maxGpus - allowed.gpus.length = maxGpus - (allowed.push info hroom).gpus.length + 1 := by
            simp [AllowedGpus.push]; omega
          rw [dif_pos hroom, if_pos (isSelected_iff.mpr hsel), ih, selected, selected,
            List.filter_cons_of_pos (by simpa using hsel), hone, List.take_succ_cons]
          simp [AllowedGpus.push]
        · rw [dif_pos hroom, if_neg (fun h => hsel (isSelected_iff.mp h)), ih, selected, selected,
            List.filter_cons_of_neg (by simpa using hsel)]
      · have hzero : maxGpus - allowed.gpus.length = 0 := by omega
        rw [dif_neg hroom, hzero, List.take_zero, List.append_nil]

/-- Spec of `nvfix_build_allowed_gpus`: the first 32 of the selection. -/
theorem buildAllowedGpus_gpus (infos : List GpuInfo) :
    (buildAllowedGpus infos mountedMinors explicitUuid).gpus =
      (selected infos mountedMinors explicitUuid).take maxGpus := by
  unfold buildAllowedGpus
  split
  · rename_i h
    simp only [Bool.or_eq_true, decide_eq_true_eq, List.length_eq_zero_iff] at h
    rcases h with rfl | rfl
    · rfl
    · simp [selected, Selected, AllowedGpus.empty]
  · simp [buildLoop_eq, AllowedGpus.empty]

theorem buildAllowedGpus_valid (infos : List GpuInfo) :
    (buildAllowedGpus infos mountedMinors explicitUuid).valid = true ↔
      ∃ g ∈ infos, Selected mountedMinors explicitUuid g := by
  have hgpus := @buildAllowedGpus_gpus mountedMinors explicitUuid infos
  have hlen : (buildAllowedGpus infos mountedMinors explicitUuid).valid =
      decide (0 < (buildAllowedGpus infos mountedMinors explicitUuid).gpus.length) := by
    unfold buildAllowedGpus
    split <;> rfl
  have hmax : maxGpus ≠ 0 := by decide
  rw [hlen, hgpus, decide_eq_true_iff, List.length_pos_iff, ne_eq, List.take_eq_nil_iff, not_or]
  simp [selected, hmax]

end Nvscope
