import Nvscope.Lemmas.Selection

/-!
# Restricting the filter to one UUID

A UUID makes the selection smaller, and a smaller selection denies more, as long as it is not empty: an
empty selection is not valid and switches the filter off.
-/

namespace Nvscope

open Lib

/-- The library as it starts on these GPUs and mounted minors, with or without an explicit UUID. -/
def startedWith (cfg : Config) (infos : List GpuInfo) (mountedMinors : List Int32)
    (explicitUuid : Option CStr) : Shim :=
  nvfixConstructor { cfg with gpuUuidSet := explicitUuid.isSome, gpuUuid := explicitUuid.getD [] }
    (selection infos mountedMinors)

variable {cfg : Config} {infos : List GpuInfo} {mountedMinors : List Int32} {explicitUuid : Option CStr}

theorem startedWith_eq (hcfg : cfg.procFilterEnabled = true) :
    (startedWith cfg infos mountedMinors explicitUuid).allowed =
        buildAllowedGpus infos mountedMinors explicitUuid ∧
      (startedWith cfg infos mountedMinors explicitUuid).procFilterReady =
        (buildAllowedGpus infos mountedMinors explicitUuid).valid := by
  have huuid : (if explicitUuid.isSome then some (explicitUuid.getD []) else none) = explicitUuid := by
    cases explicitUuid <;> rfl
  simp [startedWith, nvfixConstructor, hcfg, huuid, selection]

/-- What a start denies: the information paths of the GPUs outside the first 32 selected, where any is
selected. -/
theorem denied_startedWith (hcfg : cfg.procFilterEnabled = true) {b : CStr} (hb : IsBusId b) :
    procDenied (startedWith cfg infos mountedMinors explicitUuid) (some (informationPath b)) = true ↔
      (∃ g ∈ infos, Selected mountedMinors explicitUuid g) ∧
        ∀ g ∈ (selected infos mountedMinors explicitUuid).take maxGpus, g.busId ≠ b := by
  obtain ⟨hallowed, hready⟩ := @startedWith_eq cfg infos mountedMinors explicitUuid hcfg
  have habs : pathIsAbsolute (some (informationPath b)) = true := by
    simp [pathIsAbsolute, head_informationPath]
  rw [procDenied, habs, hallowed, hready, Bool.and_true, Bool.and_eq_true, beq_iff_eq,
    procPathAllowed_informationPath hb.nonempty hb.short hb.noSlash, buildAllowedGpus_valid,
    buildAllowedGpus_gpus]
  exact ⟨fun h => h.2, fun h => ⟨h.1, h⟩⟩

theorem selected_sublist (infos : List GpuInfo) (mountedMinors : List Int32) (explicitUuid : Option CStr) :
    (selected infos mountedMinors explicitUuid).Sublist (selected infos mountedMinors none) := by
  refine List.monotone_filter_right infos fun g hg => ?_
  obtain ⟨hpresent, hminor, -⟩ := of_decide_eq_true hg
  exact decide_eq_true ⟨hpresent, hminor, fun _ h => by cases h⟩

/-- A UUID that one of the selected GPUs has, of which there are at most 32, never widens what is visible;
and in general it denies what the first 32 GPUs with it do not cover, if there are any. -/
theorem uuid_narrows (hcfg : cfg.procFilterEnabled = true) (infos : List GpuInfo)
    (mountedMinors : List Int32) (uuid : CStr) {b : CStr} (hb : IsBusId b) :
    (procDenied (startedWith cfg infos mountedMinors (some uuid)) (some (informationPath b)) = true ↔
      (∃ g ∈ infos, Selected mountedMinors (some uuid) g) ∧
        ∀ g ∈ (selected infos mountedMinors (some uuid)).take maxGpus, g.busId ≠ b) ∧
    ((selected infos mountedMinors none).length ≤ maxGpus →
      (∃ g ∈ infos, Selected mountedMinors (some uuid) g) →
      procDenied (startedWith cfg infos mountedMinors none) (some (informationPath b)) = true →
      procDenied (startedWith cfg infos mountedMinors (some uuid)) (some (informationPath b)) = true) := by
  refine ⟨denied_startedWith hcfg hb, fun hcap hsome hbase => ?_⟩
  rw [denied_startedWith hcfg hb] at hbase ⊢
  refine ⟨hsome, fun g hg => hbase.2 g ?_⟩
  rw [List.take_of_length_le hcap]
  exact (selected_sublist infos mountedMinors (some uuid)).subset (List.mem_of_mem_take hg)

/-- The container, restricted to the GPU it mounts, still hides the other. -/
theorem uuid_narrows_container :
    procDenied (startedWith filterConfig hostGpus [0] (some (ascii "GPU-4")))
      (some (informationPath (ascii "0000:05:00.0"))) = true :=
  (uuid_narrows rfl hostGpus [0] (ascii "GPU-4") ⟨by decide, by decide, by decide⟩).2 (by decide)
    ⟨_, List.mem_cons_self, by decide⟩ (by decide)

/-- More GPUs than the filter has room for, of which only the last has another UUID. -/
def crowdedHost : List GpuInfo :=
  List.replicate maxGpus ⟨true, 0, ascii "0000:04:00.0", ascii "GPU-4"⟩ ++
    [⟨true, 0, ascii "0000:05:00.0", ascii "GPU-5"⟩]

/-- A UUID that no GPU has shows a path that was denied without it. Where a GPU has it, it can still show a
path, of a GPU for which there was no room without it. -/
theorem uuid_widens :
    (¬ ∀ (cfg : Config) (infos : List GpuInfo) (mountedMinors : List Int32) (uuid b : CStr),
      cfg.procFilterEnabled = true → uuid ≠ [] → IsBusId b →
      procDenied (startedWith cfg infos mountedMinors none) (some (informationPath b)) = true →
      procDenied (startedWith cfg infos mountedMinors (some uuid)) (some (informationPath b)) = true) ∧
    ¬ ∀ (cfg : Config) (infos : List GpuInfo) (mountedMinors : List Int32) (uuid b : CStr),
      cfg.procFilterEnabled = true → uuid ≠ [] → IsBusId b →
      (∃ g ∈ infos, Selected mountedMinors (some uuid) g) →
      procDenied (startedWith cfg infos mountedMinors none) (some (informationPath b)) = true →
      procDenied (startedWith cfg infos mountedMinors (some uuid)) (some (informationPath b)) = true := by
  have hbus : IsBusId (ascii "0000:05:00.0") := ⟨by decide, by decide, by decide⟩
  constructor
  · intro h
    have hshown := h filterConfig hostGpus [0] (ascii "GPU-6") (ascii "0000:05:00.0") rfl (by decide) hbus
      (by decide)
    revert hshown
    decide
  · intro h
    have hshown := h filterConfig crowdedHost [0] (ascii "GPU-5") (ascii "0000:05:00.0") rfl (by decide) hbus
      (by decide +kernel) (by decide +kernel)
    revert hshown
    decide +kernel

end Nvscope
