import Nvscope.Lemmas.Steps

/-!
# Descriptors that have nothing to do with the GPUs

The map remembers a descriptor number, and the number outlives its owner: `closedir` releases a descriptor
without telling the shim. What the shim does to the next owner depends on whether its open writes the map.
-/

namespace Nvscope

open Lib

/-- The shim treats `fd` as unrelated to the directory of the GPUs: every entry name is accepted, the
kernel's buffer reaches the caller as it is, and no relative path is rewritten. -/
structure Unrelated (sh : Shim) (fd : Int) : Prop where
  readdir : ∀ name, readdirEntryAllowed sh fd (some name) = true
  getdents : ∀ count result buffer,
    getdents64 (fun _ _ () => ((result, buffer), ())) fd count sh () = some ⟨(result, buffer), none, sh, ()⟩
  openat : ∀ path, pathIsRelative (some path) = true →
    effectiveOpenatPath sh fd (some path) pathMax = some path

theorem unrelated_iff {sh : Shim} {fd : Int} :
    Unrelated sh fd ↔ sh.trackedAs fd .procGpusDir = false := by
  constructor
  · intro h
    by_contra hne
    have htracked : sh.trackedAs fd .procGpusDir = true := by simpa using hne
    have hnorm : normalizeRelativePath (some (ascii "x")) pathMax = some (ascii "x") := by decide
    have hrel : pathIsRelative (some (ascii "x")) = true := by decide
    have heff := h.openat (ascii "x") hrel
    simp only [effectiveOpenatPath, hrel, htracked, hnorm] at heff
    revert heff
    decide
  · intro h
    refine ⟨?_, ?_, ?_⟩
    · intro name; simp [readdirEntryAllowed, h]
    · intro count result buffer; simp [getdents64, h]
    · intro path _; simp [effectiveOpenatPath, h]

namespace World

/-- The shim treats every live descriptor as unrelated that was last opened elsewhere than at a spelling
of the directory of the GPUs. -/
def Transparent (w : World) : Prop :=
  ∀ fd f, w.os.files fd = some f → (∀ path, f.path = some path → ¬ SpellsGpusDir path) →
    Unrelated w.shim fd

/-- No path that the classifier does not know is answered with a descriptor whose slot still holds the
record of the directory of the GPUs; other spellings of that directory do not count. -/
def CleanHandout (w : World) (c : Call) : Prop :=
  ∀ fd path, w.handsOut c = some (fd, path) → classified path = none → ¬ SpellsGpusDir path →
    w.shim.trackedAs fd .procGpusDir = false

theorem CleanHandout.of_none {w : World} {c : Call} (h : w.handsOut c = none) : w.CleanHandout c := by
  intro fd path hh
  rw [h] at hh
  cases hh

instance (w : World) (c : Call) : Decidable (w.CleanHandout c) :=
  match h : w.handsOut c with
  | none => isTrue (.of_none h)
  | some (fd, path) =>
      decidable_of_iff (classified path = none → ¬ SpellsGpusDir path →
        w.shim.trackedAs fd .procGpusDir = false)
        ⟨fun hc fd' path' h' => by rw [h] at h'; cases h'; exact hc, fun hc => hc fd path h⟩

end World

/-- A path that is tracked, and does not spell the directory of the GPUs, gives its descriptor another
kind. -/
theorem trackedAs_track_false {sh : Shim} {fd : Nat} {path : CStr} {r : FdRecord} (hfd : fd < fdMapMax)
    (hr : classified path = some r) (hpath : ¬ SpellsGpusDir path) :
    (sh.track fd r).trackedAs fd .procGpusDir = false := by
  have hget : fdMapGet (sh.track fd r).fdMap fd = some r := by
    rw [fdMap_track, fdMapGet_set_self sh.fdMap r hfd]
  have hkind : r.kind ≠ .procGpusDir := by
    intro hk
    rw [eq_gpusDir_of_kind hr hk] at hpath
    exact hpath spellsGpusDir_gpusDir
  rw [Shim.trackedAs, hget]
  simpa using hkind

namespace World

theorem Transparent.of_files {w w' : World} (h : w.Transparent)
    (hkeep : ∀ fd f, w'.os.files fd = some f →
      w.os.files fd = some f ∧ fdMapGet w'.shim.fdMap fd = fdMapGet w.shim.fdMap fd) : w'.Transparent := by
  intro fd f hf hpath
  obtain ⟨hf', hget⟩ := hkeep fd f hf
  have hun := unrelated_iff.mp (h fd f hf' hpath)
  rw [unrelated_iff, trackedAs_congr hget]
  exact hun

/-- Step lemma: a call keeps the shim transparent exactly where it makes no stale handout. -/
theorem transparent_step_iff {w : World} {c : Call} (habs : c.absolute = true) (h : w.Transparent) :
    (w.step c).Transparent ↔ w.CleanHandout c := by
  cases step_effect w c habs with
  | opened fd path handed free files shim =>
      constructor
      · intro h' fd' path' hh hnone hsp
        rw [handed] at hh
        cases hh
        have hf : (w.step c).os.files fd = some ⟨some path⟩ := by rw [files, Function.update_self]
        have hun := h' fd _ hf (by rintro p hp; cases hp; exact hsp)
        rw [unrelated_iff, shim, traceAndTrackOpen_of_none hnone] at hun
        exact hun
      · intro hclean fd' f hf hpath
        rw [unrelated_iff, shim]
        by_cases heq : fd' = fd
        · subst heq
          rw [files, Function.update_self, Option.some.injEq] at hf
          subst hf
          have hsp : ¬ SpellsGpusDir path := hpath path rfl
          cases hr : classified path with
          | none =>
              rw [traceAndTrackOpen_of_none hr]
              exact hclean fd' path handed hr hsp
          | some r =>
              rw [traceAndTrackOpen_of_some hr]
              exact trackedAs_track_false free.lt hr hsp
        · rw [files, Function.update_of_ne heq] at hf
          rw [trackedAs_congr (fdMapGet_traceAndTrackOpen_of_ne (by omega)), ← unrelated_iff]
          exact h fd' f hf hpath
  | cleared fd handed files shim =>
      refine ⟨fun _ => .of_none handed, fun _ => h.of_files ?_⟩
      intro fd' f hf
      rw [files] at hf
      obtain ⟨hne, hf'⟩ := of_update_none hf
      exact ⟨hf', by rw [shim, fdMapGet_untrack_of_ne (by omega)]⟩
  | released fd handed files shim =>
      refine ⟨fun _ => .of_none handed, fun _ => h.of_files ?_⟩
      intro fd' f hf
      rw [files] at hf
      exact ⟨(of_update_none hf).2, by rw [shim]⟩
  | neither handed files shim =>
      refine ⟨fun _ => .of_none handed, fun _ => h.of_files ?_⟩
      intro fd' f hf
      rw [files] at hf
      exact ⟨hf, by rw [shim]⟩

theorem Transparent.of_untracked {w : World} (h : w.shim.fdMap = fdMapClear) : w.Transparent := by
  intro fd f _ _
  rw [unrelated_iff, Shim.trackedAs, h, fdMapGet_clear]
  rfl

/-- Whole runs: the shim stays transparent for unrelated descriptors exactly in the runs without a stale
handout. -/
theorem transparent_run_iff {w : World} (hmap : w.shim.fdMap = fdMapClear) {calls : List Call}
    (habs : ∀ c ∈ calls, c.absolute = true) :
    Always step Transparent w calls ↔ EachStep step CleanHandout w calls :=
  always_iff_eachStep (I := fun _ => True) (A := fun c => c.absolute = true) (fun _ _ _ _ => trivial)
    (fun _ _ hc _ h => transparent_step_iff hc h) habs trivial (.of_untracked hmap)

/-- A directory closed by its descriptor leaves nothing behind. -/
theorem transparent_after_close :
    Always step Transparent (start container)
      [.openPath false gpusDir ⟨0, none⟩ 3, .close 3, .openPath false (ascii "/tmp") ⟨0, none⟩ 3] :=
  (transparent_run_iff rfl (by decide)).mpr (by decide +kernel)

/-- A directory closed by its stream leaves its record to the next owner of the descriptor. -/
theorem not_transparent_after_closedir :
    ¬ ∀ (w : World) (calls : List Call), w.shim.fdMap = fdMapClear → w.shim.procFilterReady = true →
      (∀ c ∈ calls, c.absolute = true) → Always step Transparent w calls := by
  intro h
  have hlast := (h (start container) [.opendir false gpusDir 3 0 [], .closedir 0,
    .openPath false (ascii "/tmp") ⟨0, none⟩ 3] rfl rfl (by decide)).last
  have htmp : ¬ SpellsGpusDir (ascii "/tmp") := by decide
  have hun := hlast 3 ⟨some (ascii "/tmp")⟩ rfl (by rintro path ⟨⟩; exact htmp)
  have hread := hun.readdir (ascii "0000:05:00.0")
  revert hread
  decide +kernel

end World

end Nvscope
