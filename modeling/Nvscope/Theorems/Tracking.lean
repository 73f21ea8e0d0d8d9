import Nvscope.Lemmas.Steps
import Nvscope.System.Threads

/-!
# Concurrent opens and closes

Between the two halves of a call another thread may be handed the same descriptor. Tracking is lost exactly
where the second half of a call comes so late that it strikes the record of that next owner.
-/

namespace Nvscope

open Lib

namespace Threads

variable {τ : Type}

/-! ## Records that are there or on their way -/

/-- A thread outside `except` is about to write the record `r` for `fd`. -/
def Pending (s : Threads τ) (except : τ → Prop) (fd : Nat) (r : FdRecord) : Prop :=
  ∃ t path, ¬ except t ∧ s.phase t = .opened fd path ∧ classified path = some r

/-- Every live descriptor of a classified path has its record, or a thread is about to write it. -/
def Recorded (s : Threads τ) : Prop :=
  ∀ fd path r, s.os.files fd = some ⟨some path⟩ → classified path = some r →
    fdMapGet s.shim.fdMap fd = some r ∨ s.Pending (fun _ => False) fd r

/-- Every live descriptor of a classified path has its record. -/
def Tracked (s : Threads τ) : Prop :=
  ∀ fd path r, s.os.files fd = some ⟨some path⟩ → classified path = some r →
    fdMapGet s.shim.fdMap fd = some r

/-- The second half of a call comes in time: where the descriptor is in use at a classified path, the step
writes the record of that path, or another thread is about to. -/
def Timely (s : Threads τ) : Action τ → Prop
  | .openTrack t => ∀ fd p, s.phase t = .opened fd p → ∀ path r, s.os.files fd = some ⟨some path⟩ →
      classified path = some r → classified p = some r ∨ s.Pending (· = t) fd r
  | .closeRemove t => ∀ fd, s.phase t = .closed fd → ∀ path r, s.os.files fd = some ⟨some path⟩ →
      classified path = some r → s.Pending (· = t) fd r
  | _ => True

/-- A thread between the halves of an open has a record to write, for a descriptor the map has a slot for. -/
def Sound (s : Threads τ) : Prop :=
  ∀ t fd path, s.phase t = .opened fd path → fd < fdMapMax ∧ ∃ r, classified path = some r

variable {s s' : Threads τ} {t : τ} {fd : Nat} {r : FdRecord}

theorem Pending.elsewhere {q : Phase} (h : s.Pending (fun _ => False) fd r) (ht : s.phase t = q)
    (hq : ∀ path, q ≠ .opened fd path) : s.Pending (· = t) fd r := by
  obtain ⟨t', path, -, hp, hr⟩ := h
  refine ⟨t', path, ?_, hp, hr⟩
  rintro rfl
  exact hq path (ht.symm.trans hp)

theorem Initial.sound (h : s.Initial) : s.Sound := by
  intro t fd path hp
  rw [h.quiescent t] at hp
  cases hp

theorem Initial.recorded (h : s.Initial) : s.Recorded := by
  intro fd path r hf _
  have hnone := h.inherited fd _ hf
  cases hnone

theorem tracked_of_recorded (h : s.Recorded) (hquiet : s.Quiescent) : s.Tracked := by
  intro fd path r hf hr
  rcases h fd path r hf hr with hget | ⟨t, p, -, hp, -⟩
  · exact hget
  · rw [hquiet t] at hp
    cases hp

/-- A thread that still owns the descriptor it was handed is in time, -/
theorem timely_openTrack (fd : Nat) (path : CStr) (hp : s.phase t = .opened fd path)
    (hf : s.os.files fd = some ⟨some path⟩) : s.Timely (.openTrack t) := by
  intro fd' p hp' path' r hf' hr
  rw [hp] at hp'
  cases hp'
  rw [hf] at hf'
  cases hf'
  exact Or.inl hr

/-- and so is a removal while the next owner still has its record to write. -/
theorem timely_closeRemove (fd : Nat) (t' : τ) (path : CStr) (hp : s.phase t = .closed fd)
    (hp' : s.phase t' = .opened fd path) (hf : s.os.files fd = some ⟨some path⟩) :
    s.Timely (.closeRemove t) := by
  intro fd' hclosed path' r hf' hr
  rw [hp] at hclosed
  cases hclosed
  rw [hf] at hf'
  cases hf'
  refine ⟨t', path, ?_, hp', hr⟩
  rintro rfl
  rw [hp] at hp'
  cases hp'

variable [DecidableEq τ]

/-! ## A call that nobody disturbs -/

/-- The two steps of an open, one after the other, are the interposed call. -/
theorem run_open (s : Threads τ) {t : τ} (ht : s.phase t = .idle) (use64 : Bool) (path : CStr)
    (args : OpenArgs) (fd : Nat) :
    let real : RealOpen Kernel := fun path _ k => k.openFile fd path
    let r := openCommon (some real) (some real) use64 (some path) args s.shim s.os
    let s' := run step s [.openKernel t path fd, .openTrack t]
    s'.shim = r.shim ∧ s'.os = r.os ∧ s'.phase = s.phase := by
  intro real r s'
  have hphase : Function.update s.phase t .idle = s.phase := by rw [← ht, Function.update_eq_self]
  by_cases hok : procDenied s.shim (some path) = false ∧ s.os.Free fd
  · obtain ⟨hshim, hos⟩ := openCommon_of_ok use64 args hok
    rw [hshim, hos]
    cases hc : classified path with
    | none => simp [s', step, ht, hok, hc, hphase, traceAndTrackOpen_of_none hc]
    | some record => simp [s', step, ht, hok, hc, hphase]
  · obtain ⟨hshim, hos⟩ := openCommon_of_not use64 args hok
    rw [hshim, hos]
    simp [s', step, ht, hok]

/-- And so are those of a close. -/
theorem run_close (s : Threads τ) {t : τ} (ht : s.phase t = .idle) (fd : Nat) :
    let r := close (some Kernel.close) fd s.shim s.os
    let s' := run step s [.closeKernel t fd, .closeRemove t]
    s'.shim = r.shim ∧ s'.os = r.os ∧ s'.phase = s.phase := by
  intro r s'
  have hphase : Function.update s.phase t .idle = s.phase := by rw [← ht, Function.update_eq_self]
  by_cases hlive : (s.os.files fd).isSome = true
  · simp [r, s', step, ht, hlive, close, Kernel.close, hphase]
  · simp [r, s', step, ht, hlive, close, Kernel.close]

/-! ## One step -/

theorem pending_idle (hphase : s'.phase = Function.update s.phase t .idle) :
    s'.Pending (fun _ => False) fd r ↔ s.Pending (· = t) fd r := by
  constructor
  · rintro ⟨t', path, -, hp, hr⟩
    rw [hphase] at hp
    by_cases heq : t' = t
    · subst heq; rw [Function.update_self] at hp; cases hp
    · rw [Function.update_of_ne heq] at hp
      exact ⟨t', path, heq, hp, hr⟩
  · rintro ⟨t', path, hne, hp, hr⟩
    refine ⟨t', path, id, ?_, hr⟩
    rw [hphase, Function.update_of_ne hne]
    exact hp

theorem Pending.of_idle {q : Phase} (h : s.Pending (fun _ => False) fd r) (ht : s.phase t = .idle)
    (hphase : s'.phase = Function.update s.phase t q) : s'.Pending (fun _ => False) fd r := by
  obtain ⟨t', path, -, hp, hr⟩ := h
  have hne : t' ≠ t := by
    rintro rfl
    rw [ht] at hp
    cases hp
  refine ⟨t', path, id, ?_, hr⟩
  rw [hphase, Function.update_of_ne hne]
  exact hp

/-- One thread changes its phase; an open it enters is sound. -/
theorem Sound.of_phase {q : Phase} (h : s.Sound) (hphase : s'.phase = Function.update s.phase t q)
    (hq : ∀ fd path, q = .opened fd path → fd < fdMapMax ∧ ∃ r, classified path = some r) : s'.Sound := by
  intro t' fd path hp
  rw [hphase] at hp
  by_cases heq : t' = t
  · subst heq
    rw [Function.update_self] at hp
    exact hq fd path hp
  · rw [Function.update_of_ne heq] at hp
    exact h t' fd path hp

theorem sound_step (h : s.Sound) (a : Action τ) : (s.step a).Sound := by
  cases a with
  | openKernel t path fd =>
      simp only [step]
      split
      · rename_i hok
        refine h.of_phase rfl fun fd' path' hq => ?_
        split at hq
        · cases hq
        · rename_i hc
          cases hq
          exact ⟨hok.2.2.lt, Option.ne_none_iff_exists'.mp hc⟩
      · exact h
  | openTrack t =>
      simp only [step]
      split
      · exact h.of_phase rfl fun _ _ hq => by cases hq
      · exact h
  | closeKernel t fd =>
      simp only [step]
      split
      · exact h.of_phase rfl fun _ _ hq => by cases hq
      · exact h
  | closeRemove t =>
      simp only [step]
      split
      · exact h.of_phase rfl fun _ _ hq => by cases hq
      · exact h

theorem recorded_openKernel (h : s.Recorded) (t : τ) (path : CStr) (fd : Nat) :
    (s.step (.openKernel t path fd)).Recorded := by
  simp only [step]
  split
  · rename_i hok
    obtain ⟨ht, -, hfree⟩ := hok
    intro fd' path' r hf hr
    simp only [Kernel.openFile, hfree, ↓reduceIte] at hf
    by_cases heq : fd' = fd
    · subst heq
      rw [Function.update_self] at hf
      cases hf
      refine Or.inr ⟨t, path, id, ?_, hr⟩
      simp [hr]
    · rw [Function.update_of_ne heq] at hf
      rcases h fd' path' r hf hr with hget | hpend
      · exact Or.inl hget
      · exact Or.inr (hpend.of_idle ht rfl)
  · exact h

theorem recorded_closeKernel (h : s.Recorded) (t : τ) (fd : Nat) :
    (s.step (.closeKernel t fd)).Recorded := by
  simp only [step]
  split
  · rename_i hok
    obtain ⟨ht, hlive⟩ := hok
    intro fd' path r hf hr
    simp only [Kernel.close, Int.toNat_natCast, Int.natCast_nonneg, hlive, and_self, ↓reduceIte,
      Kernel.release] at hf
    rcases h fd' path r (of_update_none hf).2 hr with hget | hpend
    · exact Or.inl hget
    · exact Or.inr (hpend.of_idle ht rfl)
  · exact h

theorem recorded_openTrack_iff (hsound : s.Sound) (h : s.Recorded) (t : τ) :
    (s.step (.openTrack t)).Recorded ↔ s.Timely (.openTrack t) := by
  cases hphase : s.phase t with
  | idle => simpa [step, hphase, Timely] using h
  | closed fd => simpa [step, hphase, Timely] using h
  | opened fd p =>
      obtain ⟨hlt, rp, hp⟩ := hsound t fd p hphase
      have hself : fdMapGet (traceAndTrackOpen (some p) fd s.shim).fdMap fd = some rp := by
        rw [traceAndTrackOpen_of_some hp, fdMap_track, fdMapGet_set_self _ _ hlt]
      have hstep : s.step (.openTrack t) =
          { s with
            shim := traceAndTrackOpen (some p) fd s.shim
            phase := Function.update s.phase t .idle } := by
        simp only [step, hphase]
      rw [hstep]
      constructor
      · intro h' fd' p' hphase' path r hf hr
        rw [hphase] at hphase'
        cases hphase'
        rcases h' fd path r hf hr with hget | hpend
        · rw [hself] at hget
          exact Or.inl (hp.trans hget)
        · exact Or.inr ((pending_idle rfl).mp hpend)
      · intro htimely fd' path r hf hr
        by_cases heq : fd' = fd
        · subst heq
          rcases htimely fd' p hphase path r hf hr with hsame | hpend
          · rw [hp] at hsame
            cases hsame
            exact Or.inl hself
          · exact Or.inr ((pending_idle rfl).mpr hpend)
        · rcases h fd' path r hf hr with hget | hpend
          · refine Or.inl ?_
            rw [← hget]
            exact fdMapGet_traceAndTrackOpen_of_ne (by omega)
          · refine Or.inr ((pending_idle rfl).mpr (hpend.elsewhere hphase ?_))
            rintro path' ⟨⟩
            exact heq rfl

theorem recorded_closeRemove_iff (h : s.Recorded) (t : τ) :
    (s.step (.closeRemove t)).Recorded ↔ s.Timely (.closeRemove t) := by
  cases hphase : s.phase t with
  | idle => simpa [step, hphase, Timely] using h
  | opened fd p => simpa [step, hphase, Timely] using h
  | closed fd =>
      have hstep : s.step (.closeRemove t) =
          { s with
            shim := s.shim.untrack fd
            phase := Function.update s.phase t .idle } := by
        simp only [step, hphase]
      rw [hstep]
      constructor
      · intro h' fd' hphase' path r hf hr
        rw [hphase] at hphase'
        cases hphase'
        rcases h' fd path r hf hr with hget | hpend
        · rw [fdMapGet_untrack_self] at hget
          cases hget
        · exact (pending_idle rfl).mp hpend
      · intro htimely fd' path r hf hr
        by_cases heq : fd' = fd
        · subst heq
          exact Or.inr ((pending_idle rfl).mpr (htimely fd' hphase path r hf hr))
        · rcases h fd' path r hf hr with hget | hpend
          · refine Or.inl ?_
            rw [← hget]
            exact fdMapGet_untrack_of_ne (by omega)
          · exact Or.inr ((pending_idle rfl).mpr (hpend.elsewhere hphase fun _ h => by cases h))

/-- Step lemma: a step keeps every record, or its writer, exactly where it comes in time. -/
theorem recorded_step_iff (hsound : s.Sound) (h : s.Recorded) (a : Action τ) :
    (s.step a).Recorded ↔ s.Timely a := by
  cases a with
  | openKernel t path fd => exact ⟨fun _ => trivial, fun _ => recorded_openKernel h t path fd⟩
  | openTrack t => exact recorded_openTrack_iff hsound h t
  | closeKernel t fd => exact ⟨fun _ => trivial, fun _ => recorded_closeKernel h t fd⟩
  | closeRemove t => exact recorded_closeRemove_iff h t

/-! ## Whole runs -/

/-- The interleavings in which no record is ever lost are those all of whose steps come in time. -/
theorem recorded_run_iff (h : s.Initial) (acts : List (Action τ)) :
    Always step Recorded s acts ↔ EachStep step Timely s acts :=
  always_iff_eachStep (fun _ a _ hs => sound_step hs a) (fun _ a _ hs hr => recorded_step_iff hs hr a)
    (A := fun _ => True) (fun _ _ => trivial) h.sound h.recorded

/-- In every interleaving of any number of threads all of whose steps come in time: in every state where no
call is in progress, every live descriptor of a classified path has its record. -/
theorem tracked_run {s : Threads τ} (h : s.Initial) {acts : List (Action τ)}
    (htimely : EachStep step Timely s acts) :
    Always step (fun s => s.Quiescent → s.Tracked) s acts :=
  ((recorded_run_iff h acts).mpr htimely).mono fun _ hs hquiet => tracked_of_recorded hs hquiet

/-! ## Two threads -/

/-- One thread closes the directory of the GPUs; the other opens it in between, is handed the same descriptor,
and writes its record after the removal. -/
theorem tracked_run_close_reopen : Always step (fun s => s.Quiescent → s.Tracked) (start container : Threads Bool)
    [.openKernel false gpusDir 5, .openTrack false, .closeKernel false 5, .openKernel true gpusDir 5,
      .closeRemove false, .openTrack true] := by
  refine tracked_run (start_initial rfl) ⟨trivial, ?_, trivial, trivial, ?_, ?_, trivial⟩
  · exact timely_openTrack 5 gpusDir (by decide +kernel) (by decide +kernel)
  · exact timely_closeRemove 5 true gpusDir (by decide +kernel) (by decide +kernel) (by decide +kernel)
  · exact timely_openTrack 5 gpusDir (by decide +kernel) (by decide +kernel)

def lateRemoval : Threads Bool :=
  run step (start container) [.openKernel false gpusDir 5, .openTrack false, .closeKernel false 5,
    .openKernel true gpusDir 5, .openTrack true, .closeRemove false]

/-- The live descriptor has lost its record. -/
theorem not_tracked_lateRemoval :
    ¬ ∀ (τ : Type) (_ : DecidableEq τ) (s : Threads τ) (acts : List (Action τ)), s.Initial →
      Always step (fun s => s.Quiescent → s.Tracked) s acts := by
  intro h
  have hlast : lateRemoval.Quiescent → lateRemoval.Tracked :=
    (h Bool inferInstance (start container) _ (start_initial rfl)).last
  have hquiet : lateRemoval.Quiescent := by
    intro t
    cases t <;> decide +kernel
  obtain ⟨r, hr, -⟩ := classified_gpusDir
  have hget := hlast hquiet 5 gpusDir r (by decide +kernel) hr
  have hnone : fdMapGet lateRemoval.shim.fdMap (5 : Nat) = none := by decide +kernel
  rw [hnone] at hget
  cases hget

end Threads

end Nvscope
