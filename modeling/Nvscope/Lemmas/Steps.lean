import Nvscope.Lemmas.Paths
import Nvscope.Lemmas.Streams

/-!
# What one call can do to the descriptor table and the map
-/

namespace Nvscope

open Lib

/-- What a table still holds after one entry was cleared is another entry. -/
theorem of_update_none {α β : Type} [DecidableEq α] {f : α → Option β} {a a' : α} {b : β}
    (h : Function.update f a none a' = some b) : a' ≠ a ∧ f a' = some b := by
  by_cases heq : a' = a
  · subst heq; rw [Function.update_self] at h; cases h
  · rw [Function.update_of_ne heq] at h
    exact ⟨heq, h⟩

/-! ## Tracking -/

@[simp] theorem fdMap_track (sh : Shim) (fd : Int) (r : FdRecord) :
    (sh.track fd r).fdMap = fdMapSet sh.fdMap fd r :=
  rfl

@[simp] theorem fdMap_untrack (sh : Shim) (fd : Int) : (sh.untrack fd).fdMap = fdMapRemove sh.fdMap fd :=
  rfl

theorem trackedAs_iff {sh : Shim} {fd : Int} {kind : FdKind} :
    sh.trackedAs fd kind = true ↔ ∃ r, fdMapGet sh.fdMap fd = some r ∧ r.kind = kind := by
  cases h : fdMapGet sh.fdMap fd <;> simp [Shim.trackedAs, h]

theorem trackedAs_congr {sh sh' : Shim} {fd : Int} {kind : FdKind}
    (h : fdMapGet sh'.fdMap fd = fdMapGet sh.fdMap fd) : sh'.trackedAs fd kind = sh.trackedAs fd kind := by
  rw [Shim.trackedAs, Shim.trackedAs, h]

theorem fdMapGet_untrack_self (sh : Shim) (fd : Int) : fdMapGet (sh.untrack fd).fdMap fd = none := by
  rw [fdMap_untrack, fdMapGet_remove_self]

theorem fdMapGet_untrack_of_ne {sh : Shim} {fd fd' : Int} (h : fd' ≠ fd) :
    fdMapGet (sh.untrack fd).fdMap fd' = fdMapGet sh.fdMap fd' := by
  rw [fdMap_untrack, fdMapGet_remove_of_ne _ h]

theorem pathIsRelative_of_absolute {path : CStr} (h : path.head? = some slash) :
    pathIsRelative (some path) = false := by
  simp [pathIsRelative, h]

theorem effectiveOpenatPath_of_absolute {sh : Shim} {dirfd : Int} {path : CStr} {n : Nat}
    (h : path.head? = some slash) : effectiveOpenatPath sh dirfd (some path) n = some path := by
  simp [effectiveOpenatPath, pathIsRelative_of_absolute h]

/-- Tracking a path writes one slot or nothing. -/
theorem traceAndTrackOpen_cases (path : Option CStr) (fd : Int) (sh : Shim) :
    traceAndTrackOpen path fd sh = sh ∨ 0 ≤ fd ∧ ∃ r, traceAndTrackOpen path fd sh = sh.track fd r := by
  simp only [traceAndTrackOpen]
  split
  · exact Or.inl rfl
  · split
    · rename_i hfd; exact Or.inr ⟨hfd, _, rfl⟩
    · exact Or.inl rfl

theorem traceAndTrackOpen_of_neg {path : Option CStr} {fd : Int} {sh : Shim} (h : fd < 0) :
    traceAndTrackOpen path fd sh = sh := by
  rcases traceAndTrackOpen_cases path fd sh with he | ⟨hfd, -⟩
  · exact he
  · omega

theorem traceAndTrackOpen_of_none {path : CStr} {fd : Int} {sh : Shim} (h : classified path = none) :
    traceAndTrackOpen (some path) fd sh = sh := by
  simp [traceAndTrackOpen, classified_eq_none.mp h]

theorem traceAndTrackOpen_of_some {path : CStr} {fd : Nat} {sh : Shim} {r : FdRecord}
    (h : classified path = some r) : traceAndTrackOpen (some path) fd sh = sh.track fd r := by
  simp [traceAndTrackOpen, classified_eq_some.mp h]

/-- The open functions inline what `nvfix_trace_and_track_open` does. -/
theorem openCommon_track (path : Option CStr) (fd : Int) (sh : Shim) :
    (if (classifyPath path).1 && decide (fd ≥ 0) then sh.track fd (classifyPath path).2 else sh) =
      traceAndTrackOpen path fd sh := by
  unfold traceAndTrackOpen
  cases h : (classifyPath path).1 <;> simp [h]

theorem openCommon_of_ok {sh : Shim} {os : Kernel} {path : CStr} {fd : Nat} (use64 : Bool) (args : OpenArgs)
    (h : procDenied sh (some path) = false ∧ os.Free fd) :
    let real : RealOpen Kernel := fun path _ k => k.openFile fd path
    let r := openCommon (some real) (some real) use64 (some path) args sh os
    r.shim = traceAndTrackOpen (some path) fd sh ∧ r.os = (os.openFile fd (some path)).2 := by
  intro real r
  have hreal : (if use64 then (some real).or (some real) else some real) = some real := by
    cases use64 <;> rfl
  have hfd : (real (some path) args os).1 = fd := by simp [real, Kernel.openFile, h.2]
  simp only [r, openCommon, h.1, hreal, Bool.false_eq_true, ↓reduceIte]
  exact ⟨by rw [hfd, openCommon_track], rfl⟩

theorem openCommon_of_not {sh : Shim} {os : Kernel} {path : CStr} {fd : Nat} (use64 : Bool) (args : OpenArgs)
    (h : ¬ (procDenied sh (some path) = false ∧ os.Free fd)) :
    let real : RealOpen Kernel := fun path _ k => k.openFile fd path
    let r := openCommon (some real) (some real) use64 (some path) args sh os
    r.shim = sh ∧ r.os = os := by
  intro real r
  cases hden : procDenied sh (some path) with
  | true => simp [r, openCommon, hden]
  | false =>
      have hreal : (if use64 then (some real).or (some real) else some real) = some real := by
        cases use64 <;> rfl
      have hfree : ¬ os.Free fd := fun hf => h ⟨hden, hf⟩
      have hresult : real (some path) args os = (-1, os) := by simp [real, Kernel.openFile, hfree]
      simp only [r, openCommon, hden, hreal, Bool.false_eq_true, ↓reduceIte, hresult]
      exact ⟨by rw [openCommon_track, traceAndTrackOpen_of_neg (by decide)], trivial⟩

theorem fdMapGet_traceAndTrackOpen_of_ne {path : Option CStr} {fd fd' : Int} {sh : Shim} (h : fd' ≠ fd) :
    fdMapGet (traceAndTrackOpen path fd sh).fdMap fd' = fdMapGet sh.fdMap fd' := by
  rcases traceAndTrackOpen_cases path fd sh with he | ⟨-, r, he⟩
  · rw [he]
  · rw [he]; exact fdMapGet_set_of_ne _ _ h

theorem traceAndTrackOpen_frame (path : Option CStr) (fd : Int) (sh : Shim) :
    traceAndTrackOpen path fd sh = { sh with fdMap := (traceAndTrackOpen path fd sh).fdMap } := by
  rcases traceAndTrackOpen_cases path fd sh with he | ⟨-, r, he⟩ <;> rw [he]
  rfl

/-! ## Opening and releasing -/

namespace World

/-- The descriptor an opening call is answered with, and the path it leads to. -/
def handsOut (w : World) : Call → Option (Nat × CStr)
  | .openPath _ path _ fd | .openatPath _ _ path _ fd =>
      if procDenied w.shim (some path) = false ∧ w.os.Free fd then some (fd, path) else none
  | .opendir _ path fd dir _ =>
      if procDenied w.shim (some path) = false ∧ w.os.Free fd ∧ w.os.dirs dir = none then some (fd, path)
      else none
  | _ => none

/-- What a call on absolute paths does: it opens one descriptor, or releases one, with or without
clearing its slot, or leaves both tables alone. -/
inductive Effect (w : World) (c : Call) (w' : World) : Prop where
  | opened (fd : Nat) (path : CStr) (handed : w.handsOut c = some (fd, path)) (free : w.os.Free fd)
      (files : w'.os.files = Function.update w.os.files fd (some ⟨some path⟩))
      (shim : w'.shim = traceAndTrackOpen (some path) fd w.shim)
  | cleared (fd : Nat) (handed : w.handsOut c = none)
      (files : w'.os.files = Function.update w.os.files fd none)
      (shim : w'.shim = w.shim.untrack fd)
  | released (fd : Nat) (handed : w.handsOut c = none)
      (files : w'.os.files = Function.update w.os.files fd none) (shim : w'.shim = w.shim)
  | neither (handed : w.handsOut c = none) (files : w'.os.files = w.os.files) (shim : w'.shim = w.shim)

theorem step_openPath_effect (w : World) (use64 : Bool) (path : CStr) (args : OpenArgs) (fd : Nat) :
    Effect w (.openPath use64 path args fd) (w.step (.openPath use64 path args fd)) := by
  by_cases hok : procDenied w.shim (some path) = false ∧ w.os.Free fd
  · obtain ⟨hshim, hos⟩ := openCommon_of_ok use64 args hok
    refine .opened fd path (if_pos hok) hok.2 ?_ hshim
    simp only [step, after, hos]
    simp [Kernel.openFile, hok.2]
  · obtain ⟨hshim, hos⟩ := openCommon_of_not use64 args hok
    refine .neither (if_neg hok) ?_ hshim
    simp only [step, after, hos]

/-- An `openat` opens what the kernel makes of its arguments, and tracks the rewritten path where that is
absolute, or it leaves both tables alone. -/
theorem step_openatPath_cases (w : World) (use64 : Bool) (dirfd : Int) (path : CStr) (args : OpenArgs)
    (fd : Nat) :
    let effective := effectiveOpenatPath w.shim dirfd (some path) pathMax
    let w' := w.step (.openatPath use64 dirfd path args fd)
    (∃ resolved, procDenied w.shim effective = false ∧ w.os.resolve dirfd path = some resolved ∧
      w.os.Free fd ∧ w'.os.files = Function.update w.os.files fd (some ⟨some resolved⟩) ∧
      w'.shim = if pathIsAbsolute effective || dirfd = atFdcwd then traceAndTrackOpen effective fd w.shim
        else w.shim) ∨
    w'.os.files = w.os.files ∧ w'.shim = w.shim ∧
      ¬ (procDenied w.shim effective = false ∧ (w.os.resolve dirfd path).isSome ∧ w.os.Free fd) := by
  intro effective w'
  have hor : ∀ r : RealOpenat Kernel, (if use64 then (some r).or (some r) else some r) = some r := by
    intro r; cases use64 <;> rfl
  have hfailed : (if pathIsAbsolute effective || dirfd = atFdcwd then traceAndTrackOpen effective (-1) w.shim
      else w.shim) = w.shim := by
    split
    · exact traceAndTrackOpen_of_neg (by decide)
    · rfl
  cases hden : procDenied w.shim effective with
  | true =>
      have hstep : w' = w := by simp only [w', step, openatCommon, effective, hden, after, ↓reduceIte]
      exact Or.inr ⟨by rw [hstep], by rw [hstep], by simp⟩
  | false =>
      cases hres : w.os.resolve dirfd path with
      | none =>
          have hos : w'.os = w.os ∧ w'.shim = w.shim := by
            simp only [w', step, openatCommon, effective, hden, hor, hres, after, Kernel.openFile,
              Option.bind_some, Bool.false_eq_true, ↓reduceIte]
            exact ⟨trivial, hfailed⟩
          exact Or.inr ⟨by rw [hos.1], hos.2, by simp⟩
      | some resolved =>
          by_cases hfree : w.os.Free fd
          · refine Or.inl ⟨resolved, rfl, rfl, hfree, ?_, ?_⟩ <;>
            simp only [w', step, openatCommon, effective, hden, hor, hres, after, Kernel.openFile, hfree,
              Option.bind_some, Bool.false_eq_true, ↓reduceIte]
          · have hos : w'.os = w.os ∧ w'.shim = w.shim := by
              simp only [w', step, openatCommon, effective, hden, hor, hres, after, Kernel.openFile, hfree,
                Option.bind_some, Bool.false_eq_true, ↓reduceIte]
              exact ⟨trivial, hfailed⟩
            exact Or.inr ⟨by rw [hos.1], hos.2, fun h => hfree h.2.2⟩

theorem step_openatPath_effect (w : World) (use64 : Bool) (dirfd : Int) (path : CStr) (args : OpenArgs)
    (fd : Nat) (habs : path.head? = some slash) :
    Effect w (.openatPath use64 dirfd path args fd) (w.step (.openatPath use64 dirfd path args fd)) := by
  have heff : effectiveOpenatPath w.shim dirfd (some path) pathMax = some path :=
    effectiveOpenatPath_of_absolute habs
  have hres : w.os.resolve dirfd path = some path := by simp [Kernel.resolve, habs]
  have habs' : pathIsAbsolute (some path) = true := by simp [pathIsAbsolute, habs]
  have hcases := w.step_openatPath_cases use64 dirfd path args fd
  simp only [heff, hres, habs', Bool.true_or, ↓reduceIte, Option.isSome_some, true_and] at hcases
  rcases hcases with ⟨resolved, hden, hresolved, hfree, hfiles, hshim⟩ | ⟨hfiles, hshim, hno⟩
  · cases hresolved
    exact .opened fd path (if_pos ⟨hden, hfree⟩) hfree hfiles hshim
  · exact .neither (if_neg hno) hfiles hshim

theorem step_opendir_of_ok {w : World} (use64 : Bool) (path : CStr) {fd dir : Nat} (listing : List CStr)
    (h : procDenied w.shim (some path) = false ∧ w.os.Free fd ∧ w.os.dirs dir = none) :
    w.step (.opendir use64 path fd dir listing) =
      { shim := traceAndTrackOpen (some path) fd w.shim
        os := (w.os.openFile fd (some path)).2.addDir dir fd listing
        heard := Function.update w.heard dir []
        ended := Function.update w.ended dir false } := by
  have hdirfd : Kernel.dirfd dir ((w.os.openFile fd (some path)).2.addDir dir fd listing) = fd := by
    simp [Kernel.dirfd, Kernel.addDir]
  cases use64 <;> simp [step, opendirCommon, h, after, forget, Kernel.opendir, hdirfd]

theorem step_opendir_of_not {w : World} (use64 : Bool) (path : CStr) {fd dir : Nat} (listing : List CStr)
    (h : ¬ (procDenied w.shim (some path) = false ∧ w.os.Free fd ∧ w.os.dirs dir = none)) :
    w.step (.opendir use64 path fd dir listing) = w := by
  cases hden : procDenied w.shim (some path) with
  | true => simp [step, opendirCommon, hden, after, forget]
  | false =>
      have htaken : ¬ (w.os.Free fd ∧ w.os.dirs dir = none) := fun hf => h ⟨hden, hf⟩
      cases use64 <;> simp [step, opendirCommon, hden, after, forget, Kernel.opendir, htaken]

theorem step_opendir_effect (w : World) (use64 : Bool) (path : CStr) (fd dir : Nat)
    (listing : List CStr) :
    Effect w (.opendir use64 path fd dir listing) (w.step (.opendir use64 path fd dir listing)) := by
  by_cases hok : procDenied w.shim (some path) = false ∧ w.os.Free fd ∧ w.os.dirs dir = none
  · rw [step_opendir_of_ok use64 path listing hok]
    refine .opened fd path (if_pos hok) hok.2.1 ?_ rfl
    simp [Kernel.openFile, hok.2.1, Kernel.addDir]
  · rw [step_opendir_of_not use64 path listing hok]
    exact .neither (if_neg hok) rfl rfl

theorem step_close_effect (w : World) (fd : Int) : Effect w (.close fd) (w.step (.close fd)) := by
  by_cases hlive : 0 ≤ fd ∧ (w.os.files fd.toNat).isSome
  · have hfd : ((fd.toNat : Nat) : Int) = fd := by omega
    refine .cleared fd.toNat rfl ?_ ?_
    · simp [step, Nvscope.close, after, Kernel.close, hlive, Kernel.release]
    · simp [step, Nvscope.close, after, Kernel.close, hlive, hfd]
  · refine .neither rfl ?_ ?_ <;> simp [step, Nvscope.close, after, Kernel.close, hlive]

theorem step_closedir_effect (w : World) (dir : Nat) :
    Effect w (.closedir dir) (w.step (.closedir dir)) := by
  cases hdir : w.os.dirs dir with
  | none => refine .neither rfl ?_ ?_ <;> simp [step, Kernel.closedir, hdir]
  | some s =>
      by_cases hlive : (w.os.files s.fd).isSome
      · refine .released s.fd rfl ?_ rfl
        simp [step, Kernel.closedir, hdir, Kernel.close, hlive, Kernel.release]
      · refine .neither rfl ?_ rfl
        simp [step, Kernel.closedir, hdir, Kernel.close, hlive]

theorem step_effect (w : World) (c : Call) (habs : c.absolute = true) : Effect w c (w.step c) := by
  cases c with
  | openPath use64 path args fd => exact step_openPath_effect w use64 path args fd
  | openatPath use64 dirfd path args fd =>
      exact step_openatPath_effect w use64 dirfd path args fd (by simpa [Call.absolute] using habs)
  | opendir use64 path fd dir listing => exact step_opendir_effect w use64 path fd dir listing
  | fdopendir fd dir listing =>
      refine .neither rfl ?_ ?_
      · simp only [step, Nvscope.fdopendir, Kernel.fdopendir]
        split <;> rfl
      · simp only [step, Nvscope.fdopendir, Kernel.fdopendir]
        split <;> rfl
  | readdir use64 dir =>
      cases h : w.os.dirs dir with
      | none =>
          rw [step_readdir_of_none use64 h, hear_eq]
          exact .neither rfl rfl rfl
      | some s =>
          rw [step_readdir_of_some use64 h, hear_eq]
          exact .neither rfl rfl rfl
  | close fd => exact step_close_effect w fd
  | closedir dir => exact step_closedir_effect w dir

/-! ## Streams -/

/-- How a stream of the state after a call came about: it was there, or it is new, or it was read. -/
inductive StreamEffect (w w' : World) (dir : Nat) (s : DirStream) : Prop where
  | kept (old : w.os.dirs dir = some s)
      (files : (w.os.files s.fd).isSome = true → w'.os.files s.fd = w.os.files s.fd)
      (heard : w'.heard dir = w.heard dir) (ended : w'.ended dir = w.ended dir)
  | fresh (unread : s.remaining = s.listing) (live : (w'.os.files s.fd).isSome = true)
      (heard : w'.heard dir = []) (ended : w'.ended dir = false)
  | read (s₀ : DirStream) (old : w.os.dirs dir = some s₀)
      (next : s = { s₀ with remaining := (firstAllowed w.shim s₀.fd s₀.remaining).tail })
      (files : w'.os.files = w.os.files)
      (heard : w'.heard dir = w.heard dir ++ (firstAllowed w.shim s₀.fd s₀.remaining).head?.toList)
      (ended : w'.ended dir = (w.ended dir || (firstAllowed w.shim s₀.fd s₀.remaining).head?.isNone))

variable {w w' : World} {dir : Nat} {s : DirStream}

theorem StreamEffect.of_openFile {fd : Nat} {path : Option CStr}
    (hos : w'.os = w.os ∨ w'.os = (w.os.openFile fd path).2) (hheard : w'.heard = w.heard)
    (hended : w'.ended = w.ended) (h : w'.os.dirs dir = some s) : StreamEffect w w' dir s := by
  rcases hos with hos | hos
  · rw [hos] at h
    exact .kept h (fun _ => by rw [hos]) (by rw [hheard]) (by rw [hended])
  · rw [hos, Kernel.dirs_openFile] at h
    refine .kept h (fun hlive => ?_) (by rw [hheard]) (by rw [hended])
    rw [hos, Kernel.files_openFile_of_live hlive]

theorem step_openPath_stream (use64 : Bool) (path : CStr) (args : OpenArgs) (fd : Nat)
    (h : (w.step (.openPath use64 path args fd)).os.dirs dir = some s) :
    StreamEffect w (w.step (.openPath use64 path args fd)) dir s := by
  refine @StreamEffect.of_openFile w _ dir s fd (some path) ?_ rfl rfl h
  by_cases hok : procDenied w.shim (some path) = false ∧ w.os.Free fd
  · exact Or.inr (openCommon_of_ok use64 args hok).2
  · exact Or.inl (openCommon_of_not use64 args hok).2

theorem step_openatPath_stream (use64 : Bool) (dirfd : Int) (path : CStr) (args : OpenArgs) (fd : Nat)
    (h : (w.step (.openatPath use64 dirfd path args fd)).os.dirs dir = some s) :
    StreamEffect w (w.step (.openatPath use64 dirfd path args fd)) dir s := by
  refine @StreamEffect.of_openFile w _ dir s fd (w.os.resolve dirfd path) ?_ rfl rfl h
  cases hden : procDenied w.shim (effectiveOpenatPath w.shim dirfd (some path) pathMax) with
  | true => left; simp [step, openatCommon, hden, after]
  | false => right; cases use64 <;> simp [step, openatCommon, hden, after]

theorem StreamEffect.of_addDir {fd dir' : Nat} {listing : List CStr} {k : Kernel}
    (hos : w'.os = k.addDir dir' fd listing) (hdirs : k.dirs = w.os.dirs)
    (hfiles : ∀ fd', (w.os.files fd').isSome = true → k.files fd' = w.os.files fd')
    (hlive : (k.files fd).isSome = true)
    (hheard : w'.heard = Function.update w.heard dir' [])
    (hended : w'.ended = Function.update w.ended dir' false)
    (h : w'.os.dirs dir = some s) : StreamEffect w w' dir s := by
  by_cases heq : dir = dir'
  · subst heq
    rw [hos] at h
    simp only [Kernel.addDir, Function.update_self, Option.some.injEq] at h
    subst h
    exact .fresh rfl (by rw [hos]; exact hlive) (by rw [hheard, Function.update_self])
      (by rw [hended, Function.update_self])
  · rw [hos] at h
    simp only [Kernel.addDir, Function.update_of_ne heq, hdirs] at h
    exact .kept h (fun hl => by rw [hos]; exact hfiles _ hl) (by rw [hheard, Function.update_of_ne heq])
      (by rw [hended, Function.update_of_ne heq])

theorem StreamEffect.of_eq (hos : w'.os = w.os) (hheard : w'.heard = w.heard) (hended : w'.ended = w.ended)
    (h : w'.os.dirs dir = some s) : StreamEffect w w' dir s :=
  .kept (by rw [← hos]; exact h) (fun _ => by rw [hos]) (by rw [hheard]) (by rw [hended])

theorem step_opendir_stream (use64 : Bool) (path : CStr) (fd dir' : Nat) (listing : List CStr)
    (h : (w.step (.opendir use64 path fd dir' listing)).os.dirs dir = some s) :
    StreamEffect w (w.step (.opendir use64 path fd dir' listing)) dir s := by
  by_cases hok : procDenied w.shim (some path) = false ∧ w.os.Free fd ∧ w.os.dirs dir' = none
  · have hstep := step_opendir_of_ok use64 path listing hok
    rw [hstep] at h ⊢
    have hopen : (w.os.openFile fd (some path)).2.files fd = some ⟨some path⟩ := by
      simp [Kernel.openFile, hok.2.1]
    exact .of_addDir rfl (Kernel.dirs_openFile _ _ _)
      (fun _ hlive => Kernel.files_openFile_of_live hlive) (by rw [hopen]; rfl) rfl rfl h
  · rw [step_opendir_of_not use64 path listing hok] at h ⊢
    exact .of_eq rfl rfl rfl h

theorem step_fdopendir_stream (fd : Int) (dir' : Nat) (listing : List CStr)
    (h : (w.step (.fdopendir fd dir' listing)).os.dirs dir = some s) :
    StreamEffect w (w.step (.fdopendir fd dir' listing)) dir s := by
  by_cases hok : 0 ≤ fd ∧ (w.os.files fd.toNat).isSome ∧ w.os.dirs dir' = none
  · refine @StreamEffect.of_addDir w _ dir s fd.toNat dir' listing w.os ?_ rfl (fun _ _ => rfl) hok.2.1
      ?_ ?_ h <;>
    simp [step, Nvscope.fdopendir, after, forget, Kernel.fdopendir, hok]
  · refine StreamEffect.of_eq ?_ ?_ ?_ h <;>
    simp [step, Nvscope.fdopendir, after, forget, Kernel.fdopendir, hok]

theorem StreamEffect.of_close {fd : Int} {k : Kernel} (hos : w'.os = (k.close fd).2)
    (hdirs : ∀ s, k.dirs dir = some s → w.os.dirs dir = some s) (hfiles : k.files = w.os.files)
    (hheard : w'.heard = w.heard) (hended : w'.ended = w.ended) (h : w'.os.dirs dir = some s)
    (hatt : s.attached = true) : StreamEffect w w' dir s := by
  unfold Kernel.close at hos
  split at hos
  · rw [hos] at h
    obtain ⟨hold, hkept⟩ := Kernel.dirs_release h hatt
    exact .kept (hdirs s hold) (fun _ => by rw [hos, hkept, hfiles]) (by rw [hheard]) (by rw [hended])
  · rw [hos] at h
    exact .kept (hdirs s h) (fun _ => by rw [hos, hfiles]) (by rw [hheard]) (by rw [hended])

theorem step_closedir_stream (dir' : Nat) (h : (w.step (.closedir dir')).os.dirs dir = some s)
    (hatt : s.attached = true) : StreamEffect w (w.step (.closedir dir')) dir s := by
  cases hdir : w.os.dirs dir' with
  | none => exact .of_eq (by simp [step, Kernel.closedir, hdir]) rfl rfl h
  | some s' =>
      refine @StreamEffect.of_close w _ dir s s'.fd
        { w.os with dirs := Function.update w.os.dirs dir' none } ?_ ?_ rfl rfl rfl h hatt
      · simp [step, Kernel.closedir, hdir]
      · intro s₀ hs₀
        exact (of_update_none hs₀).2

theorem step_readdir_stream (use64 : Bool) (dir' : Nat)
    (h : (w.step (.readdir use64 dir')).os.dirs dir = some s) :
    StreamEffect w (w.step (.readdir use64 dir')) dir s := by
  cases hdir : w.os.dirs dir' with
  | none =>
      have hstep := step_readdir_of_none use64 hdir
      rw [hear_eq] at hstep
      rw [hstep] at h ⊢
      have hne : dir ≠ dir' := by
        rintro rfl
        rw [hdir] at h
        cases h
      exact .kept h (fun _ => rfl) (Function.update_of_ne hne _ _) (Function.update_of_ne hne _ _)
  | some s' =>
      have hstep := step_readdir_of_some use64 hdir
      rw [hear_eq] at hstep
      rw [hstep] at h ⊢
      by_cases heq : dir = dir'
      · subst heq
        rw [Kernel.dirs_leave, Option.some.injEq] at h
        exact .read s' hdir h.symm rfl (Function.update_self _ _ _) (Function.update_self _ _ _)
      · rw [Kernel.dirs_leave_of_ne heq] at h
        exact .kept h (fun _ => rfl) (Function.update_of_ne heq _ _) (Function.update_of_ne heq _ _)

theorem step_stream (w : World) (c : Call) {dir : Nat} {s : DirStream}
    (h : (w.step c).os.dirs dir = some s) (hatt : s.attached = true) :
    StreamEffect w (w.step c) dir s := by
  cases c with
  | openPath use64 path args fd => exact step_openPath_stream use64 path args fd h
  | openatPath use64 dirfd path args fd => exact step_openatPath_stream use64 dirfd path args fd h
  | opendir use64 path fd dir' listing => exact step_opendir_stream use64 path fd dir' listing h
  | fdopendir fd dir' listing => exact step_fdopendir_stream fd dir' listing h
  | readdir use64 dir' => exact step_readdir_stream use64 dir' h
  | close fd => exact .of_close rfl (fun _ hs => hs) rfl rfl rfl h hatt
  | closedir dir' => exact step_closedir_stream dir' h hatt

end World

end Nvscope
