import Nvscope.Lemmas.Steps

/-!
# Listings read through `readdir`

Every open of `/proc/driver/nvidia/gpus` writes the slot of its descriptor, and nothing clears or overwrites
the slot while the descriptor is in use. So the names a program reads from a stream on such a descriptor are
the visible ones, in order.
-/

namespace Nvscope

open Lib

/-- On a descriptor tracked as the directory of the GPUs, the entries that are returned are the visible
ones. -/
theorem readdirEntryAllowed_iff {sh : Shim} {fd : Int} {name : CStr} (hready : sh.procFilterReady = true)
    (hvalid : sh.allowed.valid = true) (htracked : sh.trackedAs fd .procGpusDir = true) :
    readdirEntryAllowed sh fd (some name) = true ↔ Visible sh.allowed name := by
  rw [← keepName_iff hvalid]
  by_cases hdot : name = dot
  · simp [readdirEntryAllowed, keepName, hdot]
  · by_cases hdotdot : name = dotdot
    · simp [readdirEntryAllowed, keepName, hdotdot]
    · simp [readdirEntryAllowed, keepName, hready, htracked, hdot, hdotdot]

namespace World

/-- What has been heard of stream `s` and what is left of it make up the visible names of its listing. -/
structure Follows (w : World) (dir : Nat) (s : DirStream) : Prop where
  visible : w.heard dir ++ s.remaining.filter (Visible w.shim.allowed) =
    s.listing.filter (Visible w.shim.allowed)
  ended : w.ended dir = true → s.remaining = []

/-- The link between the kernel's table, the map and the streams. -/
structure Linked (w : World) : Prop where
  ready : w.shim.procFilterReady = true
  valid : w.shim.allowed.valid = true
  tracked : ∀ fd path r, w.os.files fd = some ⟨some path⟩ → classified path = some r →
    fdMapGet w.shim.fdMap fd = some r
  live : ∀ dir s, w.os.dirs dir = some s → s.attached = true → (w.os.files s.fd).isSome = true
  follows : ∀ dir s, w.os.dirs dir = some s → s.attached = true →
    w.os.files s.fd = some ⟨some gpusDir⟩ → w.Follows dir s

variable {w w' : World} {c : Call} {dir : Nat} {s : DirStream}

theorem Linked.of_initial (h : w.Initial) (hready : w.shim.procFilterReady = true)
    (hvalid : w.shim.allowed.valid = true) : w.Linked where
  ready := hready
  valid := hvalid
  tracked fd path r hf _ := by have hnone := h.inherited fd _ hf; cases hnone
  live dir s hs _ := by rw [h.noDirs dir] at hs; cases hs
  follows dir s hs _ _ := by rw [h.noDirs dir] at hs; cases hs

theorem Linked.trackedAs (h : w.Linked) {fd : Nat} (hf : w.os.files fd = some ⟨some gpusDir⟩) :
    w.shim.trackedAs fd .procGpusDir = true := by
  obtain ⟨r, hr, hk⟩ := classified_gpusDir
  exact trackedAs_iff.mpr ⟨r, h.tracked fd gpusDir r hf hr, hk⟩

/-- What the skip loop passes over is not visible, and what it stops at is. -/
theorem Linked.filter_visible (h : w.Linked) {fd : Nat} (hf : w.os.files fd = some ⟨some gpusDir⟩)
    (names : List CStr) :
    names.filter (Visible w.shim.allowed) = (firstAllowed w.shim fd names).head?.toList ++
      (firstAllowed w.shim fd names).tail.filter (Visible w.shim.allowed) := by
  have hallow : (fun name => readdirEntryAllowed w.shim fd (some name)) =
      fun name => decide (Visible w.shim.allowed name) := by
    funext name
    rw [Bool.eq_iff_iff, decide_eq_true_iff]
    exact readdirEntryAllowed_iff h.ready h.valid (h.trackedAs hf)
  have hfirst := filter_eq_dropWhile (fun name => readdirEntryAllowed w.shim fd (some name)) names
  rw [firstAllowed]
  rw [hallow] at hfirst
  simpa only [← hallow] using hfirst

/-! ## One step -/

theorem Effect.frame (h : Effect w c w') :
    w'.shim.allowed = w.shim.allowed ∧ w'.shim.procFilterReady = w.shim.procFilterReady := by
  cases h with
  | opened fd path handed free files shim =>
      rw [shim, traceAndTrackOpen_frame]
      exact ⟨rfl, rfl⟩
  | cleared fd handed files shim => simp [shim, Shim.untrack]
  | released fd handed files shim => rw [shim]; exact ⟨rfl, rfl⟩
  | neither handed files shim => rw [shim]; exact ⟨rfl, rfl⟩

theorem Linked.tracked_step (h : w.Linked) (he : Effect w c w') (fd : Nat) (path : CStr) (r : FdRecord)
    (hf : w'.os.files fd = some ⟨some path⟩) (hr : classified path = some r) :
    fdMapGet w'.shim.fdMap fd = some r := by
  cases he with
  | opened fd' path' handed free files shim =>
      rw [shim]
      by_cases heq : fd = fd'
      · subst heq
        rw [files, Function.update_self] at hf
        cases hf
        rw [traceAndTrackOpen_of_some hr, fdMap_track, fdMapGet_set_self _ _ free.lt]
      · rw [files, Function.update_of_ne heq] at hf
        rw [fdMapGet_traceAndTrackOpen_of_ne (by omega)]
        exact h.tracked fd path r hf hr
  | cleared fd' handed files shim =>
      rw [files] at hf
      obtain ⟨hne, hf'⟩ := of_update_none hf
      rw [shim, fdMapGet_untrack_of_ne (by omega)]
      exact h.tracked fd path r hf' hr
  | released fd' handed files shim =>
      rw [files] at hf
      rw [shim]
      exact h.tracked fd path r (of_update_none hf).2 hr
  | neither handed files shim =>
      rw [shim]
      rw [files] at hf
      exact h.tracked fd path r hf hr

theorem Follows.read (h : w.Linked) (hs : w.Follows dir s) (hf : w.os.files s.fd = some ⟨some gpusDir⟩)
    (hallowed : w'.shim.allowed = w.shim.allowed)
    (hheard : w'.heard dir = w.heard dir ++ (firstAllowed w.shim s.fd s.remaining).head?.toList)
    (hended : w'.ended dir = (w.ended dir || (firstAllowed w.shim s.fd s.remaining).head?.isNone)) :
    w'.Follows dir { s with remaining := (firstAllowed w.shim s.fd s.remaining).tail } where
  visible := by
    rw [hallowed, hheard, List.append_assoc, ← h.filter_visible hf]
    exact hs.visible
  ended he := by
    rw [hended, Bool.or_eq_true, Option.isNone_iff_eq_none, List.head?_eq_none_iff] at he
    rcases he with he | he
    · simp [hs.ended he, firstAllowed]
    · simp [he]

theorem linked_step (h : w.Linked) (habs : c.absolute = true) : (w.step c).Linked := by
  have he := step_effect w c habs
  obtain ⟨hallowed, hready⟩ := he.frame
  refine ⟨hready.trans h.ready, by rw [hallowed]; exact h.valid, h.tracked_step he, ?_, ?_⟩
  · intro dir s hs hatt
    cases step_stream w c hs hatt with
    | kept old files heard ended =>
        have hlive := h.live dir s old hatt
        rw [files hlive]
        exact hlive
    | fresh unread live heard ended => exact live
    | read s₀ old next files heard ended =>
        subst next
        rw [files]
        exact h.live dir s₀ old hatt
  · intro dir s hs hatt hf
    cases step_stream w c hs hatt with
    | kept old files heard ended =>
        rw [files (h.live dir s old hatt)] at hf
        obtain ⟨hvisible, hend⟩ := h.follows dir s old hatt hf
        exact ⟨by rw [hallowed, heard]; exact hvisible, fun he => hend (by rw [← ended]; exact he)⟩
    | fresh unread live heard ended =>
        exact ⟨by rw [heard, unread]; rfl, fun he => by rw [ended] at he; cases he⟩
    | read s₀ old next files heard ended =>
        subst next
        rw [files] at hf
        exact (h.follows dir s₀ old hatt hf).read h hf hallowed heard ended

/-! ## Whole runs -/

theorem linked_run (h : w.Linked) {calls : List Call} (habs : ∀ c ∈ calls, c.absolute = true) :
    (run step w calls).Linked :=
  (Always.of_invariant h (fun _ _ h habs => linked_step h habs) (.of_forall fun c hc _ => habs c hc)).last

theorem allowed_run {calls : List Call} (habs : ∀ c ∈ calls, c.absolute = true) :
    (run step w calls).shim.allowed = w.shim.allowed := by
  induction calls generalizing w with
  | nil => rfl
  | cons c calls ih =>
      rw [run_cons, ih fun c' hc' => habs c' (List.mem_cons_of_mem _ hc')]
      exact (step_effect w c (habs c List.mem_cons_self)).frame.1

/-- In any run, a stream on a descriptor opened at the directory of the GPUs gives the program the visible
names of its listing: so far a prefix of them, all of them once NULL was returned, and with the next
`readdir` the next of them. -/
theorem readdir_run {w : World} (hw : w.Initial) (hready : w.shim.procFilterReady = true)
    (hvalid : w.shim.allowed.valid = true) {calls : List Call} (habs : ∀ c ∈ calls, c.absolute = true)
    {dir : Nat} {s : DirStream} (hs : (run step w calls).os.dirs dir = some s) (hatt : s.attached = true)
    (hf : (run step w calls).os.files s.fd = some ⟨some gpusDir⟩) :
    let w' := run step w calls
    let visible := s.listing.filter (Visible w.shim.allowed)
    w'.heard dir <+: visible ∧ (w'.ended dir = true → w'.heard dir = visible) ∧
      ∀ use64, ∃ s', (w'.step (.readdir use64 dir)).os.dirs dir = some s' ∧ s'.listing = s.listing ∧
        (w'.step (.readdir use64 dir)).heard dir =
          w'.heard dir ++ visible[(w'.heard dir).length]?.toList ∧
        (w'.step (.readdir use64 dir)).ended dir =
          (w'.ended dir || visible[(w'.heard dir).length]?.isNone) := by
  intro w' visible
  have hl : w'.Linked := linked_run (.of_initial hw hready hvalid) habs
  have hallowed : w'.shim.allowed = w.shim.allowed := allowed_run habs
  obtain ⟨hvis, hend⟩ := hl.follows dir s hs hatt hf
  rw [hallowed] at hvis
  have hfirst := hl.filter_visible hf s.remaining
  rw [hallowed] at hfirst
  -- what is left of the listing starts with the name the loop stops at
  have hnext : visible[(w'.heard dir).length]? = (firstAllowed w'.shim s.fd s.remaining).head? := by
    have hv : visible = _ := hvis.symm
    rw [hv, List.getElem?_append_right (Nat.le_refl _), Nat.sub_self, ← List.head?_eq_getElem?, hfirst]
    cases firstAllowed w'.shim s.fd s.remaining <;> rfl
  refine ⟨⟨_, hvis⟩, fun he => ?_, fun use64 => ?_⟩
  · rw [hend he, List.filter_nil, List.append_nil] at hvis
    exact hvis
  · have hstep := step_readdir_of_some use64 hs
    rw [hear_eq] at hstep
    rw [hstep, hnext]
    exact ⟨_, Kernel.dirs_leave _ _ _ _, rfl, Function.update_self _ _ _, Function.update_self _ _ _⟩

/-- Four reads of a directory that lists both GPUs of the host. -/
theorem readdir_run_container :
    (run step (start container) [.opendir false gpusDir 3 0 (dot :: dotdot :: hostGpus.map (·.busId)),
      .readdir false 0, .readdir true 0, .readdir false 0, .readdir true 0]).heard 0 =
        [dot, dotdot, ascii "0000:04:00.0"] :=
  ((readdir_run (start_initial rfl) rfl (by decide) (by decide)
    (s := ⟨3, true, dot :: dotdot :: hostGpus.map (·.busId), []⟩) (by decide +kernel) rfl
    (by decide +kernel)).2.1 (by decide +kernel)).trans (by decide +kernel)

end World

end Nvscope
