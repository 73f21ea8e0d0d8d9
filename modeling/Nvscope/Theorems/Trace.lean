import Nvscope.Lemmas.Steps
import Nvscope.System.Traced
import Nvscope.Theorems.TraceLines

/-!
# What the trace tells of a run

Logging changes nothing but `stderr`, and the lines there tell what every tracked descriptor was opened for.
-/

namespace Nvscope

open Lib

variable {K β : Type} {sh : Shim} {path : Option CStr} {fd : Int}

/-! ## Logging changes nothing -/

theorem traceAndTrackOpenTraced_fst (path : Option CStr) (fd : Int) (sh : Shim) :
    (traceAndTrackOpenTraced path fd sh).1 = traceAndTrackOpen path fd sh := by
  simp only [traceAndTrackOpenTraced, traceAndTrackOpen]
  split <;> rfl

theorem openCommonTraced_fst (real real64 : Option (RealOpen K)) (use64 : Bool) (path : Option CStr)
    (args : OpenArgs) (sh : Shim) (os : K) :
    (openCommonTraced real real64 use64 path args sh os).1 = openCommon real real64 use64 path args sh os := by
  simp only [openCommonTraced, openCommon]
  split
  · rfl
  · cases (if use64 = true then real64.or real else real) <;> rfl

theorem openatCommonTraced_fst (real real64 : Option (RealOpenat K)) (use64 : Bool) (dirfd : Int)
    (path : Option CStr) (args : OpenArgs) (sh : Shim) (os : K) :
    (openatCommonTraced real real64 use64 dirfd path args sh os).1 =
      openatCommon real real64 use64 dirfd path args sh os := by
  simp only [openatCommonTraced, openatCommon]
  split
  · rfl
  · cases (if use64 = true then real64.or real else real) with
    | none => rfl
    | some real =>
        simp only
        split
        · simp only [traceAndTrackOpenTraced_fst]
        · rfl

theorem opendirCommonTraced_fst (real real64 : Option (RealOpendir K)) (dirfd : Nat → K → Int) (use64 : Bool)
    (path : Option CStr) (sh : Shim) (os : K) :
    (opendirCommonTraced real real64 dirfd use64 path sh os).1 =
      opendirCommon real real64 dirfd use64 path sh os := by
  simp only [opendirCommonTraced, opendirCommon]
  split
  · rfl
  · cases (if use64 = true then real64.or real else real) with
    | none => rfl
    | some real =>
        simp only
        obtain ⟨value, os⟩ := real path os
        cases value with
        | none => rfl
        | some dir => simp only [traceAndTrackOpenTraced_fst]

theorem filterRmControlTraced_fst (cfg : Option Config) (allowed : Option AllowedGpus) (rm : Nvos54Parameters)
    (result : Int) (learned : LearnedIds) (params : List UInt8) :
    (filterRmControlTraced cfg allowed rm result learned params).1 =
      filterRmControl cfg allowed rm result learned params := by
  simp only [filterRmControlTraced, filterRmControl]
  split
  · rfl
  · split
    · rfl
    · split <;> rfl

theorem ioctlFilterAfterTraced_fst (cfg : Option Config) (allowed : Option AllowedGpus) (request : UInt64)
    (arg : Option IoctlArg) (result : Int) (learned : LearnedIds) :
    (ioctlFilterAfterTraced cfg allowed request arg result learned).1 =
      ioctlFilterAfter cfg allowed request arg result learned := by
  cases arg with
  | none => rfl
  | some arg =>
      simp only [ioctlFilterAfterTraced, ioctlFilterAfter]
      split
      · rfl
      · split
        · split <;> rfl
        · split
          · simp only [filterRmControlTraced_fst]
          · rfl

theorem ioctlTraced_fst (syscall : Int → UInt64 → Option IoctlArg → K → (Int × Option IoctlArg) × K) (fd : Int)
    (request : UInt64) (arg : Option IoctlArg) (address : UInt64) (sh : Shim) (os : K) :
    (ioctlTraced syscall fd request arg address sh os).1 = ioctl syscall fd request arg sh os := by
  simp only [ioctlTraced, ioctl]
  split
  · simp only [ioctlFilterAfterTraced_fst]
  · rfl

theorem interposedTraced_fst (libc : Libc K β) (fuel : Nat) (sh : Shim) (c : TracedCall β) (os : K) :
    (libc.interposedTraced fuel sh c os).1 = libc.interposed fuel sh c.call os := by
  obtain ⟨call, address⟩ := c
  cases call with
  | openPath use64 path args => simp only [Libc.interposedTraced, Libc.interposed, openCommonTraced_fst]
  | openatPath use64 dirfd path args => simp only [Libc.interposedTraced, Libc.interposed, openatCommonTraced_fst]
  | opendir use64 path => simp only [Libc.interposedTraced, Libc.interposed, opendirCommonTraced_fst]
  | ioctl fd request arg => simp only [Libc.interposedTraced, Libc.interposed, ioctlTraced_fst]
  | close fd => rfl
  | stat path statbuf => rfl
  | newfstatat dirfd path statbuf flags => rfl
  | fdopendir fd => rfl
  | readdir use64 dirp => rfl
  | getdents64 fd count => rfl

theorem nvfixConstructorTraced_fst (config : Config) (runtimeInit : Option CStr → Bool × AllowedGpus) :
    (nvfixConstructorTraced config runtimeInit).1 = nvfixConstructor config runtimeInit := by
  simp only [nvfixConstructorTraced, nvfixConstructor]
  split <;> rfl

/-! ## What the lines explain -/

/-- The path of a line that says what a descriptor was opened for. -/
def TraceLine.openedAs (fd : Int) : TraceLine → Option CStr
  | .opened path fd' => if fd' = fd then some path else none
  | _ => none

def lastOpened (fd : Int) (lines : List TraceLine) : Option CStr :=
  (lines.filterMap (TraceLine.openedAs fd)).getLast?

theorem lastOpened_append (fd : Int) (lines lines' : List TraceLine) :
    lastOpened fd (lines ++ lines') = (lastOpened fd lines').or (lastOpened fd lines) := by
  simp only [lastOpened, List.filterMap_append, List.getLast?_append]

theorem lastOpened_singleton (fd fd' : Int) (path : CStr) :
    lastOpened fd [.opened path fd'] = if fd' = fd then some path else none := by
  by_cases hsame : fd' = fd
  · simp [lastOpened, TraceLine.openedAs, hsame]
  · simp [lastOpened, TraceLine.openedAs, hsame]

/-- What a call may do to the map while it logs `lines`: a record it leaves is of the last path logged for the
descriptor, or the one that was there. -/
structure Explained (sh : Shim) (lines : List TraceLine) (sh' : Shim) : Prop where
  sound : ∀ line ∈ lines, line.Sound
  config : sh'.config = sh.config
  tracked : ∀ fd record, fdMapGet sh'.fdMap fd = some record →
    (∃ path, lastOpened fd lines = some path ∧ classified path = some record) ∨
      lastOpened fd lines = none ∧ fdMapGet sh.fdMap fd = some record

theorem Explained.silent {sh' : Shim} (hconfig : sh'.config = sh.config)
    (hmap : ∀ fd record, fdMapGet sh'.fdMap fd = some record → fdMapGet sh.fdMap fd = some record) :
    Explained sh [] sh' where
  sound := fun _ h => absurd h List.not_mem_nil
  config := hconfig
  tracked := fun fd record h => Or.inr ⟨rfl, hmap fd record h⟩

theorem Explained.refl (sh : Shim) : Explained sh [] sh :=
  .silent rfl fun _ _ h => h

theorem fdMapGet_of_not {m : FdMap} {record : FdRecord} (h : fdMapGet m fd = some record) :
    0 ≤ fd ∧ fd < fdMapMax := by
  by_contra hno
  rw [fdMapGet, fdSlot, dif_neg hno] at h
  cases h

theorem Explained.opened {p : CStr} {record : FdRecord} (h : classified p = some record) (sh : Shim) (fd : Int) :
    Explained sh [.opened p fd] (if fd ≥ 0 then sh.track fd record else sh) where
  sound := by
    intro line hline
    obtain rfl := List.mem_singleton.mp hline
    exact classifyPath_fst_iff.mp (by rw [classified_eq_some.mp h])
  config := by split <;> rfl
  tracked := by
    intro fd' record' hget
    rw [lastOpened_singleton]
    by_cases hsame : fd = fd'
    · subst hsame
      rw [if_pos rfl]
      obtain ⟨hpos, hlt⟩ := fdMapGet_of_not hget
      obtain ⟨n, rfl⟩ := Int.eq_ofNat_of_zero_le hpos
      rw [if_pos hpos, fdMap_track, fdMapGet_set_self _ _ (by omega)] at hget
      exact Or.inl ⟨p, rfl, h.trans hget⟩
    · rw [if_neg hsame]
      refine Or.inr ⟨rfl, ?_⟩
      split at hget
      · rwa [fdMap_track, fdMapGet_set_of_ne _ _ (Ne.symm hsame)] at hget
      · exact hget

theorem explained_traceAndTrackOpen (path : Option CStr) (fd : Int) (sh : Shim) :
    Explained sh (traceAndTrackOpenTraced path fd sh).2 (traceAndTrackOpenTraced path fd sh).1 := by
  simp only [traceAndTrackOpenTraced]
  cases path with
  | none => exact .refl sh
  | some p =>
      cases hok : (classifyPath (some p)).1 with
      | false => exact .refl sh
      | true => exact .opened (classified_eq_some.mpr (Prod.ext hok rfl)) sh fd

theorem explained_openDeniedPath (path : Option CStr) (sh : Shim) :
    Explained sh (openDeniedPath path (if (classifyPath path).1 then some (classifyPath path).2 else none)) sh := by
  cases path with
  | none => exact .refl sh
  | some p =>
      cases hok : (classifyPath (some p)).1 with
      | false => exact .refl sh
      | true =>
          simp only [openDeniedPath, ↓reduceIte, Option.any_some]
          split
          · exact .opened (classified_eq_some.mpr (Prod.ext hok rfl)) sh (-1)
          · exact .refl sh

/-! ## Calls -/

theorem explained_openCommon (real real64 : Option (RealOpen K)) (use64 : Bool) (path : Option CStr)
    (args : OpenArgs) (sh : Shim) (os : K) :
    Explained sh (openCommonTraced real real64 use64 path args sh os).2
      (openCommonTraced real real64 use64 path args sh os).1.shim := by
  simp only [openCommonTraced]
  split
  · exact explained_openDeniedPath path sh
  · cases (if use64 = true then real64.or real else real) with
    | none => exact .refl sh
    | some real =>
        have htrack := explained_traceAndTrackOpen path (real path args os).1 sh
        simp only [traceAndTrackOpenTraced] at htrack
        cases hok : (classifyPath path).1 with
        | false => exact .refl sh
        | true => simpa [hok] using htrack

theorem explained_openatCommon (real real64 : Option (RealOpenat K)) (use64 : Bool) (dirfd : Int)
    (path : Option CStr) (args : OpenArgs) (sh : Shim) (os : K) :
    Explained sh (openatCommonTraced real real64 use64 dirfd path args sh os).2
      (openatCommonTraced real real64 use64 dirfd path args sh os).1.shim := by
  simp only [openatCommonTraced]
  split
  · exact explained_openDeniedPath _ sh
  · cases (if use64 = true then real64.or real else real) with
    | none => exact .refl sh
    | some real =>
        simp only
        split
        · exact explained_traceAndTrackOpen _ _ sh
        · exact .refl sh

theorem explained_opendirCommon (real real64 : Option (RealOpendir K)) (dirfd : Nat → K → Int) (use64 : Bool)
    (path : Option CStr) (sh : Shim) (os : K) :
    Explained sh (opendirCommonTraced real real64 dirfd use64 path sh os).2
      (opendirCommonTraced real real64 dirfd use64 path sh os).1.shim := by
  simp only [opendirCommonTraced]
  split
  · exact .refl sh
  · cases (if use64 = true then real64.or real else real) with
    | none => exact .refl sh
    | some real =>
        simp only
        obtain ⟨value, os⟩ := real path os
        cases value with
        | none => exact .refl sh
        | some dir => exact explained_traceAndTrackOpen path _ sh

/-- Lines that name no descriptor explain a call that leaves the map. -/
theorem Explained.unopened {sh' : Shim} {lines : List TraceLine} (hsound : ∀ line ∈ lines, line.Sound)
    (hconfig : sh'.config = sh.config) (hmap : sh'.fdMap = sh.fdMap)
    (hlines : ∀ line ∈ lines, ∀ fd, line.openedAs fd = none) : Explained sh lines sh' where
  sound := hsound
  config := hconfig
  tracked := by
    intro fd record h
    have hnone : lines.filterMap (TraceLine.openedAs fd) = [] :=
      List.filterMap_eq_nil_iff.mpr fun line hline => hlines line hline fd
    exact Or.inr ⟨by rw [lastOpened, hnone]; rfl, hmap ▸ h⟩

theorem mem_ioctlTrace {request : UInt64} {arg : Option IoctlArg} {address : UInt64} {result : Int}
    {line : TraceLine} (h : line ∈ ioctlTrace fd request arg address result) :
    ∃ detail, line = .ioctl fd request detail := by
  cases hcards : requestIsCardInfo request <;> cases hrm : requestIsRmControl request <;> cases arg <;>
    simp [ioctlTrace, hcards, hrm] at h <;> exact ⟨_, h⟩

theorem mem_filterRmControlTraced {cfg : Option Config} {allowed : Option AllowedGpus} {rm : Nvos54Parameters}
    {result : Int} {learned : LearnedIds} {params : List UInt8} {line : TraceLine}
    (h : line ∈ (filterRmControlTraced cfg allowed rm result learned params).2) :
    (∃ kept, line = .filteredAttached kept) ∨ line = .filteredActive := by
  simp only [filterRmControlTraced] at h
  split at h
  · exact absurd h List.not_mem_nil
  · split at h
    · split at h
      · exact Or.inl ⟨_, List.mem_singleton.mp h⟩
      · exact absurd h List.not_mem_nil
    · split at h
      · exact Or.inr (List.mem_singleton.mp h)
      · exact absurd h List.not_mem_nil

theorem mem_ioctlFilterAfterTraced {cfg : Option Config} {allowed : Option AllowedGpus} {request : UInt64}
    {arg : Option IoctlArg} {result : Int} {learned : LearnedIds} {line : TraceLine}
    (h : line ∈ (ioctlFilterAfterTraced cfg allowed request arg result learned).2) :
    (∃ kept, line = .filteredAttached kept) ∨ line = .filteredActive := by
  cases arg with
  | none => exact absurd h List.not_mem_nil
  | some arg =>
      simp only [ioctlFilterAfterTraced] at h
      split at h
      · exact absurd h List.not_mem_nil
      · split at h
        · split at h <;> exact absurd h List.not_mem_nil
        · split at h
          · exact mem_filterRmControlTraced h
          · exact absurd h List.not_mem_nil

/-- The lines of an `ioctl` say nothing of an open. -/
theorem mem_ioctlTraced {syscall : Int → UInt64 → Option IoctlArg → K → (Int × Option IoctlArg) × K}
    {request : UInt64} {arg : Option IoctlArg} {address : UInt64} {os : K} {line : TraceLine}
    (h : line ∈ (ioctlTraced syscall fd request arg address sh os).2) :
    line.Sound ∧ ∀ fd', line.openedAs fd' = none := by
  simp only [ioctlTraced] at h
  split at h
  · cases List.mem_append.mp h with
    | inl h =>
        obtain ⟨detail, rfl⟩ := mem_ioctlTrace h
        exact ⟨trivial, fun _ => rfl⟩
    | inr h =>
        rcases mem_ioctlFilterAfterTraced h with ⟨kept, rfl⟩ | rfl
        · exact ⟨trivial, fun _ => rfl⟩
        · exact ⟨trivial, fun _ => rfl⟩
  · exact absurd h List.not_mem_nil

theorem explained_ioctl (syscall : Int → UInt64 → Option IoctlArg → K → (Int × Option IoctlArg) × K) (fd : Int)
    (request : UInt64) (arg : Option IoctlArg) (address : UInt64) (sh : Shim) (os : K) :
    Explained sh (ioctlTraced syscall fd request arg address sh os).2
      (ioctlTraced syscall fd request arg address sh os).1.shim := by
  refine .unopened (fun line h => (mem_ioctlTraced h).1) ?_ ?_ fun line h => (mem_ioctlTraced h).2
  · simp only [ioctlTraced]
    split <;> rfl
  · simp only [ioctlTraced]
    split <;> rfl

theorem readdir_shim (real : RealReaddir K) (dirfd : Nat → K → Int) (fuel : Nat) (dirp : Nat) (sh : Shim) (os : K)
    {r : Reply K (Option CStr)} (h : Nvscope.readdir (some real) dirfd fuel dirp sh os = some r) : r.shim = sh := by
  simp only [Nvscope.readdir] at h
  split at h
  · cases h; rfl
  · obtain ⟨-, -, rfl⟩ := Option.map_eq_some_iff.mp h
    rfl

theorem getdents64_shim (syscall : Int → Nat → K → (Int × List UInt8) × K) (fd : Int) (count : Nat) (sh : Shim)
    (os : K) {r : Reply K (Int × List UInt8)} (h : getdents64 syscall fd count sh os = some r) : r.shim = sh := by
  simp only [getdents64] at h
  split at h
  · obtain ⟨-, -, rfl⟩ := Option.map_eq_some_iff.mp h
    rfl
  · cases h; rfl

/-- The shim behind a call that came back, or as it was. -/
def shimAfter (sh : Shim) (r : Option (Reply K (Answer β))) : Shim :=
  (r.map (·.shim)).getD sh

theorem explained_of_shim {r : Option (Reply K (Answer β))} (h : ∀ reply, r = some reply → reply.shim = sh) :
    Explained sh [] (shimAfter sh r) := by
  cases r with
  | none => exact .refl sh
  | some reply =>
      rw [shimAfter, Option.map_some, Option.getD_some, h reply rfl]
      exact .refl sh

/-- Step lemma. -/
theorem explained_interposed (libc : Libc K β) (fuel : Nat) (sh : Shim) (c : TracedCall β) (os : K) :
    Explained sh (libc.interposedTraced fuel sh c os).2 (shimAfter sh (libc.interposedTraced fuel sh c os).1) := by
  obtain ⟨call, address⟩ := c
  cases call with
  | openPath use64 path args => exact explained_openCommon _ _ use64 path _ sh os
  | openatPath use64 dirfd path args => exact explained_openatCommon _ _ use64 dirfd path _ sh os
  | opendir use64 path => exact explained_opendirCommon _ _ _ use64 path sh os
  | ioctl fd request arg => exact explained_ioctl _ fd request arg address sh os
  | close fd =>
      simp only [Libc.interposedTraced, Libc.interposed, Nvscope.close, Reply.map, shimAfter, Option.map_some,
        Option.getD_some]
      split
      · refine .silent rfl fun fd' record h => ?_
        by_cases hsame : fd' = fd
        · rw [hsame, fdMapGet_untrack_self] at h
          cases h
        · rwa [fdMapGet_untrack_of_ne hsame] at h
      · exact .refl sh
  | stat path statbuf =>
      refine explained_of_shim fun reply h => ?_
      cases h
      simp only [Nvscope.stat, Reply.map]
      split <;> rfl
  | newfstatat dirfd path statbuf flags =>
      refine explained_of_shim fun reply h => ?_
      cases h
      simp only [Nvscope.newfstatat, Reply.map]
      split <;> rfl
  | fdopendir fd =>
      refine explained_of_shim fun reply h => ?_
      cases h
      rfl
  | readdir use64 dirp =>
      refine explained_of_shim fun reply h => ?_
      obtain ⟨r, hr, rfl⟩ := Option.map_eq_some_iff.mp h
      exact readdir_shim _ _ _ _ _ _ hr
  | getdents64 fd count =>
      refine explained_of_shim fun reply h => ?_
      obtain ⟨r, hr, rfl⟩ := Option.map_eq_some_iff.mp h
      exact getdents64_shim _ _ _ _ _ hr

/-! ## Runs -/

/-- The run, but for `stderr`. -/
def TracedRun.untraced (s : TracedRun K β) : ShimRun K β :=
  { shim := s.shim, os := s.os, seen := s.seen }

theorem untraced_step (libc : Libc K β) (fuel : Nat) (s : TracedRun K β) (c : TracedCall β) :
    (s.step libc fuel c).untraced = s.untraced.step libc fuel c.call := by
  have hfst := interposedTraced_fst libc fuel s.shim c s.os
  simp only [TracedRun.step, ShimRun.step, TracedRun.untraced, ← hfst]
  cases (libc.interposedTraced fuel s.shim c s.os).1 <;> rfl

theorem untraced_start (config : Config) (runtimeInit : Option CStr → Bool × AllowedGpus) (os : K) :
    (TracedRun.start config runtimeInit os : TracedRun K β).untraced =
      ⟨nvfixConstructor config runtimeInit, os, []⟩ := by
  simp only [TracedRun.start, TracedRun.untraced, nvfixConstructorTraced_fst]

theorem untraced_run (libc : Libc K β) (fuel : Nat) (s : TracedRun K β) (calls : List (TracedCall β)) :
    (run (TracedRun.step libc fuel) s calls).untraced =
      run (ShimRun.step libc fuel) s.untraced (calls.map (·.call)) := by
  induction calls generalizing s with
  | nil => rfl
  | cons c calls ih => rw [run_cons, ih, untraced_step, List.map_cons, run_cons]

theorem shim_step (libc : Libc K β) (fuel : Nat) (s : TracedRun K β) (c : TracedCall β) :
    (s.step libc fuel c).shim = shimAfter s.shim (libc.interposedTraced fuel s.shim c s.os).1 := by
  simp only [TracedRun.step]
  cases (libc.interposedTraced fuel s.shim c s.os).1 <;> rfl

theorem stderr_step (libc : Libc K β) (fuel : Nat) (s : TracedRun K β) (c : TracedCall β) :
    (s.step libc fuel c).stderr =
      s.stderr ++ (libc.interposedTraced fuel s.shim c s.os).2.flatMap (vlog s.shim.config) := by
  simp only [TracedRun.step]
  cases (libc.interposedTraced fuel s.shim c s.os).1 <;> rfl

/-- `lines` are on `stderr`, where the trace is on, and explain the map. -/
structure Tells (cfg : Config) (s : TracedRun K β) (lines : List TraceLine) : Prop where
  config : s.shim.config = cfg
  stderr : s.stderr = lines.flatMap (vlog cfg)
  sound : ∀ line ∈ lines, line.Sound
  tracked : ∀ fd record, fdMapGet s.shim.fdMap fd = some record →
    ∃ path, lastOpened fd lines = some path ∧ classified path = some record

variable {cfg : Config} {s : TracedRun K β} {lines : List TraceLine}

theorem Tells.step (h : Tells cfg s lines) (libc : Libc K β) (fuel : Nat) (c : TracedCall β) :
    Tells cfg (s.step libc fuel c) (lines ++ (libc.interposedTraced fuel s.shim c s.os).2) := by
  have hcall := explained_interposed libc fuel s.shim c s.os
  refine ⟨?_, ?_, ?_, ?_⟩
  · rw [shim_step, hcall.config, h.config]
  · rw [stderr_step, h.stderr, h.config, List.flatMap_append]
  · intro line hline
    cases List.mem_append.mp hline with
    | inl hold => exact h.sound line hold
    | inr hnew => exact hcall.sound line hnew
  · intro fd record hget
    rw [shim_step] at hget
    rw [lastOpened_append]
    rcases hcall.tracked fd record hget with ⟨path, hlast, hpath⟩ | ⟨hlast, hold⟩
    · exact ⟨path, by rw [hlast, Option.some_or], hpath⟩
    · rw [hlast, Option.none_or]
      exact h.tracked fd record hold

theorem nvfixConstructorTraced_lines {config : Config} {runtimeInit : Option CStr → Bool × AllowedGpus}
    {line : TraceLine} (h : line ∈ (nvfixConstructorTraced config runtimeInit).2) :
    line = .undetected ∨
      line = .loaded config.traceEnabled config.procFilterEnabled config.ioctlFilterEnabled := by
  simp only [nvfixConstructorTraced] at h
  cases hfilter : config.procFilterEnabled with
  | false => exact Or.inr (by simpa [hfilter] using h)
  | true =>
      simp only [hfilter, ↓reduceIte, List.mem_append, List.mem_singleton] at h
      refine h.imp_left fun h => ?_
      generalize (if config.gpuUuidSet = true then some config.gpuUuid else none) = uuid at h
      cases hready : (runtimeInit uuid).1 with
      | false => exact List.mem_singleton.mp (by simpa [hready] using h)
      | true => exact absurd h (by simp [hready])

theorem tells_start (config : Config) (runtimeInit : Option CStr → Bool × AllowedGpus) (os : K) :
    Tells config (TracedRun.start config runtimeInit os : TracedRun K β)
      (nvfixConstructorTraced config runtimeInit).2 := by
  refine ⟨?_, rfl, ?_, ?_⟩
  · simp only [TracedRun.start, nvfixConstructorTraced]
    split <;> rfl
  · intro line hline
    rcases nvfixConstructorTraced_lines hline with rfl | rfl
    · trivial
    · trivial
  · intro fd record hget
    have hmap : (TracedRun.start config runtimeInit os : TracedRun K β).shim.fdMap = fdMapClear := by
      simp only [TracedRun.start, nvfixConstructorTraced]
      split <;> rfl
    rw [hmap, fdMapGet_clear] at hget
    cases hget

/-- Run lemma. -/
theorem Tells.run (h : Tells cfg s lines) (libc : Libc K β) (fuel : Nat) (calls : List (TracedCall β)) :
    ∃ lines', Tells cfg (run (TracedRun.step libc fuel) s calls) lines' := by
  induction calls generalizing s lines with
  | nil => exact ⟨lines, h⟩
  | cons c calls ih => exact ih (h.step libc fuel c)

theorem flatMap_vlog_off (h : cfg.traceEnabled = false) (lines : List TraceLine) : lines.flatMap (vlog cfg) = [] := by
  simp [vlog, h]

theorem flatMap_vlog_on (h : cfg.traceEnabled = true) (lines : List TraceLine) :
    lines.flatMap (vlog cfg) = lines.flatMap TraceLine.render := by
  have hrender : vlog cfg = TraceLine.render := funext fun line => by rw [vlog, if_pos h]
  rw [hrender]

theorem render_ne_nil (line : TraceLine) : line.render ≠ [] := by
  rw [TraceLine.render]
  exact List.append_ne_nil_of_right_ne_nil _ (List.cons_ne_nil _ _)

/-- Tracing changes nothing but `stderr`. There is nothing on it while the trace is off; while it is on, the bytes
there are the lines of the run and of no other lines, and the last line that names a descriptor tells the record
the descriptor is tracked under. -/
theorem stderr_explains (libc : Libc K β) (fuel : Nat) (cfg : Config)
    (runtimeInit : Option CStr → Bool × AllowedGpus) (os : K) (calls : List (TracedCall β)) :
    let s := run (TracedRun.step libc fuel) (TracedRun.start cfg runtimeInit os) calls
    s.untraced = run (ShimRun.step libc fuel) ⟨nvfixConstructor cfg runtimeInit, os, []⟩ (calls.map (·.call)) ∧
      (cfg.traceEnabled = false → s.stderr = []) ∧
      (cfg.traceEnabled = true → ∃ lines, (∀ line ∈ lines, line.Sound) ∧
        s.stderr = lines.flatMap TraceLine.render ∧
        (∀ lines', (∀ line ∈ lines', line.Sound) → s.stderr = lines'.flatMap TraceLine.render → lines' = lines) ∧
        ∀ fd record, fdMapGet s.shim.fdMap fd = some record →
          ∃ path, lastOpened fd lines = some path ∧ classified path = some record) := by
  intro s
  obtain ⟨lines, htells⟩ := (tells_start cfg runtimeInit os).run libc fuel calls
  refine ⟨?_, ?_, ?_⟩
  · exact (untraced_run libc fuel _ calls).trans (by rw [untraced_start])
  · intro hoff
    exact htells.stderr.trans (flatMap_vlog_off hoff lines)
  · intro hon
    have hbytes := htells.stderr.trans (flatMap_vlog_on hon lines)
    refine ⟨lines, htells.sound, hbytes, fun lines' hsound heq => ?_, htells.tracked⟩
    exact TraceLine.selfDelimiting.flatMap_inj (fun line _ => render_ne_nil line) hsound htells.sound
      (heq.symm.trans hbytes)

end Nvscope
