import Nvscope.Lemmas.Normalize
import Nvscope.Lemmas.Steps
import Mathlib.Data.List.Induction

/-!
# The files a run can open

A file can be named through any chain of directory descriptors. The shim knows where a relative path leads
only for descriptors that were opened by the absolute path of the directory of the GPUs.
-/

namespace Nvscope

open Lib

/-- A bus id outside the allowed set. -/
structure HiddenBus (a : AllowedGpus) (b : CStr) : Prop where
  pos : 0 < b.length
  lt : b.length < procBusIdMax
  noSlash : slash ∉ b
  hidden : ∀ g ∈ a.gpus, g.busId ≠ b

/-- No segment is empty, `.` or `..`. -/
def Plain (path : CStr) : Prop :=
  ∀ s ∈ (if path.head? = some slash then path.tail else path).splitOn slash,
    s ≠ [] ∧ s ≠ dot ∧ s ≠ dotdot

instance (path : CStr) : Decidable (Plain path) :=
  inferInstanceAs (Decidable (∀ s ∈ _, _))

/-- The path an opening call is given. -/
def Call.path : Call → Option CStr
  | .openPath _ path _ _ | .openatPath _ _ path _ _ | .opendir _ path _ _ _ => some path
  | _ => none

namespace World

/-- The path a descriptor of the run was opened at. -/
def openedAt (w : World) (fd : Int) : Option CStr :=
  if 0 ≤ fd ∧ fd < fdMapMax then (w.os.files fd.toNat).bind OpenFile.path else none

/-- An open, openat or opendir with a plain path, absolute or relative to a live descriptor of the run. -/
def Admissible (w : World) : Call → Prop
  | .openPath _ path _ _ | .opendir _ path _ _ _ => Plain path ∧ path.head? = some slash
  | .openatPath _ dirfd path _ _ => Plain path ∧ (path.head? = some slash ∨ (w.openedAt dirfd).isSome = true)
  | _ => False

instance (w : World) : (c : Call) → Decidable (w.Admissible c)
  | .openPath .. | .opendir .. => inferInstanceAs (Decidable (_ ∧ _))
  | .openatPath .. => inferInstanceAs (Decidable (_ ∧ _))
  | .fdopendir .. | .readdir .. | .close .. | .closedir .. => inferInstanceAs (Decidable False)

/-- The call opens the file at `path`, as descriptor `fd`. -/
def Opens (w : World) (c : Call) (fd : Nat) (path : CStr) : Prop :=
  w.os.files fd = none ∧ (w.step c).os.files fd = some ⟨some path⟩

/-- In the run from `w`, the descriptor was opened by the absolute path of the directory of the GPUs. -/
def OpenedByName (w : World) : List Call → Nat → Prop
  | [], _ => False
  | c :: calls, fd => c.path = some gpusDir ∧ w.Opens c fd gpusDir ∨ (w.step c).OpenedByName calls fd

theorem openedByName_append {w : World} {calls : List Call} {c : Call} {fd : Nat} :
    w.OpenedByName (calls ++ [c]) fd ↔
      w.OpenedByName calls fd ∨ c.path = some gpusDir ∧ (run step w calls).Opens c fd gpusDir := by
  induction calls generalizing w with
  | nil => simp [OpenedByName]
  | cons c' calls ih =>
      rw [List.cons_append, OpenedByName, OpenedByName, ih, or_assoc]
      rfl

/-! ## One call -/

/-- What an admissible call does: it opens one descriptor, by an absolute path or by one relative to a
descriptor, or it changes nothing. A path is tracked where it is absolute once it is rewritten. -/
inductive Opening (w : World) (c : Call) (w' : World) : Prop where
  | absolute (fd : Nat) (path : CStr) (given : c.path = some path) (isAbsolute : path.head? = some slash)
      (allowed : procDenied w.shim (some path) = false) (free : w.os.Free fd)
      (files : w'.os.files = Function.update w.os.files fd (some ⟨some path⟩))
      (shim : w'.shim = traceAndTrackOpen (some path) fd w.shim)
  | relative (use64 : Bool) (dirfd : Int) (path : CStr) (args : OpenArgs) (fd : Nat) (base : CStr)
      (call : c = .openatPath use64 dirfd path args fd) (isRelative : path.head? ≠ some slash)
      (plain : Plain path) (opened : w.openedAt dirfd = some base)
      (allowed : procDenied w.shim (effectiveOpenatPath w.shim dirfd (some path) pathMax) = false)
      (free : w.os.Free fd)
      (files : w'.os.files = Function.update w.os.files fd (some ⟨some (base ++ slash :: path)⟩))
      (shim : w'.shim = w.shim ∨ ∃ path' : CStr, path' ≠ gpusDir ∧
        w'.shim = traceAndTrackOpen (some path') fd w.shim)
  | neither (files : w'.os.files = w.os.files) (shim : w'.shim = w.shim)

theorem opening_openPath {w : World} (use64 : Bool) {path : CStr} (args : OpenArgs) (fd : Nat)
    (habs : path.head? = some slash) :
    Opening w (.openPath use64 path args fd) (w.step (.openPath use64 path args fd)) := by
  by_cases hok : procDenied w.shim (some path) = false ∧ w.os.Free fd
  · obtain ⟨hshim, hos⟩ := openCommon_of_ok use64 args hok
    refine .absolute fd path rfl habs hok.1 hok.2 ?_ hshim
    simp only [step, after, hos]
    simp [Kernel.openFile, hok.2]
  · obtain ⟨hshim, hos⟩ := openCommon_of_not use64 args hok
    refine .neither ?_ hshim
    simp only [step, after, hos]

theorem opening_opendir {w : World} (use64 : Bool) {path : CStr} (fd dir : Nat) (listing : List CStr)
    (habs : path.head? = some slash) :
    Opening w (.opendir use64 path fd dir listing) (w.step (.opendir use64 path fd dir listing)) := by
  by_cases hok : procDenied w.shim (some path) = false ∧ w.os.Free fd ∧ w.os.dirs dir = none
  · rw [step_opendir_of_ok use64 path listing hok]
    refine .absolute fd path rfl habs hok.1 hok.2.1 ?_ rfl
    simp [Kernel.openFile, hok.2.1, Kernel.addDir]
  · rw [step_opendir_of_not use64 path listing hok]
    exact .neither rfl rfl

theorem resolve_of_openedAt {w : World} {dirfd : Int} {path base : CStr} (hrel : path.head? ≠ some slash)
    (h : w.openedAt dirfd = some base) :
    w.os.resolve dirfd path = some (base ++ slash :: path) ∧ dirfd ≠ atFdcwd := by
  unfold openedAt at h
  split at h
  · rename_i hfd
    have hcwd : dirfd ≠ atFdcwd := by rintro rfl; exact absurd hfd.1 (by decide)
    have hneg : ¬ dirfd < 0 := by omega
    exact ⟨by simp [Kernel.resolve, hrel, hcwd, hneg, h], hcwd⟩
  · cases h

theorem file_of_openedAt {w : World} {dirfd : Int} {base : CStr} (h : w.openedAt dirfd = some base) :
    (dirfd.toNat : Int) = dirfd ∧ (w.os.files dirfd.toNat).bind OpenFile.path = some base := by
  unfold openedAt at h
  split at h
  · rename_i hfd
    exact ⟨Int.toNat_of_nonneg hfd.1, h⟩
  · cases h

/-- The rewriting gives the path back, or one inside the directory of the GPUs. -/
theorem effectiveOpenatPath_cases (sh : Shim) (dirfd : Int) (path : CStr) :
    effectiveOpenatPath sh dirfd (some path) pathMax = some path ∨
      ∃ rest, effectiveOpenatPath sh dirfd (some path) pathMax = some (gpusPrefix ++ rest) := by
  unfold effectiveOpenatPath
  split
  · exact Or.inl rfl
  · split
    · exact Or.inl rfl
    · simp only
      split
      · exact Or.inl rfl
      · exact Or.inr ⟨_, rfl⟩

theorem gpusPrefix_append_ne (rest : CStr) : gpusPrefix ++ rest ≠ gpusDir := by
  intro h
  have hlen := congrArg List.length h
  have hp : gpusPrefix.length = 25 := by decide
  have hd : gpusDir.length = 24 := by decide
  rw [List.length_append] at hlen
  omega

theorem pathIsAbsolute_gpusPrefix_append (rest : CStr) :
    pathIsAbsolute (some (gpusPrefix ++ rest)) = true := by
  have h : gpusPrefix = slash :: gpusPrefix.tail := by decide
  rw [h]
  rfl

theorem opening_openatPath {w : World} (use64 : Bool) {dirfd : Int} {path : CStr} (args : OpenArgs) (fd : Nat)
    (hplain : Plain path) (hpath : path.head? = some slash ∨ (w.openedAt dirfd).isSome = true) :
    Opening w (.openatPath use64 dirfd path args fd) (w.step (.openatPath use64 dirfd path args fd)) := by
  have hcases := w.step_openatPath_cases use64 dirfd path args fd
  by_cases habs : path.head? = some slash
  · have habs' : pathIsAbsolute (some path) = true := by simp [pathIsAbsolute, habs]
    simp only [effectiveOpenatPath_of_absolute habs, Kernel.resolve, habs, habs', ↓reduceIte,
      Bool.true_or] at hcases
    rcases hcases with ⟨resolved, hden, hresolved, hfree, hfiles, hshim⟩ | ⟨hfiles, hshim, -⟩
    · cases hresolved
      exact .absolute fd path rfl habs hden hfree hfiles hshim
    · exact .neither hfiles hshim
  · obtain ⟨base, hbase⟩ := Option.isSome_iff_exists.mp (hpath.resolve_left habs)
    obtain ⟨hresolve, hcwd⟩ := resolve_of_openedAt habs hbase
    simp only [hresolve, hcwd, decide_false, Bool.or_false] at hcases
    rcases hcases with ⟨resolved, hden, hresolved, hfree, hfiles, hshim⟩ | ⟨hfiles, hshim, -⟩
    · cases hresolved
      refine .relative use64 dirfd path args fd base rfl habs hplain hbase hden hfree hfiles ?_
      rcases effectiveOpenatPath_cases w.shim dirfd path with heff | ⟨rest, heff⟩
      · have hrel : pathIsAbsolute (some path) = false := by simpa [pathIsAbsolute] using habs
        rw [heff, hrel, if_neg Bool.false_ne_true] at hshim
        exact Or.inl hshim
      · rw [heff, pathIsAbsolute_gpusPrefix_append, if_pos rfl] at hshim
        exact Or.inr ⟨gpusPrefix ++ rest, gpusPrefix_append_ne rest, hshim⟩
    · exact .neither hfiles hshim

theorem opening_step {w : World} {c : Call} (h : w.Admissible c) : Opening w c (w.step c) := by
  cases c with
  | openPath use64 path args fd => exact opening_openPath use64 args fd h.2
  | openatPath use64 dirfd path args fd => exact opening_openatPath use64 args fd h.1 h.2
  | opendir use64 path fd dir listing => exact opening_opendir use64 fd dir listing h.2
  | fdopendir fd dir listing => exact h.elim
  | readdir use64 dir => exact h.elim
  | close fd => exact h.elim
  | closedir dir => exact h.elim

/-! ## What holds along a run -/

/-- The shim filters as at the start, descriptors tracked as the directory of the GPUs are open there, and
those opened by its name are tracked. -/
structure Placed (w₀ : World) (calls : List Call) (w : World) : Prop where
  ready : w.shim.procFilterReady = w₀.shim.procFilterReady
  allowed : w.shim.allowed = w₀.shim.allowed
  tracked : ∀ fd : Nat, w.shim.trackedAs fd .procGpusDir = true → w.os.files fd = some ⟨some gpusDir⟩
  named : ∀ fd : Nat, w₀.OpenedByName calls fd → w.shim.trackedAs fd .procGpusDir = true

theorem Initial.placed {w : World} (h : w.Initial) : Placed w [] w where
  ready := rfl
  allowed := rfl
  tracked fd hfd := by
    rw [Shim.trackedAs, h.untracked, fdMapGet_clear] at hfd
    cases hfd
  named _ h := h.elim

theorem trackedAs_gpusDir (sh : Shim) {fd : Nat} (hfd : fd < fdMapMax) :
    (traceAndTrackOpen (some gpusDir) fd sh).trackedAs fd .procGpusDir = true := by
  obtain ⟨r, hr, hk⟩ := classified_gpusDir
  rw [traceAndTrackOpen_of_some hr, trackedAs_iff]
  exact ⟨r, by rw [fdMap_track, fdMapGet_set_self _ _ hfd], hk⟩

/-- A descriptor that tracking turned into the directory of the GPUs was opened by its path. -/
theorem eq_gpusDir_of_trackedAs {sh : Shim} {fd : Nat} {path : CStr} (hfd : fd < fdMapMax)
    (h : (traceAndTrackOpen (some path) fd sh).trackedAs fd .procGpusDir = true) :
    path = gpusDir ∨ sh.trackedAs fd .procGpusDir = true := by
  cases hr : classified path with
  | none =>
      rw [traceAndTrackOpen_of_none hr] at h
      exact Or.inr h
  | some r =>
      rw [traceAndTrackOpen_of_some hr, trackedAs_iff] at h
      obtain ⟨r', hget, hk⟩ := h
      rw [fdMap_track, fdMapGet_set_self _ _ hfd, Option.some.injEq] at hget
      subst hget
      exact Or.inl (eq_gpusDir_of_kind hr hk)

theorem eq_of_opens {w : World} {c : Call} {fd fd' : Nat} {path path' : CStr}
    (hfiles : (w.step c).os.files = Function.update w.os.files fd (some ⟨some path⟩))
    (h : w.Opens c fd' path') : fd' = fd ∧ path' = path := by
  obtain ⟨hnone, hsome⟩ := h
  rw [hfiles] at hsome
  by_cases heq : fd' = fd
  · subst heq
    rw [Function.update_self, Option.some.injEq] at hsome
    cases hsome
    exact ⟨rfl, rfl⟩
  · rw [Function.update_of_ne heq, hnone] at hsome
    cases hsome

/-- A call that opens one descriptor and tracks nothing, or that descriptor, keeps the others placed. -/
theorem Placed.opened {w₀ w w' : World} {calls : List Call} {c : Call} {fd : Nat} {path : CStr}
    (h : Placed w₀ calls w) (hrun : run step w₀ calls = w) (free : w.os.Free fd)
    (files : w'.os.files = Function.update w.os.files fd (some ⟨some path⟩))
    (shim : w'.shim = w.shim ∨ ∃ path' : CStr, (path' = gpusDir → path = gpusDir) ∧
      w'.shim = traceAndTrackOpen (some path') fd w.shim)
    (new : ∀ fd', c.path = some gpusDir → w.Opens c fd' gpusDir →
      w'.shim.trackedAs fd' .procGpusDir = true) : Placed w₀ (calls ++ [c]) w' := by
  have hkeep : ∀ fd' : Nat, fd' ≠ fd →
      w'.shim.trackedAs fd' .procGpusDir = w.shim.trackedAs fd' .procGpusDir := by
    intro fd' hne
    rcases shim with hsame | ⟨path', -, hshim⟩
    · rw [hsame]
    · rw [hshim]
      exact trackedAs_congr (fdMapGet_traceAndTrackOpen_of_ne (by omega))
  have huntracked : w.shim.trackedAs fd .procGpusDir = false := by
    by_contra hno
    have hfiles := h.tracked fd (by simpa using hno)
    rw [free.2] at hfiles
    cases hfiles
  constructor
  · rcases shim with hsame | ⟨path', -, hshim⟩
    · rw [hsame, h.ready]
    · rw [hshim, traceAndTrackOpen_frame, ← h.ready]
  · rcases shim with hsame | ⟨path', -, hshim⟩
    · rw [hsame, h.allowed]
    · rw [hshim, traceAndTrackOpen_frame, ← h.allowed]
  · intro fd' htracked
    by_cases heq : fd' = fd
    · subst heq
      rcases shim with hsame | ⟨path', hpath, hshim⟩
      · rw [hsame, huntracked] at htracked
        cases htracked
      · rw [hshim] at htracked
        rcases eq_gpusDir_of_trackedAs free.lt htracked with hdir | hold
        · rw [files, Function.update_self, hpath hdir]
        · rw [huntracked] at hold
          cases hold
    · rw [hkeep fd' heq] at htracked
      rw [files, Function.update_of_ne heq]
      exact h.tracked fd' htracked
  · intro fd' hnamed
    rcases openedByName_append.mp hnamed with hold | ⟨hpath, hopens⟩
    · have htracked := h.named fd' hold
      have hne : fd' ≠ fd := by
        rintro rfl
        rw [huntracked] at htracked
        cases htracked
      rw [hkeep fd' hne]
      exact htracked
    · rw [hrun] at hopens
      exact new fd' hpath hopens

theorem head_gpusDir : gpusDir.head? = some slash := by
  decide

/-- Step lemma. -/
theorem Placed.step {w₀ w : World} {calls : List Call} {c : Call} (h : Placed w₀ calls w)
    (hrun : run World.step w₀ calls = w) (hc : w.Admissible c) : Placed w₀ (calls ++ [c]) (w.step c) := by
  cases opening_step hc with
  | absolute fd path given isAbsolute allowed free files shim =>
      refine h.opened hrun free files (Or.inr ⟨path, id, shim⟩) fun fd' hpath hopens => ?_
      obtain ⟨rfl, -⟩ := eq_of_opens files hopens
      rw [given, Option.some.injEq] at hpath
      rw [shim, hpath]
      exact trackedAs_gpusDir w.shim free.lt
  | relative use64 dirfd path args fd base call isRelative plain opened allowed free files shim =>
      have hshim : (w.step c).shim = w.shim ∨ ∃ path' : CStr,
          (path' = gpusDir → base ++ slash :: path = gpusDir) ∧
            (w.step c).shim = traceAndTrackOpen (some path') fd w.shim := by
        rcases shim with hsame | ⟨path', hne, hshim⟩
        · exact Or.inl hsame
        · exact Or.inr ⟨path', fun he => absurd he hne, hshim⟩
      refine h.opened hrun free files hshim fun fd' hpath _ => ?_
      rw [call, Call.path, Option.some.injEq] at hpath
      rw [hpath] at isRelative
      exact absurd head_gpusDir isRelative
  | neither files shim =>
      refine ⟨by rw [shim, h.ready], by rw [shim, h.allowed], ?_, ?_⟩
      · rw [shim, files]
        exact h.tracked
      · intro fd hnamed
        rw [shim]
        rcases openedByName_append.mp hnamed with hold | ⟨-, hnone, hsome⟩
        · exact h.named fd hold
        · rw [hrun] at hnone hsome
          rw [files, hnone] at hsome
          cases hsome

theorem placed_run {w₀ : World} (h : w₀.Initial) {calls : List Call}
    (hcalls : EachStep World.step Admissible w₀ calls) : Placed w₀ calls (run World.step w₀ calls) := by
  induction calls using List.reverseRecOn with
  | nil => exact h.placed
  | append_singleton calls c ih =>
      obtain ⟨hpre, hc, -⟩ := eachStep_append.mp hcalls
      rw [run_append]
      exact (ih hpre).step rfl hc

/-! ## Hidden files -/

theorem gpusPrefix_eq : gpusPrefix = gpusDir ++ [slash] := by
  decide

theorem plain_information {n : CStr} (hslash : slash ∉ n) (hpos : 0 < n.length)
    (h : Plain (n ++ informationSuffix)) : n ≠ dot ∧ n ≠ dotdot := by
  have hhead := head_append_informationSuffix (List.ne_nil_of_length_pos hpos) hslash
  have hsuffix : informationSuffix = slash :: ascii "information" := by decide
  rw [Plain, if_neg hhead, hsuffix, List.splitOn_append_cons_self_of_not_mem hslash] at h
  exact (h n List.mem_cons_self).2

/-- In every run of admissible calls from the start: a call that opens the information file of a hidden GPU
is an `openat` with a path relative to a descriptor that the run did not open by the absolute path of the
directory of the GPUs. -/
theorem hidden_opened_relative {w₀ : World} (h : w₀.Initial) (hready : w₀.shim.procFilterReady = true)
    (hvalid : w₀.shim.allowed.valid = true) {calls : List Call} {c : Call}
    (hcalls : EachStep World.step Admissible w₀ (calls ++ [c])) {fd : Nat} {b : CStr}
    (hb : HiddenBus w₀.shim.allowed b)
    (hopens : (run World.step w₀ calls).Opens c fd (informationPath b)) :
    ∃ use64 dirfd path args fd', c = .openatPath use64 dirfd path args fd' ∧ path.head? ≠ some slash ∧
      ¬ w₀.OpenedByName calls dirfd.toNat := by
  obtain ⟨hpre, hc, -⟩ := eachStep_append.mp hcalls
  have hplaced := placed_run h hpre
  have hdeny : procDenied (run World.step w₀ calls).shim (some (informationPath b)) = true := by
    have hdecision := (procPathAllowed_informationPath hb.pos hb.lt hb.noSlash).mpr ⟨hvalid, hb.hidden⟩
    simp [procDenied, hplaced.ready, hready, pathIsAbsolute, head_informationPath, hplaced.allowed, hdecision]
  cases opening_step hc with
  | absolute fd' path given isAbsolute allowed free files shim =>
      obtain ⟨-, rfl⟩ := eq_of_opens files hopens
      rw [hdeny] at allowed
      cases allowed
  | relative use64 dirfd path args fd' base call isRelative plain opened allowed free files shim =>
      refine ⟨use64, dirfd, path, args, fd', call, isRelative, fun hnamed => ?_⟩
      obtain ⟨hnonneg, hfile⟩ := file_of_openedAt opened
      have htracked := hplaced.named dirfd.toNat hnamed
      rw [hplaced.tracked dirfd.toNat htracked] at hfile
      cases hfile
      have hpath : b ++ informationSuffix = path := by
        have happ := (eq_of_opens files hopens).2
        rw [informationPath, gpusPrefix_eq, List.append_assoc, List.singleton_append] at happ
        exact List.cons_inj_right slash |>.mp (List.append_cancel_left happ)
      subst hpath
      obtain ⟨hdot, hdots⟩ := plain_information hb.noSlash hb.pos plain
      rw [hnonneg] at htracked
      rw [effectiveOpenatPath_information htracked (List.ne_nil_of_length_pos hb.pos) hb.noSlash hdot hdots,
        if_pos (length_informationPath_lt hb.lt), hdeny] at allowed
      cases allowed
  | neither files shim =>
      obtain ⟨hnone, hsome⟩ := hopens
      rw [files, hnone] at hsome
      cases hsome

/-! ## A descriptor of the parent directory -/

theorem hiddenBus_container : HiddenBus container.allowed (ascii "0000:05:00.0") :=
  ⟨by decide, by decide, by decide, by decide⟩

def openParent : Call :=
  .openPath false (ascii "/proc/driver/nvidia") ⟨0, none⟩ 3

def openThroughParent : Call :=
  .openatPath false 3 (ascii "gpus/0000:05:00.0/information") ⟨0, none⟩ 4

theorem opens_openThroughParent :
    (run World.step (start container) [openParent]).Opens openThroughParent 4
      (informationPath (ascii "0000:05:00.0")) :=
  ⟨rfl, by decide +kernel⟩

theorem opened_through_parent : ∃ use64 dirfd path args fd,
    openThroughParent = .openatPath use64 dirfd path args fd ∧ path.head? ≠ some slash ∧
      ¬ (start container).OpenedByName [openParent] dirfd.toNat :=
  hidden_opened_relative (start_initial rfl) rfl rfl (by decide +kernel) hiddenBus_container
    opens_openThroughParent

/-- The parent of the directory of the GPUs leads to the hidden files. -/
theorem not_hidden_unopened :
    ¬ ∀ (w₀ : World) (calls : List Call) (c : Call) (fd : Nat) (b : CStr), w₀.Initial →
      w₀.shim.procFilterReady = true → w₀.shim.allowed.valid = true →
      EachStep World.step Admissible w₀ (calls ++ [c]) → HiddenBus w₀.shim.allowed b →
      ¬ (run World.step w₀ calls).Opens c fd (informationPath b) := by
  intro h
  exact h (start container) [openParent] openThroughParent 4 _ (start_initial rfl) rfl rfl (by decide +kernel)
    hiddenBus_container opens_openThroughParent

end World

end Nvscope
