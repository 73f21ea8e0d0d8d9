import Nvscope.Lemmas.PreloadBytes
import Nvscope.System.InMemory

/-!
# The library in memory keeps to its model

From its start to the last call: no load and no store leaves its array, and the strings in the arrays are those of
the model.
-/

namespace Nvscope

open Lib

variable {K β α γ : Type} {bytes : ShimBytes} {sh : Shim}

/-! ## Calls -/

structure ReplyBytes.Shows (r : ReplyBytes K α) (r' : Reply K α) : Prop where
  value : r.value = r'.value
  errno : r.errno = r'.errno
  shim : r.shim.Shows r'.shim
  os : r.os = r'.os

theorem ReplyBytes.Shows.map {r : ReplyBytes K α} {r' : Reply K α} (h : r.Shows r') (f : α → γ) :
    (r.map f).Shows (r'.map f) :=
  ⟨congrArg f h.value, h.errno, h.shim, h.os⟩

theorem pathStr_eq (path : Option StrArray) : pathStr (path.map (·.bytes)) = some (path.map (·.str)) := by
  cases path with
  | none => rfl
  | some path => rw [Option.map_some, pathStr, path.cstrAt_zero]; rfl

theorem openCommonAt_shows (h : bytes.Shows sh) (real real64 : Option (RealOpen K)) (use64 : Bool)
    (path : Option StrArray) (args : OpenArgs) (frame : Frame) (os : K) :
    ∃ r, openCommonAt real real64 use64 (path.map (·.bytes)) args bytes frame os = some r ∧
      r.Shows (openCommon real real64 use64 (path.map (·.str)) args sh os) := by
  obtain ⟨record, hclassify, hrecord⟩ := classifyPathAt_shows path
  simp only [openCommonAt, openCommon, hclassify, procDeniedAt_eq h, pathStr_eq, Option.bind_some, Option.map_some]
  split
  · exact ⟨_, rfl, rfl, rfl, h, rfl⟩
  · cases (if use64 = true then real64.or real else real) with
    | none => exact ⟨_, rfl, rfl, rfl, h, rfl⟩
    | some real =>
        refine ⟨_, rfl, rfl, rfl, ?_, rfl⟩
        simp only
        split
        · exact h.track _ hrecord
        · exact h

theorem openatCommonAt_shows (h : bytes.Shows sh) (real real64 : Option (RealOpenat K)) (use64 : Bool) (dirfd : Int)
    (path : Option StrArray) (args : OpenArgs) (frame : Frame) (os : K) :
    ∃ r, openatCommonAt real real64 use64 dirfd (path.map (·.bytes)) args bytes frame os = some r ∧
      r.Shows (openatCommon real real64 use64 dirfd (path.map (·.str)) args sh os) := by
  obtain ⟨effective, hcall, heffective⟩ := effectiveOpenatPathAt_eq h frame dirfd path
  obtain ⟨record, hclassify, -⟩ := classifyPathAt_shows effective
  simp only [openatCommonAt, openatCommon, hcall, ← heffective, procDeniedAt_eq h, pathStr_eq, pathIsAbsoluteAt_eq,
    hclassify, Option.bind_some, Option.map_some]
  split
  · exact ⟨_, rfl, rfl, rfl, h, rfl⟩
  · cases (if use64 = true then real64.or real else real) with
    | none => exact ⟨_, rfl, rfl, rfl, h, rfl⟩
    | some real =>
        simp only
        split
        · obtain ⟨bytes', htrack, hshows⟩ :=
            traceAndTrackOpenAt_shows h effective (real dirfd (path.map (·.str)) args os).1
          simp only [htrack, Option.map_some]
          exact ⟨_, rfl, rfl, rfl, hshows, rfl⟩
        · exact ⟨_, rfl, rfl, rfl, h, rfl⟩

theorem closeAt_shows (h : bytes.Shows sh) (real : Option (Int → K → Int × K)) (fd : Int) (os : K) :
    (closeAt real fd bytes os).Shows (close real fd sh os) := by
  cases real with
  | none => exact ⟨rfl, rfl, h, rfl⟩
  | some real =>
      refine ⟨rfl, rfl, ?_, rfl⟩
      simp only [closeAt, close]
      split
      · exact h.untrack fd
      · exact h

theorem statAt_shows (h : bytes.Shows sh) (real : Option (Option CStr → β → K → (Int × β) × K)) (path : Option StrArray)
    (statbuf : β) (frame : Frame) (os : K) :
    ∃ r, statAt real (path.map (·.bytes)) statbuf bytes frame os = some r ∧
      r.Shows (stat real (path.map (·.str)) statbuf sh os) := by
  simp only [statAt, stat, procDeniedAt_eq h, pathStr_eq, Option.bind_some, Option.map_some]
  split
  · exact ⟨_, rfl, rfl, rfl, h, rfl⟩
  · cases real with
    | none => exact ⟨_, rfl, rfl, rfl, h, rfl⟩
    | some real => exact ⟨_, rfl, rfl, rfl, h, rfl⟩

theorem newfstatatAt_shows (h : bytes.Shows sh)
    (real : Option (Int → Option CStr → β → UInt32 → K → (Int × β) × K)) (dirfd : Int) (path : Option StrArray)
    (statbuf : β) (flags : UInt32) (frame : Frame) (os : K) :
    ∃ r, newfstatatAt real dirfd (path.map (·.bytes)) statbuf flags bytes frame os = some r ∧
      r.Shows (newfstatat real dirfd (path.map (·.str)) statbuf flags sh os) := by
  obtain ⟨effective, hcall, heffective⟩ := effectiveOpenatPathAt_eq h frame dirfd path
  simp only [newfstatatAt, newfstatat, hcall, ← heffective, procDeniedAt_eq h, pathStr_eq, Option.bind_some,
    Option.map_some]
  split
  · exact ⟨_, rfl, rfl, rfl, h, rfl⟩
  · cases real with
    | none => exact ⟨_, rfl, rfl, rfl, h, rfl⟩
    | some real => exact ⟨_, rfl, rfl, rfl, h, rfl⟩

theorem opendirCommonAt_shows (h : bytes.Shows sh) (real real64 : Option (RealOpendir K)) (dirfd : Nat → K → Int)
    (use64 : Bool) (path : Option StrArray) (frame : Frame) (os : K) :
    ∃ r, opendirCommonAt real real64 dirfd use64 (path.map (·.bytes)) bytes frame os = some r ∧
      r.Shows (opendirCommon real real64 dirfd use64 (path.map (·.str)) sh os) := by
  simp only [opendirCommonAt, opendirCommon, procDeniedAt_eq h, pathStr_eq, Option.bind_some]
  split
  · exact ⟨_, rfl, rfl, rfl, h, rfl⟩
  · cases (if use64 = true then real64.or real else real) with
    | none => exact ⟨_, rfl, rfl, rfl, h, rfl⟩
    | some real =>
        simp only
        generalize real (path.map (·.str)) os = opened
        obtain ⟨value, os⟩ := opened
        cases value with
        | none => exact ⟨_, rfl, rfl, rfl, h, rfl⟩
        | some dir =>
            obtain ⟨bytes', htrack, hshows⟩ := traceAndTrackOpenAt_shows h path (dirfd dir os)
            simp only [htrack, Option.map_some]
            exact ⟨_, rfl, rfl, rfl, hshows, rfl⟩

theorem fdopendirAt_shows (h : bytes.Shows sh) (real : Option (Int → K → Option Nat × K)) (fd : Int) (os : K) :
    (fdopendirAt real fd bytes os).Shows (fdopendir real fd sh os) := by
  cases real with
  | none => exact ⟨rfl, rfl, h, rfl⟩
  | some real => exact ⟨rfl, rfl, h, rfl⟩

/-- A real `readdir`, as the strings in the arrays show it. -/
def entryStrings (real : Nat → K → Option StrArray × K) : RealReaddir K :=
  fun dirp os => ((real dirp os).1.map (·.str), (real dirp os).2)

theorem readdirLoopAt_eq (h : bytes.Shows sh) (real : Nat → K → Option StrArray × K) (dirp : Nat) (fd : Int)
    (fuel : Nat) (entry : StrArray) (os : K) : ∃ r, readdirLoopAt real dirp fd bytes fuel entry os = some r ∧
      r.map (fun v => (v.1.map (·.str), v.2)) = readdirLoop (entryStrings real) dirp fd sh fuel entry.str os := by
  induction fuel generalizing entry os with
  | zero =>
      rw [readdirLoopAt, readdirLoop, readdirEntryAllowedAt_eq h, Option.map_some]
      refine ⟨_, rfl, ?_⟩
      split <;> rfl
  | succ fuel ih =>
      rw [readdirLoopAt, readdirLoop, readdirEntryAllowedAt_eq h, Option.bind_some]
      split
      · exact ⟨_, rfl, rfl⟩
      · simp only [entryStrings]
        obtain ⟨next, os⟩ := real dirp os
        cases next with
        | none => exact ⟨_, rfl, rfl⟩
        | some entry => exact ih entry os

theorem readdirAt_shows (h : bytes.Shows sh) (real : Nat → K → Option StrArray × K) (dirfd : Nat → K → Int)
    (fuel dirp : Nat) (os : K) : ∃ r, readdirAt (some real) dirfd fuel dirp bytes os = some r ∧
      Option.Rel ReplyBytes.Shows (r.map fun r => r.map fun v => v.map (·.str))
        (readdir (some (entryStrings real)) dirfd fuel dirp sh os) := by
  have hentry : entryStrings real dirp os = ((real dirp os).1.map (·.str), (real dirp os).2) := rfl
  simp only [readdirAt, readdir, hentry]
  obtain ⟨entry, os⟩ := real dirp os
  cases entry with
  | none => exact ⟨_, rfl, .some ⟨rfl, rfl, h, rfl⟩⟩
  | some entry =>
      obtain ⟨r, hloop, hstrings⟩ := readdirLoopAt_eq h real dirp (dirfd dirp os) fuel entry os
      simp only [Option.map_some, hloop, ← hstrings]
      cases r with
      | none => exact ⟨_, rfl, .none⟩
      | some v => exact ⟨_, rfl, .some ⟨rfl, rfl, h, rfl⟩⟩

/-- Step lemma: one call. -/
theorem interposed_shows (h : bytes.Shows sh) (m : MemoryLibc K β) (fuel : Nat) (frame : Frame) (c : MemoryCall β)
    (os : K) : ∃ r, m.interposed fuel bytes frame c os = some r ∧
      Option.Rel ReplyBytes.Shows r (m.strings.interposed fuel sh c.strings os) := by
  cases c with
  | openPath use64 path args =>
      obtain ⟨r, hcall, hshows⟩ := openCommonAt_shows h (some m.libc.openPath) (some m.libc.openPath64) use64 path
        (openArgs args.1 args.2) frame os
      exact ⟨_, by rw [MemoryLibc.interposed, hcall, Option.map_some], .some (hshows.map _)⟩
  | openatPath use64 dirfd path args =>
      obtain ⟨r, hcall, hshows⟩ := openatCommonAt_shows h (some m.libc.openat) (some m.libc.openat64) use64 dirfd path
        (openArgs args.1 args.2) frame os
      exact ⟨_, by rw [MemoryLibc.interposed, hcall, Option.map_some], .some (hshows.map _)⟩
  | close fd => exact ⟨_, rfl, .some ((closeAt_shows h (some m.libc.close) fd os).map _)⟩
  | stat path statbuf =>
      obtain ⟨r, hcall, hshows⟩ := statAt_shows h (some m.libc.stat) path statbuf frame os
      exact ⟨_, by rw [MemoryLibc.interposed, hcall, Option.map_some], .some (hshows.map _)⟩
  | newfstatat dirfd path statbuf flags =>
      obtain ⟨r, hcall, hshows⟩ := newfstatatAt_shows h (some m.libc.newfstatat) dirfd path statbuf flags frame os
      exact ⟨_, by rw [MemoryLibc.interposed, hcall, Option.map_some], .some (hshows.map _)⟩
  | opendir use64 path =>
      obtain ⟨r, hcall, hshows⟩ := opendirCommonAt_shows h (some m.libc.opendir) (some m.libc.opendir64) m.libc.dirfd
        use64 path frame os
      exact ⟨_, by rw [MemoryLibc.interposed, hcall, Option.map_some], .some (hshows.map _)⟩
  | fdopendir fd => exact ⟨_, rfl, .some ((fdopendirAt_shows h (some m.libc.fdopendir) fd os).map _)⟩
  | readdir use64 dirp =>
      obtain ⟨r, hcall, hshows⟩ := readdirAt_shows h (m.readdir use64) m.libc.dirfd fuel dirp os
      refine ⟨r.map fun r => r.map fun v => Answer.entry (v.map (·.str)), by rw [MemoryLibc.interposed, hcall]; rfl, ?_⟩
      have hreal : (if use64 then m.strings.readdir64 else m.strings.readdir) = entryStrings (m.readdir use64) := by
        cases use64 <;> rfl
      rw [MemoryCall.strings, Libc.interposed, hreal]
      have hentry := rel_map hshows fun _ _ hreply => hreply.map fun name => (Answer.entry name : Answer β)
      rw [Option.map_map] at hentry
      exact hentry

/-! ## Runs -/

structure MemoryRun.Shows (s : MemoryRun K β) (s' : ShimRun K β) : Prop where
  shim : s.shim.Shows s'.shim
  os : s.os = s'.os
  seen : s.seen = s'.seen

theorem step_shows {s : MemoryRun K β} {s' : ShimRun K β} (h : s.Shows s') (m : MemoryLibc K β) (fuel : Nat)
    (e : MemoryCall β × Frame) : ∃ next, s.step m fuel e = some next ∧
      next.Shows (s'.step m.strings fuel e.1.strings) := by
  obtain ⟨r, hcall, hshows⟩ := interposed_shows h.shim m fuel e.2 e.1 s.os
  rw [h.os] at hshows
  simp only [MemoryRun.step, ShimRun.step, hcall, Option.map_some]
  generalize m.strings.interposed fuel s'.shim e.1.strings s'.os = r' at hshows
  cases hshows with
  | none => exact ⟨_, rfl, h.shim, h.os, congrArg (· ++ [none]) h.seen⟩
  | some hreply =>
      refine ⟨_, rfl, hreply.shim, hreply.os, ?_⟩
      simp only [h.seen, hreply.value, hreply.errno]

theorem nvfixConstructor_of_disabled {config : Config} {st : Bool × AllowedGpus}
    (h : config.procFilterEnabled = false → st = (false, AllowedGpus.empty)) :
    nvfixConstructor config (fun _ => st) =
      { config := config, allowed := st.2, procFilterReady := st.1, fdMap := fdMapClear
        learned := LearnedIds.empty } := by
  rw [nvfixConstructor]
  cases henabled : config.procFilterEnabled with
  | true => rfl
  | false =>
      rw [h henabled]
      rfl

theorem nvfixConstructorAt_shows (getenv : CStr → Option StrArray) (host : Host) (locals : Locals)
    (found : FoundArrays) : Option.Rel ShimBytes.Shows
      (nvfixConstructorAt (fun name => (getenv name).map (·.bytes)) host locals found)
      (nvfixConstructorOn (fun name => (getenv name).map (·.str)) host locals) := by
  obtain ⟨cfg, hload, hcfg⟩ := configLoadAt_shows getenv
  simp only [nvfixConstructorAt, nvfixConstructorOn, hload, Option.bind_some]
  generalize configLoad (fun name => (getenv name).map (·.str)) = config at hcfg
  obtain ⟨uuid, hbytes, hstr⟩ := exists_strArray hcfg.gpuUuid
  have hexplicit : ∃ explicit : Option StrArray,
      (if cfg.gpuUuidSet then some cfg.gpuUuid else none) = explicit.map (·.bytes) ∧
        (if config.gpuUuidSet then some config.gpuUuid else none) = explicit.map (·.str) := by
    rw [hcfg.gpuUuidSet]
    cases config.gpuUuidSet with
    | true => exact ⟨some uuid, congrArg some hbytes.symm, congrArg some hstr.symm⟩
    | false => exact ⟨none, rfl, rfl⟩
  obtain ⟨explicit, hexplicitBytes, hexplicitStr⟩ := hexplicit
  rw [hexplicitBytes, hexplicitStr, hcfg.procFilterEnabled]
  have hinit : Option.Rel
      (fun a st => (a.1 = st.1 ∧ a.2.Shows st.2) ∧
        (config.procFilterEnabled = false → st = (false, AllowedGpus.empty)))
      (if config.procFilterEnabled = true then procFilterRuntimeInitAt host locals found (explicit.map (·.bytes))
        else some (false, AllowedBytes.empty))
      (if config.procFilterEnabled = true then procFilterRuntimeInit host locals (explicit.map (·.str))
        else some (false, AllowedGpus.empty)) := by
    cases config.procFilterEnabled with
    | true =>
        refine rel_mono (procFilterRuntimeInitAt_shows host locals found explicit) fun a st h => ⟨h, fun hoff => ?_⟩
        cases hoff
    | false => exact .some ⟨⟨rfl, rfl, .nil⟩, fun _ => rfl⟩
  refine rel_map hinit fun a st h => ?_
  rw [nvfixConstructor_of_disabled h.2]
  exact ⟨hcfg, h.1.2, h.1.1, fun _ => .none⟩

/-- The library in memory refines the model, from the environment and the files of the host to the last call of any
run over paths and names: it faults only where the detection runs into a directory entry that has its `d_reclen` or
a part of its name outside the buffer, and otherwise every load and store of the run is inside its array, whatever
the local arrays hold; the program sees the answers of the model, and the arrays of the library hold the strings of the model. -/
theorem memory_refines (getenv : CStr → Option StrArray) (host : Host) (locals : Locals) (found : FoundArrays)
    (m : MemoryLibc K β) (fuel : Nat) (os : K) (calls : List (MemoryCall β × Frame)) :
    Option.Rel MemoryRun.Shows
      (MemoryRun.whole (fun name => (getenv name).map (·.bytes)) host locals found m fuel os calls)
      (ShimRun.whole (fun name => (getenv name).map (·.str)) host locals m.strings fuel os
        (calls.map (·.1.strings))) := by
  have hstart := nvfixConstructorAt_shows getenv host locals found
  have hstep : ∀ (s : MemoryRun K β) (s' : ShimRun K β) (e : MemoryCall β × Frame), s.Shows s' →
      ∃ next, s.step m fuel e = some next ∧ next.Shows (s'.step m.strings fuel e.1.strings) :=
    fun s s' e h => step_shows h m fuel e
  rw [MemoryRun.whole, ShimRun.whole, Option.map_eq_bind]
  refine rel_bind hstart fun bytes sh hshows => ?_
  have hloaded : MemoryRun.Shows (⟨bytes, os, []⟩ : MemoryRun K β) ⟨sh, os, []⟩ := ⟨hshows, rfl, rfl⟩
  obtain ⟨last, hrun, hlast⟩ := foldlM_related hstep hloaded calls
  rw [hrun]
  exact .some hlast

end Nvscope
