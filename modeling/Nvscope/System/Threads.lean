import Nvscope.Lib.Runs
import Nvscope.System.World

/-!
# Threads that open and close at the same time

An interposed open on an absolute path is two steps, the kernel's open and the write of the map; an
interposed close is the kernel's close and the removal from the map. Any thread may take a step at any time,
so other threads run between the two halves of a call.
-/

namespace Nvscope

open Lib

/-- What a thread still has to do: the map step of an open, or that of a close. -/
inductive Phase where
  | idle
  | opened (fd : Nat) (path : CStr)
  | closed (fd : Nat)
  deriving DecidableEq

structure Threads (τ : Type) where
  shim : Shim
  os : Kernel
  phase : τ → Phase

/-- A step of a thread. `openKernel` is the first half of any opening call on an absolute path, with the
descriptor the kernel proposes. -/
inductive Action (τ : Type) where
  | openKernel (t : τ) (path : CStr) (fd : Nat)
  | openTrack (t : τ)
  | closeKernel (t : τ) (fd : Nat)
  | closeRemove (t : τ)

namespace Threads

variable {τ : Type}

def Quiescent (s : Threads τ) : Prop :=
  ∀ t, s.phase t = .idle

/-- The start: an empty map, no call in progress, and no descriptor but inherited ones. -/
structure Initial (s : Threads τ) : Prop where
  untracked : s.shim.fdMap = fdMapClear
  inherited : ∀ fd f, s.os.files fd = some f → f.path = none
  quiescent : s.Quiescent

def start (sh : Shim) : Threads τ :=
  { shim := sh
    os := { files := fun _ => none, dirs := fun _ => none, cwd := [slash] }
    phase := fun _ => .idle }

theorem start_initial {sh : Shim} (h : sh.fdMap = fdMapClear) : (start sh : Threads τ).Initial where
  untracked := h
  inherited _ _ hf := by cases hf
  quiescent _ := rfl

variable [DecidableEq τ]

def step (s : Threads τ) : Action τ → Threads τ
  | .openKernel t path fd =>
      if s.phase t = .idle ∧ procDenied s.shim (some path) = false ∧ s.os.Free fd then
        { s with
          os := (s.os.openFile fd (some path)).2
          phase := Function.update s.phase t (if classified path = none then .idle else .opened fd path) }
      else s
  | .openTrack t =>
      match s.phase t with
      | .opened fd path =>
          { s with
            shim := traceAndTrackOpen (some path) fd s.shim
            phase := Function.update s.phase t .idle }
      | _ => s
  | .closeKernel t fd =>
      if s.phase t = .idle ∧ (s.os.files fd).isSome then
        { s with
          os := (s.os.close fd).2
          phase := Function.update s.phase t (.closed fd) }
      else s
  | .closeRemove t =>
      match s.phase t with
      | .closed fd =>
          { s with
            shim := s.shim.untrack fd
            phase := Function.update s.phase t .idle }
      | _ => s

end Threads

end Nvscope
