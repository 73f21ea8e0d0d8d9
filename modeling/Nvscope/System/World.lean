import Nvscope.Lib.Runs
import Nvscope.System.Kernel

/-!
# A single-threaded program over the shim

The state of a run is the shim, the kernel and what the program has read from its directory streams.
-/

namespace Nvscope

open Lib

/-- A call of the program, with the choices of the kernel and of libc: `fd` is the descriptor the kernel
proposes, `dir` the stream libc allocates, `listing` what that stream shows. All but `closedir` are
interposed. -/
inductive Call where
  | openPath (use64 : Bool) (path : CStr) (args : OpenArgs) (fd : Nat)
  | openatPath (use64 : Bool) (dirfd : Int) (path : CStr) (args : OpenArgs) (fd : Nat)
  | opendir (use64 : Bool) (path : CStr) (fd dir : Nat) (listing : List CStr)
  | fdopendir (fd : Int) (dir : Nat) (listing : List CStr)
  | readdir (use64 : Bool) (dir : Nat)
  | close (fd : Int)
  | closedir (dir : Nat)

/-- `heard` lists the names the interposed `readdir` returned on a stream, `ended` says that it returned
NULL. -/
structure World where
  shim : Shim
  os : Kernel
  heard : Nat → List CStr
  ended : Nat → Bool

namespace World

/-- What the program notes of the answer to a `readdir`. -/
def hear (w : World) (dir : Nat) : Option CStr → World
  | none => { w with ended := Function.update w.ended dir true }
  | some name => { w with heard := Function.update w.heard dir (w.heard dir ++ [name]) }

/-- The notes on a stream start when it is made. -/
def forget (w : World) : Option Nat → World
  | none => w
  | some dir =>
      { w with heard := Function.update w.heard dir [], ended := Function.update w.ended dir false }

/-- As many further entries as the stream has. -/
def fuel (w : World) (dir : Nat) : Nat :=
  ((w.os.dirs dir).map fun s => s.remaining.length).getD 0

def after {α : Type} (w : World) (r : Reply Kernel α) : World :=
  { w with shim := r.shim, os := r.os }

/-- One call. Every real function is found; `open` and `open64` lead to the same kernel operation, and so
do the other pairs. -/
def step (w : World) : Call → World
  | .openPath use64 path args fd =>
      let real : RealOpen Kernel := fun path _ k => k.openFile fd path
      w.after (openCommon (some real) (some real) use64 (some path) args w.shim w.os)
  | .openatPath use64 dirfd path args fd =>
      let real : RealOpenat Kernel := fun dirfd path _ k => k.openFile fd (path.bind (k.resolve dirfd))
      w.after (openatCommon (some real) (some real) use64 dirfd (some path) args w.shim w.os)
  | .opendir use64 path fd dir listing =>
      let real : RealOpendir Kernel := Kernel.opendir fd dir listing
      let r := opendirCommon (some real) (some real) Kernel.dirfd use64 (some path) w.shim w.os
      (w.after r).forget r.value
  | .fdopendir fd dir listing =>
      let r := Nvscope.fdopendir (some (Kernel.fdopendir dir listing)) fd w.shim w.os
      (w.after r).forget r.value
  | .readdir _ dir =>
      match Nvscope.readdir (some Kernel.readdir) Kernel.dirfd (w.fuel dir) dir w.shim w.os with
      | none => w
      | some r => (w.after r).hear dir r.value
  | .close fd => w.after (Nvscope.close (some Kernel.close) fd w.shim w.os)
  | .closedir dir => { w with os := w.os.closedir dir }

end World

/-- The call names its path absolutely, where it names one. -/
def Call.absolute : Call → Bool
  | .openPath _ path _ _ | .openatPath _ _ path _ _ | .opendir _ path _ _ _ => path.head? == some slash
  | _ => true

/-- A shim at the start of the process: nothing is tracked, and no stream is open. -/
structure World.Initial (w : World) : Prop where
  untracked : w.shim.fdMap = fdMapClear
  inherited : ∀ fd f, w.os.files fd = some f → f.path = none
  noDirs : ∀ dir, w.os.dirs dir = none

def World.start (sh : Shim) : World :=
  { shim := sh
    os := { files := fun _ => none, dirs := fun _ => none, cwd := [slash] }
    heard := fun _ => []
    ended := fun _ => false }

theorem World.start_initial {sh : Shim} (h : sh.fdMap = fdMapClear) : (World.start sh).Initial where
  untracked := h
  inherited _ _ hf := by cases hf
  noDirs _ := rfl

/-! ## Spellings of a path -/

/-- The segments of a path that count: not empty and not `.`. -/
def pathSegments (path : CStr) : List CStr :=
  (path.splitOn slash).filter fun s => s != [] && s != dot

/-- An absolute path that differs from `/proc/driver/nvidia/gpus` at most in repeated or trailing slashes
and `.` segments. -/
def SpellsGpusDir (path : CStr) : Prop :=
  path.head? = some slash ∧ pathSegments path = pathSegments gpusDir

instance (path : CStr) : Decidable (SpellsGpusDir path) :=
  inferInstanceAs (Decidable (_ ∧ _))

theorem spellsGpusDir_gpusDir : SpellsGpusDir gpusDir := by
  decide

end Nvscope
