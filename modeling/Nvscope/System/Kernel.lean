import Nvscope.Model.Preload

/-!
# The kernel and libc underneath the shim

The kernel's descriptor table and libc's directory streams. Each operation takes the choice the kernel
makes as an argument: the descriptor it proposes, the `DIR *` libc allocates, the listing a new stream
shows. A proposal that is not free makes the call fail, so every behaviour is the run of some choices.
-/

namespace Nvscope

open Lib

/-- An open descriptor, with the path it was opened at; `none` for one the process started with. -/
structure OpenFile where
  path : Option CStr
  deriving DecidableEq

/-- A directory stream. `attached` says that its descriptor has not been released since the stream was
made; `remaining` is what the real `readdir` has not returned yet of `listing`. -/
structure DirStream where
  fd : Nat
  attached : Bool
  listing : List CStr
  remaining : List CStr
  deriving DecidableEq

structure Kernel where
  files : Nat → Option OpenFile
  dirs : Nat → Option DirStream
  cwd : CStr

namespace Kernel

/-- A descriptor the kernel may hand out: below 4096 and not in use. -/
def Free (k : Kernel) (fd : Nat) : Prop :=
  fd < fdMapMax ∧ k.files fd = none

instance (k : Kernel) (fd : Nat) : Decidable (k.Free fd) :=
  inferInstanceAs (Decidable (_ ∧ _))

theorem Free.lt {k : Kernel} {fd : Nat} (h : k.Free fd) : fd < fdMapMax :=
  And.left h

/-- A path as the kernel reads it relative to a descriptor: a relative path is appended to the path the
descriptor was opened at. -/
def resolve (k : Kernel) (dirfd : Int) (path : CStr) : Option CStr :=
  if path.head? = some slash then some path
  else if dirfd = atFdcwd then some (k.cwd ++ slash :: path)
  else if dirfd < 0 then none
  else ((k.files dirfd.toNat).bind OpenFile.path).map fun base => base ++ slash :: path

def openFile (fd : Nat) (path : Option CStr) (k : Kernel) : Int × Kernel :=
  match path with
  | none => (-1, k)
  | some path =>
      if k.Free fd then (fd, { k with files := Function.update k.files fd (some ⟨some path⟩) })
      else (-1, k)

/-- The descriptor is gone, and the streams on it are on their own. -/
def release (k : Kernel) (fd : Nat) : Kernel :=
  { k with
    files := Function.update k.files fd none
    dirs := fun dir => (k.dirs dir).map fun s => if s.fd = fd then { s with attached := false } else s }

def close (fd : Int) (k : Kernel) : Int × Kernel :=
  if 0 ≤ fd ∧ (k.files fd.toNat).isSome then (0, k.release fd.toNat) else (-1, k)

def addDir (k : Kernel) (dir fd : Nat) (listing : List CStr) : Kernel :=
  { k with dirs := Function.update k.dirs dir (some ⟨fd, true, listing, listing⟩) }

def opendir (fd dir : Nat) (listing : List CStr) (path : Option CStr) (k : Kernel) :
    Option Nat × Kernel :=
  match path with
  | none => (none, k)
  | some path =>
      if k.Free fd ∧ k.dirs dir = none then
        (some dir, (k.openFile fd (some path)).2.addDir dir fd listing)
      else (none, k)

def fdopendir (dir : Nat) (listing : List CStr) (fd : Int) (k : Kernel) : Option Nat × Kernel :=
  if 0 ≤ fd ∧ (k.files fd.toNat).isSome ∧ k.dirs dir = none then
    (some dir, k.addDir dir fd.toNat listing)
  else (none, k)

def dirfd (dir : Nat) (k : Kernel) : Int :=
  match k.dirs dir with
  | none => -1
  | some s => s.fd

def leave (k : Kernel) (dir : Nat) (s : DirStream) (names : List CStr) : Kernel :=
  { k with dirs := Function.update k.dirs dir (some { s with remaining := names }) }

/-- The real `readdir`: the listing one name at a time, then NULL. -/
def readdir (dir : Nat) (k : Kernel) : Option CStr × Kernel :=
  match k.dirs dir with
  | none => (none, k)
  | some s =>
      match s.remaining with
      | [] => (none, k)
      | name :: names => (some name, k.leave dir s names)

/-- `closedir`, which the shim does not interpose: libc frees the stream and closes its descriptor number
without calling the shim's `close`. -/
def closedir (dir : Nat) (k : Kernel) : Kernel :=
  match k.dirs dir with
  | none => k
  | some s =>
      let k := { k with dirs := Function.update k.dirs dir none }
      (k.close s.fd).2

end Kernel

end Nvscope
