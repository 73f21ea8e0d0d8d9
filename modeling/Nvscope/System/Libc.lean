import Nvscope.Lib.Runs
import Nvscope.Model.Preload

/-!
# A program with the shim in front of libc, and without it

The real functions are arbitrary functions on a state of their own, so the state may hold the answers the
kernel is going to give as well as a record of what it was asked.
-/

namespace Nvscope

open Lib

/-- A call of one of the interposed functions. `ω` is how an open is given its flags and mode, `β` is the
contents of a `struct stat`. -/
inductive Invocation (ω β : Type) where
  | openPath (use64 : Bool) (path : Option CStr) (args : ω)
  | openatPath (use64 : Bool) (dirfd : Int) (path : Option CStr) (args : ω)
  | close (fd : Int)
  | stat (path : Option CStr) (statbuf : β)
  | newfstatat (dirfd : Int) (path : Option CStr) (statbuf : β) (flags : UInt32)
  | opendir (use64 : Bool) (path : Option CStr)
  | fdopendir (fd : Int)
  | readdir (use64 : Bool) (dirp : Nat)
  | getdents64 (fd : Int) (count : Nat)
  | ioctl (fd : Int) (request : UInt64) (arg : Option IoctlArg)

/-- What a call gives back: its result, and the memory of the caller it filled. -/
inductive Answer (β : Type) where
  | result (n : Int)
  | status (n : Int) (statbuf : β)
  | stream (dirp : Option Nat)
  | entry (name : Option CStr)
  | entries (n : Int) (buffer : List UInt8)
  | control (n : Int) (arg : Option IoctlArg)

/-- The real functions. -/
structure Libc (K β : Type) where
  openPath : RealOpen K
  openPath64 : RealOpen K
  openat : RealOpenat K
  openat64 : RealOpenat K
  close : Int → K → Int × K
  stat : Option CStr → β → K → (Int × β) × K
  newfstatat : Int → Option CStr → β → UInt32 → K → (Int × β) × K
  opendir : RealOpendir K
  opendir64 : RealOpendir K
  fdopendir : Int → K → Option Nat × K
  readdir : RealReaddir K
  readdir64 : RealReaddir K
  dirfd : Nat → K → Int
  getdents64 : Int → Nat → K → (Int × List UInt8) × K
  ioctl : Int → UInt64 → Option IoctlArg → K → (Int × Option IoctlArg) × K

variable {K β : Type}

/-- A call handed to the real function of its name. -/
def Libc.direct (libc : Libc K β) : Invocation OpenArgs β → K → Answer β × K
  | .openPath use64 path args, os =>
      let (fd, os) := (if use64 then libc.openPath64 else libc.openPath) path args os
      (.result fd, os)
  | .openatPath use64 dirfd path args, os =>
      let (fd, os) := (if use64 then libc.openat64 else libc.openat) dirfd path args os
      (.result fd, os)
  | .close fd, os =>
      let (result, os) := libc.close fd os
      (.result result, os)
  | .stat path statbuf, os =>
      let ((result, statbuf), os) := libc.stat path statbuf os
      (.status result statbuf, os)
  | .newfstatat dirfd path statbuf flags, os =>
      let ((result, statbuf), os) := libc.newfstatat dirfd path statbuf flags os
      (.status result statbuf, os)
  | .opendir use64 path, os =>
      let (dirp, os) := (if use64 then libc.opendir64 else libc.opendir) path os
      (.stream dirp, os)
  | .fdopendir fd, os =>
      let (dirp, os) := libc.fdopendir fd os
      (.stream dirp, os)
  | .readdir use64 dirp, os =>
      let (entry, os) := (if use64 then libc.readdir64 else libc.readdir) dirp os
      (.entry entry, os)
  | .getdents64 fd count, os =>
      let ((result, buffer), os) := libc.getdents64 fd count os
      (.entries result buffer, os)
  | .ioctl fd request arg, os =>
      let ((result, arg), os) := libc.ioctl fd request arg os
      (.control result arg, os)

def Reply.map {α γ : Type} (f : α → γ) (r : Reply K α) : Reply K γ :=
  { value := f r.value, errno := r.errno, shim := r.shim, os := r.os }

/-- The interposed function of that name; every real function is found. An open is given its flags and the
word where `va_arg` would look for a mode. -/
def Libc.interposed (libc : Libc K β) (fuel : Nat) (sh : Shim) :
    Invocation (UInt32 × UInt32) β → K → Option (Reply K (Answer β))
  | .openPath use64 path args, os =>
      some ((openCommon (some libc.openPath) (some libc.openPath64) use64 path
        (openArgs args.1 args.2) sh os).map .result)
  | .openatPath use64 dirfd path args, os =>
      some ((openatCommon (some libc.openat) (some libc.openat64) use64 dirfd path
        (openArgs args.1 args.2) sh os).map .result)
  | .close fd, os => some ((Nvscope.close (some libc.close) fd sh os).map .result)
  | .stat path statbuf, os =>
      some ((Nvscope.stat (some libc.stat) path statbuf sh os).map fun v => .status v.1 v.2)
  | .newfstatat dirfd path statbuf flags, os =>
      some ((Nvscope.newfstatat (some libc.newfstatat) dirfd path statbuf flags sh os).map
        fun v => .status v.1 v.2)
  | .opendir use64 path, os =>
      some ((opendirCommon (some libc.opendir) (some libc.opendir64) libc.dirfd use64 path sh os).map
        .stream)
  | .fdopendir fd, os => some ((Nvscope.fdopendir (some libc.fdopendir) fd sh os).map .stream)
  | .readdir use64 dirp, os =>
      (Nvscope.readdir (some (if use64 then libc.readdir64 else libc.readdir)) libc.dirfd fuel dirp sh
        os).map fun r => r.map .entry
  | .getdents64 fd count, os =>
      (Nvscope.getdents64 libc.getdents64 fd count sh os).map fun r => r.map fun v => .entries v.1 v.2
  | .ioctl fd request arg, os =>
      some ((Nvscope.ioctl libc.ioctl fd request arg sh os).map fun v => .control v.1 v.2)

/-- What `open` reads of its arguments. -/
def Invocation.handed : Invocation (UInt32 × UInt32) β → Invocation OpenArgs β
  | .openPath use64 path args => .openPath use64 path (openArgs args.1 args.2)
  | .openatPath use64 dirfd path args => .openatPath use64 dirfd path (openArgs args.1 args.2)
  | .close fd => .close fd
  | .stat path statbuf => .stat path statbuf
  | .newfstatat dirfd path statbuf flags => .newfstatat dirfd path statbuf flags
  | .opendir use64 path => .opendir use64 path
  | .fdopendir fd => .fdopendir fd
  | .readdir use64 dirp => .readdir use64 dirp
  | .getdents64 fd count => .getdents64 fd count
  | .ioctl fd request arg => .ioctl fd request arg

/-- What a program sees of its calls: their answers, with the `errno` the shim set, and `none` for a call
that never came back. -/
abbrev Seen (β : Type) := List (Option (Answer β × Option Errno))

structure DirectRun (K β : Type) where
  os : K
  seen : Seen β

structure ShimRun (K β : Type) where
  shim : Shim
  os : K
  seen : Seen β

def DirectRun.step (libc : Libc K β) (s : DirectRun K β) (c : Invocation (UInt32 × UInt32) β) :
    DirectRun K β :=
  let (answer, os) := libc.direct c.handed s.os
  { os := os, seen := s.seen ++ [some (answer, none)] }

def ShimRun.step (libc : Libc K β) (fuel : Nat) (s : ShimRun K β) (c : Invocation (UInt32 × UInt32) β) :
    ShimRun K β :=
  match libc.interposed fuel s.shim c s.os with
  | none => { s with seen := s.seen ++ [none] }
  | some r => { shim := r.shim, os := r.os, seen := s.seen ++ [some (r.value, r.errno)] }

end Nvscope
