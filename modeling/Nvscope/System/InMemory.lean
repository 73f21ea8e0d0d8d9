import Nvscope.Model.PreloadBytes
import Nvscope.System.Libc

/-!
# A program with the library in memory

The calls that decide on paths and names, with the arrays they are given and the local arrays they find.
-/

namespace Nvscope

open Lib

variable {K β : Type}

/-- The real functions; `readdir64`, or `readdir`, fills the array `d_name` of an entry. -/
structure MemoryLibc (K β : Type) where
  libc : Libc K β
  readdir : Bool → Nat → K → Option StrArray × K

/-- The same functions, as the strings in the arrays show them. -/
def MemoryLibc.strings (m : MemoryLibc K β) : Libc K β :=
  { m.libc with
    readdir := fun dirp os => ((m.readdir false dirp os).1.map (·.str), (m.readdir false dirp os).2)
    readdir64 := fun dirp os => ((m.readdir true dirp os).1.map (·.str), (m.readdir true dirp os).2) }

inductive MemoryCall (β : Type) where
  | openPath (use64 : Bool) (path : Option StrArray) (args : UInt32 × UInt32)
  | openatPath (use64 : Bool) (dirfd : Int) (path : Option StrArray) (args : UInt32 × UInt32)
  | close (fd : Int)
  | stat (path : Option StrArray) (statbuf : β)
  | newfstatat (dirfd : Int) (path : Option StrArray) (statbuf : β) (flags : UInt32)
  | opendir (use64 : Bool) (path : Option StrArray)
  | fdopendir (fd : Int)
  | readdir (use64 : Bool) (dirp : Nat)

/-- The call, as the strings in the arrays show it. -/
def MemoryCall.strings : MemoryCall β → Invocation (UInt32 × UInt32) β
  | .openPath use64 path args => .openPath use64 (path.map (·.str)) args
  | .openatPath use64 dirfd path args => .openatPath use64 dirfd (path.map (·.str)) args
  | .close fd => .close fd
  | .stat path statbuf => .stat (path.map (·.str)) statbuf
  | .newfstatat dirfd path statbuf flags => .newfstatat dirfd (path.map (·.str)) statbuf flags
  | .opendir use64 path => .opendir use64 (path.map (·.str))
  | .fdopendir fd => .fdopendir fd
  | .readdir use64 dirp => .readdir use64 dirp

def ReplyBytes.map {α γ : Type} (f : α → γ) (r : ReplyBytes K α) : ReplyBytes K γ :=
  { value := f r.value, errno := r.errno, shim := r.shim, os := r.os }

/-- The interposed function of that name, as `Libc.interposed`; the inner result is `none` for a call that does not
come back. -/
def MemoryLibc.interposed (m : MemoryLibc K β) (fuel : Nat) (sh : ShimBytes) (frame : Frame) :
    MemoryCall β → K → Option (Option (ReplyBytes K (Answer β)))
  | .openPath use64 path args, os =>
      (openCommonAt (some m.libc.openPath) (some m.libc.openPath64) use64 (path.map (·.bytes))
        (openArgs args.1 args.2) sh frame os).map fun r => some (r.map .result)
  | .openatPath use64 dirfd path args, os =>
      (openatCommonAt (some m.libc.openat) (some m.libc.openat64) use64 dirfd (path.map (·.bytes))
        (openArgs args.1 args.2) sh frame os).map fun r => some (r.map .result)
  | .close fd, os => some (some ((closeAt (some m.libc.close) fd sh os).map .result))
  | .stat path statbuf, os =>
      (statAt (some m.libc.stat) (path.map (·.bytes)) statbuf sh frame os).map
        fun r => some (r.map fun v => .status v.1 v.2)
  | .newfstatat dirfd path statbuf flags, os =>
      (newfstatatAt (some m.libc.newfstatat) dirfd (path.map (·.bytes)) statbuf flags sh frame os).map
        fun r => some (r.map fun v => .status v.1 v.2)
  | .opendir use64 path, os =>
      (opendirCommonAt (some m.libc.opendir) (some m.libc.opendir64) m.libc.dirfd use64 (path.map (·.bytes)) sh frame
        os).map fun r => some (r.map .stream)
  | .fdopendir fd, os => some (some ((fdopendirAt (some m.libc.fdopendir) fd sh os).map .stream))
  | .readdir use64 dirp, os =>
      (readdirAt (some (m.readdir use64)) m.libc.dirfd fuel dirp sh os).map
        fun r => r.map fun r => r.map fun v => .entry (v.map (·.str))

/-! ## Runs -/

structure MemoryRun (K β : Type) where
  shim : ShimBytes
  os : K
  seen : Seen β

/-- A call, with the local arrays it finds; `none` is an access outside an array. -/
def MemoryRun.step (m : MemoryLibc K β) (fuel : Nat) (s : MemoryRun K β) (e : MemoryCall β × Frame) :
    Option (MemoryRun K β) :=
  (m.interposed fuel s.shim e.2 e.1 s.os).map fun
    | none => { s with seen := s.seen ++ [none] }
    | some r => { shim := r.shim, os := r.os, seen := s.seen ++ [some (r.value, r.errno)] }

/-- The start of the library and the calls of a program. -/
def MemoryRun.whole (getenv : CStr → Option (List UInt8)) (host : Host) (locals : Locals) (found : FoundArrays)
    (m : MemoryLibc K β) (fuel : Nat) (os : K) (calls : List (MemoryCall β × Frame)) : Option (MemoryRun K β) :=
  (nvfixConstructorAt getenv host locals found).bind fun sh => calls.foldlM (MemoryRun.step m fuel) ⟨sh, os, []⟩

/-! ## The same on strings -/

/-- `nvfix_constructor`, on a host. -/
def nvfixConstructorOn (getenv : CStr → Option CStr) (host : Host) (locals : Locals) : Option Shim :=
  let config := configLoad getenv
  let explicitUuid := if config.gpuUuidSet then some config.gpuUuid else none
  (if config.procFilterEnabled then procFilterRuntimeInit host locals explicitUuid
    else some (false, AllowedGpus.empty)).map fun st => nvfixConstructor config fun _ => st

def ShimRun.whole (getenv : CStr → Option CStr) (host : Host) (locals : Locals) (libc : Libc K β) (fuel : Nat) (os : K)
    (calls : List (Invocation (UInt32 × UInt32) β)) : Option (ShimRun K β) :=
  (nvfixConstructorOn getenv host locals).map fun sh => run (ShimRun.step libc fuel) ⟨sh, os, []⟩ calls

end Nvscope
