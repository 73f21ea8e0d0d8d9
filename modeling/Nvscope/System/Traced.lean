import Nvscope.Model.Trace
import Nvscope.System.Libc

/-!
# A program with the shim in front of libc, and its trace on `stderr`
-/

namespace Nvscope

open Lib

variable {K β : Type}

/-- A call, and the address of its argument where it is an `ioctl`; 0 is NULL. -/
structure TracedCall (β : Type) where
  call : Invocation (UInt32 × UInt32) β
  address : UInt64

/-- `Libc.interposed`, with the lines it logs. -/
def Libc.interposedTraced (libc : Libc K β) (fuel : Nat) (sh : Shim) (c : TracedCall β) (os : K) :
    Option (Reply K (Answer β)) × List TraceLine :=
  match c.call with
  | .openPath use64 path args =>
      let (r, lines) := openCommonTraced (some libc.openPath) (some libc.openPath64) use64 path
        (openArgs args.1 args.2) sh os
      (some (r.map .result), lines)
  | .openatPath use64 dirfd path args =>
      let (r, lines) := openatCommonTraced (some libc.openat) (some libc.openat64) use64 dirfd path
        (openArgs args.1 args.2) sh os
      (some (r.map .result), lines)
  | .opendir use64 path =>
      let (r, lines) := opendirCommonTraced (some libc.opendir) (some libc.opendir64) libc.dirfd use64 path sh os
      (some (r.map .stream), lines)
  | .ioctl fd request arg =>
      let (r, lines) := ioctlTraced libc.ioctl fd request arg c.address sh os
      (some (r.map fun v => .control v.1 v.2), lines)
  | call => (libc.interposed fuel sh call os, [])

structure TracedRun (K β : Type) where
  shim : Shim
  os : K
  seen : Seen β
  stderr : CStr

/-- The library is loaded. -/
def TracedRun.start (config : Config) (runtimeInit : Option CStr → Bool × AllowedGpus) (os : K) : TracedRun K β :=
  let (sh, lines) := nvfixConstructorTraced config runtimeInit
  { shim := sh, os := os, seen := [], stderr := lines.flatMap (vlog config) }

def TracedRun.step (libc : Libc K β) (fuel : Nat) (s : TracedRun K β) (c : TracedCall β) : TracedRun K β :=
  let (r, lines) := libc.interposedTraced fuel s.shim c s.os
  let stderr := s.stderr ++ lines.flatMap (vlog s.shim.config)
  match r with
  | none => { s with seen := s.seen ++ [none], stderr := stderr }
  | some r => { shim := r.shim, os := r.os, seen := s.seen ++ [some (r.value, r.errno)], stderr := stderr }

end Nvscope
