import Nvscope.Lib.Memory

/-!
# Configuration from the environment (`env.c`)
-/

namespace Nvscope

open Lib

abbrev gpuUuidMax : Nat := 96

structure Config where
  traceEnabled : Bool := false
  procFilterEnabled : Bool := false
  ioctlFilterEnabled : Bool := false
  gpuUuidSet : Bool := false
  gpuUuid : CStr := []
  deriving DecidableEq, Repr

def envTruthy : Option CStr → Bool
  | none => false
  | some value =>
      value == ascii "1" || value == ascii "true" || value == ascii "TRUE" || value == ascii "yes" ||
        value == ascii "YES" || value == ascii "on" || value == ascii "ON"

/-- The value of a variable, or of its older name where the new one is not set. -/
def getenvAlias (getenv : CStr → Option CStr) (primary legacy : CStr) : Option CStr :=
  match getenv primary with
  | some value => some value
  | none => getenv legacy

def configLoad (getenv : CStr → Option CStr) : Config :=
  let procEnv := getenvAlias getenv (ascii "NVSCOPE_PROC") (ascii "NV_VIDEO_FIX_PROC")
  let gpuUuid := (getenvAlias getenv (ascii "NVSCOPE_GPU_UUID") (ascii "NV_VIDEO_FIX_GPU_UUID")).getD []
  { traceEnabled := envTruthy (getenvAlias getenv (ascii "NVSCOPE_TRACE") (ascii "NV_VIDEO_FIX_TRACE"))
    ioctlFilterEnabled :=
      envTruthy (getenvAlias getenv (ascii "NVSCOPE_IOCTL") (ascii "NV_VIDEO_FIX_IOCTL"))
    procFilterEnabled := if procEnv = none then true else envTruthy procEnv
    gpuUuidSet := gpuUuid != []
    gpuUuid := gpuUuid.take (gpuUuidMax - 1) }

end Nvscope
