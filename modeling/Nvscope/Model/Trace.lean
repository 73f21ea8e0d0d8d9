import Nvscope.Lib.Numerals
import Nvscope.Model.Detection

/-!
# The trace (`log.c`, `ioctl_trace.c` and the log calls of `preload.c` and `ioctl_filter.c`)

The functions that log, with the lines they hand to `nvfix_log_trace` and `nvfix_log_warn`. What is written to
`stderr` is taken to get there.
-/

namespace Nvscope

open Lib

/-- What `nvfix_ioctl_trace` prints behind the request; `arg` and `params` are addresses. -/
inductive IoctlDetail where
  | rmControl (cmd : UInt32) (params : UInt64) (paramsSize status : UInt32) (result : Int)
  | cardInfo (arg : UInt64) (result : Int)
  | other (arg : UInt64) (result : Int)
  deriving DecidableEq

/-- A call of `nvfix_log_trace` or `nvfix_log_warn`, by its format. -/
inductive TraceLine where
  | opened (path : CStr) (fd : Int)
  | ioctl (fd : Int) (request : UInt64) (detail : IoctlDetail)
  | filteredAttached (kept : Nat)
  | filteredActive
  | loaded (trace proc rm : Bool)
  | undetected
  deriving DecidableEq

/-! ## Texts -/

def rmControlCmdNames : List (UInt32 × CStr) :=
  [(0x201, ascii "GPU_GET_ATTACHED_IDS"), (0x202, ascii "GPU_GET_ID_INFO"), (0x203, ascii "GPU_GET_INIT_STATUS"),
    (0x204, ascii "GPU_GET_DEVICE_IDS"), (0x205, ascii "GPU_GET_ID_INFO_V2"), (0x214, ascii "GPU_GET_PROBED_IDS"),
    (0x215, ascii "GPU_ATTACH_IDS"), (0x21b, ascii "GPU_GET_PCI_INFO"), (0x274, ascii "GPU_GET_UUID_INFO"),
    (0x275, ascii "GPU_GET_UUID_FROM_GPU_ID"), (0x288, ascii "GPU_GET_ACTIVE_DEVICE_IDS")]

def rmControlCmdName (cmd : UInt32) : CStr :=
  (rmControlCmdNames.lookup cmd).getD (ascii "UNKNOWN")

/-- A flag as `%d`. -/
def flagText (flag : Bool) : CStr :=
  if flag then ascii "1" else ascii "0"

def IoctlDetail.text : IoctlDetail → CStr
  | .rmControl cmd params paramsSize status result =>
      ascii "esc=RM_CONTROL cmd=0x" ++ numeral 16 cmd.toNat ++ ascii "(" ++ rmControlCmdName cmd ++
        ascii ") params=" ++ pointerText params ++ ascii " paramsSize=" ++ numeral 10 paramsSize.toNat ++
        ascii " status=0x" ++ numeral 16 status.toNat ++ ascii " result=" ++ signedNumeral result
  | .cardInfo arg result =>
      ascii "esc=CARD_INFO entries=" ++ numeral 10 nvMaxDevices ++ ascii " arg " ++ pointerText arg ++
        ascii " result " ++ signedNumeral result
  | .other arg result => ascii "arg " ++ pointerText arg ++ ascii " result " ++ signedNumeral result

def TraceLine.text : TraceLine → CStr
  | .opened path fd => ascii "open " ++ path ++ ascii " -> fd " ++ signedNumeral fd
  | .ioctl fd request detail =>
      ascii "ioctl fd " ++ signedNumeral fd ++ ascii " request 0x" ++ numeral 16 request.toNat ++ ascii " " ++
        detail.text
  | .filteredAttached kept => ascii "filtered RM attached gpuIds to " ++ numeral 10 kept ++ ascii " allowed entries"
  | .filteredActive => ascii "filtered RM active device ids to allowed gpuIds"
  | .loaded trace proc rm =>
      ascii "loaded trace=" ++ flagText trace ++ ascii " proc=" ++ flagText proc ++ ascii " ioctl=" ++ flagText rm
  | .undetected => ascii "proc filter enabled but GPU topology detection failed"

/-- The prefix given to `nvfix_vlog`. -/
def TraceLine.prefixText : TraceLine → CStr
  | .undetected => ascii "[nvscope] warning: "
  | _ => ascii "[nvscope] "

def TraceLine.render (line : TraceLine) : CStr :=
  line.prefixText ++ line.text ++ [newline]

/-- `nvfix_vlog`: what it writes to `stderr`. -/
def vlog (cfg : Config) (line : TraceLine) : CStr :=
  if cfg.traceEnabled then line.render else []

/-! ## Functions that log -/

/-- `nvfix_ioctl_trace`; `address` is the value of `arg`. -/
def ioctlTrace (fd : Int) (request : UInt64) (arg : Option IoctlArg) (address : UInt64) (result : Int) :
    List TraceLine :=
  match requestIsRmControl request, arg with
  | true, some arg =>
      let rm := Layouts.nvos54Parameters.get arg.mem
      [.ioctl fd request (.rmControl rm.cmd rm.params rm.paramsSize rm.status.toUInt32 result)]
  | _, _ =>
      if requestIsCardInfo request then [.ioctl fd request (.cardInfo address result)]
      else [.ioctl fd request (.other address result)]

/-- `nvfix_filter_rm_control`. -/
def filterRmControlTraced (cfg : Option Config) (allowed : Option AllowedGpus) (rm : Nvos54Parameters)
    (result : Int) (learned : LearnedIds) (params : List UInt8) : List UInt8 × List TraceLine :=
  if !gpuIdArrayFilterEnabled cfg allowed result rm then (params, [])
  else if rm.cmd = cmdGpuGetAttachedIds ∧ rm.paramsSize.toNat ≥ Layouts.attachedIds.size then
    let (gpuIds, kept) := filterGpuIdArray learned (Layouts.attachedIds.get params)
    (Layouts.attachedIds.put gpuIds params, if kept > 0 then [.filteredAttached kept] else [])
  else if rm.cmd = cmdGpuGetActiveDeviceIds ∧
      rm.paramsSize.toNat ≥ Layouts.activeDeviceIdsParams.size then
    (Layouts.activeDeviceIdsParams.put
      (filterActiveDevices learned (Layouts.activeDeviceIdsParams.get params)) params, [.filteredActive])
  else (params, [])

/-- `nvfix_ioctl_filter_after`; only RM control calls are logged. -/
def ioctlFilterAfterTraced (cfg : Option Config) (allowed : Option AllowedGpus) (request : UInt64)
    (arg : Option IoctlArg) (result : Int) (learned : LearnedIds) :
    (LearnedIds × Option IoctlArg) × List TraceLine :=
  match arg with
  | none => ((learned, none), [])
  | some arg =>
      if result ≠ 0 then ((learned, some arg), [])
      else if requestIsCardInfo request then
        let cards := Layouts.cards.get arg.mem
        let learned := recordCardInfoGpuIds allowed cards.toList learned
        if (cfg.map Config.ioctlFilterEnabled).getD false then
          ((learned, some { arg with mem := filterCardInfo allowed arg.mem }), [])
        else ((learned, some arg), [])
      else if requestIsRmControl request then
        let rm := Layouts.nvos54Parameters.get arg.mem
        let (params, lines) := filterRmControlTraced cfg allowed rm result learned arg.params
        ((learned, some { arg with params := params }), lines)
      else ((learned, some arg), [])

def openDeniedPath (path : Option CStr) (record : Option FdRecord) : List TraceLine :=
  if record.any (·.kind != .other) then [.opened (path.getD []) (-1)] else []

def traceAndTrackOpenTraced (path : Option CStr) (fd : Int) (sh : Shim) : Shim × List TraceLine :=
  let (ok, record) := classifyPath path
  if !ok then (sh, [])
  else (if fd ≥ 0 then sh.track fd record else sh, [.opened (path.getD []) fd])

section

variable {K : Type}

def openCommonTraced (realOpen realOpen64 : Option (RealOpen K)) (useOpen64 : Bool) (path : Option CStr)
    (args : OpenArgs) (sh : Shim) (os : K) : Reply K Int × List TraceLine :=
  let (ok, record) := classifyPath path
  if procDenied sh path then (⟨-1, some .enoent, sh, os⟩, openDeniedPath path (if ok then some record else none))
  else
    match (if useOpen64 then realOpen64.or realOpen else realOpen) with
    | none => (⟨-1, some .enosys, sh, os⟩, [])
    | some real =>
        let (fd, os) := real path args os
        (⟨fd, none, if ok && decide (fd ≥ 0) then sh.track fd record else sh, os⟩,
          if ok then [.opened (path.getD []) fd] else [])

def openatCommonTraced (realOpenat realOpenat64 : Option (RealOpenat K)) (useOpen64 : Bool) (dirfd : Int)
    (path : Option CStr) (args : OpenArgs) (sh : Shim) (os : K) : Reply K Int × List TraceLine :=
  let effectivePath := effectiveOpenatPath sh dirfd path pathMax
  if procDenied sh effectivePath then
    let (ok, record) := classifyPath effectivePath
    (⟨-1, some .enoent, sh, os⟩, openDeniedPath effectivePath (if ok then some record else none))
  else
    match (if useOpen64 then realOpenat64.or realOpenat else realOpenat) with
    | none => (⟨-1, some .enosys, sh, os⟩, [])
    | some real =>
        let (fd, os) := real dirfd path args os
        let (sh, lines) := if pathIsAbsolute effectivePath || dirfd = atFdcwd then
          traceAndTrackOpenTraced effectivePath fd sh else (sh, [])
        (⟨fd, none, sh, os⟩, lines)

def opendirCommonTraced (realOpendir realOpendir64 : Option (RealOpendir K)) (dirfd : Nat → K → Int)
    (useOpendir64 : Bool) (path : Option CStr) (sh : Shim) (os : K) : Reply K (Option Nat) × List TraceLine :=
  if procDenied sh path then (⟨none, some .enoent, sh, os⟩, [])
  else
    match (if useOpendir64 then realOpendir64.or realOpendir else realOpendir) with
    | none => (⟨none, some .enosys, sh, os⟩, [])
    | some real =>
        match real path os with
        | (none, os) => (⟨none, none, sh, os⟩, [])
        | (some dir, os) =>
            let (sh, lines) := traceAndTrackOpenTraced path (dirfd dir os) sh
            (⟨some dir, none, sh, os⟩, lines)

def ioctlTraced (syscall : Int → UInt64 → Option IoctlArg → K → (Int × Option IoctlArg) × K) (fd : Int)
    (request : UInt64) (arg : Option IoctlArg) (address : UInt64) (sh : Shim) (os : K) :
    Reply K (Int × Option IoctlArg) × List TraceLine :=
  let ((result, arg), os) := syscall fd request arg os
  if sh.trackedAs fd .nvidiaCtl then
    let lines := ioctlTrace fd request arg address result
    let ((learned, arg), filterLines) := ioctlFilterAfterTraced (some sh.config)
      (if sh.procFilterReady then some sh.allowed else none) request arg result sh.learned
    (⟨(result, arg), none, { sh with learned := learned }, os⟩, lines ++ filterLines)
  else (⟨(result, arg), none, sh, os⟩, [])

end

def nvfixConstructorTraced (config : Config) (runtimeInit : Option CStr → Bool × AllowedGpus) :
    Shim × List TraceLine :=
  let explicitUuid := if config.gpuUuidSet then some config.gpuUuid else none
  let sh : Shim :=
    { config := config
      allowed := AllowedGpus.empty
      procFilterReady := false
      fdMap := fdMapClear
      learned := LearnedIds.empty }
  let (sh, lines) :=
    if config.procFilterEnabled then
      ({ sh with
          procFilterReady := (runtimeInit explicitUuid).1
          allowed := (runtimeInit explicitUuid).2 },
        if !(runtimeInit explicitUuid).1 then [TraceLine.undetected] else [])
    else (sh, [])
  (sh, lines ++ [.loaded config.traceEnabled config.procFilterEnabled config.ioctlFilterEnabled])

end Nvscope
