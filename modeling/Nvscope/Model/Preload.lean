import Nvscope.Model.IoctlFilter

/-!
# The interposed calls (`preload.c`)

The state of the operating system and of libc is a type parameter `K`. A real function, where `dlsym` finds
it, takes the arguments the shim hands to it and the state `K`. Log output is left out here.
-/

namespace Nvscope

open Lib

inductive Errno where
  | enoent
  | enosys
  deriving DecidableEq, Repr

/-- The static state of the library: `g_nvfix_config`, `g_allowed_gpus`, `g_proc_filter_ready`, `g_fd_map`
and the learned gpu ids. -/
structure Shim where
  config : Config
  allowed : AllowedGpus
  procFilterReady : Bool
  fdMap : FdMap
  learned : LearnedIds

/-- What an interposed call leaves: its value, the `errno` it set itself, and the two states. -/
structure Reply (K α : Type) where
  value : α
  errno : Option Errno
  shim : Shim
  os : K

/-! ## Decisions -/

def pathIsAbsolute (path : Option CStr) : Bool :=
  match path with
  | none => false
  | some path => path.head? == some slash

def pathIsRelative (path : Option CStr) : Bool :=
  match path with
  | none => false
  | some path => path.head? != some slash

def procDenied (sh : Shim) (path : Option CStr) : Bool :=
  sh.procFilterReady && pathIsAbsolute path && procPathAllowed (some sh.allowed) path == .deny

/-- `nvfix_fd_map_set`, as the library's state sees it. -/
def Shim.track (sh : Shim) (fd : Int) (record : FdRecord) : Shim :=
  { sh with fdMap := fdMapSet sh.fdMap fd record }

/-- `nvfix_fd_map_remove`, likewise. -/
def Shim.untrack (sh : Shim) (fd : Int) : Shim :=
  { sh with fdMap := fdMapRemove sh.fdMap fd }

/-- `nvfix_fd_map_get(fd, &record) && record.kind == kind`. -/
def Shim.trackedAs (sh : Shim) (fd : Int) (kind : FdKind) : Bool :=
  (fdMapGet sh.fdMap fd).any (·.kind == kind)

def traceAndTrackOpen (path : Option CStr) (fd : Int) (sh : Shim) : Shim :=
  let (ok, record) := classifyPath path
  if !ok then sh
  else if fd ≥ 0 then sh.track fd record
  else sh

/-- The loop of `nvfix_normalize_relative_path`: `rest` is the path from `read_offset` on, `out` the
`write_offset` bytes written. -/
def normalizeLoop (bufferLen : Nat) : Nat → CStr → CStr → Option CStr
  | 0, _, _ => none
  | fuel + 1, rest, out =>
      let rest := rest.dropWhile (· == slash)
      if rest = [] then
        if out.length = 0 || out.length ≥ bufferLen then none else some out
      else
        let segment := rest.takeWhile (· != slash)
        let rest := rest.drop segment.length
        if segment = dotdot then none
        else if segment = dot then normalizeLoop bufferLen fuel rest out
        else if out.length ≠ 0 ∧ out.length + 1 ≥ bufferLen then none
        else
          let out := if out.length ≠ 0 then out ++ [slash] else out
          if out.length + segment.length ≥ bufferLen then none
          else normalizeLoop bufferLen fuel rest (out ++ segment)

/-- `nvfix_normalize_relative_path`: the string it writes, where it succeeds. -/
def normalizeRelativePath (path : Option CStr) (bufferLen : Nat) : Option CStr :=
  match path with
  | none => none
  | some path =>
      if bufferLen = 0 || path.head? == some slash then none
      else normalizeLoop bufferLen (path.length + 1) path []

def effectiveOpenatPath (sh : Shim) (dirfd : Int) (path : Option CStr) (bufferLen : Nat) : Option CStr :=
  if !pathIsRelative path || bufferLen = 0 || !sh.trackedAs dirfd .procGpusDir then path
  else
    match normalizeRelativePath path pathMax with
    | none => path
    | some normalized =>
        let written := gpusPrefix ++ normalized
        if written.length ≥ bufferLen then path else some written

def readdirEntryAllowed (sh : Shim) (dirfd : Int) (name : Option CStr) : Bool :=
  if !sh.procFilterReady || name = none || !sh.trackedAs dirfd .procGpusDir || name = some dot ||
      name = some dotdot then true
  else allowedContainsBus (some sh.allowed) name

/-! ## open, openat, close -/

/-- The flags of an open and, where they call for one, the mode. -/
structure OpenArgs where
  flags : UInt32
  mode : Option UInt32
  deriving DecidableEq, Repr

def oCreat : UInt32 := 0x40

def oTmpfile : UInt32 := 0x410000

def atFdcwd : Int := -100

def hasModeArg (flags : UInt32) : Bool :=
  flags &&& oCreat != 0 || flags &&& oTmpfile == oTmpfile

def openArgs (flags mode : UInt32) : OpenArgs :=
  ⟨flags, if hasModeArg flags then some mode else none⟩

section

variable {K : Type}

abbrev RealOpen (K : Type) := Option CStr → OpenArgs → K → Int × K

abbrev RealOpenat (K : Type) := Int → Option CStr → OpenArgs → K → Int × K

def openCommon (realOpen realOpen64 : Option (RealOpen K)) (useOpen64 : Bool) (path : Option CStr)
    (args : OpenArgs) (sh : Shim) (os : K) : Reply K Int :=
  let (ok, record) := classifyPath path
  if procDenied sh path then ⟨-1, some .enoent, sh, os⟩
  else
    match (if useOpen64 then realOpen64.or realOpen else realOpen) with
    | none => ⟨-1, some .enosys, sh, os⟩
    | some real =>
        let (fd, os) := real path args os
        ⟨fd, none, if ok && decide (fd ≥ 0) then sh.track fd record else sh, os⟩

def openatCommon (realOpenat realOpenat64 : Option (RealOpenat K)) (useOpen64 : Bool) (dirfd : Int)
    (path : Option CStr) (args : OpenArgs) (sh : Shim) (os : K) : Reply K Int :=
  let effectivePath := effectiveOpenatPath sh dirfd path pathMax
  if procDenied sh effectivePath then ⟨-1, some .enoent, sh, os⟩
  else
    match (if useOpen64 then realOpenat64.or realOpenat else realOpenat) with
    | none => ⟨-1, some .enosys, sh, os⟩
    | some real =>
        let (fd, os) := real dirfd path args os
        ⟨fd, none, if pathIsAbsolute effectivePath || dirfd = atFdcwd then
          traceAndTrackOpen effectivePath fd sh else sh, os⟩

def close (realClose : Option (Int → K → Int × K)) (fd : Int) (sh : Shim) (os : K) : Reply K Int :=
  match realClose with
  | none => ⟨-1, some .enosys, sh, os⟩
  | some real =>
      let (result, os) := real fd os
      ⟨result, none, if result = 0 then sh.untrack fd else sh, os⟩

/-! ## stat -/

variable {β : Type}

def stat (realStat : Option (Option CStr → β → K → (Int × β) × K)) (path : Option CStr) (statbuf : β)
    (sh : Shim) (os : K) : Reply K (Int × β) :=
  if procDenied sh path then ⟨(-1, statbuf), some .enoent, sh, os⟩
  else
    match realStat with
    | none => ⟨(-1, statbuf), some .enosys, sh, os⟩
    | some real =>
        let (value, os) := real path statbuf os
        ⟨value, none, sh, os⟩

def newfstatat (realNewfstatat : Option (Int → Option CStr → β → UInt32 → K → (Int × β) × K)) (dirfd : Int)
    (path : Option CStr) (statbuf : β) (flags : UInt32) (sh : Shim) (os : K) : Reply K (Int × β) :=
  if procDenied sh (effectiveOpenatPath sh dirfd path pathMax) then ⟨(-1, statbuf), some .enoent, sh, os⟩
  else
    match realNewfstatat with
    | none => ⟨(-1, statbuf), some .enosys, sh, os⟩
    | some real =>
        let (value, os) := real dirfd path statbuf flags os
        ⟨value, none, sh, os⟩

/-! ## Directory streams: a `DIR *` is a number, an entry is its name -/

abbrev RealOpendir (K : Type) := Option CStr → K → Option Nat × K

abbrev RealReaddir (K : Type) := Nat → K → Option CStr × K

def opendirCommon (realOpendir realOpendir64 : Option (RealOpendir K)) (dirfd : Nat → K → Int)
    (useOpendir64 : Bool) (path : Option CStr) (sh : Shim) (os : K) : Reply K (Option Nat) :=
  if procDenied sh path then ⟨none, some .enoent, sh, os⟩
  else
    match (if useOpendir64 then realOpendir64.or realOpendir else realOpendir) with
    | none => ⟨none, some .enosys, sh, os⟩
    | some real =>
        match real path os with
        | (none, os) => ⟨none, none, sh, os⟩
        | (some dir, os) => ⟨some dir, none, traceAndTrackOpen path (dirfd dir os) sh, os⟩

def fdopendir (realFdopendir : Option (Int → K → Option Nat × K)) (fd : Int) (sh : Shim) (os : K) :
    Reply K (Option Nat) :=
  match realFdopendir with
  | none => ⟨none, some .enosys, sh, os⟩
  | some real =>
      let (dir, os) := real fd os
      ⟨dir, none, sh, os⟩

/-- The loop of `readdir` and `readdir64`: entries are read on while the current one is not allowed;
`none` when `fuel` further entries do not suffice. -/
def readdirLoop (real : RealReaddir K) (dirp : Nat) (fd : Int) (sh : Shim) :
    Nat → CStr → K → Option (Option CStr × K)
  | 0, entry, os => if readdirEntryAllowed sh fd (some entry) then some (some entry, os) else none
  | fuel + 1, entry, os =>
      if readdirEntryAllowed sh fd (some entry) then some (some entry, os)
      else
        match real dirp os with
        | (none, os) => some (none, os)
        | (some entry, os) => readdirLoop real dirp fd sh fuel entry os

/-- `readdir`, and `readdir64` with the other real function. -/
def readdir (realReaddir : Option (RealReaddir K)) (dirfd : Nat → K → Int) (fuel : Nat) (dirp : Nat)
    (sh : Shim) (os : K) : Option (Reply K (Option CStr)) :=
  match realReaddir with
  | none => some ⟨none, some .enosys, sh, os⟩
  | some real =>
      match real dirp os with
      | (none, os) => some ⟨none, none, sh, os⟩
      | (some entry, os) =>
          (readdirLoop real dirp (dirfd dirp os) sh fuel entry os).map fun (value, os) =>
            ⟨value, none, sh, os⟩

/-! ## System calls made directly -/

/-- `getdents64`: the return value and the contents of the caller's buffer; the kernel is asked through
`syscall`. -/
def getdents64 (syscall : Int → Nat → K → (Int × List UInt8) × K) (fd : Int) (count : Nat) (sh : Shim)
    (os : K) : Option (Reply K (Int × List UInt8)) :=
  let ((result, buffer), os) := syscall fd count os
  if result > 0 && sh.procFilterReady && sh.trackedAs fd .procGpusDir then
    (filterDirent64Buffer buffer result (some sh.allowed)).map fun (buffer, result) =>
      ⟨(result, buffer), none, sh, os⟩
  else some ⟨(result, buffer), none, sh, os⟩

/-- `ioctl`. The paths of the other calls and `arg` are NULL or point to memory that can be read: on a control
descriptor `nvfix_ioctl_trace` reads the structure at `arg` also with the trace off and after a call that failed. -/
def ioctl (syscall : Int → UInt64 → Option IoctlArg → K → (Int × Option IoctlArg) × K) (fd : Int)
    (request : UInt64) (arg : Option IoctlArg) (sh : Shim) (os : K) : Reply K (Int × Option IoctlArg) :=
  let ((result, arg), os) := syscall fd request arg os
  if sh.trackedAs fd .nvidiaCtl then
    let (learned, arg) := ioctlFilterAfter (some sh.config)
      (if sh.procFilterReady then some sh.allowed else none) request arg result sh.learned
    ⟨(result, arg), none, { sh with learned := learned }, os⟩
  else ⟨(result, arg), none, sh, os⟩

end

/-! ## Start of the library -/

/-- `nvfix_constructor`, with `nvfix_proc_filter_runtime_init` as the function from the explicit UUID to
its return value and the structure it fills in. -/
def nvfixConstructor (config : Config) (runtimeInit : Option CStr → Bool × AllowedGpus) : Shim :=
  let explicitUuid := if config.gpuUuidSet then some config.gpuUuid else none
  let sh : Shim :=
    { config := config
      allowed := AllowedGpus.empty
      procFilterReady := false
      fdMap := fdMapClear
      learned := LearnedIds.empty }
  if config.procFilterEnabled then
    { sh with
      procFilterReady := (runtimeInit explicitUuid).1
      allowed := (runtimeInit explicitUuid).2 }
  else sh

/-- What `nvfix_proc_filter_runtime_init` computes once it has collected the GPUs of the host and the
mounted minors. -/
def selection (infos : List GpuInfo) (mountedMinors : List Int32) (explicitUuid : Option CStr) :
    Bool × AllowedGpus :=
  let allowed := buildAllowedGpus infos mountedMinors explicitUuid
  (allowed.valid, allowed)

/-! ## A host with two GPUs, a container that mounts the first, and answers of its driver -/

def hostGpus : List GpuInfo :=
  [⟨true, 0, ascii "0000:04:00.0", ascii "GPU-4"⟩, ⟨true, 1, ascii "0000:05:00.0", ascii "GPU-5"⟩]

def filterConfig : Config := { procFilterEnabled := true, ioctlFilterEnabled := true }

def container : Shim :=
  nvfixConstructor filterConfig (selection hostGpus [0])

example : container.procFilterReady = true ∧ container.allowed.gpus = hostGpus.take 1 := by
  decide

/-- A card with the given id and minor; its other fields are zero. -/
def card (valid : UInt8) (gpuId minorNumber : UInt32) : CardInfo :=
  { valid := valid, reserved0 := .replicate 3 0
    pciInfo := ⟨0, 0, 0, 0, 0, 0, 0⟩, gpuId := gpuId, interruptLine := 0, reserved1 := .replicate 2 0
    regAddress := 0, regSize := 0, fbAddress := 0, fbSize := 0, minorNumber := minorNumber
    devName := .replicate 10 0, reserved2 := .replicate 2 0 }

def cardResponse (cards : List CardInfo) : IoctlArg :=
  { mem := Layouts.cards.encode (.ofFn fun i => cards.getD i (card 0 0 0)), params := [] }

def attachedResponse (gpuIds : List UInt32) : IoctlArg :=
  { mem := Layouts.nvos54Parameters.encode ⟨0, 0, cmdGpuGetAttachedIds, 0, 4096, 128, 0⟩
    params := Layouts.attachedIds.encode (.ofFn fun i => gpuIds.getD i invalidId) }

def activeResponse (gpuIds : List UInt32) : IoctlArg :=
  { mem := Layouts.nvos54Parameters.encode ⟨0, 0, cmdGpuGetActiveDeviceIds, 0, 4096, 3076, 0⟩
    params := Layouts.activeDeviceIdsParams.encode
      ⟨UInt32.ofNat gpuIds.length, .ofFn fun i => ⟨gpuIds.getD i 0, 0, 0⟩⟩ }

end Nvscope
