import Nvscope.Model.FdMap

/-!
# Selection of the allowed GPUs and the procfs filters (`proc_filter.c`)
-/

namespace Nvscope

open Lib

def maxGpus : Nat := 32

abbrev procBusIdMax : Nat := 32

/-- `struct nvfix_gpu_info`; a `char` array is the string it holds. -/
structure GpuInfo where
  present : Bool
  deviceMinor : Int32
  busId : CStr
  uuid : CStr
  deriving DecidableEq, Repr

/-- `struct nvfix_allowed_gpus`: the first `count` entries of its array, which holds `NVFIX_MAX_GPUS`. -/
structure AllowedGpus where
  valid : Bool
  gpus : List GpuInfo
  count_le : gpus.length ≤ maxGpus
  deriving DecidableEq

inductive ProcDecision where
  | ignore
  | allow
  | deny
  deriving DecidableEq, Repr

/-! ## Selection -/

def AllowedGpus.empty : AllowedGpus := ⟨false, [], Nat.zero_le _⟩

/-- `allowed->gpus[allowed->count++] = info`, while there is room. -/
def AllowedGpus.push (a : AllowedGpus) (info : GpuInfo) (h : a.gpus.length < maxGpus) : AllowedGpus :=
  { a with gpus := a.gpus ++ [info], count_le := List.length_append.trans_le h }

def minorIsMounted (minor : Int32) (mountedMinors : List Int32) : Bool :=
  mountedMinors.any (· == minor)

/-- The three conditions under which the selection loop does not skip an info. -/
def isSelected (mountedMinors : List Int32) (explicitUuid : Option CStr) (info : GpuInfo) : Bool :=
  info.present && minorIsMounted info.deviceMinor mountedMinors &&
    match explicitUuid with
    | none => true
    | some uuid => uuid == [] || info.uuid == uuid

def buildLoop (mountedMinors : List Int32) (explicitUuid : Option CStr) :
    List GpuInfo → AllowedGpus → AllowedGpus
  | [], allowed => allowed
  | info :: infos, allowed =>
      if h : allowed.gpus.length < maxGpus then
        if isSelected mountedMinors explicitUuid info then
          buildLoop mountedMinors explicitUuid infos (allowed.push info h)
        else buildLoop mountedMinors explicitUuid infos allowed
      else allowed

/-- `nvfix_build_allowed_gpus`: the structure it fills in; the return value is its `valid`. A NULL array is
the empty list. -/
def buildAllowedGpus (infos : List GpuInfo) (mountedMinors : List Int32) (explicitUuid : Option CStr) :
    AllowedGpus :=
  if infos.length = 0 || mountedMinors.length = 0 then AllowedGpus.empty
  else
    let allowed := buildLoop mountedMinors explicitUuid infos AllowedGpus.empty
    { allowed with valid := 0 < allowed.gpus.length }

/-! ## Path decision -/

/-- `nvfix_copy_slice_exact`: the copy, where it fits with its terminator. -/
def copySliceExact (dstSize : Nat) (src : CStr) : Option CStr :=
  if dstSize = 0 || src.length ≥ dstSize then none else some src

def extractProcBus (path : Option CStr) (busIdSize : Nat) : Option CStr :=
  path.bind fun path => (procInfoBus busIdSize path).bind (copySliceExact busIdSize)

def allowedContainsBus (allowed : Option AllowedGpus) (busId : Option CStr) : Bool :=
  match allowed, busId with
  | some allowed, some busId =>
      if !allowed.valid || busId == [] then false else allowed.gpus.any (·.busId == busId)
  | _, _ => false

def procPathAllowed (allowed : Option AllowedGpus) (path : Option CStr) : ProcDecision :=
  if path = none then .ignore
  else if path = some gpusDir then .allow
  else
    match extractProcBus path procBusIdMax with
    | none => .ignore
    | some busId =>
        match allowed with
        | none => .allow
        | some allowed =>
            if !allowed.valid then .allow
            else if allowedContainsBus (some allowed) (some busId) then .allow
            else .deny

/-! ## Directory entries -/

/-- `offsetof(struct linux_dirent64, d_name)`. -/
def direntHeader : Nat := 19

def dot : CStr := ascii "."

def dotdot : CStr := ascii ".."

/-- `entry->d_reclen` of the entry at `off`. -/
def reclenAt (buffer : List UInt8) (off : Nat) : Option Nat :=
  (slice buffer (off + 16) 2).map leNat

/-- `nvfix_dirent_name_is_valid` of the entry at `off`; the name area is searched for a NUL. -/
def direntNameIsValid (buffer : List UInt8) (off remaining : Nat) : Option Bool :=
  (reclenAt buffer off).bind fun reclen =>
    if reclen < direntHeader || reclen > remaining then some false
    else (slice buffer (off + direntHeader) (reclen - direntHeader)).map fun area => decide (0 ∈ area)

def keepName (allowed : AllowedGpus) (name : CStr) : Bool :=
  name == dot || name == dotdot || allowedContainsBus (some allowed) (some name)

/-- The loop of `nvfix_filter_dirent64_buffer`: the buffer and the return value, `none` on an access
outside the buffer or when `fuel` runs out. The length by which both offsets advance is read from
`buffer + read_offset` after the move, as the source does. -/
def filterLoop (allowed : AllowedGpus) (len : Nat) :
    Nat → List UInt8 → Nat → Nat → Option (List UInt8 × Int)
  | 0, _, _, _ => none
  | fuel + 1, buffer, readOffset, writeOffset =>
      if readOffset < len then
        if len - readOffset < direntHeader then some (buffer, len)
        else
          (direntNameIsValid buffer readOffset (len - readOffset)).bind fun valid =>
            if !valid then some (buffer, len)
            else
              (cstrAt buffer (readOffset + direntHeader)).bind fun name =>
                if keepName allowed name then
                  (if writeOffset ≠ readOffset then
                    (reclenAt buffer readOffset).bind (memmove buffer writeOffset readOffset)
                  else some buffer).bind fun buffer =>
                    (reclenAt buffer readOffset).bind fun reclen =>
                      filterLoop allowed len fuel buffer (readOffset + reclen) (writeOffset + reclen)
                else
                  (reclenAt buffer readOffset).bind fun reclen =>
                    filterLoop allowed len fuel buffer (readOffset + reclen) writeOffset
      else some (buffer, writeOffset)

/-- `nvfix_filter_dirent64_buffer`: the buffer after the call and the return value. -/
def filterDirent64Buffer (buffer : List UInt8) (len : Int) (allowed : Option AllowedGpus) :
    Option (List UInt8 × Int) :=
  match allowed with
  | none => some (buffer, len)
  | some allowed =>
      if len ≤ 0 || !allowed.valid then some (buffer, len)
      else filterLoop allowed len.toNat (len.toNat + 2) buffer 0 0

end Nvscope
