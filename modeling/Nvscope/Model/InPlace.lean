import Nvscope.Lib.Compaction
import Nvscope.Model.Detection

/-!
# Loads, stores and arithmetic, one by one

The functions that fill arrays in place or compute in `int`, with each access to an array and each operation
spelled out. The result is `none` where one of them is undefined: an index outside its array, an overflow.
Local arrays hold what they happen to hold.
-/

namespace Nvscope

open Lib

/-! ## RM responses (`ioctl_filter.c`) -/

/-- The learned ids in `g_allowed_gpu_ids`, of which the first `g_allowed_gpu_id_count` are in use. -/
abbrev IdTable := Slots UInt32 maxGpus

def IdTable.learned (table : IdTable) : LearnedIds :=
  ⟨table.items, table.length_items.trans_le table.count_le⟩

def idRound (table : IdTable) (gpuId : UInt32) (i : Nat) : Option (Round Nat Bool) :=
  if i < table.count then
    table.array.toList[i]?.map fun id => if id == gpuId then .done true else .next (i + 1)
  else some (.done false)

/-- `nvfix_gpu_id_is_allowed_locked`. -/
def gpuIdIsAllowedAt (table : IdTable) (gpuId : UInt32) : Option Bool :=
  loop (idRound table gpuId) (table.count + 1) 0

/-- `nvfix_filter_gpu_id_array`: the array after the call and the return value. -/
def filterGpuIdArrayAt (table : IdTable) (scratch : List.Vector UInt32 maxGpus) (gpuIds : List UInt32)
    (count : Nat) : Option (List UInt32 × Nat) :=
  if count = 0 then some (gpuIds, 0)
  else if table.count = 0 then some (gpuIds, 0)
  else
    (loop (keepRound (· == invalidId) (gpuIdIsAllowedAt table) (fun used => decide (used < maxGpus)) gpuIds
      count) (count + 1) (0, scratch.toList, 0)).bind fun (kept, keptCount) =>
        if keptCount = 0 then some (gpuIds, 0)
        else
          (loop (fillRound invalidId kept keptCount count) (count + 1) (0, gpuIds)).map fun gpuIds =>
            (gpuIds, keptCount)

/-- `nvfix_filter_active_devices`: the count and the array of the structure after the call. -/
def filterActiveDevicesAt (table : IdTable) (scratch : List.Vector ActiveDevice maxActiveDevices)
    (numDevices : UInt32) (devices : List ActiveDevice) : Option (UInt32 × List ActiveDevice) :=
  if table.count = 0 then some (numDevices, devices)
  else
    let count := if numDevices.toNat > maxActiveDevices then maxActiveDevices else numDevices.toNat
    (loop (keepRound (fun _ => false) (fun device => gpuIdIsAllowedAt table device.gpuId) (fun _ => true) devices
      count) (count + 1) (0, scratch.toList, 0)).bind fun (kept, keptCount) =>
        if keptCount = 0 then some (numDevices, devices)
        else
          (loadFront kept keptCount).bind fun kept =>
            (storeMany devices 0 kept).map fun devices => (UInt32.ofNat keptCount, devices)

/-! ## Minors (`proc_filter.c`, `fd_map.c`) -/

/-- What the digit loops leave in `*minor`, and whether they succeed. -/
def storeDigits (value : Int32) (ds : CStr) : Option (Bool × Int32) :=
  (parseDigitsIn intMax 0 ds).map fun parsed => (parsed.isSome, (parsed.map Int32.ofNat).getD value)

def decimalAfterInto (pre name : CStr) (minor : Int32) : Option (Bool × Int32) :=
  if !pre.isPrefixOf name then some (false, minor)
  else
    match name.drop pre.length with
    | [] => some (false, minor)
    | c :: cs => if !isDigit c then some (false, minor) else storeDigits minor (c :: cs)

/-- `nvfix_name_is_nvidia_minor`. -/
def nameIsNvidiaMinorInto (name : CStr) (minor : Int32) : Option (Bool × Int32) :=
  decimalAfterInto (ascii "nvidia") name minor

/-- `nvfix_parse_nvidia_minor`. -/
def parseNvidiaMinorInto (path : CStr) (minor : Int32) : Option (Bool × Int32) :=
  decimalAfterInto (ascii "/dev/nvidia") path minor

/-- `nvfix_parse_nonnegative_int`. -/
def parseNonnegativeIntInto (src : CStr) (value : Int32) : Option (Bool × Int32) :=
  if src.length = 0 then some (false, value) else storeDigits value src

/-! ## Relative paths (`preload.c`) -/

/-- The loop of `nvfix_normalize_relative_path`: `rest` is the path from `read_offset` on. -/
def normalizeStores (bufferLen : Nat) : Nat → CStr → List UInt8 → Nat → Option (Bool × List UInt8)
  | 0, _, _, _ => none
  | fuel + 1, rest, buffer, writeOffset =>
      let rest := rest.dropWhile (· == slash)
      if rest = [] then
        if writeOffset = 0 || writeOffset ≥ bufferLen then some (false, buffer)
        else (store buffer writeOffset 0).map fun buffer => (true, buffer)
      else
        let segment := rest.takeWhile (· != slash)
        let rest := rest.drop segment.length
        if segment = dotdot then some (false, buffer)
        else if segment = dot then normalizeStores bufferLen fuel rest buffer writeOffset
        else if writeOffset ≠ 0 ∧ writeOffset + 1 ≥ bufferLen then some (false, buffer)
        else
          (if writeOffset ≠ 0 then (store buffer writeOffset slash).map fun buffer => (buffer, writeOffset + 1)
            else some (buffer, writeOffset)).bind fun (buffer, writeOffset) =>
              if writeOffset + segment.length ≥ bufferLen then some (false, buffer)
              else
                (storeMany buffer writeOffset segment).bind fun buffer =>
                  normalizeStores bufferLen fuel rest buffer (writeOffset + segment.length)

/-- `nvfix_normalize_relative_path`: the return value and the buffer after the call. -/
def normalizeRelativePathInto (path : Option CStr) (buffer : List UInt8) : Option (Bool × List UInt8) :=
  match path with
  | none => some (false, buffer)
  | some path =>
      if buffer.length = 0 || path.head? == some slash then some (false, buffer)
      else normalizeStores buffer.length (path.length + 1) path buffer 0

end Nvscope
