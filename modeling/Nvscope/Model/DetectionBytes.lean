import Nvscope.Lib.Scans
import Nvscope.Model.Detection

/-!
# Detection, byte by byte (`proc_filter.c`)

The parser of the information files and what works on its results, with `char` arrays in place of strings: each
load and each store is spelled out, and `none` is one outside its array. Pointers that the code never passes as
NULL are taken as valid.
-/

namespace Nvscope

open Lib

/-- `struct nvfix_gpu_info` in memory. -/
structure GpuInfoBytes where
  present : Bool
  deviceMinor : Int32
  busId : List UInt8
  uuid : List UInt8

/-- `struct nvfix_allowed_gpus` in memory: the first `count` entries of its array. -/
structure AllowedBytes where
  valid : Bool
  gpus : List GpuInfoBytes
  count_le : gpus.length ≤ maxGpus

/-! ## Slices -/

/-- `nvfix_zero_gpu_info`. -/
def zeroGpuInfoBytes : GpuInfoBytes :=
  { present := false
    deviceMinor := -1
    busId := List.replicate procBusIdMax 0
    uuid := List.replicate procUuidMax 0 }

/-- `nvfix_trim_slice`: the start and the length it leaves. -/
def trimSliceAt (text : List UInt8) (start len : Nat) : Option (Nat × Nat) :=
  trimAt isBlank text start len

/-- `nvfix_copy_slice_exact`: the return value and the array `dst`, of `dstSize` bytes. -/
def copySliceExactInto (dst : List UInt8) (dstSize : Nat) (src : List UInt8) (off len : Nat) :
    Option (Bool × List UInt8) :=
  if dstSize = 0 || len ≥ dstSize then some (false, dst)
  else
    (memcpy dst src off len).bind fun dst =>
      (store dst len 0).map fun dst => (true, dst)

/-- `nvfix_parse_nonnegative_int`: the return value and `*value`. -/
def parseNonnegativeIntAt (src : List UInt8) (off len : Nat) (value : Int32) : Option (Bool × Int32) :=
  if len = 0 then some (false, value)
  else (parseDigitsAt intMax src off len).map fun parsed => (parsed.isSome, (parsed.map Int32.ofNat).getD value)

/-- `nvfix_value_after_key`: the slice of the value, where the line has the key. -/
def valueAfterKeyAt (text : List UInt8) (line lineLen : Nat) (key : CStr) : Option (Option (Nat × Nat)) :=
  (strlen (literal key) 0).bind fun keyLen =>
    if lineLen < keyLen then some none
    else
      (memcmp text line (literal key) 0 keyLen).bind fun same =>
        if !same then some none else (trimSliceAt text (line + keyLen) (lineLen - keyLen)).map some

/-! ## Paths -/

/-- The matcher of `procInfoBus`: the length of the bus id, which starts behind the prefix. -/
def procInfoBusAt (path : List UInt8) (busIdSize : Nat) : Option (Option Nat) :=
  (strlen path 0).bind fun pathLen =>
    if pathLen ≤ gpusPrefix.length + informationSuffix.length then some none
    else
      (strncmp path 0 (literal gpusPrefix) 0 gpusPrefix.length).bind fun starts =>
        if !starts then some none
        else
          (strcmp path (pathLen - informationSuffix.length) (literal informationSuffix) 0).bind fun ends =>
            if !ends then some none
            else
              let busLen := pathLen - informationSuffix.length - gpusPrefix.length
              if busLen = 0 || busLen ≥ busIdSize then some none
              else
                (anyAt (· == slash) path gpusPrefix.length busLen).map fun found =>
                  if found then none else some busLen

/-- `nvfix_extract_proc_bus`: the return value and the array `busId`, of `busIdSize` bytes. -/
def extractProcBusInto (path : Option (List UInt8)) (busId : List UInt8) (busIdSize : Nat) :
    Option (Bool × List UInt8) :=
  match path with
  | none => some (false, busId)
  | some path =>
      (procInfoBusAt path busIdSize).bind fun
        | none => some (false, busId)
        | some busLen => copySliceExactInto busId busIdSize path gpusPrefix.length busLen

/-! ## Information files -/

/-- A carriage return at the end of a line is not part of it. -/
def dropReturnAt (text : List UInt8) (line lineLen : Nat) : Option Nat :=
  if lineLen > 0 then
    text[line + (lineLen - 1)]?.map fun c => if c == carriageReturn then lineLen - 1 else lineLen
  else some lineLen

/-- What the loop of `nvfix_parse_gpu_information` does with a line, over `ok` and `*info`. -/
def parseGpuLineAt (text : List UInt8) (line lineLen : Nat) (st : Bool × GpuInfoBytes) :
    Option (Bool × GpuInfoBytes) :=
  let (ok, info) := st
  (dropReturnAt text line lineLen).bind fun lineLen =>
    (valueAfterKeyAt text line lineLen uuidKey).bind fun
      | some (value, valueLen) =>
          (copySliceExactInto info.uuid procUuidMax text value valueLen).map fun (copied, uuid) =>
            (ok && copied, { info with uuid := uuid })
      | none =>
          (valueAfterKeyAt text line lineLen busKey).bind fun
            | some (value, valueLen) =>
                if valueLen = 0 then some (false, info)
                else
                  (copySliceExactInto info.busId procBusIdMax text value valueLen).map fun (copied, busId) =>
                    (ok && copied, { info with busId := busId })
            | none =>
                (valueAfterKeyAt text line lineLen minorKey).bind fun
                  | some (value, valueLen) =>
                      (parseNonnegativeIntAt text value valueLen info.deviceMinor).map fun (parsed, minor) =>
                        (ok && parsed, { info with deviceMinor := minor })
                  | none => some (ok, info)

/-- The part of `nvfix_parse_gpu_information` after its loop. -/
def completeGpuInfoAt (path : Option (List UInt8)) (st : Bool × GpuInfoBytes) : Option (Bool × GpuInfoBytes) :=
  let (ok, info) := st
  (if ok then info.busId[0]?.bind fun c =>
      if c == 0 then
        (extractProcBusInto path info.busId procBusIdMax).map fun (found, busId) =>
          (found, { info with busId := busId })
      else some (ok, info)
    else some (ok, info)).bind fun (ok, info) =>
      info.busId[0]?.map fun c =>
        let present := ok && decide (0 ≤ info.deviceMinor) && c != 0
        (ok && present, { info with present := present })

/-- `nvfix_parse_gpu_information`: the return value and `*info`. -/
def parseGpuInformationAt (path text : Option (List UInt8)) : Option (Bool × GpuInfoBytes) :=
  match text with
  | none => some (false, zeroGpuInfoBytes)
  | some text =>
      (strlen text 0).bind fun len =>
        (scanLinesAt newline text len (parseGpuLineAt text) (true, zeroGpuInfoBytes)).bind (completeGpuInfoAt path)

/-! ## Files -/

/-- The loop of `nvfix_read_file_to_buffer`: `used` behind it, `none` where a read failed, and the buffer. -/
def readLoopAt (bufferSize : Nat) (failed : Bool) : List (List UInt8) → List UInt8 → Nat →
    Option (Option Nat × List UInt8)
  | [], buffer, used => some (if used + 1 < bufferSize && failed then none else some used, buffer)
  | piece :: pieces, buffer, used =>
      if used + 1 < bufferSize then
        let data := piece.take (bufferSize - used - 1)
        (storeMany buffer used data).bind fun buffer =>
          if data.length = 0 then some (some used, buffer)
          else readLoopAt bufferSize failed pieces buffer (used + data.length)
      else some (some used, buffer)

/-- `nvfix_read_file_to_buffer`: the return value and the array `buffer`, of `bufferSize` bytes. -/
def readFileToBufferAt (file : Option FileReads) (buffer : List UInt8) (bufferSize : Nat) :
    Option (Bool × List UInt8) :=
  if bufferSize = 0 then some (false, buffer)
  else
    match file with
    | none => some (false, buffer)
    | some file =>
        (readLoopAt bufferSize file.failed file.pieces buffer 0).bind fun
          | (none, buffer) => some (false, buffer)
          | (some used, buffer) => (store buffer used 0).map fun buffer => (decide (used > 0), buffer)

/-- The arrays of `nvfix_collect_gpu_infos`: `text_buffer`, `path` and the results. -/
structure Collecting where
  text : List UInt8
  path : List UInt8
  infos : Slots GpuInfoBytes maxGpus

/-- The same arrays as they are found. -/
structure FoundArrays where
  text : List.Vector UInt8 textBufferSize
  path : List.Vector UInt8 osPathMax
  infos : List.Vector GpuInfoBytes maxGpus

def FoundArrays.start (found : FoundArrays) : Collecting :=
  ⟨found.text.toList, found.path.toList, .fresh found.infos⟩

def gpuInfoEntryAt (host : Host) (name : Option CStr) (st : Collecting) : Option Collecting :=
  name.bind fun name =>
    if h : name ≠ dot ∧ name ≠ dotdot ∧ st.infos.count < maxGpus then
      (snprintf st.path osPathMax (informationPath name)).bind fun path =>
        if (informationPath name).length < osPathMax then
          (cstrAt path 0).bind fun file =>
            (readFileToBufferAt (host.file file) st.text textBufferSize).bind fun (read, text) =>
              if read then
                (parseGpuInformationAt (some path) (some text)).map fun (parsed, info) =>
                  { text := text, path := path, infos := st.infos.offer h.2.2 info parsed }
              else some { text := text, path := path, infos := st.infos }
        else some { st with path := path }
    else some st

/-- `nvfix_collect_gpu_infos`. -/
def collectGpuInfosAt (host : Host) (buffer : List UInt8) (st : Collecting) : Option Collecting :=
  match host.dir gpusDir with
  | none => some st
  | some chunks => walkDir (gpuInfoEntryAt host) chunks buffer st

/-! ## Selection and decision -/

def AllowedBytes.empty : AllowedBytes := ⟨false, [], Nat.zero_le _⟩

def AllowedBytes.push (a : AllowedBytes) (info : GpuInfoBytes) (h : a.gpus.length < maxGpus) : AllowedBytes :=
  { a with gpus := a.gpus ++ [info], count_le := List.length_append.trans_le h }

/-- The three conditions under which the selection loop does not skip an info. -/
def isSelectedAt (mountedMinors : List Int32) (explicitUuid : Option (List UInt8)) (info : GpuInfoBytes) :
    Option Bool :=
  if !info.present then some false
  else if !minorIsMounted info.deviceMinor mountedMinors then some false
  else
    match explicitUuid with
    | none => some true
    | some uuid => (uuid[0]?).bind fun c => if c != 0 then strcmp info.uuid 0 uuid 0 else some true

def buildLoopAt (mountedMinors : List Int32) (explicitUuid : Option (List UInt8)) :
    List GpuInfoBytes → AllowedBytes → Option AllowedBytes
  | [], allowed => some allowed
  | info :: infos, allowed =>
      if h : allowed.gpus.length < maxGpus then
        (isSelectedAt mountedMinors explicitUuid info).bind fun selected =>
          if selected then buildLoopAt mountedMinors explicitUuid infos (allowed.push info h)
          else buildLoopAt mountedMinors explicitUuid infos allowed
      else some allowed

/-- `nvfix_build_allowed_gpus`, as `buildAllowedGpus`. -/
def buildAllowedGpusAt (infos : List GpuInfoBytes) (mountedMinors : List Int32)
    (explicitUuid : Option (List UInt8)) : Option AllowedBytes :=
  if infos.length = 0 || mountedMinors.length = 0 then some AllowedBytes.empty
  else
    (buildLoopAt mountedMinors explicitUuid infos AllowedBytes.empty).map fun allowed =>
      { allowed with valid := 0 < allowed.gpus.length }

/-- `nvfix_proc_filter_runtime_init`, over the local arrays as they are found. -/
def procFilterRuntimeInitAt (host : Host) (locals : Locals) (found : FoundArrays)
    (explicitUuid : Option (List UInt8)) : Option (Bool × AllowedBytes) :=
  (collectMountedMinors host locals.devBuffer (.fresh locals.mountedMinors)).bind fun minors =>
    (collectGpuInfosAt host locals.dirBuffer found.start).bind fun st =>
      (buildAllowedGpusAt st.infos.items minors.items explicitUuid).map fun allowed => (allowed.valid, allowed)

/-- The loop of `nvfix_allowed_contains_bus`. -/
def containsBusLoop (busId : List UInt8) : List GpuInfoBytes → Option Bool
  | [] => some false
  | gpu :: gpus => (strcmp gpu.busId 0 busId 0).bind fun same => if same then some true else containsBusLoop busId gpus

/-- `nvfix_allowed_contains_bus`. -/
def allowedContainsBusAt (allowed : AllowedBytes) (busId : List UInt8) : Option Bool :=
  if !allowed.valid then some false
  else (busId[0]?).bind fun c => if c == 0 then some false else containsBusLoop busId allowed.gpus

/-- `nvfix_proc_path_allowed`; `busId` is its local array. -/
def procPathAllowedAt (allowed : Option AllowedBytes) (path : Option (List UInt8))
    (busId : List.Vector UInt8 procBusIdMax) : Option ProcDecision :=
  match path with
  | none => some .ignore
  | some path =>
      (strcmp path 0 (literal gpusDir) 0).bind fun same =>
        if same then some .allow
        else
          (extractProcBusInto (some path) busId.toList procBusIdMax).bind fun (found, busId) =>
            if !found then some .ignore
            else
              match allowed with
              | none => some .allow
              | some allowed =>
                  if !allowed.valid then some .allow
                  else
                    (allowedContainsBusAt allowed busId).map fun shown => if shown then .allow else .deny

end Nvscope
