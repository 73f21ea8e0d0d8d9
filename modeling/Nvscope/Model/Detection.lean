import Nvscope.Lib.Lines
import Nvscope.Lib.Loops
import Nvscope.Lib.Slots
import Nvscope.Model.Preload

/-!
# Detection of the GPUs (`proc_filter.c`)

At the start of the library the information files of the host's GPUs are parsed and the minors in `/dev` are
collected. What the kernel answers to the system calls, and what the local arrays hold before they are
written, are arguments.
-/

namespace Nvscope

open Lib

abbrev procUuidMax : Nat := 96

abbrev newline : UInt8 := 10

abbrev carriageReturn : UInt8 := 13

/-! ## Information files -/

def nameIsNvidiaMinor (name : CStr) : Option Int32 :=
  decimalAfter (ascii "nvidia") name

def zeroGpuInfo : GpuInfo :=
  { present := false, deviceMinor := -1, busId := [], uuid := [] }

/-- A space, a tab or the end of a line. -/
def isBlank (c : UInt8) : Bool :=
  c == 32 || c == 9 || c == carriageReturn || c == newline

def trimSlice (slice : CStr) : CStr :=
  trim isBlank slice

def parseNonnegativeInt (src : CStr) : Option Int32 :=
  if src.length = 0 then none else (parseDigits intMax 0 src).map Int32.ofNat

def valueAfterKey (line key : CStr) : Option CStr :=
  if line.length < key.length || line.take key.length != key then none
  else some (trimSlice (line.drop key.length))

def uuidKey : CStr := ascii "GPU UUID:"

def busKey : CStr := ascii "Bus Location:"

def minorKey : CStr := ascii "Device Minor:"

/-- One carriage return at the end of a line is not part of it. -/
def dropReturn (line : CStr) : CStr :=
  if line.getLast? = some carriageReturn then line.dropLast else line

/-- The body of the loop of `nvfix_parse_gpu_information`, over `ok` and `*info`. -/
def parseGpuLine (st : Bool × GpuInfo) (line : CStr) : Bool × GpuInfo :=
  let (ok, info) := st
  let line := dropReturn line
  match valueAfterKey line uuidKey with
  | some value =>
      match copySliceExact procUuidMax value with
      | some uuid => (ok, { info with uuid := uuid })
      | none => (false, info)
  | none =>
      match valueAfterKey line busKey with
      | some value =>
          match (if value.length = 0 then none else copySliceExact procBusIdMax value) with
          | some busId => (ok, { info with busId := busId })
          | none => (false, info)
      | none =>
          match valueAfterKey line minorKey with
          | some value =>
              match parseNonnegativeInt value with
              | some minor => (ok, { info with deviceMinor := minor })
              | none => (false, info)
          | none => (ok, info)

/-- The part of `nvfix_parse_gpu_information` after its loop. -/
def completeGpuInfo (path : Option CStr) (st : Bool × GpuInfo) : Bool × GpuInfo :=
  let (ok, info) :=
    if st.1 && st.2.busId == [] then
      match extractProcBus path procBusIdMax with
      | some busId => (st.1, { st.2 with busId := busId })
      | none => (false, st.2)
    else st
  let present := ok && decide (0 ≤ info.deviceMinor) && info.busId != []
  (ok && present, { info with present := present })

/-- `nvfix_parse_gpu_information`: the return value and the structure it fills in. The two loops, over the
lines and over the bytes of a line, are one scan. -/
def parseGpuInformation (path text : Option CStr) : Bool × GpuInfo :=
  match text with
  | none => (false, zeroGpuInfo)
  | some text => completeGpuInfo path (scanLines newline parseGpuLine text [] (true, zeroGpuInfo))

/-! ## What the kernel answers -/

/-- An open file: what successive reads give as long as they ask for enough, and whether the read after them
fails instead of giving nothing. -/
structure FileReads where
  pieces : List (List UInt8)
  failed : Bool

/-- A directory is what successive calls of `getdents64` write to the buffer; `none` cannot be opened. -/
structure Host where
  dir : CStr → Option (List (List UInt8))
  file : CStr → Option FileReads

/-- The local arrays as they are found. -/
structure Locals where
  devBuffer : List UInt8
  dirBuffer : List UInt8
  mountedMinors : List.Vector Int32 maxGpus
  infos : List.Vector GpuInfo maxGpus

/-! ## Directories -/

section

variable {σ : Type} (body : Option CStr → σ → Option σ)

/-- One entry of the buffer, as the two collecting functions step through it; a record that is malformed
stops them. `body` gets the string at `d_name`, `none` where it runs out of the array. -/
def entryRound (buffer : List UInt8) (nread : Nat) (st : Nat × σ) : Option (Round (Nat × σ) (Bool × σ)) :=
  let (offset, s) := st
  if offset < nread then
    (reclenAt buffer offset).bind fun reclen =>
      if reclen = 0 || offset + reclen > nread then some (.done (true, s))
      else (body (cstrAt buffer (offset + direntHeader)) s).map fun s => .next (offset + reclen, s)
  else some (.done (false, s))

/-- The `while` loop over a buffer of `nread` bytes, and whether it returned out of the function. -/
def walkBuffer (buffer : List UInt8) (nread : Nat) (s : σ) : Option (Bool × σ) :=
  loop (entryRound body buffer nread) (nread + 1) (0, s)

/-- The `for` loop over the answers of `getdents64`. An answer overwrites the front of the buffer. -/
def walkDir : List (List UInt8) → List UInt8 → σ → Option σ
  | [], _, s => some s
  | chunk :: chunks, buffer, s =>
      if chunk.length = 0 then some s
      else
        let buffer := chunk ++ buffer.drop chunk.length
        (walkBuffer body buffer chunk.length s).bind fun (stop, s) =>
          if stop then some s else walkDir chunks buffer s

end

def mountedMinorEntry (name : Option CStr) (minors : Slots Int32 maxGpus) : Option (Slots Int32 maxGpus) :=
  if h : minors.count < maxGpus then
    name.map fun name =>
      match nameIsNvidiaMinor name with
      | some minor => minors.offer h minor true
      | none => minors
  else some minors

def collectMountedMinors (host : Host) (buffer : List UInt8) (minors : Slots Int32 maxGpus) :
    Option (Slots Int32 maxGpus) :=
  match host.dir (ascii "/dev") with
  | none => some minors
  | some chunks => walkDir mountedMinorEntry chunks buffer minors

/-! ## Files -/

/-- The loop of `nvfix_read_file_to_buffer`: the bytes read, `none` when a read fails. A read gives at most
what it asks for; when it gives that, it is the last. -/
def readLoop (bufferSize : Nat) (failed : Bool) : List (List UInt8) → List UInt8 → Option (List UInt8)
  | [], used => if used.length + 1 < bufferSize && failed then none else some used
  | piece :: pieces, used =>
      if used.length + 1 < bufferSize then
        let data := piece.take (bufferSize - used.length - 1)
        if data.length = 0 then some used else readLoop bufferSize failed pieces (used ++ data)
      else some used

/-- `nvfix_read_file_to_buffer`: the bytes in front of the terminator, where it succeeds. -/
def readFileToBuffer (file : Option FileReads) (bufferSize : Nat) : Option (List UInt8) :=
  if bufferSize = 0 then none
  else
    file.bind fun file =>
      (readLoop bufferSize file.failed file.pieces []).bind fun used =>
        if used.length > 0 then some used else none

/-- `PATH_MAX`, the size of the array for a path. -/
def osPathMax : Nat := 4096

def textBufferSize : Nat := 8192

def gpuInfoEntry (host : Host) (name : Option CStr) (infos : Slots GpuInfo maxGpus) :
    Option (Slots GpuInfo maxGpus) :=
  name.map fun name =>
    if h : name ≠ dot ∧ name ≠ dotdot ∧ infos.count < maxGpus then
      let path := informationPath name
      if path.length < osPathMax then
        match readFileToBuffer (host.file path) textBufferSize with
        | none => infos
        | some bytes =>
            let (parsed, info) := parseGpuInformation (some path) (some (bytes.takeWhile (· != 0)))
            infos.offer h.2.2 info parsed
      else infos
    else infos

def collectGpuInfos (host : Host) (buffer : List UInt8) (infos : Slots GpuInfo maxGpus) :
    Option (Slots GpuInfo maxGpus) :=
  match host.dir gpusDir with
  | none => some infos
  | some chunks => walkDir (gpuInfoEntry host) chunks buffer infos

/-- `nvfix_proc_filter_runtime_init`: the return value and the structure it fills in. -/
def procFilterRuntimeInit (host : Host) (locals : Locals) (explicitUuid : Option CStr) :
    Option (Bool × AllowedGpus) :=
  (collectMountedMinors host locals.devBuffer (.fresh locals.mountedMinors)).bind fun minors =>
    (collectGpuInfos host locals.dirBuffer (.fresh locals.infos)).map fun infos =>
      selection infos.items minors.items explicitUuid

end Nvscope
