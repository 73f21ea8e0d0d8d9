import Nvscope.Model.DetectionBytes
import Nvscope.Model.Preload

/-!
# Paths and descriptors, byte by byte (`env.c`, `fd_map.c`, `preload.c`)

What the interposed calls do with the paths and the names they are given, with `char` arrays in place of strings:
`none` is a load or a store outside an array. Local arrays hold what they happen to hold.
-/

namespace Nvscope

open Lib

/-! ## Configuration -/

/-- `struct nvfix_config` in memory. -/
structure ConfigBytes where
  traceEnabled : Bool
  procFilterEnabled : Bool
  ioctlFilterEnabled : Bool
  gpuUuidSet : Bool
  gpuUuid : List UInt8

/-- Whether `strcmp` returns 0 for one of the words, which are tried in order. -/
def equalsAny (value : List UInt8) : List CStr → Option Bool
  | [] => some false
  | word :: words =>
      (strcmp value 0 (literal word) 0).bind fun same => if same then some true else equalsAny value words

/-- `nvfix_env_truthy`. -/
def envTruthyAt (value : Option (List UInt8)) : Option Bool :=
  match value with
  | none => some false
  | some value =>
      equalsAny value [ascii "1", ascii "true", ascii "TRUE", ascii "yes", ascii "YES", ascii "on", ascii "ON"]

/-- `nvfix_config_load`. -/
def configLoadAt (getenv : CStr → Option (List UInt8)) : Option ConfigBytes :=
  (envTruthyAt (getenvAlias getenv (ascii "NVSCOPE_TRACE") (ascii "NV_VIDEO_FIX_TRACE"))).bind fun trace =>
    (envTruthyAt (getenvAlias getenv (ascii "NVSCOPE_IOCTL") (ascii "NV_VIDEO_FIX_IOCTL"))).bind fun rm =>
      let procEnv := getenvAlias getenv (ascii "NVSCOPE_PROC") (ascii "NV_VIDEO_FIX_PROC")
      (if procEnv = none then some true else envTruthyAt procEnv).bind fun proc =>
        let cfg : ConfigBytes :=
          { traceEnabled := trace
            procFilterEnabled := proc
            ioctlFilterEnabled := rm
            gpuUuidSet := false
            gpuUuid := List.replicate gpuUuidMax 0 }
        match getenvAlias getenv (ascii "NVSCOPE_GPU_UUID") (ascii "NV_VIDEO_FIX_GPU_UUID") with
        | none => some cfg
        | some uuid =>
            (uuid[0]?).bind fun c =>
              if c != 0 then
                (copyBounded cfg.gpuUuid gpuUuidMax uuid 0).map fun text =>
                  { cfg with gpuUuidSet := true, gpuUuid := text }
              else some cfg

/-! ## Classification -/

/-- `struct nvfix_fd_record` in memory. -/
structure RecordBytes where
  kind : FdKind
  deviceMinor : Int32
  path : List UInt8
  busId : List UInt8

/-- `nvfix_copy_string`: the array `dst`, of `dstSize` bytes. -/
def copyStringInto (dst : List UInt8) (dstSize : Nat) (src : Option (List UInt8)) : Option (List UInt8) :=
  if dstSize = 0 then some dst
  else
    match src with
    | none => store dst 0 0
    | some src => copyBounded dst dstSize src 0

/-- `nvfix_copy_slice`, likewise. -/
def copySliceInto (dst : List UInt8) (dstSize : Nat) (src : List UInt8) (off len : Nat) : Option (List UInt8) :=
  if dstSize = 0 then some dst
  else
    let copyLen := if len ≥ dstSize then dstSize - 1 else len
    (memcpy dst src off copyLen).bind fun dst => store dst copyLen 0

/-- `nvfix_parse_nvidia_minor`: the minor, where it succeeds. -/
def parseNvidiaMinorAt (path : List UInt8) : Option (Option Int32) :=
  let pre := ascii "/dev/nvidia"
  (strncmp path 0 (literal pre) 0 pre.length).bind fun starts =>
    if !starts then some none
    else
      path[pre.length]?.bind fun c =>
        if !isDigit c then some none
        else (parseDigitsCStr intMax path pre.length).map fun parsed => parsed.map Int32.ofNat

def classifyProcGpuPathAt (path : List UInt8) (record : RecordBytes) : Option (Bool × RecordBytes) :=
  (procInfoBusAt path busIdMax).bind fun
    | none => some (false, record)
    | some busLen =>
        (copySliceInto record.busId busIdMax path gpusPrefix.length busLen).map fun busId =>
          (true, { record with kind := .procGpuInfo, busId := busId })

/-- `nvfix_classify_path`: the return value and the record it fills in. -/
def classifyPathAt (path : Option (List UInt8)) : Option (Bool × RecordBytes) :=
  (copyStringInto (List.replicate pathMax 0) pathMax path).bind fun text =>
    let record : RecordBytes :=
      { kind := .other, deviceMinor := -1, path := text, busId := List.replicate busIdMax 0 }
    match path with
    | none => some (false, record)
    | some path =>
        (strcmp path 0 (literal (ascii "/dev/nvidiactl")) 0).bind fun ctl =>
          if ctl then some (true, { record with kind := .nvidiaCtl })
          else
            (strcmp path 0 (literal (ascii "/dev/nvidia-uvm")) 0).bind fun uvm =>
              if uvm then some (true, { record with kind := .nvidiaUvm })
              else
                (parseNvidiaMinorAt path).bind fun
                  | some minor => some (true, { record with kind := .nvidiaDevice, deviceMinor := minor })
                  | none =>
                      (strcmp path 0 (literal gpusDir) 0).bind fun dir =>
                        if dir then some (true, { record with kind := .procGpusDir })
                        else classifyProcGpuPathAt path record

/-! ## The library in memory -/

/-- `g_fd_map` in memory. -/
abbrev FdMapBytes := Fin fdMapMax → Option RecordBytes

/-- The static state that decides on paths and names. -/
structure ShimBytes where
  config : ConfigBytes
  allowed : AllowedBytes
  procFilterReady : Bool
  fdMap : FdMapBytes

/-- `nvfix_fd_map_set`. -/
def ShimBytes.track (sh : ShimBytes) (fd : Int) (record : RecordBytes) : ShimBytes :=
  match fdSlot fd with
  | none => sh
  | some i => { sh with fdMap := Function.update sh.fdMap i (some record) }

/-- `nvfix_fd_map_remove`. -/
def ShimBytes.untrack (sh : ShimBytes) (fd : Int) : ShimBytes :=
  match fdSlot fd with
  | none => sh
  | some i => { sh with fdMap := Function.update sh.fdMap i none }

/-- `nvfix_fd_map_get(fd, &record) && record.kind == kind`. -/
def ShimBytes.trackedAs (sh : ShimBytes) (fd : Int) (kind : FdKind) : Bool :=
  ((fdSlot fd).bind sh.fdMap).any (·.kind == kind)

/-- The local arrays of a call, as they are found. -/
structure Frame where
  busId : List.Vector UInt8 procBusIdMax
  normalized : List.Vector UInt8 pathMax
  effective : List.Vector UInt8 pathMax

/-! ## Decisions -/

def pathIsAbsoluteAt (path : Option (List UInt8)) : Option Bool :=
  match path with
  | none => some false
  | some path => path[0]?.map (· == slash)

def pathIsRelativeAt (path : Option (List UInt8)) : Option Bool :=
  match path with
  | none => some false
  | some path => path[0]?.map (· != slash)

def procDeniedAt (sh : ShimBytes) (frame : Frame) (path : Option (List UInt8)) : Option Bool :=
  if !sh.procFilterReady then some false
  else
    (pathIsAbsoluteAt path).bind fun absolute =>
      if !absolute then some false
      else (procPathAllowedAt (some sh.allowed) path frame.busId).map (· == .deny)

def traceAndTrackOpenAt (path : Option (List UInt8)) (fd : Int) (sh : ShimBytes) : Option ShimBytes :=
  (classifyPathAt path).map fun (ok, record) =>
    if !ok then sh
    else if fd ≥ 0 then sh.track fd record
    else sh

/-- `len` bytes at `off` are those of the string. -/
def segmentIs (path : List UInt8) (off len : Nat) (s : CStr) : Option Bool :=
  if len = s.length then (slice path off len).map (· == s) else some false

/-- A round of the loop of `nvfix_normalize_relative_path`, over `read_offset`, the buffer and `write_offset`; it is
left with `none` by a return of 0, else with `write_offset`. -/
def normalizeRound (path : List UInt8) (bufferLen : Nat) (st : Nat × List UInt8 × Nat) :
    Option (Round (Nat × List UInt8 × Nat) (Option Nat × List UInt8)) :=
  let (readOffset, buffer, writeOffset) := st
  path[readOffset]?.bind fun c =>
    if c == 0 then some (.done (some writeOffset, buffer))
    else
      (spanAt none (· == slash) path readOffset).bind fun slashes =>
        let readOffset := readOffset + slashes
        path[readOffset]?.bind fun c =>
          if c == 0 then some (.done (some writeOffset, buffer))
          else
            (spanAt none (fun c => c != 0 && c != slash) path readOffset).bind fun segmentLen =>
              (segmentIs path readOffset segmentLen dotdot).bind fun up =>
                if up then some (.done (none, buffer))
                else
                  (segmentIs path readOffset segmentLen dot).bind fun here =>
                    if here then some (.next (readOffset + segmentLen, buffer, writeOffset))
                    else if writeOffset ≠ 0 ∧ writeOffset + 1 ≥ bufferLen then some (.done (none, buffer))
                    else
                      (if writeOffset ≠ 0 then (store buffer writeOffset slash).map fun buffer => (buffer, writeOffset + 1)
                        else some (buffer, writeOffset)).bind fun (buffer, writeOffset) =>
                          if writeOffset + segmentLen ≥ bufferLen then some (.done (none, buffer))
                          else
                            (slice path readOffset segmentLen).bind fun segment =>
                              (storeMany buffer writeOffset segment).map fun buffer =>
                                .next (readOffset + segmentLen, buffer, writeOffset + segmentLen)

/-- The part of `nvfix_normalize_relative_path` after its loop. -/
def normalizeEnd (bufferLen : Nat) (r : Option Nat × List UInt8) : Option (Bool × List UInt8) :=
  match r with
  | (none, buffer) => some (false, buffer)
  | (some writeOffset, buffer) =>
      if writeOffset = 0 || writeOffset ≥ bufferLen then some (false, buffer)
      else (store buffer writeOffset 0).map fun buffer => (true, buffer)

/-- `nvfix_normalize_relative_path`: the return value and the buffer after the call. -/
def normalizeRelativePathAt (path : Option (List UInt8)) (buffer : List UInt8) : Option (Bool × List UInt8) :=
  match path with
  | none => some (false, buffer)
  | some path =>
      if buffer.length = 0 then some (false, buffer)
      else
        path[0]?.bind fun c =>
          if c == slash then some (false, buffer)
          else
            (loop (normalizeRound path buffer.length) (path.length + 1) (0, buffer, 0)).bind
              (normalizeEnd buffer.length)

/-- `nvfix_effective_openat_path`: the array it returns a pointer to. -/
def effectiveOpenatPathAt (sh : ShimBytes) (frame : Frame) (dirfd : Int) (path : Option (List UInt8)) :
    Option (Option (List UInt8)) :=
  (pathIsRelativeAt path).bind fun relative =>
    if !relative || !sh.trackedAs dirfd .procGpusDir then some path
    else
      (normalizeRelativePathAt path frame.normalized.toList).bind fun (ok, normalized) =>
        if !ok then some path
        else
          (cstrAt normalized 0).bind fun relativePath =>
            let written := gpusPrefix ++ relativePath
            (snprintf frame.effective.toList pathMax written).map fun buffer =>
              if written.length ≥ pathMax then path else some buffer

def readdirEntryAllowedAt (sh : ShimBytes) (dirfd : Int) (name : List UInt8) : Option Bool :=
  if !sh.procFilterReady || !sh.trackedAs dirfd .procGpusDir then some true
  else
    (equalsAny name [dot, dotdot]).bind fun dots =>
      if dots then some true else allowedContainsBusAt sh.allowed name

/-! ## The calls -/

/-- As `Reply`. -/
structure ReplyBytes (K α : Type) where
  value : α
  errno : Option Errno
  shim : ShimBytes
  os : K

/-- What the real function reads where it is given a path. -/
def pathStr (path : Option (List UInt8)) : Option (Option CStr) :=
  match path with
  | none => some none
  | some path => (cstrAt path 0).map some

section

variable {K β : Type}

def openCommonAt (realOpen realOpen64 : Option (RealOpen K)) (useOpen64 : Bool) (path : Option (List UInt8))
    (args : OpenArgs) (sh : ShimBytes) (frame : Frame) (os : K) : Option (ReplyBytes K Int) :=
  (classifyPathAt path).bind fun (ok, record) =>
    (procDeniedAt sh frame path).bind fun denied =>
      if denied then some ⟨-1, some .enoent, sh, os⟩
      else
        match (if useOpen64 then realOpen64.or realOpen else realOpen) with
        | none => some ⟨-1, some .enosys, sh, os⟩
        | some real =>
            (pathStr path).map fun str =>
              let (fd, os) := real str args os
              ⟨fd, none, if ok && decide (fd ≥ 0) then sh.track fd record else sh, os⟩

def openatCommonAt (realOpenat realOpenat64 : Option (RealOpenat K)) (useOpen64 : Bool) (dirfd : Int)
    (path : Option (List UInt8)) (args : OpenArgs) (sh : ShimBytes) (frame : Frame) (os : K) :
    Option (ReplyBytes K Int) :=
  (effectiveOpenatPathAt sh frame dirfd path).bind fun effectivePath =>
    (procDeniedAt sh frame effectivePath).bind fun denied =>
      if denied then (classifyPathAt effectivePath).map fun _ => ⟨-1, some .enoent, sh, os⟩
      else
        match (if useOpen64 then realOpenat64.or realOpenat else realOpenat) with
        | none => some ⟨-1, some .enosys, sh, os⟩
        | some real =>
            (pathStr path).bind fun str =>
              let (fd, os) := real dirfd str args os
              (pathIsAbsoluteAt effectivePath).bind fun absolute =>
                (if absolute || dirfd = atFdcwd then traceAndTrackOpenAt effectivePath fd sh else some sh).map
                  fun sh => ⟨fd, none, sh, os⟩

def closeAt (realClose : Option (Int → K → Int × K)) (fd : Int) (sh : ShimBytes) (os : K) : ReplyBytes K Int :=
  match realClose with
  | none => ⟨-1, some .enosys, sh, os⟩
  | some real =>
      let (result, os) := real fd os
      ⟨result, none, if result = 0 then sh.untrack fd else sh, os⟩

def statAt (realStat : Option (Option CStr → β → K → (Int × β) × K)) (path : Option (List UInt8)) (statbuf : β)
    (sh : ShimBytes) (frame : Frame) (os : K) : Option (ReplyBytes K (Int × β)) :=
  (procDeniedAt sh frame path).bind fun denied =>
    if denied then some ⟨(-1, statbuf), some .enoent, sh, os⟩
    else
      match realStat with
      | none => some ⟨(-1, statbuf), some .enosys, sh, os⟩
      | some real =>
          (pathStr path).map fun str =>
            let (value, os) := real str statbuf os
            ⟨value, none, sh, os⟩

def newfstatatAt (realNewfstatat : Option (Int → Option CStr → β → UInt32 → K → (Int × β) × K)) (dirfd : Int)
    (path : Option (List UInt8)) (statbuf : β) (flags : UInt32) (sh : ShimBytes) (frame : Frame) (os : K) :
    Option (ReplyBytes K (Int × β)) :=
  (effectiveOpenatPathAt sh frame dirfd path).bind fun effectivePath =>
    (procDeniedAt sh frame effectivePath).bind fun denied =>
      if denied then some ⟨(-1, statbuf), some .enoent, sh, os⟩
      else
        match realNewfstatat with
        | none => some ⟨(-1, statbuf), some .enosys, sh, os⟩
        | some real =>
            (pathStr path).map fun str =>
              let (value, os) := real dirfd str statbuf flags os
              ⟨value, none, sh, os⟩

def opendirCommonAt (realOpendir realOpendir64 : Option (RealOpendir K)) (dirfd : Nat → K → Int)
    (useOpendir64 : Bool) (path : Option (List UInt8)) (sh : ShimBytes) (frame : Frame) (os : K) :
    Option (ReplyBytes K (Option Nat)) :=
  (procDeniedAt sh frame path).bind fun denied =>
    if denied then some ⟨none, some .enoent, sh, os⟩
    else
      match (if useOpendir64 then realOpendir64.or realOpendir else realOpendir) with
      | none => some ⟨none, some .enosys, sh, os⟩
      | some real =>
          (pathStr path).bind fun str =>
            match real str os with
            | (none, os) => some ⟨none, none, sh, os⟩
            | (some dir, os) =>
                (traceAndTrackOpenAt path (dirfd dir os) sh).map fun sh => ⟨some dir, none, sh, os⟩

def fdopendirAt (realFdopendir : Option (Int → K → Option Nat × K)) (fd : Int) (sh : ShimBytes) (os : K) :
    ReplyBytes K (Option Nat) :=
  match realFdopendir with
  | none => ⟨none, some .enosys, sh, os⟩
  | some real =>
      let (dir, os) := real fd os
      ⟨dir, none, sh, os⟩

/-- The loop of `readdir`; the entry is the array `d_name`. The inner result is `none` where `fuel` does not
suffice. -/
def readdirLoopAt (real : Nat → K → Option StrArray × K) (dirp : Nat) (fd : Int) (sh : ShimBytes) :
    Nat → StrArray → K → Option (Option (Option StrArray × K))
  | 0, entry, os =>
      (readdirEntryAllowedAt sh fd entry.bytes).map fun allowed => if allowed then some (some entry, os) else none
  | fuel + 1, entry, os =>
      (readdirEntryAllowedAt sh fd entry.bytes).bind fun allowed =>
        if allowed then some (some (some entry, os))
        else
          match real dirp os with
          | (none, os) => some (some (none, os))
          | (some entry, os) => readdirLoopAt real dirp fd sh fuel entry os

/-- `readdir`, and `readdir64` with the other real function. -/
def readdirAt (realReaddir : Option (Nat → K → Option StrArray × K)) (dirfd : Nat → K → Int) (fuel : Nat)
    (dirp : Nat) (sh : ShimBytes) (os : K) : Option (Option (ReplyBytes K (Option StrArray))) :=
  match realReaddir with
  | none => some (some ⟨none, some .enosys, sh, os⟩)
  | some real =>
      match real dirp os with
      | (none, os) => some (some ⟨none, none, sh, os⟩)
      | (some entry, os) =>
          (readdirLoopAt real dirp (dirfd dirp os) sh fuel entry os).map fun r =>
            r.map fun (value, os) => ⟨value, none, sh, os⟩

end

/-! ## Start of the library -/

/-- `nvfix_constructor`, on a host. -/
def nvfixConstructorAt (getenv : CStr → Option (List UInt8)) (host : Host) (locals : Locals) (found : FoundArrays) :
    Option ShimBytes :=
  (configLoadAt getenv).bind fun config =>
    let explicitUuid := if config.gpuUuidSet then some config.gpuUuid else none
    (if config.procFilterEnabled then procFilterRuntimeInitAt host locals found explicitUuid
      else some (false, AllowedBytes.empty)).map fun (ready, allowed) =>
        { config := config, allowed := allowed, procFilterReady := ready, fdMap := fun _ => none }

end Nvscope
