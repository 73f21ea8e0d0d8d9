import Nvscope.Model.PreloadBytes
import Nvscope.Theorems.DetectionBytes
import Nvscope.Theorems.RelativeOpens

/-!
# Paths and descriptors, byte by byte: what the functions compute

On arrays that hold strings, each function stays inside its arrays and does what its model on strings does.
-/

namespace Nvscope

open Lib

variable {m dst src : List UInt8} {s p : CStr} {n off : Nat}

/-! ## Configuration -/

theorem equalsAny_eq {words : List CStr} (h : cstrAt m 0 = some s) (hwords : ∀ w ∈ words, (0 : UInt8) ∉ w) :
    equalsAny m words = some (words.any (s == ·)) := by
  induction words with
  | nil => rfl
  | cons w words ih =>
      have hliteral := cstrAt_literal (hwords w List.mem_cons_self)
      rw [equalsAny, strcmp_eq h hliteral, Option.bind_some, ih fun w hw => hwords w (List.mem_cons_of_mem _ hw),
        List.any_cons]
      cases s == w <;> rfl

theorem envTruthyAt_eq (value : Option StrArray) :
    envTruthyAt (value.map (·.bytes)) = some (envTruthy (value.map (·.str))) := by
  cases value with
  | none => rfl
  | some value =>
      have hwords : ∀ w ∈ [ascii "1", ascii "true", ascii "TRUE", ascii "yes", ascii "YES", ascii "on", ascii "ON"],
          (0 : UInt8) ∉ w := by decide
      simp only [envTruthyAt, Option.map_some, equalsAny_eq value.cstrAt_zero hwords, envTruthy, List.any_cons,
        List.any_nil, Bool.or_false, Bool.or_assoc]

/-- The variable that is read, whichever way its value is looked at. -/
theorem getenvAlias_map (getenv : CStr → Option StrArray) (primary legacy : CStr) :
    ∃ value : Option StrArray, ∀ f : StrArray → CStr,
      getenvAlias (fun name => (getenv name).map f) primary legacy = value.map f := by
  cases hprimary : getenv primary with
  | some value => exact ⟨some value, fun f => by simp [getenvAlias, hprimary]⟩
  | none => exact ⟨getenv legacy, fun f => by simp [getenvAlias, hprimary]⟩

structure ConfigBytes.Shows (bytes : ConfigBytes) (cfg : Config) : Prop where
  traceEnabled : bytes.traceEnabled = cfg.traceEnabled
  procFilterEnabled : bytes.procFilterEnabled = cfg.procFilterEnabled
  ioctlFilterEnabled : bytes.ioctlFilterEnabled = cfg.ioctlFilterEnabled
  gpuUuidSet : bytes.gpuUuidSet = cfg.gpuUuidSet
  gpuUuid : cstrAt bytes.gpuUuid 0 = some cfg.gpuUuid

theorem configLoadAt_shows (getenv : CStr → Option StrArray) :
    ∃ cfg, configLoadAt (fun name => (getenv name).map (·.bytes)) = some cfg ∧
      cfg.Shows (configLoad fun name => (getenv name).map (·.str)) := by
  obtain ⟨trace, htrace⟩ := getenvAlias_map getenv (ascii "NVSCOPE_TRACE") (ascii "NV_VIDEO_FIX_TRACE")
  obtain ⟨rm, hrm⟩ := getenvAlias_map getenv (ascii "NVSCOPE_IOCTL") (ascii "NV_VIDEO_FIX_IOCTL")
  obtain ⟨proc, hproc⟩ := getenvAlias_map getenv (ascii "NVSCOPE_PROC") (ascii "NV_VIDEO_FIX_PROC")
  obtain ⟨uuid, huuid⟩ := getenvAlias_map getenv (ascii "NVSCOPE_GPU_UUID") (ascii "NV_VIDEO_FIX_GPU_UUID")
  have henabled : (if proc.map (·.bytes) = none then some true else some (envTruthy (proc.map (·.str)))) =
      some (if proc.map (·.str) = none then true else envTruthy (proc.map (·.str))) := by
    cases proc <;> rfl
  simp only [configLoadAt, configLoad, htrace, hrm, hproc, huuid, envTruthyAt_eq, Option.bind_some, henabled]
  cases uuid with
  | none => exact ⟨_, rfl, rfl, rfl, rfl, rfl, cstrAt_zeros (by decide)⟩
  | some uuid =>
      obtain ⟨c, hload, hc⟩ := load_zero uuid.cstrAt_zero
      simp only [Option.map_some, Option.getD_some, hload, Option.bind_some, bne, hc]
      cases hempty : uuid.str == [] with
      | true =>
          refine ⟨_, rfl, rfl, rfl, rfl, rfl, ?_⟩
          rw [eq_of_beq hempty]
          exact cstrAt_zeros (by decide)
      | false =>
          obtain ⟨text, hcopy, -, htext⟩ := copyBounded_eq uuid.cstrAt_zero
            (List.length_replicate : (List.replicate gpuUuidMax (0 : UInt8)).length = gpuUuidMax) (by decide)
          simp only [Bool.not_false, ↓reduceIte, hcopy, Option.map_some]
          exact ⟨_, rfl, rfl, rfl, rfl, rfl, htext⟩

/-! ## Classification -/

structure RecordBytes.Shows (bytes : RecordBytes) (record : FdRecord) : Prop where
  kind : bytes.kind = record.kind
  deviceMinor : bytes.deviceMinor = record.deviceMinor
  pathLength : bytes.path.length = pathMax
  path : cstrAt bytes.path 0 = some record.path
  busIdLength : bytes.busId.length = busIdMax
  busId : cstrAt bytes.busId 0 = some record.busId

theorem copyStringInto_eq (hdst : dst.length = n) (hn : 0 < n) (src : Option StrArray) :
    ∃ dst', copyStringInto dst n (src.map (·.bytes)) = some dst' ∧ dst'.length = n ∧
      cstrAt dst' 0 = some (copyString n (src.map (·.str))) := by
  have hne : n ≠ 0 := Nat.pos_iff_ne_zero.mp hn
  cases src with
  | none =>
      obtain ⟨c, rest, rfl⟩ := List.exists_cons_of_length_pos (hdst ▸ hn)
      refine ⟨0 :: rest, ?_, hdst, ?_⟩
      · simp [copyStringInto, hne, store]
      · simpa [copyString] using cstrAt_zero_of_append (List.not_mem_nil (a := (0 : UInt8)))
  | some src => simpa [copyStringInto, hne, copyString] using copyBounded_eq src.cstrAt_zero hdst hn

theorem copySliceInto_eq {len : Nat} (hdst : dst.length = n) (hn : 0 < n) (h : slice src off len = some s)
    (hs : (0 : UInt8) ∉ s) :
    ∃ dst', copySliceInto dst n src off len = some dst' ∧ dst'.length = n ∧
      cstrAt dst' 0 = some (copySlice n s) := by
  obtain rfl := length_of_slice h
  have hne : n ≠ 0 := Nat.pos_iff_ne_zero.mp hn
  generalize hlen : (if s.length ≥ n then n - 1 else s.length) = copyLen
  have hle : copyLen ≤ s.length ∧ copyLen < n := by
    rw [← hlen]
    split <;> omega
  have hfront := slice_zero_take h hle.1
  have hcount : (s.take copyLen).length = copyLen := by simp [hle.1]
  obtain ⟨c, rest, hrest⟩ : ∃ c rest, dst.drop copyLen = c :: rest :=
    List.exists_cons_of_length_pos (by rw [List.length_drop]; omega)
  have hcopy := @storeMany_append _ [] dst (s.take copyLen) (by omega)
  have hstore := store_append (s.take copyLen) rest c 0
  rw [List.nil_append, List.nil_append, List.length_nil, hcount, hrest] at hcopy
  rw [hcount] at hstore
  refine ⟨s.take copyLen ++ 0 :: rest, ?_, ?_, ?_⟩
  · simp [copySliceInto, hne, hlen, memcpy, hfront, hcopy, hstore]
  · have hdrop := congrArg List.length hrest
    simp only [List.length_drop, List.length_cons] at hdrop
    simp only [List.length_append, List.length_cons, hcount]
    omega
  · rw [copySlice, hlen]
    exact cstrAt_zero_of_append fun hmem => hs (List.mem_of_mem_take hmem)

theorem parseNvidiaMinorAt_eq (h : cstrAt m 0 = some p) : parseNvidiaMinorAt m = some (parseNvidiaMinor p) := by
  have hprefix : cstrAt (literal (ascii "/dev/nvidia")) 0 = some (ascii "/dev/nvidia") := cstrAt_literal (by decide)
  simp only [parseNvidiaMinorAt, strncmp_eq h hprefix, Option.bind_some, starts_iff, parseNvidiaMinor, decimalAfter]
  cases hstarts : (ascii "/dev/nvidia").isPrefixOf p with
  | false => rfl
  | true =>
      have hle := (List.isPrefixOf_iff_prefix.mp hstarts).length_le
      have hrest := cstrAt_add h hle
      rw [Nat.zero_add] at hrest
      simp only [load_head hrest, parseDigitsCStr_eq (by decide : 9 ≤ intMax) hrest, Option.bind_some, Option.map_some,
        Bool.not_true, Bool.false_eq_true, ↓reduceIte]
      cases p.drop (ascii "/dev/nvidia").length with
      | nil => rfl
      | cons c cs =>
          by_cases hdigit : isDigit c = true
          · simp [hdigit]
          · simp [hdigit]

theorem RecordBytes.Shows.withKind {bytes : RecordBytes} {record : FdRecord} (h : bytes.Shows record) (kind : FdKind) :
    RecordBytes.Shows { bytes with kind := kind } { record with kind := kind } :=
  ⟨rfl, h.deviceMinor, h.pathLength, h.path, h.busIdLength, h.busId⟩

theorem classifyProcGpuPathAt_shows {bytes : RecordBytes} {record : FdRecord} (h : bytes.Shows record)
    (hpath : cstrAt m 0 = some p) : ∃ bytes', classifyProcGpuPathAt m bytes =
      some ((classifyProcGpuPath p record).1, bytes') ∧ bytes'.Shows (classifyProcGpuPath p record).2 := by
  obtain ⟨r, hmatch, hrel⟩ := procInfoBusAt_eq (n := busIdMax) hpath
  simp only [classifyProcGpuPathAt, classifyProcGpuPath, hmatch, Option.bind_some]
  generalize procInfoBus busIdMax p = bus at hrel
  cases hrel with
  | none => exact ⟨bytes, rfl, h⟩
  | some hbus =>
      obtain ⟨busId, hcopy, hlength, hbusId⟩ := copySliceInto_eq h.busIdLength (by decide) hbus.1 hbus.2
      simp only [hcopy, Option.map_some]
      exact ⟨_, rfl, rfl, h.deviceMinor, h.pathLength, h.path, hlength, hbusId⟩

theorem classifyPathAt_shows (path : Option StrArray) : ∃ record, classifyPathAt (path.map (·.bytes)) =
    some ((classifyPath (path.map (·.str))).1, record) ∧ record.Shows (classifyPath (path.map (·.str))).2 := by
  have hlength : (List.replicate pathMax (0 : UInt8)).length = pathMax := List.length_replicate
  obtain ⟨text, hcopy, htextLength, htext⟩ := copyStringInto_eq hlength (by decide) path
  have hrecord : RecordBytes.Shows
      { kind := .other, deviceMinor := -1, path := text, busId := List.replicate busIdMax 0 }
      { kind := .other, deviceMinor := -1, path := copyString pathMax (path.map (·.str)), busId := [] } :=
    ⟨rfl, rfl, htextLength, htext, List.length_replicate, cstrAt_zeros (by decide)⟩
  simp only [classifyPathAt, classifyPath, hcopy, Option.bind_some]
  cases path with
  | none => exact ⟨_, rfl, hrecord⟩
  | some path =>
      have hpath := path.cstrAt_zero
      have hctl : cstrAt (literal (ascii "/dev/nvidiactl")) 0 = some (ascii "/dev/nvidiactl") :=
        cstrAt_literal (by decide)
      have huvm : cstrAt (literal (ascii "/dev/nvidia-uvm")) 0 = some (ascii "/dev/nvidia-uvm") :=
        cstrAt_literal (by decide)
      have hdir : cstrAt (literal gpusDir) 0 = some gpusDir := cstrAt_literal (by decide)
      simp only [Option.map_some, strcmp_eq hpath hctl, strcmp_eq hpath huvm, strcmp_eq hpath hdir,
        parseNvidiaMinorAt_eq hpath, Option.bind_some, beq_iff_eq]
      by_cases hisCtl : path.str = ascii "/dev/nvidiactl"
      · simp only [if_pos hisCtl]
        exact ⟨_, rfl, hrecord.withKind .nvidiaCtl⟩
      simp only [if_neg hisCtl]
      by_cases hisUvm : path.str = ascii "/dev/nvidia-uvm"
      · simp only [if_pos hisUvm]
        exact ⟨_, rfl, hrecord.withKind .nvidiaUvm⟩
      simp only [if_neg hisUvm]
      cases parseNvidiaMinor path.str with
      | some minor => exact ⟨_, rfl, rfl, rfl, htextLength, htext, List.length_replicate, cstrAt_zeros (by decide)⟩
      | none =>
          by_cases hisDir : path.str = gpusDir
          · simp only [if_pos hisDir]
            exact ⟨_, rfl, hrecord.withKind .procGpusDir⟩
          · simp only [if_neg hisDir]
            exact classifyProcGpuPathAt_shows hrecord hpath

/-! ## The library in memory -/

structure ShimBytes.Shows (bytes : ShimBytes) (sh : Shim) : Prop where
  config : bytes.config.Shows sh.config
  allowed : bytes.allowed.Shows sh.allowed
  procFilterReady : bytes.procFilterReady = sh.procFilterReady
  fdMap : ∀ i, Option.Rel RecordBytes.Shows (bytes.fdMap i) (sh.fdMap i)

variable {bytes : ShimBytes} {sh : Shim}

theorem shows_update (h : bytes.Shows sh) (i : Fin fdMapMax) {record : Option RecordBytes} {record' : Option FdRecord}
    (hrecord : Option.Rel RecordBytes.Shows record record') : ShimBytes.Shows
      { bytes with fdMap := Function.update bytes.fdMap i record }
      { sh with fdMap := Function.update sh.fdMap i record' } where
  config := h.config
  allowed := h.allowed
  procFilterReady := h.procFilterReady
  fdMap := by
    intro j
    by_cases hj : j = i
    · subst hj
      simpa only [Function.update_self] using hrecord
    · simpa only [Function.update_of_ne hj] using h.fdMap j

theorem ShimBytes.Shows.track (h : bytes.Shows sh) (fd : Int) {record : RecordBytes} {record' : FdRecord}
    (hrecord : record.Shows record') : (bytes.track fd record).Shows (sh.track fd record') := by
  simp only [ShimBytes.track, Shim.track, fdMapSet]
  cases fdSlot fd with
  | none => exact h
  | some i => exact shows_update h i (.some hrecord)

theorem ShimBytes.Shows.untrack (h : bytes.Shows sh) (fd : Int) : (bytes.untrack fd).Shows (sh.untrack fd) := by
  simp only [ShimBytes.untrack, Shim.untrack, fdMapRemove]
  cases fdSlot fd with
  | none => exact h
  | some i => exact shows_update h i .none

theorem ShimBytes.Shows.trackedAs (h : bytes.Shows sh) (fd : Int) (kind : FdKind) :
    bytes.trackedAs fd kind = sh.trackedAs fd kind := by
  simp only [ShimBytes.trackedAs, Shim.trackedAs, fdMapGet]
  cases fdSlot fd with
  | none => rfl
  | some i =>
      have hi := h.fdMap i
      simp only [Option.bind_some]
      generalize bytes.fdMap i = record at hi
      generalize sh.fdMap i = record' at hi
      cases hi with
      | none => rfl
      | some hrecord => simp only [Option.any_some, hrecord.kind]

/-! ## Decisions -/

theorem head_slash (s : CStr) : (s.headD 0 == slash) = (s.head? == some slash) := by
  cases s with
  | nil => rfl
  | cons c s => simp

theorem pathIsAbsoluteAt_eq (path : Option StrArray) :
    pathIsAbsoluteAt (path.map (·.bytes)) = some (pathIsAbsolute (path.map (·.str))) := by
  cases path with
  | none => rfl
  | some path => simp only [pathIsAbsoluteAt, pathIsAbsolute, Option.map_some, load_head path.cstrAt_zero, head_slash]

theorem pathIsRelativeAt_eq (path : Option StrArray) :
    pathIsRelativeAt (path.map (·.bytes)) = some (pathIsRelative (path.map (·.str))) := by
  cases path with
  | none => rfl
  | some path =>
      simp only [pathIsRelativeAt, pathIsRelative, Option.map_some, load_head path.cstrAt_zero, bne, head_slash]

theorem procDeniedAt_eq (h : bytes.Shows sh) (frame : Frame) (path : Option StrArray) :
    procDeniedAt bytes frame (path.map (·.bytes)) = some (procDenied sh (path.map (·.str))) := by
  simp only [procDeniedAt, procDenied, h.procFilterReady, pathIsAbsoluteAt_eq, Option.bind_some,
    procPathAllowedAt_eq (.some h.allowed) path frame.busId, Option.map_some]
  cases sh.procFilterReady with
  | false => rfl
  | true => cases pathIsAbsolute (path.map (·.str)) <;> rfl

theorem traceAndTrackOpenAt_shows (h : bytes.Shows sh) (path : Option StrArray) (fd : Int) :
    ∃ bytes', traceAndTrackOpenAt (path.map (·.bytes)) fd bytes = some bytes' ∧
      bytes'.Shows (traceAndTrackOpen (path.map (·.str)) fd sh) := by
  obtain ⟨record, hclassify, hrecord⟩ := classifyPathAt_shows path
  simp only [traceAndTrackOpenAt, traceAndTrackOpen, hclassify, Option.map_some]
  refine ⟨_, rfl, ?_⟩
  split
  · exact h
  · split
    · exact h.track fd hrecord
    · exact h

theorem readdirEntryAllowedAt_eq (h : bytes.Shows sh) (fd : Int) (name : StrArray) :
    readdirEntryAllowedAt bytes fd name.bytes = some (readdirEntryAllowed sh fd (some name.str)) := by
  have hwords : ∀ w ∈ [dot, dotdot], (0 : UInt8) ∉ w := by decide
  have hdots : ([dot, dotdot].any (name.str == ·)) = (decide (name.str = dot) || decide (name.str = dotdot)) := by
    simp [beq_eq_decide]
  simp only [readdirEntryAllowedAt, readdirEntryAllowed, h.procFilterReady, h.trackedAs,
    equalsAny_eq name.cstrAt_zero hwords, hdots, allowedContainsBusAt_eq h.allowed name.cstrAt_zero, Option.bind_some]
  cases sh.procFilterReady with
  | false => rfl
  | true =>
      cases sh.trackedAs fd .procGpusDir with
      | false => rfl
      | true =>
          by_cases hname : name.str = dot ∨ name.str = dotdot
          · simp [hname]
          · simp [hname]

/-! ## Relative paths -/

theorem segmentIs_eq {segment : CStr} (h : slice m off segment.length = some segment) (s : CStr) :
    segmentIs m off segment.length s = some (segment == s) := by
  rw [segmentIs, h]
  by_cases hlen : segment.length = s.length
  · rw [if_pos hlen, Option.map_some]
  · have hne : segment ≠ s := fun heq => hlen (congrArg List.length heq)
    simp [hlen, hne]

theorem takeWhile_segment {rest : CStr} (hrest : (0 : UInt8) ∉ rest) :
    rest.takeWhile (fun c => c != 0 && c != slash) = rest.takeWhile (· != slash) := by
  induction rest with
  | nil => rfl
  | cons c rest ih =>
      have hc : c ≠ 0 := fun h => hrest (h ▸ List.mem_cons_self)
      have hne : (c != 0) = true := bne_iff_ne.mpr hc
      rw [List.takeWhile_cons, List.takeWhile_cons, hne, Bool.true_and,
        ih fun hmem => hrest (List.mem_cons_of_mem c hmem)]

/-- The slashes at `read_offset` are skipped. -/
theorem skip_slashes {rest : CStr} (h : cstrAt m off = some rest) :
    ∃ slashes, spanAt none (· == slash) m off = some slashes ∧
      cstrAt m (off + slashes) = some (rest.dropWhile (· == slash)) := by
  have hp : ((0 : UInt8) == slash) = false := by decide
  have hlen : (rest.takeWhile (· == slash)).length ≤ rest.length := (List.takeWhile_prefix _).length_le
  have hdrop : rest.drop (rest.takeWhile (· == slash)).length = rest.dropWhile (· == slash) := by
    have hleft : (rest.takeWhile (· == slash) ++ rest.dropWhile (· == slash)).drop
        (rest.takeWhile (· == slash)).length = rest.dropWhile (· == slash) := List.drop_left
    rwa [List.takeWhile_append_dropWhile] at hleft
  refine ⟨_, spanAt_eq hp h, ?_⟩
  rw [upTo, cstrAt_add h hlen, hdrop]

/-- The segment at `read_offset`. -/
theorem scan_segment {rest : CStr} (h : cstrAt m off = some rest) :
    let segment := rest.takeWhile (· != slash)
    spanAt none (fun c => c != 0 && c != slash) m off = some segment.length ∧
      slice m off segment.length = some segment ∧ cstrAt m (off + segment.length) = some (rest.drop segment.length) := by
  intro segment
  obtain ⟨-, -, hnul⟩ := cstrAt_eq_some.mp h
  have hpre : segment <+: rest := List.takeWhile_prefix _
  have htake : rest.take segment.length = segment := (List.prefix_iff_eq_take.mp hpre).symm
  refine ⟨?_, ?_, cstrAt_add h hpre.length_le⟩
  · rw [spanAt_eq (by decide) h, upTo, takeWhile_segment hnul]
  · have hslice := slice_zero_take (slice_of_cstrAt h) hpre.length_le
    rwa [htake] at hslice

/-- Step lemma: behind the last segment the loop is left. -/
theorem normalizeRound_end {bufferLen writeOffset : Nat} {rest : CStr} {buffer : List UInt8}
    (h : cstrAt m off = some rest) (hend : rest.dropWhile (· == slash) = []) :
    normalizeRound m bufferLen (off, buffer, writeOffset) = some (.done (some writeOffset, buffer)) := by
  obtain ⟨slashes, hslashes, hskip⟩ := skip_slashes h
  have hload := load_head hskip
  rw [hend] at hload
  simp only [normalizeRound, load_head h, Option.bind_some, hslashes, hload, List.headD_nil, BEq.rfl, ↓reduceIte,
    ite_self]

/-- Step lemma: one segment. -/
theorem normalizeRound_segment {bufferLen writeOffset : Nat} {rest rest' segment : CStr} {buffer : List UInt8}
    (h : cstrAt m off = some rest) (hrest' : rest.dropWhile (· == slash) = rest') (hne : rest' ≠ [])
    (hsegment : rest'.takeWhile (· != slash) = segment) :
    ∃ next, cstrAt m next = some (rest'.drop segment.length) ∧
      normalizeRound m bufferLen (off, buffer, writeOffset) =
        if segment = dotdot then some (.done (none, buffer))
        else if segment = dot then some (.next (next, buffer, writeOffset))
        else if writeOffset ≠ 0 ∧ writeOffset + 1 ≥ bufferLen then some (.done (none, buffer))
        else
          (if writeOffset ≠ 0 then (store buffer writeOffset slash).map fun buffer => (buffer, writeOffset + 1)
            else some (buffer, writeOffset)).bind fun (buffer, writeOffset) =>
              if writeOffset + segment.length ≥ bufferLen then some (.done (none, buffer))
              else
                (storeMany buffer writeOffset segment).map fun buffer =>
                  .next (next, buffer, writeOffset + segment.length) := by
  subst hrest'
  subst hsegment
  obtain ⟨-, -, hnul⟩ := cstrAt_eq_some.mp h
  obtain ⟨slashes, hslashes, hskip⟩ := skip_slashes h
  obtain ⟨-, -, hnul'⟩ := cstrAt_eq_some.mp hskip
  obtain ⟨hspan, hslice, hnext⟩ := scan_segment hskip
  have hload : rest.headD 0 ≠ 0 := by
    intro h0
    rw [(headD_eq_zero_iff hnul).mp h0] at hne
    exact hne rfl
  have hload' := mt (headD_eq_zero_iff hnul').mp hne
  refine ⟨_, hnext, ?_⟩
  simp only [normalizeRound, load_head h, load_head hskip, Option.bind_some, beq_iff_eq, hload, hload', ↓reduceIte,
    hslashes, hspan, segmentIs_eq hslice, hslice]

/-- Run lemma: the loop does what `normalizeStores` does with the path from there on. -/
theorem loop_normalizeRound {bufferLen fuel : Nat} {rest : CStr} {buffer : List UInt8} {writeOffset : Nat}
    (h : cstrAt m off = some rest) :
    (loop (normalizeRound m bufferLen) fuel (off, buffer, writeOffset)).bind (normalizeEnd bufferLen) =
      normalizeStores bufferLen fuel rest buffer writeOffset := by
  induction fuel generalizing off rest buffer writeOffset with
  | zero => rfl
  | succ fuel ih =>
      rw [normalizeStores]
      by_cases hend : rest.dropWhile (· == slash) = []
      · rw [loop_done (normalizeRound_end h hend), if_pos hend]
        rfl
      obtain ⟨next, hnext, hround⟩ := normalizeRound_segment (m := m) h rfl hend rfl
      simp only
      rw [loop, hround, if_neg hend]
      generalize rest.dropWhile (· == slash) = rest' at hnext ⊢
      generalize rest'.drop (rest'.takeWhile (· != slash)).length = rest'' at hnext ⊢
      generalize rest'.takeWhile (· != slash) = segment
      by_cases hup : segment = dotdot
      · rw [if_pos hup, if_pos hup]
        rfl
      rw [if_neg hup, if_neg hup]
      by_cases hhere : segment = dot
      · rw [if_pos hhere, if_pos hhere]
        exact ih hnext
      rw [if_neg hhere, if_neg hhere]
      by_cases hroom : writeOffset ≠ 0 ∧ writeOffset + 1 ≥ bufferLen
      · rw [if_pos hroom, if_pos hroom]
        rfl
      rw [if_neg hroom, if_neg hroom]
      generalize (if writeOffset ≠ 0 then (store buffer writeOffset slash).map fun buffer => (buffer, writeOffset + 1)
        else some (buffer, writeOffset)) = slashed
      cases slashed with
      | none => rfl
      | some st =>
          obtain ⟨buffer, writeOffset⟩ := st
          simp only [Option.bind_some]
          by_cases hfull : writeOffset + segment.length ≥ bufferLen
          · rw [if_pos hfull, if_pos hfull]
            rfl
          rw [if_neg hfull, if_neg hfull]
          cases storeMany buffer writeOffset segment with
          | none => rfl
          | some buffer => exact ih hnext

theorem not_mem_normalizeLoop {bufferLen fuel : Nat} {rest out : CStr} (hrest : (0 : UInt8) ∉ rest)
    (hout : (0 : UInt8) ∉ out) (h : normalizeLoop bufferLen fuel rest out = some s) : (0 : UInt8) ∉ s := by
  induction fuel generalizing rest out with
  | zero => cases h
  | succ fuel ih =>
      rw [normalizeLoop] at h
      have hskip : (0 : UInt8) ∉ rest.dropWhile (· == slash) :=
        fun hmem => hrest ((List.dropWhile_suffix _).mem hmem)
      simp only at h
      generalize rest.dropWhile (· == slash) = rest' at h hskip
      have hsegment : (0 : UInt8) ∉ rest'.takeWhile (· != slash) :=
        fun hmem => hskip ((List.takeWhile_prefix _).mem hmem)
      have hrest' : (0 : UInt8) ∉ rest'.drop (rest'.takeWhile (· != slash)).length :=
        fun hmem => hskip (List.mem_of_mem_drop hmem)
      generalize rest'.drop (rest'.takeWhile (· != slash)).length = rest'' at h hrest'
      generalize rest'.takeWhile (· != slash) = segment at h hsegment
      have hslashed : (0 : UInt8) ∉ (if out.length ≠ 0 then out ++ [slash] else out) := by
        have hslash : (0 : UInt8) ≠ slash := by decide
        split
        · simp [hout, hslash]
        · exact hout
      generalize (if out.length ≠ 0 then out ++ [slash] else out) = out' at h hslashed
      split at h
      · split at h
        · cases h
        · cases h
          exact hout
      · split at h
        · cases h
        · split at h
          · exact ih hrest' hout h
          · split at h
            · cases h
            · split at h
              · cases h
              · refine ih hrest' (fun hmem => ?_) h
                exact (List.mem_append.mp hmem).elim hslashed hsegment

theorem normalizeRelativePathAt_filled (path : Option StrArray) (buffer : List UInt8) :
    Filled buffer.length (normalizeRelativePath (path.map (·.str)) buffer.length)
      (normalizeRelativePathAt (path.map (·.bytes)) buffer) := by
  cases path with
  | none => exact .failed rfl
  | some path =>
      simp only [normalizeRelativePath, normalizeRelativePathAt, Option.map_some, load_head path.cstrAt_zero,
        Option.bind_some, head_slash]
      by_cases hempty : buffer.length = 0
      · simp only [hempty, ↓reduceIte, decide_true, Bool.true_or]
        exact .failed hempty
      · simp only [hempty, ↓reduceIte, decide_false, Bool.false_or]
        cases path.str.head? == some slash with
        | true => exact .failed rfl
        | false =>
            have hlt : path.str.length < path.bytes.length + 1 :=
              Nat.lt_succ_of_le (List.takeWhile_prefix _).length_le
            simp only [Bool.false_eq_true, ↓reduceIte, loop_normalizeRound path.cstrAt_zero]
            rw [normalizeLoop_eq (Nat.lt_succ_self _), ← normalizeLoop_eq hlt]
            exact @normalizeStores_filled _ _ path.str [] buffer rfl hlt

theorem not_mem_normalizeRelativePath {path : StrArray} (h : normalizeRelativePath (some path.str) n = some s) :
    (0 : UInt8) ∉ s := by
  obtain ⟨-, -, hnul⟩ := cstrAt_eq_some.mp path.cstrAt_zero
  rw [normalizeRelativePath] at h
  split at h
  · cases h
  · exact not_mem_normalizeLoop hnul List.not_mem_nil h

theorem effectiveOpenatPathAt_eq (h : bytes.Shows sh) (frame : Frame) (dirfd : Int) (path : Option StrArray) :
    ∃ effective : Option StrArray, effectiveOpenatPathAt bytes frame dirfd (path.map (·.bytes)) =
        some (effective.map (·.bytes)) ∧
      effective.map (·.str) = effectiveOpenatPath sh dirfd (path.map (·.str)) pathMax := by
  have hmax : decide (pathMax = 0) = false := by decide
  simp only [effectiveOpenatPathAt, effectiveOpenatPath, pathIsRelativeAt_eq, Option.bind_some, h.trackedAs, hmax,
    Bool.or_false]
  by_cases hplain : (!pathIsRelative (path.map (·.str)) || !sh.trackedAs dirfd .procGpusDir) = true
  · exact ⟨path, by rw [if_pos hplain], by rw [if_pos hplain]⟩
  rw [if_neg hplain, if_neg hplain]
  cases path with
  | none => exact ⟨none, rfl, rfl⟩
  | some path =>
      obtain ⟨normalized, hcall, -, hholds⟩ := normalizeRelativePathAt_filled (some path) frame.normalized.toList
      rw [frame.normalized.toList_length] at hcall hholds
      simp only [Option.map_some] at hcall hholds ⊢
      rw [hcall, Option.bind_some]
      cases hnormal : normalizeRelativePath (some path.str) pathMax with
      | none => exact ⟨some path, rfl, rfl⟩
      | some s =>
          obtain ⟨stale, rfl⟩ := hholds s hnormal
          have hs := not_mem_normalizeRelativePath hnormal
          have hwritten : (0 : UInt8) ∉ gpusPrefix ++ s := by
            rw [List.mem_append, not_or]
            exact ⟨by decide, hs⟩
          obtain ⟨buffer, hprint, -, hbuffer⟩ := snprintf_eq frame.effective.toList_length hwritten
          simp only [Option.isSome_some, Bool.not_true, Bool.false_eq_true, ↓reduceIte, cstrAt_zero_of_append hs,
            Option.bind_some, hprint, Option.map_some]
          by_cases hfull : (gpusPrefix ++ s).length ≥ pathMax
          · exact ⟨some path, by rw [if_pos hfull]; rfl, by rw [if_pos hfull]; rfl⟩
          · obtain ⟨array, rfl, hstr⟩ := exists_strArray (hbuffer (Nat.lt_of_not_le hfull))
            exact ⟨some array, by rw [if_neg hfull]; rfl, by rw [if_neg hfull, Option.map_some, hstr]⟩

end Nvscope
