import Nvscope.Lemmas.Dirents
import Nvscope.Lemmas.Paths
import Nvscope.Model.Detection

/-!
# Detection and the ways the kernel delivers data

Directories come in buffers and files in pieces. What is detected depends on the listings and the contents
alone.
-/

namespace Nvscope

open Lib DirentRecord

/-! ## Directories -/

/-- The directory has these entries, in buffers that are not empty; one that cannot be opened has none. -/
inductive Lists : Option (List (List UInt8)) → List DirentRecord → Prop where
  | opened {rss : List (List DirentRecord)} (hne : ∀ rs ∈ rss, rs ≠ []) : Lists (some (rss.map encode)) rss.flatten
  | missing : Lists none []

section

variable {σ : Type} {body : Option CStr → σ → Option σ} {f : σ → CStr → σ}

/-- Step lemma: the round at a record works on its name and goes on behind it. -/
theorem entryRound_record (hbody : ∀ name s, body (some name) s = some (f s name)) (pre tail : List UInt8)
    (r : DirentRecord) {nread : Nat} (hle : pre.length + r.bytes.length ≤ nread) (s : σ) :
    entryRound body (pre ++ (r.bytes ++ tail)) nread (pre.length, s) =
      some (.next (pre.length + r.bytes.length, f s r.name)) := by
  have hheader := r.header_lt
  have hcond : (decide (r.bytes.length = 0) || decide (pre.length + r.bytes.length > nread)) = false := by
    simp only [Bool.or_eq_false_iff, decide_eq_false_iff_not]
    exact ⟨Nat.ne_of_gt (Nat.lt_of_le_of_lt (Nat.zero_le _) hheader), Nat.not_lt_of_le hle⟩
  simp only [entryRound]
  rw [if_pos (by omega), reclenAt_append pre tail hheader, r.reclen, Option.bind_some, hcond,
    if_neg Bool.false_ne_true, cstrAt_name, hbody]
  rfl

theorem entryRound_end (buffer : List UInt8) (nread : Nat) (s : σ) :
    entryRound body buffer nread (nread, s) = some (.done (false, s)) := by
  simp only [entryRound, Nat.lt_irrefl, ↓reduceIte]

theorem loop_entries (hbody : ∀ name s, body (some name) s = some (f s name)) {rs : List DirentRecord}
    (pre stale : List UInt8) {fuel : Nat} (hfuel : rs.length < fuel) (s : σ) :
    loop (entryRound body (pre ++ (encode rs ++ stale)) (pre.length + (encode rs).length)) fuel (pre.length, s) =
      some (false, rs.foldl (fun s r => f s r.name) s) := by
  induction rs generalizing pre fuel s with
  | nil =>
      obtain ⟨fuel, rfl, -⟩ := exists_fuel hfuel
      rw [encode_nil, List.length_nil, Nat.add_zero, loop_done (entryRound_end _ _ _)]
      rfl
  | cons r rs ih =>
      obtain ⟨fuel, rfl, hleft⟩ := exists_fuel hfuel
      have hlen : pre.length + (encode (r :: rs)).length = (pre ++ r.bytes).length + (encode rs).length := by
        rw [encode_cons, List.length_append, List.length_append, Nat.add_assoc]
      have hle : pre.length + r.bytes.length ≤ pre.length + (encode (r :: rs)).length := by
        rw [hlen, List.length_append]
        exact Nat.le_add_right _ _
      have hbuffer : encode (r :: rs) ++ stale = r.bytes ++ (encode rs ++ stale) := by
        rw [encode_cons, List.append_assoc]
      have hrest := ih (pre ++ r.bytes) hleft (f s r.name)
      rw [← hlen, List.length_append, List.append_assoc] at hrest
      rw [hbuffer, loop_next (entryRound_record hbody pre _ r hle s)]
      exact hrest

theorem walkBuffer_encode (hbody : ∀ name s, body (some name) s = some (f s name)) (rs : List DirentRecord)
    (stale : List UInt8) (s : σ) :
    walkBuffer body (encode rs ++ stale) (encode rs).length s =
      some (false, rs.foldl (fun s r => f s r.name) s) := by
  have hloop := loop_entries hbody [] stale (Nat.lt_succ_of_le (length_le_encode rs)) s
  rwa [List.length_nil, Nat.zero_add] at hloop

/-- Run lemma: however the entries are split, and whatever the buffer held. -/
theorem walkDir_encode (hbody : ∀ name s, body (some name) s = some (f s name)) {rss : List (List DirentRecord)}
    (hne : ∀ rs ∈ rss, rs ≠ []) (buffer : List UInt8) (s : σ) :
    walkDir body (rss.map encode) buffer s = some (rss.flatten.foldl (fun s r => f s r.name) s) := by
  induction rss generalizing buffer s with
  | nil => rfl
  | cons rs rss ih =>
      have hpos : (encode rs).length ≠ 0 := by
        have hlen := length_le_encode rs
        have hrs := List.length_pos_iff.mpr (hne rs List.mem_cons_self)
        omega
      rw [List.map_cons, walkDir, if_neg hpos]
      simp only
      rw [walkBuffer_encode hbody, Option.bind_some, List.flatten_cons, List.foldl_append]
      exact ih (fun rs' hrs' => hne rs' (List.mem_cons_of_mem _ hrs')) _ _

end

/-- Both collecting functions: as many of the results for the entries as there are slots. -/
theorem collect_eq {α : Type} {n : Nat} {body : Option CStr → Slots α n → Option (Slots α n)}
    {g : CStr → Option α} (hfull : ∀ name s, ¬ s.count < n → body (some name) s = some s)
    (hroom : ∀ name s, s.count < n →
      ∃ s', body (some name) s = some s' ∧ s'.items = s.items ++ (g name).toList)
    {dir : Option (List (List UInt8))} {rs : List DirentRecord} (hdir : Lists dir rs) (buffer : List UInt8)
    (array : List.Vector α n) :
    ∃ s, (match dir with
      | none => some (.fresh array)
      | some chunks => walkDir body chunks buffer (.fresh array)) = some s ∧
      s.items = (rs.filterMap fun r => g r.name).take n := by
  cases hdir with
  | missing => exact ⟨_, rfl, by simp⟩
  | @opened rss hne =>
      have hbody : ∀ name s, body (some name) s = some ((body (some name) s).getD s) := by
        intro name s
        by_cases hcount : s.count < n
        · obtain ⟨s', hs', -⟩ := hroom name s hcount
          rw [hs']
          rfl
        · rw [hfull name s hcount]
          rfl
      refine ⟨_, walkDir_encode hbody hne buffer _, ?_⟩
      rw [Slots.items_foldl (g := fun r => g r.name)]
      · rw [Slots.items_fresh, List.nil_append]
      · intro s r hcount
        rw [hfull r.name s hcount]
        rfl
      · intro s r hcount
        obtain ⟨s', hs', hitems⟩ := hroom r.name s hcount
        rw [hs']
        exact hitems

/-! ## Files -/

/-- Successive positive reads of a file give its content. One that cannot be opened, or whose reading fails
before the buffer is full, is unreadable. -/
inductive Serves : Option FileReads → Option CStr → Prop where
  | read {pieces : List (List UInt8)} {failed : Bool} (positive : ∀ piece ∈ pieces, piece ≠ [])
      (late : failed = true → textBufferSize ≤ pieces.flatten.length + 1) :
      Serves (some ⟨pieces, failed⟩) (some pieces.flatten)
  | failed {pieces : List (List UInt8)} (positive : ∀ piece ∈ pieces, piece ≠ [])
      (early : pieces.flatten.length + 1 < textBufferSize) : Serves (some ⟨pieces, true⟩) none
  | missing : Serves none none

theorem readLoop_eq {bufferSize : Nat} {failed : Bool} {pieces : List (List UInt8)} {used : List UInt8}
    (hpos : ∀ piece ∈ pieces, piece ≠ []) (hused : used.length < bufferSize) :
    readLoop bufferSize failed pieces used =
      if (used ++ pieces.flatten).length + 1 < bufferSize ∧ failed = true then none
      else some ((used ++ pieces.flatten).take (bufferSize - 1)) := by
  induction pieces generalizing used with
  | nil =>
      rw [List.flatten_nil, List.append_nil, readLoop, List.take_of_length_le (Nat.le_sub_one_of_lt hused)]
      simp
  | cons piece pieces ih =>
      have hrest : ∀ piece ∈ pieces, piece ≠ [] := fun p hp => hpos p (List.mem_cons_of_mem _ hp)
      rw [readLoop, List.flatten_cons]
      by_cases hroom : used.length + 1 < bufferSize
      · have hpiece : piece.length ≠ 0 := fun h =>
          hpos piece List.mem_cons_self (List.length_eq_zero_iff.mp h)
        have hdata : (piece.take (bufferSize - used.length - 1)).length ≠ 0 := by
          rw [List.length_take]
          omega
        rw [if_pos hroom]
        simp only
        rw [if_neg hdata, ih hrest (by rw [List.length_append, List.length_take]; omega)]
        by_cases hshort : piece.length ≤ bufferSize - used.length - 1
        · rw [List.take_of_length_le hshort, List.append_assoc]
        · -- the buffer is full: what is left of the piece and of the file is not read
          have hfull : (used ++ piece.take (bufferSize - used.length - 1)).length = bufferSize - 1 := by
            rw [List.length_append, List.length_take]
            omega
          rw [if_neg (by simp only [List.length_append, List.length_take]; omega),
            if_neg (by simp only [List.length_append]; omega), List.take_left' hfull, List.take_append,
            List.take_of_length_le (by omega : used.length ≤ bufferSize - 1),
            List.take_append_of_le_length (by omega : bufferSize - 1 - used.length ≤ piece.length),
            Nat.sub_right_comm]
      · rw [if_neg hroom, if_neg (by simp only [List.length_append]; omega),
          List.take_left' (by omega : used.length = bufferSize - 1)]

theorem readFileToBuffer_eq {file : Option FileReads} {content : Option CStr} (h : Serves file content) :
    readFileToBuffer file textBufferSize =
      content.bind fun content => if content = [] then none else some (content.take 8191) := by
  have hsize : textBufferSize ≠ 0 := by decide
  cases h with
  | missing => rfl
  | @failed pieces positive early =>
      rw [readFileToBuffer, if_neg hsize, Option.bind_some, readLoop_eq positive (Nat.pos_of_ne_zero hsize),
        if_pos ⟨early, rfl⟩]
      rfl
  | @read pieces failed positive late =>
      have hcond : ¬ (([] ++ pieces.flatten).length + 1 < textBufferSize ∧ failed = true) :=
        fun hearly => Nat.not_lt_of_le (late hearly.2) hearly.1
      rw [readFileToBuffer, if_neg hsize, Option.bind_some, readLoop_eq positive (Nat.pos_of_ne_zero hsize),
        if_neg hcond, Option.bind_some, Option.bind_some, List.nil_append]
      by_cases hempty : pieces.flatten = []
      · rw [hempty]
        rfl
      · have hpos : (pieces.flatten.take (textBufferSize - 1)).length > 0 := by
          have hlen := List.length_pos_iff.mpr hempty
          have hbuffer : textBufferSize = 8192 := rfl
          rw [List.length_take]
          omega
        rw [if_pos hpos, if_neg hempty]
        rfl

/-- The files of the host: contents without a NUL, and none under a path that is too long. -/
structure Holds (host : Host) (contents : CStr → Option CStr) : Prop where
  serves : ∀ path, Serves (host.file path) (contents path)
  noNul : ∀ path content, contents path = some content → (0 : UInt8) ∉ content
  short : ∀ path, osPathMax ≤ path.length → contents path = none

/-! ## What is detected -/

/-- N, for a name of the form nvidiaN. -/
def nvidiaMinor (name : CStr) : Option Int32 :=
  if ascii "nvidia" <+: name ∧ IsNumeral (name.drop 6) then some (Int32.ofNat (decimal (name.drop 6)))
  else none

/-- What the parser finds in the first 8191 bytes of the information file of an entry. -/
def detectedGpu (contents : CStr → Option CStr) (name : CStr) : Option GpuInfo :=
  if name = dot ∨ name = dotdot then none
  else
    (contents (informationPath name)).bind fun content =>
      if content = [] then none
      else
        let (parsed, info) := parseGpuInformation (some (informationPath name)) (some (content.take 8191))
        if parsed then some info else none

def detectedMinors (dev : List DirentRecord) : List Int32 :=
  (dev.filterMap fun r => nvidiaMinor r.name).take 32

def detectedInfos (contents : CStr → Option CStr) (gpus : List DirentRecord) : List GpuInfo :=
  (gpus.filterMap fun r => detectedGpu contents r.name).take 32

theorem nameIsNvidiaMinor_eq (name : CStr) : nameIsNvidiaMinor name = nvidiaMinor name := by
  unfold nvidiaMinor
  by_cases hpre : ascii "nvidia" <+: name
  · obtain ⟨ds, rfl⟩ := hpre
    have hdrop : (ascii "nvidia" ++ ds).drop 6 = ds := List.drop_left' rfl
    rw [nameIsNvidiaMinor, decimalAfter_append, hdrop]
    by_cases hnum : IsNumeral ds
    · rw [if_pos hnum, if_pos ⟨List.prefix_append _ _, hnum⟩]
    · rw [if_neg hnum, if_neg fun h => hnum h.2]
  · rw [if_neg fun h => hpre h.1]
    cases h : nameIsNvidiaMinor name with
    | none => rfl
    | some minor =>
        obtain ⟨ds, rfl, -⟩ := decimalAfter_eq_some.mp h
        exact absurd (List.prefix_append _ _) hpre

theorem collectMountedMinors_eq {host : Host} {dev : List DirentRecord}
    (hdev : Lists (host.dir (ascii "/dev")) dev) (buffer : List UInt8) (array : List.Vector Int32 maxGpus) :
    ∃ minors, collectMountedMinors host buffer (.fresh array) = some minors ∧
      minors.items = detectedMinors dev := by
  refine collect_eq (fun name s hcount => ?_) (fun name s hcount => ?_) hdev buffer array
  · rw [mountedMinorEntry, dif_neg hcount]
  · rw [mountedMinorEntry, dif_pos hcount, Option.map_some, nameIsNvidiaMinor_eq]
    cases nvidiaMinor name with
    | none => exact ⟨s, rfl, (List.append_nil _).symm⟩
    | some minor => exact ⟨_, rfl, s.items_offer hcount minor true⟩

theorem takeWhile_ne_nul {bytes : List UInt8} (h : (0 : UInt8) ∉ bytes) : bytes.takeWhile (· != 0) = bytes := by
  rw [List.takeWhile_eq_self_iff]
  exact fun c hc => bne_iff_ne.mpr fun h0 => h (h0 ▸ hc)

theorem collectGpuInfos_eq {host : Host} {contents : CStr → Option CStr} {gpus : List DirentRecord}
    (hgpus : Lists (host.dir gpusDir) gpus) (hfiles : Holds host contents) (buffer : List UInt8)
    (array : List.Vector GpuInfo maxGpus) :
    ∃ infos, collectGpuInfos host buffer (.fresh array) = some infos ∧
      infos.items = detectedInfos contents gpus := by
  refine collect_eq (fun name s hcount => ?_) (fun name s hcount => ?_) hgpus buffer array
  · rw [gpuInfoEntry, Option.map_some, dif_neg fun h => hcount h.2.2]
  · have hskip : ∃ s', some s = some s' ∧ s'.items = s.items ++ (none : Option GpuInfo).toList :=
      ⟨s, rfl, (List.append_nil _).symm⟩
    rw [gpuInfoEntry, Option.map_some, detectedGpu]
    by_cases hdots : name = dot ∨ name = dotdot
    · rw [dif_neg fun h => hdots.elim h.1 h.2.1, if_pos hdots]
      exact hskip
    · rw [dif_pos ⟨fun h => hdots (Or.inl h), fun h => hdots (Or.inr h), hcount⟩, if_neg hdots]
      by_cases hfits : (informationPath name).length < osPathMax
      · simp only [hfits, ↓reduceIte, readFileToBuffer_eq (hfiles.serves (informationPath name))]
        cases hcontent : contents (informationPath name) with
        | none => exact hskip
        | some content =>
            by_cases hempty : content = []
            · simp only [Option.bind_some, hempty, ↓reduceIte]
              exact hskip
            · have htext : (content.take 8191).takeWhile (· != 0) = content.take 8191 :=
                takeWhile_ne_nul fun h => hfiles.noNul _ _ hcontent (List.mem_of_mem_take h)
              simp only [Option.bind_some, hempty, ↓reduceIte, htext]
              refine ⟨_, rfl, ?_⟩
              rw [s.items_offer hcount]
              cases (parseGpuInformation (some (informationPath name)) (some (content.take 8191))).1 <;> rfl
      · simp only [hfits, ↓reduceIte, hfiles.short _ (Nat.le_of_not_lt hfits)]
        exact hskip

theorem procFilterRuntimeInit_selection {host : Host} {dev gpus : List DirentRecord}
    {contents : CStr → Option CStr} (hdev : Lists (host.dir (ascii "/dev")) dev)
    (hgpus : Lists (host.dir gpusDir) gpus) (hfiles : Holds host contents) (locals : Locals)
    (explicitUuid : Option CStr) : procFilterRuntimeInit host locals explicitUuid =
      some (selection (detectedInfos contents gpus) (detectedMinors dev) explicitUuid) := by
  obtain ⟨minors, hminors, hm⟩ := collectMountedMinors_eq hdev locals.devBuffer locals.mountedMinors
  obtain ⟨infos, hinfos, hi⟩ := collectGpuInfos_eq hgpus hfiles locals.dirBuffer locals.infos
  rw [procFilterRuntimeInit, hminors, Option.bind_some, hinfos, Option.map_some, hm, hi]

/-- The library starts with the selection among the GPUs that are detected. -/
theorem nvfixConstructor_detected {host : Host} {dev gpus : List DirentRecord} {contents : CStr → Option CStr}
    (hdev : Lists (host.dir (ascii "/dev")) dev) (hgpus : Lists (host.dir gpusDir) gpus)
    (hfiles : Holds host contents) (locals : Locals) {runtimeInit : Option CStr → Bool × AllowedGpus}
    (hinit : ∀ explicitUuid, procFilterRuntimeInit host locals explicitUuid = some (runtimeInit explicitUuid))
    (cfg : Config) : nvfixConstructor cfg runtimeInit =
      nvfixConstructor cfg (selection (detectedInfos contents gpus) (detectedMinors dev)) := by
  have hsame : runtimeInit = selection (detectedInfos contents gpus) (detectedMinors dev) := by
    funext explicitUuid
    have hrun := hinit explicitUuid
    rw [procFilterRuntimeInit_selection hdev hgpus hfiles, Option.some.injEq] at hrun
    exact hrun.symm
  rw [hsame]

/-- What `nvfix_proc_filter_runtime_init` returns and stores depends on the listings and on the contents of the
files alone. -/
theorem procFilterRuntimeInit_eq {host : Host} {dev gpus : List DirentRecord} {contents : CStr → Option CStr}
    (hdev : Lists (host.dir (ascii "/dev")) dev) (hgpus : Lists (host.dir gpusDir) gpus)
    (hfiles : Holds host contents) (locals : Locals) (explicitUuid : Option CStr) :
    let allowed := buildAllowedGpus (detectedInfos contents gpus) (detectedMinors dev) explicitUuid
    procFilterRuntimeInit host locals explicitUuid = some (allowed.valid, allowed) :=
  procFilterRuntimeInit_selection hdev hgpus hfiles locals explicitUuid

/-! ## A host whose directories and files come in parts -/

def splitDev : List (List DirentRecord) :=
  [[direntOf (ascii "null") (by decide)], [direntOf (ascii "nvidia0") (by decide)]]

def splitGpus : List (List DirentRecord) :=
  [[direntOf (ascii "0000:0b:00.0") (by decide)], [direntOf (ascii "0000:0a:00.0") (by decide)]]

def splitFile : List (List UInt8) :=
  [ascii "Bus Location: 0000:0a:00.0\nDevice Mi", ascii "nor: 0\n"]

/-- The file of the second GPU cannot be opened. -/
def splitHost : Host where
  dir path := if path = ascii "/dev" then some (splitDev.map encode)
    else if path = gpusDir then some (splitGpus.map encode) else none
  file path := if path = informationPath (ascii "0000:0a:00.0") then some ⟨splitFile, false⟩ else none

def splitContents (path : CStr) : Option CStr :=
  if path = informationPath (ascii "0000:0a:00.0") then some splitFile.flatten else none

theorem splitHost_holds : Holds splitHost splitContents where
  serves path := by
    unfold splitHost splitContents
    by_cases hpath : path = informationPath (ascii "0000:0a:00.0")
    · simp only [hpath, ↓reduceIte]
      exact .read (by decide) (fun h => absurd h Bool.false_ne_true)
    · simp only [hpath, ↓reduceIte]
      exact .missing
  noNul path content h := by
    unfold splitContents at h
    split at h
    · cases h; decide
    · cases h
  short path h := by
    unfold splitContents
    by_cases hpath : path = informationPath (ascii "0000:0a:00.0")
    · rw [hpath] at h
      exact absurd h (by decide)
    · rw [if_neg hpath]

def blankLocals : Locals where
  devBuffer := []
  dirBuffer := []
  mountedMinors := List.Vector.replicate maxGpus 0
  infos := List.Vector.replicate maxGpus zeroGpuInfo

theorem procFilterRuntimeInit_splitHost :
    (procFilterRuntimeInit splitHost blankLocals none).map (fun r => r.2.gpus) =
      some [⟨true, 0, ascii "0000:0a:00.0", []⟩] := by
  have hgpus : Lists (splitHost.dir gpusDir) splitGpus.flatten := .opened (by decide +kernel)
  rw [procFilterRuntimeInit_eq (.opened (by decide +kernel) : Lists (splitHost.dir (ascii "/dev")) splitDev.flatten)
    hgpus splitHost_holds]
  decide +kernel

end Nvscope
