import Nvscope.Lemmas.DetectionBytes

/-!
# Detection and decision, byte by byte

The code works on `char` arrays that are written over and over: the text of one information file over that of the
one before, a value over the value of an earlier line. None of it is seen: the arrays hold the strings of the model.
-/

namespace Nvscope

open Lib

variable {n : Nat}

/-! ## Files -/

/-- What the read loop leaves: the bytes read, at the front of the buffer. -/
theorem readLoopAt_eq (failed : Bool) (used : List UInt8) {rest : List UInt8} (pieces : List (List UInt8))
    (hlen : (used ++ rest).length = n) (hroom : used.length < n) :
    ∃ r buffer, readLoopAt n failed pieces (used ++ rest) used.length = some (r, buffer) ∧ buffer.length = n ∧
      Option.Rel (fun count bytes => count = bytes.length ∧ bytes.length < n ∧ ∃ rest', buffer = bytes ++ rest') r
        (readLoop n failed pieces used) := by
  induction pieces generalizing used rest with
  | nil =>
      refine ⟨_, _, rfl, hlen, ?_⟩
      rw [readLoop]
      split
      · exact .none
      · exact .some ⟨rfl, hroom, rest, rfl⟩
  | cons piece pieces ih =>
      rw [readLoop, readLoopAt]
      by_cases hfull : used.length + 1 < n
      · simp only [hfull, ↓reduceIte]
        have hsize : (piece.take (n - used.length - 1)).length ≤ n - used.length - 1 := List.length_take_le _ _
        generalize piece.take (n - used.length - 1) = data at hsize
        rw [List.length_append] at hlen
        have hstore := @storeMany_append _ used rest data (by omega)
        simp only [hstore, Option.bind_some]
        by_cases hempty : data.length = 0
        · obtain rfl := List.length_eq_zero_iff.mp hempty
          refine ⟨some used.length, used ++ rest, by simp, by simpa using hlen, ?_⟩
          simp only [List.length_nil, ↓reduceIte]
          exact .some ⟨rfl, hroom, rest, rfl⟩
        · simp only [hempty, ↓reduceIte]
          have hnext := @ih (used ++ data) (rest.drop data.length)
            (by simp only [List.length_append, List.length_drop]; omega) (by simp only [List.length_append]; omega)
          rwa [List.length_append, List.append_assoc] at hnext
      · simp only [hfull, ↓reduceIte]
        exact ⟨_, _, rfl, hlen, .some ⟨rfl, hroom, rest, rfl⟩⟩

theorem readFileToBufferAt_eq {buffer : List UInt8} (file : Option FileReads) (hlen : buffer.length = n) :
    ∃ buffer', readFileToBufferAt file buffer n = some ((readFileToBuffer file n).isSome, buffer') ∧
      buffer'.length = n ∧ ∀ bytes, readFileToBuffer file n = some bytes → ∃ rest, buffer' = bytes ++ 0 :: rest := by
  by_cases hempty : n = 0
  · exact ⟨buffer, by simp [readFileToBufferAt, readFileToBuffer, hempty], hlen, by simp [readFileToBuffer, hempty]⟩
  cases file with
  | none => exact ⟨buffer, by simp [readFileToBufferAt, readFileToBuffer, hempty], hlen, by simp [readFileToBuffer, hempty]⟩
  | some file =>
      obtain ⟨r, buffer', hloop, hlen', hrel⟩ := readLoopAt_eq file.failed [] file.pieces hlen
        (Nat.pos_of_ne_zero hempty)
      simp only [List.nil_append, List.length_nil] at hloop
      simp only [readFileToBufferAt, readFileToBuffer, hempty, ↓reduceIte, hloop, Option.bind_some]
      cases hread : readLoop n file.failed file.pieces [] with
      | none =>
          rw [hread] at hrel
          cases hrel
          exact ⟨buffer', rfl, hlen', fun bytes h => by cases h⟩
      | some bytes =>
          rw [hread] at hrel
          cases hrel with
          | some hbytes =>
              obtain ⟨rfl, hlt, rest, rfl⟩ := hbytes
              obtain ⟨free, hstore, hfree⟩ := exists_store_append hlen' hlt 0
              refine ⟨bytes ++ 0 :: free, ?_, hfree, ?_⟩
              · simp only [hstore, Option.map_some, Option.bind_some]
                split <;> simp_all
              · intro bytes' h
                simp only [Option.bind_some] at h
                split at h
                · cases h
                  exact ⟨free, rfl⟩
                · cases h

/-! ## Collecting -/

/-- The arrays while the results so far are those of the model. -/
structure Collecting.Alike (st : Collecting) (infos : Slots GpuInfo maxGpus) : Prop where
  text : st.text.length = textBufferSize
  path : st.path.length = osPathMax
  count : st.infos.count = infos.count
  items : List.Forall₂ GpuInfoBytes.Shows st.infos.items infos.items

theorem alike_start (found : FoundArrays) (infos : List.Vector GpuInfo maxGpus) :
    found.start.Alike (.fresh infos) where
  text := found.text.toList_length
  path := found.path.toList_length
  count := rfl
  items := by
    simp only [FoundArrays.start, Slots.items_fresh]
    exact .nil

/-- A result is written to the first free slot, which is taken where the parser succeeded. -/
theorem Collecting.Alike.offer {st : Collecting} {infos : Slots GpuInfo maxGpus} {parsed : Bool × GpuInfoBytes}
    {result : Bool × GpuInfo} {text path : List UInt8} (h : st.Alike infos) (hparsed : ParsedAlike parsed result)
    (htext : text.length = textBufferSize) (hpath : path.length = osPathMax) (hst : st.infos.count < maxGpus)
    (hinfos : infos.count < maxGpus) :
    Collecting.Alike { text := text, path := path, infos := st.infos.offer hst parsed.2 parsed.1 }
      (infos.offer hinfos result.2 result.1) where
  text := htext
  path := hpath
  count := by
    simp only [Slots.offer, hparsed.1, h.count]
  items := by
    simp only [Slots.items_offer, hparsed.1]
    refine List.rel_append h.items ?_
    split
    · exact .cons hparsed.2 .nil
    · exact .nil

theorem not_mem_informationPath {name : CStr} (h : (0 : UInt8) ∉ name) : (0 : UInt8) ∉ informationPath name := by
  simp only [informationPath, List.mem_append, not_or]
  exact ⟨by decide, h, by decide⟩

theorem gpuInfoEntryAt_alike (host : Host) {name : CStr} (hname : (0 : UInt8) ∉ name) {st : Collecting}
    {infos : Slots GpuInfo maxGpus} (h : st.Alike infos) :
    Option.Rel Collecting.Alike (gpuInfoEntryAt host (some name) st) (gpuInfoEntry host (some name) infos) := by
  have hpath := not_mem_informationPath hname
  simp only [gpuInfoEntryAt, gpuInfoEntry, Option.bind_some, Option.map_some]
  by_cases hentry : name ≠ dot ∧ name ≠ dotdot ∧ infos.count < maxGpus
  · have hentry' : name ≠ dot ∧ name ≠ dotdot ∧ st.infos.count < maxGpus := by rwa [h.count]
    rw [dif_pos hentry, dif_pos hentry']
    obtain ⟨path, hwritten, hsize, hstring⟩ := snprintf_eq h.path hpath
    rw [hwritten, Option.bind_some]
    by_cases hfits : (informationPath name).length < osPathMax
    · rw [if_pos hfits, if_pos hfits, hstring hfits, Option.bind_some]
      obtain ⟨text, hread, hsize', hcontent⟩ :=
        readFileToBufferAt_eq (host.file (informationPath name)) h.text
      rw [hread, Option.bind_some]
      cases hbytes : readFileToBuffer (host.file (informationPath name)) textBufferSize with
      | none => exact .some ⟨hsize', hsize, h.count, h.items⟩
      | some bytes =>
          obtain ⟨rest, rfl⟩ := hcontent bytes hbytes
          obtain ⟨patha, hpatha, hpaths⟩ := exists_strArray (hstring hfits)
          obtain ⟨texta, htexta, htexts⟩ := exists_strArray (cstrAt_zero_of_bytes bytes rest)
          obtain ⟨parsed, hparse, halike⟩ := parseGpuInformationAt_alike (some patha) (some texta)
          simp only [Option.map_some, hpatha, htexta, hpaths, htexts] at hparse halike
          simp only [Option.isSome_some, ↓reduceIte, hparse, Option.map_some]
          exact .some (h.offer halike hsize' hsize _ _)
    · rw [if_neg hfits, if_neg hfits]
      exact .some ⟨h.text, hsize, h.count, h.items⟩
  · have hentry' : ¬ (name ≠ dot ∧ name ≠ dotdot ∧ st.infos.count < maxGpus) := by rwa [h.count]
    rw [dif_neg hentry, dif_neg hentry']
    exact .some h

/-! ## Directories -/

section

variable {σ τ : Type} {R : σ → τ → Prop} {body : Option CStr → σ → Option σ} {body' : Option CStr → τ → Option τ}

/-- Bodies that keep up with each other on the names in the buffer keep up over the directory. -/
theorem walkDir_rel (hbody : ∀ buffer off s t, R s t →
      Option.Rel R (body (cstrAt buffer off) s) (body' (cstrAt buffer off) t))
    (chunks : List (List UInt8)) {buffer : List UInt8} {s : σ} {t : τ} (h : R s t) :
    Option.Rel R (walkDir body chunks buffer s) (walkDir body' chunks buffer t) := by
  have hround : ∀ buffer nread (a : Nat × σ) (b : Nat × τ), a.1 = b.1 ∧ R a.2 b.2 →
      Option.Rel (Round.Rel (fun (a : Nat × σ) (b : Nat × τ) => a.1 = b.1 ∧ R a.2 b.2)
        fun (a : Bool × σ) (b : Bool × τ) => a.1 = b.1 ∧ R a.2 b.2)
        (entryRound body buffer nread a) (entryRound body' buffer nread b) := by
    rintro buffer nread ⟨offset, s⟩ ⟨-, t⟩ ⟨rfl, hst⟩
    simp only [entryRound]
    split
    · cases reclenAt buffer offset with
      | none => exact .none
      | some reclen =>
          simp only [Option.bind_some]
          split
          · exact .some (.done ⟨rfl, hst⟩)
          · have hnext := hbody buffer (offset + direntHeader) s t hst
            generalize body (cstrAt buffer (offset + direntHeader)) s = x at hnext ⊢
            generalize body' (cstrAt buffer (offset + direntHeader)) t = y at hnext ⊢
            cases hnext with
            | none => exact .none
            | some hnext => exact .some (.next ⟨rfl, hnext⟩)
    · exact .some (.done ⟨rfl, hst⟩)
  induction chunks generalizing buffer s t with
  | nil => exact .some h
  | cons chunk chunks ih =>
      simp only [walkDir]
      split
      · exact .some h
      · refine rel_bind (loop_rel (hround _ chunk.length) ⟨rfl, h⟩ _) fun a b hab => ?_
        obtain ⟨stop, s⟩ := a
        obtain ⟨stop', t⟩ := b
        obtain ⟨hstop, hst⟩ := hab
        obtain rfl : stop = stop' := hstop
        cases stop with
        | true => exact .some hst
        | false => exact ih hst

end

theorem collectGpuInfosAt_alike (host : Host) (buffer : List UInt8) {st : Collecting}
    {infos : Slots GpuInfo maxGpus} (h : st.Alike infos) :
    Option.Rel Collecting.Alike (collectGpuInfosAt host buffer st) (collectGpuInfos host buffer infos) := by
  simp only [collectGpuInfosAt, collectGpuInfos]
  cases host.dir gpusDir with
  | none => exact .some h
  | some chunks =>
      refine walkDir_rel (fun buffer off st infos h => ?_) chunks h
      cases hname : cstrAt buffer off with
      | none => exact .none
      | some name =>
          obtain ⟨-, -, hnul⟩ := cstrAt_eq_some.mp hname
          exact gpuInfoEntryAt_alike host hnul h

/-! ## Selection -/

structure AllowedBytes.Shows (bytes : AllowedBytes) (allowed : AllowedGpus) : Prop where
  valid : bytes.valid = allowed.valid
  gpus : List.Forall₂ GpuInfoBytes.Shows bytes.gpus allowed.gpus

theorem isSelectedAt_eq {bytes : GpuInfoBytes} {info : GpuInfo} (h : bytes.Shows info) (mountedMinors : List Int32)
    (uuid : Option StrArray) : isSelectedAt mountedMinors (uuid.map (·.bytes)) bytes =
      some (isSelected mountedMinors (uuid.map (·.str)) info) := by
  simp only [isSelectedAt, isSelected, h.present, h.deviceMinor]
  cases info.present with
  | false => rfl
  | true =>
      cases minorIsMounted info.deviceMinor mountedMinors with
      | false => rfl
      | true =>
          cases uuid with
          | none => rfl
          | some uuid =>
              obtain ⟨c, hload, hc⟩ := load_zero uuid.cstrAt_zero
              have hcmp := strcmp_eq h.uuid uuid.cstrAt_zero
              simp only [Option.map_some, hload, Option.bind_some, hcmp, bne, hc]
              cases uuid.str == [] <;> rfl

theorem AllowedBytes.Shows.push {bytes : AllowedBytes} {allowed : AllowedGpus} {gpu : GpuInfoBytes} {info : GpuInfo}
    (h : bytes.Shows allowed) (hgpu : gpu.Shows info) (hbytes : bytes.gpus.length < maxGpus)
    (hallowed : allowed.gpus.length < maxGpus) : (bytes.push gpu hbytes).Shows (allowed.push info hallowed) where
  valid := h.valid
  gpus := List.rel_append h.gpus (.cons hgpu .nil)

theorem buildLoopAt_shows {bytes : List GpuInfoBytes} {infos : List GpuInfo}
    (h : List.Forall₂ GpuInfoBytes.Shows bytes infos) (mountedMinors : List Int32) (uuid : Option StrArray)
    {acc : AllowedBytes} {allowed : AllowedGpus} (hacc : acc.Shows allowed) :
    ∃ acc', buildLoopAt mountedMinors (uuid.map (·.bytes)) bytes acc = some acc' ∧
      acc'.Shows (buildLoop mountedMinors (uuid.map (·.str)) infos allowed) := by
  induction h generalizing acc allowed with
  | nil => exact ⟨acc, rfl, hacc⟩
  | @cons gpu info bytes infos hgpu _ ih =>
      have hlen := hacc.gpus.length_eq
      rw [buildLoopAt, buildLoop]
      by_cases hroom : allowed.gpus.length < maxGpus
      · have hroom' : acc.gpus.length < maxGpus := by rwa [hlen]
        rw [dif_pos hroom, dif_pos hroom', isSelectedAt_eq hgpu, Option.bind_some]
        cases isSelected mountedMinors (uuid.map (·.str)) info with
        | true => exact ih (hacc.push hgpu hroom' hroom)
        | false => exact ih hacc
      · have hroom' : ¬ acc.gpus.length < maxGpus := by rwa [hlen]
        rw [dif_neg hroom, dif_neg hroom']
        exact ⟨acc, rfl, hacc⟩

theorem buildAllowedGpusAt_shows {bytes : List GpuInfoBytes} {infos : List GpuInfo}
    (h : List.Forall₂ GpuInfoBytes.Shows bytes infos) (mountedMinors : List Int32) (uuid : Option StrArray) :
    ∃ acc, buildAllowedGpusAt bytes mountedMinors (uuid.map (·.bytes)) = some acc ∧
      acc.Shows (buildAllowedGpus infos mountedMinors (uuid.map (·.str))) := by
  rw [buildAllowedGpusAt, buildAllowedGpus, h.length_eq]
  split
  · exact ⟨_, rfl, rfl, .nil⟩
  · obtain ⟨acc, hloop, hshows⟩ := buildLoopAt_shows h mountedMinors uuid
      (show AllowedBytes.empty.Shows AllowedGpus.empty from ⟨rfl, .nil⟩)
    refine ⟨{ acc with valid := 0 < acc.gpus.length }, by rw [hloop]; rfl, ?_, hshows.gpus⟩
    simp only [hshows.gpus.length_eq]

/-! ## Decision -/

theorem containsBusLoop_eq {busId : List UInt8} {b : CStr} (hb : cstrAt busId 0 = some b) {bytes : List GpuInfoBytes}
    {gpus : List GpuInfo} (h : List.Forall₂ GpuInfoBytes.Shows bytes gpus) :
    containsBusLoop busId bytes = some (gpus.any (·.busId == b)) := by
  induction h with
  | nil => rfl
  | cons hgpu _ ih =>
      rw [containsBusLoop, strcmp_eq hgpu.busId hb, Option.bind_some, List.any_cons, ih]
      split
      · rename_i hsame
        rw [hsame]
        rfl
      · rename_i hsame
        rw [Bool.not_eq_true] at hsame
        rw [hsame]
        rfl

theorem allowedContainsBusAt_eq {bytes : AllowedBytes} {allowed : AllowedGpus} (h : bytes.Shows allowed)
    {busId : List UInt8} {b : CStr} (hb : cstrAt busId 0 = some b) :
    allowedContainsBusAt bytes busId = some (allowedContainsBus (some allowed) (some b)) := by
  obtain ⟨c, hload, hc⟩ := load_zero hb
  simp only [allowedContainsBusAt, allowedContainsBus, h.valid, hload, Option.bind_some, hc,
    containsBusLoop_eq hb h.gpus]
  cases allowed.valid with
  | false => rfl
  | true => cases b == [] <;> rfl

theorem procPathAllowedAt_eq {bytes : Option AllowedBytes} {allowed : Option AllowedGpus}
    (h : Option.Rel AllowedBytes.Shows bytes allowed) (path : Option StrArray)
    (busId : List.Vector UInt8 procBusIdMax) :
    procPathAllowedAt bytes (path.map (·.bytes)) busId = some (procPathAllowed allowed (path.map (·.str))) := by
  cases path with
  | none => rfl
  | some path =>
      have hdir : cstrAt (literal gpusDir) 0 = some gpusDir := cstrAt_literal (by decide)
      simp only [procPathAllowedAt, procPathAllowed, Option.map_some, strcmp_eq path.cstrAt_zero hdir, Option.bind_some,
        reduceCtorEq, ↓reduceIte, Option.some.injEq, beq_iff_eq]
      split
      · rfl
      · obtain ⟨busId', hextract, hstored⟩ := extractProcBusInto_eq busId.toList_length path.cstrAt_zero
        rw [hextract, Option.bind_some]
        cases hfound : extractProcBus (some path.str) procBusIdMax with
        | none => rfl
        | some b =>
            rw [hfound] at hstored
            cases h with
            | none => rfl
            | some hshows =>
                have hcontains := allowedContainsBusAt_eq hshows (b := b) (by simpa using hstored.holds)
                simp only [Option.isSome_some, Bool.not_true, Bool.false_eq_true, ↓reduceIte, hshows.valid, hcontains,
                  Option.map_some]
                split <;> rfl

/-! ## From the files to the decisions -/

theorem procFilterRuntimeInitAt_shows (host : Host) (locals : Locals) (found : FoundArrays) (uuid : Option StrArray) :
    Option.Rel (fun bytes st => bytes.1 = st.1 ∧ bytes.2.Shows st.2)
      (procFilterRuntimeInitAt host locals found (uuid.map (·.bytes)))
      (procFilterRuntimeInit host locals (uuid.map (·.str))) := by
  simp only [procFilterRuntimeInitAt, procFilterRuntimeInit]
  cases collectMountedMinors host locals.devBuffer (.fresh locals.mountedMinors) with
  | none => exact .none
  | some minors =>
      have hcollect := collectGpuInfosAt_alike host locals.dirBuffer (alike_start found locals.infos)
      simp only [Option.bind_some]
      generalize collectGpuInfosAt host locals.dirBuffer found.start = x at hcollect ⊢
      generalize collectGpuInfos host locals.dirBuffer (.fresh locals.infos) = y at hcollect ⊢
      cases hcollect with
      | none => exact .none
      | some h =>
          obtain ⟨bytes, hbuild, hshows⟩ := buildAllowedGpusAt_shows h.items minors.items uuid
          simp only [Option.bind_some, Option.map_some, hbuild]
          exact .some ⟨hshows.valid, hshows⟩

/-- The library after its start, in memory and in the model: the strings are the same, and so are all decisions. -/
structure StartedAlike (bytes : Bool × AllowedBytes) (st : Bool × AllowedGpus) : Prop where
  ready : bytes.1 = st.1
  allowed : bytes.2.Shows st.2
  decides (path : Option StrArray) (busId : List.Vector UInt8 procBusIdMax) :
    procPathAllowedAt (some bytes.2) (path.map (·.bytes)) busId =
      some (procPathAllowed (some st.2) (path.map (·.str)))

/-- Whatever the kernel answers and whatever the arrays hold before: from the information files to the decision on
a path no load or store of the detection leaves its array, unless a directory entry has its `d_reclen` or a part of
its name outside the directory buffer, and the bytes decide every path as the strings of the model do. -/
theorem detection_exact (host : Host) (locals : Locals) (found : FoundArrays) (uuid : Option StrArray) :
    Option.Rel StartedAlike (procFilterRuntimeInitAt host locals found (uuid.map (·.bytes)))
      (procFilterRuntimeInit host locals (uuid.map (·.str))) := by
  refine rel_mono (procFilterRuntimeInitAt_shows host locals found uuid) fun bytes st h => ?_
  exact ⟨h.1, h.2, procPathAllowedAt_eq (.some h.2)⟩

end Nvscope
