import Nvscope.Lemmas.Selection
import Nvscope.Theorems.Detection
import Nvscope.Theorems.Information

/-!
# Information files that do not fit into the buffer

The reader stops when its buffer is full, without a word. What the parser finds then is what the whole file
says if and only if the lines whose end was not read say nothing else.
-/

namespace Nvscope

open Lib

variable {path : Option CStr} {key : CStr} {whole late : List CStr} {info : GpuInfo}

/-- The lines of which the buffer does not hold the end: the one that is cut, and those behind it. -/
def lateLines (content : CStr) : List CStr :=
  (textLines content).drop ((content.take 8191).count newline)

/-- No value of the lines is rejected, and the last value of each key, if it has one there, is that of the
structure. -/
structure SaysNothingElse (lines : List CStr) (info : GpuInfo) : Prop where
  good : GoodValues lines
  uuid : ∀ v, (values uuidKey lines).getLast? = some v → v = info.uuid
  busId : ∀ v, (values busKey lines).getLast? = some v → v = info.busId
  minor : ∀ ds, (values minorKey lines).getLast? = some ds → (decimal ds : Int) = info.deviceMinor.toInt

/-! ## The cut line -/

theorem prefix_dropReturn {line : CStr} (hkey : key.getLast? ≠ some carriageReturn) (h : key <+: line) :
    key <+: dropReturn line := by
  obtain ⟨rest, rfl⟩ := h
  unfold dropReturn
  cases rest with
  | nil => simp only [List.append_nil, hkey, ↓reduceIte, List.prefix_rfl]
  | cons c cs =>
      split
      · rw [List.dropLast_append_of_ne_nil (List.cons_ne_nil c cs)]
        exact List.prefix_append _ _
      · exact List.prefix_append _ _

theorem dropReturn_isPrefix (line : CStr) : dropReturn line <+: line := by
  unfold dropReturn
  split
  · exact List.dropLast_prefix line
  · exact List.prefix_rfl

/-- A key at the start of the cut line is at the start of the whole line, too. -/
theorem values_ne_nil_of_cut {cut : CStr} (rest : CStr) (hcut : newline ∉ cut)
    (hkey : key.getLast? ≠ some carriageReturn) (h : values key [dropReturn cut] ≠ []) :
    values key (textLines (cut ++ rest)) ≠ [] := by
  obtain ⟨first, more, hsplit, hpre⟩ := prefix_splitOn hcut rest
  have hstart : key <+: dropReturn cut := by
    by_contra hno
    exact h (values_eq_nil.mpr fun line hline => by rwa [List.mem_singleton.mp hline])
  intro hnone
  have hfirst : dropReturn first ∈ textLines (cut ++ rest) := by
    rw [textLines, hsplit]
    exact List.mem_cons_self
  exact values_eq_nil.mp hnone _ hfirst
    (prefix_dropReturn hkey ((hstart.trans (dropReturn_isPrefix cut)).trans hpre))

/-- A text and a text that goes on behind it. -/
theorem textLines_append (text rest : CStr) :
    ∃ whole cut, newline ∉ cut ∧ whole.length = text.count newline ∧
      textLines text = whole ++ [dropReturn cut] ∧ textLines (text ++ rest) = whole ++ textLines (cut ++ rest) := by
  obtain ⟨before, last, hsplit, hlast, hlen, happend⟩ := splitOn_append newline text
  refine ⟨before.map dropReturn, last, hlast, ?_, ?_, ?_⟩
  · rw [List.length_map, hlen]
  · rw [textLines, hsplit, List.map_append]
    rfl
  · rw [textLines, happend, List.map_append, textLines]

/-! ## What the late lines change -/

theorem values_append (key : CStr) (lines lines' : List CStr) :
    values key (lines ++ lines') = values key lines ++ values key lines' :=
  List.filterMap_append

theorem goodValues_append {lines lines' : List CStr} :
    GoodValues (lines ++ lines') ↔ GoodValues lines ∧ GoodValues lines' := by
  constructor
  · rintro ⟨huuid, hbus, hminor⟩
    simp only [values_append, List.forall_mem_append] at huuid hbus hminor
    exact ⟨⟨huuid.1, hbus.1, hminor.1⟩, ⟨huuid.2, hbus.2, hminor.2⟩⟩
  · rintro ⟨h, h'⟩
    constructor
    all_goals simp only [values_append, List.forall_mem_append]
    · exact ⟨h.uuid, h'.uuid⟩
    · exact ⟨h.bus, h'.bus⟩
    · exact ⟨h.minor, h'.minor⟩

theorem getLast_values_append (key : CStr) (lines lines' : List CStr) :
    (values key (lines ++ lines')).getLast? =
      (values key lines').getLast?.or (values key lines).getLast? := by
  rw [values_append, List.getLast?_append]

/-- With a key that the late lines do not have, the cut line has no value either. -/
theorem getLast_values_cut {cut : CStr} (h : values key [cut] ≠ [] → values key late ≠ [])
    (hnone : (values key late).getLast? = none) :
    (values key (whole ++ late)).getLast? = (values key (whole ++ [cut])).getLast? := by
  have hcut : values key [cut] = [] := by
    by_contra hne
    exact h hne (List.getLast?_eq_none_iff.mp hnone)
  rw [getLast_values_append, getLast_values_append, hnone, hcut]
  rfl

/-- On a file whose buffered part is accepted. -/
theorem reads_late_iff {cut : CStr} (hcut : ∀ key ∈ [uuidKey, busKey, minorKey], values key [cut] ≠ [] →
      values key late ≠ []) (h : Reads path (whole ++ [cut]) info) :
    Reads path (whole ++ late) info ↔ SaysNothingElse late info := by
  constructor
  · rintro ⟨hgood, ⟨ds, hlast, hminor⟩, hbus, huuid, -⟩
    have hlate := (goodValues_append.mp hgood).2
    simp only [getLast_values_append] at hlast hbus huuid
    refine ⟨hlate, fun v hv => ?_, fun v hv => ?_, fun v hv => ?_⟩
    · rw [huuid, hv]
      rfl
    · rcases hbus with hbus | ⟨hnone, -⟩
      · rw [hv] at hbus
        cases hbus
        rfl
      · rw [values_append] at hnone
        rw [(List.append_eq_nil_iff.mp hnone).2] at hv
        cases hv
    · rw [hv] at hlast
      cases hlast
      rw [hminor, toInt_decimal (hlate.minor _ (List.mem_of_getLast? hv))]
  · rintro ⟨hgood, huuid, hbus, hminor⟩
    refine ⟨goodValues_append.mpr ⟨(goodValues_append.mp h.good).1, hgood⟩, ?_, ?_, ?_, h.present⟩
    · cases hv : (values minorKey late).getLast? with
      | none =>
          rw [getLast_values_cut (hcut minorKey (by simp)) hv]
          exact h.minor
      | some ds =>
          rw [getLast_values_append, hv]
          refine ⟨ds, rfl, ?_⟩
          rw [← Int32.toInt_inj, ← hminor ds hv, toInt_decimal (hgood.minor ds (List.mem_of_getLast? hv))]
    · cases hv : (values busKey late).getLast? with
      | none =>
          rw [getLast_values_cut (hcut busKey (by simp)) hv]
          refine h.busId.imp id fun hpath => ⟨?_, hpath.2⟩
          rw [← List.getLast?_eq_none_iff, getLast_values_cut (hcut busKey (by simp)) hv, hpath.1]
          rfl
      | some v =>
          left
          rw [getLast_values_append, hv, hbus v hv]
          rfl
    · cases hv : (values uuidKey late).getLast? with
      | none =>
          rw [getLast_values_cut (hcut uuidKey (by simp)) hv]
          exact h.uuid
      | some v =>
          rw [getLast_values_append, hv, ← huuid v hv]
          rfl

/-! ## Empty lines in front -/

theorem parse_emptyLines (path : Option CStr) (n : Nat) (text : CStr) :
    parseGpuInformation path (some (List.replicate n newline ++ text)) = parseGpuInformation path (some text) := by
  simp only [parseGpuInformation, scanLines_replicate parseGpuLine_nil]

theorem textLines_emptyLines (n : Nat) (text : CStr) :
    textLines (List.replicate n newline ++ text) = List.replicate n [] ++ textLines text := by
  induction n with
  | zero => rfl
  | succ n ih =>
      have hnil : newline ∉ ([] : CStr) := List.not_mem_nil
      have hsplit := List.splitOn_append_cons_self_of_not_mem hnil (List.replicate n newline ++ text)
      rw [List.nil_append] at hsplit
      rw [List.replicate_succ, List.cons_append, textLines, hsplit, List.map_cons, ← textLines, ih]
      rfl

/-- Of what stands behind so many of them, fifteen bytes fit. -/
theorem take_emptyLines (text : CStr) :
    (List.replicate 8176 newline ++ text).take 8191 = List.replicate 8176 newline ++ text.take 15 := by
  have hlen : (List.replicate 8176 newline).length = 8176 := List.length_replicate
  rw [List.take_append, hlen, List.take_of_length_le (by rw [hlen]; decide)]

theorem lateLines_emptyLines {text : CStr} (h : newline ∉ text.take 15) :
    lateLines (List.replicate 8176 newline ++ text) = textLines text := by
  have hcount : (List.replicate 8176 newline ++ text.take 15).count newline = 8176 := by
    rw [List.count_append, List.count_replicate_self, List.count_eq_zero.mpr h]
  rw [lateLines, take_emptyLines, hcount, textLines_emptyLines, List.drop_left' List.length_replicate]

theorem serves_piece {content : CStr} (hne : content ≠ []) : Serves (some ⟨[content], false⟩) (some content) := by
  have hflat : [content].flatten = content := by
    rw [List.flatten_cons, List.flatten_nil, List.append_nil]
  have hpieces : ∀ piece ∈ [content], piece ≠ [] := fun piece hmem => by rwa [List.mem_singleton.mp hmem]
  have hread := @Serves.read [content] false hpieces fun hf => absurd hf Bool.false_ne_true
  rwa [hflat] at hread

theorem read_piece {content : CStr} (hne : content ≠ []) :
    readFileToBuffer (some ⟨[content], false⟩) textBufferSize = some (content.take 8191) := by
  rw [readFileToBuffer_eq (serves_piece hne), Option.bind_some, if_neg hne]

/-- The buffer ends with the number. -/
def lateContent : CStr :=
  List.replicate 8176 newline ++ ascii "Device Minor: 1\nIRQ: 5\n"

theorem saysNothingElse_lateContent :
    SaysNothingElse (lateLines lateContent) ⟨true, 1, ascii "0000:04:00.0", []⟩ := by
  have huuid : values uuidKey (textLines (ascii "Device Minor: 1\nIRQ: 5\n")) = [] := by decide +kernel
  have hbus : values busKey (textLines (ascii "Device Minor: 1\nIRQ: 5\n")) = [] := by decide +kernel
  have hminor : values minorKey (textLines (ascii "Device Minor: 1\nIRQ: 5\n")) = [ascii "1"] := by decide +kernel
  rw [lateContent, lateLines_emptyLines (by decide +kernel)]
  refine ⟨⟨?_, ?_, ?_⟩, fun v hv => ?_, fun v hv => ?_, fun v hv => ?_⟩
  · rw [huuid]
    exact List.forall_mem_nil _
  · rw [hbus]
    exact List.forall_mem_nil _
  · rw [hminor]
    decide +kernel
  · rw [huuid] at hv
    cases hv
  · rw [hbus] at hv
    cases hv
  · rw [hminor] at hv
    cases hv
    decide

/-! ## The whole file -/

/-- The two structures describe the same GPU. -/
structure SameGpu (info info' : GpuInfo) : Prop where
  minor : info.deviceMinor = info'.deviceMinor
  busId : info.busId = info'.busId
  uuid : info.uuid = info'.uuid

theorem parse_take_iff {content : CStr}
    (h : parseGpuInformation path (some (content.take 8191)) = (true, info)) :
    (∃ info', parseGpuInformation path (some content) = (true, info') ∧ SameGpu info' info) ↔
      SaysNothingElse (lateLines content) info := by
  obtain ⟨whole, cut, hcut, hlen, hkept, hall⟩ := textLines_append (content.take 8191) (content.drop 8191)
  rw [List.take_append_drop] at hall
  have hlate : lateLines content = textLines (cut ++ content.drop 8191) := by
    rw [lateLines, hall, ← hlen, List.drop_left' rfl]
  have hkeys : ∀ key ∈ [uuidKey, busKey, minorKey], values key [dropReturn cut] ≠ [] →
      values key (textLines (cut ++ content.drop 8191)) ≠ [] := by
    intro key hkey
    have hlast : ∀ key ∈ [uuidKey, busKey, minorKey], key.getLast? ≠ some carriageReturn := by decide
    exact values_ne_nil_of_cut (content.drop 8191) hcut (hlast key hkey)
  rw [parse_eq_true_iff, hkept] at h
  rw [hlate, ← reads_late_iff hkeys h, ← hall, ← parse_eq_true_iff]
  constructor
  · rintro ⟨info', hparse, hsame⟩
    have hpresent := (parse_eq_true_iff.mp hparse).present
    have heq : info' = info := by
      cases info
      cases info'
      cases hsame.minor
      cases hsame.busId
      cases hsame.uuid
      cases hpresent
      cases h.present
      rfl
    rwa [heq] at hparse
  · exact fun hparse => ⟨info, hparse, rfl, rfl, rfl⟩

/-- When the file is read without an error and what is read of it is accepted, the whole content describes the
same GPU if and only if the lines whose end was not read say nothing else; a content that fits is read as a
whole. -/
theorem truncated_describes_iff (path : CStr) {file : Option FileReads} {content text : CStr}
    (hfile : Serves file (some content)) (hnul : (0 : UInt8) ∉ content)
    (hread : readFileToBuffer file textBufferSize = some text)
    (hparse : parseGpuInformation (some path) (some (text.takeWhile (· != 0))) = (true, info)) :
    ((∃ info', parseGpuInformation (some path) (some content) = (true, info') ∧ SameGpu info' info) ↔
      SaysNothingElse (lateLines content) info) ∧
    (content.length ≤ 8191 → parseGpuInformation (some path) (some content) = (true, info)) := by
  rw [readFileToBuffer_eq hfile, Option.bind_some] at hread
  split at hread
  · cases hread
  · cases hread
    have htext : (content.take 8191).takeWhile (· != 0) = content.take 8191 :=
      takeWhile_ne_nul fun h => hnul (List.mem_of_mem_take h)
    rw [htext] at hparse
    refine ⟨parse_take_iff hparse, fun hfits => ?_⟩
    rwa [List.take_of_length_le hfits] at hparse

/-- The reader stops at the end of a line, and the field behind it is none of the three. -/
theorem truncated_describes_lateContent : 8191 < lateContent.length ∧
    ∃ info', parseGpuInformation (some (informationPath (ascii "0000:04:00.0"))) (some lateContent) = (true, info') ∧
      SameGpu info' ⟨true, 1, ascii "0000:04:00.0", []⟩ := by
  have hne : lateContent ≠ [] := List.append_ne_nil_of_right_ne_nil _ (by decide)
  have hnul : (0 : UInt8) ∉ lateContent := by
    rw [lateContent, List.mem_append, List.mem_replicate]
    decide
  have hkept : (lateContent.take 8191).takeWhile (· != 0) = List.replicate 8176 newline ++ ascii "Device Minor: 1" := by
    rw [takeWhile_ne_nul fun hmem => hnul (List.mem_of_mem_take hmem), lateContent, take_emptyLines]
    rfl
  refine ⟨by rw [lateContent, List.length_append, List.length_replicate]; decide, ?_⟩
  refine (truncated_describes_iff _ (serves_piece hne) hnul (read_piece hne) ?_).1.mpr saysNothingElse_lateContent
  rw [hkept, parse_emptyLines]
  decide +kernel

/-! ## A file that is cut inside a number -/

/-- The last byte of the number is the first that does not fit. -/
def longContent : CStr :=
  List.replicate 8176 newline ++ ascii "Device Minor: 12"

theorem take_longContent : longContent.take 8191 = List.replicate 8176 newline ++ ascii "Device Minor: 1" := by
  rw [longContent, take_emptyLines]
  rfl

/-- A GPU with minor 12 is taken for the one with minor 1. -/
theorem not_truncated_describes :
    ¬ ∀ (b : CStr) (file : Option FileReads) (content text : CStr) (info : GpuInfo), IsBusId b →
      Serves file (some content) → (0 : UInt8) ∉ content → readFileToBuffer file textBufferSize = some text →
      parseGpuInformation (some (informationPath b)) (some (text.takeWhile (· != 0))) = (true, info) →
      ∃ info', parseGpuInformation (some (informationPath b)) (some content) = (true, info') ∧
        SameGpu info' info := by
  intro h
  have hnul : (0 : UInt8) ∉ longContent := by
    rw [longContent, List.mem_append, List.mem_replicate]
    decide
  have hne : longContent ≠ [] := List.append_ne_nil_of_right_ne_nil _ (by decide)
  have hkept : (longContent.take 8191).takeWhile (· != 0) = longContent.take 8191 :=
    takeWhile_ne_nul fun hmem => hnul (List.mem_of_mem_take hmem)
  obtain ⟨info', hparse, hsame⟩ := h (ascii "0000:04:00.0") _ _ _ ⟨true, 1, ascii "0000:04:00.0", []⟩
    ⟨by decide, by decide, by decide⟩ (serves_piece hne) hnul (read_piece hne) (by
      rw [hkept, take_longContent, parse_emptyLines]
      decide +kernel)
  have hwhole : parseGpuInformation (some (informationPath (ascii "0000:04:00.0"))) (some longContent) =
      (true, ⟨true, 12, ascii "0000:04:00.0", []⟩) := by
    rw [longContent, parse_emptyLines]
    decide +kernel
  rw [hwhole] at hparse
  cases hparse
  exact absurd hsame.minor (by decide)

end Nvscope
