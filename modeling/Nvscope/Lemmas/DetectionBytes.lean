import Nvscope.Lemmas.Information
import Nvscope.Model.DetectionBytes

/-!
# Detection, byte by byte: what the functions compute

On arrays that hold strings, each function stays inside its arrays and does what its model on strings does.
-/

namespace Nvscope

open Lib

variable {text dst src : List UInt8} {line s key : CStr} {off len start lineLen n : Nat}

/-! ## Slices -/

/-- The array `dst'` is `dst` after a string was stored to it, or not. -/
structure Stored (n : Nat) (dst dst' : List UInt8) (r : Option CStr) : Prop where
  length : dst'.length = n
  holds : cstrAt dst' 0 = r.or (cstrAt dst 0)

theorem Stored.none (h : dst.length = n) : Stored n dst dst none :=
  ⟨h, rfl⟩

theorem copySliceExactInto_eq (hdst : dst.length = n) (h : slice src off len = some s) (hs : (0 : UInt8) ∉ s) :
    ∃ dst', copySliceExactInto dst n src off len = some ((copySliceExact n s).isSome, dst') ∧
      Stored n dst dst' (copySliceExact n s) := by
  obtain rfl := length_of_slice h
  by_cases hfits : n = 0 ∨ s.length ≥ n
  · exact ⟨dst, by simp [copySliceExactInto, copySliceExact, hfits], by simpa [copySliceExact, hfits] using .none hdst⟩
  · simp only [not_or, Nat.not_le, ge_iff_le] at hfits
    obtain ⟨c, rest, hrest⟩ : ∃ c rest, dst.drop s.length = c :: rest := by
      refine List.exists_cons_of_ne_nil fun hnil => ?_
      have hlen := List.drop_eq_nil_iff.mp hnil
      omega
    have hcopy : memcpy dst src off s.length = some (s ++ c :: rest) := by
      have hstore := @storeMany_append _ [] dst s (by omega)
      simpa [memcpy, h, hrest] using hstore
    refine ⟨s ++ 0 :: rest, ?_, ?_, ?_⟩
    · simp [copySliceExactInto, copySliceExact, hfits.1, Nat.not_le.mpr hfits.2, hcopy, store_append]
    · have hlen := congrArg List.length hrest
      simp only [List.length_drop, List.length_cons] at hlen
      simp only [List.length_append, List.length_cons]
      omega
    · simp [copySliceExact, hfits.1, Nat.not_le.mpr hfits.2, cstrAt_zero_of_append hs]

theorem parseNonnegativeIntAt_eq (h : slice src off len = some s) (value : Int32) :
    parseNonnegativeIntAt src off len value =
      some ((parseNonnegativeInt s).isSome, (parseNonnegativeInt s).getD value) := by
  obtain rfl := length_of_slice h
  by_cases hlen : s.length = 0
  · simp [parseNonnegativeIntAt, parseNonnegativeInt, hlen]
  · simp [parseNonnegativeIntAt, parseNonnegativeInt, hlen, parseDigitsAt_eq (by decide : 9 ≤ intMax) h]

theorem valueAfterKeyAt_eq (hkey : (0 : UInt8) ∉ key) (h : slice text off len = some line) :
    ∃ r, valueAfterKeyAt text off len key = some r ∧
      Option.Rel (fun place v => slice text place.1 place.2 = some v) r (valueAfterKey line key) := by
  obtain rfl := length_of_slice h
  have hliteral := cstrAt_literal hkey
  rw [valueAfterKeyAt, strlen_eq hliteral, Option.bind_some]
  by_cases hlen : line.length < key.length
  · exact ⟨none, by simp [hlen], by simp [valueAfterKey, hlen]⟩
  · have hfront := slice_zero_take (k := key.length) h (by omega)
    have hmemcmp : memcmp text off (literal key) 0 key.length = some (line.take key.length == key) := by
      simp [memcmp, hfront, slice_of_cstrAt hliteral]
    simp only [hlen, ↓reduceIte, hmemcmp, Option.bind_some]
    by_cases hsame : line.take key.length = key
    · obtain ⟨off', len', htrim, hslice⟩ := trimAt_eq (p := isBlank) (slice_zero_drop (i := key.length) h (by omega))
      refine ⟨some (off', len'), by simp [hsame, trimSliceAt, htrim], ?_⟩
      simpa [valueAfterKey, hlen, hsame, trimSlice] using Option.Rel.some hslice
    · exact ⟨none, by simp [hsame], by simp [valueAfterKey, hlen, hsame]⟩

/-! ## Paths -/

theorem starts_iff (pre path : CStr) : (path.take pre.length == pre.take pre.length) = pre.isPrefixOf path := by
  rw [List.take_length, Bool.eq_iff_iff, beq_iff_eq, List.isPrefixOf_iff_prefix, List.prefix_iff_eq_take, eq_comm]

theorem procInfoBusAt_eq {path : List UInt8} {p : CStr} (hpath : cstrAt path 0 = some p) :
    ∃ r, procInfoBusAt path n = some r ∧
      Option.Rel (fun len bus => slice path gpusPrefix.length len = some bus ∧ (0 : UInt8) ∉ bus) r
        (procInfoBus n p) := by
  have hprefix : cstrAt (literal gpusPrefix) 0 = some gpusPrefix := cstrAt_literal (by decide)
  have hsuffix : cstrAt (literal informationSuffix) 0 = some informationSuffix := cstrAt_literal (by decide)
  simp only [procInfoBusAt, strlen_eq hpath, Option.bind_some, procInfoBus]
  by_cases hlen : p.length ≤ gpusPrefix.length + informationSuffix.length
  · exact ⟨none, by simp [hlen], by simp [hlen]⟩
  have hend := cstrAt_add hpath (i := p.length - informationSuffix.length) (Nat.sub_le _ _)
  rw [Nat.zero_add] at hend
  simp only [hlen, ↓reduceIte, strncmp_eq hpath hprefix, Option.bind_some, starts_iff, decide_false, Bool.false_or,
    strcmp_eq hend hsuffix]
  cases gpusPrefix.isPrefixOf p with
  | false => exact ⟨none, by simp, by simp⟩
  | true =>
      by_cases hends : p.drop (p.length - informationSuffix.length) = informationSuffix
      · have hslice := slice_of_slice (i := gpusPrefix.length)
          (k := p.length - informationSuffix.length - gpusPrefix.length) (slice_of_cstrAt hpath) (by omega)
        have hnul : (0 : UInt8) ∉ p := by
          obtain ⟨-, -, hnul⟩ := cstrAt_eq_some.mp hpath
          exact hnul
        have hmem : (0 : UInt8) ∉ (p.drop gpusPrefix.length).take
            (p.length - informationSuffix.length - gpusPrefix.length) :=
          fun h => hnul (List.mem_of_mem_drop (List.mem_of_mem_take h))
        rw [Nat.zero_add] at hslice
        generalize (p.drop gpusPrefix.length).take (p.length - informationSuffix.length - gpusPrefix.length) = bus
          at hslice hmem ⊢
        have hcount : p.length - informationSuffix.length - gpusPrefix.length = bus.length :=
          (length_of_slice hslice).symm
        rw [hcount] at hslice
        by_cases hfits : bus = [] ∨ n ≤ bus.length
        · exact ⟨none, by simp [hends, hcount, hfits], by simp [hends, hfits]⟩
        · have hany : anyAt (· == slash) path gpusPrefix.length bus.length = some (decide (slash ∈ bus)) := by
            simp [anyAt_eq hslice, List.any_beq']
          by_cases hslash : slash ∈ bus
          · exact ⟨none, by simp [hends, hcount, hfits, hany, hslash], by simp [hends, hfits, hslash]⟩
          · refine ⟨some bus.length, by simp [hends, hcount, hfits, hany, hslash], ?_⟩
            simpa [hends, hfits, hslash] using ⟨hslice, hmem⟩
      · exact ⟨none, by simp [hends], by simp [hends]⟩

theorem extractProcBusInto_eq {busId path : List UInt8} {p : CStr} (hbus : busId.length = n)
    (hpath : cstrAt path 0 = some p) :
    ∃ busId', extractProcBusInto (some path) busId n = some ((extractProcBus (some p) n).isSome, busId') ∧
      Stored n busId busId' (extractProcBus (some p) n) := by
  obtain ⟨r, hmatch, hrel⟩ := procInfoBusAt_eq (n := n) hpath
  simp only [extractProcBusInto, extractProcBus, hmatch, Option.bind_some]
  generalize procInfoBus n p = bus at hrel
  cases hrel with
  | none => exact ⟨busId, rfl, .none hbus⟩
  | some h => exact copySliceExactInto_eq hbus h.1 h.2

/-! ## Information files -/

/-- The structure in memory, and its model. -/
structure GpuInfoBytes.Shows (bytes : GpuInfoBytes) (info : GpuInfo) : Prop where
  present : bytes.present = info.present
  deviceMinor : bytes.deviceMinor = info.deviceMinor
  busIdLength : bytes.busId.length = procBusIdMax
  busId : cstrAt bytes.busId 0 = some info.busId
  uuidLength : bytes.uuid.length = procUuidMax
  uuid : cstrAt bytes.uuid 0 = some info.uuid

theorem shows_zeroGpuInfo : zeroGpuInfoBytes.Shows zeroGpuInfo where
  present := rfl
  deviceMinor := rfl
  busIdLength := List.length_replicate
  busId := cstrAt_eq_some.mpr ⟨List.replicate 31 0, rfl, List.not_mem_nil⟩
  uuidLength := List.length_replicate
  uuid := cstrAt_eq_some.mpr ⟨List.replicate 95 0, rfl, List.not_mem_nil⟩

/-- A return value and the structure it comes with. -/
def ParsedAlike (bytes : Bool × GpuInfoBytes) (st : Bool × GpuInfo) : Prop :=
  bytes.1 = st.1 ∧ bytes.2.Shows st.2

theorem dropReturnAt_eq (h : slice text start lineLen = some line) :
    ∃ k, dropReturnAt text start lineLen = some k ∧ slice text start k = some (dropReturn line) := by
  obtain rfl := length_of_slice h
  cases line using List.reverseRecOn with
  | nil => exact ⟨0, rfl, h⟩
  | append_singleton line c =>
      have hload : text[start + line.length]? = some c := by
        simpa using getElem?_of_slice (i := line.length) h (by simp)
      have hfront : slice text start line.length = some line := by
        simpa using slice_zero_take (k := line.length) h (by simp)
      by_cases hc : c = carriageReturn
      · exact ⟨line.length, by simp [dropReturnAt, hload, hc], by simpa [dropReturn, hc] using hfront⟩
      · exact ⟨(line ++ [c]).length, by simp [dropReturnAt, hload, hc], by simpa [dropReturn, hc] using h⟩

theorem not_mem_dropReturn (h : (0 : UInt8) ∉ line) : (0 : UInt8) ∉ dropReturn line := by
  rw [dropReturn]
  split
  · exact fun hmem => h ((List.dropLast_sublist line).subset hmem)
  · exact h

theorem not_mem_of_valueAfterKey {v : CStr} (h : valueAfterKey line key = some v) (hline : (0 : UInt8) ∉ line) :
    (0 : UInt8) ∉ v := by
  obtain ⟨rest, rfl, htrim⟩ := valueAfterKey_eq_some.mp h
  obtain ⟨pre, post, rfl, -, -⟩ := htrim.split
  simp only [List.mem_append, not_or] at hline
  exact hline.2.2.1

section

variable {bytes : GpuInfoBytes} {info : GpuInfo}

/-- The array of the bus id after a store to it. -/
theorem GpuInfoBytes.Shows.storeBusId {busId : List UInt8} {r : Option CStr} (h : bytes.Shows info)
    (hstored : Stored procBusIdMax bytes.busId busId r) :
    { bytes with busId := busId }.Shows { info with busId := r.getD info.busId } where
  present := h.present
  deviceMinor := h.deviceMinor
  busIdLength := hstored.length
  busId := by
    rw [hstored.holds, h.busId]
    cases r <;> rfl
  uuidLength := h.uuidLength
  uuid := h.uuid

theorem GpuInfoBytes.Shows.storeUuid {uuid : List UInt8} {r : Option CStr} (h : bytes.Shows info)
    (hstored : Stored procUuidMax bytes.uuid uuid r) :
    { bytes with uuid := uuid }.Shows { info with uuid := r.getD info.uuid } where
  present := h.present
  deviceMinor := h.deviceMinor
  busIdLength := h.busIdLength
  busId := h.busId
  uuidLength := hstored.length
  uuid := by
    rw [hstored.holds, h.uuid]
    cases r <;> rfl

theorem GpuInfoBytes.Shows.storeMinor (h : bytes.Shows info) (minor : Int32) :
    { bytes with deviceMinor := minor }.Shows { info with deviceMinor := minor } where
  present := h.present
  deviceMinor := rfl
  busIdLength := h.busIdLength
  busId := h.busId
  uuidLength := h.uuidLength
  uuid := h.uuid

end

theorem parseGpuLineAt_alike {a : Bool × GpuInfoBytes} {b : Bool × GpuInfo}
    (h : slice text start lineLen = some line) (hline : (0 : UInt8) ∉ line) (hab : ParsedAlike a b) :
    ∃ a', parseGpuLineAt text start lineLen a = some a' ∧ ParsedAlike a' (parseGpuLine b line) := by
  obtain ⟨ok, bytes⟩ := a
  obtain ⟨ok', info⟩ := b
  obtain ⟨hok, hshows⟩ := hab
  obtain rfl : ok = ok' := hok
  obtain ⟨k, hdrop, hslice⟩ := dropReturnAt_eq h
  have hnul := not_mem_dropReturn hline
  simp only [parseGpuLineAt, parseGpuLine, hdrop, Option.bind_some]
  generalize dropReturn line = line at hslice hnul
  obtain ⟨r, huuid, hrel⟩ := valueAfterKeyAt_eq (show (0 : UInt8) ∉ uuidKey by decide) hslice
  rw [huuid, Option.bind_some]
  cases hvalue : valueAfterKey line uuidKey with
  | some v =>
      rw [hvalue] at hrel
      cases hrel with
      | some hv =>
          have hmem := not_mem_of_valueAfterKey hvalue hnul
          obtain ⟨uuid, hcopy, hstored⟩ := copySliceExactInto_eq hshows.uuidLength hv hmem
          simp only [hcopy, Option.map_some]
          cases hfits : copySliceExact procUuidMax v with
          | some uuid' => exact ⟨_, rfl, by simp, by simpa [hfits] using hshows.storeUuid hstored⟩
          | none => exact ⟨_, rfl, by simp, by simpa [hfits] using hshows.storeUuid hstored⟩
  | none =>
      rw [hvalue] at hrel
      cases hrel
      obtain ⟨r, hbus, hrel⟩ := valueAfterKeyAt_eq (show (0 : UInt8) ∉ busKey by decide) hslice
      simp only [hbus, Option.bind_some]
      cases hvalue : valueAfterKey line busKey with
      | some v =>
          rw [hvalue] at hrel
          cases hrel with
          | some hv =>
              have hmem := not_mem_of_valueAfterKey hvalue hnul
              obtain ⟨busId, hcopy, hstored⟩ := copySliceExactInto_eq hshows.busIdLength hv hmem
              simp only [← length_of_slice hv] at hcopy ⊢
              by_cases hempty : v = []
              · exact ⟨(false, bytes), by simp [hempty], by simp [hempty], by simpa [hempty] using hshows⟩
              · simp only [List.length_eq_zero_iff, hempty, ↓reduceIte, hcopy, Option.map_some]
                cases hfits : copySliceExact procBusIdMax v with
                | some busId' => exact ⟨_, rfl, by simp, by simpa [hfits] using hshows.storeBusId hstored⟩
                | none => exact ⟨_, rfl, by simp, by simpa [hfits] using hshows.storeBusId hstored⟩
      | none =>
          rw [hvalue] at hrel
          cases hrel
          obtain ⟨r, hminor, hrel⟩ := valueAfterKeyAt_eq (show (0 : UInt8) ∉ minorKey by decide) hslice
          simp only [hminor, Option.bind_some]
          cases hvalue : valueAfterKey line minorKey with
          | some v =>
              rw [hvalue] at hrel
              cases hrel with
              | some hv =>
                  simp only [parseNonnegativeIntAt_eq hv, Option.map_some]
                  cases parseNonnegativeInt v with
                  | some minor => exact ⟨_, rfl, by simp, hshows.storeMinor minor⟩
                  | none =>
                      refine ⟨_, rfl, by simp, ?_⟩
                      rw [Option.getD_none, hshows.deviceMinor]
                      exact hshows.storeMinor info.deviceMinor
          | none =>
              rw [hvalue] at hrel
              cases hrel
              exact ⟨_, rfl, rfl, hshows⟩

theorem load_zero {array : List UInt8} (h : cstrAt array 0 = some s) :
    ∃ c, array[0]? = some c ∧ (c == 0) = (s == []) := by
  obtain ⟨post, hdrop, hs⟩ := cstrAt_eq_some.mp h
  rw [List.drop_zero] at hdrop
  subst hdrop
  cases s with
  | nil => exact ⟨0, rfl, rfl⟩
  | cons c s =>
      have hc : c ≠ 0 := fun h0 => hs (h0 ▸ List.mem_cons_self)
      exact ⟨c, rfl, by simp [hc]⟩

/-- The last step: `present`, from what the structure holds. -/
theorem present_alike {a : Bool × GpuInfoBytes} {b : Bool × GpuInfo} (hab : ParsedAlike a b) :
    ∃ a', (a.2.busId[0]?).map (fun c : UInt8 =>
        (a.1 && (a.1 && decide (0 ≤ a.2.deviceMinor) && c != 0),
          { a.2 with present := a.1 && decide (0 ≤ a.2.deviceMinor) && c != 0 })) = some a' ∧
      ParsedAlike a' (b.1 && (b.1 && decide (0 ≤ b.2.deviceMinor) && b.2.busId != []),
        { b.2 with present := b.1 && decide (0 ≤ b.2.deviceMinor) && b.2.busId != [] }) := by
  obtain ⟨hok, hshows⟩ := hab
  obtain ⟨c, hload, hc⟩ := load_zero hshows.busId
  have hne : (c != 0) = (b.2.busId != []) := by rw [bne, hc, bne]
  have hpresent : (a.1 && decide (0 ≤ a.2.deviceMinor) && c != 0) =
      (b.1 && decide (0 ≤ b.2.deviceMinor) && b.2.busId != []) := by
    rw [hok, hshows.deviceMinor, hne]
  refine ⟨_, by rw [hload]; rfl, ?_, ?_⟩
  · simp only [hok, hshows.deviceMinor, hne]
  · exact
      { present := hpresent
        deviceMinor := hshows.deviceMinor
        busIdLength := hshows.busIdLength
        busId := hshows.busId
        uuidLength := hshows.uuidLength
        uuid := hshows.uuid }

theorem extractProcBusInto_alike (path : Option StrArray) {busId : List UInt8} (hbus : busId.length = n) :
    ∃ busId', extractProcBusInto (path.map (·.bytes)) busId n =
        some ((extractProcBus (path.map (·.str)) n).isSome, busId') ∧
      Stored n busId busId' (extractProcBus (path.map (·.str)) n) := by
  cases path with
  | none => exact ⟨busId, rfl, .none hbus⟩
  | some path => exact extractProcBusInto_eq hbus path.cstrAt_zero

theorem completeGpuInfoAt_alike (path : Option StrArray) {a : Bool × GpuInfoBytes} {b : Bool × GpuInfo}
    (hab : ParsedAlike a b) : ∃ a', completeGpuInfoAt (path.map (·.bytes)) a = some a' ∧
      ParsedAlike a' (completeGpuInfo (path.map (·.str)) b) := by
  obtain ⟨ok, bytes⟩ := a
  obtain ⟨ok', info⟩ := b
  obtain ⟨hok, hshows⟩ := hab
  obtain rfl : ok = ok' := hok
  obtain ⟨c, hload, hc⟩ := load_zero hshows.busId
  obtain ⟨busId', hextract, hstored⟩ := extractProcBusInto_alike path hshows.busIdLength
  by_cases hempty : ok = true ∧ info.busId = []
  · obtain ⟨rfl, hnil⟩ := hempty
    have hcond : (true && info.busId == []) = true := by simp [hnil]
    simp only [hnil, beq_self_eq_true] at hc
    cases hfound : extractProcBus (path.map (·.str)) procBusIdMax with
    | some b =>
        rw [hfound] at hextract hstored
        have hmid : ParsedAlike (true, { bytes with busId := busId' }) (true, { info with busId := b }) :=
          ⟨rfl, hshows.storeBusId hstored⟩
        obtain ⟨a', hlast, halike⟩ := present_alike hmid
        refine ⟨a', ?_, ?_⟩
        · simp only [completeGpuInfoAt, hload, hc, hextract, ↓reduceIte, Option.bind_some, Option.map_some]
          exact hlast
        · simp only [completeGpuInfo, hcond, hfound, ↓reduceIte]
          exact halike
    | none =>
        rw [hfound] at hextract hstored
        have hmid : ParsedAlike (false, { bytes with busId := busId' }) (false, info) :=
          ⟨rfl, hshows.storeBusId hstored⟩
        obtain ⟨a', hlast, halike⟩ := present_alike hmid
        refine ⟨a', ?_, ?_⟩
        · simp only [completeGpuInfoAt, hload, hc, hextract, ↓reduceIte, Option.bind_some, Option.map_some]
          exact hlast
        · simp only [completeGpuInfo, hcond, hfound, ↓reduceIte]
          exact halike
  · obtain ⟨a', hlast, halike⟩ := present_alike (a := (ok, bytes)) (b := (ok, info)) ⟨rfl, hshows⟩
    refine ⟨a', ?_, ?_⟩
    · cases ok with
      | false => exact hlast
      | true =>
          have hne : (info.busId == []) = false := beq_eq_false_iff_ne.mpr fun h => hempty ⟨rfl, h⟩
          simp only [completeGpuInfoAt, hload, hc, hne, Bool.false_eq_true, ↓reduceIte, Option.bind_some]
          exact hload ▸ hlast
    · have hcond : (ok && info.busId == []) = false := by
        simpa [Bool.and_eq_false_iff] using hempty
      simp only [completeGpuInfo, hcond, Bool.false_eq_true, ↓reduceIte]
      exact halike

/-- Every load and every store of the parser lies inside its array, and what it leaves there are the strings of
the model. -/
theorem parseGpuInformationAt_alike (path text : Option StrArray) :
    ∃ parsed, parseGpuInformationAt (path.map (·.bytes)) (text.map (·.bytes)) = some parsed ∧
      ParsedAlike parsed (parseGpuInformation (path.map (·.str)) (text.map (·.str))) := by
  cases text with
  | none => exact ⟨_, rfl, rfl, shows_zeroGpuInfo⟩
  | some text =>
      have hslice := slice_of_cstrAt text.cstrAt_zero
      have hnul : (0 : UInt8) ∉ text.str := by
        obtain ⟨-, -, hnul⟩ := cstrAt_eq_some.mp text.cstrAt_zero
        exact hnul
      have hlines : ∀ start line a b, slice text.bytes start line.length = some line →
          start + line.length ≤ text.str.length → ParsedAlike a b →
            ∃ a', parseGpuLineAt text.bytes start line.length a = some a' ∧ ParsedAlike a' (parseGpuLine b line) := by
        intro start line a b hline hle hab
        refine parseGpuLineAt_alike hline (fun hmem => hnul ?_) hab
        have hinside := slice_of_slice (i := start) (k := line.length) hslice hle
        rw [Nat.zero_add, hline, Option.some.injEq] at hinside
        rw [hinside] at hmem
        exact List.mem_of_mem_drop (List.mem_of_mem_take hmem)
      obtain ⟨a, hscan, halike⟩ := scanLinesAt_related newline hslice hlines
        (show ParsedAlike (true, zeroGpuInfoBytes) (true, zeroGpuInfo) from ⟨rfl, shows_zeroGpuInfo⟩)
      obtain ⟨parsed, hcomplete, hparsed⟩ := completeGpuInfoAt_alike path halike
      refine ⟨parsed, ?_, hparsed⟩
      simp only [parseGpuInformationAt, Option.map_some, strlen_eq text.cstrAt_zero, Option.bind_some, hscan]
      exact hcomplete

end Nvscope
