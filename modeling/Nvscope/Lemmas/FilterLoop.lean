import Nvscope.Lemmas.Dirents
import Nvscope.Lib.Loops

/-!
# The loop of the dirent filter

At the head of the loop the buffer consists of the records kept so far, a part that is free, and what has
not been read. A record that is kept is moved down over the free part; the rest of the loop goes by the
length read back at its old place.
-/

namespace Nvscope

open Lib DirentRecord

structure FilterState where
  buffer : List UInt8
  readOffset : Nat
  writeOffset : Nat
  deriving DecidableEq

/-- One evaluation of the loop's condition and body. -/
def filterRound (allowed : AllowedGpus) (len : Nat) (s : FilterState) :
    Option (Round FilterState (List UInt8 × Int)) :=
  if s.readOffset < len then
    if len - s.readOffset < direntHeader then some (.done (s.buffer, len))
    else
      (direntNameIsValid s.buffer s.readOffset (len - s.readOffset)).bind fun valid =>
        if !valid then some (.done (s.buffer, len))
        else
          (cstrAt s.buffer (s.readOffset + direntHeader)).bind fun name =>
            if keepName allowed name then
              (if s.writeOffset ≠ s.readOffset then
                (reclenAt s.buffer s.readOffset).bind (memmove s.buffer s.writeOffset s.readOffset)
              else some s.buffer).bind fun buffer =>
                (reclenAt buffer s.readOffset).map fun reclen =>
                  .next ⟨buffer, s.readOffset + reclen, s.writeOffset + reclen⟩
            else
              (reclenAt s.buffer s.readOffset).map fun reclen =>
                .next ⟨s.buffer, s.readOffset + reclen, s.writeOffset⟩
  else some (.done (s.buffer, s.writeOffset))

theorem filterLoop_eq (allowed : AllowedGpus) (len fuel : Nat) (s : FilterState) :
    filterLoop allowed len fuel s.buffer s.readOffset s.writeOffset =
      loop (filterRound allowed len) fuel s := by
  induction fuel generalizing s with
  | zero => rfl
  | succ fuel ih =>
      rw [filterLoop, loop, filterRound]
      by_cases hread : s.readOffset < len
      · rw [if_pos hread, if_pos hread]
        by_cases hshort : len - s.readOffset < direntHeader
        · rw [if_pos hshort, if_pos hshort]
          rfl
        · rw [if_neg hshort, if_neg hshort]
          cases direntNameIsValid s.buffer s.readOffset (len - s.readOffset) with
          | none => rfl
          | some valid =>
              cases valid with
              | false => rfl
              | true =>
                  rw [Option.bind_some, Option.bind_some, Bool.not_true, if_neg Bool.false_ne_true,
                    if_neg Bool.false_ne_true]
                  cases cstrAt s.buffer (s.readOffset + direntHeader) with
                  | none => rfl
                  | some name =>
                      rw [Option.bind_some, Option.bind_some]
                      cases keepName allowed name with
                      | true =>
                          rw [if_pos rfl, if_pos rfl]
                          cases (if s.writeOffset ≠ s.readOffset then
                            (reclenAt s.buffer s.readOffset).bind
                              (memmove s.buffer s.writeOffset s.readOffset) else some s.buffer) with
                          | none => rfl
                          | some buffer =>
                              rw [Option.bind_some, Option.bind_some]
                              cases reclenAt buffer s.readOffset with
                              | none => rfl
                              | some reclen => exact ih ⟨buffer, s.readOffset + reclen, s.writeOffset + reclen⟩
                      | false =>
                          rw [if_neg Bool.false_ne_true, if_neg Bool.false_ne_true]
                          cases reclenAt s.buffer s.readOffset with
                          | none => rfl
                          | some reclen => exact ih ⟨s.buffer, s.readOffset + reclen, s.writeOffset⟩
      · rw [if_neg hread, if_neg hread]
        rfl

theorem filterDirent64Buffer_eq {a : AllowedGpus} (ha : a.valid = true) {buffer : List UInt8} {len : Nat}
    (hlen : 0 < len) :
    filterDirent64Buffer buffer len (some a) = loop (filterRound a len) (len + 2) ⟨buffer, 0, 0⟩ := by
  have hcond : (decide ((len : Int) ≤ 0) || !a.valid) = false := by
    rw [ha]
    simp only [Bool.not_true, Bool.or_false, decide_eq_false_iff_not]
    omega
  rw [← filterLoop_eq]
  simp only [filterDirent64Buffer, hcond, Bool.false_eq_true, ↓reduceIte, Int.toNat_natCast]

/-! ## What lies at the read offset -/

/-- Bytes the filter rejects: too short for a header, or `d_reclen` below the header or beyond them, or no
NUL in the name area. -/
def Malformed (bytes : List UInt8) : Prop :=
  bytes.length < direntHeader ∨ reclenOf bytes < direntHeader ∨ bytes.length < reclenOf bytes ∨
    0 ∉ (bytes.take (reclenOf bytes)).drop direntHeader

instance (bytes : List UInt8) : Decidable (Malformed bytes) :=
  inferInstanceAs (Decidable (_ ∨ _ ∨ _ ∨ _))

theorem exists_record_of_not_malformed {bytes : List UInt8} (h : ¬ Malformed bytes) :
    ∃ (r : DirentRecord) (tail : List UInt8), bytes = r.bytes ++ tail := by
  simp only [Malformed, not_or, Nat.not_lt, Decidable.not_not] at h
  obtain ⟨hlen, hheader, hle, hnul⟩ := h
  have hd : direntHeader = 19 := rfl
  have hreclen : reclenOf (bytes.take (reclenOf bytes)) = (bytes.take (reclenOf bytes)).length := by
    rw [List.length_take_of_le hle, reclenOf, List.drop_take, List.take_take, Nat.min_eq_left (by omega)]
    rfl
  exact ⟨⟨bytes.take (reclenOf bytes), hreclen, hnul⟩, bytes.drop (reclenOf bytes),
    (List.take_append_drop _ _).symm⟩

/-- Every buffer is a sequence of records that follow `d_reclen`, and a rest that is malformed, if
anything. -/
theorem exists_records (bytes : List UInt8) :
    ∃ (rs : List DirentRecord) (rest : List UInt8),
      bytes = encode rs ++ rest ∧ (rest = [] ∨ Malformed rest) := by
  induction h : bytes.length using Nat.strongRecOn generalizing bytes with
  | ind n ih =>
      by_cases hbad : bytes = [] ∨ Malformed bytes
      · exact ⟨[], bytes, rfl, hbad⟩
      · obtain ⟨r, tail, rfl⟩ := exists_record_of_not_malformed (not_or.mp hbad).2
        have hheader := r.header_lt
        rw [List.length_append] at h
        obtain ⟨rs, rest, htail, hrest⟩ := ih tail.length (by omega) tail rfl
        exact ⟨r :: rs, rest, by rw [htail, encode_cons, List.append_assoc], hrest⟩

/-! ## The head of the loop -/

/-- The state with `kept` written, `junk` free and `rest` unread. -/
def FilterState.at (kept junk rest : List UInt8) : FilterState :=
  ⟨kept ++ (junk ++ rest), kept.length + junk.length, kept.length⟩

/-- The buffer after a record has been moved down over `junk`. -/
def moved (kept junk bytes tail : List UInt8) : List UInt8 :=
  kept ++ (bytes ++ ((junk ++ bytes).drop bytes.length ++ tail))

theorem length_moved (kept junk bytes tail : List UInt8) :
    (moved kept junk bytes tail).length = (kept ++ (junk ++ (bytes ++ tail))).length := by
  simp [moved]; omega

/-- A kept record is at its new place afterwards, also where it did not have to move. -/
theorem move_eq (kept junk tail : List UInt8) (r : DirentRecord) :
    (if kept.length ≠ kept.length + junk.length then
      (reclenAt (kept ++ (junk ++ (r.bytes ++ tail))) (kept.length + junk.length)).bind
        (memmove (kept ++ (junk ++ (r.bytes ++ tail))) kept.length (kept.length + junk.length))
    else some (kept ++ (junk ++ (r.bytes ++ tail)))) = some (moved kept junk r.bytes tail) := by
  by_cases hjunk : junk.length = 0
  · obtain rfl := List.eq_nil_of_length_eq_zero hjunk
    simp [moved]
  · have hreclen := reclenAt_append (kept ++ junk) tail r.header_lt
    rw [List.append_assoc, List.length_append, r.reclen] at hreclen
    rw [if_pos (by omega), hreclen, Option.bind_some, memmove_down, moved]

/-- The old place after the move, and what comes behind it. -/
theorem moved_eq (kept junk tail : List UInt8) (r : DirentRecord) :
    ∃ pre, pre.length = kept.length + junk.length ∧
      moved kept junk r.bytes tail = pre ++ (leftBehind junk.length r.bytes ++ tail) := by
  refine ⟨kept ++ (r.bytes ++ (junk ++ r.bytes).drop r.bytes.length).take junk.length, by simp, ?_⟩
  rw [← drop_memmove_down, moved, List.append_assoc, ← List.append_assoc (List.take _ _),
    List.take_append_drop, List.append_assoc]

/-- At the old place the filter reads what the move left there. -/
theorem reclenAt_moved (kept junk tail : List UInt8) (r : DirentRecord) :
    reclenAt (moved kept junk r.bytes tail) (kept.length + junk.length) = some (r.reread junk.length) := by
  have hheader := r.header_lt
  obtain ⟨pre, hlen, hsplit⟩ := moved_eq kept junk tail r
  rw [hsplit, ← hlen, reclenAt_append _ _ (by rw [length_leftBehind]; exact hheader)]
  rfl

variable {a : AllowedGpus} {len : Nat}

theorem filterRound_end {s : FilterState} (h : len ≤ s.readOffset) :
    filterRound a len s = some (.done (s.buffer, s.writeOffset)) := by
  rw [filterRound, if_neg (by omega)]

/-- One round at a well-formed record: a kept one is moved, and the length read back decides where the loop
goes on; a dropped one stays where it is. -/
theorem filterRound_record (kept junk tail : List UInt8) (r : DirentRecord)
    (h : kept.length + junk.length + r.bytes.length ≤ len) :
    filterRound a len (.at kept junk (r.bytes ++ tail)) =
      if r.keep a then
        some (.next ⟨moved kept junk r.bytes tail, kept.length + junk.length + r.reread junk.length,
          kept.length + r.reread junk.length⟩)
      else
        some (.next ⟨kept ++ (junk ++ (r.bytes ++ tail)), kept.length + junk.length + r.bytes.length,
          kept.length⟩) := by
  have hheader := r.header_lt
  have hpre : (kept ++ junk).length = kept.length + junk.length := List.length_append
  have hvalid := direntNameIsValid_append (kept ++ junk) tail r
    (show r.bytes.length ≤ len - (kept.length + junk.length) by omega)
  have hname := cstrAt_name (kept ++ junk) tail r
  have hreclen := reclenAt_append (kept ++ junk) tail hheader
  rw [hpre, List.append_assoc] at hvalid hname hreclen
  have hkeep : keepName a r.name = r.keep a := rfl
  rw [filterRound, FilterState.at, if_pos (by simp only; omega), if_neg (by simp only; omega), hvalid,
    Option.bind_some, hname]
  simp only [Bool.not_true, Bool.false_eq_true, ↓reduceIte, Option.bind_some, hkeep, move_eq,
    reclenAt_moved]
  rw [hreclen, r.reclen]
  rfl

/-- At malformed bytes the filter gives up. -/
theorem filterRound_malformed (kept junk : List UInt8) {rest : List UInt8} (hne : rest ≠ [])
    (h : Malformed rest) (hlen : len = (kept ++ (junk ++ rest)).length) :
    filterRound a len (.at kept junk rest) = some (.done (kept ++ (junk ++ rest), (len : Int))) := by
  have hpos := List.length_pos_iff.mpr hne
  have hpre : (kept ++ junk).length = kept.length + junk.length := List.length_append
  simp only [List.length_append] at hlen
  have hrest : len - (kept.length + junk.length) = rest.length := by omega
  rw [filterRound, FilterState.at, if_pos (by simp only; omega), hrest]
  by_cases hshort : rest.length < direntHeader
  · rw [if_pos hshort]
  · have hd : direntHeader = 19 := rfl
    have hreclen : reclenAt (kept ++ (junk ++ rest)) (kept.length + junk.length) = some (reclenOf rest) := by
      have hslice := @slice_append_add (kept ++ junk) rest [] 16 2 (by omega)
      rw [hpre, List.append_nil, List.append_assoc] at hslice
      rw [reclenAt, hslice, slice, if_pos (by omega)]
      rfl
    have hvalid : direntNameIsValid (kept ++ (junk ++ rest)) (kept.length + junk.length) rest.length =
        some false := by
      rw [direntNameIsValid, hreclen, Option.bind_some]
      split
      · rfl
      · rename_i hok
        simp only [Bool.or_eq_true, decide_eq_true_eq, not_or, Nat.not_lt] at hok
        obtain ⟨hge, hle⟩ := hok
        have hslice := @slice_append_add (kept ++ junk) rest [] direntHeader (reclenOf rest - direntHeader)
          (by omega)
        rw [hpre, List.append_nil, List.append_assoc] at hslice
        rw [hslice, slice, if_pos (by omega), Option.map_some, ← List.drop_take]
        rcases h with h | h | h | h
        · omega
        · omega
        · omega
        · simpa using h
    rw [if_neg hshort, hvalid]
    rfl

/-! ## Steady records -/

/-- The free part after some records: a dropped one joins it, a kept one is moved from its end to its
front. -/
def leftOver (a : AllowedGpus) : List UInt8 → List DirentRecord → List UInt8
  | junk, [] => junk
  | junk, r :: rs =>
      if r.keep a then leftOver a ((junk ++ r.bytes).drop r.bytes.length) rs
      else leftOver a (junk ++ r.bytes) rs

theorem length_leftOver (a : AllowedGpus) (junk : List UInt8) (rs : List DirentRecord) :
    (leftOver a junk rs).length + (encode (rs.filter (keep a))).length =
      junk.length + (encode rs).length := by
  induction rs generalizing junk with
  | nil => rfl
  | cons r rs ih =>
      rw [leftOver]
      by_cases hkeep : r.keep a = true
      · have h := ih ((junk ++ r.bytes).drop r.bytes.length)
        rw [if_pos hkeep, List.filter_cons_of_pos hkeep]
        simp only [List.length_drop, List.length_append, encode_cons] at h ⊢
        omega
      · have h := ih (junk ++ r.bytes)
        rw [if_neg hkeep, List.filter_cons_of_neg hkeep]
        simp only [List.length_append, encode_cons] at h ⊢
        omega

theorem leftOver_of_dropped {rs : List DirentRecord} (junk : List UInt8)
    (h : ∀ r ∈ rs, r.keep a = false) : leftOver a junk rs = junk ++ encode rs := by
  induction rs generalizing junk with
  | nil => simp [leftOver]
  | cons r rs ih =>
      rw [leftOver, if_neg (by simp [h r List.mem_cons_self]),
        ih _ fun r' hr' => h r' (List.mem_cons_of_mem _ hr'), encode_cons, List.append_assoc]

theorem at_moved {kept junk tail : List UInt8} {r : DirentRecord} {n : Nat} (h : n = r.bytes.length) :
    (⟨moved kept junk r.bytes tail, kept.length + junk.length + n, kept.length + n⟩ : FilterState) =
      .at (kept ++ r.bytes) ((junk ++ r.bytes).drop r.bytes.length) tail := by
  have hjunk : ((junk ++ r.bytes).drop r.bytes.length).length = junk.length := by simp
  rw [FilterState.at, h, moved, hjunk, List.length_append, List.append_assoc, Nat.add_right_comm]

theorem at_dropped (kept junk tail : List UInt8) (r : DirentRecord) :
    (⟨kept ++ (junk ++ (r.bytes ++ tail)), kept.length + junk.length + r.bytes.length, kept.length⟩ :
      FilterState) = .at kept (junk ++ r.bytes) tail := by
  rw [FilterState.at, List.length_append, Nat.add_assoc, List.append_assoc]

/-- The loop over steady records: the kept ones join those written, and all else is free. -/
theorem loop_steady {rs : List DirentRecord} {kept junk : List UInt8} (post : List UInt8) (fuel : Nat)
    (h : Steady a junk.length rs)
    (hlen : kept.length + junk.length + (encode rs).length ≤ len) :
    loop (filterRound a len) (rs.length + fuel) (.at kept junk (encode rs ++ post)) =
      loop (filterRound a len) fuel
        (.at (kept ++ encode (rs.filter (keep a))) (leftOver a junk rs) post) := by
  induction rs generalizing kept junk with
  | nil => simp [leftOver]
  | cons r rs ih =>
      rw [encode_cons, List.length_append] at hlen
      have hround := @filterRound_record a len kept junk (encode rs ++ post) r (by omega)
      unfold Steady at h
      rw [encode_cons, List.append_assoc, List.length_cons, Nat.add_right_comm, leftOver]
      by_cases hkeep : r.keep a = true
      · -- the record joins the kept ones, and the free part keeps its length
        rw [if_pos hkeep] at h hround ⊢
        obtain ⟨hreread, hrest⟩ := h
        have hjunk : ((junk ++ r.bytes).drop r.bytes.length).length = junk.length := by simp
        rw [← hjunk] at hrest
        have hloop := @ih (kept ++ r.bytes) _ hrest (by rw [hjunk, List.length_append]; omega)
        rw [at_moved hreread] at hround
        rw [loop_next hround, List.filter_cons_of_pos hkeep, encode_cons, ← List.append_assoc, ← hloop]
      · -- the record becomes part of the free part
        rw [if_neg hkeep] at h hround ⊢
        have hjunk : (junk ++ r.bytes).length = junk.length + r.bytes.length := List.length_append
        rw [← hjunk] at h
        have hloop := @ih kept _ h (by rw [hjunk]; omega)
        rw [at_dropped] at hround
        rw [loop_next hround, List.filter_cons_of_neg hkeep, ← hloop]

/-- A call on a buffer that starts with steady records is through with them before its fuel ends. -/
theorem filterDirent64Buffer_records (ha : a.valid = true) {rs : List DirentRecord} (post : List UInt8)
    (h : Steady a 0 rs) (hle : (encode rs).length ≤ len) (hpos : 0 < len) :
    ∃ fuel, filterDirent64Buffer (encode rs ++ post) len (some a) =
      loop (filterRound a len) (fuel + 1) (.at (encode (rs.filter (keep a))) (leftOver a [] rs) post) := by
  have hrs := length_le_encode rs
  obtain ⟨fuel, hfuel⟩ := Nat.exists_eq_add_of_le (show rs.length + 1 ≤ len + 2 by omega)
  have hloop := @loop_steady a len rs [] [] post (fuel + 1) h (by simpa using hle)
  exact ⟨fuel, by rw [filterDirent64Buffer_eq ha hpos, hfuel, Nat.add_assoc, Nat.add_comm 1]; exact hloop⟩

/-- Spec of `nvfix_filter_dirent64_buffer` on a steady listing. -/
theorem filterDirent64Buffer_steady {a : AllowedGpus} (ha : a.valid = true) {rs : List DirentRecord}
    (post : List UInt8) (h : Steady a 0 rs) :
    ∃ junk, filterDirent64Buffer (encode rs ++ post) (encode rs).length (some a) =
      some (encode (rs.filter (keep a)) ++ (junk ++ post), ((encode (rs.filter (keep a))).length : Int)) := by
  by_cases hempty : rs = []
  · subst hempty
    exact ⟨[], by simp [filterDirent64Buffer]⟩
  · have hpos := List.length_pos_iff.mpr hempty
    have hlen := length_leftOver a [] rs
    obtain ⟨fuel, hloop⟩ := filterDirent64Buffer_records ha post h (Nat.le_refl _)
      (hpos.trans_le (length_le_encode rs))
    rw [List.length_nil, Nat.zero_add] at hlen
    have hend : (encode rs).length ≤ (FilterState.at (encode (rs.filter (keep a))) (leftOver a [] rs)
        post).readOffset := by
      simp only [FilterState.at]
      omega
    exact ⟨leftOver a [] rs, by rw [hloop, loop_done (filterRound_end hend)]; rfl⟩

/-- On steady records with a malformed rest the loop gives up, with the moves it has made. -/
theorem filterDirent64Buffer_malformed (ha : a.valid = true) {rs : List DirentRecord} {rest : List UInt8}
    (hne : rest ≠ []) (hbad : Malformed rest) (h : Steady a 0 rs) :
    filterDirent64Buffer (encode rs ++ rest) (encode rs ++ rest).length (some a) =
      some (encode (rs.filter (keep a)) ++ (leftOver a [] rs ++ rest),
        ((encode rs ++ rest).length : Int)) := by
  have hpos := List.length_pos_iff.mpr hne
  have hlen := length_leftOver a [] rs
  rw [List.length_nil, Nat.zero_add] at hlen
  obtain ⟨fuel, hloop⟩ := @filterDirent64Buffer_records a (encode rs ++ rest).length ha rs rest h
    (by simp) (by simp only [List.length_append]; omega)
  have hround := @filterRound_malformed a (encode rs ++ rest).length (encode (rs.filter (keep a)))
    (leftOver a [] rs) rest hne hbad (by simp only [List.length_append]; omega)
  rw [hloop, loop_done hround]

end Nvscope
