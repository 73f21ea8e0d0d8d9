import Nvscope.Theorems.Enumeration

/-!
# The dirent filter on any buffer

The loop is memory-safe and ends on every buffer. What it returns is right as long as no length is read back
wrongly after a move, and its error path is atomic as long as nothing has been moved.
-/

namespace Nvscope

open Lib DirentRecord

variable {a : AllowedGpus} {rs : List DirentRecord} {rest : List UInt8}

/-! ## Safety -/

/-- At the head of the loop the buffer has its length, and nothing has been written beyond what was read. -/
structure InBounds (len : Nat) (s : FilterState) : Prop where
  length : s.buffer.length = len
  write_le : s.writeOffset ≤ s.readOffset

theorem InBounds.at {kept junk rest : List UInt8} {len : Nat}
    (h : (kept ++ (junk ++ rest)).length = len) : InBounds len (.at kept junk rest) :=
  ⟨h, Nat.le_add_right _ _⟩

theorem InBounds.exists_at {len : Nat} {s : FilterState} (h : InBounds len s) (hread : s.readOffset ≤ len) :
    ∃ kept junk rest, s = .at kept junk rest := by
  obtain ⟨buffer, readOffset, writeOffset⟩ := s
  obtain ⟨hlen, hle⟩ := h
  simp only at hlen hle hread
  refine ⟨buffer.take writeOffset, (buffer.take readOffset).drop writeOffset, buffer.drop readOffset, ?_⟩
  have htake : (buffer.take writeOffset).length = writeOffset := List.length_take_of_le (by omega)
  have hdrop : ((buffer.take readOffset).drop writeOffset).length = readOffset - writeOffset := by
    rw [List.length_drop, List.length_take_of_le (by omega)]
  have hbuffer : buffer.take writeOffset ++ (buffer.take readOffset).drop writeOffset =
      buffer.take readOffset := by
    conv_rhs => rw [← List.take_append_drop writeOffset (buffer.take readOffset)]
    rw [List.take_take, Nat.min_eq_left hle]
  rw [FilterState.at, htake, hdrop, ← List.append_assoc, hbuffer, List.take_append_drop,
    Nat.add_sub_cancel' hle]

/-- Rounds left at most: every byte that is not read yet may be one, and the last may go nowhere. -/
def roundsLeft (len : Nat) (s : FilterState) : Nat :=
  len - s.readOffset + if Malformed (s.buffer.drop s.readOffset) then 0 else 1

/-- A record whose length is read back as 0 is not read again. -/
theorem malformed_moved {kept junk tail : List UInt8} {r : DirentRecord}
    (h : r.reread junk.length = 0) :
    Malformed ((moved kept junk r.bytes tail).drop (kept.length + junk.length)) := by
  obtain ⟨pre, hlen, hsplit⟩ := moved_eq kept junk tail r
  have hheader : 19 < r.bytes.length := r.header_lt
  have hreclen : reclenOf (leftBehind junk.length r.bytes ++ tail) = 0 := by
    rw [reread, reclenOf] at h
    rw [reclenOf, List.drop_append_of_le_length (by rw [length_leftBehind]; omega),
      List.take_append_of_le_length (by rw [List.length_drop, length_leftBehind]; omega), h]
  rw [hsplit, ← hlen, List.drop_left' rfl]
  exact Or.inr (Or.inl (by rw [hreclen]; decide))

theorem drop_at (kept junk rest : List UInt8) :
    (FilterState.at kept junk rest).buffer.drop (FilterState.at kept junk rest).readOffset = rest := by
  rw [FilterState.at, ← List.append_assoc, ← List.length_append]
  exact List.drop_left' rfl

/-- Step lemma: a round in bounds stays in bounds and gets nearer to the end, or leaves the loop. -/
theorem filterRound_inBounds {len : Nat} {s : FilterState} (h : InBounds len s) :
    (∃ s', filterRound a len s = some (.next s') ∧ InBounds len s' ∧ roundsLeft len s' < roundsLeft len s) ∨
      ∃ result : List UInt8 × Int, filterRound a len s = some (.done result) ∧
        result.1.length = len ∧ 0 ≤ result.2 := by
  by_cases hend : len ≤ s.readOffset
  · exact Or.inr ⟨_, filterRound_end hend, h.length, Int.natCast_nonneg _⟩
  · obtain ⟨kept, junk, rest, rfl⟩ := h.exists_at (by omega)
    have hlen := h.length
    simp only [FilterState.at, List.length_append] at hlen hend
    by_cases hbad : Malformed rest
    · have hne : rest ≠ [] := by rintro rfl; simp at hlen; omega
      refine Or.inr ⟨_, filterRound_malformed kept junk hne hbad ?_, h.length, Int.natCast_nonneg _⟩
      simp only [List.length_append]
      omega
    · left
      obtain ⟨r, tail, rfl⟩ := exists_record_of_not_malformed hbad
      have hheader := r.header_lt
      have hround := @filterRound_record a len kept junk tail r
        (by rw [List.length_append] at hlen; omega)
      have hleft : roundsLeft len (.at kept junk (r.bytes ++ tail)) =
          len - (kept.length + junk.length) + 1 := by
        rw [roundsLeft, drop_at, if_neg hbad]
        rfl
      by_cases hkeep : r.keep a = true
      · rw [if_pos hkeep] at hround
        refine ⟨_, hround, ⟨?_, ?_⟩, ?_⟩
        · rw [length_moved]
          exact h.length
        · simp only; omega
        · rw [hleft, roundsLeft]
          by_cases hzero : r.reread junk.length = 0
          · simp only [hzero, Nat.add_zero, malformed_moved hzero, ↓reduceIte]
            omega
          · split <;> simp only <;> omega
      · rw [if_neg hkeep] at hround
        refine ⟨_, hround, ⟨h.length, ?_⟩, ?_⟩
        · simp only; omega
        · rw [hleft, roundsLeft]
          split <;> simp only <;> omega

/-- On every buffer the filter ends without a fault; the buffer keeps its length. -/
theorem filterDirent64Buffer_total (ha : a.valid = true) {buffer : List UInt8} (hpos : 0 < buffer.length) :
    ∃ after ret, filterDirent64Buffer buffer buffer.length (some a) = some (after, ret) ∧
      after.length = buffer.length ∧ 0 ≤ ret := by
  have hstart : InBounds buffer.length ⟨buffer, 0, 0⟩ := ⟨rfl, Nat.le_refl 0⟩
  have hleft : roundsLeft buffer.length ⟨buffer, 0, 0⟩ < buffer.length + 2 := by
    rw [roundsLeft]
    split <;> simp only <;> omega
  obtain ⟨⟨after, ret⟩, hloop, hlen, hret⟩ := loop_total (roundsLeft buffer.length)
    (Q := fun result : List UInt8 × Int => result.1.length = buffer.length ∧ 0 ≤ result.2)
    (fun s hs => @filterRound_inBounds a _ s hs) hstart hleft
  exact ⟨after, ret, by rw [filterDirent64Buffer_eq ha hpos, hloop], hlen, hret⟩

/-- Every head of the loop is in bounds, and its round is defined. -/
theorem heads_inBounds {buffer : List UInt8} {s : FilterState}
    (h : Heads (filterRound a buffer.length) ⟨buffer, 0, 0⟩ s) :
    InBounds buffer.length s ∧ filterRound a buffer.length s ≠ none := by
  have hs : InBounds buffer.length s := by
    refine h.of_invariant ⟨rfl, Nat.le_refl 0⟩ fun s s' hs hnext => ?_
    rcases @filterRound_inBounds a _ s hs with ⟨s'', hnext', hs'', -⟩ | ⟨result, hdone, -⟩
    · rw [hnext] at hnext'
      cases hnext'
      exact hs''
    · rw [hnext] at hdone
      cases hdone
  refine ⟨hs, ?_⟩
  rcases @filterRound_inBounds a _ s hs with ⟨s', hnext, -⟩ | ⟨result, hdone, -⟩
  · rw [hnext]; simp
  · rw [hdone]; simp

theorem length_mul_le_encode (rs : List DirentRecord) : 20 * rs.length ≤ (encode rs).length := by
  induction rs with
  | nil => simp
  | cons r rs ih =>
      have hheader : 19 < r.bytes.length := r.header_lt
      rw [List.length_cons, encode_cons, List.length_append]
      omega

/-- Over steady records the loop ends within one round for every 20 bytes and one more, and returns at most
the length of the buffer. -/
theorem loop_steady_bounds (hrest : rest = [] ∨ Malformed rest) (h : Steady a 0 rs) :
    ∃ after ret, loop (filterRound a (encode rs ++ rest).length) ((encode rs ++ rest).length / 20 + 1)
        ⟨encode rs ++ rest, 0, 0⟩ = some (after, ret) ∧ ret ≤ (encode rs ++ rest).length := by
  have htotal : (encode rs ++ rest).length = (encode rs).length + rest.length := List.length_append
  have hcount := length_mul_le_encode rs
  have hlen := length_leftOver a [] rs
  rw [List.length_nil, Nat.zero_add] at hlen
  have hloop := @loop_steady a (encode rs ++ rest).length rs [] [] rest 1 h (by simp)
  have hfuel : rs.length + 1 ≤ (encode rs ++ rest).length / 20 + 1 := by omega
  by_cases hempty : rest = []
  · subst hempty
    rw [List.length_nil] at htotal
    have hend : (encode rs ++ []).length ≤ (FilterState.at (encode (rs.filter (keep a)))
        (leftOver a [] rs) []).readOffset := by
      simp only [FilterState.at]
      omega
    refine ⟨_, _, loop_mono hfuel (hloop.trans (loop_done (filterRound_end hend))), ?_⟩
    simp only [FilterState.at, List.nil_append]
    omega
  · have hround := @filterRound_malformed a (encode rs ++ rest).length (encode (rs.filter (keep a)))
      (leftOver a [] rs) rest hempty (hrest.resolve_left hempty) (by simp only [List.length_append]; omega)
    exact ⟨_, _, loop_mono hfuel (hloop.trans (loop_done hround)), Int.le_refl _⟩

/-- On every buffer: the loop ends, every access of every round lies inside the buffer, every move goes to an
offset not above its source, and the return value is not negative. Where every length is read back as it
was, the loop makes at most `len / 20 + 1` rounds, and the return value is at most `len`. -/
theorem filter_safe (ha : a.valid = true) (buffer : List UInt8) (hpos : 0 < buffer.length) :
    (∀ s, Heads (filterRound a buffer.length) ⟨buffer, 0, 0⟩ s →
      s.buffer.length = buffer.length ∧ s.writeOffset ≤ s.readOffset ∧
        filterRound a buffer.length s ≠ none) ∧
    (∃ after ret, filterDirent64Buffer buffer buffer.length (some a) = some (after, ret) ∧
      after.length = buffer.length ∧ 0 ≤ ret) ∧
    ∀ rs rest, buffer = encode rs ++ rest → (rest = [] ∨ Malformed rest) → Steady a 0 rs →
      ∃ after ret, filterLoop a buffer.length (buffer.length / 20 + 1) buffer 0 0 = some (after, ret) ∧
        filterDirent64Buffer buffer buffer.length (some a) = some (after, ret) ∧ ret ≤ buffer.length := by
  refine ⟨fun s hs => ?_, filterDirent64Buffer_total ha hpos, ?_⟩
  · obtain ⟨hbounds, hround⟩ := heads_inBounds hs
    exact ⟨hbounds.length, hbounds.write_le, hround⟩
  · rintro rs rest rfl hrest hsteady
    obtain ⟨after, ret, hloop, hret⟩ := loop_steady_bounds hrest hsteady
    refine ⟨after, ret, ?_, ?_, hret⟩
    · exact (filterLoop_eq a _ _ ⟨_, 0, 0⟩).trans hloop
    · rw [filterDirent64Buffer_eq ha hpos]
      exact loop_mono (by omega) hloop

/-! ## Lengths read back -/

/-- The round goes on by another length than the record at the read offset has. -/
def Misread (a : AllowedGpus) (len : Nat) (s : FilterState) : Prop :=
  ∃ s', filterRound a len s = some (.next s') ∧
    reclenAt s.buffer s.readOffset ≠ some (s'.readOffset - s.readOffset)

theorem reclenAt_at (kept junk tail : List UInt8) (r : DirentRecord) :
    reclenAt (FilterState.at kept junk (r.bytes ++ tail)).buffer
      (FilterState.at kept junk (r.bytes ++ tail)).readOffset = some r.bytes.length := by
  have hreclen := reclenAt_append (kept ++ junk) tail r.header_lt
  rwa [List.append_assoc, List.length_append, r.reclen] at hreclen

theorem steady_iff_of_at {len : Nat} {kept junk : List UInt8} (hrest : rest = [] ∨ Malformed rest)
    (hlen : (kept ++ (junk ++ (encode rs ++ rest))).length = len) :
    Steady a junk.length rs ↔
      ∀ s, Heads (filterRound a len) (.at kept junk (encode rs ++ rest)) s → ¬ Misread a len s := by
  induction rs generalizing kept junk with
  | nil =>
      refine ⟨fun _ s hs => ?_, fun _ => trivial⟩
      have hdone : ∃ result, filterRound a len (.at kept junk rest) = some (.done result) := by
        by_cases hempty : rest = []
        · subst hempty
          refine ⟨_, filterRound_end ?_⟩
          simp only [FilterState.at, encode_nil, List.append_nil, List.length_append] at hlen ⊢
          omega
        · exact ⟨_, filterRound_malformed kept junk hempty (hrest.resolve_left hempty) hlen.symm⟩
      obtain ⟨result, hdone⟩ := hdone
      rcases heads_iff.mp hs with rfl | ⟨s₁, hnext, -⟩
      · rintro ⟨s', hnext, -⟩
        rw [encode_nil, List.nil_append, hdone] at hnext
        cases hnext
      · rw [encode_nil, List.nil_append, hdone] at hnext
        cases hnext
  | cons r rs ih =>
      have hround := @filterRound_record a len kept junk (encode rs ++ rest) r
        (by simp only [List.length_append, encode_cons] at hlen; omega)
      have hlength := reclenAt_at kept junk (encode rs ++ rest) r
      have hjunk : ((junk ++ r.bytes).drop r.bytes.length).length = junk.length := by simp
      rw [encode_cons, List.append_assoc] at hlen ⊢
      unfold Steady
      by_cases hkeep : r.keep a = true
      · rw [if_pos hkeep] at hround ⊢
        have hnext := @ih (kept ++ r.bytes) ((junk ++ r.bytes).drop r.bytes.length)
          (by simp only [List.length_append, hjunk] at hlen ⊢; omega)
        rw [hjunk] at hnext
        constructor
        · rintro ⟨hreread, hrs⟩ s hs
          rw [at_moved hreread] at hround
          rcases heads_iff.mp hs with rfl | ⟨s₁, hs₁, hs⟩
          · rintro ⟨s', hs', hne⟩
            rw [hround] at hs'
            cases hs'
            rw [hlength] at hne
            exact hne (by simp [FilterState.at]; omega)
          · rw [hround] at hs₁
            cases hs₁
            exact hnext.mp hrs s hs
        · intro hall
          have hreread : r.reread junk.length = r.bytes.length := by
            by_contra hne
            refine hall _ .start ⟨_, hround, ?_⟩
            rw [hlength]
            simpa [FilterState.at, eq_comm] using hne
          rw [at_moved hreread] at hround
          exact ⟨hreread, hnext.mpr fun s hs => hall s (hs.head hround)⟩
      · rw [if_neg hkeep, at_dropped] at hround
        have hnext := @ih kept (junk ++ r.bytes) (by simp only [List.length_append] at hlen ⊢; omega)
        rw [List.length_append] at hnext
        rw [if_neg hkeep, hnext]
        constructor
        · intro hall s hs
          rcases heads_iff.mp hs with rfl | ⟨s₁, hs₁, hs⟩
          · rintro ⟨s', hs', hne⟩
            rw [hround] at hs'
            cases hs'
            rw [hlength] at hne
            exact hne (by simp [FilterState.at]; omega)
          · rw [hround] at hs₁
            cases hs₁
            exact hall s hs
        · exact fun hall s hs => hall s (hs.head hround)

/-- A buffer is steady exactly where no round of the loop reads back a wrong length. -/
theorem steady_iff_not_misread (hrest : rest = [] ∨ Malformed rest) :
    Steady a 0 rs ↔ ∀ s, Heads (filterRound a (encode rs ++ rest).length) ⟨encode rs ++ rest, 0, 0⟩ s →
      ¬ Misread a (encode rs ++ rest).length s :=
  @steady_iff_of_at a rs rest _ [] [] hrest rfl

/-! ## An exact filter -/

theorem filter_keep_eq_visible (ha : a.valid = true) (rs : List DirentRecord) :
    rs.filter (keep a) = visible a rs :=
  List.filter_congr fun r _ => keep_eq_visible ha r

theorem keep_of_mem_visible (ha : a.valid = true) {r : DirentRecord} (h : r ∈ visible a rs) :
    r.keep a = true := by
  rw [← filter_keep_eq_visible ha] at h
  exact (List.mem_filter.mp h).2

/-- Filtering what is left of a listing changes nothing. -/
theorem filter_visible (ha : a.valid = true) (rs : List DirentRecord) :
    filterDirent64Buffer (encode (visible a rs)) (encode (visible a rs)).length (some a) =
      some (encode (visible a rs), ((encode (visible a rs)).length : Int)) := by
  have hkept : ∀ r ∈ visible a rs, r.keep a = true := fun r hr => keep_of_mem_visible ha hr
  obtain ⟨junk, hfilter⟩ := filterDirent64Buffer_steady ha [] (.of_kept hkept)
  rw [List.filter_eq_self.mpr hkept, List.append_nil, List.append_nil] at hfilter
  by_cases hpos : 0 < (encode (visible a rs)).length
  · obtain ⟨after, ret, htotal, hlen, -⟩ := filterDirent64Buffer_total ha hpos
    rw [hfilter, Option.some.injEq, Prod.mk.injEq] at htotal
    obtain ⟨rfl, -⟩ := htotal
    obtain rfl := List.eq_nil_of_length_eq_zero (show junk.length = 0 by simpa using hlen)
    rw [hfilter, List.append_nil]
  · rw [List.eq_nil_of_length_eq_zero (Nat.eq_zero_of_not_pos hpos)]
    simp [filterDirent64Buffer]

/-- On every listing whose kept records all show their lengths after they have been moved: the filter
returns the total length of the visible records and leaves exactly these at the front, each byte for byte
and in order; filtering that again changes nothing. -/
theorem filter_exact (ha : a.valid = true) (h : Steady a 0 rs) :
    (∃ rest, filterDirent64Buffer (encode rs) (encode rs).length (some a) =
      some (encode (visible a rs) ++ rest, ((encode (visible a rs)).length : Int))) ∧
    filterDirent64Buffer (encode (visible a rs)) (encode (visible a rs)).length (some a) =
      some (encode (visible a rs), ((encode (visible a rs)).length : Int)) := by
  obtain ⟨junk, hfilter⟩ := filterDirent64Buffer_steady ha [] h
  rw [filter_keep_eq_visible ha, List.append_nil, List.append_nil] at hfilter
  exact ⟨⟨junk, hfilter⟩, filter_visible ha rs⟩

/-! ## A malformed record -/

/-- No kept record follows a dropped one. -/
def KeptFirst (a : AllowedGpus) (rs : List DirentRecord) : Prop :=
  ∀ r ∈ rs.dropWhile (keep a), r.keep a = false

instance (a : AllowedGpus) (rs : List DirentRecord) : Decidable (KeptFirst a rs) :=
  inferInstanceAs (Decidable (∀ r ∈ rs.dropWhile (keep a), r.keep a = false))

theorem KeptFirst.of_cons {r : DirentRecord} (hr : r.keep a = true) :
    KeptFirst a (r :: rs) ↔ KeptFirst a rs := by
  rw [KeptFirst, List.dropWhile_cons_of_pos hr, KeptFirst]

theorem KeptFirst.steady (h : KeptFirst a rs) : Steady a 0 rs := by
  induction rs with
  | nil => trivial
  | cons r rs ih =>
      by_cases hr : r.keep a = true
      · unfold Steady
        rw [if_pos hr]
        exact ⟨r.reread_zero, ih ((KeptFirst.of_cons hr).mp h)⟩
      · rw [KeptFirst, List.dropWhile_cons_of_neg hr] at h
        exact .of_dropped h

/-- Records are read off the front of a buffer in one way only. -/
theorem bytes_inj {r s : DirentRecord} {tail tail' : List UInt8}
    (h : r.bytes ++ tail = s.bytes ++ tail') : r.bytes = s.bytes ∧ tail = tail' := by
  have hlen : r.bytes.length = s.bytes.length := by
    rw [← reclenOf_append r tail, h, reclenOf_append]
  exact List.append_inj h hlen

/-- The kept records are at the front of the buffer only where no kept record follows a dropped one. -/
theorem KeptFirst.of_start {tail tail' : List UInt8}
    (h : encode (rs.filter (keep a)) ++ tail = encode rs ++ tail') : KeptFirst a rs := by
  induction rs with
  | nil => intro r hr; cases hr
  | cons r rs ih =>
      by_cases hr : r.keep a = true
      · rw [List.filter_cons_of_pos hr, encode_cons, encode_cons, List.append_assoc, List.append_assoc] at h
        exact (KeptFirst.of_cons hr).mpr (ih (List.append_cancel_left h))
      · rw [List.filter_cons_of_neg hr] at h
        rw [KeptFirst, List.dropWhile_cons_of_neg hr]
        cases hfilter : rs.filter (keep a) with
        | nil =>
            intro s hs
            rcases List.mem_cons.mp hs with rfl | hs
            · simpa using hr
            · simpa using List.filter_eq_nil_iff.mp hfilter s hs
        | cons s ss =>
            have hs : s.keep a = true :=
              (List.mem_filter.mp (hfilter ▸ List.mem_cons_self : s ∈ rs.filter (keep a))).2
            rw [hfilter, encode_cons, encode_cons, List.append_assoc, List.append_assoc] at h
            rw [keep_congr (bytes_inj h).1] at hs
            exact absurd hs hr

/-- Where no kept record follows a dropped one, none is moved. -/
theorem KeptFirst.unmoved (h : KeptFirst a rs) :
    encode (rs.filter (keep a)) ++ leftOver a [] rs = encode rs := by
  induction rs with
  | nil => rfl
  | cons r rs ih =>
      rw [leftOver]
      by_cases hr : r.keep a = true
      · have hkept := ih ((KeptFirst.of_cons hr).mp h)
        rw [if_pos hr, List.filter_cons_of_pos hr, encode_cons, encode_cons, List.append_assoc,
          List.nil_append, List.drop_length, hkept]
      · rw [KeptFirst, List.dropWhile_cons_of_neg hr] at h
        have hdropped : ∀ r' ∈ rs, r'.keep a = false := fun r' hr' => h r' (List.mem_cons_of_mem _ hr')
        have hnone : rs.filter (keep a) = [] :=
          List.filter_eq_nil_iff.mpr fun r' hr' => by simp [hdropped r' hr']
        rw [if_neg hr, List.filter_cons_of_neg hr, hnone, leftOver_of_dropped _ hdropped]
        rfl

/-- A malformed buffer is left exactly as it was where no kept record follows a dropped one; and only there,
as long as every length is read back as it was. -/
theorem malformed_unchanged_iff (ha : a.valid = true) (hne : rest ≠ []) (hbad : Malformed rest) :
    let unchanged := filterDirent64Buffer (encode rs ++ rest) (encode rs ++ rest).length (some a) =
      some (encode rs ++ rest, ((encode rs ++ rest).length : Int))
    (KeptFirst a rs → unchanged) ∧ (Steady a 0 rs → unchanged → KeptFirst a rs) := by
  intro unchanged
  constructor
  · intro hfirst
    have hfilter := filterDirent64Buffer_malformed ha hne hbad hfirst.steady
    rwa [← List.append_assoc, hfirst.unmoved] at hfilter
  · intro hsteady h
    have hfilter := filterDirent64Buffer_malformed ha hne hbad hsteady
    have hsame : encode (rs.filter (keep a)) ++ (leftOver a [] rs ++ rest) = encode rs ++ rest := by
      have heq := hfilter.symm.trans h
      simpa using heq
    exact .of_start hsame

/-! ## Listings of the container -/

theorem length_bus4_le : (ascii "0000:04:00.0").length ≤ 255 := by
  decide

theorem length_bus5_le : (ascii "0000:05:00.0").length ≤ 255 := by
  decide

def record4 : DirentRecord :=
  direntOf (ascii "0000:04:00.0") length_bus4_le

def record5 : DirentRecord :=
  direntOf (ascii "0000:05:00.0") length_bus5_le

/-- The hidden entry in the middle is left out. -/
theorem filter_exact_container :
    (∃ rest, filterDirent64Buffer (encode [direntOf dot (by decide), record5, record4])
        (encode [direntOf dot (by decide), record5, record4]).length (some container.allowed) =
      some (encode (visible container.allowed [direntOf dot (by decide), record5, record4]) ++ rest,
        ((encode (visible container.allowed [direntOf dot (by decide), record5, record4])).length : Int))) ∧
    visible container.allowed [direntOf dot (by decide), record5, record4] =
      [direntOf dot (by decide), record4] :=
  ⟨(filter_exact (by decide) (by decide +kernel)).1, rfl⟩

/-- With the visible entry first, a cut-off listing is left as it was. -/
theorem malformed_unchanged_container :
    filterDirent64Buffer (encode [record4, record5] ++ [0, 0, 0]) (encode [record4, record5] ++ [0, 0, 0]).length
      (some container.allowed) =
    some (encode [record4, record5] ++ [0, 0, 0], ((encode [record4, record5] ++ [0, 0, 0]).length : Int)) :=
  (@malformed_unchanged_iff container.allowed [record4, record5] [0, 0, 0] (by decide) (by decide)
    (by decide)).1 (by decide +kernel)

/-- With the hidden entry first, the visible one has already been moved. -/
theorem not_malformed_unchanged :
    ¬ ∀ (a : AllowedGpus) (rs : List DirentRecord) (rest : List UInt8), a.valid = true → rest ≠ [] →
      Malformed rest → filterDirent64Buffer (encode rs ++ rest) (encode rs ++ rest).length (some a) =
        some (encode rs ++ rest, ((encode rs ++ rest).length : Int)) := by
  intro h
  have hmoved := h container.allowed [record5, record4] [0, 0, 0] (by decide) (by decide) (by decide)
  revert hmoved
  decide +kernel

theorem filter_safe_container :
    ∃ after ret, filterDirent64Buffer (encode [record5, record4] ++ [0, 0, 0])
      (encode [record5, record4] ++ [0, 0, 0]).length (some container.allowed) = some (after, ret) ∧
      ret ≤ (encode [record5, record4] ++ [0, 0, 0]).length := by
  have hsafe := filter_safe (a := container.allowed) (by decide) (encode [record5, record4] ++ [0, 0, 0])
    (by decide +kernel)
  obtain ⟨after, ret, -, hfilter, hret⟩ := hsafe.2.2 [record5, record4] [0, 0, 0] rfl
    (Or.inr (by decide)) (by decide +kernel)
  exact ⟨after, ret, hfilter, hret⟩

/-! ## A length read from a name -/

/-- A bus id whose last bytes lie where the length is read back after a move by 24 bytes. -/
def lastingBusId : CStr :=
  ascii "bbbbbbbbbbbbbbbbbbbbbHH"

def lastingAllowed : AllowedGpus where
  valid := true
  gpus := [⟨true, 1, lastingBusId, []⟩, ⟨true, 2, ascii "c", []⟩]
  count_le := by decide

theorem length_lastingBusId_le : lastingBusId.length ≤ 255 := by
  decide

theorem length_a_le : (ascii "a").length ≤ 255 := by
  decide

theorem length_c_le : (ascii "c").length ≤ 255 := by
  decide

/-- Hidden, visible and visible. -/
def lastingListing : List DirentRecord :=
  [direntOf (ascii "a") length_a_le, direntOf lastingBusId length_lastingBusId_le,
    direntOf (ascii "c") length_c_le]

theorem filter_lastingListing : (filterDirent64Buffer (encode lastingListing) (encode lastingListing).length
    (some lastingAllowed)).map Prod.snd = some 18504 := by
  decide +kernel

/-- The length is read back as 18504; the last entry is never looked at. -/
theorem not_filter_exact :
    ¬ ∀ (a : AllowedGpus) (rs : List DirentRecord), a.valid = true →
      ∃ rest, filterDirent64Buffer (encode rs) (encode rs).length (some a) =
        some (encode (visible a rs) ++ rest, ((encode (visible a rs)).length : Int)) := by
  intro h
  obtain ⟨rest, hfilter⟩ := h lastingAllowed lastingListing rfl
  have hlong := filter_lastingListing
  have hlen : (encode (visible lastingAllowed lastingListing)).length = 72 := by decide +kernel
  rw [hfilter, Option.map_some, hlen] at hlong
  cases hlong

/-- It is also what the filter returns for a buffer of 96 bytes. -/
theorem not_filter_safe :
    ¬ ∀ (a : AllowedGpus) (buffer : List UInt8), a.valid = true → 0 < buffer.length →
      (∀ s, Heads (filterRound a buffer.length) ⟨buffer, 0, 0⟩ s →
        s.buffer.length = buffer.length ∧ s.writeOffset ≤ s.readOffset ∧
          filterRound a buffer.length s ≠ none) ∧
      ∃ after ret, filterLoop a buffer.length (buffer.length / 20 + 1) buffer 0 0 = some (after, ret) ∧
        filterDirent64Buffer buffer buffer.length (some a) = some (after, ret) ∧
        0 ≤ ret ∧ ret ≤ buffer.length := by
  intro h
  obtain ⟨-, after, ret, -, hfilter, -, hret⟩ := h lastingAllowed (encode lastingListing) rfl
    (by decide +kernel)
  have hlong := filter_lastingListing
  have hlen : (encode lastingListing).length = 96 := by decide +kernel
  rw [hfilter, Option.map_some, Option.some.injEq] at hlong
  simp only at hlong
  rw [hlong, hlen] at hret
  omega

end Nvscope
