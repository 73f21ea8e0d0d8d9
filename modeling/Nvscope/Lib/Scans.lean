import Nvscope.Lib.Chars
import Nvscope.Lib.Decimal

/-!
# Scans of a text, load by load

Trimming, numerals and lines of a text that lies in an array, and what they make of it as lists.
-/

namespace Lib

variable {m : List UInt8} {s line : List UInt8} {off len i k : Nat}

theorem slice_eq_some : slice m off len = some s ↔
    ∃ pre post, m = pre ++ (s ++ post) ∧ pre.length = off ∧ s.length = len := by
  constructor
  · intro h
    simp only [slice, Option.ite_none_right_eq_some, Option.some.injEq] at h
    obtain ⟨hle, rfl⟩ := h
    refine ⟨m.take off, m.drop (off + len), ?_, ?_, ?_⟩
    · simp [← List.drop_drop]
    · simp
      omega
    · simp
      omega
  · rintro ⟨pre, post, rfl, rfl, rfl⟩
    exact slice_append pre s post

theorem length_of_slice (h : slice m off len = some s) : s.length = len := by
  obtain ⟨-, -, -, -, hlen⟩ := slice_eq_some.mp h
  exact hlen

/-- A load inside a slice. -/
theorem getElem?_of_slice (h : slice m off len = some s) (hi : i < len) : m[off + i]? = s[i]? := by
  obtain ⟨pre, post, rfl, rfl, rfl⟩ := slice_eq_some.mp h
  rw [List.getElem?_append_right (Nat.le_add_right _ _), Nat.add_sub_cancel_left, List.getElem?_append_left hi]

/-- A slice of a slice. -/
theorem slice_of_slice (h : slice m off len = some s) (hle : i + k ≤ len) :
    slice m (off + i) k = some ((s.drop i).take k) := by
  obtain ⟨pre, post, rfl, rfl, rfl⟩ := slice_eq_some.mp h
  exact (slice_append_add post hle).trans (if_pos hle)

theorem slice_zero_take (h : slice m off len = some s) (hle : k ≤ len) : slice m off k = some (s.take k) := by
  simpa using slice_of_slice (i := 0) h (by omega)

theorem slice_zero_drop (h : slice m off len = some s) (hle : i ≤ len) :
    slice m (off + i) (len - i) = some (s.drop i) := by
  have hlen := length_of_slice h
  have hsub := slice_of_slice (i := i) (k := len - i) h (by omega)
  rwa [List.take_of_length_le (by simp [hlen])] at hsub

/-- The text in front of the terminator. -/
theorem slice_of_cstrAt (h : cstrAt m off = some s) : slice m off s.length = some s := by
  obtain ⟨post, hdrop, -⟩ := cstrAt_eq_some.mp h
  have hlen := congrArg List.length hdrop
  simp only [List.length_drop, List.length_append, List.length_cons] at hlen
  refine slice_eq_some.mpr ⟨m.take off, 0 :: post, ?_, ?_, rfl⟩
  · rw [← hdrop, List.take_append_drop]
  · simp
    omega

/-- `memcpy(dst, m + off, n)`. -/
def memcpy (dst m : List UInt8) (off n : Nat) : Option (List UInt8) :=
  (slice m off n).bind (storeMany dst 0)

/-- `strncpy(dst, m + off, n)`. -/
def strncpy (dst m : List UInt8) (off n : Nat) : Option (List UInt8) :=
  (strnlen m off n).bind fun len =>
    (slice m off len).bind fun bytes => storeMany dst 0 (bytes ++ List.replicate (n - len) 0)

/-- `strncpy` of all but one byte of an array of `size` bytes, and a terminator at its end. -/
def copyBounded (dst : List UInt8) (size : Nat) (m : List UInt8) (off : Nat) : Option (List UInt8) :=
  (strncpy dst m off (size - 1)).bind fun dst => store dst (size - 1) 0

theorem strncpy_eq {dst rest : List UInt8} {n : Nat} (h : cstrAt m off = some s) (hdst : n ≤ dst.length)
    (hrest : dst.drop n = rest) :
    strncpy dst m off n = some ((s.take n ++ List.replicate (n - (s.take n).length) 0) ++ rest) := by
  have hbytes : slice m off (s.take n).length = some (s.take n) := by
    have hle : (s.take n).length ≤ s.length := List.length_take_le' n s
    have hslice := slice_zero_take (slice_of_cstrAt h) hle
    have htake : s.take (s.take n).length = s.take n := by rw [List.length_take, ← List.take_eq_take_min]
    rwa [htake] at hslice
  have hn : (s.take n ++ List.replicate (n - (s.take n).length) 0).length = n := by
    simp
  have hstore := @storeMany_append _ [] dst (s.take n ++ List.replicate (n - (s.take n).length) 0) (by omega)
  rw [strncpy, strnlen_eq h, Option.bind_some, hbytes, Option.bind_some]
  rwa [List.nil_append, List.nil_append, List.length_nil, hn, hrest] at hstore

theorem copyBounded_eq {dst : List UInt8} {n : Nat} (h : cstrAt m off = some s) (hdst : dst.length = n) (hn : 0 < n) :
    ∃ dst', copyBounded dst n m off = some dst' ∧ dst'.length = n ∧ cstrAt dst' 0 = some (s.take (n - 1)) := by
  obtain ⟨-, -, hs⟩ := cstrAt_eq_some.mp h
  have hnul : (0 : UInt8) ∉ s.take (n - 1) := fun hmem => hs (List.mem_of_mem_take hmem)
  have hshort : (s.take (n - 1)).length ≤ n - 1 := List.length_take_le _ _
  obtain ⟨c, hlast⟩ : ∃ c, dst.drop (n - 1) = [c] :=
    List.length_eq_one_iff.mp (by rw [List.length_drop]; omega)
  have hcopy := strncpy_eq h (by omega) hlast
  generalize s.take (n - 1) = bytes at hcopy hnul hshort ⊢
  have hfront : (bytes ++ List.replicate (n - 1 - bytes.length) 0).length = n - 1 := by
    simp
    omega
  have hstore := store_append (bytes ++ List.replicate (n - 1 - bytes.length) 0) [] c 0
  rw [hfront] at hstore
  have hzeros : (bytes ++ List.replicate (n - 1 - bytes.length) 0) ++ [0] =
      bytes ++ 0 :: List.replicate (n - 1 - bytes.length) 0 := by
    rw [List.append_assoc, ← List.replicate_succ', List.replicate_succ]
  refine ⟨_, by rw [copyBounded, hcopy, Option.bind_some, hstore], ?_, ?_⟩
  · rw [List.length_append, hfront, List.length_singleton]
    omega
  · rw [hzeros]
    exact cstrAt_zero_of_append hnul

/-! ## Blanks -/

section

variable {p : UInt8 → Bool}

def trimFrontRound (p : UInt8 → Bool) (m : List UInt8) (st : Nat × Nat) : Option (Round (Nat × Nat) (Nat × Nat)) :=
  let (cursor, remaining) := st
  if remaining > 0 then
    m[cursor]?.map fun c => if p c then .next (cursor + 1, remaining - 1) else .done (cursor, remaining)
  else some (.done (cursor, remaining))

def trimBackRound (p : UInt8 → Bool) (m : List UInt8) (cursor remaining : Nat) : Option (Round Nat Nat) :=
  if remaining > 0 then
    m[cursor + (remaining - 1)]?.map fun c => if !p c then .done remaining else .next (remaining - 1)
  else some (.done remaining)

/-- The two loops that move the ends of a slice over its blanks. -/
def trimAt (p : UInt8 → Bool) (m : List UInt8) (start len : Nat) : Option (Nat × Nat) :=
  (loop (trimFrontRound p m) (len + 1) (start, len)).bind fun (cursor, remaining) =>
    (loop (trimBackRound p m cursor) (remaining + 1) remaining).map fun remaining => (cursor, remaining)

theorem loop_trimFront {fuel : Nat} (h : slice m off len = some s) (hfuel : len < fuel) :
    ∃ off' len', loop (trimFrontRound p m) fuel (off, len) = some (off', len') ∧
      slice m off' len' = some (s.dropWhile p) := by
  induction s generalizing off len fuel with
  | nil =>
      obtain rfl := length_of_slice h
      obtain ⟨fuel, rfl, -⟩ := exists_fuel hfuel
      exact ⟨off, 0, loop_done rfl, h⟩
  | cons c s ih =>
      obtain rfl := length_of_slice h
      obtain ⟨fuel, rfl, hle⟩ := exists_fuel hfuel
      have hload : m[off]? = some c := by simpa using getElem?_of_slice (i := 0) h (by simp)
      have hround : trimFrontRound p m (off, (c :: s).length) =
          some (if p c then .next (off + 1, s.length) else .done (off, (c :: s).length)) := by
        simp [trimFrontRound, hload]
      cases hc : p c with
      | true =>
          have hrest : slice m (off + 1) s.length = some s := by
            simpa using slice_zero_drop (i := 1) h (by simp)
          obtain ⟨off', len', hloop, hslice⟩ := ih hrest hle
          simp only [hc, ↓reduceIte] at hround
          refine ⟨off', len', ?_, ?_⟩
          · rw [loop_next hround, hloop]
          · rw [List.dropWhile_cons_of_pos hc, hslice]
      | false =>
          simp only [hc, Bool.false_eq_true, ↓reduceIte] at hround
          refine ⟨off, (c :: s).length, loop_done hround, ?_⟩
          rw [List.dropWhile_cons_of_neg (by simp [hc]), h]

theorem loop_trimBack {fuel : Nat} (h : slice m off len = some s) (hfuel : len < fuel) :
    ∃ len', loop (trimBackRound p m off) fuel len = some len' ∧ slice m off len' = some (s.rdropWhile p) := by
  induction s using List.reverseRecOn generalizing len fuel with
  | nil =>
      obtain rfl := length_of_slice h
      obtain ⟨fuel, rfl, -⟩ := exists_fuel hfuel
      exact ⟨0, loop_done rfl, h⟩
  | append_singleton s c ih =>
      obtain rfl := length_of_slice h
      obtain ⟨fuel, rfl, hle⟩ := exists_fuel hfuel
      have hload : m[off + s.length]? = some c := by
        simpa using getElem?_of_slice (i := s.length) h (by simp)
      have hround : trimBackRound p m off (s ++ [c]).length =
          some (if !p c then .done (s ++ [c]).length else .next s.length) := by
        simp [trimBackRound, hload]
      cases hc : p c with
      | true =>
          have hrest : slice m off s.length = some s := by
            simpa using slice_zero_take (k := s.length) h (by simp)
          obtain ⟨len', hloop, hslice⟩ := ih hrest (by simpa [Nat.succ_le_iff] using hle)
          simp only [hc, Bool.not_true, Bool.false_eq_true, ↓reduceIte] at hround
          refine ⟨len', ?_, ?_⟩
          · rw [loop_next hround, hloop]
          · rw [List.rdropWhile_concat_pos _ _ _ hc, hslice]
      | false =>
          simp only [hc, Bool.not_false, ↓reduceIte] at hround
          refine ⟨(s ++ [c]).length, loop_done hround, ?_⟩
          rw [List.rdropWhile_concat_neg _ _ _ (by simp [hc]), h]

theorem trimAt_eq (h : slice m off len = some s) :
    ∃ off' len', trimAt p m off len = some (off', len') ∧ slice m off' len' = some (trim p s) := by
  obtain ⟨off', len', hfront, hslice⟩ := @loop_trimFront m s off len p (len + 1) h (Nat.lt_succ_self len)
  obtain ⟨len'', hback, htrim⟩ := @loop_trimBack m _ off' len' p (len' + 1) hslice (Nat.lt_succ_self len')
  refine ⟨off', len'', ?_, htrim⟩
  simp [trimAt, hfront, hback]

end

/-! ## Search -/

section

variable {p : UInt8 → Bool}

def anyRound (p : UInt8 → Bool) (m : List UInt8) (off len i : Nat) : Option (Round Nat Bool) :=
  if i < len then m[off + i]?.map fun c => if p c then .done true else .next (i + 1) else some (.done false)

/-- Whether a byte of the slice satisfies `p`. -/
def anyAt (p : UInt8 → Bool) (m : List UInt8) (off len : Nat) : Option Bool :=
  loop (anyRound p m off len) (len + 1) 0

theorem loop_any {fuel : Nat} (h : slice m off len = some s) (hi : i ≤ len) (hfuel : len - i < fuel) :
    loop (anyRound p m off len) fuel i = some ((s.drop i).any p) := by
  have hlen := length_of_slice h
  induction fuel generalizing i with
  | zero => exact absurd hfuel (Nat.not_lt_zero _)
  | succ fuel ih =>
      by_cases hlt : i < len
      · have hdrop : s.drop i = s[i] :: s.drop (i + 1) := List.drop_eq_getElem_cons (by omega)
        have hload : m[off + i]? = some s[i] := by
          rw [getElem?_of_slice h hlt, List.getElem?_eq_getElem]
        rw [hdrop, List.any_cons]
        cases hc : p s[i] with
        | true => exact loop_done (by simp [anyRound, hlt, hload, hc])
        | false =>
            have hround : anyRound p m off len i = some (.next (i + 1)) := by simp [anyRound, hlt, hload, hc]
            rw [loop_next hround, ih hlt (by omega), Bool.false_or]
      · rw [List.drop_eq_nil_of_le (by omega)]
        exact loop_done (by simp [anyRound, hlt])

theorem anyAt_eq (h : slice m off len = some s) : anyAt p m off len = some (s.any p) :=
  loop_any h (Nat.zero_le len) (Nat.lt_succ_self _)

end

/-! ## Numerals -/

/-- What the loop of `parseDigitsIn` does with a byte; `i` is its index. -/
def digitAfter (max i value : Nat) (c : UInt8) : Option (Round (Nat × Nat) (Option Nat)) :=
  if !isDigit c then some (.done none)
  else if value > (max - digit c) / 10 then some (.done none)
  else
    (inType max (value * 10)).bind fun product =>
      (inType max (product + digit c)).map fun value => .next (i + 1, value)

def digitRound (max : Nat) (m : List UInt8) (off len : Nat) (st : Nat × Nat) :
    Option (Round (Nat × Nat) (Option Nat)) :=
  let (i, value) := st
  if i < len then m[off + i]?.bind (digitAfter max i value) else some (.done (some value))

/-- The loop of `parseDigitsIn` over a slice. -/
def parseDigitsAt (max : Nat) (m : List UInt8) (off len : Nat) : Option (Option Nat) :=
  loop (digitRound max m off len) (len + 1) (0, 0)

def cstrDigitRound (max : Nat) (m : List UInt8) (off : Nat) (st : Nat × Nat) :
    Option (Round (Nat × Nat) (Option Nat)) :=
  let (i, value) := st
  m[off + i]?.bind fun c => if c == 0 then some (.done (some value)) else digitAfter max i value c

/-- The loop of `parseDigitsIn` over a string. -/
def parseDigitsCStr (max : Nat) (m : List UInt8) (off : Nat) : Option (Option Nat) :=
  loop (cstrDigitRound max m off) (m.length + 1) (0, 0)

theorem digitAfter_cases {max value : Nat} {c : UInt8} {r : Option Nat}
    (hparse : parseDigitsIn max value (c :: s) = some r) :
    digitAfter max i value c = some (.done r) ∨
      ∃ value', digitAfter max i value c = some (.next (i + 1, value')) ∧ parseDigitsIn max value' s = some r := by
  rw [parseDigitsIn] at hparse
  cases hc : isDigit c with
  | false =>
      simp only [hc, Bool.not_false, ↓reduceIte, Option.some.injEq] at hparse
      exact Or.inl (by simp [digitAfter, hc, ← hparse])
  | true =>
      simp only [hc, Bool.not_true, Bool.false_eq_true, ↓reduceIte] at hparse
      by_cases hbig : value > (max - digit c) / 10
      · simp only [hbig, ↓reduceIte, Option.some.injEq] at hparse
        exact Or.inl (by simp [digitAfter, hc, hbig, ← hparse])
      · simp only [hbig, ↓reduceIte, Option.bind_eq_some_iff] at hparse
        obtain ⟨product, hproduct, value', hvalue, hrest⟩ := hparse
        exact Or.inr ⟨value', by simp [digitAfter, hc, hbig, hproduct, hvalue], hrest⟩

theorem loop_digit {max value fuel : Nat} {r : Option Nat} (h : slice m off len = some s) (hi : i ≤ len)
    (hparse : parseDigitsIn max value (s.drop i) = some r) (hfuel : len - i < fuel) :
    loop (digitRound max m off len) fuel (i, value) = some r := by
  have hlen := length_of_slice h
  induction fuel generalizing i value with
  | zero => exact absurd hfuel (Nat.not_lt_zero _)
  | succ fuel ih =>
      by_cases hlt : i < len
      · have hdrop : s.drop i = s[i] :: s.drop (i + 1) := List.drop_eq_getElem_cons (by omega)
        have hload : m[off + i]? = some s[i] := by
          rw [getElem?_of_slice h hlt, List.getElem?_eq_getElem]
        have hround : digitRound max m off len (i, value) = digitAfter max i value s[i] := by
          simp [digitRound, hlt, hload]
        rw [hdrop] at hparse
        rcases digitAfter_cases hparse with hdone | ⟨value', hnext, hrest⟩
        · exact loop_done (hround.trans hdone)
        · rw [loop_next (hround.trans hnext)]
          exact ih hlt hrest (by omega)
      · have hend : s.drop i = [] := List.drop_eq_nil_of_le (by omega)
        rw [hend, parseDigitsIn] at hparse
        cases hparse
        exact loop_done (by simp [digitRound, hlt])

theorem loop_cstrDigit {max value fuel : Nat} {r : Option Nat} {pre : CStr} {post : List UInt8} (hs : (0 : UInt8) ∉ s)
    (hdrop : m.drop off = pre ++ (s ++ 0 :: post)) (hparse : parseDigitsIn max value s = some r)
    (hfuel : s.length < fuel) : loop (cstrDigitRound max m off) fuel (pre.length, value) = some r := by
  induction s generalizing pre value fuel with
  | nil =>
      obtain ⟨fuel, rfl, -⟩ := exists_fuel hfuel
      cases hparse
      exact loop_done (by simp [cstrDigitRound, getElem?_of_drop hdrop])
  | cons c s ih =>
      obtain ⟨fuel, rfl, hle⟩ := exists_fuel hfuel
      have hc : c ≠ 0 := fun h => hs (h ▸ List.mem_cons_self)
      have hround : cstrDigitRound max m off (pre.length, value) = digitAfter max pre.length value c := by
        simp [cstrDigitRound, getElem?_of_drop hdrop, hc]
      rcases digitAfter_cases hparse with hdone | ⟨value', hnext, hrest⟩
      · exact loop_done (hround.trans hdone)
      · have hloop := @ih value' fuel (pre ++ [c]) (fun h => hs (List.mem_cons_of_mem c h)) (by simpa using hdrop) hrest hle
        rw [List.length_append, List.length_singleton] at hloop
        rw [loop_next (hround.trans hnext), hloop]

theorem parseDigitsAt_eq {max : Nat} (hmax : 9 ≤ max) (h : slice m off len = some s) :
    parseDigitsAt max m off len = some (parseDigits max 0 s) :=
  loop_digit h (Nat.zero_le len) (parseDigitsIn_eq hmax 0 s) (by omega)

theorem parseDigitsCStr_eq {max : Nat} (hmax : 9 ≤ max) (h : cstrAt m off = some s) :
    parseDigitsCStr max m off = some (parseDigits max 0 s) := by
  obtain ⟨post, hdrop, hs⟩ := cstrAt_eq_some.mp h
  have hlen := congrArg List.length hdrop
  rw [List.length_drop, List.length_append, List.length_cons] at hlen
  exact @loop_cstrDigit m s off max 0 (m.length + 1) _ [] post hs hdrop (parseDigitsIn_eq hmax 0 s) (by omega)

/-! ## Lines -/

section

variable {σ τ : Type} {sep : UInt8}

def lineEndRound (sep : UInt8) (m : List UInt8) (len next : Nat) : Option (Round Nat Nat) :=
  if next < len then m[next]?.map fun c => if c != sep then .next (next + 1) else .done next
  else some (.done next)

/-- One line of the text in the first `len` bytes, from `offset` on: its start and its length go to `body`. -/
def lineRound (sep : UInt8) (m : List UInt8) (len : Nat) (body : Nat → Nat → σ → Option σ) (st : Nat × σ) :
    Option (Round (Nat × σ) σ) :=
  let (offset, s) := st
  if offset < len then
    (loop (lineEndRound sep m len) (len + 1) offset).bind fun next =>
      (body offset (next - offset) s).bind fun s =>
        if next < len then m[next]?.map fun c => .next (if c == sep then next + 1 else next, s)
        else some (.next (next, s))
  else some (.done s)

def scanLinesAt (sep : UInt8) (m : List UInt8) (len : Nat) (body : Nat → Nat → σ → Option σ) (s : σ) : Option σ :=
  loop (lineRound sep m len body) (len + 1) (0, s)

/-- The end of a line is its separator, or the end of the text. -/
theorem loop_lineEnd {fuel : Nat} (h : slice m off line.length = some line) (hline : sep ∉ line)
    (hend : off + line.length = len ∨ off + line.length < len ∧ m[off + line.length]? = some sep)
    (hfuel : line.length < fuel) : loop (lineEndRound sep m len) fuel off = some (off + line.length) := by
  induction line generalizing off fuel with
  | nil =>
      obtain ⟨fuel, rfl, -⟩ := exists_fuel hfuel
      refine loop_done ?_
      rcases hend with hend | ⟨hlt, hsep⟩
      · simp only [List.length_nil, Nat.add_zero] at hend ⊢
        simp [lineEndRound, hend]
      · simp only [List.length_nil, Nat.add_zero] at hlt hsep ⊢
        simp [lineEndRound, hlt, hsep]
  | cons c line ih =>
      obtain ⟨fuel, rfl, hle⟩ := exists_fuel hfuel
      simp only [List.mem_cons, not_or] at hline
      simp only [List.length_cons] at h hend hle ⊢
      have hload : m[off]? = some c := by simpa using getElem?_of_slice (i := 0) h (by omega)
      have hlt : off < len := by omega
      have hround : lineEndRound sep m len off = some (.next (off + 1)) := by
        simp [lineEndRound, hlt, hload, Ne.symm hline.1]
      have hrest : slice m (off + 1) line.length = some line := by
        simpa using slice_zero_drop (i := 1) h (by omega)
      have hadd : off + 1 + line.length = off + (line.length + 1) := by omega
      rw [loop_next hround, ih hrest hline.2 (hadd ▸ hend) hle, hadd]

theorem scanLines_append {f : τ → List UInt8 → τ} {w : List UInt8} (hw : sep ∉ w) (rest line : List UInt8) (t : τ) :
    scanLines sep f (w ++ rest) line t = scanLines sep f rest (line ++ w) t := by
  induction w generalizing line with
  | nil => simp
  | cons c w ih =>
      simp only [List.mem_cons, not_or] at hw
      rw [List.cons_append, scanLines, if_neg (Ne.symm hw.1), ih hw.2, List.append_assoc, List.singleton_append]

variable {R : σ → τ → Prop} {body : Nat → Nat → σ → Option σ} {f : τ → List UInt8 → τ} {a : σ} {b : τ}

/-- A round of the loop over the lines: to the next one, or to the end of the text. -/
theorem lineRound_next {a' : σ} (hline : slice m off line.length = some line) (hsep : sep ∉ line) (hlt : off < len)
    (hend : off + line.length = len ∨ off + line.length < len ∧ m[off + line.length]? = some sep)
    (hbody : body off line.length a = some a') :
    lineRound sep m len body (off, a) =
      some (.next (if off + line.length = len then len else off + line.length + 1, a')) := by
  have hfuel : line.length < len + 1 := by omega
  have hnext : off + line.length - off = line.length := by omega
  simp only [lineRound, hlt, ↓reduceIte, loop_lineEnd hline hsep hend hfuel, Option.bind_some, hnext, hbody]
  rcases hend with hend | ⟨hlt', hload⟩
  · simp [hend]
  · simp [hlt', hload, Nat.ne_of_lt hlt']

/-- A body that keeps up with `f` on each line keeps up with it on the text. -/
theorem loop_line {fuel : Nat} (h : slice m off s.length = some s) (hend : off + s.length = len)
    (hbody : ∀ start line a b, slice m start line.length = some line → start + line.length ≤ len → R a b →
      ∃ a', body start line.length a = some a' ∧ R a' (f b line)) (hab : R a b) (hfuel : s.length < fuel) :
    ∃ a', loop (lineRound sep m len body) fuel (off, a) = some a' ∧ R a' (scanLines sep f s [] b) := by
  induction fuel generalizing off s a b with
  | zero => exact absurd hfuel (Nat.not_lt_zero _)
  | succ fuel ih =>
      by_cases hempty : s = []
      · subst hempty
        simp only [List.length_nil, Nat.add_zero] at hend
        exact ⟨a, loop_done (by simp [lineRound, hend]), hab⟩
      · have hpos : 0 < s.length := List.length_pos_iff.mpr hempty
        by_cases hmem : sep ∈ s
        · obtain ⟨line, rest, rfl, hline⟩ := List.eq_append_cons_of_mem hmem
          simp only [List.length_append, List.length_cons] at h hend hfuel
          have hslice : slice m off line.length = some line := by
            simpa using slice_zero_take (k := line.length) h (by omega)
          have hload : m[off + line.length]? = some sep := by
            simpa using getElem?_of_slice (i := line.length) h (by omega)
          have hrest : slice m (off + line.length + 1) rest.length = some rest := by
            have hdrop := slice_zero_drop (i := line.length + 1) h (by omega)
            simpa [Nat.add_assoc, Nat.add_sub_add_left] using hdrop
          obtain ⟨a', hcall, hab'⟩ := hbody off line a b hslice (by omega) hab
          have hround := @lineRound_next m line off len σ sep body a a' hslice hline (by omega)
            (Or.inr ⟨by omega, hload⟩) hcall
          rw [if_neg (by omega)] at hround
          rw [loop_next hround, scanLines_append hline, List.nil_append, scanLines, if_pos rfl]
          exact ih hrest (by omega) hab' (by omega)
        · obtain ⟨a', hcall, hab'⟩ := hbody off s a b h (Nat.le_of_eq hend) hab
          have hround := @lineRound_next m s off len σ sep body a a' h hmem (by omega) (Or.inl hend) hcall
          rw [if_pos hend] at hround
          have hscan : scanLines sep f s [] b = f b s := by
            have happend := scanLines_append (f := f) hmem [] [] b
            rwa [List.append_nil, List.nil_append, scanLines, if_neg hempty] at happend
          rw [loop_next hround, hscan]
          have hnil : slice m len ([] : List UInt8).length = some [] := by
            have hdrop := slice_zero_drop (i := s.length) h (Nat.le_refl _)
            rwa [hend, Nat.sub_self, List.drop_length] at hdrop
          exact ih hnil (Nat.add_zero len) hab' (by simp only [List.length_nil]; omega)

theorem scanLinesAt_related (sep : UInt8) (h : slice m 0 len = some s)
    (hbody : ∀ start line a b, slice m start line.length = some line → start + line.length ≤ len → R a b →
      ∃ a', body start line.length a = some a' ∧ R a' (f b line)) (hab : R a b) :
    ∃ a', scanLinesAt sep m len body a = some a' ∧ R a' (scanLines sep f s [] b) := by
  obtain rfl := length_of_slice h
  exact loop_line h (Nat.zero_add _) hbody hab (Nat.lt_succ_self _)

end

end Lib
