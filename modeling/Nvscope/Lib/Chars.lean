import Nvscope.Lib.Checked
import Nvscope.Lib.Lines
import Nvscope.Lib.Loops
import Nvscope.Lib.Memory

/-!
# Strings in arrays, load by load

The functions of `string.h` and the usual loops over a text. A pointer is an array and an index, a slice is an
index and a length; `none` is a load or a store outside the array.
-/

namespace Lib

variable {m m' : List UInt8} {s t : CStr} {off off' : Nat}

/-- The array of a string literal. -/
def literal (s : CStr) : List UInt8 := s ++ [0]

/-- An array that holds a string. -/
structure StrArray where
  bytes : List UInt8
  terminated : 0 ∈ bytes

def StrArray.str (a : StrArray) : CStr := a.bytes.takeWhile (· != 0)

/-- `snprintf(dst, size, "%s", s)`, whose value is the length of `s`. -/
def snprintf (dst : List UInt8) (size : Nat) (s : CStr) : Option (List UInt8) :=
  if size = 0 then some dst else storeMany dst 0 (literal (s.take (size - 1)))

theorem takeWhile_ne_zero_append (hs : (0 : UInt8) ∉ s) (post : List UInt8) :
    (s ++ 0 :: post).takeWhile (· != 0) = s := by
  have hall : ∀ c ∈ s, (c != 0) = true := by
    intro c hc
    simp only [bne_iff_ne]
    rintro rfl
    exact hs hc
  simp [List.takeWhile_append_of_pos hall]

/-- Where a string starts, its bytes follow, and its terminator. -/
theorem cstrAt_eq_some : cstrAt m off = some s ↔ ∃ post, m.drop off = s ++ 0 :: post ∧ (0 : UInt8) ∉ s := by
  rw [cstrAt]
  constructor
  · intro h
    split at h
    · rename_i hmem
      cases h
      have hrest : (m.drop off).dropWhile (· != 0) ≠ [] := by
        rw [Ne, List.dropWhile_eq_nil_iff]
        intro hall
        simpa using hall 0 hmem
      obtain ⟨c, post, hc⟩ := List.exists_cons_of_ne_nil hrest
      have hzero := List.head?_dropWhile_not (· != 0) (m.drop off)
      rw [hc] at hzero
      have hc0 : c = 0 := by simpa using hzero
      refine ⟨post, ?_, fun h0 => ?_⟩
      · rw [hc0] at hc
        rw [← hc, List.takeWhile_append_dropWhile]
      · simpa using List.mem_takeWhile_imp h0
    · cases h
  · rintro ⟨post, hdrop, hs⟩
    rw [hdrop, if_pos (by simp), takeWhile_ne_zero_append hs]

theorem StrArray.cstrAt_zero (a : StrArray) : cstrAt a.bytes 0 = some a.str := by
  rw [cstrAt, List.drop_zero, if_pos a.terminated]
  rfl

theorem exists_strArray (h : cstrAt m 0 = some s) : ∃ a : StrArray, a.bytes = m ∧ a.str = s := by
  obtain ⟨post, hdrop, hs⟩ := cstrAt_eq_some.mp h
  rw [List.drop_zero] at hdrop
  subst hdrop
  exact ⟨⟨s ++ 0 :: post, by simp⟩, rfl, takeWhile_ne_zero_append hs post⟩

theorem cstrAt_literal (hs : (0 : UInt8) ∉ s) : cstrAt (literal s) 0 = some s :=
  cstrAt_eq_some.mpr ⟨[], rfl, hs⟩

/-- The string of an array whose front has been written. -/
theorem cstrAt_zero_of_append {written rest : List UInt8} (h : (0 : UInt8) ∉ written) :
    cstrAt (written ++ 0 :: rest) 0 = some written :=
  cstrAt_eq_some.mpr ⟨rest, rfl, h⟩

/-- A pointer into a string. -/
theorem cstrAt_add (h : cstrAt m off = some s) {i : Nat} (hi : i ≤ s.length) :
    cstrAt m (off + i) = some (s.drop i) := by
  obtain ⟨post, hdrop, hs⟩ := cstrAt_eq_some.mp h
  refine cstrAt_eq_some.mpr ⟨post, ?_, fun hmem => hs (List.mem_of_mem_drop hmem)⟩
  rw [← List.drop_drop, hdrop, List.drop_append_of_le_length hi]

/-- Bytes in front of a terminator may hold one of their own. -/
theorem cstrAt_zero_of_bytes (bytes rest : List UInt8) :
    cstrAt (bytes ++ 0 :: rest) 0 = some (bytes.takeWhile (· != 0)) := by
  rw [cstrAt, List.drop_zero, if_pos (by simp)]
  induction bytes with
  | nil => rfl
  | cons c bytes ih =>
      cases hc : c != 0 with
      | true => simpa [hc] using ih
      | false => simp [hc]

theorem cstrAt_zeros {n : Nat} (hn : 0 < n) : cstrAt (List.replicate n 0) 0 = some [] := by
  obtain ⟨k, rfl⟩ := Nat.exists_eq_succ_of_ne_zero (Nat.pos_iff_ne_zero.mp hn)
  exact cstrAt_zero_of_append List.not_mem_nil

/-- A load at a pointer to a string. -/
theorem load_head (h : cstrAt m off = some s) : m[off]? = some (s.headD 0) := by
  obtain ⟨post, hdrop, -⟩ := cstrAt_eq_some.mp h
  rw [← List.head?_drop, hdrop]
  cases s <;> rfl

theorem headD_eq_zero_iff (hs : (0 : UInt8) ∉ s) : s.headD 0 = 0 ↔ s = [] := by
  cases s with
  | nil => simp
  | cons c s =>
      have hc : c ≠ 0 := fun h => hs (h ▸ List.mem_cons_self)
      simp [hc]

theorem getElem?_of_drop {pre rest : List UInt8} {c : UInt8} (h : m.drop off = pre ++ c :: rest) :
    m[off + pre.length]? = some c := by
  rw [← List.getElem?_drop, h]
  simp

/-- The part of a string that is looked at from index `i` on, where `limit` bytes are looked at in all. -/
def upTo (limit : Option Nat) (i : Nat) (s : CStr) : CStr :=
  match limit with
  | none => s
  | some n => s.take (n - i)

theorem upTo_cons {limit : Option Nat} {i : Nat} (hlimit : ∀ n, limit = some n → i ≤ n) (hend : limit ≠ some i)
    (c : UInt8) (s : CStr) : upTo limit i (c :: s) = c :: upTo limit (i + 1) s := by
  cases limit with
  | none => rfl
  | some n =>
      have hlt : i < n := Nat.lt_of_le_of_ne (hlimit n rfl) fun h => hend (h ▸ rfl)
      rw [upTo, upTo, show n - i = n - (i + 1) + 1 by omega, List.take_succ_cons]

theorem upTo_nil (limit : Option Nat) (i : Nat) : upTo limit i [] = [] := by
  cases limit with
  | none => rfl
  | some n => exact List.take_nil

theorem upTo_end (i : Nat) (s : CStr) : upTo (some i) i s = [] := by
  rw [upTo, Nat.sub_self, List.take_zero]

theorem limit_succ {limit : Option Nat} {i : Nat} (hlimit : ∀ n, limit = some n → i ≤ n) (hend : limit ≠ some i) :
    ∀ n, limit = some n → i + 1 ≤ n := by
  intro n hn
  have hle := hlimit n hn
  have hne : i ≠ n := fun h => hend (h ▸ hn)
  omega

/-! ## Length -/

def spanRound (limit : Option Nat) (p : UInt8 → Bool) (m : List UInt8) (off n : Nat) : Option (Round Nat Nat) :=
  if limit = some n then some (.done n)
  else m[off + n]?.map fun c => if p c then .next (n + 1) else .done n

/-- The number of bytes in front that satisfy `p`, which is false of the terminator. -/
def spanAt (limit : Option Nat) (p : UInt8 → Bool) (m : List UInt8) (off : Nat) : Option Nat :=
  loop (spanRound limit p m off) (m.length + 1) 0

def strlen (m : List UInt8) (off : Nat) : Option Nat :=
  spanAt none (· != 0) m off

def strnlen (m : List UInt8) (off n : Nat) : Option Nat :=
  spanAt (some n) (· != 0) m off

theorem loop_span {limit : Option Nat} {p : UInt8 → Bool} {pre : CStr} {post : List UInt8} {fuel : Nat}
    (hp : p 0 = false) (hlimit : ∀ n, limit = some n → pre.length ≤ n)
    (hdrop : m.drop off = pre ++ (t ++ 0 :: post)) (hfuel : t.length < fuel) :
    loop (spanRound limit p m off) fuel pre.length =
      some (pre.length + ((upTo limit pre.length t).takeWhile p).length) := by
  induction t generalizing pre fuel with
  | nil =>
      obtain ⟨fuel, rfl, -⟩ := exists_fuel hfuel
      rw [upTo_nil]
      refine loop_done ?_
      rw [spanRound, getElem?_of_drop hdrop]
      by_cases hend : limit = some pre.length
      · simp [hend]
      · simp [hend, hp]
  | cons c t ih =>
      obtain ⟨fuel, rfl, hle⟩ := exists_fuel hfuel
      by_cases hend : limit = some pre.length
      · rw [loop_done (r := pre.length) (by rw [spanRound, if_pos hend]), hend, upTo_end]
        rfl
      · rw [upTo_cons hlimit hend]
        cases hc : p c with
        | false =>
            rw [List.takeWhile_cons_of_neg (by simp [hc])]
            refine loop_done ?_
            rw [spanRound, if_neg hend, getElem?_of_drop hdrop]
            simp [hc]
        | true =>
            have hnext : spanRound limit p m off pre.length = some (.next (pre ++ [c]).length) := by
              rw [spanRound, if_neg hend, getElem?_of_drop hdrop]
              simp [hc]
            have hlength : (pre ++ [c]).length = pre.length + 1 := List.length_append
            have hloop := @ih (pre ++ [c]) fuel (hlength ▸ limit_succ hlimit hend) (by simpa using hdrop) hle
            rw [loop_next hnext, hloop, hlength, List.takeWhile_cons_of_pos hc, List.length_cons]
            simp [Nat.add_assoc, Nat.add_comm 1]

theorem spanAt_eq {limit : Option Nat} {p : UInt8 → Bool} (hp : p 0 = false) (h : cstrAt m off = some s) :
    spanAt limit p m off = some ((upTo limit 0 s).takeWhile p).length := by
  obtain ⟨post, hdrop, -⟩ := cstrAt_eq_some.mp h
  have hlen := congrArg List.length hdrop
  rw [List.length_drop, List.length_append, List.length_cons] at hlen
  have hloop := @loop_span m s off limit p [] post (m.length + 1) hp (fun n _ => Nat.zero_le n) hdrop (by omega)
  rwa [List.length_nil, Nat.zero_add] at hloop

theorem takeWhile_ne_zero (hs : (0 : UInt8) ∉ s) : s.takeWhile (· != 0) = s := by
  rw [List.takeWhile_eq_self_iff]
  intro c hc
  simp only [bne_iff_ne]
  rintro rfl
  exact hs hc

theorem strlen_eq (h : cstrAt m off = some s) : strlen m off = some s.length := by
  obtain ⟨-, -, hs⟩ := cstrAt_eq_some.mp h
  rw [strlen, spanAt_eq rfl h, upTo, takeWhile_ne_zero hs]

theorem strnlen_eq (h : cstrAt m off = some s) (n : Nat) : strnlen m off n = some (s.take n).length := by
  obtain ⟨-, -, hs⟩ := cstrAt_eq_some.mp h
  rw [strnlen, spanAt_eq rfl h, upTo, takeWhile_ne_zero fun hmem => hs (List.mem_of_mem_take hmem), Nat.sub_zero]

/-! ## Comparison -/

/-- One byte of both strings; `limit` is the third argument of `strncmp`. -/
def compareRound (limit : Option Nat) (m : List UInt8) (off : Nat) (m' : List UInt8) (off' i : Nat) :
    Option (Round Nat Bool) :=
  if limit = some i then some (.done true)
  else
    m[off + i]?.bind fun c => m'[off' + i]?.map fun c' =>
      if c != c' then .done false else if c == 0 then .done true else .next (i + 1)

/-- Whether `strcmp` returns 0. -/
def strcmp (m : List UInt8) (off : Nat) (m' : List UInt8) (off' : Nat) : Option Bool :=
  loop (compareRound none m off m' off') (m.length + 1) 0

/-- Whether `strncmp` returns 0. -/
def strncmp (m : List UInt8) (off : Nat) (m' : List UInt8) (off' n : Nat) : Option Bool :=
  loop (compareRound (some n) m off m' off') (m.length + 1) 0

/-- Whether `memcmp` returns 0. -/
def memcmp (m : List UInt8) (off : Nat) (m' : List UInt8) (off' n : Nat) : Option Bool :=
  (slice m off n).bind fun bytes => (slice m' off' n).map fun bytes' => bytes == bytes'

theorem loop_compare {limit : Option Nat} {pre pre' : CStr} {post post' : List UInt8} {fuel : Nat}
    (hs : (0 : UInt8) ∉ s) (ht : (0 : UInt8) ∉ t) (hlen : pre.length = pre'.length)
    (hlimit : ∀ n, limit = some n → pre.length ≤ n) (hdrop : m.drop off = pre ++ (s ++ 0 :: post))
    (hdrop' : m'.drop off' = pre' ++ (t ++ 0 :: post')) (hfuel : s.length < fuel) :
    loop (compareRound limit m off m' off') fuel pre.length =
      some (upTo limit pre.length s == upTo limit pre.length t) := by
  induction s generalizing t pre pre' fuel with
  | nil =>
      obtain ⟨fuel, rfl, -⟩ := exists_fuel hfuel
      refine loop_done ?_
      rw [compareRound]
      by_cases hend : limit = some pre.length
      · rw [if_pos hend, hend]
        simp [upTo]
      · rw [if_neg hend, getElem?_of_drop hdrop, upTo_nil]
        cases t with
        | nil =>
            rw [hlen, getElem?_of_drop hdrop', upTo_nil]
            rfl
        | cons d t =>
            have hd : (0 : UInt8) ≠ d := fun h => ht (h ▸ List.mem_cons_self)
            rw [upTo_cons hlimit hend, hlen, getElem?_of_drop hdrop']
            simp [hd]
  | cons c s ih =>
      obtain ⟨fuel, rfl, hle⟩ := exists_fuel hfuel
      have hc : c ≠ 0 := fun h => hs (h ▸ List.mem_cons_self)
      by_cases hend : limit = some pre.length
      · rw [loop_done (r := true) (by rw [compareRound, if_pos hend]), hend]
        simp [upTo]
      · rw [upTo_cons hlimit hend]
        cases t with
        | nil =>
            rw [upTo_nil]
            refine loop_done ?_
            rw [compareRound, if_neg hend, getElem?_of_drop hdrop, hlen, getElem?_of_drop hdrop']
            simp [hc]
        | cons d t =>
            rw [upTo_cons hlimit hend]
            by_cases hcd : c = d
            · subst hcd
              have hnext : compareRound limit m off m' off' pre.length = some (.next (pre ++ [c]).length) := by
                rw [compareRound, if_neg hend, getElem?_of_drop hdrop, hlen, getElem?_of_drop hdrop',
                  List.length_append, hlen]
                simp [hc]
              have hlength : (pre ++ [c]).length = pre.length + 1 := List.length_append
              rw [loop_next hnext, @ih t (pre ++ [c]) (pre' ++ [c]) fuel (fun h => hs (List.mem_cons_of_mem c h))
                (fun h => ht (List.mem_cons_of_mem c h)) (by simpa using hlen) (hlength ▸ limit_succ hlimit hend) (by simpa using hdrop)
                (by simpa using hdrop') hle]
              simp
            · refine loop_done ?_
              rw [compareRound, if_neg hend, getElem?_of_drop hdrop, hlen, getElem?_of_drop hdrop']
              simp [hcd]

theorem loop_compare_zero {limit : Option Nat} (h : cstrAt m off = some s) (h' : cstrAt m' off' = some t) :
    loop (compareRound limit m off m' off') (m.length + 1) 0 = some (upTo limit 0 s == upTo limit 0 t) := by
  obtain ⟨post, hdrop, hs⟩ := cstrAt_eq_some.mp h
  obtain ⟨post', hdrop', ht⟩ := cstrAt_eq_some.mp h'
  have hlen := congrArg List.length hdrop
  rw [List.length_drop, List.length_append, List.length_cons] at hlen
  exact @loop_compare m m' s t off off' limit [] [] post post' (m.length + 1) hs ht rfl (fun n _ => Nat.zero_le n)
    hdrop hdrop' (by omega)

theorem strcmp_eq (h : cstrAt m off = some s) (h' : cstrAt m' off' = some t) :
    strcmp m off m' off' = some (s == t) :=
  loop_compare_zero h h'

theorem strncmp_eq (h : cstrAt m off = some s) (h' : cstrAt m' off' = some t) (n : Nat) :
    strncmp m off m' off' n = some (s.take n == t.take n) :=
  loop_compare_zero h h'

/-! ## Output -/

theorem snprintf_eq {dst : List UInt8} {n : Nat} (hdst : dst.length = n) (hs : (0 : UInt8) ∉ s) :
    ∃ dst', snprintf dst n s = some dst' ∧ dst'.length = n ∧ (s.length < n → cstrAt dst' 0 = some s) := by
  subst hdst
  by_cases hempty : dst.length = 0
  · exact ⟨dst, by rw [snprintf, if_pos hempty], rfl, fun h => by omega⟩
  · have hle : (literal (s.take (dst.length - 1))).length ≤ dst.length := by
      simp [literal]
      omega
    have hstore := @storeMany_append _ [] dst (literal (s.take (dst.length - 1))) hle
    simp only [List.nil_append, List.length_nil] at hstore
    refine ⟨_, by rw [snprintf, if_neg hempty, hstore], ?_, fun h => ?_⟩
    · simp only [List.length_append, List.length_drop]
      omega
    · rw [List.take_of_length_le (by omega), literal, List.append_assoc]
      exact cstrAt_zero_of_append hs

end Lib
