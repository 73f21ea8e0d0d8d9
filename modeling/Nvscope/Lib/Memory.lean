import Nvscope.Lib.Layout

/-!
# Byte memory and C strings

A C string is the list of its bytes before the terminating NUL. Reads and moves in a byte buffer return
`none` where the C program would leave the buffer.
-/

namespace Lib

/-- The bytes of a C string, without the terminator. -/
abbrev CStr := List UInt8

def ascii (s : String) : CStr :=
  s.toList.map fun c => c.toNat.toUInt8

/-- `n` bytes of `m` from offset `off` on. -/
def slice (m : List UInt8) (off n : Nat) : Option (List UInt8) :=
  if off + n ≤ m.length then some ((m.drop off).take n) else none

/-- The C string at offset `off`: the bytes up to the first NUL, which must lie inside `m`. -/
def cstrAt (m : List UInt8) (off : Nat) : Option CStr :=
  if 0 ∈ m.drop off then some ((m.drop off).takeWhile (· != 0)) else none

/-- `memmove(m + dst, m + src, n)`. -/
def memmove (m : List UInt8) (dst src n : Nat) : Option (List UInt8) :=
  (slice m src n).bind fun bytes =>
    if dst + n ≤ m.length then some (m.take dst ++ bytes ++ m.drop (dst + n)) else none

/-! ## Reading where the bytes are known -/

theorem slice_append (pre bytes post : List UInt8) :
    slice (pre ++ (bytes ++ post)) pre.length bytes.length = some bytes := by
  simp [slice]

/-- Inside an object that starts at `pre.length`, a slice of the buffer is a slice of the object. -/
theorem slice_append_add {pre bytes : List UInt8} (post : List UInt8) {off n : Nat}
    (h : off + n ≤ bytes.length) :
    slice (pre ++ (bytes ++ post)) (pre.length + off) n = slice bytes off n := by
  have hle : pre.length + off + n ≤ (pre ++ (bytes ++ post)).length := by simp; omega
  rw [slice, slice, if_pos hle, if_pos h, List.drop_append, List.drop_eq_nil_of_le (by omega),
    List.nil_append, Nat.add_sub_cancel_left, List.drop_append_of_le_length (by omega),
    List.take_append_of_le_length (by simp; omega)]

theorem takeWhile_append_of_mem {bytes : List UInt8} (post : List UInt8) (h : (0 : UInt8) ∈ bytes) :
    (bytes ++ post).takeWhile (· != 0) = bytes.takeWhile (· != 0) := by
  induction bytes with
  | nil => simp at h
  | cons b bs ih =>
      by_cases hb : b = 0
      · simp [hb]
      · have h' : (0 : UInt8) ∈ bs := by
          rcases List.mem_cons.mp h with h0 | h0
          · exact absurd h0.symm hb
          · exact h0
        simp [hb, ih h']

/-- A string that ends inside the object starting at `pre.length` is read from the object alone. -/
theorem cstrAt_append_add {pre bytes : List UInt8} (post : List UInt8) {off : Nat}
    (hoff : off ≤ bytes.length) (h : (0 : UInt8) ∈ bytes.drop off) :
    cstrAt (pre ++ (bytes ++ post)) (pre.length + off) =
      some ((bytes.drop off).takeWhile (· != 0)) := by
  have hdrop : (pre ++ (bytes ++ post)).drop (pre.length + off) = bytes.drop off ++ post := by
    rw [List.drop_append, List.drop_eq_nil_of_le (by omega), List.nil_append,
      Nat.add_sub_cancel_left, List.drop_append_of_le_length hoff]
  rw [cstrAt, hdrop, if_pos (List.mem_append_left _ h), takeWhile_append_of_mem post h]

/-- Moving an object down over bytes that are not needed any more: the part before the destination and
the part after the source stay, and the end of the old object is left behind. -/
theorem memmove_down (pre mid bytes post : List UInt8) :
    memmove (pre ++ (mid ++ (bytes ++ post))) pre.length (pre.length + mid.length) bytes.length =
      some (pre ++ (bytes ++ ((mid ++ bytes).drop bytes.length ++ post))) := by
  have hslice : slice (pre ++ (mid ++ (bytes ++ post))) (pre.length + mid.length) bytes.length =
      some bytes := by
    have h := slice_append (pre ++ mid) bytes post
    simpa [List.append_assoc] using h
  have hle : pre.length + bytes.length ≤ (pre ++ (mid ++ (bytes ++ post))).length := by simp; omega
  have hdrop : (pre ++ (mid ++ (bytes ++ post))).drop (pre.length + bytes.length) =
      (mid ++ bytes).drop bytes.length ++ post := by
    rw [List.drop_append, List.drop_eq_nil_of_le (by omega), List.nil_append,
      Nat.add_sub_cancel_left, ← List.append_assoc, List.drop_append_of_le_length (by simp)]
  rw [memmove, hslice, Option.bind_some, if_pos hle, hdrop, List.take_left' rfl, List.append_assoc]

/-- What lies at the object's old place after `memmove_down`: its own bytes, overwritten from the front
where the two places overlap. -/
def leftBehind (distance : Nat) (bytes : List UInt8) : List UInt8 :=
  bytes.drop distance ++ bytes.drop (bytes.length - distance)

theorem length_leftBehind (distance : Nat) (bytes : List UInt8) :
    (leftBehind distance bytes).length = bytes.length := by
  simp [leftBehind]

theorem drop_memmove_down (mid bytes : List UInt8) :
    (bytes ++ (mid ++ bytes).drop bytes.length).drop mid.length = leftBehind mid.length bytes := by
  rcases Nat.le_total mid.length bytes.length with h | h
  · rw [List.drop_append_of_le_length h, List.drop_append, List.drop_eq_nil_of_le h,
      List.nil_append, leftBehind]
  · rw [List.drop_append, List.drop_eq_nil_of_le h, List.nil_append, List.drop_drop,
      show bytes.length + (mid.length - bytes.length) = mid.length by omega,
      List.drop_left' rfl, leftBehind, List.drop_eq_nil_of_le h, Nat.sub_eq_zero_of_le h]
    rfl

/-- Past its overlap with the new place, the old object is intact. -/
theorem drop_leftBehind {distance k : Nat} {bytes : List UInt8}
    (h : bytes.length ≤ distance + k) : (leftBehind distance bytes).drop k = bytes.drop k := by
  rw [leftBehind, List.drop_append, List.drop_eq_nil_of_le (by simp; omega), List.nil_append,
    List.drop_drop, List.length_drop,
    show bytes.length - distance + (k - (bytes.length - distance)) = k by omega]

end Lib
