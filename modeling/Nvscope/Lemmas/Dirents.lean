import Nvscope.Model.ProcFilter

/-!
# The dirent filter on well-formed buffers

The filter moves kept records down over dropped ones and then reads `d_reclen` again at the old place. Where
the two places overlap, that field may have been overwritten; a listing is steady if no such read goes
wrong. On steady listings the filter keeps exactly the records it means to keep.
-/

namespace Nvscope

open Lib

/-! ## Records -/

/-- `d_reclen` of the record that `bytes` starts with. -/
def reclenOf (bytes : List UInt8) : Nat :=
  leNat ((bytes.drop 16).take 2)

/-- A well-formed `struct linux_dirent64`: `d_reclen` is its length, and its name ends inside it. -/
structure DirentRecord where
  bytes : List UInt8
  reclen : reclenOf bytes = bytes.length
  terminated : (0 : UInt8) ∈ bytes.drop direntHeader

namespace DirentRecord

def name (r : DirentRecord) : CStr :=
  (r.bytes.drop direntHeader).takeWhile (· != 0)

theorem header_lt (r : DirentRecord) : direntHeader < r.bytes.length := by
  have h := List.length_pos_of_mem r.terminated
  rw [List.length_drop] at h
  omega

def encode (rs : List DirentRecord) : List UInt8 :=
  rs.flatMap bytes

@[simp] theorem encode_nil : encode [] = [] := rfl

@[simp] theorem encode_cons (r : DirentRecord) (rs : List DirentRecord) :
    encode (r :: rs) = r.bytes ++ encode rs := rfl

theorem encode_append (rs rs' : List DirentRecord) : encode (rs ++ rs') = encode rs ++ encode rs' := by
  simp [encode]

theorem length_le_encode (rs : List DirentRecord) : rs.length ≤ (encode rs).length := by
  induction rs with
  | nil => simp
  | cons r rs ih =>
      have h := r.header_lt
      simp only [List.length_cons, encode_cons, List.length_append]
      omega

def keep (a : AllowedGpus) (r : DirentRecord) : Bool :=
  keepName a r.name

theorem keep_congr {a : AllowedGpus} {r r' : DirentRecord} (h : r.bytes = r'.bytes) :
    r.keep a = r'.keep a := by
  rw [keep, keep, name, name, h]

/-- `d_reclen` as the filter reads it once the record has been moved down by `distance`. -/
def reread (distance : Nat) (r : DirentRecord) : Nat :=
  reclenOf (leftBehind distance r.bytes)

/-- Past the header, the old place of a short record is intact. -/
theorem reread_of_le {distance : Nat} {r : DirentRecord} (h : r.bytes.length ≤ distance + 16) :
    r.reread distance = r.bytes.length := by
  rw [reread, reclenOf, drop_leftBehind h]
  exact r.reclen

/-- Every kept record still shows its length after it has been moved down by the length of the records
dropped before it; `dropped` is that length at the start. -/
def Steady (a : AllowedGpus) : Nat → List DirentRecord → Prop
  | _, [] => True
  | dropped, r :: rs =>
      if r.keep a then r.reread dropped = r.bytes.length ∧ Steady a dropped rs
      else Steady a (dropped + r.bytes.length) rs

instance Steady.decidable (a : AllowedGpus) : ∀ (dropped : Nat) (rs : List DirentRecord),
    Decidable (Steady a dropped rs)
  | _, [] => inferInstanceAs (Decidable True)
  | dropped, r :: rs =>
      have := Steady.decidable a dropped rs
      have := Steady.decidable a (dropped + r.bytes.length) rs
      inferInstanceAs (Decidable (if r.keep a then _ else _))

theorem reread_zero (r : DirentRecord) : r.reread 0 = r.bytes.length := by
  simpa [reread, leftBehind] using r.reclen

/-- Nothing moves where all records are kept, -/
theorem Steady.of_kept {a : AllowedGpus} {rs : List DirentRecord} (h : ∀ r ∈ rs, r.keep a = true) :
    Steady a 0 rs := by
  induction rs with
  | nil => trivial
  | cons r rs ih =>
      unfold Steady
      rw [if_pos (h r List.mem_cons_self)]
      exact ⟨r.reread_zero, ih fun r' hr' => h r' (List.mem_cons_of_mem _ hr')⟩

/-- or all dropped. -/
theorem Steady.of_dropped {a : AllowedGpus} {rs : List DirentRecord} {dropped : Nat}
    (h : ∀ r ∈ rs, r.keep a = false) : Steady a dropped rs := by
  induction rs generalizing dropped with
  | nil => trivial
  | cons r rs ih =>
      unfold Steady
      rw [if_neg (by simp [h r List.mem_cons_self])]
      exact ih fun r' hr' => h r' (List.mem_cons_of_mem _ hr')

/-- Records of at most 36 bytes are always steady: a dropped record has at least 20. -/
theorem Steady.of_short {a : AllowedGpus} {rs : List DirentRecord} {dropped : Nat}
    (hdropped : dropped = 0 ∨ 20 ≤ dropped) (h : ∀ r ∈ rs, r.bytes.length ≤ 36) :
    Steady a dropped rs := by
  induction rs generalizing dropped with
  | nil => trivial
  | cons r rs ih =>
      have hrs : ∀ r' ∈ rs, r'.bytes.length ≤ 36 := fun r' hr' => h r' (List.mem_cons_of_mem _ hr')
      have hr := h r List.mem_cons_self
      have hheader : 19 < r.bytes.length := r.header_lt
      unfold Steady
      split
      · refine ⟨?_, ih hdropped hrs⟩
        rcases hdropped with rfl | hd
        · exact r.reread_zero
        · exact reread_of_le (by omega)
      · exact ih (Or.inr (by omega)) hrs

end DirentRecord

/-! ## Records as Linux writes them -/

/-- The length of a record: header, name and NUL, rounded up to 8. -/
def direntLength (name : CStr) : Nat :=
  (direntHeader + name.length + 1 + 7) / 8 * 8

/-- A record of a directory with this name; `d_ino` and `d_off` are zero. -/
def direntBytes (name : CStr) : List UInt8 :=
  leBytes 16 0 ++ (leBytes 2 (direntLength name) ++
    (4 :: (name ++ List.replicate (direntLength name - direntHeader - name.length) 0)))

theorem length_direntBytes (name : CStr) : (direntBytes name).length = direntLength name := by
  simp [direntBytes, direntLength, direntHeader]; omega

def direntOf (name : CStr) (h : name.length ≤ 255) : DirentRecord where
  bytes := direntBytes name
  reclen := by
    have hlt : direntLength name < 256 ^ 2 := by simp [direntLength, direntHeader]; omega
    rw [length_direntBytes, reclenOf, direntBytes, List.drop_left' (by simp), List.take_left' (by simp),
      leNat_leBytes, Nat.mod_eq_of_lt hlt]
  terminated := by
    have hpad : direntLength name - direntHeader - name.length ≠ 0 := by
      simp [direntLength, direntHeader]; omega
    have hsplit : direntBytes name = (leBytes 16 0 ++ (leBytes 2 (direntLength name) ++ [4])) ++
        (name ++ List.replicate (direntLength name - direntHeader - name.length) 0) := by
      simp [direntBytes]
    rw [hsplit, List.drop_left' (by simp [direntHeader])]
    exact List.mem_append_right _ (List.mem_replicate.mpr ⟨hpad, rfl⟩)

open DirentRecord

/-! ## A reader's walk over a buffer -/

/-- The records a reader finds that follows `d_reclen`, up to the first that is malformed. -/
def walk : Nat → List UInt8 → List (List UInt8)
  | 0, _ => []
  | fuel + 1, buffer =>
      let n := reclenOf buffer
      if n ≤ buffer.length ∧ (0 : UInt8) ∈ (buffer.take n).drop direntHeader then
        buffer.take n :: walk fuel (buffer.drop n)
      else []

def readRecords (buffer : List UInt8) : List (List UInt8) :=
  walk buffer.length buffer

theorem reclenOf_append (r : DirentRecord) (tail : List UInt8) :
    reclenOf (r.bytes ++ tail) = r.bytes.length := by
  have hheader : 19 < r.bytes.length := r.header_lt
  have hreclen := r.reclen
  rw [reclenOf] at hreclen
  rw [reclenOf, List.drop_append_of_le_length (by omega), List.take_append_of_le_length (by simp; omega),
    hreclen]

theorem walk_encode {fuel : Nat} {rs : List DirentRecord} (h : rs.length ≤ fuel) :
    walk fuel (encode rs) = rs.map bytes := by
  induction rs generalizing fuel with
  | nil =>
      cases fuel with
      | zero => rfl
      | succ fuel => simp [walk]
  | cons r rs ih =>
      obtain ⟨fuel, rfl⟩ := Nat.exists_eq_add_one_of_ne_zero (by rintro rfl; simp at h : fuel ≠ 0)
      have hlen := reclenOf_append r (encode rs)
      rw [List.length_cons] at h
      simp only [walk, encode_cons, hlen, List.take_left' rfl, List.drop_left' rfl, List.map_cons]
      rw [if_pos ⟨by simp, r.terminated⟩, ih (by omega)]

theorem readRecords_encode (rs : List DirentRecord) : readRecords (encode rs) = rs.map bytes :=
  walk_encode (length_le_encode rs)

/-! ## Reading a buffer at a record -/

theorem reclenAt_append (pre tail : List UInt8) {bytes : List UInt8} (h : direntHeader < bytes.length) :
    reclenAt (pre ++ (bytes ++ tail)) pre.length = some (reclenOf bytes) := by
  have hle : 16 + 2 ≤ bytes.length := by have : direntHeader = 19 := rfl; omega
  rw [reclenAt, slice_append_add tail hle, slice, if_pos hle]
  rfl

theorem direntNameIsValid_append (pre tail : List UInt8) (r : DirentRecord) {remaining : Nat}
    (h : r.bytes.length ≤ remaining) :
    direntNameIsValid (pre ++ (r.bytes ++ tail)) pre.length remaining = some true := by
  have hheader := r.header_lt
  have hbounds : (decide (r.bytes.length < direntHeader) || decide (r.bytes.length > remaining)) = false := by
    simp only [Bool.or_eq_false_iff, decide_eq_false_iff_not]
    omega
  have hle : direntHeader + (r.bytes.length - direntHeader) ≤ r.bytes.length := by omega
  have harea : slice r.bytes direntHeader (r.bytes.length - direntHeader) =
      some (r.bytes.drop direntHeader) := by
    rw [slice, if_pos hle, List.take_of_length_le (by simp)]
  rw [direntNameIsValid, reclenAt_append pre tail hheader, r.reclen, Option.bind_some, hbounds,
    slice_append_add tail hle, harea]
  simpa using r.terminated

theorem cstrAt_name (pre tail : List UInt8) (r : DirentRecord) :
    cstrAt (pre ++ (r.bytes ++ tail)) (pre.length + direntHeader) = some r.name :=
  cstrAt_append_add tail (Nat.le_of_lt r.header_lt) r.terminated

end Nvscope
