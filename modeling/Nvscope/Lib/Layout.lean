import Mathlib.Data.Vector.Basic
import Mathlib.Logic.Equiv.Defs

/-!
# Layouts of fixed-size objects in byte memory

A `Layout α` says how a value of `α` lies in memory: as exactly `size` bytes, each such byte list being
the layout of exactly one value. A program that casts a pointer to a struct reads it with `Layout.get`
and writes it with `Layout.put`; nothing beyond the object is touched.
-/

namespace Lib

/-! ## Little-endian numbers -/

/-- The `n` low bytes of `v`, least significant first. -/
def leBytes : Nat → Nat → List UInt8
  | 0, _ => []
  | n + 1, v => UInt8.ofNat (v % 256) :: leBytes n (v / 256)

/-- The number whose bytes, least significant first, are `bs`. -/
def leNat : List UInt8 → Nat
  | [] => 0
  | b :: bs => b.toNat + 256 * leNat bs

@[simp] theorem length_leBytes (n v : Nat) : (leBytes n v).length = n := by
  induction n generalizing v with
  | zero => rfl
  | succ n ih => simp [leBytes, ih]

theorem leNat_lt (bs : List UInt8) : leNat bs < 256 ^ bs.length := by
  induction bs with
  | nil => simp [leNat]
  | cons b bs ih =>
      have hb := b.toNat_lt
      simp only [leNat, List.length_cons, Nat.pow_succ]
      omega

theorem leNat_leBytes (n v : Nat) : leNat (leBytes n v) = v % 256 ^ n := by
  induction n generalizing v with
  | zero => simp [leBytes, leNat, Nat.mod_one]
  | succ n ih =>
      have hb : (UInt8.ofNat (v % 256)).toNat = v % 256 := by simp
      simp only [leBytes, leNat, ih, hb]
      rw [Nat.pow_succ, Nat.mul_comm (256 ^ n) 256, Nat.mod_mul]

theorem leBytes_leNat (bs : List UInt8) : leBytes bs.length (leNat bs) = bs := by
  induction bs with
  | nil => rfl
  | cons b bs ih =>
      have hb := b.toNat_lt
      have hmod : (b.toNat + 256 * leNat bs) % 256 = b.toNat := by omega
      have hdiv : (b.toNat + 256 * leNat bs) / 256 = leNat bs := by omega
      simp only [List.length_cons, leBytes, leNat, hmod, hdiv, ih, UInt8.ofNat_toNat]

/-! ## Layouts -/

/-- A fixed-size representation of the values of `α`: a bijection with the byte lists of one length. -/
structure Layout (α : Type) where
  size : Nat
  encode : α → List UInt8
  decode : List UInt8 → α
  length_encode : ∀ a, (encode a).length = size
  decode_encode : ∀ a, decode (encode a) = a
  encode_decode : ∀ bs, bs.length = size → encode (decode bs) = bs

attribute [simp] Layout.length_encode Layout.decode_encode

namespace Layout

variable {α β : Type}

/-- An unsigned integer type of `n` bytes, given by its conversions to and from `Nat`. -/
def ofNat (n : Nat) (toNat : α → Nat) (ofNat : Nat → α) (hlt : ∀ a, toNat a < 256 ^ n)
    (hof : ∀ a, ofNat (toNat a) = a) (hto : ∀ v, v < 256 ^ n → toNat (ofNat v) = v) : Layout α where
  size := n
  encode a := leBytes n (toNat a)
  decode bs := ofNat (leNat bs)
  length_encode a := by simp
  decode_encode a := by rw [leNat_leBytes, Nat.mod_eq_of_lt (hlt a), hof]
  encode_decode bs hbs := by
    have hlt := leNat_lt bs
    rw [hbs] at hlt
    rw [hto _ hlt, ← hbs, leBytes_leNat]

def u8 : Layout UInt8 :=
  ofNat 1 UInt8.toNat UInt8.ofNat (fun a => a.toNat_lt) (fun _ => UInt8.ofNat_toNat)
    (fun v hv => by simpa using hv)

def u16 : Layout UInt16 :=
  ofNat 2 UInt16.toNat UInt16.ofNat (fun a => a.toNat_lt) (fun _ => UInt16.ofNat_toNat)
    (fun v hv => by simpa using hv)

def u32 : Layout UInt32 :=
  ofNat 4 UInt32.toNat UInt32.ofNat (fun a => a.toNat_lt) (fun _ => UInt32.ofNat_toNat)
    (fun v hv => by simpa using hv)

def u64 : Layout UInt64 :=
  ofNat 8 UInt64.toNat UInt64.ofNat (fun a => a.toNat_lt) (fun _ => UInt64.ofNat_toNat)
    (fun v hv => by simpa using hv)

def prod (la : Layout α) (lb : Layout β) : Layout (α × β) where
  size := la.size + lb.size
  encode p := la.encode p.1 ++ lb.encode p.2
  decode bs := (la.decode (bs.take la.size), lb.decode (bs.drop la.size))
  length_encode p := by simp
  decode_encode p := by
    rw [List.take_left' (la.length_encode _), List.drop_left' (la.length_encode _)]
    simp
  encode_decode bs hbs := by
    rw [la.encode_decode _ (by simp [hbs]), lb.encode_decode _ (by simp [hbs]), List.take_append_drop]

def iso (l : Layout α) (e : α ≃ β) : Layout β where
  size := l.size
  encode b := l.encode (e.symm b)
  decode bs := e (l.decode bs)
  length_encode b := by simp
  decode_encode b := by simp
  encode_decode bs hbs := by simp [l.encode_decode bs hbs]

def decodeList (l : Layout α) : Nat → List UInt8 → List α
  | 0, _ => []
  | n + 1, bs => l.decode (bs.take l.size) :: l.decodeList n (bs.drop l.size)

@[simp] theorem length_decodeList (l : Layout α) (n : Nat) (bs : List UInt8) :
    (l.decodeList n bs).length = n := by
  induction n generalizing bs with
  | zero => rfl
  | succ n ih => simp [decodeList, ih]

theorem length_flatMap_encode (l : Layout α) (as : List α) :
    (as.flatMap l.encode).length = as.length * l.size := by
  induction as with
  | nil => simp
  | cons a as ih => simp [ih, Nat.succ_mul, Nat.add_comm]

theorem decodeList_flatMap_encode (l : Layout α) (as : List α) :
    l.decodeList as.length (as.flatMap l.encode) = as := by
  induction as with
  | nil => rfl
  | cons a as ih =>
      rw [List.length_cons, decodeList, List.flatMap_cons, List.take_left' (l.length_encode a),
        List.drop_left' (l.length_encode a), l.decode_encode, ih]

theorem flatMap_encode_decodeList (l : Layout α) (n : Nat) (bs : List UInt8)
    (h : bs.length = n * l.size) : (l.decodeList n bs).flatMap l.encode = bs := by
  induction n generalizing bs with
  | zero => simpa [decodeList, eq_comm] using h
  | succ n ih =>
      rw [Nat.succ_mul] at h
      rw [decodeList, List.flatMap_cons, l.encode_decode _ (by simp; omega),
        ih _ (by simp; omega), List.take_append_drop]

def array (l : Layout α) (n : Nat) : Layout (List.Vector α n) where
  size := n * l.size
  encode v := v.toList.flatMap l.encode
  decode bs := ⟨l.decodeList n bs, l.length_decodeList n bs⟩
  length_encode v := by rw [length_flatMap_encode, v.toList_length]
  decode_encode v := by
    apply Subtype.ext
    have h := l.decodeList_flatMap_encode v.toList
    rwa [v.toList_length] at h
  encode_decode bs hbs := l.flatMap_encode_decodeList n bs hbs

/-! ## Reading and writing an object at the start of a memory region -/

def get (l : Layout α) (m : List UInt8) : α :=
  l.decode (m.take l.size)

/-- `m` with the object at its start replaced by `a`. -/
def put (l : Layout α) (a : α) (m : List UInt8) : List UInt8 :=
  l.encode a ++ m.drop l.size

variable (l : Layout α)

@[simp] theorem get_put (a : α) (m : List UInt8) : l.get (l.put a m) = a := by
  simp [get, put, List.take_left' (l.length_encode a)]

@[simp] theorem get_encode (a : α) : l.get (l.encode a) = a := by
  rw [get, List.take_of_length_le (by simp), l.decode_encode]

@[simp] theorem take_put (a : α) (m : List UInt8) : (l.put a m).take l.size = l.encode a := by
  simp [put, List.take_left' (l.length_encode a)]

theorem encode_inj {a b : α} : l.encode a = l.encode b ↔ a = b := by
  constructor
  · intro h
    rw [← l.decode_encode a, h, l.decode_encode]
  · rintro rfl; rfl

@[simp] theorem drop_put (a : α) (m : List UInt8) : (l.put a m).drop l.size = m.drop l.size := by
  simp [put, List.drop_left' (l.length_encode a)]

/-- Writing back what was read changes nothing. -/
theorem put_get {m : List UInt8} (h : l.size ≤ m.length) : l.put (l.get m) m = m := by
  rw [put, get, l.encode_decode _ (List.length_take_of_le h), List.take_append_drop]

@[simp] theorem put_put (a b : α) (m : List UInt8) : l.put b (l.put a m) = l.put b m := by
  rw [put, drop_put, put]

end Layout

end Lib
