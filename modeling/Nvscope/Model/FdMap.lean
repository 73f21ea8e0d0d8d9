import Nvscope.Lib.Decimal
import Mathlib.Logic.Function.Basic

/-!
# The descriptor map and the path classifier (`fd_map.c`)
-/

namespace Nvscope

open Lib

/-- `NVFIX_FD_MAP_MAX`: only descriptors 0 through 4095 are tracked. -/
def fdMapMax : Nat := 4096

abbrev pathMax : Nat := 256

abbrev busIdMax : Nat := 32

abbrev intMax : Nat := 2147483647

inductive FdKind where
  | other
  | nvidiaCtl
  | nvidiaDevice
  | nvidiaUvm
  | procGpusDir
  | procGpuInfo
  deriving DecidableEq, Repr

/-- `struct nvfix_fd_record`; a `char` array is the string it holds. -/
structure FdRecord where
  kind : FdKind
  deviceMinor : Int32
  path : CStr
  busId : CStr
  deriving DecidableEq

/-! ## Strings of the classifier -/

abbrev slash : UInt8 := 47

def gpusDir : CStr := ascii "/proc/driver/nvidia/gpus"

def gpusPrefix : CStr := ascii "/proc/driver/nvidia/gpus/"

def informationSuffix : CStr := ascii "/information"

/-- The path of the information file of the GPU with bus id `b`. -/
def informationPath (b : CStr) : CStr :=
  gpusPrefix ++ (b ++ informationSuffix)

/-- `nvfix_copy_string`: at most `dstSize - 1` bytes are kept; a NULL source gives the empty string. -/
def copyString (dstSize : Nat) (src : Option CStr) : CStr :=
  (src.getD []).take (dstSize - 1)

/-- `nvfix_copy_slice`: as `copyString`, of a slice. -/
def copySlice (dstSize : Nat) (src : CStr) : CStr :=
  src.take (if src.length ≥ dstSize then dstSize - 1 else src.length)

/-! ## Classification -/

/-- A name that must be `pre` followed by a decimal number of type `int`: the loop that
`nvfix_parse_nvidia_minor` and `nvfix_name_is_nvidia_minor` share. -/
def decimalAfter (pre name : CStr) : Option Int32 :=
  if !pre.isPrefixOf name then none
  else
    match name.drop pre.length with
    | [] => none
    | c :: cs =>
        if !isDigit c then none
        else (parseDigits intMax 0 (c :: cs)).map Int32.ofNat

def parseNvidiaMinor (path : CStr) : Option Int32 :=
  decimalAfter (ascii "/dev/nvidia") path

/-- The slice between `/proc/driver/nvidia/gpus/` and `/information`, where it is a bus id that fits into
an array of `busIdSize` bytes: the matcher that `nvfix_classify_proc_gpu_path` and
`nvfix_extract_proc_bus` share. -/
def procInfoBus (busIdSize : Nat) (path : CStr) : Option CStr :=
  if path.length ≤ gpusPrefix.length + informationSuffix.length || !gpusPrefix.isPrefixOf path ||
      path.drop (path.length - informationSuffix.length) != informationSuffix then none
  else
    let bus := (path.drop gpusPrefix.length).take
      (path.length - informationSuffix.length - gpusPrefix.length)
    if bus.length = 0 || bus.length ≥ busIdSize then none
    else if slash ∈ bus then none
    else some bus

def classifyProcGpuPath (path : CStr) (record : FdRecord) : Bool × FdRecord :=
  match procInfoBus busIdMax path with
  | none => (false, record)
  | some bus => (true, { record with kind := .procGpuInfo, busId := copySlice busIdMax bus })

/-- `nvfix_classify_path`: the return value and the record it fills in. -/
def classifyPath (path : Option CStr) : Bool × FdRecord :=
  let record : FdRecord :=
    { kind := .other, deviceMinor := -1, path := copyString pathMax path, busId := [] }
  match path with
  | none => (false, record)
  | some path =>
      if path = ascii "/dev/nvidiactl" then (true, { record with kind := .nvidiaCtl })
      else if path = ascii "/dev/nvidia-uvm" then (true, { record with kind := .nvidiaUvm })
      else
        match parseNvidiaMinor path with
        | some minor => (true, { record with kind := .nvidiaDevice, deviceMinor := minor })
        | none =>
            if path = gpusDir then (true, { record with kind := .procGpusDir })
            else classifyProcGpuPath path record

/-- The record a path is tracked under, where the classifier accepts it. -/
def classified (path : CStr) : Option FdRecord :=
  let r := classifyPath (some path)
  if r.1 then some r.2 else none

/-! ## The map -/

/-- `g_fd_map`; `none` is a slot that is not occupied. -/
abbrev FdMap := Fin fdMapMax → Option FdRecord

/-- The bounds check of the map functions: the slot of a descriptor, where it has one. -/
def fdSlot (fd : Int) : Option (Fin fdMapMax) :=
  if h : 0 ≤ fd ∧ fd < fdMapMax then some ⟨fd.toNat, by omega⟩ else none

def fdMapClear : FdMap := fun _ => none

def fdMapSet (m : FdMap) (fd : Int) (record : FdRecord) : FdMap :=
  match fdSlot fd with
  | none => m
  | some i => Function.update m i (some record)

def fdMapGet (m : FdMap) (fd : Int) : Option FdRecord :=
  match fdSlot fd with
  | none => none
  | some i => m i

def fdMapRemove (m : FdMap) (fd : Int) : FdMap :=
  match fdSlot fd with
  | none => m
  | some i => Function.update m i none

theorem fdSlot_natCast {fd : Nat} (h : fd < fdMapMax) : fdSlot fd = some ⟨fd, h⟩ := by
  have hfd : (0 : Int) ≤ fd ∧ (fd : Int) < fdMapMax := ⟨by omega, by omega⟩
  rw [fdSlot, dif_pos hfd]
  simp

theorem fdSlot_inj {fd fd' : Int} {i : Fin fdMapMax} (h : fdSlot fd = some i)
    (h' : fdSlot fd' = some i) : fd = fd' := by
  simp only [fdSlot, Option.dite_none_right_eq_some, Option.some.injEq] at h h'
  obtain ⟨hb, rfl⟩ := h
  obtain ⟨hb', he⟩ := h'
  simp only [Fin.mk.injEq] at he
  omega

@[simp] theorem fdMapGet_clear (fd : Int) : fdMapGet fdMapClear fd = none := by
  unfold fdMapGet
  cases fdSlot fd <;> rfl

theorem fdMapGet_set_self {fd : Nat} (m : FdMap) (record : FdRecord) (h : fd < fdMapMax) :
    fdMapGet (fdMapSet m fd record) fd = some record := by
  rw [fdMapGet, fdMapSet, fdSlot_natCast h]
  exact Function.update_self _ _ _

theorem fdMapGet_set_of_ne {fd fd' : Int} (m : FdMap) (record : FdRecord) (h : fd' ≠ fd) :
    fdMapGet (fdMapSet m fd record) fd' = fdMapGet m fd' := by
  unfold fdMapGet fdMapSet
  cases hi : fdSlot fd with
  | none => rfl
  | some i =>
      cases hj : fdSlot fd' with
      | none => rfl
      | some j =>
          have hne : j ≠ i := by rintro rfl; exact h (fdSlot_inj hj hi)
          simp [Function.update_of_ne hne]

@[simp] theorem fdMapGet_remove_self (m : FdMap) (fd : Int) :
    fdMapGet (fdMapRemove m fd) fd = none := by
  unfold fdMapGet fdMapRemove
  cases fdSlot fd <;> simp

theorem fdMapGet_remove_of_ne {fd fd' : Int} (m : FdMap) (h : fd' ≠ fd) :
    fdMapGet (fdMapRemove m fd) fd' = fdMapGet m fd' := by
  unfold fdMapGet fdMapRemove
  cases hi : fdSlot fd with
  | none => rfl
  | some i =>
      cases hj : fdSlot fd' with
      | none => rfl
      | some j =>
          have hne : j ≠ i := by rintro rfl; exact h (fdSlot_inj hj hi)
          simp [Function.update_of_ne hne]

end Nvscope
