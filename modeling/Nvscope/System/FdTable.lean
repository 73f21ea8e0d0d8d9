import Nvscope.Lib.Mutex
import Nvscope.Model.FdMap

/-!
# The descriptor map in memory (`fd_map.c`)

`g_fd_map` is an array of slots. A record is copied field by field, so that a copy is only complete after
several accesses; `g_fd_map_lock` is held meanwhile.
-/

namespace Nvscope

open Lib

/-- `struct nvfix_fd_slot`. -/
structure FdSlot where
  occupied : Bool
  record : FdRecord
  deriving DecidableEq

/-- What `memset` leaves of a record. -/
def FdRecord.zero : FdRecord :=
  { kind := .other, deviceMinor := 0, path := [], busId := [] }

abbrev FdTable := Fin fdMapMax → FdSlot

/-- The map the rest of the model works with. -/
def FdTable.map (m : FdTable) : FdMap :=
  fun i => if (m i).occupied then some (m i).record else none

def FdTable.zero : FdTable :=
  fun _ => ⟨false, .zero⟩

inductive FdField where
  | kind
  | deviceMinor
  | path
  | busId
  deriving DecidableEq

namespace FdField

def all : List FdField := [.kind, .deviceMinor, .path, .busId]

/-- `dst` with one field taken from `src`. -/
def copy (src : FdRecord) : FdField → FdRecord → FdRecord
  | .kind, dst => { dst with kind := src.kind }
  | .deviceMinor, dst => { dst with deviceMinor := src.deviceMinor }
  | .path, dst => { dst with path := src.path }
  | .busId, dst => { dst with busId := src.busId }

theorem foldl_copy (src dst : FdRecord) : all.foldl (fun r f => copy src f r) dst = src := rfl

end FdField

inductive FdOp where
  | set (fd : Int) (record : FdRecord)
  | get (fd : Int)
  | remove (fd : Int)

/-- What is left to do under the lock: to set the flag of a slot and then its fields, or to look at the flag
and then to load the fields. -/
inductive FdWork where
  | mark (occupied : Bool) (src : FdRecord)
  | store (fields : List FdField) (src : FdRecord)
  | look
  | load (fields : List FdField) (dst : FdRecord)

def FdWork.round (i : Fin fdMapMax) : FdWork → FdTable → Round (FdWork × FdTable) (Option FdRecord × FdTable)
  | .mark occupied src, m =>
      .next (.store FdField.all src, Function.update m i { m i with occupied := occupied })
  | .store [] _, m => .done (none, m)
  | .store (f :: fields) src, m =>
      .next (.store fields src, Function.update m i { m i with record := f.copy src (m i).record })
  | .look, m => if (m i).occupied then .next (.load FdField.all .zero, m) else .done (none, m)
  | .load [] dst, m => .done (some dst, m)
  | .load (f :: fields) dst, m => .next (.load fields (f.copy (m i).record dst), m)

def FdOp.fd : FdOp → Int
  | .set fd _ | .get fd | .remove fd => fd

def FdOp.work : FdOp → FdWork
  | .set _ record => .mark true record
  | .get _ => .look
  | .remove _ => .mark false .zero

/-- `nvfix_fd_map_set`, `nvfix_fd_map_get` and `nvfix_fd_map_remove`: a descriptor without a slot is answered
without the lock. The answer is the record of a get that found one. -/
def fdTable : Guarded FdTable FdOp (Fin fdMapMax × FdWork) (Option FdRecord) where
  enter op :=
    match fdSlot op.fd with
    | none => .inr none
    | some i => .inl (i, op.work)
  round _ st :=
    some (match st.1.2.round st.1.1 st.2 with
      | .next (w, m) => .next ((st.1.1, w), m)
      | .done (r, m) => .done (r, m))

/-- The operations on the map of the rest of the model. -/
def FdOp.atomic : FdOp → FdMap → Option FdRecord × FdMap
  | .set fd record, m => (none, fdMapSet m fd record)
  | .get fd, m => (fdMapGet m fd, m)
  | .remove fd, m => (none, fdMapRemove m fd)

end Nvscope
