import Nvscope.System.FdTable

/-!
# No record is torn

Whatever the threads interleave, the map in memory answers like the map of the rest of the model: a get finds
the record of one set as a whole, or none.
-/

namespace Nvscope

open Lib

variable {i : Fin fdMapMax} {src dst : FdRecord} {m : FdTable}

/-! ## One operation alone -/

theorem fdTable_round_next {op : FdOp} {w w' : FdWork} {m' : FdTable} (h : w.round i m = .next (w', m')) :
    fdTable.round op ((i, w), m) = some (.next ((i, w'), m')) := by
  simp only [fdTable, h]

theorem fdTable_round_done {op : FdOp} {w : FdWork} {r : Option FdRecord} (h : w.round i m = .done (r, m)) :
    fdTable.round op ((i, w), m) = some (.done (r, m)) := by
  simp only [fdTable, h]

/-- Run lemma: the slot ends with the fields that were left. -/
theorem loop_store (op : FdOp) (fields : List FdField) (m : FdTable) :
    loop (fdTable.round op) (fields.length + 1) ((i, .store fields src), m) =
      some (none, Function.update m i { m i with record := fields.foldl (fun r f => f.copy src r) (m i).record }) := by
  induction fields generalizing m with
  | nil =>
      have hself : Function.update m i { m i with record := (m i).record } = m := Function.update_eq_self i m
      rw [List.foldl_nil, hself]
      exact loop_done (fdTable_round_done rfl)
  | cons f fields ih =>
      rw [List.length_cons, loop_next (fdTable_round_next rfl), ih, Function.update_self, Function.update_idem]
      rfl

/-- Run lemma: the copy ends with the fields that were left. -/
theorem loop_load (op : FdOp) (fields : List FdField) (dst : FdRecord) :
    loop (fdTable.round op) (fields.length + 1) ((i, .load fields dst), m) =
      some (some (fields.foldl (fun r f => f.copy (m i).record r) dst), m) := by
  induction fields generalizing dst with
  | nil => exact loop_done (fdTable_round_done rfl)
  | cons f fields ih =>
      rw [List.length_cons, loop_next (fdTable_round_next rfl), ih]
      rfl

theorem loop_mark (op : FdOp) (occupied : Bool) (src : FdRecord) (m : FdTable) :
    loop (fdTable.round op) 6 ((i, .mark occupied src), m) =
      some (none, Function.update m i ⟨occupied, src⟩) := by
  rw [loop_next (fdTable_round_next rfl)]
  have hstore := @loop_store i src op FdField.all (Function.update m i { m i with occupied := occupied })
  rw [Function.update_self, Function.update_idem, FdField.foldl_copy] at hstore
  exact hstore

theorem loop_look (op : FdOp) (m : FdTable) :
    loop (fdTable.round op) 6 ((i, .look), m) = some (m.map i, m) := by
  cases hoccupied : (m i).occupied with
  | false =>
      have hround : FdWork.round i .look m = .done (none, m) := by simp [FdWork.round, hoccupied]
      have hmap : m.map i = none := by simp [FdTable.map, hoccupied]
      rw [loop_done (fdTable_round_done hround), hmap]
  | true =>
      have hround : FdWork.round i .look m = .next (.load FdField.all .zero, m) := by
        simp [FdWork.round, hoccupied]
      have hmap : m.map i = some (m i).record := by simp [FdTable.map, hoccupied]
      rw [loop_next (fdTable_round_next hround), hmap]
      exact loop_load op FdField.all .zero

theorem map_zero : FdTable.zero.map = fdMapClear :=
  funext fun _ => rfl

theorem map_update (m : FdTable) (slot : FdSlot) :
    FdTable.map (Function.update m i slot) =
      Function.update m.map i (if slot.occupied then some slot.record else none) := by
  funext j
  by_cases hj : j = i
  · subst hj
    simp [FdTable.map]
  · simp [FdTable.map, hj]

/-- Alone, every operation does what it does to the map of the rest of the model. -/
theorem fdTable_implements : fdTable.Implements (fun _ => True) FdTable.map (fun _ r => r) FdOp.atomic where
  direct op r m henter _ := by
    have hslot : fdSlot op.fd = none := by
      cases hslot : fdSlot op.fd with
      | none => rfl
      | some i => simp [fdTable, hslot] at henter
    have hr : r = none := by simpa [fdTable, hslot] using henter.symm
    subst hr
    cases op <;> simp only [FdOp.fd] at hslot <;> simp [FdOp.atomic, fdMapSet, fdMapGet, fdMapRemove, hslot]
  inside op l m henter _ := by
    cases hslot : fdSlot op.fd with
    | none => simp [fdTable, hslot] at henter
    | some i =>
        have hl : l = (i, op.work) := by simpa [fdTable, hslot] using henter.symm
        subst hl
        cases op with
        | set fd record =>
            refine ⟨6, none, _, loop_mark _ true record m, trivial, ?_⟩
            simp only [FdOp.fd] at hslot
            simp [FdOp.atomic, fdMapSet, hslot, map_update]
        | get fd =>
            refine ⟨6, m.map i, m, loop_look _ m, trivial, ?_⟩
            simp only [FdOp.fd] at hslot
            simp [FdOp.atomic, fdMapGet, hslot]
        | remove fd =>
            refine ⟨6, none, _, loop_mark _ false .zero m, trivial, ?_⟩
            simp only [FdOp.fd] at hslot
            simp [FdOp.atomic, fdMapRemove, hslot, map_update]

/-! ## Any interleaving -/

/-- What the map holds for `fd` after an operation. -/
def recordAfter (fd : Int) (record : Option FdRecord) : FdOp → Option FdRecord
  | .set fd' r => if fd' = fd then some r else record
  | .get _ => record
  | .remove fd' => if fd' = fd then none else record

theorem fdMapGet_atomic {fd : Nat} (hfd : fd < fdMapMax) (op : FdOp) (m : FdMap) :
    fdMapGet (op.atomic m).2 fd = recordAfter fd (fdMapGet m fd) op := by
  cases op with
  | get fd' => rw [recordAfter, FdOp.atomic]
  | set fd' r =>
      rw [recordAfter, FdOp.atomic]
      by_cases h : fd' = fd
      · rw [if_pos h, h, fdMapGet_set_self m r hfd]
      · rw [if_neg h, fdMapGet_set_of_ne m r (Ne.symm h)]
  | remove fd' =>
      rw [recordAfter, FdOp.atomic]
      by_cases h : fd' = fd
      · rw [if_pos h, h, fdMapGet_remove_self]
      · rw [if_neg h, fdMapGet_remove_of_ne m (Ne.symm h)]

variable {τ : Type}

/-- The record the operations in `log` leave for `fd`: that of the last set, unless a remove came after it. -/
def lastRecord (fd : Int) (log : List (Served τ FdOp (Option FdRecord))) : Option FdRecord :=
  log.foldl (fun record e => recordAfter fd record e.op) none

theorem fdMapGet_foldl {fd : Nat} (hfd : fd < fdMapMax) (log : List (Served τ FdOp (Option FdRecord))) :
    fdMapGet (log.foldl (fun m e => (e.op.atomic m).2) fdMapClear) fd = lastRecord fd log := by
  have hfold : ∀ (log : List (Served τ FdOp (Option FdRecord))) (m : FdMap),
      fdMapGet (log.foldl (fun m e => (e.op.atomic m).2) m) fd =
        log.foldl (fun record e => recordAfter fd record e.op) (fdMapGet m fd) := by
    intro log
    induction log with
    | nil =>
        intro m
        rw [List.foldl_nil, List.foldl_nil]
    | cons e log ih =>
        intro m
        have hrest := ih (e.op.atomic m).2
        rw [fdMapGet_atomic hfd] at hrest
        rw [List.foldl_cons, List.foldl_cons, hrest]
  rw [hfold, fdMapGet_clear, lastRecord]

/-- Whatever any number of threads interleave, access by access: a get is answered with the record of the last
set of its descriptor, as a whole, or with none if a remove or nothing was served since; between the operations
the memory holds exactly these records; one thread at a time holds the lock, and it can always go on. -/
theorem fdTable_untorn [DecidableEq τ] (moves : List (Move τ FdOp)) :
    let m := run (Shared.step fdTable) (Shared.start FdTable.zero) moves
    (∀ before after t (fd : Nat) r, fd < fdMapMax → m.served = before ++ ⟨t, .get fd, r⟩ :: after →
      r = lastRecord fd before) ∧
    (m.holder = none → ∀ fd : Nat, fd < fdMapMax → fdMapGet m.state.map fd = lastRecord fd m.served) ∧
    (∀ t t', (m.place t).Holds → (m.place t').Holds → t = t') ∧
    ∀ t op l, m.place t = .inside op l → ∃ next, fdTable.round op (l, m.state) = some next := by
  intro m
  obtain ⟨map, hserial, hrests, hexclusive, hgoes⟩ :=
    Shared.serial_run fdTable_implements (trivial : True) moves
  have hlog : m.served.map (Served.map fun _ r => r) = m.served := List.map_id' _
  rw [map_zero, hlog] at hserial
  refine ⟨fun before after t fd r hfd hget => ?_, fun hfree fd hfd => ?_, hexclusive, hgoes⟩
  · have hanswer := hserial.answer_eq hget
    simp only [FdOp.atomic] at hanswer
    exact hanswer.trans (fdMapGet_foldl hfd before)
  · rw [hrests hfree, hserial.state_eq, fdMapGet_foldl hfd]

end Nvscope
