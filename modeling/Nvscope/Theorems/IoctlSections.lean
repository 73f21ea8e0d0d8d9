import Nvscope.System.IoctlSections
import Nvscope.Theorems.Learning
import Nvscope.Theorems.Responses

/-!
# The ioctl filter is used by many threads

Alone, a call of the filter does under its lock and after it what the rest of the model says, without an access
out of bounds. So whatever the threads interleave, every call is answered as in one sequence of calls.
-/

namespace Nvscope

open Lib

variable {op : IoctlOp} {table : IdTable}

/-! ## Learning -/

/-- Spec of `nvfix_remember_allowed_gpu_id_locked`. -/
theorem rememberAllowedGpuIdAt_refines (table : IdTable) (gpuId : UInt32) :
    ∃ after, rememberAllowedGpuIdAt table gpuId = some after ∧
      after.learned = rememberAllowedGpuId table.learned gpuId := by
  have hlen : table.learned.ids.length = table.count := table.length_items
  by_cases hid : gpuId = invalidId
  · exact ⟨table, by simp [rememberAllowedGpuIdAt, hid], by simp [rememberAllowedGpuId, hid]⟩
  · cases hknown : gpuIdIsAllowed table.learned gpuId with
    | true =>
        refine ⟨table, ?_, by simp [rememberAllowedGpuId, hknown]⟩
        simp [rememberAllowedGpuIdAt, hid, gpuIdIsAllowedAt_eq, hknown]
    | false =>
        by_cases hroom : table.count < maxGpus
        · refine ⟨table.offer hroom gpuId true, ?_, LearnedIds.eq_of_ids ?_⟩
          · simp [rememberAllowedGpuIdAt, hid, gpuIdIsAllowedAt_eq, hknown, hroom]
          · have hnot : ¬ (gpuId = invalidId ∨ gpuIdIsAllowed table.learned gpuId = true ∨
                table.learned.ids.length ≥ maxGpus) := by
              rw [hlen]
              simp [hid, hknown, hroom]
            rw [rememberAllowedGpuId, dif_neg hnot]
            exact table.items_offer hroom gpuId true
        · refine ⟨table, ?_, ?_⟩
          · simp [rememberAllowedGpuIdAt, hid, gpuIdIsAllowedAt_eq, hknown, hroom]
          · have hfull : table.learned.ids.length ≥ maxGpus := by
              rw [hlen]
              exact Nat.le_of_not_lt hroom
            rw [rememberAllowedGpuId, dif_pos (Or.inr (Or.inr hfull))]

variable {allowed : AllowedGpus} {cards rest : List CardInfo}

/-- What `nvfix_record_card_info_gpu_ids` makes of one card. -/
def learnCard (allowed : AllowedGpus) (learned : LearnedIds) (card : CardInfo) : LearnedIds :=
  if card.valid != 0 && allowedContainsMinor (some allowed) card.minorNumber then
    rememberAllowedGpuId learned card.gpuId
  else learned

theorem recordCardInfoGpuIds_of_valid (hvalid : allowed.valid = true) (cards : List CardInfo)
    (learned : LearnedIds) :
    recordCardInfoGpuIds (some allowed) cards learned = cards.foldl (learnCard allowed) learned := by
  simp only [recordCardInfoGpuIds, hvalid, Bool.not_true, Bool.false_eq_true, ↓reduceIte]
  rfl

/-- Step lemma: a round learns the card it looks at. -/
theorem recordRound_next {card : CardInfo} {i : Nat} (h : cards.drop i = card :: rest) :
    ∃ after, recordRound allowed cards i table = some (.next (.record allowed cards (i + 1), after)) ∧
      after.learned = learnCard allowed table.learned card := by
  obtain ⟨hget, -⟩ := of_drop_eq_cons h
  obtain ⟨hi, -⟩ := List.getElem?_eq_some_iff.mp hget
  obtain ⟨after, hafter, hlearned⟩ := rememberAllowedGpuIdAt_refines table card.gpuId
  rw [recordRound, if_pos hi, hget, Option.bind_some]
  cases hcard : card.valid != 0 && allowedContainsMinor (some allowed) card.minorNumber with
  | true =>
      refine ⟨after, ?_, ?_⟩
      · rw [if_pos rfl, hafter]
        rfl
      · rw [learnCard, hcard, if_pos rfl, hlearned]
  | false =>
      refine ⟨table, if_neg Bool.false_ne_true, ?_⟩
      rw [learnCard, hcard, if_neg Bool.false_ne_true]

/-- Run lemma: the rest of the response is learned. -/
theorem loop_record (op : IoctlOp) :
    ∀ {rest : List CardInfo} {i : Nat} {table : IdTable}, cards.drop i = rest →
      ∃ after, loop (ioctlFilter.round op) (rest.length + 1) (.record allowed cards i, table) =
          some (.nothing, after) ∧ after.learned = rest.foldl (learnCard allowed) table.learned := by
  intro rest
  induction rest with
  | nil =>
      intro i table hrest
      have hend : ¬ i < cards.length := Nat.not_lt_of_le (List.drop_eq_nil_iff.mp hrest)
      exact ⟨table, loop_done (if_neg hend), rfl⟩
  | cons card rest ih =>
      intro i table hrest
      obtain ⟨next, hround, hnext⟩ := @recordRound_next table allowed cards rest card i hrest
      obtain ⟨after, hloop, hafter⟩ := @ih (i + 1) next (of_drop_eq_cons hrest).2
      refine ⟨after, ?_, ?_⟩
      · rw [List.length_cons, loop_next hround, hloop]
      · rw [hafter, hnext, List.foldl_cons]

/-! ## The two filters -/

theorem loop_gpuIds (op : IoctlOp) (table : IdTable) (gpuIds : List UInt32) (fuel : Nat) (st : Nat × List UInt32 × Nat) :
    loop (ioctlFilter.round op) fuel (.keepGpuIds gpuIds st, table) =
      (loop (keepRound (· == invalidId) (gpuIdIsAllowedAt table) (fun used => decide (used < maxGpus)) gpuIds
        gpuIds.length) fuel st).map fun r => (.gpuIds r.1 r.2, table) :=
  loop_map (fun st => (IoctlWork.keepGpuIds gpuIds st, table)) _ (fun _ => rfl) fuel st

theorem loop_devices (op : IoctlOp) (table : IdTable) (devices : List ActiveDevice) (count fuel : Nat)
    (st : Nat × List ActiveDevice × Nat) :
    loop (ioctlFilter.round op) fuel (.keepDevices devices count st, table) =
      (loop (keepRound (fun _ => false) (fun device => gpuIdIsAllowedAt table device.gpuId) (fun _ => true) devices
        count) fuel st).map fun r => (.devices r.1 r.2, table) :=
  loop_map (fun st => (IoctlWork.keepDevices devices count st, table)) _ (fun _ => rfl) fuel st

/-- With the lock, and then without it, the attached array is filtered. -/
theorem gpuIdArray_section (op : IoctlOp) (table : IdTable) (scratch : List.Vector UInt32 maxGpus)
    {params : List UInt8} (hsize : Layouts.attachedIds.size ≤ params.length) :
    ∃ fuel kept, loop (ioctlFilter.round op) fuel
        (.gpuIdArray (Layouts.attachedIds.get params).toList scratch.toList, table) = some (kept, table) ∧
      kept.write params =
        some (Layouts.attachedIds.put (filterGpuIdArray table.learned (Layouts.attachedIds.get params)).1 params) := by
  have hlen : (Layouts.attachedIds.get params).toList.length = maxAttachedGpus := List.Vector.toList_length _
  have hfilter := filterGpuIdArrayAt_refines (Nat.le_refl _ : maxAttachedGpus ≤ maxGpus) table scratch
    (Layouts.attachedIds.get params)
  have hsame : ∀ ids : List.Vector UInt32 maxAttachedGpus, (Layouts.attachedIds.get params).toList = ids.toList →
      some params = some (Layouts.attachedIds.put ids params) := by
    intro ids hids
    rw [← List.Vector.eq _ _ hids, Layout.put_get _ hsize]
  rw [filterGpuIdArrayAt, if_neg (by decide)] at hfilter
  by_cases hcount : table.count = 0
  · rw [if_pos hcount] at hfilter
    obtain ⟨hids, -⟩ := Prod.mk.inj (Option.some.inj hfilter)
    exact ⟨1, .nothing, loop_done (if_pos hcount), hsame _ hids⟩
  · rw [if_neg hcount] at hfilter
    obtain ⟨⟨kept, keptCount⟩, hloop, hwrite⟩ := Option.bind_eq_some_iff.mp hfilter
    simp only at hwrite
    refine ⟨maxAttachedGpus + 2, .gpuIds kept keptCount, ?_, ?_⟩
    · have hround : ioctlFilter.round op (.gpuIdArray (Layouts.attachedIds.get params).toList scratch.toList, table) =
          some (.next (.keepGpuIds (Layouts.attachedIds.get params).toList (0, scratch.toList, 0), table)) :=
        if_neg hcount
      rw [loop_next hround, loop_gpuIds, hlen, hloop, Option.map_some]
    · rw [IoctlKept.write, writeGpuIds]
      by_cases hzero : keptCount = 0
      · rw [if_pos hzero] at hwrite ⊢
        obtain ⟨hids, -⟩ := Prod.mk.inj (Option.some.inj hwrite)
        exact hsame _ hids
      · rw [if_neg hzero] at hwrite ⊢
        obtain ⟨ids, hfill, hids⟩ := Option.map_eq_some_iff.mp hwrite
        obtain ⟨rfl, -⟩ := Prod.mk.inj hids
        rw [hfill, Option.bind_some, dif_pos (List.Vector.toList_length _)]
        rfl

/-- With the lock, and then without it, the active devices are filtered. -/
theorem activeDevices_section (op : IoctlOp) (table : IdTable) (scratch : List.Vector ActiveDevice maxActiveDevices)
    {params : List UInt8} (hsize : Layouts.activeDeviceIdsParams.size ≤ params.length) :
    let read := Layouts.activeDeviceIdsParams.get params
    ∃ fuel kept, loop (ioctlFilter.round op) fuel
        (.activeDevices read.numDevices read.devices.toList scratch.toList, table) = some (kept, table) ∧
      kept.write params = some (Layouts.activeDeviceIdsParams.put (filterActiveDevices table.learned read) params) := by
  intro read
  have hfilter := filterActiveDevicesAt_refines table scratch read
  have hsame : ∀ after : ActiveDeviceIdsParams, read.numDevices = after.numDevices →
      read.devices.toList = after.devices.toList → some params = some (Layouts.activeDeviceIdsParams.put after params) := by
    intro after hnum hdev
    have hread : read = after := congrArg₂ ActiveDeviceIdsParams.mk hnum (List.Vector.eq _ _ hdev)
    rw [← hread, Layout.put_get _ hsize]
  rw [filterActiveDevicesAt] at hfilter
  by_cases hcount : table.count = 0
  · rw [if_pos hcount] at hfilter
    obtain ⟨hnum, hdev⟩ := Prod.mk.inj (Option.some.inj hfilter)
    exact ⟨1, .nothing, loop_done (if_pos hcount), hsame _ hnum hdev⟩
  · rw [if_neg hcount] at hfilter
    obtain ⟨⟨kept, keptCount⟩, hloop, hwrite⟩ := Option.bind_eq_some_iff.mp hfilter
    simp only at hwrite
    have hround : ioctlFilter.round op (.activeDevices read.numDevices read.devices.toList scratch.toList, table) =
        some (.next (.keepDevices read.devices.toList _ (0, scratch.toList, 0), table)) :=
      if_neg hcount
    refine ⟨_, .devices kept keptCount,
      (loop_next hround).trans ((loop_devices op table _ _ _ _).trans (congrArg _ hloop)), ?_⟩
    rw [IoctlKept.write, writeDevices]
    by_cases hzero : keptCount = 0
    · rw [if_pos hzero] at hwrite ⊢
      obtain ⟨hnum, hdev⟩ := Prod.mk.inj (Option.some.inj hwrite)
      exact hsame _ hnum hdev
    · rw [if_neg hzero] at hwrite ⊢
      obtain ⟨front, hfront, hstore⟩ := Option.bind_eq_some_iff.mp hwrite
      obtain ⟨devices, hdevices, hafter⟩ := Option.map_eq_some_iff.mp hstore
      obtain ⟨hnum, rfl⟩ := Prod.mk.inj hafter
      rw [hfront, Option.bind_some, hdevices, Option.bind_some, dif_pos (List.Vector.toList_length _), hnum]
      rfl

/-! ## One call alone -/

/-- The call as the rest of the model has it. -/
def IoctlOp.call (op : IoctlOp) : IoctlCall :=
  ⟨op.cfg, op.allowed, op.request, op.arg, op.result⟩

def IoctlOp.atomic (op : IoctlOp) (learned : LearnedIds) : Option (Option IoctlArg) × LearnedIds :=
  (some (op.call.answer learned), op.call.learn learned)

/-- What the call does when it runs alone, by where it takes the lock. -/
def IoctlOp.RunsAlone (op : IoctlOp) (table : IdTable) : IoctlWork ⊕ IoctlKept → Prop
  | .inr kept => op.atomic table.learned = (op.return kept, table.learned)
  | .inl work => ∃ fuel kept after, loop (ioctlFilter.round op) fuel (work, table) = some (kept, after) ∧
      op.atomic table.learned = (op.return kept, after.learned)

theorem return_of_write {arg : IoctlArg} {kept : IoctlKept} {params : List UInt8} (harg : op.arg = some arg)
    (h : kept.write arg.params = some params) :
    op.return kept = some (some
      { mem := if op.result = 0 && requestIsCardInfo op.request && (op.cfg.map Config.ioctlFilterEnabled).getD false
          then filterCardInfo op.allowed arg.mem else arg.mem
        params := params }) := by
  rw [IoctlOp.return, harg]
  simp only [h, Option.map_some]

theorem runsAlone_cardInfo {arg : IoctlArg} (harg : op.arg = some arg) (hres : op.result = 0)
    (hreq : requestIsCardInfo op.request = true) (table : IdTable) : op.RunsAlone table op.enter := by
  have hatomic : op.atomic table.learned = (op.return .nothing,
      recordCardInfoGpuIds op.allowed (Layouts.cards.get arg.mem).toList table.learned) := by
    rw [return_of_write harg rfl, IoctlOp.atomic, IoctlCall.answer, IoctlCall.learn, IoctlOp.call, harg, hres,
      ioctlFilterAfter_cardInfo hreq]
    simp [hreq]
  have hnone : (∀ minor, ¬ AllowedMinor op.allowed minor) →
      op.atomic table.learned = (op.return .nothing, table.learned) := by
    intro hno
    have hids := ids_recordCardInfoGpuIds op.allowed (Layouts.cards.get arg.mem).toList table.learned
    rw [reportedIds_of_not_valid hno, List.foldl_nil] at hids
    rw [hatomic, LearnedIds.eq_of_ids hids]
  rw [IoctlOp.enter, harg]
  simp only [hres, ne_eq, not_true_eq_false, ↓reduceIte, hreq]
  cases hallowed : op.allowed with
  | none => exact hnone (by simp [AllowedMinor, hallowed])
  | some allowed =>
      cases hvalid : allowed.valid with
      | false =>
          simp only [hvalid, Bool.not_false, ↓reduceIte]
          exact hnone (by simp [AllowedMinor, hallowed, hvalid])
      | true =>
          simp only [hvalid, Bool.not_true, Bool.false_eq_true, ↓reduceIte]
          obtain ⟨after, hloop, hafter⟩ := @loop_record allowed (Layouts.cards.get arg.mem).toList op
            _ 0 table rfl
          refine ⟨_, .nothing, after, hloop, ?_⟩
          rw [hatomic, hallowed, recordCardInfoGpuIds_of_valid hvalid, hafter]
          rfl

theorem runsAlone_rmControl {arg : IoctlArg} (harg : op.arg = some arg) (hres : op.result = 0)
    (hcard : requestIsCardInfo op.request = false) (hreq : requestIsRmControl op.request = true)
    (table : IdTable) : op.RunsAlone table op.enter := by
  have hfits := op.fits arg harg hreq
  have hatomic : ∀ kept params, kept.write arg.params = some params →
      filterRmControl op.cfg op.allowed (Layouts.nvos54Parameters.get arg.mem) 0 table.learned arg.params = params →
      op.atomic table.learned = (op.return kept, table.learned) := by
    intro kept params hwrite hfilter
    rw [return_of_write harg hwrite, IoctlOp.atomic, IoctlCall.answer, IoctlCall.learn, IoctlOp.call, harg, hres,
      ioctlFilterAfter_rmControl hreq, hfilter]
    simp [hcard]
  rw [IoctlOp.enter, harg]
  simp only [hres, ne_eq, not_true_eq_false, ↓reduceIte, hreq, hcard, Bool.false_eq_true]
  unfold filterRmControl at hatomic
  cases hon : gpuIdArrayFilterEnabled op.cfg op.allowed 0 (Layouts.nvos54Parameters.get arg.mem) with
  | false =>
      simp only [hon, Bool.not_false, ↓reduceIte] at hatomic ⊢
      exact hatomic .nothing _ rfl rfl
  | true =>
      simp only [hon, Bool.not_true, Bool.false_eq_true, ↓reduceIte] at hatomic ⊢
      split
      · rename_i hatt
        rw [if_pos hatt] at hatomic
        obtain ⟨fuel, kept, hloop, hwrite⟩ := gpuIdArray_section op table op.keptIds (hatt.2.le.trans hfits)
        exact ⟨fuel, kept, table, hloop, hatomic kept _ hwrite rfl⟩
      · rename_i hatt
        rw [if_neg hatt] at hatomic
        split
        · rename_i hact
          rw [if_pos hact] at hatomic
          obtain ⟨fuel, kept, hloop, hwrite⟩ := activeDevices_section op table op.keptDevices (hact.2.le.trans hfits)
          exact ⟨fuel, kept, table, hloop, hatomic kept _ hwrite rfl⟩
        · rename_i hact
          rw [if_neg hact] at hatomic
          exact hatomic .nothing _ rfl rfl

/-- The other calls return without the lock. -/
theorem runsAlone_of_other (h : ∀ arg, op.arg = some arg → op.result = 0 →
    requestIsCardInfo op.request = false ∧ requestIsRmControl op.request = false) (table : IdTable) :
    op.RunsAlone table op.enter := by
  rw [IoctlOp.enter]
  cases harg : op.arg with
  | none =>
      rw [IoctlOp.RunsAlone, IoctlOp.atomic, IoctlCall.answer, IoctlCall.learn, IoctlOp.call, IoctlOp.return, harg]
      rfl
  | some arg =>
      have hret := @return_of_write op arg .nothing _ harg rfl
      by_cases hres : op.result = 0
      · obtain ⟨hcard, hrm⟩ := h arg harg hres
        simp only [hres, ne_eq, not_true_eq_false, ↓reduceIte, hcard, hrm, Bool.false_eq_true]
        rw [IoctlOp.RunsAlone, hret, IoctlOp.atomic, IoctlCall.answer, IoctlCall.learn, IoctlOp.call, harg,
          ioctlFilterAfter_of_other hcard hrm]
        simp [hcard]
      · simp only [ne_eq, hres, not_false_eq_true, ↓reduceIte]
        rw [IoctlOp.RunsAlone, hret, IoctlOp.atomic, IoctlCall.answer, IoctlCall.learn, IoctlOp.call, harg,
          ioctlFilterAfter_of_failed hres]
        simp [hres]

theorem runsAlone (op : IoctlOp) (table : IdTable) : op.RunsAlone table op.enter := by
  by_cases hlook : ∃ arg, op.arg = some arg ∧ op.result = 0
  · obtain ⟨arg, harg, hres⟩ := hlook
    cases hcard : requestIsCardInfo op.request with
    | true => exact runsAlone_cardInfo harg hres hcard table
    | false =>
        cases hrm : requestIsRmControl op.request with
        | true => exact runsAlone_rmControl harg hres hcard hrm table
        | false => exact runsAlone_of_other (fun _ _ _ => ⟨hcard, hrm⟩) table
  · exact runsAlone_of_other (fun arg harg hres => absurd ⟨arg, harg, hres⟩ hlook) table

theorem ioctlFilter_implements :
    ioctlFilter.Implements (fun _ => True) IdTable.learned IoctlOp.return IoctlOp.atomic where
  direct op kept table henter _ := by
    have h := runsAlone op table
    rw [show op.enter = .inr kept from henter] at h
    exact h
  inside op work table henter _ := by
    have h := runsAlone op table
    rw [show op.enter = .inl work from henter] at h
    obtain ⟨fuel, kept, after, hloop, hatomic⟩ := h
    exact ⟨fuel, kept, after, hloop, trivial, hatomic⟩

/-! ## Any interleaving -/

variable {τ : Type}

/-- The calls that have been served. -/
def callsOf (log : List (Served τ IoctlOp IoctlKept)) : List IoctlCall :=
  log.map fun e => e.op.call

theorem foldl_atomic (log : List (Served τ IoctlOp IoctlKept)) (learned : LearnedIds) :
    (log.map (Served.map IoctlOp.return)).foldl (fun learned e => (e.op.atomic learned).2) learned =
      run IoctlCall.learn learned (callsOf log) := by
  rw [List.foldl_map, run, callsOf, List.foldl_map]
  rfl

/-- The filter as the threads have left it; the array of ids may hold anything at the start. -/
def sharedFilter [DecidableEq τ] (array : List.Vector UInt32 maxGpus) (moves : List (Move τ IoctlOp)) :
    Shared τ IdTable IoctlOp IoctlWork IoctlKept :=
  run (Shared.step ioctlFilter) (Shared.start (Slots.fresh array)) moves

variable [DecidableEq τ] {array : List.Vector UInt32 maxGpus} {moves : List (Move τ IoctlOp)}

theorem sharedFilter_serial (array : List.Vector UInt32 maxGpus) (moves : List (Move τ IoctlOp)) :
    ∃ learned, Serial IoctlOp.atomic LearnedIds.empty
        ((sharedFilter array moves).served.map (Served.map IoctlOp.return)) learned ∧
      ((sharedFilter array moves).holder = none → (sharedFilter array moves).state.learned = learned) := by
  obtain ⟨learned, hserial, hfree, -⟩ :=
    Shared.serial_run ioctlFilter_implements (s := Slots.fresh array) trivial moves
  have hempty : IdTable.learned (Slots.fresh array) = LearnedIds.empty :=
    LearnedIds.eq_of_ids (Slots.items_fresh array)
  rw [hempty] at hserial
  exact ⟨learned, hserial, hfree⟩

/-- While nobody is inside, the table holds what the calls served have left one after the other. -/
theorem learned_sharedFilter (hfree : (sharedFilter array moves).holder = none) :
    (sharedFilter array moves).state.learned =
      run IoctlCall.learn LearnedIds.empty (callsOf (sharedFilter array moves).served) := by
  obtain ⟨learned, hserial, hrests⟩ := sharedFilter_serial array moves
  rw [hrests hfree, hserial.state_eq, foldl_atomic]

theorem answer_sharedFilter {before after : List (Served τ IoctlOp IoctlKept)} {e : Served τ IoctlOp IoctlKept}
    (h : (sharedFilter array moves).served = before ++ e :: after) :
    e.op.return e.answer = some (e.op.call.answer (run IoctlCall.learn LearnedIds.empty (callsOf before))) := by
  obtain ⟨learned, hserial, -⟩ := sharedFilter_serial array moves
  have hlog : (sharedFilter array moves).served.map (Served.map IoctlOp.return) =
      before.map (Served.map IoctlOp.return) ++ e.map IoctlOp.return :: after.map (Served.map IoctlOp.return) := by
    rw [h, List.map_append, List.map_cons]
  have hanswer := hserial.answer_eq hlog
  rw [foldl_atomic] at hanswer
  exact hanswer

/-- Whatever any number of threads interleave, loop round by loop round, no call faults, every call is answered
as in the sequence of calls in the order in which they left the lock, and the ids learned are those of that
sequence; one thread at a time holds the lock, and it can always go on. -/
theorem ioctlFilter_serializes (array : List.Vector UInt32 maxGpus) (moves : List (Move τ IoctlOp)) :
    let m := sharedFilter array moves
    (∀ before after e, m.served = before ++ e :: after →
      e.op.return e.answer = some (e.op.call.answer (run IoctlCall.learn LearnedIds.empty (callsOf before)))) ∧
    (m.holder = none → m.state.learned = run IoctlCall.learn LearnedIds.empty (callsOf m.served)) ∧
    (∀ t t', (m.place t).Holds → (m.place t').Holds → t = t') ∧
    ∀ t op work, m.place t = .inside op work → ∃ next, ioctlFilter.round op (work, m.state) = some next := by
  intro m
  obtain ⟨-, -, -, hexclusive, hgoes⟩ :=
    Shared.serial_run ioctlFilter_implements (s := Slots.fresh array) trivial moves
  exact ⟨fun _ _ _ h => answer_sharedFilter h, learned_sharedFilter, hexclusive, hgoes⟩

end Nvscope
