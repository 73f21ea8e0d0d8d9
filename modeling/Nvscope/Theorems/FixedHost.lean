import Mathlib.Data.Finset.Card
import Nvscope.Theorems.IoctlSections

/-!
# The ids of a host whose cards stay as they are

What is answered depends on which ids are learned, not on when. A driver that always gives a card the same id
has no more ids for the allowed minors than there is room for, so that no id is lost, and none of a hidden card
is shown with one of a mounted card.
-/

namespace Nvscope

open Lib

/-! ## The order of the learned ids -/

section

variable {learned learned' : LearnedIds}

theorem learnedOf_congr (h : ∀ gpuId, gpuId ∈ learned.ids ↔ gpuId ∈ learned'.ids) (gpuIds : List UInt32) :
    learnedOf learned gpuIds = learnedOf learned' gpuIds := by
  rw [learnedOf, learnedOf]
  exact List.filter_congr fun gpuId _ => by simp only [h]

theorem filterGpuIdArray_congr (h : ∀ gpuId, gpuId ∈ learned.ids ↔ gpuId ∈ learned'.ids)
    (gpuIds : List.Vector UInt32 maxAttachedGpus) :
    (filterGpuIdArray learned gpuIds).1 = (filterGpuIdArray learned' gpuIds).1 := by
  have hle : maxAttachedGpus ≤ maxGpus := Nat.le_refl _
  apply List.Vector.eq
  rw [filterGpuIdArray_eq hle, filterGpuIdArray_eq hle, learnedOf_congr h]

theorem filterActiveDevices_congr (h : ∀ gpuId, gpuId ∈ learned.ids ↔ gpuId ∈ learned'.ids)
    (params : ActiveDeviceIdsParams) : filterActiveDevices learned params = filterActiveDevices learned' params := by
  have hkept : params.listed.filter (·.gpuId ∈ learned.ids) = params.listed.filter (·.gpuId ∈ learned'.ids) :=
    List.filter_congr fun device _ => by simp only [h]
  obtain ⟨hempty, hnum⟩ := filterActiveDevices_eq learned params
  obtain ⟨hempty', hnum'⟩ := filterActiveDevices_eq learned' params
  rw [← hkept] at hempty' hnum'
  by_cases hnil : params.listed.filter (·.gpuId ∈ learned.ids) = []
  · rw [hempty hnil, hempty' hnil]
  · obtain ⟨hcount, hdevices⟩ := hnum hnil
    obtain ⟨hcount', hdevices'⟩ := hnum' hnil
    have hn := UInt32.toNat_inj.mp (hcount.trans hcount'.symm)
    have hd := List.Vector.eq _ _ (hdevices.trans hdevices'.symm)
    exact congrArg₂ ActiveDeviceIdsParams.mk hn hd

/-- A call is answered by which ids are learned. -/
theorem IoctlCall.answer_congr (h : ∀ gpuId, gpuId ∈ learned.ids ↔ gpuId ∈ learned'.ids) (c : IoctlCall) :
    c.answer learned = c.answer learned' := by
  have hrm : ∀ rm params, filterRmControl c.cfg c.allowed rm 0 learned params =
      filterRmControl c.cfg c.allowed rm 0 learned' params := by
    intro rm params
    simp only [filterRmControl, filterGpuIdArray_congr h, filterActiveDevices_congr h]
  simp only [IoctlCall.answer]
  cases c.arg with
  | none => rfl
  | some arg =>
      by_cases hres : c.result = 0
      · rw [hres]
        cases hcard : requestIsCardInfo c.request with
        | true => rw [ioctlFilterAfter_cardInfo hcard, ioctlFilterAfter_cardInfo hcard]
        | false =>
            cases hreq : requestIsRmControl c.request with
            | true => rw [ioctlFilterAfter_rmControl hreq, ioctlFilterAfter_rmControl hreq, hrm]
            | false => rw [ioctlFilterAfter_of_other hcard hreq, ioctlFilterAfter_of_other hcard hreq]
      · rw [ioctlFilterAfter_of_failed hres, ioctlFilterAfter_of_failed hres]

end

/-! ## The ids reported -/

variable {τ τ' : Type}

/-- The ids the calls served have reported for allowed minors. -/
def reportedBy (log : List (Served τ IoctlOp IoctlKept)) : List UInt32 :=
  (callsOf log).flatMap IoctlCall.reported

/-- Where the ids reported find room, all of them are learned. -/
theorem mem_learned_iff {log : List (Served τ IoctlOp IoctlKept)} (hroom : (reportedBy log).toFinset.card ≤ maxGpus)
    {gpuId : UInt32} :
    gpuId ∈ (run IoctlCall.learn LearnedIds.empty (callsOf log)).ids ↔ gpuId ∈ reportedBy log := by
  rw [IoctlCall.ids_run_learn]
  exact mem_foldl_remember_of_card hroom

/-! ## A host whose cards stay as they are -/

/-- Which minor an id belongs to; no two ids belong to one. -/
structure HostCards where
  minorOf : UInt32 → UInt32
  inj : ∀ gpuId gpuId', minorOf gpuId = minorOf gpuId' → gpuId = gpuId'

/-- A CARD_INFO response is that of the host. -/
def HostCards.Tells (host : HostCards) (op : IoctlOp) : Prop :=
  ∀ arg card, op.arg = some arg → requestIsCardInfo op.request = true →
    card ∈ (Layouts.cards.get arg.mem).toList → card.valid ≠ 0 → card.gpuId ≠ invalidId →
    host.minorOf card.gpuId = card.minorNumber

variable {host : HostCards} {allowed : AllowedGpus} {log : List (Served τ IoctlOp IoctlKept)}

theorem allowedMinor_of_reported {op : IoctlOp} (htells : host.Tells op) (hallowed : op.allowed = some allowed)
    {gpuId : UInt32} (h : gpuId ∈ op.call.reported) : AllowedMinor (some allowed) (host.minorOf gpuId) := by
  cases harg : op.arg with
  | none => simp [IoctlCall.reported, IoctlOp.call, harg] at h
  | some arg =>
      simp only [IoctlCall.reported, IoctlOp.call, harg] at h
      split at h
      · rename_i hcall
        obtain ⟨card, hcard, hvalid, hminor, rfl, hne⟩ := mem_reportedIds.mp h
        rw [htells arg card harg hcall.1 hcard hvalid hne, ← hallowed]
        exact hminor
      · exact absurd h List.not_mem_nil

theorem allowedMinor_of_reportedBy (htells : ∀ e ∈ log, host.Tells e.op)
    (hallowed : ∀ e ∈ log, e.op.allowed = some allowed) {gpuId : UInt32} (h : gpuId ∈ reportedBy log) :
    AllowedMinor (some allowed) (host.minorOf gpuId) := by
  obtain ⟨c, hc, hid⟩ := List.mem_flatMap.mp h
  obtain ⟨e, he, rfl⟩ := List.mem_map.mp hc
  exact allowedMinor_of_reported (htells e he) (hallowed e he) hid

/-- There is room for an id of each allowed minor. -/
theorem reportedBy_card_le (htells : ∀ e ∈ log, host.Tells e.op)
    (hallowed : ∀ e ∈ log, e.op.allowed = some allowed) : (reportedBy log).toFinset.card ≤ maxGpus := by
  have hinj : Set.InjOn host.minorOf ↑(reportedBy log).toFinset := fun _ _ _ _ h => host.inj _ _ h
  rw [← Finset.card_image_of_injOn hinj]
  have hsub : (reportedBy log).toFinset.image host.minorOf ⊆
      (allowed.gpus.map fun gpu => gpu.deviceMinor.toUInt32).toFinset := by
    intro minor hminor
    obtain ⟨gpuId, hid, rfl⟩ := Finset.mem_image.mp hminor
    obtain ⟨a, ha, -, gpu, hgpu, -, heq⟩ := allowedMinor_of_reportedBy htells hallowed (List.mem_toFinset.mp hid)
    cases ha
    rw [List.mem_toFinset, List.mem_map]
    exact ⟨gpu, hgpu, ((toUInt32_eq_iff _ _).mpr heq).2⟩
  calc ((reportedBy log).toFinset.image host.minorOf).card
      ≤ (allowed.gpus.map fun gpu => gpu.deviceMinor.toUInt32).toFinset.card := Finset.card_le_card hsub
    _ ≤ (allowed.gpus.map fun gpu => gpu.deviceMinor.toUInt32).length := List.toFinset_card_le _
    _ = allowed.gpus.length := List.length_map _
    _ ≤ maxGpus := allowed.count_le

/-- The ids an RM response lists. -/
def rmListed (cmd : UInt32) (params : List UInt8) : List UInt32 :=
  if cmd = cmdGpuGetAttachedIds then attachedList params else (activeList params).map (·.gpuId)

theorem rmListed_response {cfg : Option Config} {allowed : Option AllowedGpus} {learned : LearnedIds}
    {arg after : IoctlArg} (hon : FilterOn cfg allowed) (hel : RmEligible (Layouts.nvos54Parameters.get arg.mem))
    (hsome : ∃ gpuId ∈ rmListed (Layouts.nvos54Parameters.get arg.mem).cmd arg.params, gpuId ∈ learned.ids)
    (hafter : (ioctlFilterAfter cfg allowed rmControlRequest (some arg) 0 learned).2 = some after) :
    rmListed (Layouts.nvos54Parameters.get arg.mem).cmd after.params =
      (rmListed (Layouts.nvos54Parameters.get arg.mem).cmd arg.params).filter (· ∈ learned.ids) := by
  have hne : cmdGpuGetActiveDeviceIds ≠ cmdGpuGetAttachedIds := by decide
  obtain ⟨known, hlisted, hknown⟩ := hsome
  rcases hel.command with ⟨hcmd, -⟩ | ⟨hcmd, -⟩
  · simp only [rmListed, hcmd, ↓reduceIte] at hlisted ⊢
    refine attachedList_response hon hel hcmd ?_ hafter
    exact List.ne_nil_of_mem (List.mem_filter.mpr ⟨hlisted, decide_eq_true hknown⟩)
  · simp only [rmListed, hcmd, hne, ↓reduceIte] at hlisted ⊢
    obtain ⟨after', hafter', hdev⟩ := active_response_eq learned hon hel hcmd
    rw [hafter, Option.some.injEq] at hafter'
    subst hafter'
    obtain ⟨device, hdevice, rfl⟩ := List.mem_map.mp hlisted
    have hkept : (activeList arg.params).filter (·.gpuId ∈ learned.ids) ≠ [] :=
      List.ne_nil_of_mem (List.mem_filter.mpr ⟨hdevice, decide_eq_true hknown⟩)
    rw [activeList, hdev, listed_filterActiveDevices]
    rw [activeList] at hkept ⊢
    rw [if_neg hkept, List.filter_map]
    rfl

/-! ## Any interleaving -/

variable [DecidableEq τ] [DecidableEq τ'] {array array' : List.Vector UInt32 maxGpus}
  {moves : List (Move τ IoctlOp)} {moves' : List (Move τ' IoctlOp)}

/-- Two interleavings that have served the same calls in whatever order, by whatever threads, have learned the
same ids while the lock is free in both, and answer every further call in the same way, as long as the ids reported
find room. -/
theorem answers_any_order (hfree : (sharedFilter array moves).holder = none)
    (hfree' : (sharedFilter array' moves').holder = none)
    (hperm : (callsOf (sharedFilter array moves).served).Perm (callsOf (sharedFilter array' moves').served))
    (hroom : (reportedBy (sharedFilter array moves).served).toFinset.card ≤ maxGpus) :
    (∀ gpuId, gpuId ∈ (sharedFilter array moves).state.items ↔
      gpuId ∈ reportedBy (sharedFilter array moves).served) ∧
    (∀ gpuId, gpuId ∈ (sharedFilter array moves).state.items ↔ gpuId ∈ (sharedFilter array' moves').state.items) ∧
    ∀ c : IoctlCall, c.answer (sharedFilter array moves).state.learned =
      c.answer (sharedFilter array' moves').state.learned := by
  have hreported : (reportedBy (sharedFilter array moves).served).Perm
      (reportedBy (sharedFilter array' moves').served) := hperm.flatMap_right _
  have hroom' : (reportedBy (sharedFilter array' moves').served).toFinset.card ≤ maxGpus := by
    rwa [← List.toFinset_eq_of_perm _ _ hreported]
  have hmem : ∀ gpuId, gpuId ∈ (sharedFilter array moves).state.learned.ids ↔
      gpuId ∈ reportedBy (sharedFilter array moves).served := by
    intro gpuId
    rw [learned_sharedFilter hfree]
    exact mem_learned_iff hroom
  have hmem' : ∀ gpuId, gpuId ∈ (sharedFilter array' moves').state.learned.ids ↔
      gpuId ∈ reportedBy (sharedFilter array' moves').served := by
    intro gpuId
    rw [learned_sharedFilter hfree']
    exact mem_learned_iff hroom'
  have hsame : ∀ gpuId, gpuId ∈ (sharedFilter array moves).state.learned.ids ↔
      gpuId ∈ (sharedFilter array' moves').state.learned.ids := by
    intro gpuId
    rw [hmem, hmem', hreported.mem_iff]
  exact ⟨hmem, hsame, IoctlCall.answer_congr hsame⟩

theorem requestIsRmControl_cardInfo : requestIsRmControl cardInfoRequest = false := by
  decide

/-- A CARD_INFO call in a container with one GPU. -/
def cardInfoOp (cards : List CardInfo) : IoctlOp where
  cfg := some filterConfig
  allowed := some container.allowed
  request := cardInfoRequest
  arg := some (cardResponse cards)
  result := 0
  keptIds := .replicate maxGpus 0
  keptDevices := .replicate maxActiveDevices ⟨0, 0, 0⟩
  fits _ _ h := absurd (requestIsRmControl_cardInfo.symm.trans h) Bool.false_ne_true

def attachedOp (gpuIds : List UInt32) : IoctlOp where
  cfg := some filterConfig
  allowed := some container.allowed
  request := rmControlRequest
  arg := some (attachedResponse gpuIds)
  result := 0
  keptIds := .replicate maxGpus 0
  keptDevices := .replicate maxActiveDevices ⟨0, 0, 0⟩
  fits a h _ := by
    cases h
    rfl

/-- `t` is inside for as long as a CARD_INFO response takes. -/
def cardInfoTurn (t : Fin 2) : List (Move (Fin 2) IoctlOp) :=
  .lock t :: List.replicate (nvMaxDevices + 1) (.round t) ++ [.unlock t]

/-- The cards 7 and 8 are reported to two threads, of which `t` comes first. -/
def twoReports (t t' : Fin 2) : List (Move (Fin 2) IoctlOp) :=
  .call 0 (cardInfoOp [card 1 7 0]) :: .call 1 (cardInfoOp [card 1 8 0]) :: cardInfoTurn t ++ cardInfoTurn t'

set_option maxRecDepth 2000 in
theorem served_twoReports :
    (sharedFilter (.replicate maxGpus 0) (twoReports 0 1)).served =
      [⟨0, cardInfoOp [card 1 7 0], .nothing⟩, ⟨1, cardInfoOp [card 1 8 0], .nothing⟩] ∧
    (sharedFilter (.replicate maxGpus 0) (twoReports 1 0)).served =
      [⟨1, cardInfoOp [card 1 8 0], .nothing⟩, ⟨0, cardInfoOp [card 1 7 0], .nothing⟩] :=
  ⟨rfl, rfl⟩

/-- Either of the two may be the first. -/
theorem answers_any_order_two :
    (attachedOp [9, 8, 7]).call.answer (sharedFilter (.replicate maxGpus 0) (twoReports 0 1)).state.learned =
      (attachedOp [9, 8, 7]).call.answer (sharedFilter (.replicate maxGpus 0) (twoReports 1 0)).state.learned := by
  obtain ⟨hserved, hserved'⟩ := served_twoReports
  have hperm : (callsOf (sharedFilter (.replicate maxGpus 0) (twoReports 0 1)).served).Perm
      (callsOf (sharedFilter (.replicate maxGpus 0) (twoReports 1 0)).served) := by
    rw [hserved, hserved']
    exact List.Perm.swap _ _ []
  obtain ⟨-, -, hanswers⟩ := answers_any_order (by decide +kernel) (by decide +kernel) hperm (by decide +kernel)
  exact hanswers _

/-- On a host whose cards stay as they are, no interleaving shows a hidden card's id with that of a mounted one:
an RM response that lists an id reported before it shows exactly those listed ids that were reported, all of
them of allowed minors; once the allowed ones among them have been reported, exactly these. -/
theorem hidden_never_shown (htells : ∀ e ∈ (sharedFilter array moves).served, host.Tells e.op)
    (hallowed : ∀ e ∈ (sharedFilter array moves).served, e.op.allowed = some allowed)
    {before after : List (Served τ IoctlOp IoctlKept)} {e : Served τ IoctlOp IoctlKept} {arg : IoctlArg}
    (hlog : (sharedFilter array moves).served = before ++ e :: after) (harg : e.op.arg = some arg)
    (hrequest : e.op.request = rmControlRequest) (hresult : e.op.result = 0)
    (hon : FilterOn e.op.cfg e.op.allowed) (hel : RmEligible (Layouts.nvos54Parameters.get arg.mem))
    (hsome : ∃ gpuId ∈ rmListed (Layouts.nvos54Parameters.get arg.mem).cmd arg.params,
      gpuId ∈ reportedBy before) :
    let listed := rmListed (Layouts.nvos54Parameters.get arg.mem).cmd
    ∃ shown, e.op.return e.answer = some (some shown) ∧
      listed shown.params = (listed arg.params).filter (· ∈ reportedBy before) ∧
      (∀ gpuId ∈ listed shown.params, AllowedMinor (some allowed) (host.minorOf gpuId)) ∧
      ((∀ gpuId ∈ listed arg.params, AllowedMinor (some allowed) (host.minorOf gpuId) →
          gpuId ∈ reportedBy before) →
        listed shown.params =
          (listed arg.params).filter fun gpuId => AllowedMinor (some allowed) (host.minorOf gpuId)) := by
  intro listed
  have hearlier : ∀ e' ∈ before, e' ∈ (sharedFilter array moves).served := by
    intro e' he'
    rw [hlog]
    exact List.mem_append_left _ he'
  have htells' : ∀ e' ∈ before, host.Tells e'.op := fun e' he' => htells e' (hearlier e' he')
  have hallowed' : ∀ e' ∈ before, e'.op.allowed = some allowed := fun e' he' => hallowed e' (hearlier e' he')
  have hmem : ∀ gpuId, gpuId ∈ (run IoctlCall.learn LearnedIds.empty (callsOf before)).ids ↔
      gpuId ∈ reportedBy before :=
    fun gpuId => mem_learned_iff (reportedBy_card_le htells' hallowed')
  have hreported : ∀ gpuId ∈ reportedBy before, AllowedMinor (some allowed) (host.minorOf gpuId) :=
    fun gpuId hid => allowedMinor_of_reportedBy htells' hallowed' hid
  obtain ⟨shown, hshown⟩ : ∃ shown,
      e.op.call.answer (run IoctlCall.learn LearnedIds.empty (callsOf before)) = some shown := by
    rw [IoctlCall.answer, IoctlOp.call, harg, hrequest, hresult,
      ioctlFilterAfter_rmControl (by simp [requestIsRmControl])]
    exact ⟨_, rfl⟩
  have hkept : listed shown.params = (listed arg.params).filter (· ∈ reportedBy before) := by
    obtain ⟨known, hlisted, hknown⟩ := hsome
    have hcall := hshown
    rw [IoctlCall.answer, IoctlOp.call, harg, hrequest, hresult] at hcall
    refine (rmListed_response hon hel ⟨known, hlisted, (hmem known).mpr hknown⟩ hcall).trans ?_
    exact List.filter_congr fun gpuId _ => by simp only [hmem]
  refine ⟨shown, ?_, hkept, fun gpuId hid => ?_, fun hall => ?_⟩
  · rw [answer_sharedFilter hlog, hshown]
  · rw [hkept, List.mem_filter, decide_eq_true_iff] at hid
    exact hreported gpuId hid.2
  · rw [hkept]
    refine List.filter_congr fun gpuId hid => decide_eq_decide.mpr ⟨hreported gpuId, hall gpuId hid⟩

/-- Card 7 is mounted, card 9 is not. -/
def twoCards : HostCards where
  minorOf gpuId := gpuId - 7
  inj _ _ h := (UInt32.sub_left_inj 7).mp h

/-- The attached array is asked for first, but waits for the cards. -/
def reportThenList : List (Move (Fin 2) IoctlOp) :=
  .call 1 (attachedOp [9, 7]) :: .call 0 (cardInfoOp [card 1 7 0, card 1 9 2]) :: cardInfoTurn 0 ++
    .lock 1 :: List.replicate 5 (.round 1)

def servedCards : Served (Fin 2) IoctlOp IoctlKept :=
  ⟨0, cardInfoOp [card 1 7 0, card 1 9 2], .nothing⟩

def servedList : Served (Fin 2) IoctlOp IoctlKept :=
  ⟨1, attachedOp [9, 7], .gpuIds (7 :: List.replicate 31 0) 1⟩

theorem served_reportThenList : (sharedFilter (.replicate maxGpus 0) reportThenList).served = [servedCards, servedList] :=
  rfl

theorem twoCards_tells : ∀ e ∈ [servedCards, servedList], twoCards.Tells e.op := by
  have hcards : ∀ c ∈ (Layouts.cards.get (cardResponse [card 1 7 0, card 1 9 2]).mem).toList, c.valid ≠ 0 →
      c.gpuId ≠ invalidId → twoCards.minorOf c.gpuId = c.minorNumber := by
    decide +kernel
  have hother : requestIsCardInfo rmControlRequest = false := by decide
  refine List.forall_mem_cons.mpr ⟨fun arg c harg _ hc => ?_, List.forall_mem_singleton.mpr fun _ _ _ hrequest => ?_⟩
  · cases harg
    exact hcards c hc
  · exact absurd (hother.symm.trans hrequest) Bool.false_ne_true

theorem hidden_never_shown_nine : ∃ shown, servedList.op.return servedList.answer = some (some shown) ∧
    attachedList shown.params = [7] := by
  have htells := twoCards_tells
  have hallowed : ∀ e ∈ [servedCards, servedList], e.op.allowed = some container.allowed :=
    List.forall_mem_cons.mpr ⟨rfl, List.forall_mem_singleton.mpr rfl⟩
  rw [← served_reportThenList] at htells hallowed
  obtain ⟨shown, hshown, hkept, -⟩ := @hidden_never_shown _ twoCards container.allowed _ _ _ htells hallowed
    [servedCards] [] servedList _ served_reportThenList rfl rfl rfl filterOn_container
    (rmEligible_attachedResponse [9, 7]) ⟨7, by decide +kernel, by decide +kernel⟩
  exact ⟨shown, hshown, hkept.trans (by decide +kernel)⟩

end Nvscope
