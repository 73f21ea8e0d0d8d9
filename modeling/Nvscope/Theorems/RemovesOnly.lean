import Nvscope.Lemmas.Requests

/-!
# The ioctl filter only removes

Whatever the driver answered, the program sees a part of it: cards are hidden and ids are left out, nothing
is added or altered, and where a guard does not hold the answer is left as it is.
-/

namespace Nvscope

open Lib

/-- The guards a response passes before any byte of it may change. -/
structure MayFilter (cfg : Option Config) (allowed : Option AllowedGpus) (request : UInt64) (arg : IoctlArg)
    (result : Int) : Prop where
  success : result = 0
  on : FilterOn cfg allowed
  eligible : requestIsCardInfo request = true ∨
    requestIsRmControl request = true ∧ RmEligible (Layouts.nvos54Parameters.get arg.mem)

/-- A card of the answer: valid only if it was valid before, and otherwise as it was. -/
def CardKept (before after : CardInfo) : Prop :=
  (after.valid ≠ 0 → before.valid ≠ 0) ∧ { after with valid := before.valid } = before

/-- The ids an attached array lists: those before its first `0xffffffff`. -/
def attachedList (params : List UInt8) : List UInt32 :=
  (Layouts.attachedIds.get params).toList.takeWhile (· != invalidId)

def activeList (params : List UInt8) : List ActiveDevice :=
  (Layouts.activeDeviceIdsParams.get params).listed

/-- `after` is `before` with some cards or ids removed, as the request has them. -/
structure RemovesOnly (request : UInt64) (before after : IoctlArg) : Prop where
  cards : requestIsCardInfo request = true →
    (∀ i, CardKept ((Layouts.cards.get before.mem).get i) ((Layouts.cards.get after.mem).get i)) ∧
      after.mem.drop Layouts.cards.size = before.mem.drop Layouts.cards.size ∧
      after.params = before.params
  wrapper : requestIsRmControl request = true → after.mem = before.mem
  attached : requestIsRmControl request = true →
    (Layouts.nvos54Parameters.get before.mem).cmd = cmdGpuGetAttachedIds →
    (attachedList after.params).Sublist (attachedList before.params) ∧
      after.params.drop Layouts.attachedIds.size = before.params.drop Layouts.attachedIds.size
  active : requestIsRmControl request = true →
    (Layouts.nvos54Parameters.get before.mem).cmd = cmdGpuGetActiveDeviceIds →
    (activeList after.params).Sublist (activeList before.params) ∧
      after.params.drop Layouts.activeDeviceIdsParams.size =
        before.params.drop Layouts.activeDeviceIdsParams.size

theorem CardKept.refl (card : CardInfo) : CardKept card card :=
  ⟨id, rfl⟩

theorem cardKept_hideCard (allowed : Option AllowedGpus) (card : CardInfo) :
    CardKept card (hideCard allowed card) := by
  unfold hideCard
  split
  · exact ⟨fun h => absurd rfl h, rfl⟩
  · exact .refl card

theorem RemovesOnly.refl (request : UInt64) (arg : IoctlArg) : RemovesOnly request arg arg where
  cards _ := ⟨fun _ => .refl _, rfl, rfl⟩
  wrapper _ := rfl
  attached _ _ := ⟨List.Sublist.refl _, rfl⟩
  active _ _ := ⟨List.Sublist.refl _, rfl⟩

variable {cfg : Option Config} {allowed : Option AllowedGpus} {learned : LearnedIds} {params : List UInt8}

theorem attachedList_put_sublist :
    (attachedList (Layouts.attachedIds.put
      (filterGpuIdArray learned (Layouts.attachedIds.get params)).1 params)).Sublist
      (attachedList params) := by
  rw [attachedList, Layout.get_put, filterGpuIdArray_eq (by decide)]
  split
  · exact List.Sublist.refl _
  · rw [takeWhile_padTo _ ne_invalidId_of_mem_learnedOf]
    exact List.filter_sublist

theorem activeList_put_sublist :
    (activeList (Layouts.activeDeviceIdsParams.put
      (filterActiveDevices learned (Layouts.activeDeviceIdsParams.get params)) params)).Sublist
      (activeList params) := by
  rw [activeList, Layout.get_put, listed_filterActiveDevices]
  split
  · exact List.Sublist.refl _
  · exact List.filter_sublist

theorem removesOnly_rmControl {request : UInt64} (hrm : requestIsRmControl request = true)
    (arg : IoctlArg) :
    RemovesOnly request arg
      { arg with
        params := filterRmControl cfg allowed (Layouts.nvos54Parameters.get arg.mem) 0 learned arg.params } := by
  by_cases h : FilterOn cfg allowed ∧ (0 : Int) = 0 ∧ RmEligible (Layouts.nvos54Parameters.get arg.mem)
  · obtain ⟨hon, hr, hel⟩ := h
    refine ⟨?_, fun _ => rfl, ?_, ?_⟩
    · intro hcards
      rw [requestIsRmControl_of_cardInfo hrm] at hcards
      cases hcards
    · intro _ hcmd
      simp only [filterRmControl_attached hon hr hel hcmd]
      exact ⟨attachedList_put_sublist, Layout.drop_put _ _ _⟩
    · intro _ hcmd
      simp only [filterRmControl_active hon hr hel hcmd]
      exact ⟨activeList_put_sublist, Layout.drop_put _ _ _⟩
  · rw [filterRmControl_of_not h]
    exact .refl request arg

theorem removesOnly_cardInfo {request : UInt64} (hcards : requestIsCardInfo request = true)
    (arg : IoctlArg) : RemovesOnly request arg { arg with mem := filterCardInfo allowed arg.mem } := by
  by_cases ha : ∃ a, allowed = some a ∧ a.valid = true
  · rw [filterCardInfo_of_valid ha]
    have hrm : requestIsRmControl request ≠ true := by
      intro hrm
      rw [requestIsRmControl_of_cardInfo hrm] at hcards
      cases hcards
    refine ⟨fun _ => ⟨fun i => ?_, Layout.drop_put _ _ _, rfl⟩, fun h => absurd h hrm,
      fun h => absurd h hrm, fun h => absurd h hrm⟩
    rw [Layout.get_put, List.Vector.get_map]
    exact cardKept_hideCard allowed _
  · rw [filterCardInfo_of_not_valid ha]
    exact .refl request arg

/-- Whatever the state, the configuration, the allowed set and the response: the filter only removes, and
changes no byte of a response that does not pass every guard. -/
theorem ioctlFilterAfter_removesOnly (cfg : Option Config) (allowed : Option AllowedGpus) (request : UInt64)
    (result : Int) (learned : LearnedIds) :
    (ioctlFilterAfter cfg allowed request none result learned).2 = none ∧
    ∀ before, ∃ after, (ioctlFilterAfter cfg allowed request (some before) result learned).2 = some after ∧
      RemovesOnly request before after ∧
      (¬ MayFilter cfg allowed request before result → after = before) := by
  refine ⟨rfl, fun before => ?_⟩
  by_cases hr : result = 0
  · subst hr
    cases hcards : requestIsCardInfo request with
    | true =>
        rw [ioctlFilterAfter_cardInfo hcards]
        cases hen : (cfg.map Config.ioctlFilterEnabled).getD false with
        | true =>
            refine ⟨_, rfl, removesOnly_cardInfo hcards before, fun hmay => ?_⟩
            have ha : ¬ ∃ a, allowed = some a ∧ a.valid = true := by
              intro ha
              cases cfg with
              | none => cases hen
              | some c => exact hmay ⟨rfl, ⟨⟨c, rfl, hen⟩, ha⟩, Or.inl hcards⟩
            simp only [↓reduceIte, filterCardInfo_of_not_valid ha]
        | false => exact ⟨_, rfl, .refl request before, fun _ => rfl⟩
    | false =>
        cases hrm : requestIsRmControl request with
        | true =>
            rw [ioctlFilterAfter_rmControl hrm]
            refine ⟨_, rfl, removesOnly_rmControl hrm before, fun hmay => ?_⟩
            rw [filterRmControl_of_not fun h => hmay ⟨rfl, h.1, Or.inr ⟨hrm, h.2.2⟩⟩]
        | false =>
            rw [ioctlFilterAfter_of_other hcards hrm]
            exact ⟨before, rfl, .refl request before, fun _ => rfl⟩
  · rw [ioctlFilterAfter_of_failed hr]
    exact ⟨before, rfl, .refl request before, fun _ => rfl⟩

end Nvscope
