import Mathlib.Data.Vector.Mem
import Nvscope.Model.Preload
import Nvscope.Theorems.RemovesOnly

/-!
# What the learned ids are, and what they do to RM responses

The list of learned ids is the history of CARD_INFO responses, cut off after 32 distinct ids. It never
shrinks, and an RM response that lists none of it is passed through.
-/

namespace Nvscope

open Lib

/-- A call of `nvfix_ioctl_filter_after`. -/
structure IoctlCall where
  cfg : Option Config
  allowed : Option AllowedGpus
  request : UInt64
  arg : Option IoctlArg
  result : Int

/-- A successful CARD_INFO request, with the driver's answer to it. -/
def cardInfoCall (cfg : Config) (allowed : AllowedGpus) (response : IoctlArg) : IoctlCall :=
  ⟨some cfg, some allowed, cardInfoRequest, some response, 0⟩

def rmControlCall (cfg : Config) (allowed : AllowedGpus) (response : IoctlArg) : IoctlCall :=
  ⟨some cfg, some allowed, rmControlRequest, some response, 0⟩

namespace IoctlCall

def learn (learned : LearnedIds) (c : IoctlCall) : LearnedIds :=
  (ioctlFilterAfter c.cfg c.allowed c.request c.arg c.result learned).1

def answer (learned : LearnedIds) (c : IoctlCall) : Option IoctlArg :=
  (ioctlFilterAfter c.cfg c.allowed c.request c.arg c.result learned).2

/-- The ids a call reports for allowed minors; only a successful CARD_INFO request reports any. -/
def reported (c : IoctlCall) : List UInt32 :=
  match c.arg with
  | none => []
  | some arg =>
      if requestIsCardInfo c.request = true ∧ c.result = 0 then
        reportedIds c.allowed (Layouts.cards.get arg.mem).toList
      else []

/-- Step lemma: a call remembers what it reports. -/
theorem ids_learn (learned : LearnedIds) (c : IoctlCall) :
    (c.learn learned).ids = c.reported.foldl (remember maxGpus) learned.ids := by
  obtain ⟨cfg, allowed, request, arg, result⟩ := c
  cases arg with
  | none => rfl
  | some arg =>
      simp only [learn, reported]
      by_cases hr : result = 0
      · subst hr
        cases hcards : requestIsCardInfo request with
        | true =>
            rw [ioctlFilterAfter_cardInfo hcards]
            simpa using ids_recordCardInfoGpuIds allowed _ learned
        | false =>
            cases hrm : requestIsRmControl request with
            | true => rw [ioctlFilterAfter_rmControl hrm]; simp
            | false => rw [ioctlFilterAfter_of_other hcards hrm]; simp
      · rw [ioctlFilterAfter_of_failed hr]
        simp [hr]

theorem ids_run_learn (learned : LearnedIds) (calls : List IoctlCall) :
    (run learn learned calls).ids = (calls.flatMap reported).foldl (remember maxGpus) learned.ids := by
  induction calls generalizing learned with
  | nil => rfl
  | cons c calls ih => rw [run_cons, ih, ids_learn, List.flatMap_cons, List.foldl_append]

theorem reported_of_not {c : IoctlCall}
    (h : ¬ (requestIsCardInfo c.request = true ∧ c.result = 0 ∧ c.arg ≠ none)) : c.reported = [] := by
  obtain ⟨cfg, allowed, request, arg, result⟩ := c
  cases arg with
  | none => rfl
  | some arg =>
      have hno : ¬ (requestIsCardInfo request = true ∧ result = 0) :=
        fun hc => h ⟨hc.1, hc.2, Option.some_ne_none arg⟩
      simp [reported, hno]

/-- The learned ids are the first 32 distinct ids of the history; a call that is no successful CARD_INFO
request changes nothing, and the configuration, which decides on hiding, has no part in it. -/
theorem learned_eq_first_reported :
    (∀ calls, (run learn LearnedIds.empty calls).ids =
      (calls.flatMap reported).eraseDups.take maxGpus) ∧
    (∀ (learned : LearnedIds) (c : IoctlCall),
      ¬ (requestIsCardInfo c.request = true ∧ c.result = 0 ∧ c.arg ≠ none) →
      (c.learn learned).ids = learned.ids) ∧
    ∀ (learned : LearnedIds) (c : IoctlCall) cfg, (learn learned { c with cfg := cfg }).ids = (c.learn learned).ids := by
  refine ⟨fun calls => ?_, fun learned c hc => ?_, fun learned c cfg => ?_⟩
  · rw [ids_run_learn]
    exact foldl_remember_nil maxGpus _
  · rw [ids_learn, reported_of_not hc, List.foldl_nil]
  · rw [ids_learn, ids_learn]
    rfl

end IoctlCall

/-! ## RM responses -/

variable {cfg : Option Config} {allowed : Option AllowedGpus} {learned : LearnedIds} {arg : IoctlArg}

theorem attached_response_eq (learned : LearnedIds) (hon : FilterOn cfg allowed)
    (hel : RmEligible (Layouts.nvos54Parameters.get arg.mem))
    (hcmd : (Layouts.nvos54Parameters.get arg.mem).cmd = cmdGpuGetAttachedIds) :
    ∃ after, (ioctlFilterAfter cfg allowed rmControlRequest (some arg) 0 learned).2 = some after ∧
      (Layouts.attachedIds.get after.params).toList =
        if (attachedList arg.params).filter (· ∈ learned.ids) = [] then
          (Layouts.attachedIds.get arg.params).toList
        else padTo maxAttachedGpus invalidId ((attachedList arg.params).filter (· ∈ learned.ids)) := by
  rw [ioctlFilterAfter_rmControl (by simp [requestIsRmControl]), filterRmControl_attached hon rfl hel hcmd]
  refine ⟨_, rfl, ?_⟩
  rw [Layout.get_put, filterGpuIdArray_eq (by decide)]
  rfl

theorem attachedList_response {after : IoctlArg} (hon : FilterOn cfg allowed)
    (hel : RmEligible (Layouts.nvos54Parameters.get arg.mem))
    (hcmd : (Layouts.nvos54Parameters.get arg.mem).cmd = cmdGpuGetAttachedIds)
    (hkept : (attachedList arg.params).filter (· ∈ learned.ids) ≠ [])
    (hafter : (ioctlFilterAfter cfg allowed rmControlRequest (some arg) 0 learned).2 = some after) :
    attachedList after.params = (attachedList arg.params).filter (· ∈ learned.ids) := by
  obtain ⟨after', hafter', hids⟩ := attached_response_eq learned hon hel hcmd
  rw [hafter, Option.some.injEq] at hafter'
  subst hafter'
  rw [if_neg hkept] at hids
  rw [attachedList, hids, takeWhile_padTo]
  exact ne_invalidId_of_mem_learnedOf

theorem active_response_eq (learned : LearnedIds) (hon : FilterOn cfg allowed)
    (hel : RmEligible (Layouts.nvos54Parameters.get arg.mem))
    (hcmd : (Layouts.nvos54Parameters.get arg.mem).cmd = cmdGpuGetActiveDeviceIds) :
    ∃ after, (ioctlFilterAfter cfg allowed rmControlRequest (some arg) 0 learned).2 = some after ∧
      Layouts.activeDeviceIdsParams.get after.params =
        filterActiveDevices learned (Layouts.activeDeviceIdsParams.get arg.params) := by
  rw [ioctlFilterAfter_rmControl (by simp [requestIsRmControl]), filterRmControl_active hon rfl hel hcmd]
  exact ⟨_, rfl, Layout.get_put _ _ _⟩

/-- In every state, an RM response that passes the guards and lists at least one learned id lists, after the
call, exactly the learned ids it listed; one that lists none is left as it is. -/
theorem rm_response_learned (learned : LearnedIds) (hon : FilterOn cfg allowed)
    (hel : RmEligible (Layouts.nvos54Parameters.get arg.mem)) :
    ∃ after, (ioctlFilterAfter cfg allowed rmControlRequest (some arg) 0 learned).2 = some after ∧
      ((Layouts.nvos54Parameters.get arg.mem).cmd = cmdGpuGetAttachedIds →
        let kept := (attachedList arg.params).filter (· ∈ learned.ids)
        (kept ≠ [] → attachedList after.params = kept ∧
          (Layouts.attachedIds.get after.params).toList =
            kept ++ List.replicate (maxAttachedGpus - kept.length) invalidId) ∧
        (kept = [] → Layouts.attachedIds.get after.params = Layouts.attachedIds.get arg.params)) ∧
      ((Layouts.nvos54Parameters.get arg.mem).cmd = cmdGpuGetActiveDeviceIds →
        let kept := (activeList arg.params).filter (·.gpuId ∈ learned.ids)
        (kept ≠ [] → activeList after.params = kept ∧
          (Layouts.activeDeviceIdsParams.get after.params).numDevices.toNat = kept.length ∧
          kept.length ≤ maxActiveDevices) ∧
        (kept = [] →
          Layouts.activeDeviceIdsParams.get after.params = Layouts.activeDeviceIdsParams.get arg.params)) := by
  have hne : cmdGpuGetActiveDeviceIds ≠ cmdGpuGetAttachedIds := by decide
  rcases hel.command with ⟨hcmd, -⟩ | ⟨hcmd, -⟩
  · obtain ⟨after, hafter, hids⟩ := attached_response_eq learned hon hel hcmd
    refine ⟨after, hafter, fun _ => ⟨fun hkept => ?_, fun hkept => ?_⟩, fun hother => ?_⟩
    · rw [if_neg hkept] at hids
      exact ⟨attachedList_response hon hel hcmd hkept hafter, hids⟩
    · rw [if_pos hkept] at hids
      exact List.Vector.eq _ _ hids
    · rw [hcmd] at hother
      exact absurd hother.symm hne
  · obtain ⟨after, hafter, hdev⟩ := active_response_eq learned hon hel hcmd
    obtain ⟨hempty, hlen⟩ := filterActiveDevices_eq learned (Layouts.activeDeviceIdsParams.get arg.params)
    refine ⟨after, hafter, fun hother => ?_, fun _ => ⟨fun hkept => ⟨?_, ?_, ?_⟩, fun hkept => ?_⟩⟩
    · rw [hcmd] at hother
      exact absurd hother hne
    · rw [activeList, hdev, listed_filterActiveDevices]
      exact if_neg hkept
    · rw [hdev]
      exact (hlen hkept).1
    · exact (List.length_filter_le _ _).trans (listed_length_le _)
    · rw [hdev]
      exact hempty hkept

def learnedSeven : LearnedIds :=
  ⟨[7], by decide⟩

theorem filterOn_container : FilterOn (some filterConfig) (some container.allowed) :=
  ⟨⟨_, rfl, rfl⟩, ⟨_, rfl, by decide⟩⟩

theorem rmEligible_attachedResponse (gpuIds : List UInt32) :
    RmEligible (Layouts.nvos54Parameters.get (attachedResponse gpuIds).mem) := by
  have hmem : (attachedResponse gpuIds).mem = (attachedResponse []).mem := rfl
  rw [hmem]
  refine ⟨?_, ?_, Or.inl ?_⟩ <;> decide +kernel

/-- Of the ids 9 and 7, the learned 7 stays. -/
theorem rm_response_learned_seven : ∃ after, (ioctlFilterAfter (some filterConfig) (some container.allowed)
    rmControlRequest (some (attachedResponse [9, 7])) 0 learnedSeven).2 = some after ∧
    attachedList after.params = [7] := by
  obtain ⟨after, hafter, hatt, -⟩ := rm_response_learned learnedSeven
    filterOn_container (rmEligible_attachedResponse [9, 7])
  exact ⟨after, hafter, ((hatt (by decide +kernel)).1 (by decide +kernel)).1.trans (by decide +kernel)⟩

/-- Once 7 is learned, a response that lists 9 alone still lists 9 after the call. -/
theorem rm_response_not_only_learned :
    ¬ ∀ (calls : List IoctlCall) (cfg : Option Config) (allowed : Option AllowedGpus)
      (arg after : IoctlArg), (run IoctlCall.learn LearnedIds.empty calls).ids ≠ [] →
      FilterOn cfg allowed → RmEligible (Layouts.nvos54Parameters.get arg.mem) →
      (Layouts.nvos54Parameters.get arg.mem).cmd = cmdGpuGetAttachedIds →
      (ioctlFilterAfter cfg allowed rmControlRequest (some arg) 0
        (run IoctlCall.learn LearnedIds.empty calls)).2 = some after →
      ∀ gpuId ∈ attachedList after.params, gpuId ∈ (run IoctlCall.learn LearnedIds.empty calls).ids := by
  intro h
  have hnine := h [cardInfoCall filterConfig container.allowed (cardResponse [card 1 7 0])]
    (some filterConfig) (some container.allowed) (attachedResponse [9]) (attachedResponse [9])
    (by decide +kernel) filterOn_container (rmEligible_attachedResponse [9]) (by decide +kernel)
    (by decide +kernel) 9 (by decide +kernel)
  revert hnine
  decide +kernel

/-! ## The latest CARD_INFO response -/

/-- The valid cards of a response have ids of their own. -/
structure DistinctIds {n : Nat} (cards : List.Vector CardInfo n) : Prop where
  inj : ∀ i j, (cards.get i).valid ≠ 0 → (cards.get j).valid ≠ 0 →
    (cards.get i).gpuId = (cards.get j).gpuId → i = j
  valid : ∀ i, (cards.get i).valid ≠ 0 → (cards.get i).gpuId ≠ invalidId

def reports (allowed : AllowedGpus) (responses : List IoctlArg) : List UInt32 :=
  responses.flatMap fun response => reportedIds (some allowed) (Layouts.cards.get response.mem).toList

theorem mem_reportedIds {allowed : Option AllowedGpus} {cards : List CardInfo} {gpuId : UInt32} :
    gpuId ∈ reportedIds allowed cards ↔
      ∃ c ∈ cards, c.valid ≠ 0 ∧ AllowedMinor allowed c.minorNumber ∧ c.gpuId = gpuId ∧
        gpuId ≠ invalidId := by
  simp only [reportedIds, List.mem_filter, List.mem_map, decide_eq_true_eq]
  constructor
  · rintro ⟨⟨c, ⟨hc, hv, hm⟩, hid⟩, hne⟩
    exact ⟨c, hc, hv, hm, hid, hne⟩
  · rintro ⟨c, hc, hv, hm, hid, hne⟩
    exact ⟨⟨c, ⟨hc, hv, hm⟩, hid⟩, hne⟩

def learnedFrom (cfg : Config) (allowed : AllowedGpus) (responses : List IoctlArg) : LearnedIds :=
  run IoctlCall.learn LearnedIds.empty (responses.map (cardInfoCall cfg allowed))

section

variable {cfg : Config} {allowed : AllowedGpus}

theorem ids_learnedFrom (responses : List IoctlArg) :
    (learnedFrom cfg allowed responses).ids = (reports allowed responses).eraseDups.take maxGpus := by
  have hflat : (responses.map (cardInfoCall cfg allowed)).flatMap IoctlCall.reported =
      reports allowed responses := by
    rw [List.flatMap_map, reports]
    simp [IoctlCall.reported, cardInfoCall, requestIsCardInfo]
  rw [learnedFrom, IoctlCall.ids_run_learn, hflat]
  exact foldl_remember_nil maxGpus _

/-- A valid card is left valid exactly where its minor is allowed. -/
theorem valid_answer_cardInfoCall (hcfg : cfg.ioctlFilterEnabled = true) (hvalid : allowed.valid = true)
    {response shown : IoctlArg} {learned : LearnedIds}
    (h : (cardInfoCall cfg allowed response).answer learned = some shown) {i : Fin nvMaxDevices}
    (hi : ((Layouts.cards.get response.mem).get i).valid ≠ 0) :
    ((Layouts.cards.get shown.mem).get i).valid ≠ 0 ↔
      AllowedMinor (some allowed) ((Layouts.cards.get response.mem).get i).minorNumber := by
  rw [IoctlCall.answer, cardInfoCall, ioctlFilterAfter_cardInfo (by simp [requestIsCardInfo])] at h
  simp only [Option.map_some, Option.getD_some, hcfg, ↓reduceIte, Option.some.injEq] at h
  subst h
  simp only
  rw [filterCardInfo_of_valid ⟨allowed, rfl, hvalid⟩, Layout.get_put, List.Vector.get_map]
  by_cases hm : AllowedMinor (some allowed) ((Layouts.cards.get response.mem).get i).minorNumber
  · rw [hideCard_of_allowed hm]
    exact ⟨fun _ => hm, fun _ => hi⟩
  · rw [hideCard_of_not_allowed hm]
    exact ⟨fun h => absurd rfl h, fun h => absurd h hm⟩

/-- After any history of CARD_INFO responses, an attached response that lists at least one of the first 32
distinct ids reported for allowed minors keeps, of the ids the last response reported, exactly those that
are among these. So a card that was left valid keeps its id unless 32 others were learned, and a hidden card
keeps its id only if an earlier response reported it for an allowed minor. -/
theorem attached_follows_reports (hcfg : cfg.ioctlFilterEnabled = true) (hvalid : allowed.valid = true)
    (history : List IoctlArg) (last shown arg after : IoctlArg) (i : Fin nvMaxDevices)
    (hdistinct : DistinctIds (Layouts.cards.get last.mem))
    (hshown : (cardInfoCall cfg allowed last).answer (learnedFrom cfg allowed history) = some shown)
    (hel : RmEligible (Layouts.nvos54Parameters.get arg.mem))
    (hcmd : (Layouts.nvos54Parameters.get arg.mem).cmd = cmdGpuGetAttachedIds)
    (hafter : (rmControlCall cfg allowed arg).answer (learnedFrom cfg allowed (history ++ [last])) =
      some after)
    (hsome : ∃ gpuId ∈ attachedList arg.params,
      gpuId ∈ (reports allowed (history ++ [last])).eraseDups.take maxGpus)
    (hi : ((Layouts.cards.get last.mem).get i).valid ≠ 0)
    (hlisted : ((Layouts.cards.get last.mem).get i).gpuId ∈ attachedList arg.params) :
    let gpuId := ((Layouts.cards.get last.mem).get i).gpuId
    let reported := (reports allowed (history ++ [last])).eraseDups
    (gpuId ∈ attachedList after.params ↔ gpuId ∈ reported.take maxGpus) ∧
    (((Layouts.cards.get shown.mem).get i).valid ≠ 0 → reported.length ≤ maxGpus →
      gpuId ∈ attachedList after.params) ∧
    (gpuId ∈ attachedList after.params →
      ((Layouts.cards.get shown.mem).get i).valid ≠ 0 ∨ gpuId ∈ reports allowed history) := by
  intro gpuId reported
  have hids : (learnedFrom cfg allowed (history ++ [last])).ids = reported.take maxGpus :=
    ids_learnedFrom (history ++ [last])
  have hon : FilterOn (some cfg) (some allowed) := ⟨⟨cfg, rfl, hcfg⟩, ⟨allowed, rfl, hvalid⟩⟩
  obtain ⟨known, hknown, hfirst⟩ := hsome
  have hne : (attachedList arg.params).filter (· ∈ reported.take maxGpus) ≠ [] :=
    List.ne_nil_of_mem (List.mem_filter.mpr ⟨hknown, by simpa using hfirst⟩)
  have hlist := attachedList_response hon hel hcmd (by rw [hids]; exact hne) hafter
  rw [hids] at hlist
  have hiff : gpuId ∈ attachedList after.params ↔ gpuId ∈ reported.take maxGpus := by
    rw [hlist, List.mem_filter, decide_eq_true_iff]
    exact ⟨fun h => h.2, fun h => ⟨hlisted, h⟩⟩
  have hleft := valid_answer_cardInfoCall hcfg hvalid hshown hi
  have hreports : reports allowed (history ++ [last]) =
      reports allowed history ++ reportedIds (some allowed) (Layouts.cards.get last.mem).toList := by
    simp [reports]
  refine ⟨hiff, fun hv hlen => ?_, fun hk => ?_⟩
  · rw [hiff, List.take_of_length_le hlen, List.mem_eraseDups, hreports]
    refine List.mem_append_right _ (mem_reportedIds.mpr ⟨_, ?_, hi, hleft.mp hv, rfl, hdistinct.valid i hi⟩)
    exact List.Vector.get_mem i _
  · have hmem : gpuId ∈ reports allowed (history ++ [last]) :=
      List.mem_eraseDups.mp (List.mem_of_mem_take (hiff.mp hk))
    rw [hreports] at hmem
    rcases List.mem_append.mp hmem with hmem | hmem
    · exact Or.inr hmem
    · obtain ⟨c, hc, hcv, hcm, hcid, -⟩ := mem_reportedIds.mp hmem
      obtain ⟨j, rfl⟩ := (List.Vector.mem_iff_get c _).mp hc
      -- the ids of the last response are distinct, so this is the card itself
      obtain rfl := hdistinct.inj j i hcv hi hcid
      exact Or.inl (hleft.mpr hcm)

end

/-! ## Ids that move, and ids that find no room -/

instance {n : Nat} (cards : List.Vector CardInfo n) : Decidable (DistinctIds cards) :=
  decidable_of_iff ((∀ i j, (cards.get i).valid ≠ 0 → (cards.get j).valid ≠ 0 →
      (cards.get i).gpuId = (cards.get j).gpuId → i = j) ∧
      ∀ i, (cards.get i).valid ≠ 0 → (cards.get i).gpuId ≠ invalidId)
    ⟨fun h => ⟨h.1, h.2⟩, fun h => ⟨h.inj, h.valid⟩⟩

/-- Id 7 is reported for the mounted minor, -/
def beforeMove : IoctlArg :=
  cardResponse [card 1 7 0]

/-- and then for the other, while id 8 takes its place. -/
def afterMove : IoctlArg :=
  cardResponse [card 1 7 1, card 1 8 0]

/-- The id that moved away is kept, as one of the ids learned. -/
theorem attached_follows_reports_moved :
    ∃ after, (rmControlCall filterConfig container.allowed (attachedResponse [9, 7, 8])).answer
      (learnedFrom filterConfig container.allowed [beforeMove, afterMove]) = some after ∧
      7 ∈ attachedList after.params :=
  ⟨_, rfl, (attached_follows_reports rfl (by decide) [beforeMove] afterMove _
    (attachedResponse [9, 7, 8]) _ ⟨0, by decide⟩ (by decide +kernel) rfl
    (rmEligible_attachedResponse [9, 7, 8]) (by decide +kernel) rfl ⟨7, by decide +kernel, by decide +kernel⟩
    (by decide +kernel) (by decide +kernel)).1.mpr (by decide +kernel)⟩

/-- As many ids as there is room for. -/
def crowdedResponse : IoctlArg :=
  cardResponse ((List.range maxGpus).map fun n => card 1 (UInt32.ofNat n) 0)

/-- After `history`, the response `last` reports card `i`; the attached array in `arg` lists its id, and one
that `last` reports for an allowed minor. The program sees `shown` and `after`. -/
structure LatestReport (cfg : Config) (allowed : AllowedGpus) (history : List IoctlArg)
    (last shown arg after : IoctlArg) (i : Fin nvMaxDevices) : Prop where
  enabled : cfg.ioctlFilterEnabled = true
  valid : allowed.valid = true
  distinct : ∀ response ∈ history ++ [last], DistinctIds (Layouts.cards.get response.mem)
  shown : (cardInfoCall cfg allowed last).answer (learnedFrom cfg allowed history) = some shown
  eligible : RmEligible (Layouts.nvos54Parameters.get arg.mem)
  cmd : (Layouts.nvos54Parameters.get arg.mem).cmd = cmdGpuGetAttachedIds
  after : (rmControlCall cfg allowed arg).answer (learnedFrom cfg allowed (history ++ [last])) = some after
  known : ∃ gpuId ∈ attachedList arg.params,
    gpuId ∈ reportedIds (some allowed) (Layouts.cards.get last.mem).toList
  reported : ((Layouts.cards.get last.mem).get i).valid ≠ 0
  listed : ((Layouts.cards.get last.mem).get i).gpuId ∈ attachedList arg.params

/-- Id 7 is kept though its card was hidden in the last response; and after 32 other ids, id 32 is dropped
though its card was left valid. -/
theorem attached_not_latest :
    (¬ ∀ (cfg : Config) (allowed : AllowedGpus) (history : List IoctlArg) (last shown arg after : IoctlArg)
      (i : Fin nvMaxDevices), LatestReport cfg allowed history last shown arg after i →
      (((Layouts.cards.get last.mem).get i).gpuId ∈ attachedList after.params →
        ((Layouts.cards.get shown.mem).get i).valid ≠ 0)) ∧
    ¬ ∀ (cfg : Config) (allowed : AllowedGpus) (history : List IoctlArg) (last shown arg after : IoctlArg)
      (i : Fin nvMaxDevices), LatestReport cfg allowed history last shown arg after i →
      (((Layouts.cards.get shown.mem).get i).valid ≠ 0 →
        ((Layouts.cards.get last.mem).get i).gpuId ∈ attachedList after.params) := by
  constructor
  · intro h
    have hseven := h filterConfig container.allowed [beforeMove] afterMove _ (attachedResponse [7, 8]) _
      ⟨0, by decide⟩
      { enabled := rfl
        valid := by decide
        distinct := by decide +kernel
        shown := rfl
        eligible := rmEligible_attachedResponse [7, 8]
        cmd := by decide +kernel
        after := rfl
        known := ⟨8, by decide +kernel, by decide +kernel⟩
        reported := by decide +kernel
        listed := by decide +kernel }
    revert hseven
    decide +kernel
  · intro h
    have hlost := h filterConfig container.allowed [crowdedResponse] (cardResponse [card 1 32 0]) _
      (attachedResponse [0, 32]) _ ⟨0, by decide⟩
      { enabled := rfl
        valid := by decide
        distinct := by decide +kernel
        shown := rfl
        eligible := rmEligible_attachedResponse [0, 32]
        cmd := by decide +kernel
        after := rfl
        known := ⟨32, by decide +kernel, by decide +kernel⟩
        reported := by decide +kernel
        listed := by decide +kernel }
    revert hlost
    decide +kernel

end Nvscope
