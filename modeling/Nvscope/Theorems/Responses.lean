import Nvscope.Lemmas.Requests
import Nvscope.Model.InPlace

/-!
# Filtering a response

Every access the two RM filters make is in bounds, and they keep exactly the learned entries. A response that
has been filtered once is not changed by filtering it again.
-/

namespace Nvscope

open Lib

/-! ## The learned ids -/

variable {table : IdTable}

theorem idRound_of_lt {gpuId : UInt32} {i : Nat} (hi : i < table.count) :
    ∃ id, table.items[i]? = some id ∧
      idRound table gpuId i = some (if id == gpuId then .done true else .next (i + 1)) := by
  have hlen : i < table.array.toList.length := by
    rw [table.array.toList_length]
    exact Nat.lt_of_lt_of_le hi table.count_le
  refine ⟨table.array.toList[i], ?_, ?_⟩
  · rw [Slots.items, List.getElem?_take, if_pos hi, List.getElem?_eq_getElem hlen]
  · rw [idRound, if_pos hi, List.getElem?_eq_getElem hlen]
    rfl

theorem loop_idRound {gpuId : UInt32} {rest : List UInt32} :
    ∀ {i fuel : Nat}, table.items.drop i = rest → rest.length < fuel →
      loop (idRound table gpuId) fuel i = some (rest.any (· == gpuId)) := by
  induction rest with
  | nil =>
      intro i fuel hrest hfuel
      obtain ⟨fuel, rfl, -⟩ := exists_fuel hfuel
      have hend : ¬ i < table.count := by
        have hlen := List.drop_eq_nil_iff.mp hrest
        rw [table.length_items] at hlen
        exact Nat.not_lt_of_le hlen
      exact loop_done (by rw [idRound, if_neg hend]; rfl)
  | cons x rest ih =>
      intro i fuel hrest hfuel
      obtain ⟨fuel, rfl, hleft⟩ := exists_fuel hfuel
      obtain ⟨hget, hnext⟩ := of_drop_eq_cons hrest
      have hi : i < table.count := by
        obtain ⟨hlt, -⟩ := List.getElem?_eq_some_iff.mp hget
        rwa [table.length_items] at hlt
      obtain ⟨id, hid, hround⟩ := @idRound_of_lt table gpuId i hi
      rw [hget, Option.some.injEq] at hid
      subst hid
      cases hx : x == gpuId with
      | true =>
          rw [hx, if_pos rfl] at hround
          rw [loop_done hround, List.any_cons, hx, Bool.true_or]
      | false =>
          rw [hx, if_neg Bool.false_ne_true] at hround
          rw [loop_next hround, List.any_cons, hx, Bool.false_or]
          exact ih hnext hleft

/-- Every entry the search looks at is in use. -/
theorem gpuIdIsAllowedAt_eq (table : IdTable) (gpuId : UInt32) :
    gpuIdIsAllowedAt table gpuId = some (gpuIdIsAllowed table.learned gpuId) := by
  have hlen : table.items.length < table.count + 1 := by rw [table.length_items]; exact Nat.lt_succ_self _
  exact loop_idRound rfl hlen

theorem learnedOf_eq_keptOf (learned : LearnedIds) (gpuIds : List UInt32) :
    learnedOf learned gpuIds = keptOf (· == invalidId) (gpuIdIsAllowed learned) gpuIds := by
  rw [learnedOf, keptOf]
  refine List.filter_congr fun gpuId _ => ?_
  rw [Bool.eq_iff_iff, gpuIdIsAllowed_iff, decide_eq_true_iff]

/-! ## The two RM filters -/

theorem count_eq_zero_iff : table.count = 0 ↔ table.learned.ids = [] := by
  rw [← table.length_items, List.length_eq_zero_iff]
  rfl

theorem learnedOf_of_empty {learned : LearnedIds} (h : learned.ids = []) (gpuIds : List UInt32) :
    learnedOf learned gpuIds = [] := by
  simp [learnedOf, h]

theorem filterGpuIdArrayAt_eq (table : IdTable) (scratch : List.Vector UInt32 maxGpus) {gpuIds : List UInt32}
    (hlen : gpuIds.length ≤ maxGpus) :
    let kept := learnedOf table.learned gpuIds
    filterGpuIdArrayAt table scratch gpuIds gpuIds.length =
      some (if kept = [] then (gpuIds, 0) else (padTo gpuIds.length invalidId kept, kept.length)) := by
  intro kept
  have hle : kept.length ≤ gpuIds.length := learnedOf_length_le table.learned gpuIds
  unfold filterGpuIdArrayAt
  by_cases hn : gpuIds.length = 0
  · have hempty : kept = [] := List.eq_nil_of_length_eq_zero (by omega)
    rw [if_pos hn, if_pos hempty]
  · rw [if_neg hn]
    by_cases hcount : table.count = 0
    · rw [if_pos hcount, if_pos (learnedOf_of_empty (count_eq_zero_iff.mp hcount) gpuIds)]
    · obtain ⟨stale, hloop⟩ := @loop_keepRound _ (· == invalidId) (gpuIdIsAllowed table.learned)
        (gpuIdIsAllowedAt table) (fun used => decide (used < maxGpus)) gpuIds scratch.toList gpuIds.length
        (gpuIds.length + 1) (gpuIdIsAllowedAt_eq table) (Nat.le_refl _) (by rw [scratch.toList_length]; exact hlen)
        (by intro n hlt; rw [scratch.toList_length] at hlt; exact decide_eq_true hlt) (Nat.lt_succ_self _)
      rw [List.take_length, ← learnedOf_eq_keptOf] at hloop
      rw [if_neg hcount, hloop, Option.bind_some]
      simp only
      by_cases hempty : kept = []
      · rw [if_pos (List.length_eq_zero_iff.mpr hempty), if_pos hempty]
      · rw [if_neg fun h => hempty (List.length_eq_zero_iff.mp h), if_neg hempty,
          loop_fillRound hle (Nat.lt_succ_self _), Option.map_some]

theorem filterActiveDevicesAt_eq (table : IdTable) (scratch : List.Vector ActiveDevice maxActiveDevices)
    (params : ActiveDeviceIdsParams) :
    let kept := params.listed.filter (·.gpuId ∈ table.learned.ids)
    filterActiveDevicesAt table scratch params.numDevices params.devices.toList =
      some (if kept = [] then (params.numDevices, params.devices.toList)
        else (UInt32.ofNat kept.length, kept ++ params.devices.toList.drop kept.length)) := by
  intro kept
  have hcount : (if params.numDevices.toNat > maxActiveDevices then maxActiveDevices
      else params.numDevices.toNat) = min params.numDevices.toNat maxActiveDevices := by
    split <;> omega
  have hlen : params.devices.toList.length = maxActiveDevices := params.devices.toList_length
  have hmin := Nat.min_le_right params.numDevices.toNat maxActiveDevices
  have hle : kept.length ≤ params.devices.toList.length := by
    rw [hlen]
    exact (List.length_filter_le _ _).trans (listed_length_le params)
  unfold filterActiveDevicesAt
  by_cases hzero : table.count = 0
  · have hempty : kept = [] := by simp [kept, count_eq_zero_iff.mp hzero]
    rw [if_pos hzero, if_pos hempty]
  · obtain ⟨stale, hloop⟩ := @loop_keepRound _ (fun _ => false)
      (fun device => gpuIdIsAllowed table.learned device.gpuId) (fun device => gpuIdIsAllowedAt table device.gpuId)
      (fun _ => true) params.devices.toList scratch.toList (min params.numDevices.toNat maxActiveDevices)
      (min params.numDevices.toNat maxActiveDevices + 1) (fun device => gpuIdIsAllowedAt_eq table device.gpuId)
      (by rwa [hlen]) (by rwa [scratch.toList_length]) (fun _ _ => rfl) (Nat.lt_succ_self _)
    have hkept : keptOf (fun _ => false) (fun device => gpuIdIsAllowed table.learned device.gpuId)
        params.listed = kept := by
      have hall : (params.listed.takeWhile fun _ => !false) = params.listed :=
        List.takeWhile_eq_self_iff.mpr fun _ _ => rfl
      rw [keptOf, hall]
      refine List.filter_congr fun device _ => ?_
      rw [Bool.eq_iff_iff, gpuIdIsAllowed_iff, decide_eq_true_iff]
    change loop _ _ _ = some (keptOf _ _ params.listed ++ stale, (keptOf _ _ params.listed).length) at hloop
    rw [hkept] at hloop
    simp only [hzero, ↓reduceIte, hcount, hloop, Option.bind_some]
    by_cases hempty : kept = []
    · rw [if_pos (List.length_eq_zero_iff.mpr hempty), if_pos hempty]
    · have hstore := @storeMany_append _ [] params.devices.toList kept hle
      rw [List.nil_append, List.nil_append] at hstore
      rw [if_neg fun h => hempty (List.length_eq_zero_iff.mp h), if_neg hempty, loadFront_append,
        Option.bind_some, List.length_nil] at *
      rw [hstore]
      rfl

/-- The functions of the rest of the model compute the same, and return the same count. -/
theorem filterGpuIdArrayAt_refines {n : Nat} (hn : n ≤ maxGpus) (table : IdTable)
    (scratch : List.Vector UInt32 maxGpus) (gpuIds : List.Vector UInt32 n) :
    filterGpuIdArrayAt table scratch gpuIds.toList n =
      some ((filterGpuIdArray table.learned gpuIds).1.toList, (filterGpuIdArray table.learned gpuIds).2) := by
  have hlen : gpuIds.toList.length = n := gpuIds.toList_length
  have h := @filterGpuIdArrayAt_eq table scratch gpuIds.toList (by rwa [hlen])
  rw [hlen] at h
  rw [h, filterGpuIdArray_eq hn, filterGpuIdArray_count hn]
  by_cases hempty : learnedOf table.learned gpuIds.toList = []
  · rw [if_pos hempty, if_pos hempty, hempty]
    rfl
  · rw [if_neg hempty, if_neg hempty]

theorem filterActiveDevicesAt_refines (table : IdTable) (scratch : List.Vector ActiveDevice maxActiveDevices)
    (params : ActiveDeviceIdsParams) :
    filterActiveDevicesAt table scratch params.numDevices params.devices.toList =
      some ((filterActiveDevices table.learned params).numDevices,
        (filterActiveDevices table.learned params).devices.toList) := by
  obtain ⟨hempty, hkept⟩ := filterActiveDevices_eq table.learned params
  have hle := (List.length_filter_le (·.gpuId ∈ table.learned.ids) _).trans (listed_length_le params)
  rw [filterActiveDevicesAt_eq]
  by_cases h : params.listed.filter (·.gpuId ∈ table.learned.ids) = []
  · rw [if_pos h, hempty h]
  · obtain ⟨hnum, hdev⟩ := hkept h
    rw [if_neg h, hdev, ← hnum, UInt32.ofNat_toNat]

/-- On every attached array and on every active device structure, with the local arrays holding anything, both
filters make no access out of bounds, and the learned entries, in their order, are what is listed after them;
without one the response stays as it is. -/
theorem compactions_exact (table : IdTable) :
    (∀ (attached : List.Vector UInt32 maxAttachedGpus) (scratch : List.Vector UInt32 maxGpus),
      let kept := (attached.toList.takeWhile (· != invalidId)).filter (· ∈ table.items)
      ∃ after ret, filterGpuIdArrayAt table scratch attached.toList maxAttachedGpus = some (after, ret) ∧
        ret = kept.length ∧ (kept = [] → after = attached.toList) ∧
        (kept ≠ [] → after = kept ++ List.replicate (maxAttachedGpus - kept.length) invalidId)) ∧
    ∀ (params : ActiveDeviceIdsParams) (scratch : List.Vector ActiveDevice maxActiveDevices),
      let kept := (params.devices.toList.take (min params.numDevices.toNat maxActiveDevices)).filter
        (·.gpuId ∈ table.items)
      ∃ numDevices devices,
        filterActiveDevicesAt table scratch params.numDevices params.devices.toList = some (numDevices, devices) ∧
        (kept = [] → numDevices = params.numDevices ∧ devices = params.devices.toList) ∧
        (kept ≠ [] → numDevices.toNat = kept.length ∧
          devices = kept ++ params.devices.toList.drop kept.length) := by
  refine ⟨fun attached scratch => ?_, fun params scratch => ?_⟩
  · have hmax : maxAttachedGpus ≤ maxGpus := Nat.le_refl _
    have hcount := filterGpuIdArray_count hmax table.learned attached
    have harray := filterGpuIdArray_eq hmax table.learned attached
    refine ⟨_, _, filterGpuIdArrayAt_refines hmax table scratch attached, hcount, fun hempty => ?_, fun hne => ?_⟩
    · exact harray.trans (if_pos hempty)
    · exact harray.trans (if_neg hne)
  · obtain ⟨hempty, hkept⟩ := filterActiveDevices_eq table.learned params
    refine ⟨_, _, filterActiveDevicesAt_refines table scratch params, fun h => ?_, hkept⟩
    rw [hempty h]
    exact ⟨rfl, rfl⟩

/-! ## A second time -/

variable {cfg : Option Config} {allowed : Option AllowedGpus} {learned : LearnedIds}

theorem LearnedIds.eq_of_ids {l l' : LearnedIds} (h : l.ids = l'.ids) : l = l' := by
  cases l
  cases h
  rfl

theorem hideCard_hideCard (allowed : Option AllowedGpus) (card : CardInfo) :
    hideCard allowed (hideCard allowed card) = hideCard allowed card := by
  rcases Decidable.em (AllowedMinor allowed card.minorNumber) with h | h
  · rw [hideCard_of_allowed h, hideCard_of_allowed h]
  · rw [hideCard_of_not_allowed h]
    exact hideCard_of_not_allowed h

/-- A hidden card reports nothing, and it reported nothing before it was hidden. -/
theorem reportedIds_hideCard (allowed : Option AllowedGpus) (cards : List CardInfo) :
    reportedIds allowed (cards.map (hideCard allowed)) = reportedIds allowed cards := by
  induction cards with
  | nil => rfl
  | cons card cards ih =>
      have hcons : ∀ card cards, reportedIds allowed (card :: cards) =
          reportedIds allowed [card] ++ reportedIds allowed cards := by
        intro card cards
        simp only [reportedIds, ← List.filter_append, ← List.map_append, List.singleton_append]
      have hone : reportedIds allowed [hideCard allowed card] = reportedIds allowed [card] := by
        rcases Decidable.em (AllowedMinor allowed card.minorNumber) with h | h
        · rw [hideCard_of_allowed h]
        · rw [hideCard_of_not_allowed h]
          simp [reportedIds, h]
      rw [List.map_cons, hcons, hone, ih, ← hcons]

theorem recordCardInfoGpuIds_again {cards cards' : List CardInfo}
    (h : reportedIds allowed cards' = reportedIds allowed cards) :
    recordCardInfoGpuIds allowed cards' (recordCardInfoGpuIds allowed cards learned) =
      recordCardInfoGpuIds allowed cards learned := by
  apply LearnedIds.eq_of_ids
  rw [ids_recordCardInfoGpuIds, h, ids_recordCardInfoGpuIds]
  exact foldl_remember_again maxGpus _ _

/-- The cards in the memory after hiding report what they reported before. -/
theorem reportedIds_filterCardInfo (allowed : Option AllowedGpus) (mem : List UInt8) :
    reportedIds allowed (Layouts.cards.get (filterCardInfo allowed mem)).toList =
      reportedIds allowed (Layouts.cards.get mem).toList := by
  rcases Classical.em (∃ a, allowed = some a ∧ a.valid = true) with ha | ha
  · rw [filterCardInfo_of_valid ha, Layout.get_put, List.Vector.toList_map, reportedIds_hideCard]
  · rw [filterCardInfo_of_not_valid ha]

theorem filterCardInfo_filterCardInfo (allowed : Option AllowedGpus) (mem : List UInt8) :
    filterCardInfo allowed (filterCardInfo allowed mem) = filterCardInfo allowed mem := by
  rcases Classical.em (∃ a, allowed = some a ∧ a.valid = true) with ha | ha
  · have hmap : ((Layouts.cards.get mem).map (hideCard allowed)).map (hideCard allowed) =
        (Layouts.cards.get mem).map (hideCard allowed) := by
      apply List.Vector.eq
      rw [List.Vector.toList_map, List.Vector.toList_map, List.map_map]
      exact List.map_congr_left fun card _ => hideCard_hideCard allowed card
    rw [filterCardInfo_of_valid ha, filterCardInfo_of_valid ha, Layout.get_put, hmap, Layout.put_put]
  · rw [filterCardInfo_of_not_valid ha, filterCardInfo_of_not_valid ha]

/-- The learned entries in front of the sentinel are all learned. -/
theorem learnedOf_padTo (learned : LearnedIds) (n : Nat) (gpuIds : List UInt32) :
    learnedOf learned (padTo n invalidId (learnedOf learned gpuIds)) = learnedOf learned gpuIds := by
  rw [learnedOf, takeWhile_padTo n ne_invalidId_of_mem_learnedOf, List.filter_eq_self]
  exact fun gpuId h => (List.mem_filter.mp h).2

theorem filterGpuIdArray_again {n : Nat} (hn : n ≤ maxGpus) (learned : LearnedIds)
    (gpuIds : List.Vector UInt32 n) :
    (filterGpuIdArray learned (filterGpuIdArray learned gpuIds).1).1 = (filterGpuIdArray learned gpuIds).1 := by
  apply List.Vector.eq
  rw [filterGpuIdArray_eq hn, filterGpuIdArray_eq hn]
  rcases Decidable.em (learnedOf learned gpuIds.toList = []) with hempty | hempty
  · simp only [hempty, ↓reduceIte]
  · simp only [hempty, ↓reduceIte, learnedOf_padTo]

theorem ActiveDeviceIdsParams.eq_of {p p' : ActiveDeviceIdsParams}
    (hnum : p.numDevices.toNat = p'.numDevices.toNat) (hdev : p.devices.toList = p'.devices.toList) : p = p' := by
  cases p
  cases p'
  cases UInt32.toNat_inj.mp hnum
  cases List.Vector.eq _ _ hdev
  rfl

theorem filterActiveDevices_again (learned : LearnedIds) (params : ActiveDeviceIdsParams) :
    filterActiveDevices learned (filterActiveDevices learned params) = filterActiveDevices learned params := by
  obtain ⟨hempty, hkept⟩ := filterActiveDevices_eq learned params
  obtain ⟨-, hagain⟩ := filterActiveDevices_eq learned (filterActiveDevices learned params)
  rcases Decidable.em (params.listed.filter (·.gpuId ∈ learned.ids) = []) with h | h
  · rw [hempty h, hempty h]
  · obtain ⟨hnum, hdev⟩ := hkept h
    have hlisted : (filterActiveDevices learned params).listed.filter (·.gpuId ∈ learned.ids) =
        params.listed.filter (·.gpuId ∈ learned.ids) := by
      rw [listed_filterActiveDevices, if_neg h, List.filter_filter]
      simp only [Bool.and_self]
    rw [hlisted] at hagain
    obtain ⟨hnum', hdev'⟩ := hagain h
    apply ActiveDeviceIdsParams.eq_of
    · rw [hnum', hnum]
    · rw [hdev', hdev, List.drop_left' rfl]

theorem filterRmControl_again (rm : Nvos54Parameters) (result : Int) (learned : LearnedIds)
    (params : List UInt8) :
    filterRmControl cfg allowed rm result learned (filterRmControl cfg allowed rm result learned params) =
      filterRmControl cfg allowed rm result learned params := by
  rcases Classical.em (FilterOn cfg allowed ∧ result = 0 ∧ RmEligible rm) with h | h
  · obtain ⟨hon, hr, hrm⟩ := h
    rcases hrm.command with ⟨hcmd, -⟩ | ⟨hcmd, -⟩
    · have hagain := @filterGpuIdArray_again maxAttachedGpus (Nat.le_refl _) learned (Layouts.attachedIds.get params)
      simp only [filterRmControl_attached hon hr hrm hcmd, Layout.get_put, Layout.put_put, hagain]
    · simp only [filterRmControl_active hon hr hrm hcmd, Layout.get_put, Layout.put_put,
        filterActiveDevices_again]
  · simp only [filterRmControl_of_not h]

/-- With every learned list, every configuration and every allowed set: what the filter has processed once, it
leaves as it is, and it learns nothing more from it. -/
theorem ioctlFilterAfter_idempotent (cfg : Option Config) (allowed : Option AllowedGpus) (request : UInt64)
    (arg : Option IoctlArg) (result : Int) (learned : LearnedIds) :
    let first := ioctlFilterAfter cfg allowed request arg result learned
    ioctlFilterAfter cfg allowed request first.2 result first.1 = first := by
  intro first
  cases arg with
  | none => rfl
  | some arg =>
      rcases Decidable.em (result = 0) with rfl | hr
      · cases hcards : requestIsCardInfo request with
        | true =>
            have hfirst : first = _ := ioctlFilterAfter_cardInfo hcards
            rw [hfirst, ioctlFilterAfter_cardInfo hcards]
            cases hon : (cfg.map Config.ioctlFilterEnabled).getD false with
            | true =>
                simp only [↓reduceIte, filterCardInfo_filterCardInfo,
                  recordCardInfoGpuIds_again (reportedIds_filterCardInfo allowed arg.mem)]
            | false =>
                simp only [Bool.false_eq_true, ↓reduceIte, recordCardInfoGpuIds_again rfl]
        | false =>
            cases hrm : requestIsRmControl request with
            | true =>
                have hfirst : first = _ := ioctlFilterAfter_rmControl hrm
                rw [hfirst, ioctlFilterAfter_rmControl hrm]
                simp only [filterRmControl_again]
            | false =>
                have hfirst : first = _ := ioctlFilterAfter_of_other hcards hrm
                rw [hfirst, ioctlFilterAfter_of_other hcards hrm]
      · have hfirst : first = _ := ioctlFilterAfter_of_failed hr
        rw [hfirst, ioctlFilterAfter_of_failed hr]

end Nvscope
