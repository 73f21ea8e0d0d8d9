import Mathlib.Data.List.TakeWhile
import Nvscope.Lib.Compaction
import Nvscope.Lib.FirstSeen
import Nvscope.Lib.Runs
import Nvscope.Model.IoctlFilter

/-!
# What the ioctl filter learns and keeps
-/

namespace Nvscope

open Lib

/-! ## Allowed minors -/

/-- `minor` is the non-negative minor of a present GPU of a valid allowed set. -/
def AllowedMinor (allowed : Option AllowedGpus) (minor : UInt32) : Prop :=
  ∃ a, allowed = some a ∧ a.valid = true ∧
    ∃ g ∈ a.gpus, g.present = true ∧ g.deviceMinor.toInt = minor.toNat

theorem toUInt32_eq_iff (m : Int32) (minor : UInt32) :
    0 ≤ m ∧ m.toUInt32 = minor ↔ m.toInt = minor.toNat := by
  have hm : m.toInt = if 2 * m.toUInt32.toNat < 2 ^ 32 then (m.toUInt32.toNat : Int)
      else (m.toUInt32.toNat : Int) - (2 ^ 32 : Nat) := rfl
  have hlt := m.toUInt32.toNat_lt
  have hlt' := minor.toNat_lt
  rw [Int32.le_iff_toInt_le, ← UInt32.toNat_inj, hm]
  simp only [Int32.toInt_zero]
  split <;> omega

theorem allowedContainsMinor_iff {allowed : Option AllowedGpus} {minor : UInt32} :
    allowedContainsMinor allowed minor = true ↔ AllowedMinor allowed minor := by
  cases allowed with
  | none => simp [allowedContainsMinor, AllowedMinor]
  | some a =>
      cases hv : a.valid with
      | false => simp [allowedContainsMinor, AllowedMinor, hv]
      | true =>
          simp [allowedContainsMinor, AllowedMinor, hv, and_assoc, ← toUInt32_eq_iff]

instance (allowed : Option AllowedGpus) (minor : UInt32) : Decidable (AllowedMinor allowed minor) :=
  decidable_of_iff _ allowedContainsMinor_iff

/-! ## Learning -/

theorem gpuIdIsAllowed_iff {learned : LearnedIds} {gpuId : UInt32} :
    gpuIdIsAllowed learned gpuId = true ↔ gpuId ∈ learned.ids := by
  simp [gpuIdIsAllowed]

theorem ids_rememberAllowedGpuId (learned : LearnedIds) (gpuId : UInt32) :
    (rememberAllowedGpuId learned gpuId).ids =
      if gpuId = invalidId then learned.ids else remember maxGpus learned.ids gpuId := by
  by_cases hid : gpuId = invalidId
  · simp [rememberAllowedGpuId, hid]
  · by_cases hknown : gpuId ∈ learned.ids ∨ maxGpus ≤ learned.ids.length
    · simp [rememberAllowedGpuId, remember, hid, gpuIdIsAllowed_iff, hknown]
    · simp [rememberAllowedGpuId, remember, hid, gpuIdIsAllowed_iff, hknown]

/-- The ids a response reports for allowed minors: the valid ids of its valid cards, in order. -/
def reportedIds (allowed : Option AllowedGpus) (cards : List CardInfo) : List UInt32 :=
  ((cards.filter fun card => card.valid ≠ 0 ∧ AllowedMinor allowed card.minorNumber).map
    (·.gpuId)).filter (· ≠ invalidId)

theorem reportedIds_of_not_valid {allowed : Option AllowedGpus} (h : ∀ minor, ¬ AllowedMinor allowed minor)
    (cards : List CardInfo) : reportedIds allowed cards = [] := by
  simp [reportedIds, h]

/-- Spec of `nvfix_record_card_info_gpu_ids`. -/
theorem ids_recordCardInfoGpuIds (allowed : Option AllowedGpus) (cards : List CardInfo)
    (learned : LearnedIds) :
    (recordCardInfoGpuIds allowed cards learned).ids =
      (reportedIds allowed cards).foldl (remember maxGpus) learned.ids := by
  have hstep : ∀ cards (learned : LearnedIds), (cards.foldl (fun learned card =>
      if card.valid != 0 && allowedContainsMinor allowed card.minorNumber then
        rememberAllowedGpuId learned card.gpuId else learned) learned).ids =
      (reportedIds allowed cards).foldl (remember maxGpus) learned.ids := by
    intro cards
    induction cards with
    | nil => intro learned; rfl
    | cons card cards ih =>
        intro learned
        rw [List.foldl_cons, ih]
        by_cases hcard : card.valid ≠ 0 ∧ AllowedMinor allowed card.minorNumber
        · by_cases hid : card.gpuId = invalidId <;>
          simp [reportedIds, hcard, allowedContainsMinor_iff, ids_rememberAllowedGpuId, hid]
        · have hskip : (card.valid != 0 && allowedContainsMinor allowed card.minorNumber) = false := by
            rw [Bool.eq_false_iff]
            simpa [allowedContainsMinor_iff] using hcard
          simp [reportedIds, hcard, hskip]
  unfold recordCardInfoGpuIds
  cases allowed with
  | none => rw [reportedIds_of_not_valid (by simp [AllowedMinor])]; rfl
  | some a =>
      cases hv : a.valid with
      | false => rw [reportedIds_of_not_valid (by simp [AllowedMinor, hv])]; simp [hv]
      | true => simpa [hv] using hstep cards learned

/-! ## Hiding cards -/

theorem hideCard_of_allowed {allowed : Option AllowedGpus} {card : CardInfo}
    (h : AllowedMinor allowed card.minorNumber) : hideCard allowed card = card := by
  simp [hideCard, allowedContainsMinor_iff.mpr h]

theorem hideCard_of_not_allowed {allowed : Option AllowedGpus} {card : CardInfo}
    (h : ¬ AllowedMinor allowed card.minorNumber) : hideCard allowed card = { card with valid := 0 } := by
  rw [← allowedContainsMinor_iff, Bool.not_eq_true] at h
  by_cases hv : card.valid = 0
  · simp [hideCard, hv]; rw [← hv]
  · simp [hideCard, h, hv]

/-! ## Keeping learned ids -/

/-- The learned ids of a list that ends at the first `0xffffffff`. -/
def learnedOf (learned : LearnedIds) (gpuIds : List UInt32) : List UInt32 :=
  (gpuIds.takeWhile (· != invalidId)).filter (· ∈ learned.ids)

theorem keepGpuIds_eq {learned : LearnedIds} {gpuIds kept : List UInt32}
    (h : kept.length + gpuIds.length ≤ maxGpus) :
    keepGpuIds learned gpuIds kept = kept ++ learnedOf learned gpuIds := by
  induction gpuIds generalizing kept with
  | nil => simp [keepGpuIds, learnedOf]
  | cons gpuId gpuIds ih =>
      rw [List.length_cons] at h
      by_cases hid : gpuId = invalidId
      · simp [keepGpuIds, learnedOf, hid]
      · by_cases hmem : gpuId ∈ learned.ids
        · have hroom : kept.length < maxGpus := by omega
          rw [keepGpuIds, if_neg hid, gpuIdIsAllowed_iff.mpr hmem, decide_eq_true hroom]
          simp only [Bool.and_true, ↓reduceIte]
          rw [ih (by simp; omega)]
          simp [learnedOf, hid, hmem]
        · have hno : gpuIdIsAllowed learned gpuId = false := by
            rw [← Bool.not_eq_true, gpuIdIsAllowed_iff]; exact hmem
          rw [keepGpuIds, if_neg hid, hno]
          simp only [Bool.false_and, Bool.false_eq_true, ↓reduceIte]
          rw [ih (by omega)]
          simp [learnedOf, hid, hmem]

theorem learnedOf_length_le (learned : LearnedIds) (gpuIds : List UInt32) :
    (learnedOf learned gpuIds).length ≤ gpuIds.length :=
  (List.length_filter_le _ _).trans (List.takeWhile_sublist _).length_le

theorem ne_invalidId_of_mem_learnedOf {learned : LearnedIds} {gpuIds : List UInt32} :
    ∀ gpuId ∈ learnedOf learned gpuIds, gpuId ≠ invalidId := by
  intro gpuId h
  have hmem := List.mem_takeWhile_imp (List.mem_filter.mp h).1
  simpa using hmem

/-- Spec of `nvfix_filter_gpu_id_array`: its scratch array never overflows. -/
theorem filterGpuIdArray_eq {n : Nat} (hn : n ≤ maxGpus) (learned : LearnedIds)
    (gpuIds : List.Vector UInt32 n) :
    (filterGpuIdArray learned gpuIds).1.toList =
      if learnedOf learned gpuIds.toList = [] then gpuIds.toList
      else padTo n invalidId (learnedOf learned gpuIds.toList) := by
  have hkeep : keepGpuIds learned gpuIds.toList [] = learnedOf learned gpuIds.toList :=
    keepGpuIds_eq (by simpa using hn)
  have hle : (learnedOf learned gpuIds.toList).length ≤ n := by
    simpa using learnedOf_length_le learned gpuIds.toList
  unfold filterGpuIdArray
  by_cases hempty : learnedOf learned gpuIds.toList = []
  · simp only [hkeep, hempty]
    split <;> rfl
  · have hids : ¬ (n = 0 ∨ learned.ids.length = 0) := by
      rintro (rfl | h0)
      · exact hempty (List.eq_nil_of_length_eq_zero (by omega))
      · exact hempty (by simp [learnedOf, List.eq_nil_of_length_eq_zero h0])
    simp only [hkeep]
    rw [if_neg (by simpa using hids), if_neg (by simpa using hempty), if_neg hempty]
    exact toList_ofFn_getD invalidId hle

/-- The return value is the number of learned entries. -/
theorem filterGpuIdArray_count {n : Nat} (hn : n ≤ maxGpus) (learned : LearnedIds)
    (gpuIds : List.Vector UInt32 n) :
    (filterGpuIdArray learned gpuIds).2 = (learnedOf learned gpuIds.toList).length := by
  have hkeep : keepGpuIds learned gpuIds.toList [] = learnedOf learned gpuIds.toList :=
    keepGpuIds_eq (by simpa using hn)
  have hle : (learnedOf learned gpuIds.toList).length ≤ n := by
    simpa using learnedOf_length_le learned gpuIds.toList
  unfold filterGpuIdArray
  split
  · rename_i hnone
    simp only [Bool.or_eq_true, decide_eq_true_eq, List.length_eq_zero_iff] at hnone
    rcases hnone with rfl | hids
    · exact (Nat.le_zero.mp hle).symm
    · simp [learnedOf, hids]
  · simp only [hkeep]
    split
    · rename_i hempty
      exact hempty.symm
    · rfl

theorem keepDevices_eq (learned : LearnedIds) (devices kept : List ActiveDevice) :
    keepDevices learned devices kept = kept ++ devices.filter (·.gpuId ∈ learned.ids) := by
  induction devices generalizing kept with
  | nil => simp [keepDevices]
  | cons device devices ih =>
      by_cases hmem : device.gpuId ∈ learned.ids
      · simp [keepDevices, gpuIdIsAllowed_iff, hmem, ih]
      · simp [keepDevices, gpuIdIsAllowed_iff, hmem, ih]

/-- The devices a response lists: the first `numDevices` records, of the 256 there are. -/
def ActiveDeviceIdsParams.listed (params : ActiveDeviceIdsParams) : List ActiveDevice :=
  params.devices.toList.take (min params.numDevices.toNat maxActiveDevices)

theorem listed_length_le (params : ActiveDeviceIdsParams) : params.listed.length ≤ maxActiveDevices :=
  (List.length_take_le _ _).trans (Nat.min_le_right _ _)

/-- Spec of `nvfix_filter_active_devices`. -/
theorem filterActiveDevices_eq (learned : LearnedIds) (params : ActiveDeviceIdsParams) :
    let kept := params.listed.filter (·.gpuId ∈ learned.ids)
    (kept = [] → filterActiveDevices learned params = params) ∧
    (kept ≠ [] → (filterActiveDevices learned params).numDevices.toNat = kept.length ∧
      (filterActiveDevices learned params).devices.toList = kept ++ params.devices.toList.drop kept.length) := by
  intro kept
  have hcount : (if params.numDevices.toNat > maxActiveDevices then maxActiveDevices
      else params.numDevices.toNat) = min params.numDevices.toNat maxActiveDevices := by
    split <;> omega
  have hkeep : keepDevices learned (params.devices.toList.take
      (min params.numDevices.toNat maxActiveDevices)) [] = kept := by
    rw [keepDevices_eq]; rfl
  have hle : kept.length ≤ maxActiveDevices :=
    (List.length_filter_le _ _).trans (listed_length_le params)
  constructor
  · intro hempty
    simp only [filterActiveDevices, hcount, hkeep, hempty]
    split <;> rfl
  · intro hne
    have hids : learned.ids.length ≠ 0 := by
      intro h0
      exact hne (by simp [kept, List.eq_nil_of_length_eq_zero h0])
    have hlen : kept.length ≠ 0 := by simpa using hne
    simp only [filterActiveDevices, hids, hcount, hkeep, hlen, ↓reduceIte]
    refine ⟨?_, toList_ofFn_getD_get _ hle⟩
    have hmax : maxActiveDevices = 256 := rfl
    simp; omega

theorem listed_filterActiveDevices (learned : LearnedIds) (params : ActiveDeviceIdsParams) :
    (filterActiveDevices learned params).listed =
      if params.listed.filter (·.gpuId ∈ learned.ids) = [] then params.listed
      else params.listed.filter (·.gpuId ∈ learned.ids) := by
  obtain ⟨hempty, hkept⟩ := filterActiveDevices_eq learned params
  split
  · rename_i h; rw [hempty h]
  · rename_i h
    obtain ⟨hnum, hdev⟩ := hkept h
    have hle : (params.listed.filter (·.gpuId ∈ learned.ids)).length ≤ maxActiveDevices :=
      (List.length_filter_le _ _).trans (listed_length_le params)
    rw [ActiveDeviceIdsParams.listed, hnum, hdev, Nat.min_eq_left hle, List.take_left' rfl]

/-! ## One request -/

/-- What an RM control response must be for the filter to look at it. -/
structure RmEligible (rm : Nvos54Parameters) : Prop where
  status : rm.status = 0
  params : rm.params ≠ 0
  command : rm.cmd = cmdGpuGetAttachedIds ∧ Layouts.attachedIds.size ≤ rm.paramsSize.toNat ∨
    rm.cmd = cmdGpuGetActiveDeviceIds ∧ Layouts.activeDeviceIdsParams.size ≤ rm.paramsSize.toNat

structure FilterOn (cfg : Option Config) (allowed : Option AllowedGpus) : Prop where
  enabled : ∃ c, cfg = some c ∧ c.ioctlFilterEnabled = true
  valid : ∃ a, allowed = some a ∧ a.valid = true

theorem gpuIdArrayFilterEnabled_iff {cfg : Option Config} {allowed : Option AllowedGpus}
    {rm : Nvos54Parameters} {result : Int} :
    gpuIdArrayFilterEnabled cfg allowed result rm = true ↔
      FilterOn cfg allowed ∧ result = 0 ∧ rm.status = 0 ∧ rm.params ≠ 0 := by
  constructor
  · intro h
    unfold gpuIdArrayFilterEnabled at h
    split at h
    · simp only [Bool.and_eq_true, beq_iff_eq, bne_iff_ne] at h
      obtain ⟨⟨⟨⟨hc, ha⟩, hr⟩, hs⟩, hp⟩ := h
      exact ⟨⟨⟨_, rfl, hc⟩, ⟨_, rfl, ha⟩⟩, hr, hs, hp⟩
    · cases h
  · rintro ⟨⟨⟨c, rfl, hc⟩, ⟨a, rfl, ha⟩⟩, hr, hs, hp⟩
    simp [gpuIdArrayFilterEnabled, hc, ha, hr, hs, hp]

variable {cfg : Option Config} {allowed : Option AllowedGpus} {rm : Nvos54Parameters} {result : Int}
  {learned : LearnedIds} {params : List UInt8}

theorem filterRmControl_of_not (h : ¬ (FilterOn cfg allowed ∧ result = 0 ∧ RmEligible rm)) :
    filterRmControl cfg allowed rm result learned params = params := by
  unfold filterRmControl
  split
  · rfl
  · rename_i hon
    rw [Bool.not_eq_true, Bool.not_eq_false', gpuIdArrayFilterEnabled_iff] at hon
    obtain ⟨hon, hr, hs, hp⟩ := hon
    split
    · rename_i hcmd
      exact absurd ⟨hon, hr, hs, hp, Or.inl hcmd⟩ h
    · split
      · rename_i hcmd
        exact absurd ⟨hon, hr, hs, hp, Or.inr hcmd⟩ h
      · rfl

theorem filterRmControl_attached (hon : FilterOn cfg allowed) (hr : result = 0) (hrm : RmEligible rm)
    (hcmd : rm.cmd = cmdGpuGetAttachedIds) :
    filterRmControl cfg allowed rm result learned params =
      Layouts.attachedIds.put (filterGpuIdArray learned (Layouts.attachedIds.get params)).1 params := by
  have hen := gpuIdArrayFilterEnabled_iff.mpr ⟨hon, hr, hrm.status, hrm.params⟩
  rcases hrm.command with ⟨-, hsize⟩ | ⟨hother, -⟩
  · simp [filterRmControl, hen, hcmd, hsize]
  · rw [hcmd] at hother
    exact absurd hother (by decide)

theorem filterRmControl_active (hon : FilterOn cfg allowed) (hr : result = 0) (hrm : RmEligible rm)
    (hcmd : rm.cmd = cmdGpuGetActiveDeviceIds) :
    filterRmControl cfg allowed rm result learned params =
      Layouts.activeDeviceIdsParams.put
        (filterActiveDevices learned (Layouts.activeDeviceIdsParams.get params)) params := by
  have hen := gpuIdArrayFilterEnabled_iff.mpr ⟨hon, hr, hrm.status, hrm.params⟩
  have hne : cmdGpuGetActiveDeviceIds ≠ cmdGpuGetAttachedIds := by decide
  rcases hrm.command with ⟨hother, -⟩ | ⟨-, hsize⟩
  · rw [hcmd] at hother
    exact absurd hother hne
  · simp [filterRmControl, hen, hcmd, hsize, hne]

theorem filterCardInfo_of_valid (ha : ∃ a, allowed = some a ∧ a.valid = true) (mem : List UInt8) :
    filterCardInfo allowed mem =
      Layouts.cards.put ((Layouts.cards.get mem).map (hideCard allowed)) mem := by
  obtain ⟨a, rfl, hv⟩ := ha
  simp [filterCardInfo, hv]

theorem filterCardInfo_of_not_valid (ha : ¬ ∃ a, allowed = some a ∧ a.valid = true) (mem : List UInt8) :
    filterCardInfo allowed mem = mem := by
  cases allowed with
  | none => rfl
  | some a =>
      have hv : a.valid = false := by
        rw [← Bool.not_eq_true]
        exact fun hv => ha ⟨a, rfl, hv⟩
      simp [filterCardInfo, hv]

/-! ## The whole filter -/

variable {request : UInt64} {arg : IoctlArg}

theorem ioctlFilterAfter_of_failed (h : result ≠ 0) :
    ioctlFilterAfter cfg allowed request (some arg) result learned = (learned, some arg) := by
  simp [ioctlFilterAfter, h]

/-- A successful CARD_INFO response: its ids are recorded, and cards are hidden where the filter is
enabled. -/
theorem ioctlFilterAfter_cardInfo (hreq : requestIsCardInfo request = true) :
    ioctlFilterAfter cfg allowed request (some arg) 0 learned =
      (recordCardInfoGpuIds allowed (Layouts.cards.get arg.mem).toList learned,
        some { arg with
          mem := if (cfg.map Config.ioctlFilterEnabled).getD false then filterCardInfo allowed arg.mem
            else arg.mem }) := by
  simp only [ioctlFilterAfter, ne_eq, not_true_eq_false, ↓reduceIte, hreq]
  split <;> rfl

theorem ioctlFilterAfter_rmControl (hreq : requestIsRmControl request = true) :
    ioctlFilterAfter cfg allowed request (some arg) 0 learned =
      (learned, some { arg with
        params := filterRmControl cfg allowed (Layouts.nvos54Parameters.get arg.mem) 0 learned arg.params }) := by
  simp [ioctlFilterAfter, requestIsRmControl_of_cardInfo hreq, hreq]

theorem ioctlFilterAfter_of_other (hcard : requestIsCardInfo request = false)
    (hrm : requestIsRmControl request = false) :
    ioctlFilterAfter cfg allowed request (some arg) result learned = (learned, some arg) := by
  simp [ioctlFilterAfter, hcard, hrm]

end Nvscope
