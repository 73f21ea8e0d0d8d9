import Nvscope.Theorems.Learning

/-!
# Two responses that differ in hidden GPUs only

What a program may learn of a response is its learned entries. For the attached ids this is all it can
learn: the rest of the array is overwritten. The records behind the compacted active devices are left as
the driver wrote them.
-/

namespace Nvscope

open Lib

/-- An id that tells nothing: learned, or no id at all. -/
def Disclosable (learned : LearnedIds) (gpuId : UInt32) : Prop :=
  gpuId ∈ learned.ids ∨ gpuId = invalidId

instance (learned : LearnedIds) (gpuId : UInt32) : Decidable (Disclosable learned gpuId) :=
  inferInstanceAs (Decidable (_ ∨ _))

/-- Two responses to one command that both pass the guards. -/
structure Rivals (cmd : UInt32) (arg₁ arg₂ : IoctlArg) : Prop where
  eligible₁ : RmEligible (Layouts.nvos54Parameters.get arg₁.mem)
  eligible₂ : RmEligible (Layouts.nvos54Parameters.get arg₂.mem)
  cmd₁ : (Layouts.nvos54Parameters.get arg₁.mem).cmd = cmd
  cmd₂ : (Layouts.nvos54Parameters.get arg₂.mem).cmd = cmd

def keptIds (learned : LearnedIds) (arg : IoctlArg) : List UInt32 :=
  (attachedList arg.params).filter (· ∈ learned.ids)

def keptDevices (learned : LearnedIds) (arg : IoctlArg) : List ActiveDevice :=
  (activeList arg.params).filter (·.gpuId ∈ learned.ids)

/-- All device records of a response, listed or not. -/
def allDevices (arg : IoctlArg) : List ActiveDevice :=
  (Layouts.activeDeviceIdsParams.get arg.params).devices.toList

/-- The attached array tells no more than the learned ids that were in it. -/
structure AttachedHides (learned : LearnedIds) (after₁ after₂ : IoctlArg) : Prop where
  same : after₁.params.take Layouts.attachedIds.size = after₂.params.take Layouts.attachedIds.size
  nothing_left : ∀ gpuId ∈ (Layouts.attachedIds.get after₁.params).toList, Disclosable learned gpuId

structure ActiveHides (learned : LearnedIds) (after₁ after₂ : IoctlArg) : Prop where
  same : after₁.params.take Layouts.activeDeviceIdsParams.size =
    after₂.params.take Layouts.activeDeviceIdsParams.size
  nothing_left : ∀ device ∈ allDevices after₁, Disclosable learned device.gpuId

variable {cfg : Option Config} {allowed : Option AllowedGpus} {learned : LearnedIds}
  {arg arg₁ arg₂ after after₁ after₂ : IoctlArg}

/-! ## Attached ids -/

theorem attached_params (hon : FilterOn cfg allowed)
    (hel : RmEligible (Layouts.nvos54Parameters.get arg.mem))
    (hcmd : (Layouts.nvos54Parameters.get arg.mem).cmd = cmdGpuGetAttachedIds)
    (hafter : (ioctlFilterAfter cfg allowed rmControlRequest (some arg) 0 learned).2 = some after) :
    after.params =
      Layouts.attachedIds.put (filterGpuIdArray learned (Layouts.attachedIds.get arg.params)).1 arg.params := by
  rw [ioctlFilterAfter_rmControl (by simp [requestIsRmControl]),
    filterRmControl_attached hon rfl hel hcmd, Option.some.injEq] at hafter
  rw [← hafter]

theorem attached_toList (hkept : keptIds learned arg ≠ []) :
    (filterGpuIdArray learned (Layouts.attachedIds.get arg.params)).1.toList =
      padTo maxAttachedGpus invalidId (keptIds learned arg) := by
  rw [filterGpuIdArray_eq (by decide)]
  exact if_neg hkept

/-- Responses with the same learned ids leave the same array, and nothing else in it. -/
theorem attached_hides (hon : FilterOn cfg allowed) (hr : Rivals cmdGpuGetAttachedIds arg₁ arg₂)
    (hkept : keptIds learned arg₁ = keptIds learned arg₂) (hne : keptIds learned arg₁ ≠ [])
    (h₁ : (ioctlFilterAfter cfg allowed rmControlRequest (some arg₁) 0 learned).2 = some after₁)
    (h₂ : (ioctlFilterAfter cfg allowed rmControlRequest (some arg₂) 0 learned).2 = some after₂) :
    AttachedHides learned after₁ after₂ := by
  have hp₁ := attached_params hon hr.eligible₁ hr.cmd₁ h₁
  have hp₂ := attached_params hon hr.eligible₂ hr.cmd₂ h₂
  have hl₁ := attached_toList hne
  have hl₂ := attached_toList (hkept ▸ hne)
  constructor
  · rw [hp₁, hp₂, Layout.take_put, Layout.take_put, Layout.encode_inj]
    exact List.Vector.eq _ _ (by rw [hl₁, hl₂, hkept])
  · intro gpuId hmem
    rw [hp₁, Layout.get_put, hl₁, padTo] at hmem
    rcases List.mem_append.mp hmem with hmem | hmem
    · have hlearned := (List.mem_filter.mp hmem).2
      exact Or.inl (by simpa using hlearned)
    · exact Or.inr (List.eq_of_mem_replicate hmem)

/-! ## Active devices -/

theorem active_params (hon : FilterOn cfg allowed)
    (hel : RmEligible (Layouts.nvos54Parameters.get arg.mem))
    (hcmd : (Layouts.nvos54Parameters.get arg.mem).cmd = cmdGpuGetActiveDeviceIds)
    (hafter : (ioctlFilterAfter cfg allowed rmControlRequest (some arg) 0 learned).2 = some after) :
    after.params = Layouts.activeDeviceIdsParams.put
      (filterActiveDevices learned (Layouts.activeDeviceIdsParams.get arg.params)) arg.params := by
  rw [ioctlFilterAfter_rmControl (by simp [requestIsRmControl]),
    filterRmControl_active hon rfl hel hcmd, Option.some.injEq] at hafter
  rw [← hafter]

theorem activeDeviceIdsParams_eq_iff {params₁ params₂ : ActiveDeviceIdsParams} :
    params₁ = params₂ ↔
      params₁.numDevices.toNat = params₂.numDevices.toNat ∧
        params₁.devices.toList = params₂.devices.toList := by
  constructor
  · rintro rfl; exact ⟨rfl, rfl⟩
  · obtain ⟨num₁, devices₁⟩ := params₁
    obtain ⟨num₂, devices₂⟩ := params₂
    rintro ⟨hnum, hdevices⟩
    obtain rfl := UInt32.toNat_inj.mp hnum
    obtain rfl := List.Vector.eq _ _ hdevices
    rfl

/-- The two structures are the same exactly where the driver wrote the same records behind the place of the
last kept one, and nothing unlearned is left exactly where there was nothing unlearned. -/
theorem active_hides_iff (hon : FilterOn cfg allowed) (hr : Rivals cmdGpuGetActiveDeviceIds arg₁ arg₂)
    (hkept : keptDevices learned arg₁ = keptDevices learned arg₂) (hne : keptDevices learned arg₁ ≠ [])
    (h₁ : (ioctlFilterAfter cfg allowed rmControlRequest (some arg₁) 0 learned).2 = some after₁)
    (h₂ : (ioctlFilterAfter cfg allowed rmControlRequest (some arg₂) 0 learned).2 = some after₂) :
    ActiveHides learned after₁ after₂ ↔
      (allDevices arg₁).drop (keptDevices learned arg₁).length =
        (allDevices arg₂).drop (keptDevices learned arg₁).length ∧
      ∀ device ∈ (allDevices arg₁).drop (keptDevices learned arg₁).length,
        Disclosable learned device.gpuId := by
  have hp₁ := active_params hon hr.eligible₁ hr.cmd₁ h₁
  have hp₂ := active_params hon hr.eligible₂ hr.cmd₂ h₂
  have hne₂ : keptDevices learned arg₂ ≠ [] := hkept ▸ hne
  obtain ⟨hnum₁, hdev₁⟩ := (filterActiveDevices_eq learned (Layouts.activeDeviceIdsParams.get arg₁.params)).2 hne
  obtain ⟨hnum₂, hdev₂⟩ :=
    (filterActiveDevices_eq learned (Layouts.activeDeviceIdsParams.get arg₂.params)).2 hne₂
  have hsame : after₁.params.take Layouts.activeDeviceIdsParams.size =
      after₂.params.take Layouts.activeDeviceIdsParams.size ↔
      (allDevices arg₁).drop (keptDevices learned arg₁).length =
        (allDevices arg₂).drop (keptDevices learned arg₁).length := by
    rw [hp₁, hp₂, Layout.take_put, Layout.take_put, Layout.encode_inj, activeDeviceIdsParams_eq_iff, hnum₁,
      hnum₂, hdev₁, hdev₂]
    change (keptDevices learned arg₁).length = (keptDevices learned arg₂).length ∧
      keptDevices learned arg₁ ++ (allDevices arg₁).drop (keptDevices learned arg₁).length =
        keptDevices learned arg₂ ++ (allDevices arg₂).drop (keptDevices learned arg₂).length ↔ _
    rw [← hkept]
    simp
  have hall : allDevices after₁ =
      keptDevices learned arg₁ ++ (allDevices arg₁).drop (keptDevices learned arg₁).length := by
    rw [allDevices, hp₁, Layout.get_put, hdev₁]
    rfl
  constructor
  · rintro ⟨hparams, hleft⟩
    rw [hall] at hleft
    exact ⟨hsame.mp hparams, fun device hd => hleft device (List.mem_append_right _ hd)⟩
  · rintro ⟨hdrop, hleft⟩
    refine ⟨hsame.mpr hdrop, ?_⟩
    rw [hall]
    intro device hd
    rcases List.mem_append.mp hd with hd | hd
    · have hlearned := (List.mem_filter.mp hd).2
      exact Or.inl (by simpa using hlearned)
    · exact hleft device hd

/-! ## Both commands -/

/-- For every learned list and every pair of responses with the same learned entries, at least one: the
attached arrays are identical after the call and show no other id; the active device structures are, and do,
if and only if the records from the number of kept ones on agree in the two responses and have learned ids. -/
theorem responses_hide_iff (hon : FilterOn cfg allowed) :
    (∀ arg₁ arg₂ after₁ after₂, Rivals cmdGpuGetAttachedIds arg₁ arg₂ →
      keptIds learned arg₁ = keptIds learned arg₂ → keptIds learned arg₁ ≠ [] →
      (ioctlFilterAfter cfg allowed rmControlRequest (some arg₁) 0 learned).2 = some after₁ →
      (ioctlFilterAfter cfg allowed rmControlRequest (some arg₂) 0 learned).2 = some after₂ →
      AttachedHides learned after₁ after₂) ∧
    ∀ arg₁ arg₂ after₁ after₂, Rivals cmdGpuGetActiveDeviceIds arg₁ arg₂ →
      keptDevices learned arg₁ = keptDevices learned arg₂ → keptDevices learned arg₁ ≠ [] →
      (ioctlFilterAfter cfg allowed rmControlRequest (some arg₁) 0 learned).2 = some after₁ →
      (ioctlFilterAfter cfg allowed rmControlRequest (some arg₂) 0 learned).2 = some after₂ →
      (ActiveHides learned after₁ after₂ ↔
        (allDevices arg₁).drop (keptDevices learned arg₁).length =
          (allDevices arg₂).drop (keptDevices learned arg₁).length ∧
        ∀ device ∈ (allDevices arg₁).drop (keptDevices learned arg₁).length,
          Disclosable learned device.gpuId) :=
  ⟨fun _ _ _ _ hr hkept hne h₁ h₂ => attached_hides hon hr hkept hne h₁ h₂,
    fun _ _ _ _ hr hkept hne h₁ h₂ => active_hides_iff hon hr hkept hne h₁ h₂⟩

/-! ## Two GPUs, of which one is learned -/

/-- The other id is 9 in one response and 8 in the other; the attached array does not show which. -/
theorem responses_hide_nine_eight : ∃ after₁ after₂,
    (ioctlFilterAfter (some filterConfig) (some container.allowed) rmControlRequest
      (some (attachedResponse [7, 9])) 0 learnedSeven).2 = some after₁ ∧
    (ioctlFilterAfter (some filterConfig) (some container.allowed) rmControlRequest
      (some (attachedResponse [8, 7])) 0 learnedSeven).2 = some after₂ ∧
    AttachedHides learnedSeven after₁ after₂ :=
  ⟨_, _, rfl, rfl, (responses_hide_iff filterOn_container).1 (attachedResponse [7, 9])
    (attachedResponse [8, 7]) _ _
    ⟨rmEligible_attachedResponse _, rmEligible_attachedResponse _, by decide +kernel, by decide +kernel⟩
    (by decide +kernel) (by decide +kernel) rfl rfl⟩

theorem rmEligible_activeResponse (gpuIds : List UInt32) :
    RmEligible (Layouts.nvos54Parameters.get (activeResponse gpuIds).mem) := by
  have hmem : (activeResponse gpuIds).mem = (activeResponse []).mem := rfl
  rw [hmem]
  refine ⟨?_, ?_, Or.inr ?_⟩ <;> decide +kernel

/-- The record of the other device is still in its place. -/
theorem not_responses_hide :
    ¬ ∀ (cfg : Option Config) (allowed : Option AllowedGpus) (learned : LearnedIds), FilterOn cfg allowed →
      (∀ arg₁ arg₂ after₁ after₂, Rivals cmdGpuGetAttachedIds arg₁ arg₂ →
        keptIds learned arg₁ = keptIds learned arg₂ → keptIds learned arg₁ ≠ [] →
        (ioctlFilterAfter cfg allowed rmControlRequest (some arg₁) 0 learned).2 = some after₁ →
        (ioctlFilterAfter cfg allowed rmControlRequest (some arg₂) 0 learned).2 = some after₂ →
        AttachedHides learned after₁ after₂) ∧
      ∀ arg₁ arg₂ after₁ after₂, Rivals cmdGpuGetActiveDeviceIds arg₁ arg₂ →
        (∀ arg ∈ [arg₁, arg₂],
          (Layouts.activeDeviceIdsParams.get arg.params).numDevices.toNat ≤ maxActiveDevices) →
        keptDevices learned arg₁ = keptDevices learned arg₂ → keptDevices learned arg₁ ≠ [] →
        (ioctlFilterAfter cfg allowed rmControlRequest (some arg₁) 0 learned).2 = some after₁ →
        (ioctlFilterAfter cfg allowed rmControlRequest (some arg₂) 0 learned).2 = some after₂ →
        ActiveHides learned after₁ after₂ := by
  intro h
  have hactive := (h _ _ learnedSeven filterOn_container).2 (activeResponse [7, 9]) (activeResponse [7, 8]) _ _
    ⟨rmEligible_activeResponse _, rmEligible_activeResponse _, by decide +kernel, by decide +kernel⟩
    (by decide +kernel) (by decide +kernel) (by decide +kernel) rfl rfl
  have hsame := (active_hides_iff filterOn_container
    ⟨rmEligible_activeResponse _, rmEligible_activeResponse _, by decide +kernel, by decide +kernel⟩
    (by decide +kernel) (by decide +kernel) rfl rfl).mp hactive
  revert hsame
  decide +kernel

end Nvscope
