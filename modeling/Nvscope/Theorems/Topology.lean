import Mathlib.Data.List.TFAE
import Mathlib.Tactic.TFAE
import Nvscope.Lemmas.FilterLoop
import Nvscope.Lemmas.Selection
import Nvscope.Theorems.Learning

/-!
# All views of the topology agree

The filters know a GPU by its bus id, by its minor or by its opaque id. On a host whose GPUs differ in all
three they describe one set, the selected GPUs, with one exception: the dirent filter does so on steady
listings only.
-/

namespace Nvscope

open Lib DirentRecord

structure HostGpu where
  minor : Int32
  busId : CStr
  uuid : CStr
  gpuId : UInt32
  deriving DecidableEq

def HostGpu.info (g : HostGpu) : GpuInfo :=
  ⟨true, g.minor, g.busId, g.uuid⟩

/-- A host of at most 32 GPUs, distinct in minor, bus id and opaque id. -/
structure Topology where
  gpus : List HostGpu
  count_le : gpus.length ≤ maxGpus
  minors : (gpus.map HostGpu.minor).Nodup
  minor_nonneg : ∀ g ∈ gpus, 0 ≤ g.minor
  busIds : (gpus.map HostGpu.busId).Nodup
  isBusId : ∀ g ∈ gpus, IsBusId g.busId ∧ g.busId ≠ dot ∧ g.busId ≠ dotdot
  gpuIds : (gpus.map HostGpu.gpuId).Nodup
  gpuId_valid : ∀ g ∈ gpus, g.gpuId ≠ invalidId

/-- What the host answers about its GPUs, in orders of its own: the infos, a directory listing, and the
responses of the driver. -/
structure HostAnswers (t : Topology) where
  infos : List GpuInfo
  infos_perm : infos.Perm (t.gpus.map HostGpu.info)
  listing : List DirentRecord
  cards : IoctlArg
  cards_perm : (((Layouts.cards.get cards.mem).toList.filter (·.valid ≠ 0)).map
    fun c => (c.gpuId, c.minorNumber)).Perm (t.gpus.map fun g => (g.gpuId, g.minor.toUInt32))
  attached : IoctlArg
  attached_eligible : RmEligible (Layouts.nvos54Parameters.get attached.mem)
  attached_cmd : (Layouts.nvos54Parameters.get attached.mem).cmd = cmdGpuGetAttachedIds
  attached_all : ∀ g ∈ t.gpus, g.gpuId ∈ attachedList attached.params
  active : IoctlArg
  active_eligible : RmEligible (Layouts.nvos54Parameters.get active.mem)
  active_cmd : (Layouts.nvos54Parameters.get active.mem).cmd = cmdGpuGetActiveDeviceIds
  active_all : ∀ g ∈ t.gpus, ∃ d ∈ activeList active.params, d.gpuId = g.gpuId

/-! ## The allowed set -/

section

variable {t : Topology} {mountedMinors : List Int32} {explicitUuid : Option CStr} {infos : List GpuInfo}

theorem mem_allowed_iff (hinfos : infos.Perm (t.gpus.map HostGpu.info)) {info : GpuInfo} :
    info ∈ (buildAllowedGpus infos mountedMinors explicitUuid).gpus ↔
      ∃ g ∈ t.gpus, g.info = info ∧ Selected mountedMinors explicitUuid g.info := by
  have hlen : (selected infos mountedMinors explicitUuid).length ≤ maxGpus := by
    refine (List.length_filter_le _ _).trans ?_
    rw [hinfos.length_eq, List.length_map]
    exact t.count_le
  rw [buildAllowedGpus_gpus, List.take_of_length_le hlen, selected, List.mem_filter, hinfos.mem_iff,
    List.mem_map, decide_eq_true_iff]
  constructor
  · rintro ⟨⟨g, hg, rfl⟩, hsel⟩
    exact ⟨g, hg, rfl, hsel⟩
  · rintro ⟨g, hg, rfl, hsel⟩
    exact ⟨⟨g, hg, rfl⟩, hsel⟩

theorem allowed_valid (hinfos : infos.Perm (t.gpus.map HostGpu.info))
    (hsome : ∃ g ∈ t.gpus, Selected mountedMinors explicitUuid g.info) :
    (buildAllowedGpus infos mountedMinors explicitUuid).valid = true := by
  obtain ⟨g, hg, hsel⟩ := hsome
  refine (buildAllowedGpus_valid infos).mpr ⟨g.info, ?_, hsel⟩
  exact hinfos.mem_iff.mpr (List.mem_map_of_mem hg)

/-- By bus id, -/
theorem busId_allowed_iff (hinfos : infos.Perm (t.gpus.map HostGpu.info)) {g : HostGpu} (hg : g ∈ t.gpus) :
    (∃ info ∈ (buildAllowedGpus infos mountedMinors explicitUuid).gpus, info.busId = g.busId) ↔
      Selected mountedMinors explicitUuid g.info := by
  constructor
  · rintro ⟨info, hinfo, hbus⟩
    obtain ⟨g', hg', rfl, hsel⟩ := (mem_allowed_iff hinfos).mp hinfo
    obtain rfl := List.inj_on_of_nodup_map t.busIds hg' hg hbus
    exact hsel
  · intro hsel
    exact ⟨g.info, (mem_allowed_iff hinfos).mpr ⟨g, hg, rfl, hsel⟩, rfl⟩

/-- and by minor, the allowed set is the selection. -/
theorem minor_allowed_iff (hinfos : infos.Perm (t.gpus.map HostGpu.info))
    (hsome : ∃ g ∈ t.gpus, Selected mountedMinors explicitUuid g.info) {g : HostGpu} (hg : g ∈ t.gpus) :
    AllowedMinor (some (buildAllowedGpus infos mountedMinors explicitUuid)) g.minor.toUInt32 ↔
      Selected mountedMinors explicitUuid g.info := by
  have hself : g.minor.toInt = g.minor.toUInt32.toNat :=
    (toUInt32_eq_iff g.minor _).mp ⟨t.minor_nonneg g hg, rfl⟩
  constructor
  · rintro ⟨a, ha, -, info, hinfo, -, hminor⟩
    cases ha
    obtain ⟨g', hg', rfl, hsel⟩ := (mem_allowed_iff hinfos).mp hinfo
    have heq : g'.minor = g.minor := Int32.toInt_inj.mp (hminor.trans hself.symm)
    obtain rfl := List.inj_on_of_nodup_map t.minors hg' hg heq
    exact hsel
  · intro hsel
    exact ⟨_, rfl, allowed_valid hinfos hsome, g.info, (mem_allowed_iff hinfos).mpr ⟨g, hg, rfl, hsel⟩,
      rfl, hself⟩

end

/-! ## The views -/

namespace HostAnswers

variable {t : Topology} (h : HostAnswers t) (cfg : Config) (mountedMinors : List Int32)
  (explicitUuid : Option CStr)

def allowed : AllowedGpus :=
  buildAllowedGpus h.infos mountedMinors explicitUuid

def learned : LearnedIds :=
  learnedFrom cfg (h.allowed mountedMinors explicitUuid) [h.cards]

/-- A reader of the filtered listing finds the record. -/
def ListingShows (r : DirentRecord) : Prop :=
  ∃ buffer n, filterDirent64Buffer (encode h.listing) (encode h.listing).length
      (some (h.allowed mountedMinors explicitUuid)) = some (buffer, n) ∧
    r.bytes ∈ readRecords (buffer.take n.toNat)

/-- The card with the id is still valid in the CARD_INFO response. -/
def CardsShow (gpuId : UInt32) : Prop :=
  ∃ shown, (cardInfoCall cfg (h.allowed mountedMinors explicitUuid) h.cards).answer LearnedIds.empty =
      some shown ∧
    ∃ i, ((Layouts.cards.get h.cards.mem).get i).valid ≠ 0 ∧
      ((Layouts.cards.get h.cards.mem).get i).gpuId = gpuId ∧
      ((Layouts.cards.get shown.mem).get i).valid ≠ 0

def AttachedShows (gpuId : UInt32) : Prop :=
  ∃ after, (rmControlCall cfg (h.allowed mountedMinors explicitUuid) h.attached).answer
      (h.learned cfg mountedMinors explicitUuid) = some after ∧
    gpuId ∈ attachedList after.params

def ActiveShows (gpuId : UInt32) : Prop :=
  ∃ after, (rmControlCall cfg (h.allowed mountedMinors explicitUuid) h.active).answer
      (h.learned cfg mountedMinors explicitUuid) = some after ∧
    ∃ d ∈ activeList after.params, d.gpuId = gpuId

variable {h cfg mountedMinors explicitUuid} {g : HostGpu}

theorem exists_card (hg : g ∈ t.gpus) : ∃ i, ((Layouts.cards.get h.cards.mem).get i).valid ≠ 0 ∧
    ((Layouts.cards.get h.cards.mem).get i).gpuId = g.gpuId ∧
    ((Layouts.cards.get h.cards.mem).get i).minorNumber = g.minor.toUInt32 := by
  have hmem := h.cards_perm.mem_iff.mpr (List.mem_map_of_mem (f := fun g => (g.gpuId, g.minor.toUInt32)) hg)
  obtain ⟨c, hc, heq⟩ := List.mem_map.mp hmem
  obtain ⟨hc, hvalid⟩ := List.mem_filter.mp hc
  obtain ⟨i, rfl⟩ := (List.Vector.mem_iff_get c _).mp hc
  rw [Prod.mk.injEq] at heq
  exact ⟨i, of_decide_eq_true hvalid, heq.1, heq.2⟩

theorem minor_of_card (hg : g ∈ t.gpus) {c : CardInfo} (hc : c ∈ (Layouts.cards.get h.cards.mem).toList)
    (hvalid : c.valid ≠ 0) (hid : c.gpuId = g.gpuId) : c.minorNumber = g.minor.toUInt32 := by
  have hmem := h.cards_perm.mem_iff.mp
    (List.mem_map_of_mem (List.mem_filter.mpr ⟨hc, decide_eq_true hvalid⟩))
  obtain ⟨g', hg', heq⟩ := List.mem_map.mp hmem
  rw [Prod.mk.injEq] at heq
  obtain rfl := List.inj_on_of_nodup_map t.gpuIds hg' hg (heq.1.trans hid)
  exact heq.2.symm

variable (hcfg : cfg.ioctlFilterEnabled = true)
  (hsome : ∃ g ∈ t.gpus, Selected mountedMinors explicitUuid g.info)

include hsome

theorem listingShows_iff {r : DirentRecord} (hg : g ∈ t.gpus) (hr : r ∈ h.listing)
    (hname : r.name = g.busId)
    (hsteady : Steady (h.allowed mountedMinors explicitUuid) 0 h.listing) :
    h.ListingShows mountedMinors explicitUuid r ↔ Selected mountedMinors explicitUuid g.info := by
  have hvalid : (h.allowed mountedMinors explicitUuid).valid = true := allowed_valid h.infos_perm hsome
  obtain ⟨junk, hfilter⟩ := filterDirent64Buffer_steady hvalid [] hsteady
  rw [List.append_nil] at hfilter
  obtain ⟨hbus, hdot, hdotdot⟩ := t.isBusId g hg
  have hne : g.busId ≠ [] := List.ne_nil_of_length_pos hbus.nonempty
  have hkeep : r.keep (h.allowed mountedMinors explicitUuid) = true ↔
      Selected mountedMinors explicitUuid g.info := by
    rw [keep, keepName_iff hvalid, hname, ← busId_allowed_iff h.infos_perm hg]
    simp [Visible, hdot, hdotdot, hne, allowed]
  rw [← hkeep]
  constructor
  · rintro ⟨buffer, n, hrun, hmem⟩
    rw [hfilter, Option.some.injEq, Prod.mk.injEq] at hrun
    obtain ⟨rfl, rfl⟩ := hrun
    rw [Int.toNat_natCast, List.take_left' rfl, readRecords_encode] at hmem
    obtain ⟨r', hr', hbytes⟩ := List.mem_map.mp hmem
    have hkeep' := (List.mem_filter.mp hr').2
    rw [keep, DirentRecord.name, hbytes] at hkeep'
    exact hkeep'
  · intro hk
    refine ⟨_, _, hfilter, ?_⟩
    rw [Int.toNat_natCast, List.take_left' rfl, readRecords_encode]
    exact List.mem_map_of_mem (List.mem_filter.mpr ⟨hr, hk⟩)

theorem not_denied_iff (hg : g ∈ t.gpus) :
    procPathAllowed (some (h.allowed mountedMinors explicitUuid)) (some (informationPath g.busId)) ≠ .deny ↔
      Selected mountedMinors explicitUuid g.info := by
  obtain ⟨hbus, -, -⟩ := t.isBusId g hg
  rw [ne_eq, procPathAllowed_informationPath hbus.nonempty hbus.short hbus.noSlash,
    ← busId_allowed_iff h.infos_perm hg]
  constructor
  · intro hno
    by_contra hnone
    exact hno ⟨allowed_valid h.infos_perm hsome, fun info hinfo heq => hnone ⟨info, hinfo, heq⟩⟩
  · rintro ⟨info, hinfo, heq⟩ ⟨-, hno⟩
    exact hno info hinfo heq

include hcfg

theorem cardsShow_iff (hg : g ∈ t.gpus) :
    h.CardsShow cfg mountedMinors explicitUuid g.gpuId ↔ Selected mountedMinors explicitUuid g.info := by
  have hvalid : (h.allowed mountedMinors explicitUuid).valid = true := allowed_valid h.infos_perm hsome
  rw [← minor_allowed_iff h.infos_perm hsome hg]
  constructor
  · rintro ⟨shown, hshown, i, hi, hid, hleft⟩
    have hminor := minor_of_card hg (List.Vector.get_mem i _) hi hid
    rw [← hminor]
    exact (valid_answer_cardInfoCall hcfg hvalid hshown hi).mp hleft
  · intro hm
    obtain ⟨i, hi, hid, hminor⟩ := exists_card (h := h) hg
    obtain ⟨shown, hshown⟩ : ∃ shown, (cardInfoCall cfg (h.allowed mountedMinors explicitUuid)
        h.cards).answer LearnedIds.empty = some shown := by
      rw [IoctlCall.answer, cardInfoCall, ioctlFilterAfter_cardInfo (by simp [requestIsCardInfo])]
      exact ⟨_, rfl⟩
    refine ⟨shown, hshown, i, hi, hid, (valid_answer_cardInfoCall hcfg hvalid hshown hi).mpr ?_⟩
    rw [hminor]
    exact hm

omit hcfg in
theorem mem_learned_iff (hg : g ∈ t.gpus) :
    g.gpuId ∈ (h.learned cfg mountedMinors explicitUuid).ids ↔
      Selected mountedMinors explicitUuid g.info := by
  have hlen : (reportedIds (some (h.allowed mountedMinors explicitUuid))
      (Layouts.cards.get h.cards.mem).toList).length ≤ maxGpus := by
    refine (List.length_filter_le _ _).trans ?_
    rw [List.length_map]
    refine (List.length_filter_le _ _).trans ?_
    rw [List.Vector.toList_length]
    decide
  have hids : (h.learned cfg mountedMinors explicitUuid).ids =
      (reportedIds (some (h.allowed mountedMinors explicitUuid))
        (Layouts.cards.get h.cards.mem).toList).foldl (remember maxGpus) [] := by
    rw [learned, ids_learnedFrom, foldl_remember_nil]
    simp [reports]
  rw [hids, mem_foldl_remember (by simpa using hlen), mem_reportedIds,
    ← minor_allowed_iff h.infos_perm hsome hg]
  constructor
  · rintro (hnil | ⟨c, hc, hv, hm, hid, -⟩)
    · cases hnil
    · rw [← minor_of_card hg hc hv hid]
      exact hm
  · intro hm
    obtain ⟨i, hi, hid, hminor⟩ := exists_card (h := h) hg
    exact Or.inr ⟨_, List.Vector.get_mem i _, hi, by rw [hminor]; exact hm, hid, t.gpuId_valid g hg⟩

theorem filterOn : FilterOn (some cfg) (some (h.allowed mountedMinors explicitUuid)) :=
  ⟨⟨cfg, rfl, hcfg⟩, ⟨_, rfl, allowed_valid h.infos_perm hsome⟩⟩

theorem attachedShows_iff (hg : g ∈ t.gpus) :
    h.AttachedShows cfg mountedMinors explicitUuid g.gpuId ↔
      Selected mountedMinors explicitUuid g.info := by
  have hon := filterOn (h := h) hcfg hsome
  obtain ⟨g₀, hg₀, hsel₀⟩ := hsome
  have hkept : (attachedList h.attached.params).filter
      (· ∈ (h.learned cfg mountedMinors explicitUuid).ids) ≠ [] :=
    List.ne_nil_of_mem (List.mem_filter.mpr ⟨h.attached_all g₀ hg₀,
      decide_eq_true ((mem_learned_iff ⟨g₀, hg₀, hsel₀⟩ hg₀).mpr hsel₀)⟩)
  rw [← @mem_learned_iff t h cfg _ _ g ⟨g₀, hg₀, hsel₀⟩ hg]
  constructor
  · rintro ⟨after, hafter, hmem⟩
    rw [attachedList_response hon h.attached_eligible h.attached_cmd hkept hafter] at hmem
    exact of_decide_eq_true (List.mem_filter.mp hmem).2
  · intro hmem
    obtain ⟨after, hafter, -⟩ := attached_response_eq (h.learned cfg mountedMinors explicitUuid) hon
      h.attached_eligible h.attached_cmd
    refine ⟨after, hafter, ?_⟩
    rw [attachedList_response hon h.attached_eligible h.attached_cmd hkept hafter]
    exact List.mem_filter.mpr ⟨h.attached_all g hg, decide_eq_true hmem⟩

theorem activeShows_iff (hg : g ∈ t.gpus) :
    h.ActiveShows cfg mountedMinors explicitUuid g.gpuId ↔
      Selected mountedMinors explicitUuid g.info := by
  have hon := filterOn (h := h) hcfg hsome
  obtain ⟨g₀, hg₀, hsel₀⟩ := hsome
  obtain ⟨d₀, hd₀, hid₀⟩ := h.active_all g₀ hg₀
  have hkept : (activeList h.active.params).filter
      (·.gpuId ∈ (h.learned cfg mountedMinors explicitUuid).ids) ≠ [] := by
    refine List.ne_nil_of_mem (List.mem_filter.mpr ⟨hd₀, decide_eq_true ?_⟩)
    rw [hid₀]
    exact (mem_learned_iff ⟨g₀, hg₀, hsel₀⟩ hg₀).mpr hsel₀
  obtain ⟨after, hafter, hdev⟩ := active_response_eq (h.learned cfg mountedMinors explicitUuid) hon
    h.active_eligible h.active_cmd
  have hlist : activeList after.params = (activeList h.active.params).filter
      (·.gpuId ∈ (h.learned cfg mountedMinors explicitUuid).ids) := by
    rw [activeList, hdev, listed_filterActiveDevices]
    exact if_neg hkept
  rw [← @mem_learned_iff t h cfg _ _ g ⟨g₀, hg₀, hsel₀⟩ hg]
  constructor
  · rintro ⟨after', hafter', d, hd, hid⟩
    obtain rfl : after' = after := Option.some.inj (hafter'.symm.trans hafter)
    rw [hlist] at hd
    rw [← hid]
    exact of_decide_eq_true (List.mem_filter.mp hd).2
  · intro hmem
    obtain ⟨d, hd, hid⟩ := h.active_all g hg
    refine ⟨after, hafter, d, ?_, hid⟩
    rw [hlist]
    exact List.mem_filter.mpr ⟨hd, decide_eq_true (by rw [hid]; exact hmem)⟩

end HostAnswers

/-- On every host, for every GPU: it is selected, its information path is not denied, its card stays valid,
its id stays in the attached response and in the active one, all or none of these. In a steady listing its
entry is found by a reader of the filtered listing if and only if it is selected. -/
theorem topology_views_agree {t : Topology} (h : HostAnswers t) {cfg : Config} {mountedMinors : List Int32}
    {explicitUuid : Option CStr} (hcfg : cfg.ioctlFilterEnabled = true)
    (hsome : ∃ g ∈ t.gpus, Selected mountedMinors explicitUuid g.info) {g : HostGpu} (hg : g ∈ t.gpus) :
    List.TFAE [Selected mountedMinors explicitUuid g.info,
      procPathAllowed (some (h.allowed mountedMinors explicitUuid)) (some (informationPath g.busId)) ≠ .deny,
      h.CardsShow cfg mountedMinors explicitUuid g.gpuId,
      h.AttachedShows cfg mountedMinors explicitUuid g.gpuId,
      h.ActiveShows cfg mountedMinors explicitUuid g.gpuId] ∧
    (Steady (h.allowed mountedMinors explicitUuid) 0 h.listing → ∀ r ∈ h.listing, r.name = g.busId →
      (h.ListingShows mountedMinors explicitUuid r ↔ Selected mountedMinors explicitUuid g.info)) := by
  refine ⟨?_, fun hsteady r hr hname => HostAnswers.listingShows_iff hsome hg hr hname hsteady⟩
  tfae_have 2 ↔ 1 := HostAnswers.not_denied_iff hsome hg
  tfae_have 3 ↔ 1 := HostAnswers.cardsShow_iff hcfg hsome hg
  tfae_have 4 ↔ 1 := HostAnswers.attachedShows_iff hcfg hsome hg
  tfae_have 5 ↔ 1 := HostAnswers.activeShows_iff hcfg hsome hg
  tfae_finish

/-! ## A host with a long bus id -/

/-- The GPU whose record is so long that its end overlaps its old place after a short move. -/
def longBusId : CStr := ascii "bbbbbbbbbbbbbbbbbbbbbH"

def longHost : Topology where
  gpus := [⟨0, ascii "a", [], 10⟩, ⟨1, longBusId, [], 11⟩, ⟨2, ascii "c", [], 12⟩]
  count_le := by decide
  minors := by decide
  minor_nonneg := by decide
  busIds := by decide
  isBusId := by
    intro g hg
    simp only [List.mem_cons, List.not_mem_nil, or_false] at hg
    rcases hg with rfl | rfl | rfl <;> exact ⟨⟨by decide, by decide, by decide⟩, by decide, by decide⟩
  gpuIds := by decide
  gpuId_valid := by decide

def longAnswers : HostAnswers longHost where
  infos := longHost.gpus.map HostGpu.info
  infos_perm := List.Perm.refl _
  listing := [direntOf (ascii "a") (by decide), direntOf longBusId (by decide),
    direntOf (ascii "c") (by decide)]
  cards := cardResponse [card 1 10 0, card 1 11 1, card 1 12 2]
  cards_perm := by decide +kernel
  attached := attachedResponse [10, 11, 12]
  attached_eligible := rmEligible_attachedResponse _
  attached_cmd := by decide +kernel
  attached_all := by decide +kernel
  active := activeResponse [10, 11, 12]
  active_eligible := by refine ⟨?_, ?_, Or.inr ?_⟩ <;> decide +kernel
  active_cmd := by decide +kernel
  active_all := by decide +kernel

/-- With only the first GPU mounted no kept record moves, and all views show that GPU. -/
theorem topology_views_agree_first :
    longAnswers.AttachedShows filterConfig [0] none 10 ∧
      longAnswers.ListingShows [0] none (direntOf (ascii "a") (by decide)) := by
  have hsome : ∃ g ∈ longHost.gpus, Selected [0] none g.info := by decide
  obtain ⟨htfae, hlisting⟩ := @topology_views_agree _ longAnswers filterConfig [0] none rfl hsome
    ⟨0, ascii "a", [], 10⟩ (by decide)
  exact ⟨(htfae.out 0 3).mp (by decide), (hlisting (by decide +kernel) _ List.mem_cons_self
    (by decide +kernel)).mpr (by decide)⟩

/-- With the other two mounted, the entry of the second is moved down by 24 bytes and its length read back as
72: the entry of the third is lost. -/
theorem topology_listing_loses :
    ¬ ∀ (t : Topology) (h : HostAnswers t) (cfg : Config) (mountedMinors : List Int32)
      (explicitUuid : Option CStr), cfg.ioctlFilterEnabled = true →
      (∃ g ∈ t.gpus, Selected mountedMinors explicitUuid g.info) →
      ∀ g ∈ t.gpus, ∀ r ∈ h.listing, r.name = g.busId →
        (Selected mountedMinors explicitUuid g.info ↔ h.ListingShows mountedMinors explicitUuid r) := by
  intro h
  obtain ⟨buffer, n, hrun, hmem⟩ := (h longHost longAnswers filterConfig [1, 2] none rfl (by decide)
    ⟨2, ascii "c", [], 12⟩ (by decide) (direntOf (ascii "c") (by decide))
    (by simp [longAnswers]) (by decide +kernel)).mp (by decide)
  have hlost : ((filterDirent64Buffer (encode longAnswers.listing) (encode longAnswers.listing).length
      (some (longAnswers.allowed [1, 2] none))).map fun p =>
        decide ((direntOf (ascii "c") (by decide)).bytes ∈ readRecords (p.1.take p.2.toNat))) =
      some false := by
    decide +kernel
  rw [hrun] at hlost
  simp [hmem] at hlost

end Nvscope
