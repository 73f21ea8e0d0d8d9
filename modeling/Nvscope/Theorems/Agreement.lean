import Nvscope.Lemmas.FilterLoop
import Nvscope.Lemmas.Normalize

/-!
# Listings and lookups

A listing is filtered by the names of its entries, a lookup by the bus id cut out of a path, for which there
is a buffer of 32 bytes. Up to that length both hide the same GPUs.
-/

namespace Nvscope

open Lib DirentRecord

/-- A name an entry of a directory can have, other than `.` and `..`. -/
structure IsEntryName (n : CStr) : Prop where
  pos : 0 < n.length
  le : n.length ≤ 255
  noSlash : slash ∉ n
  noNul : (0 : UInt8) ∉ n
  ne_dot : n ≠ dot
  ne_dotdot : n ≠ dotdot

theorem IsEntryName.ne_nil {n : CStr} (h : IsEntryName n) : n ≠ [] :=
  List.ne_nil_of_length_pos h.pos

/-- The bus id of an allowed GPU. -/
def IsAllowedBus (a : AllowedGpus) (n : CStr) : Prop :=
  ∃ g ∈ a.gpus, g.busId = n

/-! ## Listings -/

/-- After the filter has run on the listing, the record is still in the buffer. -/
def FilterKeeps (a : AllowedGpus) (rs : List DirentRecord) (r : DirentRecord) : Prop :=
  ∃ buffer ret, filterDirent64Buffer (encode rs) (encode rs).length (some a) = some (buffer, ret) ∧
    r.bytes ∈ readRecords (buffer.take ret.toNat)

theorem filterKeeps_iff {a : AllowedGpus} (ha : a.valid = true) {rs : List DirentRecord} {r : DirentRecord}
    (hsteady : Steady a 0 rs) (hr : r ∈ rs) : FilterKeeps a rs r ↔ r.keep a = true := by
  obtain ⟨junk, hfilter⟩ := filterDirent64Buffer_steady ha [] hsteady
  rw [List.append_nil, List.append_nil] at hfilter
  have hmem : r.bytes ∈ readRecords ((encode (rs.filter (keep a)) ++ junk).take
      ((encode (rs.filter (keep a))).length : Int).toNat) ↔ r.keep a = true := by
    rw [Int.toNat_natCast, List.take_left' rfl, readRecords_encode, List.mem_map]
    constructor
    · rintro ⟨r', hr', hbytes⟩
      rw [← keep_congr hbytes]
      exact (List.mem_filter.mp hr').2
    · intro hkeep
      exact ⟨r, List.mem_filter.mpr ⟨hr, hkeep⟩, rfl⟩
  constructor
  · rintro ⟨buffer, ret, hrun, hread⟩
    rw [hfilter, Option.some.injEq, Prod.mk.injEq] at hrun
    obtain ⟨rfl, rfl⟩ := hrun
    exact hmem.mp hread
  · intro hkeep
    exact ⟨_, _, hfilter, hmem.mpr hkeep⟩

theorem keepName_entry {a : AllowedGpus} (ha : a.valid = true) {n : CStr} (hn : IsEntryName n) :
    keepName a n = true ↔ IsAllowedBus a n := by
  rw [keepName_iff ha]
  constructor
  · rintro (hdot | hdots | ⟨-, hg⟩)
    · exact absurd hdot hn.ne_dot
    · exact absurd hdots hn.ne_dotdot
    · exact hg
  · intro hg
    exact Or.inr (Or.inr ⟨hn.ne_nil, hg⟩)

theorem readdirEntryAllowed_entry {sh : Shim} (hready : sh.procFilterReady = true)
    (hvalid : sh.allowed.valid = true) {dirfd : Int} (htracked : sh.trackedAs dirfd .procGpusDir = true)
    {n : CStr} (hn : IsEntryName n) :
    readdirEntryAllowed sh dirfd (some n) = true ↔ IsAllowedBus sh.allowed n := by
  have hcond : (!sh.procFilterReady || decide (some n = none) || !sh.trackedAs dirfd .procGpusDir ||
      decide (some n = some dot) || decide (some n = some dotdot)) = false := by
    simp [hready, htracked, hn.ne_dot, hn.ne_dotdot]
  rw [readdirEntryAllowed, hcond, if_neg Bool.false_ne_true, allowedContainsBus_iff]
  exact ⟨fun h => h.2.2, fun h => ⟨hvalid, hn.ne_nil, h⟩⟩

/-! ## Lookups -/

/-- The shim has refused the call itself. -/
def Reply.Denied {K α : Type} (r : Reply K α) : Prop :=
  r.errno = some .enoent

section

variable {K β : Type} (sh : Shim) (path : Option CStr) (os : K)

theorem openCommon_denied (real real64 : Option (RealOpen K)) (use64 : Bool) (args : OpenArgs) :
    (openCommon real real64 use64 path args sh os).Denied ↔ procDenied sh path = true := by
  unfold openCommon Reply.Denied
  by_cases hdenied : procDenied sh path = true
  · simp [hdenied]
  · cases (if use64 then real64.or real else real) <;> simp [hdenied]

theorem openatCommon_denied (real real64 : Option (RealOpenat K)) (use64 : Bool) (dirfd : Int)
    (args : OpenArgs) :
    (openatCommon real real64 use64 dirfd path args sh os).Denied ↔
      procDenied sh (effectiveOpenatPath sh dirfd path pathMax) = true := by
  unfold openatCommon Reply.Denied
  by_cases hdenied : procDenied sh (effectiveOpenatPath sh dirfd path pathMax) = true
  · simp [hdenied]
  · cases (if use64 then real64.or real else real) <;> simp [hdenied]

theorem stat_denied (real : Option (Option CStr → β → K → (Int × β) × K)) (statbuf : β) :
    (stat real path statbuf sh os).Denied ↔ procDenied sh path = true := by
  unfold stat Reply.Denied
  by_cases hdenied : procDenied sh path = true
  · simp [hdenied]
  · cases real <;> simp [hdenied]

theorem newfstatat_denied (real : Option (Int → Option CStr → β → UInt32 → K → (Int × β) × K)) (dirfd : Int)
    (statbuf : β) (flags : UInt32) :
    (newfstatat real dirfd path statbuf flags sh os).Denied ↔
      procDenied sh (effectiveOpenatPath sh dirfd path pathMax) = true := by
  unfold newfstatat Reply.Denied
  by_cases hdenied : procDenied sh (effectiveOpenatPath sh dirfd path pathMax) = true
  · simp [hdenied]
  · cases real <;> simp [hdenied]

end

/-- The four lookups of the information file of `n`, by its path and relative to a descriptor, are let through
exactly where `P` holds. -/
structure LookupsShow (sh : Shim) (dirfd : Int) (n : CStr) (P : Prop) : Prop where
  openPath : ∀ {K : Type} (real real64 : Option (RealOpen K)) (use64 : Bool) (args : OpenArgs) (os : K),
    ¬ (openCommon real real64 use64 (some (informationPath n)) args sh os).Denied ↔ P
  statPath : ∀ {K β : Type} (real : Option (Option CStr → β → K → (Int × β) × K)) (statbuf : β) (os : K),
    ¬ (stat real (some (informationPath n)) statbuf sh os).Denied ↔ P
  openatPath : ∀ {K : Type} (real real64 : Option (RealOpenat K)) (use64 : Bool) (args : OpenArgs) (os : K),
    ¬ (openatCommon real real64 use64 dirfd (some (n ++ informationSuffix)) args sh os).Denied ↔ P
  newfstatatPath : ∀ {K β : Type} (real : Option (Int → Option CStr → β → UInt32 → K → (Int × β) × K))
    (statbuf : β) (flags : UInt32) (os : K),
    ¬ (newfstatat real dirfd (some (n ++ informationSuffix)) statbuf flags sh os).Denied ↔ P

theorem procDenied_entry {sh : Shim} (hready : sh.procFilterReady = true) (hvalid : sh.allowed.valid = true)
    {n : CStr} (hn : IsEntryName n) :
    procDenied sh (some (informationPath n)) = true ↔
      ¬ (IsAllowedBus sh.allowed n ∨ procBusIdMax ≤ n.length) := by
  have habs : pathIsAbsolute (some (informationPath n)) = true := by
    simp [pathIsAbsolute, head_informationPath]
  rw [procDenied, hready, habs, Bool.true_and, Bool.true_and, beq_iff_eq, not_or, Nat.not_le]
  constructor
  · intro hdeny
    obtain ⟨-, b, hpath, -, hlt, -, hno⟩ := procPathAllowed_eq_deny.mp hdeny
    have hb : n = b := by simpa [informationPath] using hpath
    subst hb
    refine ⟨?_, hlt⟩
    rintro ⟨g, hg, hbus⟩
    exact hno g hg hbus
  · rintro ⟨hno, hlt⟩
    exact (procPathAllowed_informationPath hn.pos hlt hn.noSlash).mpr
      ⟨hvalid, fun g hg hbus => hno ⟨g, hg, hbus⟩⟩

/-- Relative to the directory the answer is the same: where the rewritten path does not fit into its buffer,
the bus id does not fit into its own either. -/
theorem procDenied_effective {sh : Shim} {dirfd : Int} (htracked : sh.trackedAs dirfd .procGpusDir = true)
    (hready : sh.procFilterReady = true) (hvalid : sh.allowed.valid = true) {n : CStr} (hn : IsEntryName n) :
    procDenied sh (effectiveOpenatPath sh dirfd (some (n ++ informationSuffix)) pathMax) =
      procDenied sh (some (informationPath n)) := by
  rw [effectiveOpenatPath_information htracked hn.ne_nil hn.noSlash hn.ne_dot hn.ne_dotdot]
  by_cases hfits : (informationPath n).length < pathMax
  · rw [if_pos hfits]
  · have hlong : procBusIdMax ≤ n.length := by
      by_contra hshort
      exact hfits (length_informationPath_lt (Nat.lt_of_not_le hshort))
    have hrel : procDenied sh (some (n ++ informationSuffix)) = false := by
      have habs : pathIsAbsolute (some (n ++ informationSuffix)) = false := by
        simpa only [pathIsAbsolute, beq_eq_false_iff_ne] using
          head_append_informationSuffix hn.ne_nil hn.noSlash
      rw [procDenied, habs, Bool.and_false, Bool.false_and]
    have hshown : ¬ procDenied sh (some (informationPath n)) = true := by
      rw [procDenied_entry hready hvalid hn, not_not]
      exact Or.inr hlong
    rw [if_neg hfits, hrel, Bool.eq_false_of_not_eq_true hshown]

theorem lookupsShow_entry {sh : Shim} {dirfd : Int} (htracked : sh.trackedAs dirfd .procGpusDir = true)
    (hready : sh.procFilterReady = true) (hvalid : sh.allowed.valid = true) {n : CStr} (hn : IsEntryName n) :
    LookupsShow sh dirfd n (IsAllowedBus sh.allowed n ∨ procBusIdMax ≤ n.length) := by
  have hpath := procDenied_entry hready hvalid hn
  have heffective := procDenied_effective htracked hready hvalid hn
  constructor
  · intro K real real64 use64 args os
    rw [openCommon_denied, hpath, not_not]
  · intro K β real statbuf os
    rw [stat_denied, hpath, not_not]
  · intro K real real64 use64 args os
    rw [openatCommon_denied, heffective, hpath, not_not]
  · intro K β real statbuf flags os
    rw [newfstatat_denied, heffective, hpath, not_not]

/-! ## Agreement -/

/-- A listing, filtered at once or by `readdir`, shows the allowed GPUs; a lookup shows these and the names
too long for a bus id. -/
theorem listing_lookup {sh : Shim} (hready : sh.procFilterReady = true) (hvalid : sh.allowed.valid = true)
    {dirfd : Int} (htracked : sh.trackedAs dirfd .procGpusDir = true) {n : CStr} (hn : IsEntryName n) :
    (∀ rs r, Steady sh.allowed 0 rs → r ∈ rs → r.name = n →
      (FilterKeeps sh.allowed rs r ↔ IsAllowedBus sh.allowed n)) ∧
    (readdirEntryAllowed sh dirfd (some n) = true ↔ IsAllowedBus sh.allowed n) ∧
    LookupsShow sh dirfd n (IsAllowedBus sh.allowed n ∨ procBusIdMax ≤ n.length) := by
  refine ⟨fun rs r hsteady hr hname => ?_, readdirEntryAllowed_entry hready hvalid htracked hn,
    lookupsShow_entry htracked hready hvalid hn⟩
  rw [filterKeeps_iff hvalid hsteady hr, DirentRecord.keep, hname, keepName_entry hvalid hn]

/-- The container, with the directory of the GPUs open as descriptor 3. -/
def browsing : Shim :=
  traceAndTrackOpen (some gpusDir) 3 container

theorem tracked_browsing : browsing.trackedAs 3 .procGpusDir = true := by
  decide +kernel

theorem listing_lookup_container :
    (∀ rs r, Steady browsing.allowed 0 rs → r ∈ rs → r.name = ascii "0000:05:00.0" →
      (FilterKeeps browsing.allowed rs r ↔ IsAllowedBus browsing.allowed (ascii "0000:05:00.0"))) ∧
    (readdirEntryAllowed browsing 3 (some (ascii "0000:05:00.0")) = true ↔
      IsAllowedBus browsing.allowed (ascii "0000:05:00.0")) ∧
    LookupsShow browsing 3 (ascii "0000:05:00.0")
      (IsAllowedBus browsing.allowed (ascii "0000:05:00.0") ∨
        procBusIdMax ≤ (ascii "0000:05:00.0").length) :=
  listing_lookup (by decide +kernel) (by decide +kernel) tracked_browsing
    ⟨by decide, by decide, by decide, by decide, by decide, by decide⟩

/-- A name of 32 bytes. -/
def longName : CStr :=
  List.replicate procBusIdMax 65

/-- It is hidden in a listing and shown by a lookup. -/
theorem not_listing_lookup :
    ¬ ∀ (sh : Shim) (dirfd : Int) (n : CStr), sh.procFilterReady = true → sh.allowed.valid = true →
      sh.trackedAs dirfd .procGpusDir = true → IsEntryName n →
      (∀ rs r, Steady sh.allowed 0 rs → r ∈ rs → r.name = n →
        (FilterKeeps sh.allowed rs r ↔ readdirEntryAllowed sh dirfd (some n) = true)) ∧
      LookupsShow sh dirfd n (readdirEntryAllowed sh dirfd (some n) = true) := by
  intro h
  have hlookup := (h browsing 3 longName (by decide +kernel) (by decide +kernel) tracked_browsing
    ⟨by decide, by decide, by decide, by decide, by decide, by decide⟩).2.statPath (K := Unit) none () ()
  rw [stat_denied] at hlookup
  revert hlookup
  decide +kernel

end Nvscope
