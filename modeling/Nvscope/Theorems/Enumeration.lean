import Nvscope.Lemmas.FilterLoop
import Nvscope.Lemmas.Paths

/-!
# Listings read through `getdents64`

The kernel hands a listing out in buffers of its choice and ends it with a 0. The interposed call filters
each buffer and returns the length of what is left, which is 0 where nothing of the buffer is visible: a
caller takes that for the end of the directory.
-/

namespace Nvscope

open Lib DirentRecord

/-- One buffer the kernel fills: its records, and what the caller's buffer holds beyond them. -/
structure Chunk where
  records : List DirentRecord
  nonempty : records ≠ []
  beyond : List UInt8

/-- The kernel's side: one buffer a call, then 0. -/
def kernelGetdents (_fd : Int) (_count : Nat) : List Chunk → (Int × List UInt8) × List Chunk
  | [] => ((0, []), [])
  | c :: cs => (((encode c.records).length, encode c.records ++ c.beyond), cs)

/-- The caller's side: call until a call returns 0, at most `fuel` times; what was received, and what the
kernel has left. -/
def readAll (sh : Shim) (fd : Int) (count : Nat) : Nat → List Chunk → Option (List UInt8 × List Chunk)
  | 0, _ => none
  | fuel + 1, cs =>
      (getdents64 kernelGetdents fd count sh cs).bind fun r =>
        if r.value.1 = 0 then some ([], r.os)
        else (readAll sh fd count fuel r.os).map fun (bytes, cs) =>
          (r.value.2.take r.value.1.toNat ++ bytes, cs)

def visible (a : AllowedGpus) (rs : List DirentRecord) : List DirentRecord :=
  rs.filter fun r => Visible a r.name

variable {sh : Shim} {fd : Int} {count fuel : Nat} {c : Chunk} {cs : List Chunk}

theorem keep_eq_visible {a : AllowedGpus} (ha : a.valid = true) (r : DirentRecord) :
    r.keep a = decide (Visible a r.name) := by
  rw [Bool.eq_iff_iff, decide_eq_true_iff]
  exact keepName_iff ha

theorem encode_eq_nil {rs : List DirentRecord} : encode rs = [] ↔ rs = [] := by
  constructor
  · intro h
    have hle := length_le_encode rs
    rw [h] at hle
    exact List.eq_nil_of_length_eq_zero (by simpa using hle)
  · rintro rfl; rfl

/-- Step lemma: a call on a steady buffer returns its visible records. -/
theorem getdents64_chunk (hready : sh.procFilterReady = true) (hvalid : sh.allowed.valid = true)
    (htracked : sh.trackedAs fd .procGpusDir = true) (hsteady : Steady sh.allowed 0 c.records) :
    ∃ rest, getdents64 kernelGetdents fd count sh (c :: cs) =
      some ⟨((encode (visible sh.allowed c.records)).length,
        encode (visible sh.allowed c.records) ++ rest), none, sh, cs⟩ := by
  have hpos : 0 < (encode c.records).length :=
    List.length_pos_iff.mpr fun h => c.nonempty (encode_eq_nil.mp h)
  have hkeep : c.records.filter (keep sh.allowed) = visible sh.allowed c.records :=
    List.filter_congr fun r _ => keep_eq_visible hvalid r
  obtain ⟨junk, hfilter⟩ := filterDirent64Buffer_steady hvalid c.beyond hsteady
  rw [hkeep] at hfilter
  refine ⟨junk ++ c.beyond, ?_⟩
  have hcond : (decide (((encode c.records).length : Int) > 0) && sh.procFilterReady &&
      sh.trackedAs fd .procGpusDir) = true := by
    rw [hready, htracked]
    simpa using hpos
  simp only [getdents64, kernelGetdents, hfilter, Option.map_some]
  exact if_pos hcond

theorem getdents64_nil : getdents64 kernelGetdents fd count sh [] = some ⟨(0, []), none, sh, []⟩ := by
  simp [getdents64, kernelGetdents]

theorem readAll_nil : readAll sh fd count (fuel + 1) [] = some ([], []) := by
  simp [readAll, getdents64_nil]

/-- A buffer without a visible record ends the enumeration; any other is received. -/
theorem readAll_cons (hready : sh.procFilterReady = true) (hvalid : sh.allowed.valid = true)
    (htracked : sh.trackedAs fd .procGpusDir = true) (hsteady : Steady sh.allowed 0 c.records) :
    readAll sh fd count (fuel + 1) (c :: cs) =
      if visible sh.allowed c.records = [] then some ([], cs)
      else (readAll sh fd count fuel cs).map fun (bytes, cs) =>
        (encode (visible sh.allowed c.records) ++ bytes, cs) := by
  obtain ⟨rest, hcall⟩ := @getdents64_chunk sh fd count c cs hready hvalid htracked hsteady
  rw [readAll, hcall, Option.bind_some]
  by_cases hempty : visible sh.allowed c.records = []
  · simp [hempty]
  · have hne : ((encode (visible sh.allowed c.records)).length : Int) ≠ 0 := by
      simpa [encode_eq_nil] using hempty
    simp only [hne, hempty, ↓reduceIte, Int.toNat_natCast, List.take_left' rfl]

theorem visible_ne_nil {a : AllowedGpus} {rs : List DirentRecord} :
    visible a rs ≠ [] ↔ ∃ r ∈ rs, Visible a r.name := by
  simp [visible]

/-- Over steady buffers, a caller that calls until a call returns 0 receives exactly the visible records of
the listing, and leaves the kernel with none, if and only if every buffer but the last holds a visible
record. -/
theorem enumeration_complete_iff (hready : sh.procFilterReady = true) (hvalid : sh.allowed.valid = true)
    (htracked : sh.trackedAs fd .procGpusDir = true) (cs : List Chunk)
    (hsteady : ∀ c ∈ cs, Steady sh.allowed 0 c.records) :
    readAll sh fd count (cs.length + 1) cs =
        some (encode (visible sh.allowed (cs.flatMap Chunk.records)), []) ↔
      ∀ c ∈ cs.dropLast, ∃ r ∈ c.records, Visible sh.allowed r.name := by
  induction cs with
  | nil => simp [readAll_nil, visible]
  | cons c cs ih =>
      have hrest : ∀ c ∈ cs, Steady sh.allowed 0 c.records :=
        fun c' hc' => hsteady c' (List.mem_cons_of_mem _ hc')
      have hvisible : visible sh.allowed ((c :: cs).flatMap Chunk.records) =
          visible sh.allowed c.records ++ visible sh.allowed (cs.flatMap Chunk.records) := by
        simp [visible]
      rw [List.length_cons, readAll_cons hready hvalid htracked (hsteady c List.mem_cons_self), hvisible,
        encode_append]
      by_cases hempty : visible sh.allowed c.records = []
      · rw [if_pos hempty, hempty]
        cases cs with
        | nil => simp [visible]
        | cons c' cs =>
            have hno : ¬ ∃ r ∈ c.records, Visible sh.allowed r.name := fun h => visible_ne_nil.mpr h hempty
            rw [List.dropLast_cons_cons]
            simp [hno]
      · rw [if_neg hempty]
        have hyes : ∃ r ∈ c.records, Visible sh.allowed r.name := visible_ne_nil.mp hempty
        have hcancel : ((readAll sh fd count (cs.length + 1) cs).map fun (bytes, cs) =>
            (encode (visible sh.allowed c.records) ++ bytes, cs)) =
              some (encode (visible sh.allowed c.records) ++
                encode (visible sh.allowed (cs.flatMap Chunk.records)), []) ↔
            readAll sh fd count (cs.length + 1) cs =
              some (encode (visible sh.allowed (cs.flatMap Chunk.records)), []) := by
          cases readAll sh fd count (cs.length + 1) cs with
          | none => simp
          | some p => simp [Prod.ext_iff]
        rw [hcancel, ih hrest]
        cases cs with
        | nil => simp
        | cons c' cs =>
            rw [List.dropLast_cons_cons, List.forall_mem_cons]
            exact ⟨fun h => ⟨hyes, h⟩, fun h => h.2⟩

/-! ## The container reads its directory -/

def gpuChunk (busId : CStr) (h : busId.length ≤ 255) : Chunk :=
  ⟨[direntOf busId h], by simp, []⟩

def bus4 : Chunk := gpuChunk (ascii "0000:04:00.0") (by decide)

def bus5 : Chunk := gpuChunk (ascii "0000:05:00.0") (by decide)

/-- The container, with descriptor 3 open at the directory of the GPUs. -/
def reader : Shim :=
  traceAndTrackOpen (some gpusDir) 3 container

/-- The visible entry comes first: all is received. -/
theorem enumeration_bus4_bus5 :
    readAll reader 3 4096 3 [bus4, bus5] = some ((bus4.records.head bus4.nonempty).bytes, []) :=
  (enumeration_complete_iff (by decide +kernel) (by decide +kernel) (by decide +kernel) [bus4, bus5]
    (by decide +kernel)).mpr (by decide +kernel)

/-- The hidden entry comes first: the visible one is never asked for. -/
theorem enumeration_incomplete :
    ¬ ∀ (sh : Shim) (fd : Int) (count : Nat) (cs : List Chunk), sh.procFilterReady = true →
      sh.allowed.valid = true → sh.trackedAs fd .procGpusDir = true →
      readAll sh fd count (cs.length + 1) cs =
        some (encode (visible sh.allowed (cs.flatMap Chunk.records)), []) := by
  intro h
  have hlost := h reader 3 4096 [bus5, bus4] (by decide +kernel) (by decide +kernel) (by decide +kernel)
  have hbytes := congrArg (Option.map Prod.fst) hlost
  revert hbytes
  decide +kernel

end Nvscope
