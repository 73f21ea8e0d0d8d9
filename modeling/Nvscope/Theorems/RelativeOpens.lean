import Nvscope.Model.InPlace
import Nvscope.Theorems.Agreement

/-!
# Opens relative to the directory of the GPUs

A relative path is denied for what it names, however it is padded. The buffer of the normalization is never
overrun.
-/

namespace Nvscope

open Lib

/-! ## The buffer of the normalization -/

/-- The loop has filled the buffer with what it returns, and a terminator. -/
def Filled (bufferLen : Nat) (result : Option CStr) (after : Option (Bool × List UInt8)) : Prop :=
  ∃ buffer, after = some (result.isSome, buffer) ∧ buffer.length = bufferLen ∧
    ∀ s, result = some s → ∃ stale, buffer = s ++ 0 :: stale

theorem Filled.failed {bufferLen : Nat} {buffer : List UInt8} (h : buffer.length = bufferLen) :
    Filled bufferLen none (some (false, buffer)) :=
  ⟨buffer, rfl, h, fun _ hs => (nomatch hs)⟩

/-- The slash in front of a segment that is not the first. -/
theorem store_slash {bufferLen : Nat} {out free : List UInt8} (hlen : (out ++ free).length = bufferLen)
    (hroom : ¬ (out.length ≠ 0 ∧ out.length + 1 ≥ bufferLen)) :
    ∃ free', (if out.length ≠ 0 then (store (out ++ free) out.length slash).map fun buffer =>
        (buffer, out.length + 1) else some (out ++ free, out.length)) =
      some ((if out.length ≠ 0 then out ++ [slash] else out) ++ free',
        (if out.length ≠ 0 then out ++ [slash] else out).length) ∧
      ((if out.length ≠ 0 then out ++ [slash] else out) ++ free').length = bufferLen := by
  by_cases hfirst : out.length = 0
  · have hno : ¬ out.length ≠ 0 := not_not.mpr hfirst
    exact ⟨free, by rw [if_neg hno, if_neg hno], by rw [if_neg hno, hlen]⟩
  · have hlt : out.length < bufferLen :=
      Nat.lt_of_succ_lt (Nat.lt_of_not_le fun hge => hroom ⟨hfirst, hge⟩)
    obtain ⟨free', hstore, hlen'⟩ := exists_store_append hlen hlt slash
    refine ⟨free', ?_, ?_⟩
    · rw [if_pos hfirst, if_pos hfirst, hstore]
      simp
    · rw [if_pos hfirst, ← hlen']
      simp

/-- Run lemma: every store is inside the buffer. -/
theorem normalizeStores_filled {bufferLen fuel : Nat} :
    ∀ {rest : CStr} {out free : List UInt8}, (out ++ free).length = bufferLen → rest.length < fuel →
      Filled bufferLen (normalizeLoop bufferLen fuel rest out)
        (normalizeStores bufferLen fuel rest (out ++ free) out.length) := by
  induction fuel with
  | zero => exact fun _ h => absurd h (Nat.not_lt_zero _)
  | succ fuel ih =>
      intro rest out free hlen hfuel
      have hle := List.length_dropWhile_le (· == slash) rest
      have hhead := head_dropWhile_slash rest
      rw [normalizeLoop, normalizeStores]
      simp only
      generalize rest.dropWhile (· == slash) = rest' at hle hhead
      by_cases hempty : rest' = []
      · rw [if_pos hempty, if_pos hempty]
        cases hcond : (decide (out.length = 0) || decide (out.length ≥ bufferLen)) with
        | true => exact .failed hlen
        | false =>
            obtain ⟨-, hroom⟩ := by simpa using hcond
            rw [if_neg Bool.false_ne_true, if_neg Bool.false_ne_true]
            obtain ⟨free', hstore, hlen'⟩ := exists_store_append hlen hroom 0
            rw [hstore]
            refine ⟨_, rfl, hlen', fun s hs => ⟨free', ?_⟩⟩
            cases hs
            rfl
      · have hlt := length_dropWhile_lt hempty hhead
        have hshort : (rest'.drop (rest'.takeWhile (· != slash)).length).length < fuel := by
          rw [drop_takeWhile_length]
          omega
        rw [if_neg hempty, if_neg hempty]
        generalize rest'.drop (rest'.takeWhile (· != slash)).length = rest'' at hshort
        generalize rest'.takeWhile (· != slash) = segment
        by_cases hdots : segment = dotdot
        · rw [if_pos hdots, if_pos hdots]
          exact .failed hlen
        · rw [if_neg hdots, if_neg hdots]
          by_cases hdot : segment = dot
          · rw [if_pos hdot, if_pos hdot]
            exact ih hlen hshort
          · rw [if_neg hdot, if_neg hdot]
            by_cases hslash : out.length ≠ 0 ∧ out.length + 1 ≥ bufferLen
            · rw [if_pos hslash, if_pos hslash]
              exact .failed hlen
            · obtain ⟨free', hstore, hlen'⟩ := store_slash hlen hslash
              rw [if_neg hslash, if_neg hslash, hstore, Option.bind_some]
              simp only
              generalize (if out.length ≠ 0 then out ++ [slash] else out) = out' at hlen'
              by_cases hfull : out'.length + segment.length ≥ bufferLen
              · rw [if_pos hfull, if_pos hfull]
                exact .failed hlen'
              · have hfits : segment.length ≤ free'.length := by
                  rw [List.length_append] at hlen'
                  omega
                have hnext := @ih rest'' (out' ++ segment) (free'.drop segment.length)
                have hout : (out' ++ segment).length = out'.length + segment.length := List.length_append
                rw [List.append_assoc, hout] at hnext
                rw [if_neg hfull, if_neg hfull, storeMany_append hfits, Option.bind_some]
                refine hnext ?_ hshort
                rw [← hlen']
                simp only [List.length_append, List.length_drop]
                omega

/-- `nvfix_normalize_relative_path` on a buffer: where it succeeds, the buffer holds the string the rest of the
model computes. -/
theorem normalizeRelativePathInto_filled (path : Option CStr) (buffer : List UInt8) :
    Filled buffer.length (normalizeRelativePath path buffer.length) (normalizeRelativePathInto path buffer) := by
  cases path with
  | none => exact .failed rfl
  | some path =>
      rw [normalizeRelativePath, normalizeRelativePathInto]
      cases hcond : (decide (buffer.length = 0) || path.head? == some slash) with
      | true => exact .failed rfl
      | false => exact @normalizeStores_filled _ _ path [] buffer rfl (Nat.lt_succ_self _)

/-! ## What a relative path names -/

/-- The path, relative to the directory of the GPUs, names the information file of a GPU that is not allowed. -/
def NamesHidden (a : AllowedGpus) (path : CStr) : Prop :=
  dotdot ∉ pathSegments path ∧
    ∃ b, pathSegments path = [b, ascii "information"] ∧ 1 ≤ b.length ∧ b.length ≤ 31 ∧ ¬ IsAllowedBus a b

theorem no_slash_of_mem_pathSegments {path s : CStr} (h : s ∈ pathSegments path) : slash ∉ s := by
  rw [pathSegments_eq] at h
  exact not_mem_of_mem_words (List.mem_filter.mp h).1

theorem procDenied_relative {sh : Shim} {path : CStr} (hrel : path.head? ≠ some slash) :
    procDenied sh (some path) = false := by
  have habs : pathIsAbsolute (some path) = false := by
    simpa only [pathIsAbsolute, beq_eq_false_iff_ne] using hrel
  rw [procDenied, habs, Bool.and_false, Bool.false_and]

/-- The spelling under the directory is denied where the segments name a hidden information file. -/
theorem procDenied_joined {sh : Shim} (hready : sh.procFilterReady = true) (hvalid : sh.allowed.valid = true)
    (path : CStr) : procDenied sh (some (gpusPrefix ++ joinedSegments path)) = true ↔
      ∃ b, pathSegments path = [b, ascii "information"] ∧ 1 ≤ b.length ∧ b.length ≤ 31 ∧
        ¬ IsAllowedBus sh.allowed b := by
  have habs : pathIsAbsolute (some (gpusPrefix ++ joinedSegments path)) = true := by
    have hcons : gpusPrefix = slash :: gpusPrefix.tail := by decide
    rw [hcons]
    rfl
  rw [procDenied, hready, habs, Bool.true_and, Bool.true_and, beq_iff_eq, procPathAllowed_eq_deny]
  constructor
  · rintro ⟨-, b, hpath, hpos, hlt, hslash, hno⟩
    have hjoined : joinedSegments path = b ++ informationSuffix := List.append_cancel_left hpath
    refine ⟨b, (joinedSegments_eq_iff (List.ne_nil_of_length_pos hpos) hslash).mp hjoined, hpos,
      Nat.le_of_lt_succ hlt, ?_⟩
    rintro ⟨g, hg, hbus⟩
    exact hno g hg hbus
  · rintro ⟨b, hsegments, hpos, hle, hno⟩
    have hmem : b ∈ pathSegments path := by rw [hsegments]; exact List.mem_cons_self
    refine ⟨hvalid, b, ?_, hpos, Nat.lt_succ_of_le hle, no_slash_of_mem_pathSegments hmem,
      fun g hg hbus => hno ⟨g, hg, hbus⟩⟩
    rw [joinedSegments_of_pair hsegments, informationPath]

theorem procDenied_effective_relative {sh : Shim} {dirfd : Int} (hready : sh.procFilterReady = true)
    (hvalid : sh.allowed.valid = true) (htracked : sh.trackedAs dirfd .procGpusDir = true) {path : CStr}
    (hrel : path.head? ≠ some slash) :
    procDenied sh (effectiveOpenatPath sh dirfd (some path) pathMax) = true ↔ NamesHidden sh.allowed path := by
  rw [effectiveOpenatPath_relative htracked hrel]
  by_cases hkept : dotdot ∈ pathSegments path ∨ pathSegments path = [] ∨
      pathMax ≤ (gpusPrefix ++ joinedSegments path).length
  · rw [if_pos hkept, procDenied_relative hrel]
    refine ⟨fun h => absurd h Bool.false_ne_true, ?_⟩
    rintro ⟨hdots, b, hsegments, -, hle, -⟩
    rcases hkept with h | h | h
    · exact absurd h hdots
    · rw [hsegments] at h
      cases h
    · have hlen : (gpusPrefix ++ joinedSegments path).length < pathMax := by
        rw [joinedSegments_of_pair hsegments]
        exact length_informationPath_lt (Nat.lt_succ_of_le hle)
      exact absurd h (Nat.not_le_of_lt hlen)
  · rw [if_neg hkept, procDenied_joined hready hvalid]
    exact ⟨fun h => ⟨fun hdots => hkept (Or.inl hdots), h⟩, fun h => h.2⟩

/-! ## The two calls -/

/-- `openat` and `newfstatat` refuse the path where `P` holds, and hand it to the real function as it is
where `P` does not hold. -/
structure RefusedIff (sh : Shim) (dirfd : Int) (path : CStr) (P : Prop) : Prop where
  openat : ∀ {K : Type} (real real64 : Option (RealOpenat K)) (use64 : Bool) (args : OpenArgs) (os : K),
    let reply := openatCommon real real64 use64 dirfd (some path) args sh os
    (reply.Denied ↔ P) ∧ (P → reply = ⟨-1, some .enoent, sh, os⟩) ∧
      (¬ P → ∀ f, (if use64 then real64.or real else real) = some f →
        (reply.value, reply.os) = f dirfd (some path) args os)
  newfstatat : ∀ {K β : Type} (real : Option (Int → Option CStr → β → UInt32 → K → (Int × β) × K))
    (statbuf : β) (flags : UInt32) (os : K),
    let reply := newfstatat real dirfd (some path) statbuf flags sh os
    (reply.Denied ↔ P) ∧ (P → reply = ⟨(-1, statbuf), some .enoent, sh, os⟩) ∧
      (¬ P → ∀ f, real = some f → (reply.value, reply.os) = f dirfd (some path) statbuf flags os)

theorem refusedIff {sh : Shim} {dirfd : Int} {path : CStr} {P : Prop}
    (h : procDenied sh (effectiveOpenatPath sh dirfd (some path) pathMax) = true ↔ P) :
    RefusedIff sh dirfd path P where
  openat real real64 use64 args os := by
    refine ⟨(openatCommon_denied _ _ _ _ _ _ _ _).trans h, fun hP => ?_, fun hP f hf => ?_⟩
    · rw [openatCommon, if_pos (h.mpr hP)]
    · rw [openatCommon, if_neg fun hdenied => hP (h.mp hdenied), hf]
  newfstatat real statbuf flags os := by
    refine ⟨(newfstatat_denied _ _ _ _ _ _ _).trans h, fun hP => ?_, fun hP f hf => ?_⟩
    · rw [newfstatat.eq_def, if_pos (h.mpr hP)]
    · rw [newfstatat.eq_def, if_neg fun hdenied => hP (h.mp hdenied), hf]

/-- Relative to the tracked directory, exactly the paths that name a hidden information file are refused, and
all others reach the real function unchanged. The normalization succeeds exactly where the join of the segments
fits, writes that join, and no store leaves its buffer. -/
theorem relative_opens_refused {sh : Shim} {dirfd : Int} (hready : sh.procFilterReady = true)
    (hvalid : sh.allowed.valid = true) (htracked : sh.trackedAs dirfd .procGpusDir = true) :
    (∀ path : CStr, path.head? ≠ some slash → RefusedIff sh dirfd path (NamesHidden sh.allowed path)) ∧
    ∀ (path : CStr) (buffer : List UInt8), ∃ ok after,
      normalizeRelativePathInto (some path) buffer = some (ok, after) ∧ after.length = buffer.length ∧
      (ok = true ↔ path.head? ≠ some slash ∧ dotdot ∉ pathSegments path ∧
        1 ≤ (joinedSegments path).length ∧ (joinedSegments path).length + 1 ≤ buffer.length) ∧
      (ok = true → ∃ stale, after = joinedSegments path ++ 0 :: stale) := by
  refine ⟨fun path hrel => refusedIff (procDenied_effective_relative hready hvalid htracked hrel),
    fun path buffer => ?_⟩
  obtain ⟨after, hrun, hlen, hwritten⟩ := normalizeRelativePathInto_filled (some path) buffer
  have hempty : pathSegments path = [] ↔ ¬ 1 ≤ (joinedSegments path).length := by
    rw [← joinedSegments_eq_nil, ← List.length_eq_zero_iff]
    omega
  rw [normalizeRelativePath_eq] at hrun hwritten
  refine ⟨_, after, hrun, hlen, ?_⟩
  by_cases hfails : path.head? = some slash ∨ dotdot ∈ pathSegments path ∨ pathSegments path = [] ∨
      buffer.length ≤ (joinedSegments path).length
  · rw [if_pos hfails]
    refine ⟨⟨fun h => absurd h Bool.false_ne_true, ?_⟩, fun h => absurd h Bool.false_ne_true⟩
    rintro ⟨hrel, hdots, hpos, hfits⟩
    rcases hfails with h | h | h | h
    · exact absurd h hrel
    · exact absurd h hdots
    · exact absurd hpos (hempty.mp h)
    · exact absurd h (Nat.not_le_of_lt hfits)
  · rw [if_neg hfails] at hwritten ⊢
    obtain ⟨hrel, hdots, hne, hfits⟩ := by simpa only [not_or] using hfails
    refine ⟨⟨fun _ => ⟨hrel, hdots, ?_, Nat.lt_of_not_le hfits⟩, fun _ => rfl⟩, fun _ => hwritten _ rfl⟩
    exact Decidable.not_not.mp fun h => hne (hempty.mpr h)

/-- With the directory open as descriptor 3, padding does not hide the name of a hidden GPU, and a short buffer
gets no store behind its end. -/
theorem relative_opens_browsing :
    RefusedIff browsing 3 (ascii ".//0000:05:00.0/./information/")
        (NamesHidden browsing.allowed (ascii ".//0000:05:00.0/./information/")) ∧
      NamesHidden browsing.allowed (ascii ".//0000:05:00.0/./information/") ∧
      ∃ after, normalizeRelativePathInto (some (ascii "a//b")) [1, 2, 3] = some (false, after) := by
  have hrun := @relative_opens_refused browsing 3 (by decide +kernel) (by decide +kernel) tracked_browsing
  refine ⟨hrun.1 _ (by decide), ⟨by decide, ascii "0000:05:00.0", by decide, by decide, by decide, ?_⟩, ?_⟩
  · rintro ⟨g, hg, hbus⟩
    revert g
    decide +kernel
  · obtain ⟨ok, after, hinto, -, hok, -⟩ := hrun.2 (ascii "a//b") [1, 2, 3]
    cases ok with
    | true => exact absurd (hok.mp rfl) (by decide)
    | false => exact ⟨after, hinto⟩

end Nvscope
