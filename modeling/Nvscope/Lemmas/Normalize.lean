import Nvscope.Lemmas.Paths
import Nvscope.Lib.Segments
import Nvscope.System.World

/-!
# What the normalization of relative paths computes

The segments that count, joined by single slashes, unless one of them is `..` or the result does not fit.
-/

namespace Nvscope

open Lib

theorem pathSegments_eq (path : CStr) : pathSegments path = (words slash path).filter (· ≠ dot) := by
  rw [pathSegments, words, List.filter_filter]
  apply List.filter_congr
  intro s _
  rw [Bool.eq_iff_iff]
  simp [and_comm]

theorem ne_nil_of_mem_pathSegments {path s : CStr} (h : s ∈ pathSegments path) : s ≠ [] := by
  rw [pathSegments_eq] at h
  exact ne_nil_of_mem_words (List.mem_filter.mp h).1

/-- The canonical spelling of a path, without its leading slash. -/
def joinedSegments (path : CStr) : CStr :=
  [slash].intercalate (pathSegments path)

theorem words_joinedSegments (path : CStr) : words slash (joinedSegments path) = pathSegments path := by
  refine words_intercalate (fun s hs => ne_nil_of_mem_pathSegments hs) fun s hs => ?_
  rw [pathSegments_eq] at hs
  exact not_mem_of_mem_words (List.mem_filter.mp hs).1

/-- Joining and splitting again gives the segments back. -/
theorem pathSegments_joinedSegments (path : CStr) :
    pathSegments (joinedSegments path) = pathSegments path := by
  rw [pathSegments_eq, words_joinedSegments, List.filter_eq_self, pathSegments_eq]
  intro s hs
  exact (List.mem_filter.mp hs).2

theorem joinedSegments_eq_nil {path : CStr} : joinedSegments path = [] ↔ pathSegments path = [] := by
  constructor
  · intro h
    rw [← words_joinedSegments, h, words_nil]
  · intro h
    rw [joinedSegments, h]
    rfl

/-! ## The loop -/

def appendSegment (out segment : CStr) : CStr :=
  (if out.length ≠ 0 then out ++ [slash] else out) ++ segment

theorem le_length_foldl_appendSegment (segments : List CStr) (out : CStr) :
    out.length ≤ (segments.foldl appendSegment out).length := by
  induction segments generalizing out with
  | nil => exact Nat.le_refl _
  | cons s segments ih =>
      have h := ih (appendSegment out s)
      have hs : out.length ≤ (appendSegment out s).length := by
        rw [appendSegment]
        split <;> simp only [List.length_append] <;> omega
      exact hs.trans h

theorem foldl_appendSegment {segments : List CStr} {out : CStr} (hout : out ≠ []) :
    segments.foldl appendSegment out = [slash].intercalate (out :: segments) := by
  induction segments generalizing out with
  | nil => simp
  | cons s segments ih =>
      have hlen : out.length ≠ 0 := by simpa using hout
      have hs : appendSegment out s = out ++ slash :: s := by simp [appendSegment, hlen]
      rw [List.foldl_cons, hs, ih (by simp)]
      cases segments with
      | nil => simp
      | cons s' segments => simp

/-- The buffer the loop fills is the spelling with single slashes. -/
theorem foldl_appendSegment_nil {segments : List CStr} (h : ∀ s ∈ segments, s ≠ []) :
    segments.foldl appendSegment [] = [slash].intercalate segments := by
  cases segments with
  | nil => rfl
  | cons s segments =>
      have hs : appendSegment [] s = s := rfl
      rw [List.foldl_cons, hs, foldl_appendSegment (h s List.mem_cons_self)]

/-- What the loop returns once it has written `out`. -/
def normalizeResult (bufferLen : Nat) (path out : CStr) : Option CStr :=
  let full := (pathSegments path).foldl appendSegment out
  if dotdot ∈ pathSegments path then none
  else if full.length = 0 ∨ full.length ≥ bufferLen then none
  else some full

theorem normalizeResult_of_le {bufferLen : Nat} {path out : CStr}
    (h : bufferLen ≤ ((pathSegments path).foldl appendSegment out).length) :
    normalizeResult bufferLen path out = none := by
  simp [normalizeResult, h]

theorem normalizeResult_cons {bufferLen : Nat} {path rest segment : CStr} (out : CStr)
    (h : pathSegments path = segment :: pathSegments rest) (hdots : segment ≠ dotdot) :
    normalizeResult bufferLen path out = normalizeResult bufferLen rest (appendSegment out segment) := by
  have hmem : dotdot ∈ segment :: pathSegments rest ↔ dotdot ∈ pathSegments rest := by
    rw [List.mem_cons]
    exact ⟨fun hm => hm.resolve_left fun he => hdots he.symm, Or.inr⟩
  simp only [normalizeResult, h, hmem, List.foldl_cons]

/-- The segments of a path that does not start with a slash. -/
theorem pathSegments_takeWhile {rest : CStr} (hne : rest ≠ []) (hhead : rest.head? ≠ some slash) :
    pathSegments rest =
      if rest.takeWhile (· != slash) = dot then pathSegments (rest.dropWhile (· != slash))
      else rest.takeWhile (· != slash) :: pathSegments (rest.dropWhile (· != slash)) := by
  rw [pathSegments_eq, words_takeWhile hne hhead, pathSegments_eq]
  split
  · rename_i hdot
    rw [List.filter_cons_of_neg (by simpa using hdot)]
  · rename_i hdot
    rw [List.filter_cons_of_pos (by simpa using hdot)]

theorem drop_takeWhile_length (rest : CStr) :
    rest.drop (rest.takeWhile (· != slash)).length = rest.dropWhile (· != slash) := by
  have h : (rest.takeWhile (· != slash) ++ rest.dropWhile (· != slash)).drop
      (rest.takeWhile (· != slash)).length = rest.dropWhile (· != slash) := List.drop_left
  rwa [List.takeWhile_append_dropWhile] at h

/-- The loop at the start of a segment. -/
theorem normalizeLoop_segment {bufferLen fuel : Nat} {rest out : CStr} (hne : rest ≠ [])
    (hhead : rest.head? ≠ some slash)
    (ih : ∀ out, normalizeLoop bufferLen fuel (rest.dropWhile (· != slash)) out =
      normalizeResult bufferLen (rest.dropWhile (· != slash)) out) :
    normalizeLoop bufferLen (fuel + 1) rest out = normalizeResult bufferLen rest out := by
  have hsegments := pathSegments_takeWhile hne hhead
  have hskip : rest.dropWhile (· == slash) = rest := List.dropWhile_beq_eq_self_of_head?_ne hhead
  rw [normalizeLoop, hskip]
  simp only [hne, ↓reduceIte, drop_takeWhile_length]
  by_cases hdots : rest.takeWhile (· != slash) = dotdot
  · have hdot : rest.takeWhile (· != slash) ≠ dot := by rw [hdots]; decide
    rw [if_neg hdot, hdots] at hsegments
    rw [if_pos hdots, normalizeResult, hsegments, if_pos List.mem_cons_self]
  · rw [if_neg hdots]
    by_cases hdot : rest.takeWhile (· != slash) = dot
    · rw [if_pos hdot] at hsegments
      rw [if_pos hdot, ih, normalizeResult, normalizeResult, hsegments]
    · rw [if_neg hdot] at hsegments
      have hcons := @normalizeResult_cons bufferLen _ _ _ out hsegments hdots
      have hle := le_length_foldl_appendSegment (pathSegments (rest.dropWhile (· != slash)))
        (appendSegment out (rest.takeWhile (· != slash)))
      have hpos : 0 < (rest.takeWhile (· != slash)).length := by
        refine List.length_pos_iff.mpr ?_
        exact @ne_nil_of_mem_pathSegments rest _ (by rw [hsegments]; exact List.mem_cons_self)
      have hlen : (if out.length ≠ 0 then out ++ [slash] else out).length +
          (rest.takeWhile (· != slash)).length =
            (appendSegment out (rest.takeWhile (· != slash))).length := by
        rw [appendSegment, List.length_append]
      rw [if_neg hdot, hcons, hlen]
      by_cases hroom : out.length ≠ 0 ∧ out.length + 1 ≥ bufferLen
      · -- there is no room for the slash, so none for the result
        rw [if_pos hroom]
        refine (normalizeResult_of_le ?_).symm
        rw [if_pos hroom.1, List.length_append, List.length_singleton] at hlen
        omega
      · rw [if_neg hroom]
        by_cases hfull : (appendSegment out (rest.takeWhile (· != slash))).length ≥ bufferLen
        · rw [if_pos hfull, normalizeResult_of_le (Nat.le_trans hfull hle)]
        · rw [if_neg hfull]
          exact ih _

/-- A word at the front makes what follows shorter. -/
theorem length_dropWhile_lt {rest : CStr} (hne : rest ≠ []) (hhead : rest.head? ≠ some slash) :
    (rest.dropWhile (· != slash)).length < rest.length := by
  cases rest with
  | nil => exact absurd rfl hne
  | cons c rest =>
      have hc : c ≠ slash := by simpa using hhead
      have hle := List.length_dropWhile_le (· != slash) rest
      rw [List.dropWhile_cons_of_pos (by simpa using hc), List.length_cons]
      omega

theorem head_dropWhile_slash (rest : CStr) : (rest.dropWhile (· == slash)).head? ≠ some slash := by
  intro hhead
  have hnot := List.head?_dropWhile_not (· == slash) rest
  rw [hhead] at hnot
  cases hnot

theorem normalizeLoop_eq {bufferLen fuel : Nat} {rest out : CStr} (h : rest.length < fuel) :
    normalizeLoop bufferLen fuel rest out = normalizeResult bufferLen rest out := by
  induction fuel generalizing rest out with
  | zero => omega
  | succ fuel ih =>
      have hhead := head_dropWhile_slash rest
      have hsegments : pathSegments (rest.dropWhile (· == slash)) = pathSegments rest := by
        rw [pathSegments_eq, words_dropWhile, pathSegments_eq]
      have hresult : normalizeResult bufferLen rest out =
          normalizeResult bufferLen (rest.dropWhile (· == slash)) out := by
        rw [normalizeResult, normalizeResult, hsegments]
      have hloop : normalizeLoop bufferLen (fuel + 1) rest out =
          normalizeLoop bufferLen (fuel + 1) (rest.dropWhile (· == slash)) out := by
        rw [normalizeLoop, normalizeLoop, List.dropWhile_beq_eq_self_of_head?_ne hhead]
      rw [hresult, hloop]
      by_cases hempty : rest.dropWhile (· == slash) = []
      · have hnone : pathSegments [] = [] := rfl
        rw [hempty]
        simp [normalizeLoop, normalizeResult, hnone]
      · have hle := List.length_dropWhile_le (· == slash) rest
        have hlt := length_dropWhile_lt hempty hhead
        exact normalizeLoop_segment hempty hhead fun out => ih (by omega)

/-- Spec of `nvfix_normalize_relative_path`. -/
theorem normalizeRelativePath_eq (path : CStr) (bufferLen : Nat) :
    normalizeRelativePath (some path) bufferLen =
      if path.head? = some slash ∨ dotdot ∈ pathSegments path ∨ pathSegments path = [] ∨
          bufferLen ≤ (joinedSegments path).length then none
      else some (joinedSegments path) := by
  have hjoined : (pathSegments path).foldl appendSegment [] = joinedSegments path :=
    foldl_appendSegment_nil fun s hs => ne_nil_of_mem_pathSegments hs
  have hempty : (joinedSegments path).length = 0 ↔ pathSegments path = [] := by
    rw [List.length_eq_zero_iff, joinedSegments_eq_nil]
  rw [normalizeRelativePath]
  by_cases hcond : bufferLen = 0 ∨ path.head? = some slash
  · rw [if_pos (by simpa using hcond)]
    rcases hcond with rfl | habs
    · simp
    · simp [habs]
  · obtain ⟨hpos, hrel⟩ := not_or.mp hcond
    rw [if_neg (by simpa using hcond), normalizeLoop_eq (Nat.lt_succ_self _), normalizeResult, hjoined]
    by_cases hdots : dotdot ∈ pathSegments path
    · simp [hdots]
    · simp only [hdots, hrel, hempty, ge_iff_le, ↓reduceIte, false_or]

/-! ## Paths relative to a tracked directory -/

/-- A path relative to a tracked directory is replaced by the absolute path it stands for, where that fits and
does not leave the directory. -/
theorem effectiveOpenatPath_relative {sh : Shim} {dirfd : Int} {path : CStr}
    (htracked : sh.trackedAs dirfd .procGpusDir = true) (hrel : path.head? ≠ some slash) :
    effectiveOpenatPath sh dirfd (some path) pathMax =
      if dotdot ∈ pathSegments path ∨ pathSegments path = [] ∨
          pathMax ≤ (gpusPrefix ++ joinedSegments path).length then some path
      else some (gpusPrefix ++ joinedSegments path) := by
  have hisrel : pathIsRelative (some path) = true := by simpa [pathIsRelative] using hrel
  have hcond : (!pathIsRelative (some path) || decide (pathMax = 0) ||
      !sh.trackedAs dirfd .procGpusDir) = false := by
    rw [hisrel, htracked]
    rfl
  have hlen : (gpusPrefix ++ joinedSegments path).length = gpusPrefix.length + (joinedSegments path).length :=
    List.length_append
  rw [effectiveOpenatPath, hcond, if_neg Bool.false_ne_true, normalizeRelativePath_eq]
  by_cases hfails : path.head? = some slash ∨ dotdot ∈ pathSegments path ∨ pathSegments path = [] ∨
      pathMax ≤ (joinedSegments path).length
  · have hkept : dotdot ∈ pathSegments path ∨ pathSegments path = [] ∨
        pathMax ≤ (gpusPrefix ++ joinedSegments path).length := by
      refine (hfails.resolve_left hrel).imp id (Or.imp id fun hlong => ?_)
      rw [hlen]
      exact Nat.le_trans hlong (Nat.le_add_left _ _)
    rw [if_pos hfails, if_pos hkept]
  · rw [if_neg hfails]
    change (if (gpusPrefix ++ joinedSegments path).length ≥ pathMax then some path
      else some (gpusPrefix ++ joinedSegments path)) = _
    obtain ⟨-, hdots, hempty, -⟩ := by simpa only [not_or] using hfails
    by_cases hlong : pathMax ≤ (gpusPrefix ++ joinedSegments path).length
    · rw [if_pos hlong, if_pos (Or.inr (Or.inr hlong))]
    · rw [if_neg hlong, if_neg]
      rintro (h | h | h)
      · exact hdots h
      · exact hempty h
      · exact hlong h

theorem words_append_informationSuffix {n : CStr} (hne : n ≠ []) (hslash : slash ∉ n) :
    words slash (n ++ informationSuffix) = [n, ascii "information"] := by
  have hrest : informationSuffix = slash :: ascii "information" := by decide
  have hlast : words slash (ascii "information") = [ascii "information"] := by decide
  rw [words_append hne hslash fun x hx => ?_, hrest, words_cons_sep, hlast]
  rw [hrest] at hx
  cases hx
  rfl

theorem joinedSegments_of_pair {path n : CStr} (h : pathSegments path = [n, ascii "information"]) :
    joinedSegments path = n ++ informationSuffix := by
  rw [joinedSegments, h]
  simp [informationSuffix, ascii]

/-- The spelling with single slashes is that of an information file if and only if the segments are. -/
theorem joinedSegments_eq_iff {path n : CStr} (hne : n ≠ []) (hslash : slash ∉ n) :
    joinedSegments path = n ++ informationSuffix ↔ pathSegments path = [n, ascii "information"] := by
  refine ⟨fun h => ?_, joinedSegments_of_pair⟩
  rw [← words_joinedSegments, h, words_append_informationSuffix hne hslash]

/-! ## The information file of a directory entry -/

/-- Relative to a tracked directory: the information file of an entry, unless a buffer is too short. -/
theorem effectiveOpenatPath_information {sh : Shim} {dirfd : Int} {n : CStr}
    (htracked : sh.trackedAs dirfd .procGpusDir = true) (hne : n ≠ []) (hslash : slash ∉ n)
    (hdot : n ≠ dot) (hdots : n ≠ dotdot) :
    effectiveOpenatPath sh dirfd (some (n ++ informationSuffix)) pathMax =
      if (informationPath n).length < pathMax then some (informationPath n)
      else some (n ++ informationSuffix) := by
  have hsegments : pathSegments (n ++ informationSuffix) = [n, ascii "information"] := by
    have hlast : ascii "information" ≠ dot := by decide
    rw [pathSegments_eq, words_append_informationSuffix hne hslash]
    simp [hdot, hlast]
  have hnodots : dotdot ∉ pathSegments (n ++ informationSuffix) := by
    have hlast : dotdot ≠ ascii "information" := by decide
    rw [hsegments]
    simp [hdots.symm, hlast]
  have hnonempty : pathSegments (n ++ informationSuffix) ≠ [] := by
    rw [hsegments]
    exact List.cons_ne_nil _ _
  rw [effectiveOpenatPath_relative htracked (head_append_informationSuffix hne hslash),
    joinedSegments_of_pair hsegments, ← informationPath]
  simp only [hnodots, hnonempty, false_or]
  by_cases hfits : (informationPath n).length < pathMax
  · rw [if_neg (Nat.not_le_of_lt hfits), if_pos hfits]
  · rw [if_pos (Nat.le_of_not_lt hfits), if_neg hfits]

end Nvscope
