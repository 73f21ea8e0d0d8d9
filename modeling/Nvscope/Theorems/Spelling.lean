import Nvscope.Lemmas.Normalize

/-!
# Other spellings of a path

The kernel takes repeated and trailing slashes and `.` segments for what they are; the matchers of the shim
compare strings. Only the relative route through a tracked descriptor rewrites a path before it is matched.
-/

namespace Nvscope

open Lib

/-- The canonical spelling of an absolute path. -/
def canonical (path : CStr) : CStr :=
  slash :: joinedSegments path

/-- The paths the matchers know. -/
inductive Recognised : CStr → Prop where
  | ctl : Recognised (ascii "/dev/nvidiactl")
  | uvm : Recognised (ascii "/dev/nvidia-uvm")
  | device (ds : CStr) (numeral : IsNumeral ds) : Recognised (ascii "/dev/nvidia" ++ ds)
  | gpusDir : Recognised gpusDir
  | information (b : CStr) (pos : 0 < b.length) (lt : b.length < busIdMax) (noSlash : slash ∉ b) :
      Recognised (informationPath b)

/-! ## What the matchers know -/

/-- A path the matchers do not know is classified as other and left to the kernel. -/
theorem classifyPath_of_not_recognised {path : CStr} (h : ¬ Recognised path) :
    classifyPath (some path) =
      (false, { kind := .other, deviceMinor := -1, path := copyString pathMax (some path), busId := [] }) := by
  have hctl : path ≠ ascii "/dev/nvidiactl" := by rintro rfl; exact h .ctl
  have huvm : path ≠ ascii "/dev/nvidia-uvm" := by rintro rfl; exact h .uvm
  have hdir : path ≠ gpusDir := by rintro rfl; exact h .gpusDir
  have hminor : parseNvidiaMinor path = none := by
    cases hp : parseNvidiaMinor path with
    | none => rfl
    | some minor =>
        obtain ⟨ds, rfl, hnum, -⟩ := decimalAfter_eq_some.mp hp
        exact absurd (.device ds hnum) h
  have hinfo : procInfoBus busIdMax path = none := by
    cases hp : procInfoBus busIdMax path with
    | none => rfl
    | some b =>
        obtain ⟨rfl, hpos, hlt, hslash⟩ := procInfoBus_eq_some.mp hp
        exact absurd (.information b hpos hlt hslash) h
  simp only [classifyPath, hctl, huvm, hminor, hdir, classifyProcGpuPath, hinfo, ↓reduceIte]

theorem procPathAllowed_of_not_recognised {path : CStr} (allowed : Option AllowedGpus)
    (h : ¬ Recognised path) : procPathAllowed allowed (some path) = .ignore := by
  have hdir : path ≠ gpusDir := by rintro rfl; exact h .gpusDir
  have hinfo : extractProcBus (some path) procBusIdMax = none := by
    cases hp : extractProcBus (some path) procBusIdMax with
    | none => rfl
    | some b =>
        obtain ⟨rfl, hpos, hlt, hslash⟩ := extractProcBus_eq_some.mp hp
        exact absurd (.information b hpos hlt hslash) h
  simp [procPathAllowed, hdir, hinfo]

theorem classifyPath_fst_of_recognised {path : CStr} (h : Recognised path) :
    (classifyPath (some path)).1 = true := by
  by_contra hno
  rw [Bool.not_eq_true] at hno
  simp only [classifyPath] at hno
  split at hno
  · cases hno
  · rename_i hctl
    split at hno
    · cases hno
    · rename_i huvm
      split at hno
      · cases hno
      · rename_i hminor
        split at hno
        · cases hno
        · rename_i hdir
          cases h with
          | ctl => exact hctl rfl
          | uvm => exact huvm rfl
          | device ds hnum =>
              rw [parseNvidiaMinor, decimalAfter_append, if_pos hnum] at hminor
              cases hminor
          | gpusDir => exact hdir rfl
          | information b hpos hlt hslash =>
              rw [classifyProcGpuPath, procInfoBus_informationPath hpos hlt hslash] at hno
              cases hno

theorem classifyPath_fst_iff {path : CStr} : (classifyPath (some path)).1 = true ↔ Recognised path := by
  refine ⟨fun h => ?_, classifyPath_fst_of_recognised⟩
  by_contra hno
  rw [classifyPath_of_not_recognised hno] at h
  cases h

/-! ## Canonical spellings of what they know -/

theorem canonical_intercalate {segments : List CStr}
    (h : ∀ s ∈ segments, s ≠ [] ∧ slash ∉ s ∧ s ≠ dot) :
    canonical (slash :: [slash].intercalate segments) = slash :: [slash].intercalate segments := by
  have hwords := words_intercalate (fun s hs => (h s hs).1) fun s hs => (h s hs).2.1
  have hsegments : pathSegments (slash :: [slash].intercalate segments) = segments := by
    rw [pathSegments_eq, words_cons_sep, hwords, List.filter_eq_self]
    intro s hs
    simpa using (h s hs).2.2
  rw [canonical, joinedSegments, hsegments]

/-- A canonical spelling is its own. -/
theorem canonical_canonical (path : CStr) : canonical (canonical path) = canonical path := by
  have hsegments : pathSegments (canonical path) = pathSegments path := by
    rw [canonical, pathSegments_eq, words_cons_sep, ← pathSegments_eq, pathSegments_joinedSegments]
  rw [canonical, joinedSegments, hsegments]
  rfl

theorem isNumeral_no_slash {ds : CStr} (h : IsNumeral ds) : slash ∉ ds := by
  intro hmem
  have hdigit := h.2.1 slash hmem
  revert hdigit
  decide

theorem canonical_device {ds : CStr} (h : IsNumeral ds) :
    canonical (ascii "/dev/nvidia" ++ ds) = ascii "/dev/nvidia" ++ ds := by
  have hpre : ascii "/dev/nvidia" = slash :: (ascii "dev" ++ slash :: ascii "nvidia") := by decide
  have hsplit : ascii "/dev/nvidia" ++ ds =
      slash :: [slash].intercalate [ascii "dev", ascii "nvidia" ++ ds] := by simp [hpre]
  rw [hsplit]
  refine canonical_intercalate fun s hs => ?_
  rcases List.mem_cons.mp hs with rfl | hs
  · decide
  · obtain rfl := List.mem_singleton.mp hs
    refine ⟨by simp [ascii], ?_, ?_⟩
    · intro hmem
      rcases List.mem_append.mp hmem with hmem | hmem
      · revert hmem; decide
      · exact isNumeral_no_slash h hmem
    · intro hdot
      have hlen := congrArg List.length hdot
      have hn : (ascii "nvidia").length = 6 := rfl
      have hd : dot.length = 1 := rfl
      rw [List.length_append] at hlen
      omega

theorem informationPath_eq_intercalate (b : CStr) :
    informationPath b = slash :: [slash].intercalate
      [ascii "proc", ascii "driver", ascii "nvidia", ascii "gpus", b, ascii "information"] := by
  simp [informationPath, gpusPrefix, informationSuffix, ascii]

theorem canonical_informationPath {b : CStr} (hpos : 0 < b.length) (hslash : slash ∉ b) (hdot : b ≠ dot) :
    canonical (informationPath b) = informationPath b := by
  rw [informationPath_eq_intercalate]
  refine canonical_intercalate fun s hs => ?_
  simp only [List.mem_cons, List.not_mem_nil, or_false] at hs
  rcases hs with rfl | rfl | rfl | rfl | rfl | rfl
  · decide
  · decide
  · decide
  · decide
  · exact ⟨List.ne_nil_of_length_pos hpos, hslash, hdot⟩
  · decide

/-- A path the matchers know is canonical, or no other spelling of it is known. -/
theorem Recognised.canonical_eq_or {path : CStr} (h : Recognised path) :
    canonical path = path ∨ ¬ Recognised (canonical path) := by
  cases h with
  | ctl => left; decide
  | uvm => left; decide
  | device ds hnum => exact Or.inl (canonical_device hnum)
  | gpusDir => left; decide
  | information b hpos hlt hslash =>
      by_cases hdot : b = dot
      · right
        rw [hdot, ← classifyPath_fst_iff]
        decide
      · exact Or.inl (canonical_informationPath hpos hslash hdot)

/-! ## Decision and tracking -/

/-- The shim decides on the two paths alike, under every allowed set, and tracks them alike. -/
structure TreatedAlike (path path' : CStr) : Prop where
  decision : ∀ allowed, procPathAllowed allowed (some path) = procPathAllowed allowed (some path')
  accepted : (classifyPath (some path)).1 = (classifyPath (some path')).1
  kind : (classifyPath (some path)).2.kind = (classifyPath (some path')).2.kind
  deviceMinor : (classifyPath (some path)).2.deviceMinor = (classifyPath (some path')).2.deviceMinor
  busId : (classifyPath (some path)).2.busId = (classifyPath (some path')).2.busId

theorem TreatedAlike.refl (path : CStr) : TreatedAlike path path :=
  ⟨fun _ => rfl, rfl, rfl, rfl, rfl⟩

theorem TreatedAlike.of_not_recognised {path path' : CStr} (h : ¬ Recognised path)
    (h' : ¬ Recognised path') : TreatedAlike path path' where
  decision allowed := by
    rw [procPathAllowed_of_not_recognised allowed h, procPathAllowed_of_not_recognised allowed h']
  accepted := by rw [classifyPath_of_not_recognised h, classifyPath_of_not_recognised h']
  kind := by rw [classifyPath_of_not_recognised h, classifyPath_of_not_recognised h']
  deviceMinor := by rw [classifyPath_of_not_recognised h, classifyPath_of_not_recognised h']
  busId := by rw [classifyPath_of_not_recognised h, classifyPath_of_not_recognised h']

/-- A path and its canonical spelling are treated alike if and only if they are the same, or neither is a
path the matchers know. -/
theorem treatedAlike_canonical_iff (path : CStr) :
    TreatedAlike path (canonical path) ↔
      path = canonical path ∨ ¬ Recognised path ∧ ¬ Recognised (canonical path) := by
  constructor
  · intro h
    by_cases hsame : path = canonical path
    · exact Or.inl hsame
    · have hiff : Recognised path ↔ Recognised (canonical path) := by
        rw [← classifyPath_fst_iff, ← classifyPath_fst_iff, h.accepted]
      have hno : ¬ Recognised path := by
        intro hknown
        rcases hknown.canonical_eq_or with heq | hother
        · exact hsame heq.symm
        · exact hother (hiff.mp hknown)
      exact Or.inr ⟨hno, fun hknown => hno (hiff.mpr hknown)⟩
  · rintro (hsame | ⟨h, h'⟩)
    · rw [← hsame]
      exact .refl path
    · exact .of_not_recognised h h'

/-- With a repeated slash the information file of a hidden GPU is not denied. -/
theorem not_treatedAlike_canonical :
    ¬ ∀ path : CStr, path.head? = some slash → dotdot ∉ path.splitOn slash →
      TreatedAlike path (canonical path) := by
  intro h
  have hbus := (h (ascii "/proc/driver/nvidia/gpus//0000:05:00.0/information") (by decide)
    (by decide)).decision (some container.allowed)
  revert hbus
  decide +kernel

end Nvscope
