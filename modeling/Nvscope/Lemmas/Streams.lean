import Nvscope.System.World

/-!
# Reading a directory stream through the shim
-/

namespace Nvscope

open Lib

theorem filter_eq_dropWhile {α : Type} (p : α → Bool) (xs : List α) :
    xs.filter p = (xs.dropWhile (!p ·)).head?.toList ++ (xs.dropWhile (!p ·)).tail.filter p := by
  induction xs with
  | nil => rfl
  | cons x xs ih =>
      cases hx : p x with
      | true => simp [hx]
      | false => simpa [hx] using ih

/-! ## The real functions -/

namespace Kernel

theorem leave_remaining {k : Kernel} {dir : Nat} {s : DirStream} (h : k.dirs dir = some s) :
    k.leave dir s s.remaining = k := by
  have hupdate : Function.update k.dirs dir (some s) = k.dirs := by rw [← h, Function.update_eq_self]
  simp only [leave, hupdate]

theorem leave_leave (k : Kernel) (dir : Nat) (s : DirStream) (xs ys : List CStr) :
    (k.leave dir s xs).leave dir { s with remaining := xs } ys = k.leave dir s ys := by
  simp [leave]

theorem dirs_leave (k : Kernel) (dir : Nat) (s : DirStream) (xs : List CStr) :
    (k.leave dir s xs).dirs dir = some { s with remaining := xs } := by
  simp [leave]

theorem dirs_leave_of_ne {k : Kernel} {dir dir' : Nat} {s : DirStream} {xs : List CStr}
    (h : dir' ≠ dir) : (k.leave dir s xs).dirs dir' = k.dirs dir' := by
  simp [leave, h]

theorem readdir_eq {k : Kernel} {dir : Nat} {s : DirStream} (h : k.dirs dir = some s) :
    k.readdir dir = (s.remaining.head?, k.leave dir s s.remaining.tail) := by
  cases hrem : s.remaining with
  | nil =>
      have hleave := leave_remaining h
      rw [hrem] at hleave
      simp [readdir, h, hrem, hleave]
  | cons name names => simp [readdir, h, hrem]

theorem dirs_openFile (k : Kernel) (fd : Nat) (path : Option CStr) :
    (k.openFile fd path).2.dirs = k.dirs := by
  unfold openFile
  split
  · rfl
  · split <;> rfl

theorem files_openFile_of_live {k : Kernel} {fd fd' : Nat} {path : Option CStr}
    (h : (k.files fd').isSome = true) : (k.openFile fd path).2.files fd' = k.files fd' := by
  unfold openFile
  split
  · rfl
  · split
    · rename_i hfree
      have hne : fd' ≠ fd := by
        rintro rfl
        rw [hfree.2] at h
        cases h
      exact Function.update_of_ne hne _ _
    · rfl

/-- A stream that is still attached after a release is none of those on the descriptor. -/
theorem dirs_release {k : Kernel} {fd dir : Nat} {s : DirStream}
    (h : (k.release fd).dirs dir = some s) (hatt : s.attached = true) :
    k.dirs dir = some s ∧ (k.release fd).files s.fd = k.files s.fd := by
  obtain ⟨s₀, hs₀, hs⟩ := Option.map_eq_some_iff.mp h
  split at hs
  · subst hs; cases hatt
  · rename_i hne
    subst hs
    exact ⟨hs₀, Function.update_of_ne hne _ _⟩

end Kernel

/-! ## The loop of `readdir` -/

variable {dir fuel : Nat} {fd : Int} {sh : Shim} {k : Kernel} {s : DirStream}

def firstAllowed (sh : Shim) (fd : Int) (names : List CStr) : List CStr :=
  names.dropWhile fun name => !readdirEntryAllowed sh fd (some name)

theorem readdirLoop_eq {entry : CStr} (h : k.dirs dir = some s) (hfuel : s.remaining.length < fuel) :
    readdirLoop Kernel.readdir dir fd sh fuel entry k =
      some ((firstAllowed sh fd (entry :: s.remaining)).head?,
        k.leave dir s (firstAllowed sh fd (entry :: s.remaining)).tail) := by
  induction fuel generalizing entry k s with
  | zero => omega
  | succ fuel ih =>
      cases hallow : readdirEntryAllowed sh fd (some entry) with
      | true => simp [readdirLoop, firstAllowed, hallow, Kernel.leave_remaining h]
      | false =>
          cases hrem : s.remaining with
          | nil =>
              have hleave := Kernel.leave_remaining h
              rw [hrem] at hleave
              simp [readdirLoop, firstAllowed, hallow, Kernel.readdir_eq h, hrem, hleave]
          | cons name names =>
              rw [hrem, List.length_cons] at hfuel
              have hnext := @ih _ _ name (Kernel.dirs_leave k dir s names) (by simp; omega)
              rw [Kernel.leave_leave] at hnext
              simpa [readdirLoop, firstAllowed, hallow, Kernel.readdir_eq h, hrem] using hnext

/-- Spec of the interposed `readdir`: the stream advances past the next allowed name, which is the
answer. -/
theorem readdir_eq (h : k.dirs dir = some s) (hfuel : s.remaining.length ≤ fuel) :
    readdir (some Kernel.readdir) Kernel.dirfd fuel dir sh k =
      some ⟨(firstAllowed sh s.fd s.remaining).head?, none, sh,
        k.leave dir s (firstAllowed sh s.fd s.remaining).tail⟩ := by
  cases hrem : s.remaining with
  | nil => simp [readdir, Kernel.readdir_eq h, hrem, firstAllowed]
  | cons name names =>
      rw [hrem, List.length_cons] at hfuel
      have hdirfd : Kernel.dirfd dir (k.leave dir s names) = s.fd := by
        simp [Kernel.dirfd, Kernel.dirs_leave]
      have hloop := @readdirLoop_eq dir fuel s.fd sh _ _ name (Kernel.dirs_leave k dir s names)
        (by simp; omega)
      rw [Kernel.leave_leave] at hloop
      simp [readdir, Kernel.readdir_eq h, hrem, hdirfd, hloop]

theorem readdir_of_none (h : k.dirs dir = none) :
    readdir (some Kernel.readdir) Kernel.dirfd fuel dir sh k = some ⟨none, none, sh, k⟩ := by
  simp [readdir, Kernel.readdir, h]

namespace World

variable {w : World}

theorem step_readdir_of_some (use64 : Bool) (h : w.os.dirs dir = some s) :
    w.step (.readdir use64 dir) =
      { w with os := w.os.leave dir s (firstAllowed w.shim s.fd s.remaining).tail }.hear dir
        (firstAllowed w.shim s.fd s.remaining).head? := by
  have hfuel : s.remaining.length ≤ w.fuel dir := by simp [fuel, h]
  simp [step, readdir_eq h hfuel, after]

theorem step_readdir_of_none (use64 : Bool) (h : w.os.dirs dir = none) :
    w.step (.readdir use64 dir) = w.hear dir none := by
  simp [step, readdir_of_none h, after]

theorem hear_eq (w : World) (dir : Nat) (value : Option CStr) :
    w.hear dir value =
      { w with
        heard := Function.update w.heard dir (w.heard dir ++ value.toList)
        ended := Function.update w.ended dir (w.ended dir || value.isNone) } := by
  cases value with
  | none => simp [hear, Function.update_eq_self]
  | some name => simp [hear, Function.update_eq_self]

end World

end Nvscope
