import Mathlib.Data.List.DropRight
import Mathlib.Data.List.TakeWhile

/-!
# Texts of lines

A scan that works on each line of a text once it is complete, and the blanks around a word.
-/

namespace Lib

variable {α σ : Type}

/-! ## Lines -/

theorem not_mem_concat {sep c : α} {line : List α} (hline : sep ∉ line) (hc : c ≠ sep) : sep ∉ line ++ [c] := by
  intro hmem
  rcases List.mem_append.mp hmem with hmem | hmem
  · exact hline hmem
  · exact hc (List.mem_singleton.mp hmem).symm

section

variable [DecidableEq α] {sep : α} {f : σ → List α → σ}

/-- `line` is what has been read of the current line; an empty line at the end of the text is not worked
on. -/
def scanLines (sep : α) (f : σ → List α → σ) : List α → List α → σ → σ
  | [], line, s => if line = [] then s else f s line
  | c :: cs, line, s =>
      if c = sep then scanLines sep f cs [] (f s line) else scanLines sep f cs (line ++ [c]) s

/-- Where empty lines have no effect, the scan works on the pieces between the separators. -/
theorem scanLines_eq (hnil : ∀ s, f s [] = s) {line : List α} (hline : sep ∉ line) (text : List α) (s : σ) :
    scanLines sep f text line s = ((line ++ text).splitOn sep).foldl f s := by
  induction text generalizing line s with
  | nil =>
      rw [List.append_nil, List.splitOn_eq_singleton hline, scanLines]
      by_cases hempty : line = []
      · rw [if_pos hempty, hempty, List.foldl_cons, hnil]
        rfl
      · rw [if_neg hempty]
        rfl
  | cons c cs ih =>
      rw [scanLines]
      by_cases hc : c = sep
      · rw [if_pos hc, hc, ih List.not_mem_nil, List.splitOn_append_cons_self_of_not_mem hline]
        rfl
      · rw [if_neg hc, ih (not_mem_concat hline hc), List.append_assoc]
        rfl

/-- Empty lines at the front have no effect. -/
theorem scanLines_replicate (hnil : ∀ s, f s [] = s) (n : Nat) (text : List α) (s : σ) :
    scanLines sep f (List.replicate n sep ++ text) [] s = scanLines sep f text [] s := by
  induction n with
  | zero => rfl
  | succ n ih => rw [List.replicate_succ, List.cons_append, scanLines, if_pos rfl, hnil, ih]

/-- Where a text is cut: the pieces in front of the cut stay, and the last one goes on behind it. -/
theorem splitOn_append (sep : α) (xs : List α) :
    ∃ before last, xs.splitOn sep = before ++ [last] ∧ sep ∉ last ∧ before.length = xs.count sep ∧
      ∀ ys, (xs ++ ys).splitOn sep = before ++ (last ++ ys).splitOn sep := by
  induction xs using List.reverseRecOn with
  | nil => exact ⟨[], [], List.splitOn_nil _, List.not_mem_nil, rfl, fun _ => rfl⟩
  | append_singleton xs x ih =>
      obtain ⟨before, last, -, hlast, hlen, happend⟩ := ih
      by_cases hx : x = sep
      · subst hx
        have hnext : ∀ ys, (xs ++ [x] ++ ys).splitOn x = before ++ [last] ++ ys.splitOn x := by
          intro ys
          rw [List.append_assoc, happend, List.singleton_append,
            List.splitOn_append_cons_self_of_not_mem hlast, List.append_assoc, List.singleton_append]
        refine ⟨before ++ [last], [], ?_, List.not_mem_nil, ?_, hnext⟩
        · have h := hnext []
          rwa [List.append_nil, List.splitOn_nil] at h
        · rw [List.length_append, List.count_append, hlen, List.count_singleton_self]
          rfl
      · have hnot := not_mem_concat hlast hx
        refine ⟨before, last ++ [x], ?_, hnot, ?_, fun ys => ?_⟩
        · rw [happend, List.splitOn_eq_singleton hnot]
        · rw [List.count_append, hlen, List.count_singleton, if_neg (by simpa using hx), Nat.add_zero]
        · rw [List.append_assoc, happend, List.append_assoc]

/-- The first piece goes on from where there is no separator yet. -/
theorem prefix_splitOn {line : List α} (hline : sep ∉ line) (rest : List α) :
    ∃ first more, (line ++ rest).splitOn sep = first :: more ∧ line <+: first := by
  induction rest generalizing line with
  | nil => exact ⟨line, [], by rw [List.append_nil, List.splitOn_eq_singleton hline], List.prefix_rfl⟩
  | cons x rest ih =>
      by_cases hx : x = sep
      · subst hx
        exact ⟨line, _, List.splitOn_append_cons_self_of_not_mem hline rest, List.prefix_rfl⟩
      · obtain ⟨first, more, hsplit, hpre⟩ := ih (not_mem_concat hline hx)
        rw [List.append_assoc] at hsplit
        exact ⟨first, more, hsplit, (List.prefix_append line [x]).trans hpre⟩

end

/-! ## Blanks -/

variable {p : α → Bool} {xs ys : List α}

def trim (p : α → Bool) (xs : List α) : List α :=
  (xs.dropWhile p).rdropWhile p

/-- `ys` is `xs` without the blanks at its two ends. -/
structure Trimmed (p : α → Bool) (xs ys : List α) : Prop where
  split : ∃ pre post, xs = pre ++ (ys ++ post) ∧ (∀ c ∈ pre, p c = true) ∧ ∀ c ∈ post, p c = true
  head : ∀ c, ys.head? = some c → p c = false
  last : ∀ c, ys.getLast? = some c → p c = false

theorem dropWhile_head_false {c : α} (h : (xs.dropWhile p).head? = some c) : p c = false := by
  have hnot := List.head?_dropWhile_not p xs
  rw [h] at hnot
  exact hnot

theorem dropWhile_of_head (h : ∀ c, xs.head? = some c → p c = false) : xs.dropWhile p = xs := by
  cases xs with
  | nil => rfl
  | cons c cs => exact List.dropWhile_cons_of_neg (by rw [h c rfl]; exact Bool.false_ne_true)

theorem trimmed_trim (p : α → Bool) (xs : List α) : Trimmed p xs (trim p xs) where
  split := by
    refine ⟨xs.takeWhile p, (xs.dropWhile p).rtakeWhile p, ?_, fun c hc => List.mem_takeWhile_imp hc,
      fun c hc => List.mem_takeWhile_imp (List.mem_reverse.mp hc)⟩
    have hright : trim p xs ++ (xs.dropWhile p).rtakeWhile p = xs.dropWhile p := by
      rw [trim, List.rdropWhile, List.rtakeWhile, ← List.reverse_append, List.takeWhile_append_dropWhile,
        List.reverse_reverse]
    rw [hright, List.takeWhile_append_dropWhile]
  head := by
    intro c hc
    obtain ⟨post, hpost⟩ := List.rdropWhile_prefix p (xs.dropWhile p)
    have hhead : (xs.dropWhile p).head? = some c := by
      rw [← hpost, List.head?_append]
      exact congrArg (Option.or · post.head?) hc
    exact dropWhile_head_false hhead
  last := by
    intro c hc
    rw [trim, List.rdropWhile, List.getLast?_reverse] at hc
    exact dropWhile_head_false hc

theorem Trimmed.eq_trim (h : Trimmed p xs ys) : ys = trim p xs := by
  obtain ⟨⟨pre, post, rfl, hpre, hpost⟩, hhead, hlast⟩ := h
  rw [trim, List.dropWhile_append_of_pos hpre]
  by_cases hempty : ys = []
  · subst hempty
    have hdrop : post.dropWhile p = [] := List.dropWhile_eq_nil_iff.mpr hpost
    rw [List.nil_append, hdrop]
    rfl
  · have hkept : (ys ++ post).dropWhile p = ys ++ post := by
      refine dropWhile_of_head fun c hc => hhead c ?_
      rwa [List.head?_append_of_ne_nil _ hempty] at hc
    have hreverse : ys.reverse.dropWhile p = ys.reverse := by
      refine dropWhile_of_head fun c hc => hlast c ?_
      rwa [List.head?_reverse] at hc
    rw [hkept, List.rdropWhile, List.reverse_append,
      List.dropWhile_append_of_pos fun c hc => hpost c (List.mem_reverse.mp hc), hreverse,
      List.reverse_reverse]

/-- `trim` is what its name says. -/
theorem trim_eq_iff : trim p xs = ys ↔ Trimmed p xs ys :=
  ⟨fun h => h ▸ trimmed_trim p xs, fun h => h.eq_trim.symm⟩

end Lib
