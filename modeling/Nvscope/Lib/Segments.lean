import Mathlib.Data.List.TakeWhile

/-!
# The words between separators

Splitting at a separator and dropping the empty pieces, and joining words by single separators.
-/

namespace Lib

variable {α : Type} [DecidableEq α] {sep : α} {xs ys : List α}

/-- The non-empty words of `xs` between separators. -/
def words (sep : α) (xs : List α) : List (List α) :=
  (xs.splitOn sep).filter (· ≠ [])

theorem words_append_sep (xs ys : List α) : words sep (xs ++ sep :: ys) = words sep xs ++ words sep ys := by
  rw [words, List.splitOn_append_cons_self, List.filter_append, words, words]

@[simp] theorem words_nil : words sep ([] : List α) = [] := by
  simp [words, List.splitOn_nil]

@[simp] theorem words_cons_sep (xs : List α) : words sep (sep :: xs) = words sep xs := by
  simpa using @words_append_sep _ _ sep [] xs

theorem words_dropWhile (xs : List α) : words sep (xs.dropWhile (· == sep)) = words sep xs := by
  induction xs with
  | nil => rfl
  | cons x xs ih =>
      by_cases hx : x = sep
      · subst hx
        rw [List.dropWhile_cons_of_pos (by simp), ih, words_cons_sep]
      · rw [List.dropWhile_cons_of_neg (by simpa using hx)]

/-- A word without separators, and what follows it. -/
theorem words_append {w rest : List α} (hne : w ≠ []) (hsep : sep ∉ w)
    (hrest : ∀ x, rest.head? = some x → x = sep) : words sep (w ++ rest) = w :: words sep rest := by
  have hw : words sep w = [w] := by simp [words, List.splitOn_eq_singleton hsep, hne]
  cases rest with
  | nil => rw [List.append_nil, hw, words_nil]
  | cons x rest =>
      obtain rfl := hrest x rfl
      rw [words_append_sep, hw, words_cons_sep]
      rfl

/-- The word at the front, as a scanning loop finds it. -/
theorem words_takeWhile (hne : xs ≠ []) (hhead : xs.head? ≠ some sep) :
    words sep xs = xs.takeWhile (· != sep) :: words sep (xs.dropWhile (· != sep)) := by
  have hfirst : xs.takeWhile (· != sep) ≠ [] := by
    cases xs with
    | nil => exact absurd rfl hne
    | cons x xs =>
        have hx : x ≠ sep := by simpa using hhead
        rw [List.takeWhile_cons_of_pos (by simpa using hx)]
        exact List.cons_ne_nil _ _
  have hsep : sep ∉ xs.takeWhile (· != sep) := by
    intro h
    have himp := List.mem_takeWhile_imp h
    simp at himp
  have hrest : ∀ x, (xs.dropWhile (· != sep)).head? = some x → x = sep := by
    intro x hx
    have hnot := List.head?_dropWhile_not (· != sep) xs
    rw [hx] at hnot
    simpa using hnot
  have hwords := words_append hfirst hsep hrest
  rwa [List.takeWhile_append_dropWhile] at hwords

theorem ne_nil_of_mem_words {w : List α} (h : w ∈ words sep xs) : w ≠ [] := by
  simpa using (List.mem_filter.mp h).2

theorem not_mem_of_mem_splitOn {w : List α} (h : w ∈ xs.splitOn sep) : sep ∉ w := by
  induction xs generalizing w with
  | nil =>
      rw [List.splitOn_nil, List.mem_singleton] at h
      rw [h]
      exact List.not_mem_nil
  | cons x xs ih =>
      rw [List.splitOn_cons_eq_if_modifyHead] at h
      split at h
      · rcases List.mem_cons.mp h with rfl | h
        · exact List.not_mem_nil
        · exact ih h
      · rename_i hx
        cases hsplit : xs.splitOn sep with
        | nil => exact absurd hsplit (List.splitOn_ne_nil _ _)
        | cons v vs =>
            rw [hsplit] at h ih
            rcases List.mem_cons.mp h with rfl | h
            · have hv := ih List.mem_cons_self
              intro hmem
              rcases List.mem_cons.mp hmem with rfl | hmem
              · exact hx (beq_self_eq_true _)
              · exact hv hmem
            · exact ih (List.mem_cons_of_mem _ h)

theorem not_mem_of_mem_words {w : List α} (h : w ∈ words sep xs) : sep ∉ w :=
  not_mem_of_mem_splitOn (List.mem_filter.mp h).1

theorem words_intercalate {ws : List (List α)} (hne : ∀ w ∈ ws, w ≠ []) (hsep : ∀ w ∈ ws, sep ∉ w) :
    words sep ([sep].intercalate ws) = ws := by
  cases ws with
  | nil => simp
  | cons w ws =>
      rw [words, List.splitOn_intercalate sep hsep (List.cons_ne_nil _ _), List.filter_eq_self]
      simpa using hne

end Lib
