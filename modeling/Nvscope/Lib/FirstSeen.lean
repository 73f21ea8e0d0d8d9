import Mathlib.Data.Finset.Card
import Mathlib.Tactic.Tauto

/-!
# Bounded lists of first appearances

A table of at most `cap` entries that remembers each new value in the order it is first seen, and drops
values that arrive when it is full.
-/

namespace Lib

variable {α : Type} [DecidableEq α]

def remember (cap : Nat) (known : List α) (x : α) : List α :=
  if x ∈ known ∨ cap ≤ known.length then known else known ++ [x]

/-- While the values fit, the table holds all of them. -/
theorem mem_foldl_remember {cap : Nat} {xs known : List α} (h : known.length + xs.length ≤ cap) {y : α} :
    y ∈ xs.foldl (remember cap) known ↔ y ∈ known ∨ y ∈ xs := by
  induction xs generalizing known with
  | nil => simp
  | cons x xs ih =>
      rw [List.length_cons] at h
      rw [List.foldl_cons]
      by_cases hx : x ∈ known
      · have hrem : remember cap known x = known := by simp [remember, hx]
        have hor : y = x → y ∈ known := by rintro rfl; exact hx
        rw [hrem, ih (by omega), List.mem_cons]
        tauto
      · have hroom : ¬ cap ≤ known.length := by omega
        have hrem : remember cap known x = known ++ [x] := by simp [remember, hx, hroom]
        rw [hrem, ih (by simp; omega), List.mem_append, List.mem_singleton, List.mem_cons, or_assoc]

/-- What a table that starts as `known` holds after a sequence of values. -/
theorem foldl_remember (cap : Nat) (xs known : List α) :
    xs.foldl (remember cap) known =
      known ++ (xs.filter (· ∉ known)).eraseDups.take (cap - known.length) := by
  induction xs generalizing known with
  | nil => simp
  | cons x xs ih =>
      rw [List.foldl_cons, ih]
      by_cases hx : x ∈ known
      · simp [remember, hx]
      · by_cases hfull : cap ≤ known.length
        · have hzero : cap - known.length = 0 := by omega
          simp [remember, hfull, hzero]
        · have hsucc : cap - known.length = cap - (known ++ [x]).length + 1 := by simp; omega
          have hfilter : xs.filter (· ∉ known ++ [x]) =
              (xs.filter (· ∉ known)).filter (fun y => !y == x) := by
            rw [List.filter_filter]
            apply List.filter_congr
            intro y _
            rw [Bool.eq_iff_iff]
            simp [and_comm]
          have hrem : remember cap known x = known ++ [x] := by simp [remember, hx, hfull]
          rw [hrem, hsucc, hfilter, List.filter_cons_of_pos (by simpa using hx),
            List.eraseDups_cons, List.take_succ_cons, List.append_assoc, List.singleton_append]

theorem remember_of_settled {cap : Nat} {known : List α} {x : α} (h : x ∈ known ∨ cap ≤ known.length) :
    remember cap known x = known :=
  if_pos h

theorem prefix_remember (cap : Nat) (known : List α) (x : α) : known <+: remember cap known x := by
  unfold remember
  split
  · exact List.prefix_rfl
  · exact List.prefix_append known [x]

theorem prefix_foldl_remember (cap : Nat) (xs known : List α) : known <+: xs.foldl (remember cap) known := by
  induction xs generalizing known with
  | nil => exact List.prefix_rfl
  | cons x xs ih => exact (prefix_remember cap known x).trans (ih _)

/-- A value that has arrived is in the table, unless the table is full. -/
theorem settled_of_mem {cap : Nat} {xs known : List α} {x : α} (h : x ∈ xs) :
    x ∈ xs.foldl (remember cap) known ∨ cap ≤ (xs.foldl (remember cap) known).length := by
  induction xs generalizing known with
  | nil => exact absurd h List.not_mem_nil
  | cons y xs ih =>
      rw [List.foldl_cons]
      rcases List.mem_cons.mp h with rfl | hx
      · have hpre := prefix_foldl_remember cap xs (remember cap known x)
        by_cases hknown : x ∈ known ∨ cap ≤ known.length
        · rw [remember_of_settled hknown] at hpre ⊢
          exact hknown.imp (fun hmem => hpre.subset hmem) fun hfull => Nat.le_trans hfull hpre.length_le
        · have hrem : remember cap known x = known ++ [x] := if_neg hknown
          rw [hrem] at hpre ⊢
          exact Or.inl (hpre.subset (List.mem_append_right _ List.mem_cons_self))
      · exact ih hx

/-- The same values again change nothing. -/
theorem foldl_remember_again (cap : Nat) (xs known : List α) :
    xs.foldl (remember cap) (xs.foldl (remember cap) known) = xs.foldl (remember cap) known := by
  have hsettled : ∀ ys : List α, (∀ y ∈ ys, y ∈ xs) →
      ys.foldl (remember cap) (xs.foldl (remember cap) known) = xs.foldl (remember cap) known := by
    intro ys
    induction ys with
    | nil => exact fun _ => rfl
    | cons y ys ih =>
        intro hys
        rw [List.foldl_cons, remember_of_settled (settled_of_mem (hys y List.mem_cons_self))]
        exact ih fun z hz => hys z (List.mem_cons_of_mem _ hz)
  exact hsettled xs fun _ hy => hy

theorem nodup_remember {cap : Nat} {known : List α} (h : known.Nodup) (x : α) : (remember cap known x).Nodup := by
  rw [remember]
  split
  · exact h
  · rename_i hnew
    obtain ⟨hx, -⟩ := not_or.mp hnew
    rw [← List.concat_eq_append]
    exact h.concat hx

theorem mem_remember {cap : Nat} {known : List α} {x y : α} (h : y ∈ remember cap known x) : y ∈ known ∨ y = x := by
  rw [remember] at h
  split at h
  · exact Or.inl h
  · simpa using h

/-- The table holds each value once, and no other values than those that arrived. -/
theorem foldl_remember_sound {cap : Nat} {xs known : List α} (h : known.Nodup) :
    (xs.foldl (remember cap) known).Nodup ∧ ∀ y ∈ xs.foldl (remember cap) known, y ∈ known ∨ y ∈ xs := by
  induction xs generalizing known with
  | nil => exact ⟨h, fun y hy => Or.inl hy⟩
  | cons x xs ih =>
      obtain ⟨hnodup, hmem⟩ := ih (nodup_remember h x)
      refine ⟨hnodup, fun y hy => ?_⟩
      rcases hmem y hy with hknown | hrest
      · refine (mem_remember hknown).imp_right fun hx => ?_
        exact List.mem_cons.mpr (Or.inl hx)
      · exact Or.inr (List.mem_cons_of_mem x hrest)

/-- A table with room for the distinct values that arrive holds them all. -/
theorem mem_foldl_remember_of_card {cap : Nat} {xs : List α} (h : xs.toFinset.card ≤ cap) {y : α} :
    y ∈ xs.foldl (remember cap) [] ↔ y ∈ xs := by
  obtain ⟨hnodup, hmem⟩ := @foldl_remember_sound _ _ cap xs [] List.nodup_nil
  have hsub : (xs.foldl (remember cap) []).toFinset ⊆ xs.toFinset := by
    intro y hy
    rw [List.mem_toFinset] at hy ⊢
    exact (hmem y hy).resolve_left List.not_mem_nil
  refine ⟨fun hy => (hmem y hy).resolve_left List.not_mem_nil, fun hy => ?_⟩
  refine (settled_of_mem hy).elim id fun hfull => ?_
  -- as many values as have arrived are all of them
  have hcard : xs.toFinset.card ≤ (xs.foldl (remember cap) []).toFinset.card := by
    rw [List.toFinset_card_of_nodup hnodup]
    exact h.trans hfull
  have heq := Finset.eq_of_subset_of_card_le hsub hcard
  rwa [← List.mem_toFinset, heq, List.mem_toFinset]

theorem foldl_remember_nil (cap : Nat) (xs : List α) :
    xs.foldl (remember cap) [] = xs.eraseDups.take cap := by
  simp [foldl_remember]

end Lib
