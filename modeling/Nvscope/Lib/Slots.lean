import Mathlib.Data.Vector.Basic

/-!
# Arrays that are filled from the front

Results are written to the first slot that is free. A slot may be written without being taken, and is then
written again.
-/

namespace Lib

/-- An array of `n` slots, of which the first `count` are taken. -/
structure Slots (α : Type) (n : Nat) where
  array : List.Vector α n
  count : Nat
  count_le : count ≤ n

namespace Slots

variable {α β : Type} {n : Nat}

/-- No slot is taken; the array holds what it happens to hold. -/
def fresh (array : List.Vector α n) : Slots α n :=
  ⟨array, 0, Nat.zero_le n⟩

def items (s : Slots α n) : List α :=
  s.array.toList.take s.count

theorem offer_count_le {s : Slots α n} (h : s.count < n) (taken : Bool) :
    (if taken then s.count + 1 else s.count) ≤ n := by
  cases taken with
  | true => exact h
  | false => exact s.count_le

/-- `a` is written to the first free slot, and the slot is taken or not. -/
def offer (s : Slots α n) (h : s.count < n) (a : α) (taken : Bool) : Slots α n where
  array := s.array.set ⟨s.count, h⟩ a
  count := if taken then s.count + 1 else s.count
  count_le := offer_count_le h taken

@[simp] theorem items_fresh (array : List.Vector α n) : (fresh array).items = [] :=
  List.take_zero

@[simp] theorem length_items (s : Slots α n) : s.items.length = s.count := by
  rw [items, List.length_take, s.array.toList_length]
  exact Nat.min_eq_left s.count_le

/-- A slot that is not taken leaves no trace. -/
theorem items_offer (s : Slots α n) (h : s.count < n) (a : α) (taken : Bool) :
    (s.offer h a taken).items = s.items ++ if taken then [a] else [] := by
  have hlen : s.count < s.array.toList.length := by rw [s.array.toList_length]; exact h
  change (s.array.toList.set s.count a).take (if taken then s.count + 1 else s.count) = _
  cases taken with
  | true =>
      rw [if_pos rfl, if_pos rfl, List.take_add_one, List.take_set_of_le (Nat.le_refl _),
        List.getElem?_set_self hlen]
      rfl
  | false =>
      rw [if_neg Bool.false_ne_true, if_neg Bool.false_ne_true, List.take_set_of_le (Nat.le_refl _),
        List.append_nil]
      rfl

/-- Filling the array with what `g` gives for each entry keeps as many results as there are slots. -/
theorem items_foldl {body : Slots α n → β → Slots α n} {g : β → Option α}
    (hfull : ∀ s x, ¬ s.count < n → body s x = s)
    (hroom : ∀ s x, s.count < n → (body s x).items = s.items ++ (g x).toList) (xs : List β) (s : Slots α n) :
    (xs.foldl body s).items = (s.items ++ xs.filterMap g).take n := by
  induction xs generalizing s with
  | nil =>
      have hle : s.items.length ≤ n := by rw [s.length_items]; exact s.count_le
      rw [List.filterMap_nil, List.append_nil, List.take_of_length_le hle]
      rfl
  | cons x xs ih =>
      rw [List.foldl_cons, ih, List.filterMap_cons]
      by_cases hcount : s.count < n
      · rw [hroom s x hcount]
        cases g x <;> simp
      · have hlen : n ≤ s.items.length := by rw [s.length_items]; exact Nat.le_of_not_lt hcount
        rw [hfull s x hcount, List.take_append_of_le_length hlen, List.take_append_of_le_length hlen]

end Slots

end Lib
