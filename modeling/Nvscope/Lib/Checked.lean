import Mathlib.Data.List.TakeDrop

/-!
# What a C program may do

Stores to an array and arithmetic on a signed type, with `none` where the language leaves the behaviour
undefined: an index outside the array, a result outside the type. A load of `xs[i]` is `xs[i]?`.
-/

namespace Lib

variable {α : Type}

def store (xs : List α) (i : Nat) (x : α) : Option (List α) :=
  if i < xs.length then some (xs.set i x) else none

/-- The source of a `memcpy`: the first `n` elements. -/
def loadFront (xs : List α) (n : Nat) : Option (List α) :=
  if n ≤ xs.length then some (xs.take n) else none

/-- The destination of a `memcpy`: `ys` is written from index `i` on. -/
def storeMany (xs : List α) (i : Nat) (ys : List α) : Option (List α) :=
  if i + ys.length ≤ xs.length then some (xs.take i ++ (ys ++ xs.drop (i + ys.length))) else none

/-- The non-negative value of an expression of a type that ends at `max`. -/
def inType (max n : Nat) : Option Nat :=
  if n ≤ max then some n else none

theorem inType_of_le {max n : Nat} (h : n ≤ max) : inType max n = some n :=
  if_pos h

/-- The element a loop over an array looks at, and what it leaves for the next round. -/
theorem of_drop_eq_cons {xs rest : List α} {i : Nat} {x : α} (h : xs.drop i = x :: rest) :
    xs[i]? = some x ∧ xs.drop (i + 1) = rest := by
  refine ⟨?_, ?_⟩
  · rw [← List.head?_drop, h]
    rfl
  · rw [← List.drop_drop, h]
    rfl

/-! ## Behind what is written -/

theorem store_append (written rest : List α) (x y : α) :
    store (written ++ x :: rest) written.length y = some (written ++ y :: rest) := by
  have hlt : written.length < (written ++ x :: rest).length := by simp
  have hset : (written ++ x :: rest).set written.length y = written ++ y :: rest := by simp
  rw [store, if_pos hlt, hset]

/-- While the array has room behind what is written, the next place can be stored to. -/
theorem exists_store_append {written free : List α} {n : Nat} (hlen : (written ++ free).length = n)
    (hroom : written.length < n) (x : α) :
    ∃ free', store (written ++ free) written.length x = some (written ++ x :: free') ∧
      (written ++ x :: free').length = n := by
  cases free with
  | nil =>
      rw [List.append_nil] at hlen
      exact absurd hlen (Nat.ne_of_lt hroom)
  | cons y free =>
      refine ⟨free, store_append written free y x, ?_⟩
      rw [← hlen]
      simp

theorem storeMany_append {written rest ys : List α} (h : ys.length ≤ rest.length) :
    storeMany (written ++ rest) written.length ys = some (written ++ (ys ++ rest.drop ys.length)) := by
  have hle : written.length + ys.length ≤ (written ++ rest).length := by simpa using h
  rw [storeMany, if_pos hle, List.take_left' rfl, List.drop_length_add_append]

theorem loadFront_append (xs rest : List α) : loadFront (xs ++ rest) xs.length = some xs := by
  have hle : xs.length ≤ (xs ++ rest).length := by simp
  rw [loadFront, if_pos hle, List.take_left' rfl]

end Lib
