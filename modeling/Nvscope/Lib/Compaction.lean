import Mathlib.Data.Vector.Basic
import Nvscope.Lib.Checked
import Nvscope.Lib.Loops

/-!
# Arrays that are compacted in place

The kept elements are written to the front of an array; the rest is filled with an end mark, or left as it
was.
-/

namespace Lib

variable {α : Type}

/-- `xs`, filled up with `mark` to length `n`. -/
def padTo (n : Nat) (mark : α) (xs : List α) : List α :=
  xs ++ List.replicate (n - xs.length) mark

theorem length_padTo {n : Nat} (mark : α) {ys : List α} (h : ys.length ≤ n) : (padTo n mark ys).length = n := by
  rw [padTo, List.length_append, List.length_replicate, Nat.add_sub_cancel' h]

/-- What is written at index `i`: a kept element, or the mark. -/
theorem getElem?_padTo {mark : α} {ys : List α} {n i : Nat} (hi : i < n) (stale : List α) :
    (padTo n mark ys)[i]? = if i < ys.length then (ys ++ stale)[i]? else some mark := by
  rw [padTo]
  by_cases hin : i < ys.length
  · rw [if_pos hin, List.getElem?_append_left hin, List.getElem?_append_left hin]
  · rw [if_neg hin, List.getElem?_append_right (Nat.le_of_not_lt hin), List.getElem?_replicate, if_pos (by omega)]

theorem toList_ofFn_getD {n : Nat} (mark : α) {xs : List α} (h : xs.length ≤ n) :
    (List.Vector.ofFn fun i : Fin n => xs.getD i mark).toList = padTo n mark xs := by
  rw [List.Vector.toList_ofFn]
  apply List.ext_getElem
  · simp [padTo]; omega
  · intro i hi _
    simp only [List.length_ofFn] at hi
    by_cases hx : i < xs.length
    · simp [padTo, List.getElem_append_left hx, hx]
    · simp [padTo, List.getElem_append_right (Nat.le_of_not_lt hx), hx]

theorem toList_ofFn_getD_get {n : Nat} (v : List.Vector α n) {xs : List α} (h : xs.length ≤ n) :
    (List.Vector.ofFn fun i : Fin n => xs.getD i (v.get i)).toList = xs ++ v.toList.drop xs.length := by
  rw [List.Vector.toList_ofFn]
  apply List.ext_getElem
  · simp; omega
  · intro i hi _
    simp only [List.length_ofFn] at hi
    by_cases hx : i < xs.length
    · simp [List.getElem_append_left hx, hx]
    · have hle : xs.length ≤ i := Nat.le_of_not_lt hx
      simp [List.getElem_append_right hle, hx, List.Vector.get_eq_get_toList, Nat.add_sub_cancel' hle]

/-- A reader that stops at the mark sees the elements in front of the filling. -/
theorem takeWhile_padTo [DecidableEq α] (n : Nat) {mark : α} {xs : List α} (h : ∀ x ∈ xs, x ≠ mark) :
    (padTo n mark xs).takeWhile (· != mark) = xs := by
  have hxs : ∀ x ∈ xs, (x != mark) = true := fun x hx => by simpa using h x hx
  have hrest : (List.replicate (n - xs.length) mark).takeWhile (· != mark) = [] := by
    cases n - xs.length <;> simp [List.replicate_succ]
  rw [padTo, List.takeWhile_append_of_pos hxs, hrest, List.append_nil]

/-! ## The loops -/

/-- One round of the loop that copies what it keeps to a scratch array: over the index, the scratch array and
the number of its elements in use. -/
def keepRound (stop : α → Bool) (keep : α → Option Bool) (room : Nat → Bool) (xs : List α) (count : Nat)
    (st : Nat × List α × Nat) : Option (Round (Nat × List α × Nat) (List α × Nat)) :=
  let (i, scratch, used) := st
  if i < count then
    xs[i]?.bind fun x =>
      if stop x then some (.done (scratch, used))
      else
        (keep x).bind fun kept =>
          if kept && room used then
            (store scratch used x).map fun scratch => .next (i + 1, scratch, used + 1)
          else some (.next (i + 1, scratch, used))
  else some (.done (scratch, used))

/-- One round of the loop that writes the kept elements back and fills the rest with the mark. -/
def fillRound (mark : α) (scratch : List α) (used count : Nat) (st : Nat × List α) :
    Option (Round (Nat × List α) (List α)) :=
  let (i, xs) := st
  if i < count then
    (if i < used then scratch[i]? else some mark).bind fun x =>
      (store xs i x).map fun xs => .next (i + 1, xs)
  else some (.done xs)

/-- What the copying loop keeps. -/
def keptOf (stop keep : α → Bool) (xs : List α) : List α :=
  (xs.takeWhile fun x => !stop x).filter keep

section

variable {stop kept : α → Bool} {keep : α → Option Bool} {room : Nat → Bool} {xs scratch : List α}
  {count fuel : Nat}

theorem keepRound_end {i : Nat} (hi : ¬ i < count) (used : Nat) :
    keepRound stop keep room xs count (i, scratch, used) = some (.done (scratch, used)) := by
  simp [keepRound, hi]

theorem keepRound_stop {i : Nat} {x : α} (hi : i < count) (hget : xs[i]? = some x) (hstop : stop x = true)
    (used : Nat) : keepRound stop keep room xs count (i, scratch, used) = some (.done (scratch, used)) := by
  simp [keepRound, hi, hget, hstop]

theorem keepRound_skip {i : Nat} {x : α} (hi : i < count) (hget : xs[i]? = some x) (hstop : stop x = false)
    (hkeep : keep x = some false) (used : Nat) :
    keepRound stop keep room xs count (i, scratch, used) = some (.next (i + 1, scratch, used)) := by
  simp [keepRound, hi, hget, hstop, hkeep]

/-- Step lemma: the element takes the place behind those that are kept. -/
theorem keepRound_copy {i : Nat} {x : α} (hi : i < count) (hget : xs[i]? = some x) (hstop : stop x = false)
    (hkeep : keep x = some true) {written : List α} (hroom : room written.length = true) (y : α)
    (free : List α) :
    keepRound stop keep room xs count (i, written ++ y :: free, written.length) =
      some (.next (i + 1, (written ++ [x]) ++ free, (written ++ [x]).length)) := by
  have hsplit : written ++ x :: free = (written ++ [x]) ++ free := by simp
  have hstore := store_append written free y x
  rw [hsplit] at hstore
  simp [keepRound, hi, hget, hstop, hkeep, hroom, hstore]

/-- Run lemma: from index `i` on, with the elements of `written` already copied. -/
theorem loop_keepRound_from (hkeep : ∀ x, keep x = some (kept x)) {rest : List α} :
    ∀ {i : Nat} {written free : List α} {fuel : Nat}, (xs.take count).drop i = rest → count ≤ xs.length →
      (∀ n, n < (written ++ free).length → room n = true) → rest.length ≤ free.length → rest.length < fuel →
      ∃ stale, loop (keepRound stop keep room xs count) fuel (i, written ++ free, written.length) =
          some (written ++ (keptOf stop kept rest ++ stale), (written ++ keptOf stop kept rest).length) ∧
        (written ++ (keptOf stop kept rest ++ stale)).length = (written ++ free).length := by
  induction rest with
  | nil =>
      intro i written free fuel hrest hcount _ _ hfuel
      obtain ⟨fuel, rfl, -⟩ := exists_fuel hfuel
      have hend : ¬ i < count := by
        have hlen := List.drop_eq_nil_iff.mp hrest
        rw [List.length_take_of_le hcount] at hlen
        exact Nat.not_lt_of_le hlen
      refine ⟨free, ?_, rfl⟩
      rw [loop_done (keepRound_end hend _)]
      simp [keptOf]
  | cons x rest ih =>
      intro i written free fuel hrest hcount hroom hfree hfuel
      obtain ⟨fuel, rfl, hleft⟩ := exists_fuel hfuel
      rw [List.length_cons] at hfree
      obtain ⟨hget, hnext⟩ := of_drop_eq_cons hrest
      rw [List.getElem?_take] at hget
      have hi : i < count := by
        by_contra hno
        rw [if_neg hno] at hget
        cases hget
      rw [if_pos hi] at hget
      have hx := hkeep x
      cases hstop : stop x with
      | true =>
          have hkept : keptOf stop kept (x :: rest) = [] := by simp [keptOf, hstop]
          refine ⟨free, ?_, ?_⟩
          · rw [loop_done (keepRound_stop hi hget hstop _), hkept, List.append_nil, List.nil_append]
          · rw [hkept, List.nil_append]
      | false =>
          cases hk : kept x with
          | false =>
              have hkept : keptOf stop kept (x :: rest) = keptOf stop kept rest := by
                simp [keptOf, hstop, hk]
              rw [hk] at hx
              rw [hkept, loop_next (keepRound_skip hi hget hstop hx _)]
              exact ih hnext hcount hroom (Nat.le_of_succ_le hfree) hleft
          | true =>
              have hkept : keptOf stop kept (x :: rest) = x :: keptOf stop kept rest := by
                simp [keptOf, hstop, hk]
              rw [hk] at hx
              cases free with
              | nil => exact absurd hfree (Nat.not_succ_le_zero _)
              | cons y free =>
                  have hr : room written.length = true := hroom _ (by simp)
                  have hlen : ((written ++ [x]) ++ free).length = (written ++ y :: free).length := by simp
                  obtain ⟨stale, hloop, hsize⟩ := @ih (i + 1) (written ++ [x]) free fuel hnext hcount
                    (fun n hn => hroom n (by rwa [hlen] at hn)) (by simpa using hfree) hleft
                  rw [hkept, loop_next (keepRound_copy hi hget hstop hx hr y free)]
                  refine ⟨stale, ?_, ?_⟩
                  · rw [hloop]
                    simp
                  · rw [← hlen, ← hsize]
                    simp

/-- Where the scratch array is as long as the array, nothing that is to be kept is dropped. -/
theorem loop_keepRound (hkeep : ∀ x, keep x = some (kept x)) (hcount : count ≤ xs.length)
    (hscratch : count ≤ scratch.length) (hroom : ∀ n, n < scratch.length → room n = true)
    (hfuel : count < fuel) :
    ∃ stale, loop (keepRound stop keep room xs count) fuel (0, scratch, 0) =
        some (keptOf stop kept (xs.take count) ++ stale, (keptOf stop kept (xs.take count)).length) := by
  have hlen : (xs.take count).length = count := List.length_take_of_le hcount
  obtain ⟨stale, hloop, -⟩ := @loop_keepRound_from _ stop kept keep room xs count hkeep (xs.take count) 0 []
    scratch fuel rfl hcount hroom (by rwa [hlen]) (by rwa [hlen])
  exact ⟨stale, hloop⟩

theorem fillRound_end (mark : α) (used count : Nat) :
    fillRound mark scratch used count (count, xs) = some (.done xs) := by
  simp [fillRound]

/-- Step lemma: one element more agrees with the result. -/
theorem fillRound_next {mark y : α} {ys rest stale : List α} {i : Nat} (hys : ys.length ≤ count)
    (hi : i < count) :
    fillRound mark (ys ++ stale) ys.length count (i, (padTo count mark ys).take i ++ y :: rest) =
      some (.next (i + 1, (padTo count mark ys).take (i + 1) ++ rest)) := by
  have hlen := length_padTo mark hys
  have htake : ((padTo count mark ys).take i).length = i := by
    rw [List.length_take, hlen, Nat.min_eq_left (Nat.le_of_lt hi)]
  obtain ⟨x, hx⟩ : ∃ x, (padTo count mark ys)[i]? = some x :=
    ⟨_, List.getElem?_eq_getElem (by rwa [hlen])⟩
  have hload : (if i < ys.length then (ys ++ stale)[i]? else some mark) = some x := by
    rw [← getElem?_padTo hi, hx]
  have hstore := store_append ((padTo count mark ys).take i) rest y x
  rw [htake] at hstore
  simp [fillRound, hi, hload, hstore, List.take_add_one, hx]

theorem loop_fillRound_from {mark : α} {ys stale : List α} {rest : List α} :
    ∀ {i fuel : Nat}, i + rest.length = count → ys.length ≤ count → rest.length < fuel →
      loop (fillRound mark (ys ++ stale) ys.length count) fuel (i, (padTo count mark ys).take i ++ rest) =
        some (padTo count mark ys) := by
  induction rest with
  | nil =>
      intro i fuel hi hys hfuel
      obtain ⟨fuel, rfl, -⟩ := exists_fuel hfuel
      rw [List.length_nil, Nat.add_zero] at hi
      rw [hi, List.append_nil, List.take_of_length_le (Nat.le_of_eq (length_padTo mark hys))]
      exact loop_done (fillRound_end mark _ count)
  | cons y rest ih =>
      intro i fuel hi hys hfuel
      obtain ⟨fuel, rfl, hleft⟩ := exists_fuel hfuel
      rw [List.length_cons] at hi
      have hlt : i < count := by omega
      rw [loop_next (fillRound_next hys hlt)]
      exact ih (by omega) hys hleft

theorem loop_fillRound {mark : α} {ys stale : List α} (hys : ys.length ≤ xs.length) (hfuel : xs.length < fuel) :
    loop (fillRound mark (ys ++ stale) ys.length xs.length) fuel (0, xs) = some (padTo xs.length mark ys) :=
  @loop_fillRound_from _ xs.length mark ys stale xs 0 fuel (Nat.zero_add _) hys hfuel

end

end Lib
