import Mathlib.Data.List.Basic

/-!
# Loops with an exit inside

One round of a loop leads to the next state at the loop's head or out of the loop; `none` is a fault of the
program. A loop that is run with too little fuel gives `none` as well.
-/

namespace Lib

variable {σ ρ : Type}

inductive Round (σ ρ : Type) where
  | next (s : σ)
  | done (r : ρ)

def loop (round : σ → Option (Round σ ρ)) : Nat → σ → Option ρ
  | 0, _ => none
  | fuel + 1, s =>
      (round s).bind fun
        | .next s' => loop round fuel s'
        | .done r => some r

/-- The states at the head of the loop that starts in `s₀`. -/
inductive Heads (round : σ → Option (Round σ ρ)) (s₀ : σ) : σ → Prop where
  | start : Heads round s₀ s₀
  | next {s s' : σ} (h : Heads round s₀ s) (hround : round s = some (.next s')) : Heads round s₀ s'

variable {round : σ → Option (Round σ ρ)} {s s₀ s' : σ} {fuel : Nat} {r : ρ}

/-- Fuel that is more than the rounds left pays for one round. -/
theorem exists_fuel {n : Nat} (h : n < fuel) : ∃ left, fuel = left + 1 ∧ n ≤ left := by
  cases fuel with
  | zero => exact absurd h (Nat.not_lt_zero n)
  | succ left => exact ⟨left, rfl, Nat.le_of_lt_succ h⟩

theorem loop_next (h : round s = some (.next s')) : loop round (fuel + 1) s = loop round fuel s' := by
  rw [loop, h]
  rfl

theorem loop_done (h : round s = some (.done r)) : loop round (fuel + 1) s = some r := by
  rw [loop, h]
  rfl

theorem loop_mono {fuel' : Nat} (hle : fuel ≤ fuel') (h : loop round fuel s = some r) :
    loop round fuel' s = some r := by
  induction fuel generalizing fuel' s with
  | zero => cases h
  | succ fuel ih =>
      obtain ⟨fuel', rfl, hle⟩ := exists_fuel hle
      cases hround : round s with
      | none => rw [loop, hround] at h; cases h
      | some next =>
          cases next with
          | next s' =>
              rw [loop_next hround] at h ⊢
              exact ih (Nat.le_of_succ_le_succ hle) h
          | done r' =>
              rw [loop_done hround] at h ⊢
              exact h

/-- The invariant rule for loops. -/
theorem Heads.of_invariant {I : σ → Prop} (h0 : I s₀)
    (hround : ∀ s s', I s → round s = some (.next s') → I s') (h : Heads round s₀ s) : I s := by
  induction h with
  | start => exact h0
  | next _ hnext ih => exact hround _ _ ih hnext

theorem Heads.head (hround : round s₀ = some (.next s')) (h : Heads round s' s) : Heads round s₀ s := by
  induction h with
  | start => exact .next .start hround
  | next _ hnext ih => exact .next ih hnext

theorem heads_iff : Heads round s₀ s ↔ s = s₀ ∨ ∃ s₁, round s₀ = some (.next s₁) ∧ Heads round s₁ s := by
  constructor
  · intro h
    induction h with
    | start => exact Or.inl rfl
    | next _ hnext ih =>
        rcases ih with rfl | ⟨s₁, h₁, hs⟩
        · exact Or.inr ⟨_, hnext, .start⟩
        · exact Or.inr ⟨s₁, h₁, .next hs hnext⟩
  · rintro (rfl | ⟨s₁, h₁, hs⟩)
    · exact .start
    · exact hs.head h₁

/-- A loop that comes out comes out in the same way from every state at its head. -/
theorem Heads.loop (h : Heads round s₀ s) (hloop : Lib.loop round fuel s₀ = some r) :
    ∃ fuel', Lib.loop round fuel' s = some r := by
  induction h with
  | start => exact ⟨fuel, hloop⟩
  | next _ hround ih =>
      obtain ⟨fuel', hs⟩ := ih
      cases fuel' with
      | zero => cases hs
      | succ fuel' =>
          rw [loop_next hround] at hs
          exact ⟨fuel', hs⟩

/-- A state from which the loop comes out has a round to go, and the last one gives the result. -/
theorem round_of_loop (h : loop round fuel s = some r) :
    (∃ s', round s = some (.next s')) ∨ round s = some (.done r) := by
  cases fuel with
  | zero => cases h
  | succ fuel =>
      cases hround : round s with
      | none => rw [loop, hround] at h; cases h
      | some next =>
          cases next with
          | next s' => exact Or.inl ⟨s', rfl⟩
          | done r' =>
              rw [loop_done hround] at h
              cases h
              exact Or.inr rfl

section

variable {σ' ρ' : Type}

def Round.map (e : σ → σ') (g : ρ → ρ') : Round σ ρ → Round σ' ρ'
  | .next s => .next (e s)
  | .done r => .done (g r)

/-- A loop whose rounds are those of another one, seen through `e` and `g`. -/
theorem loop_map {round' : σ' → Option (Round σ' ρ')} (e : σ → σ') (g : ρ → ρ')
    (h : ∀ s, round' (e s) = (round s).map (Round.map e g)) (fuel : Nat) (s : σ) :
    loop round' fuel (e s) = (loop round fuel s).map g := by
  induction fuel generalizing s with
  | zero => rfl
  | succ fuel ih =>
      rw [loop, loop, h]
      cases round s with
      | none => rfl
      | some next =>
          cases next with
          | next s' => exact ih s'
          | done r => rfl

end

section

variable {σ' ρ' : Type} {R : σ → σ' → Prop} {Q : ρ → ρ' → Prop}

theorem rel_bind {x : Option σ} {y : Option σ'} {f : σ → Option ρ} {g : σ' → Option ρ'} (h : Option.Rel R x y)
    (hfg : ∀ a b, R a b → Option.Rel Q (f a) (g b)) : Option.Rel Q (x.bind f) (y.bind g) := by
  cases h with
  | none => exact .none
  | some hab => exact hfg _ _ hab

theorem rel_map {x : Option σ} {y : Option σ'} {f : σ → ρ} {g : σ' → ρ'} (h : Option.Rel R x y)
    (hfg : ∀ a b, R a b → Q (f a) (g b)) : Option.Rel Q (x.map f) (y.map g) := by
  cases h with
  | none => exact .none
  | some hab => exact .some (hfg _ _ hab)

theorem rel_mono {R' : σ → σ' → Prop} {x : Option σ} {y : Option σ'} (h : Option.Rel R x y)
    (hle : ∀ a b, R a b → R' a b) : Option.Rel R' x y := by
  cases h with
  | none => exact .none
  | some hab => exact .some (hle _ _ hab)

inductive Round.Rel (R : σ → σ' → Prop) (Q : ρ → ρ' → Prop) : Round σ ρ → Round σ' ρ' → Prop where
  | next {s : σ} {s' : σ'} (h : R s s') : Rel R Q (.next s) (.next s')
  | done {r : ρ} {r' : ρ'} (h : Q r r') : Rel R Q (.done r) (.done r')

/-- Loops that go round in step give related results, or fault together. -/
theorem loop_rel {round' : σ' → Option (Round σ' ρ')}
    (hround : ∀ s s', R s s' → Option.Rel (Round.Rel R Q) (round s) (round' s')) {s' : σ'} (h : R s s')
    (fuel : Nat) : Option.Rel Q (loop round fuel s) (loop round' fuel s') := by
  induction fuel generalizing s s' with
  | zero => exact .none
  | succ fuel ih =>
      refine rel_bind (hround s s' h) fun a b hab => ?_
      cases hab with
      | next hs => exact ih hs
      | done hr => exact .some hr

end

/-- The rule for total correctness: no round faults under the invariant, a round that goes on decreases the
measure, and one that leaves the loop establishes `Q`. -/
theorem loop_total {I : σ → Prop} {Q : ρ → Prop} (μ : σ → Nat)
    (hround : ∀ s, I s → (∃ s', round s = some (.next s') ∧ I s' ∧ μ s' < μ s) ∨
      ∃ r, round s = some (.done r) ∧ Q r)
    (hs : I s) (hfuel : μ s < fuel) : ∃ r, loop round fuel s = some r ∧ Q r := by
  induction fuel generalizing s with
  | zero => omega
  | succ fuel ih =>
      rcases hround s hs with ⟨s', hnext, hs', hlt⟩ | ⟨r, hdone, hr⟩
      · rw [loop_next hnext]
        exact ih hs' (by omega)
      · exact ⟨r, loop_done hdone, hr⟩

end Lib
