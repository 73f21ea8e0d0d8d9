import Mathlib.Data.List.Basic

/-!
# Runs of a deterministic transition system

The events carry every choice the environment makes, so a run is the fold of the step function over its
events. `Always` speaks of every state a run goes through, `EachStep` of every step it takes.
-/

namespace Lib

variable {σ ε : Type} (step : σ → ε → σ)

def run (s : σ) (es : List ε) : σ :=
  es.foldl step s

/-- `P` holds in every state of the run, the first and the last included. -/
def Always (P : σ → Prop) : σ → List ε → Prop
  | s, [] => P s
  | s, e :: es => P s ∧ Always P (step s e) es

/-- `C` holds of every step of the run, at the state the step starts from. -/
def EachStep (C : σ → ε → Prop) : σ → List ε → Prop
  | _, [] => True
  | s, e :: es => C s e ∧ EachStep C (step s e) es

@[simp] theorem run_nil (s : σ) : run step s [] = s := rfl

@[simp] theorem run_cons (s : σ) (e : ε) (es : List ε) :
    run step s (e :: es) = run step (step s e) es := rfl

instance EachStep.decidable {C : σ → ε → Prop} [∀ s e, Decidable (C s e)] :
    ∀ (s : σ) (es : List ε), Decidable (EachStep step C s es)
  | _, [] => inferInstanceAs (Decidable True)
  | s, e :: es =>
      have : Decidable (EachStep step C (step s e) es) := EachStep.decidable (step s e) es
      inferInstanceAs (Decidable (_ ∧ _))

variable {step} {P I : σ → Prop} {C : σ → ε → Prop} {s : σ} {es : List ε}

theorem run_append (s : σ) (es fs : List ε) : run step s (es ++ fs) = run step (run step s es) fs :=
  List.foldl_append

theorem eachStep_append {fs : List ε} :
    EachStep step C s (es ++ fs) ↔ EachStep step C s es ∧ EachStep step C (run step s es) fs := by
  induction es generalizing s with
  | nil => exact ⟨fun h => ⟨trivial, h⟩, fun h => h.2⟩
  | cons e es ih =>
      rw [List.cons_append, EachStep, EachStep, ih, and_assoc]
      rfl

theorem EachStep.of_forall (h : ∀ e ∈ es, ∀ s, C s e) : EachStep step C s es := by
  induction es generalizing s with
  | nil => trivial
  | cons e es ih =>
      exact ⟨h e (by simp) s, ih fun f hf => h f (by simp [hf])⟩

theorem EachStep.mono {C' : σ → ε → Prop} (hC : ∀ s e, C s e → C' s e)
    (h : EachStep step C s es) : EachStep step C' s es := by
  induction es generalizing s with
  | nil => trivial
  | cons e es ih => exact ⟨hC _ _ h.1, ih h.2⟩

theorem Always.mono {P' : σ → Prop} (hP : ∀ s, P s → P' s) (h : Always step P s es) :
    Always step P' s es := by
  induction es generalizing s with
  | nil => exact hP _ h
  | cons e es ih => exact ⟨hP _ h.1, ih h.2⟩

theorem Always.last (h : Always step P s es) : P (run step s es) := by
  induction es generalizing s with
  | nil => exact h
  | cons e es ih => exact ih h.2

/-- The invariant rule: what holds at the start and is kept by every step that meets `C` holds in every
state of a run all of whose steps meet `C`. -/
theorem Always.of_invariant (h0 : I s) (hstep : ∀ s e, I s → C s e → I (step s e))
    (hC : EachStep step C s es) : Always step I s es := by
  induction es generalizing s with
  | nil => exact h0
  | cons e es ih => exact ⟨h0, ih (hstep _ _ h0 hC.1) hC.2⟩

/-- Where `C` is exactly what a step needs to keep `P`, the runs that stay in `P` are those all of whose
steps meet `C`. The events may be restricted by `A`, and `I` is a known invariant. -/
theorem always_iff_eachStep {A : ε → Prop} (hI : ∀ s e, A e → I s → I (step s e))
    (hstep : ∀ s e, A e → I s → P s → (P (step s e) ↔ C s e)) (hA : ∀ e ∈ es, A e) (hs : I s)
    (h0 : P s) : Always step P s es ↔ EachStep step C s es := by
  induction es generalizing s with
  | nil => exact ⟨fun _ => trivial, fun _ => h0⟩
  | cons e es ih =>
      have he : A e := hA e (by simp)
      have hes : ∀ f ∈ es, A f := fun f hf => hA f (by simp [hf])
      have hiff := hstep s e he hs h0
      have hnext := hI s e he hs
      constructor
      · rintro ⟨-, h⟩
        have hP : P (step s e) := by cases es with | nil => exact h | cons f fs => exact h.1
        exact ⟨hiff.mp hP, (ih hes hnext hP).mp h⟩
      · rintro ⟨hc, h⟩
        exact ⟨h0, (ih hes hnext (hiff.mpr hc)).mpr h⟩

/-- The same rule for a run whose steps may fault: it does not. -/
theorem foldlM_related {τ δ : Type} {step : σ → ε → Option σ} {step' : τ → δ → τ} {R : σ → τ → Prop} {f : ε → δ}
    (hstep : ∀ s t e, R s t → ∃ s', step s e = some s' ∧ R s' (step' t (f e))) {t : τ} (h : R s t) (es : List ε) :
    ∃ s', es.foldlM step s = some s' ∧ R s' (run step' t (es.map f)) := by
  induction es generalizing s t with
  | nil => exact ⟨s, rfl, h⟩
  | cons e es ih =>
      obtain ⟨s', hs', hrel⟩ := hstep s t e h
      obtain ⟨s'', hs'', hrel'⟩ := ih hrel
      refine ⟨s'', ?_, hrel'⟩
      rw [List.foldlM_cons, hs']
      exact hs''

end Lib
