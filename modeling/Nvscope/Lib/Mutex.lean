import Mathlib.Logic.Function.Basic
import Nvscope.Lib.Loops
import Nvscope.Lib.Runs

/-!
# An object behind a mutex

Threads call the operations of an object. An operation that needs the object's state takes the mutex and works
on the state in rounds; between two rounds any other thread may take a step. An operation that does not need
the state answers without the mutex.

What an operation does with its result once the mutex is released is its own affair, and given as a function.

The rule of the module: where each operation, run alone, does what an atomic specification says, every
interleaving answers like a serial execution of the specification.
-/

namespace Lib

variable {τ σ α β ω ℓ ρ : Type}

/-- What the operations `ω` do: `enter` gives the local state of the first round, or the answer of an operation
that does not take the mutex. -/
structure Guarded (σ ω ℓ ρ : Type) where
  enter : ω → ℓ ⊕ ρ
  round : ω → ℓ × σ → Option (Round (ℓ × σ) (ρ × σ))

/-- Where a thread is. -/
inductive Place (ω ℓ ρ : Type) where
  | idle
  | waiting (op : ω) (l : ℓ)
  | inside (op : ω) (l : ℓ)
  | leaving (op : ω) (r : ρ)

def Place.Holds : Place ω ℓ ρ → Prop
  | .idle | .waiting _ _ => False
  | .inside _ _ | .leaving _ _ => True

/-- An operation that has had its effect, with its answer. -/
structure Served (τ ω ρ : Type) where
  thread : τ
  op : ω
  answer : ρ

/-- What the operation makes of its result. -/
def Served.map (view : ω → ρ → β) (e : Served τ ω ρ) : Served τ ω β :=
  ⟨e.thread, e.op, view e.op e.answer⟩

/-- `served` records the operations in the order of their last rounds. -/
structure Shared (τ σ ω ℓ ρ : Type) where
  state : σ
  holder : Option τ
  place : τ → Place ω ℓ ρ
  served : List (Served τ ω ρ)

/-- A step of a thread. -/
inductive Move (τ ω : Type) where
  | call (t : τ) (op : ω)
  | lock (t : τ)
  | round (t : τ)
  | unlock (t : τ)

namespace Shared

/-- Nobody is inside, and nothing has been served. -/
def start (s : σ) : Shared τ σ ω ℓ ρ :=
  { state := s, holder := none, place := fun _ => .idle, served := [] }

variable [DecidableEq τ]

/-- A step that is not possible, or that faults, changes nothing. -/
def step (g : Guarded σ ω ℓ ρ) (m : Shared τ σ ω ℓ ρ) : Move τ ω → Shared τ σ ω ℓ ρ
  | .call t op =>
      match m.place t with
      | .idle =>
          match g.enter op with
          | .inl l => { m with place := Function.update m.place t (.waiting op l) }
          | .inr r => { m with served := m.served ++ [⟨t, op, r⟩] }
      | _ => m
  | .lock t =>
      match m.place t, m.holder with
      | .waiting op l, none =>
          { m with holder := some t, place := Function.update m.place t (.inside op l) }
      | _, _ => m
  | .round t =>
      match m.place t with
      | .inside op l =>
          match g.round op (l, m.state) with
          | some (.next (l, s)) => { m with state := s, place := Function.update m.place t (.inside op l) }
          | some (.done (r, s)) =>
              { m with
                state := s
                place := Function.update m.place t (.leaving op r)
                served := m.served ++ [⟨t, op, r⟩] }
          | none => m
      | _ => m
  | .unlock t =>
      match m.place t with
      | .leaving _ _ => { m with holder := none, place := Function.update m.place t .idle }
      | _ => m

end Shared

/-! ## Serial executions -/

/-- One operation after the other, from `a₀` to `a`. -/
inductive Serial (atomic : ω → α → β × α) (a₀ : α) : List (Served τ ω β) → α → Prop where
  | nil : Serial atomic a₀ [] a₀
  | snoc {log : List (Served τ ω β)} {a a' : α} {t : τ} {op : ω} {r : β} (h : Serial atomic a₀ log a)
      (hop : atomic op a = (r, a')) : Serial atomic a₀ (log ++ [⟨t, op, r⟩]) a'

namespace Serial

variable {atomic : ω → α → β × α} {a₀ a : α} {log : List (Served τ ω β)}

/-- The state a serial execution ends in. -/
theorem state_eq (h : Serial atomic a₀ log a) : a = log.foldl (fun a e => (atomic e.op a).2) a₀ := by
  induction h with
  | nil => rfl
  | snoc _ hop ih => rw [List.foldl_append, ← ih, List.foldl_cons, List.foldl_nil, hop]

/-- Each answer is that of the specification in the state in front of it. -/
theorem answer_eq (h : Serial atomic a₀ log a) {before after : List (Served τ ω β)} {e : Served τ ω β}
    (hlog : log = before ++ e :: after) :
    e.answer = (atomic e.op (before.foldl (fun a e => (atomic e.op a).2) a₀)).1 := by
  induction h generalizing after with
  | nil => exact absurd hlog.symm (List.append_ne_nil_of_right_ne_nil before (List.cons_ne_nil e after))
  | snoc hlog' hop ih =>
      rcases List.eq_nil_or_concat after with rfl | ⟨after', e', rfl⟩
      · obtain ⟨rfl, hlast⟩ := List.append_inj' hlog rfl
        cases hlast
        rw [← hlog'.state_eq, hop]
      · rw [List.concat_eq_append, ← List.cons_append, ← List.append_assoc] at hlog
        exact ih (List.append_inj' hlog rfl).1

end Serial

/-- Run alone on a state that meets `I`, each operation does what the specification says of the abstract
state. -/
structure Guarded.Implements (g : Guarded σ ω ℓ ρ) (I : σ → Prop) (abs : σ → α) (view : ω → ρ → β)
    (atomic : ω → α → β × α) : Prop where
  direct : ∀ op r s, g.enter op = .inr r → I s → atomic op (abs s) = (view op r, abs s)
  inside : ∀ op l s, g.enter op = .inl l → I s →
    ∃ fuel r s', loop (g.round op) fuel (l, s) = some (r, s') ∧ I s' ∧ atomic op (abs s) = (view op r, abs s')

/-! ## Any interleaving -/

variable {g : Guarded σ ω ℓ ρ} {I : σ → Prop} {abs : σ → α} {view : ω → ρ → β} {atomic : ω → α → β × α} {a₀ : α}
  {m : Shared τ σ ω ℓ ρ} {s now : σ} {t : τ}

/-- What the place of a thread says when the serial execution has come to `s` and the state is `now`. -/
def Place.Fits (g : Guarded σ ω ℓ ρ) (s now : σ) : Place ω ℓ ρ → Prop
  | .idle => True
  | .waiting op l => g.enter op = .inl l
  | .inside op l => ∃ l₀, g.enter op = .inl l₀ ∧ Heads (g.round op) (l₀, s) (l, now)
  | .leaving _ _ => now = s

/-- A thread that does not hold the mutex has no part in the state. -/
theorem Place.Fits.of_not_holds {p : Place ω ℓ ρ} (h : p.Fits g s now) (hp : ¬ p.Holds) (s' now' : σ) :
    p.Fits g s' now' := by
  cases p with
  | idle => trivial
  | waiting op l => exact h
  | inside op l => exact absurd trivial hp
  | leaving op r => exact absurd trivial hp

namespace Shared

/-- The operations served so far are a serial execution that ends in `s`; only the holder of the mutex has gone
on from there. -/
structure Serves (g : Guarded σ ω ℓ ρ) (I : σ → Prop) (abs : σ → α) (view : ω → ρ → β)
    (atomic : ω → α → β × α) (a₀ : α) (m : Shared τ σ ω ℓ ρ) (s : σ) : Prop where
  serial : Serial atomic a₀ (m.served.map (Served.map view)) (abs s)
  inv : I s
  exclusive : ∀ t, (m.place t).Holds ↔ m.holder = some t
  fits : ∀ t, (m.place t).Fits g s m.state
  rests : m.holder = none → m.state = s

theorem serves_start (hs : I s) : (start s : Shared τ σ ω ℓ ρ).Serves g I abs view atomic (abs s) s where
  serial := .nil
  inv := hs
  exclusive _ := ⟨False.elim, fun h => by cases h⟩
  fits _ := trivial
  rests _ := rfl

theorem Serves.holder (h : m.Serves g I abs view atomic a₀ s) (ht : (m.place t).Holds) : m.holder = some t :=
  (h.exclusive t).mp ht

/-- Nobody else holds the mutex while `t` does. -/
theorem Serves.alone (h : m.Serves g I abs view atomic a₀ s) (ht : m.holder = some t) {t' : τ} (hne : t' ≠ t) :
    ¬ (m.place t').Holds := by
  intro ht'
  have hholder := h.holder ht'
  rw [ht, Option.some.injEq] at hholder
  exact hne hholder.symm

/-- Run alone from where it is, the operation inside comes out. -/
theorem Serves.comes_out (himpl : g.Implements I abs view atomic) (h : m.Serves g I abs view atomic a₀ s) {op : ω} {l : ℓ}
    (hplace : m.place t = .inside op l) :
    ∃ fuel r s', loop (g.round op) fuel (l, m.state) = some (r, s') ∧ I s' ∧
      atomic op (abs s) = (view op r, abs s') := by
  have hfits := h.fits t
  rw [hplace] at hfits
  obtain ⟨l₀, henter, hheads⟩ := hfits
  obtain ⟨fuel, r, s', hloop, hs', hatomic⟩ := himpl.inside op l₀ s henter h.inv
  obtain ⟨fuel', hloop'⟩ := hheads.loop hloop
  exact ⟨fuel', r, s', hloop', hs', hatomic⟩

theorem Serves.snoc (h : m.Serves g I abs view atomic a₀ s) {op : ω} {r : ρ} {a : α}
    (hop : atomic op (abs s) = (view op r, a)) (t : τ) :
    Serial atomic a₀ (List.map (Served.map view) (m.served ++ [⟨t, op, r⟩])) a := by
  rw [List.map_append]
  exact .snoc h.serial hop

section

variable [DecidableEq τ]

theorem serves_call (himpl : g.Implements I abs view atomic) (h : m.Serves g I abs view atomic a₀ s) (t : τ) (op : ω) :
    (m.step g (.call t op)).Serves g I abs view atomic a₀ s := by
  cases hplace : m.place t with
  | waiting op' l => simpa only [step, hplace] using h
  | inside op' l => simpa only [step, hplace] using h
  | leaving op' r => simpa only [step, hplace] using h
  | idle =>
      have hself := h.exclusive t
      rw [hplace] at hself
      cases henter : g.enter op with
      | inr r =>
          simp only [step, hplace, henter]
          exact { h with serial := h.snoc (himpl.direct op r s henter h.inv) t }
      | inl l =>
          simp only [step, hplace, henter]
          exact
            { h with
              exclusive := (Function.forall_update_iff m.place fun t p => p.Holds ↔ m.holder = some t).mpr
                ⟨hself, fun t' _ => h.exclusive t'⟩
              fits := (Function.forall_update_iff m.place fun _ p => p.Fits g s m.state).mpr
                ⟨henter, fun t' _ => h.fits t'⟩ }

theorem serves_lock (h : m.Serves g I abs view atomic a₀ s) (t : τ) :
    (m.step g (.lock t)).Serves g I abs view atomic a₀ s := by
  cases hplace : m.place t with
  | idle => simpa only [step, hplace] using h
  | inside op l => simpa only [step, hplace] using h
  | leaving op r => simpa only [step, hplace] using h
  | waiting op l =>
      cases hholder : m.holder with
      | some t' => simpa only [step, hplace, hholder] using h
      | none =>
          simp only [step, hplace, hholder]
          have hfree : ∀ t', ¬ (m.place t').Holds := by
            intro t' ht'
            rw [h.holder ht'] at hholder
            cases hholder
          have henter := h.fits t
          rw [hplace] at henter
          have hstate := h.rests hholder
          refine ⟨h.serial, h.inv, ?_, ?_, fun hnone => by cases hnone⟩
          · refine (Function.forall_update_iff m.place fun t' p => p.Holds ↔ some t = some t').mpr
              ⟨⟨fun _ => rfl, fun _ => trivial⟩, fun t' hne => ⟨fun ht' => absurd ht' (hfree t'), fun heq => ?_⟩⟩
            exact absurd (Option.some.inj heq).symm hne
          · refine (Function.forall_update_iff m.place fun _ p => p.Fits g s m.state).mpr
              ⟨⟨l, henter, ?_⟩, fun t' _ => h.fits t'⟩
            rw [hstate]
            exact .start

theorem serves_round (himpl : g.Implements I abs view atomic) (h : m.Serves g I abs view atomic a₀ s) (t : τ) :
    ∃ s', (m.step g (.round t)).Serves g I abs view atomic a₀ s' := by
  cases hplace : m.place t with
  | idle => exact ⟨s, by simpa only [step, hplace] using h⟩
  | waiting op l => exact ⟨s, by simpa only [step, hplace] using h⟩
  | leaving op r => exact ⟨s, by simpa only [step, hplace] using h⟩
  | inside op l =>
      have hholds : (m.place t).Holds := by rw [hplace]; trivial
      have hholder := h.holder hholds
      have hself : ∀ p : Place ω ℓ ρ, p.Holds → (p.Holds ↔ m.holder = some t) :=
        fun p hp => ⟨fun _ => hholder, fun _ => hp⟩
      have hother : ∀ s' now' t', t' ≠ t → (m.place t').Fits g s' now' :=
        fun s' now' t' hne => (h.fits t').of_not_holds (h.alone hholder hne) s' now'
      have hbusy : m.holder ≠ none := by rw [hholder]; exact Option.some_ne_none t
      obtain ⟨fuel, r, s', hloop, hs', hatomic⟩ := h.comes_out himpl hplace
      rcases round_of_loop hloop with ⟨⟨l', now'⟩, hround⟩ | hround
      · have hfits := h.fits t
        rw [hplace] at hfits
        obtain ⟨l₀, henter, hheads⟩ := hfits
        simp only [step, hplace, hround]
        refine ⟨s, h.serial, h.inv, ?_, ?_, fun hnone => absurd hnone hbusy⟩
        · exact (Function.forall_update_iff m.place fun t p => p.Holds ↔ m.holder = some t).mpr
            ⟨hself _ trivial, fun t' _ => h.exclusive t'⟩
        · exact (Function.forall_update_iff m.place fun _ p => p.Fits g s now').mpr
            ⟨⟨l₀, henter, .next hheads hround⟩, hother s now'⟩
      · simp only [step, hplace, hround]
        refine ⟨s', h.snoc hatomic t, hs', ?_, ?_, fun hnone => absurd hnone hbusy⟩
        · exact (Function.forall_update_iff m.place fun t p => p.Holds ↔ m.holder = some t).mpr
            ⟨hself _ trivial, fun t' _ => h.exclusive t'⟩
        · exact (Function.forall_update_iff m.place fun _ p => p.Fits g s' s').mpr ⟨rfl, hother s' s'⟩

theorem serves_unlock (h : m.Serves g I abs view atomic a₀ s) (t : τ) :
    (m.step g (.unlock t)).Serves g I abs view atomic a₀ s := by
  cases hplace : m.place t with
  | idle => simpa only [step, hplace] using h
  | waiting op l => simpa only [step, hplace] using h
  | inside op l => simpa only [step, hplace] using h
  | leaving op r =>
      have hholds : (m.place t).Holds := by rw [hplace]; trivial
      have hholder := h.holder hholds
      have hstate := h.fits t
      rw [hplace] at hstate
      simp only [step, hplace]
      refine ⟨h.serial, h.inv, ?_, ?_, fun _ => hstate⟩
      · refine (Function.forall_update_iff m.place fun t' p => p.Holds ↔ none = some t').mpr
          ⟨⟨False.elim, fun hnone => by cases hnone⟩, fun t' hne => ⟨fun ht' => ?_, fun hnone => by cases hnone⟩⟩
        exact absurd ht' (h.alone hholder hne)
      · exact (Function.forall_update_iff m.place fun _ p => p.Fits g s m.state).mpr
          ⟨trivial, fun t' _ => h.fits t'⟩

/-- Step lemma. -/
theorem serves_step (himpl : g.Implements I abs view atomic) (h : m.Serves g I abs view atomic a₀ s) (c : Move τ ω) :
    ∃ s', (m.step g c).Serves g I abs view atomic a₀ s' := by
  cases c with
  | call t op => exact ⟨s, serves_call himpl h t op⟩
  | lock t => exact ⟨s, serves_lock h t⟩
  | round t => exact serves_round himpl h t
  | unlock t => exact ⟨s, serves_unlock h t⟩

/-- Run lemma: every interleaving is a serial execution of what it has served. -/
theorem serves_run (himpl : g.Implements I abs view atomic) (hs : I s) (moves : List (Move τ ω)) :
    ∃ s', (run (step g) (start s) moves).Serves g I abs view atomic (abs s) s' := by
  have hrun : Always (step g) (fun m => ∃ s', m.Serves g I abs view atomic (abs s) s') (start s) moves :=
    .of_invariant ⟨s, serves_start hs⟩ (fun _ c hm _ => by obtain ⟨s', h⟩ := hm; exact serves_step himpl h c)
      (EachStep.of_forall fun _ _ _ => (trivial : True))
  exact hrun.last

/-- Whatever the threads interleave, the operations served are a serial execution of the specification, which
the state agrees with whenever the mutex is free; at most one thread holds it, and that one can always go on. -/
theorem serial_run (himpl : g.Implements I abs view atomic) (hs : I s) (moves : List (Move τ ω)) :
    let m := run (step g) (start s) moves
    ∃ a, Serial atomic (abs s) (m.served.map (Served.map view)) a ∧ (m.holder = none → abs m.state = a) ∧
      (∀ t t', (m.place t).Holds → (m.place t').Holds → t = t') ∧
      ∀ t op l, m.place t = .inside op l → ∃ next, g.round op (l, m.state) = some next := by
  intro m
  obtain ⟨s', h⟩ := serves_run himpl hs moves
  refine ⟨abs s', h.serial, fun hfree => congrArg abs (h.rests hfree), fun t t' ht ht' => ?_,
    fun t op l hplace => ?_⟩
  · have hholder := h.holder ht
    rw [h.holder ht', Option.some.injEq] at hholder
    exact hholder.symm
  · obtain ⟨fuel, r, s'', hloop, -⟩ := h.comes_out himpl hplace
    rcases round_of_loop hloop with ⟨next, hround⟩ | hround
    · exact ⟨_, hround⟩
    · exact ⟨_, hround⟩

end

end Shared

end Lib
