import Mathlib.InformationTheory.Coding.UniquelyDecodable

/-!
# Self-delimiting words

A word is self-delimiting if it tells where it ends, whatever follows it. Fields closed by a separator are so, and
so is what is put together from them; a sequence of self-delimiting words can be read in one way only.
-/

namespace Lib

open InformationTheory

variable {α β γ : Type} {P : α → Prop} {Q : γ → Prop} {f : α → List β} {g : γ → List β} {c : β}

/-- Of the words of `f` for the values in `P`. -/
def SelfDelimiting (P : α → Prop) (f : α → List β) : Prop :=
  ∀ a a' x y, P a → P a' → f a ++ x = f a' ++ y → a = a' ∧ x = y

/-- The two sides of a separator that the left sides do not hold. -/
theorem append_cons_inj {xs ys xs' ys' : List β} (h : c ∉ xs) (h' : c ∉ xs') (heq : xs ++ c :: ys = xs' ++ c :: ys') :
    xs = xs' ∧ ys = ys' := by
  induction xs generalizing xs' with
  | nil =>
      cases xs' with
      | nil => exact ⟨rfl, (List.cons.inj heq).2⟩
      | cons b bs => exact absurd (List.cons.inj heq).1 (List.ne_of_not_mem_cons h')
  | cons a as ih =>
      cases xs' with
      | nil => exact absurd (List.cons.inj heq).1.symm (List.ne_of_not_mem_cons h)
      | cons b bs =>
          obtain ⟨rfl, htail⟩ := List.cons.inj heq
          obtain ⟨rfl, hys⟩ := ih (List.not_mem_of_not_mem_cons h) (List.not_mem_of_not_mem_cons h') htail
          exact ⟨rfl, hys⟩

/-- A field closed by a separator; what stands behind the separator may depend on the field. -/
theorem SelfDelimiting.field {w : α → List β} (hinj : ∀ a a', P a → P a' → f a = f a' → a = a')
    (hc : ∀ a, P a → c ∉ f a) : SelfDelimiting P fun a => f a ++ c :: w a := by
  intro a a' x y ha ha' h
  simp only [List.append_assoc, List.cons_append] at h
  obtain ⟨hword, hrest⟩ := append_cons_inj (hc a ha) (hc a' ha') h
  obtain rfl := hinj a a' ha ha' hword
  exact ⟨rfl, List.append_cancel_left hrest⟩

theorem SelfDelimiting.prefixed (w : List β) (h : SelfDelimiting P f) : SelfDelimiting P fun a => w ++ f a := by
  intro a a' x y ha ha' heq
  simp only [List.append_assoc] at heq
  exact h a a' x y ha ha' (List.append_cancel_left heq)

theorem SelfDelimiting.seq (h : SelfDelimiting P f) (k : SelfDelimiting Q g) :
    SelfDelimiting (fun p : α × γ => P p.1 ∧ Q p.2) fun p => f p.1 ++ g p.2 := by
  intro p p' x y hp hp' heq
  simp only [List.append_assoc] at heq
  obtain ⟨hfst, hrest⟩ := h p.1 p'.1 _ _ hp.1 hp'.1 heq
  obtain ⟨hsnd, hxy⟩ := k p.2 p'.2 x y hp.2 hp'.2 hrest
  exact ⟨Prod.ext hfst hsnd, hxy⟩

/-- The code of the words is uniquely decodable, if none is empty. -/
theorem SelfDelimiting.uniquelyDecodable (h : SelfDelimiting P f) (hne : ∀ a, P a → f a ≠ []) :
    UniquelyDecodable {w | ∃ a, P a ∧ f a = w} := by
  intro ws
  induction ws with
  | nil =>
      intro ws' _ hws' heq
      cases ws' with
      | nil => rfl
      | cons w ws' =>
          obtain ⟨a, ha, rfl⟩ := hws' w List.mem_cons_self
          simp only [List.flatten_nil, List.flatten_cons, List.nil_eq, List.append_eq_nil_iff] at heq
          exact absurd heq.1 (hne a ha)
  | cons w ws ih =>
      intro ws' hws hws' heq
      obtain ⟨a, ha, rfl⟩ := hws w List.mem_cons_self
      cases ws' with
      | nil =>
          simp only [List.flatten_nil, List.flatten_cons, List.append_eq_nil_iff] at heq
          exact absurd heq.1 (hne a ha)
      | cons w' ws' =>
          obtain ⟨a', ha', rfl⟩ := hws' w' List.mem_cons_self
          obtain ⟨rfl, hrest⟩ := h a a' _ _ ha ha' heq
          rw [ih ws' (fun w hw => hws w (List.mem_cons_of_mem _ hw)) (fun w hw => hws' w (List.mem_cons_of_mem _ hw))
            hrest]

/-- A sequence of self-delimiting words tells the values it was made from. -/
theorem SelfDelimiting.flatMap_inj (h : SelfDelimiting P f) (hne : ∀ a, P a → f a ≠ []) {as as' : List α}
    (has : ∀ a ∈ as, P a) (has' : ∀ a ∈ as', P a) (heq : as.flatMap f = as'.flatMap f) : as = as' := by
  have hinj : ∀ a ∈ as, ∀ a' ∈ as', f a = f a' → a = a' := by
    intro a ha a' ha' hword
    exact (h a a' [] [] (has a ha) (has' a' ha') (by rw [hword])).1
  have hwords : as.map f = as'.map f := by
    refine h.uniquelyDecodable hne _ _ ?_ ?_ heq
    · intro w hw
      obtain ⟨a, ha, rfl⟩ := List.mem_map.mp hw
      exact ⟨a, has a ha, rfl⟩
    · intro w hw
      obtain ⟨a, ha, rfl⟩ := List.mem_map.mp hw
      exact ⟨a, has' a ha, rfl⟩
  clear heq
  induction as generalizing as' with
  | nil => exact (List.map_eq_nil_iff.mp hwords.symm).symm
  | cons a as ih =>
      cases as' with
      | nil => cases hwords
      | cons a' as' =>
          obtain ⟨hhead, htail⟩ := List.cons.inj hwords
          obtain rfl := hinj a List.mem_cons_self a' List.mem_cons_self hhead
          rw [ih (fun a ha => has a (List.mem_cons_of_mem _ ha)) (fun a ha => has' a (List.mem_cons_of_mem _ ha))
            (fun a ha a' ha' => hinj a (List.mem_cons_of_mem _ ha) a' (List.mem_cons_of_mem _ ha')) htail]

/-- Texts neither of which begins with the other do not begin the same text. -/
theorem append_ne_append {w w' : List β} (h : ¬ w <+: w') (h' : ¬ w' <+: w) (x y : List β) : w ++ x ≠ w' ++ y := by
  intro heq
  rcases List.prefix_or_prefix_of_prefix (List.prefix_append w x) (heq ▸ List.prefix_append w' y) with hpre | hpre
  · exact h hpre
  · exact h' hpre

/-- Words of several kinds, told apart by the text they start with. -/
theorem SelfDelimiting.tagged {tag body : α → List β}
    (htag : ∀ a a', tag a = tag a' ∨ ¬ tag a <+: tag a' ∧ ¬ tag a' <+: tag a)
    (hbody : ∀ a a' x y, P a → P a' → tag a = tag a' → body a ++ x = body a' ++ y → a = a' ∧ x = y) :
    SelfDelimiting P fun a => tag a ++ body a := by
  intro a a' x y ha ha' heq
  simp only [List.append_assoc] at heq
  rcases htag a a' with hsame | ⟨hne, hne'⟩
  · exact hbody a a' x y ha ha' hsame (List.append_cancel_left (hsame ▸ heq))
  · exact absurd heq (append_ne_append hne hne' _ _)

end Lib
