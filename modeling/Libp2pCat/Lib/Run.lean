import Mathlib.Tactic

/-!
Runs of a labelled step relation, over arbitrary states and labels.

* `Run step s l s'`: the labels `l` lead from `s` to `s'`.
* `Run.map`, `Run.relabel`, `Run.relabelSome`: the image of a run under functions that carry steps
  to steps.
* `Run.invariant`: a property kept by every step is kept by every run.
* `Run.exists_rest`: where every step is determined, a run that cannot go on continues every
  other one.
* `Run.within`: the run of the step relation cut down to the states of a
  predicate, the form in which "throughout the run" is said.
* `Run.Takes`: a step that a run takes, with the run to it and the run from it.
* `Run.exists_last_entry`: a property that fails at the start and holds at the
  end was entered by some step of the run and has held since.
* `Run.exists_last_touch`: a value that the steps set or keep was set by the last step that
  sets it.
-/

namespace Trace

variable {σ ι : Type*}

/-- The labels `l` lead from one state to another. -/
inductive Run (step : σ → ι → σ → Prop) : σ → List ι → σ → Prop where
  | nil (s : σ) : Run step s [] s
  | snoc {s₀ s s' : σ} {l : List ι} {i : ι} :
      Run step s₀ l s → step s i s' → Run step s₀ (l ++ [i]) s'

namespace Run

variable {step : σ → ι → σ → Prop} {s₀ s₁ s₂ : σ} {l l₁ l₂ : List ι}

lemma single {i : ι} (h : step s₀ i s₁) : Run step s₀ [i] s₁ := (Run.nil s₀).snoc h

lemma append (h₁ : Run step s₀ l₁ s₁) (h₂ : Run step s₁ l₂ s₂) : Run step s₀ (l₁ ++ l₂) s₂ := by
  induction h₂ with
  | nil => simpa using h₁
  | snoc _ hstep ih => rw [← List.append_assoc]; exact ih.snoc hstep

/-- A property kept by every step is kept by every run. -/
lemma invariant {P : σ → Prop} (h : Run step s₀ l s₁)
    (hstep : ∀ s i s', P s → step s i s' → P s') (h0 : P s₀) : P s₁ := by
  induction h with
  | nil => exact h0
  | snoc _ hs ih => exact hstep _ _ _ ih hs

/-- The image of a run under functions on states and labels that carry steps to steps. -/
lemma relabel {τ κ : Type*} {step' : τ → κ → τ → Prop} (f : σ → τ) (g : ι → κ)
    (h : Run step s₀ l s₁) (hle : ∀ s i s', step s i s' → step' (f s) (g i) (f s')) :
    Run step' (f s₀) (l.map g) (f s₁) := by
  induction h with
  | nil => exact .nil _
  | snoc _ hs ih =>
      rw [List.map_append]
      exact ih.snoc (hle _ _ _ hs)

/-- The image of a run under functions that carry a step to a step or to none. -/
lemma relabelSome {τ κ : Type*} {step' : τ → κ → τ → Prop} (f : σ → τ) (g : ι → Option κ)
    (h : Run step s₀ l s₁)
    (hsome : ∀ s i s' j, step s i s' → g i = some j → step' (f s) j (f s'))
    (hnone : ∀ s i s', step s i s' → g i = none → f s' = f s) :
    Run step' (f s₀) (l.filterMap g) (f s₁) := by
  induction h with
  | nil => exact .nil _
  | @snoc s s' l i _ hs ih =>
      rw [List.filterMap_append]
      cases hi : g i with
      | none =>
          rw [List.filterMap_cons_none hi, List.filterMap_nil, List.append_nil, hnone _ _ _ hs hi]
          exact ih
      | some j =>
          rw [List.filterMap_cons_some hi]
          exact ih.snoc (hsome _ _ _ _ hs hi)

/-- The image of a run under a function that carries steps to steps. -/
lemma map {τ : Type*} {step' : τ → ι → τ → Prop} (f : σ → τ) (h : Run step s₀ l s₁)
    (hle : ∀ s i s', step s i s' → step' (f s) i (f s')) : Run step' (f s₀) l (f s₁) := by
  induction h with
  | nil => exact .nil _
  | snoc _ hs ih => exact ih.snoc (hle _ _ _ hs)

/-- A run of a relation is a run of every larger one. -/
lemma mono {step' : σ → ι → σ → Prop} (h : Run step s₀ l s₁)
    (hle : ∀ s i s', step s i s' → step' s i s') : Run step' s₀ l s₁ :=
  h.map id hle

/-- The first step of a run and the rest. -/
lemma cons {i : ι} (hstep : step s₀ i s₁) (h : Run step s₁ l s₂) : Run step s₀ (i :: l) s₂ :=
  (single hstep).append h

lemma eq_of_nil (h : Run step s₀ [] s₁) : s₁ = s₀ := by
  generalize hl : ([] : List ι) = labels at h
  cases h with
  | nil => rfl
  | snoc => simp at hl

/-- A run that has labels has a first step. -/
lemma exists_of_cons {i : ι} (h : Run step s₀ (i :: l) s₁) :
    ∃ s, step s₀ i s ∧ Run step s l s₁ := by
  generalize hl : i :: l = labels at h
  induction h generalizing l with
  | nil => cases hl
  | @snoc s s' labels j hrun hstep ih =>
      cases labels with
      | nil =>
          cases hl
          rw [hrun.eq_of_nil] at hstep
          exact ⟨s', hstep, .nil _⟩
      | cons k labels =>
          rw [List.cons_append] at hl
          cases hl
          obtain ⟨t, ht, hrest⟩ := ih rfl
          exact ⟨t, ht, hrest.snoc hstep⟩

/-- A run that has labels has a last step. -/
lemma exists_of_snoc {i : ι} (h : Run step s₀ (l ++ [i]) s₁) :
    ∃ s, Run step s₀ l s ∧ step s i s₁ := by
  generalize hl : l ++ [i] = labels at h
  cases h with
  | nil => simp at hl
  | snoc hrun hstep =>
      obtain ⟨rfl, hi⟩ := List.append_inj' hl rfl
      cases hi
      exact ⟨_, hrun, hstep⟩

/-- Where every step is determined, a run that cannot go on continues every other one. -/
lemma exists_rest (h : Run step s₀ l₁ s₁) (h' : Run step s₀ l₂ s₂)
    (hdet : ∀ s i t j t', step s i t → step s j t' → t = t') (hfinal : ∀ i s, ¬step s₁ i s) :
    ∃ l, Run step s₂ l s₁ := by
  induction h' with
  | nil => exact ⟨l₁, h⟩
  | snoc _ hstep ih =>
      obtain ⟨l, hrest⟩ := ih
      cases l with
      | nil =>
          rw [hrest.eq_of_nil] at hfinal
          exact absurd hstep (hfinal _ _)
      | cons i l =>
          obtain ⟨s, hfirst, hrest⟩ := hrest.exists_of_cons
          obtain rfl := hdet _ _ _ _ _ hfirst hstep
          exact ⟨l, hrest⟩

/-- The step relation cut down to the states where `P` holds. -/
def within (P : σ → Prop) (step : σ → ι → σ → Prop) (s : σ) (i : ι) (s' : σ) : Prop :=
  step s i s' ∧ P s ∧ P s'

/-- Some way through the labels from one state to the other takes this step. -/
def Takes (step : σ → ι → σ → Prop) (s₀ : σ) (l : List ι) (s₁ : σ) (s : σ) (i : ι) (s' : σ) :
    Prop :=
  ∃ l₁ l₂, l = l₁ ++ i :: l₂ ∧ Run step s₀ l₁ s ∧ step s i s' ∧ Run step s' l₂ s₁

lemma takes_last {i : ι} (h : Run step s₀ l s₁) (hstep : step s₁ i s₂) :
    Takes step s₀ (l ++ [i]) s₂ s₁ i s₂ :=
  ⟨l, [], rfl, h, hstep, .nil _⟩

lemma Takes.snoc {s s' : σ} {i j : ι} (h : Takes step s₀ l s₁ s i s') (hstep : step s₁ j s₂) :
    Takes step s₀ (l ++ [j]) s₂ s i s' := by
  obtain ⟨l₁, l₂, rfl, h₁, hi, h₂⟩ := h
  exact ⟨l₁, l₂ ++ [j], by simp, h₁, hi, h₂.snoc hstep⟩

/-- A property that fails at the start and holds at the end was entered by a
step of the run and has held since. -/
theorem exists_last_entry {P : σ → Prop} (h : Run step s₀ l s₁) (h0 : ¬ P s₀) (h1 : P s₁) :
    ∃ l₁ i l₂ s s', l = l₁ ++ i :: l₂ ∧ Run step s₀ l₁ s ∧ ¬ P s ∧ step s i s' ∧ P s' ∧
      Run (within P step) s' l₂ s₁ := by
  induction h with
  | nil => exact absurd h1 h0
  | @snoc s s' l i hrun hs ih =>
      by_cases hP : P s
      · -- the property already held: extend the stretch the induction found
        obtain ⟨l₁, j, l₂, t, t', rfl, hr, hn, hst, ht', hw⟩ := ih hP
        exact ⟨l₁, j, l₂ ++ [i], t, t', by simp, hr, hn, hst, ht', hw.snoc ⟨hs, hP, h1⟩⟩
      · exact ⟨l, i, [], s, s', rfl, hrun, hP, hs, h1, .nil _⟩

/-- A value `f` that is set, to `g`, by the steps of `T` and by no other was set by the last such
step of the run, and has been there since. -/
theorem exists_last_touch {α : Type*} {T : ι → Prop} {f : σ → Option α} {g : σ → α} {a : α}
    (h : Run step s₀ l s₁)
    (hstep : ∀ l s i s', Run step s₀ l s → step s i s' → f s' = some a →
      (T i ∧ a = g s') ∨ (¬ T i ∧ f s = some a))
    (h0 : f s₀ = none) (h1 : f s₁ = some a) :
    ∃ l₁ i l₂ s s', l = l₁ ++ i :: l₂ ∧ Run step s₀ l₁ s ∧ step s i s' ∧ T i ∧ a = g s' ∧
      (∀ j ∈ l₂, ¬ T j) ∧ Run (within (fun t => f t = some a) step) s' l₂ s₁ := by
  induction h with
  | nil =>
      rw [h0] at h1
      cases h1
  | @snoc s s' l i hrun hs ih =>
      rcases hstep l s i s' hrun hs h1 with ⟨htouch, hset⟩ | ⟨hnot, hold⟩
      · exact ⟨l, i, [], s, s', rfl, hrun, hs, htouch, hset, by simp, .nil _⟩
      · obtain ⟨l₁, j, l₂, t, t', rfl, hr, hst, htouch, hset, hquiet, hw⟩ := ih hold
        refine ⟨l₁, j, l₂ ++ [i], t, t', by simp, hr, hst, htouch, hset, ?_,
          hw.snoc ⟨hs, hold, h1⟩⟩
        intro m hm
        rcases List.mem_append.mp hm with hm | hm
        · exact hquiet m hm
        · rwa [List.mem_singleton.mp hm]

end Run

end Trace
