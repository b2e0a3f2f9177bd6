import Mathlib.Tactic

/-!
A suspended effect over an explicit world: a computation of type `Io ω ε α`
reads and changes a world of type `ω` and ends with a value of `α` or an error
of `ε`.  The world reached is kept on failure too, so what was done before an
error stays visible.

* `Io.pure`, `Io.suspend`, `Io.map`, `Io.mapError`, `Io.flatMap`: the combinators; `suspend`
  lifts a plain fallible value.
* `Io.flatMap_run_eq_ok`, `Io.map_run_eq_ok` and their error forms take a finished
  computation apart, so a proof about a chain of effects never unfolds the
  combinators.
* `Io.chain`: one computation for each element of a list, which is what a fold of them is
  (`Io.foldl_flatMap_eq_chain`); `Io.chain_invariant`: what it keeps.
* `Io.Succeeds`: the computation ends with a value; `Io.succeeds_flatMap_iff` and its
  siblings say when a chain does.
* `Io.Preserves`: the computation keeps a property of the world, closed under chaining.
* `Except.bind_eq_ok_iff`: the same for a plain fallible chain; `Except.mapM_eq_ok_map`: a loop of
  steps that all succeed.
-/

namespace Effect

universe u

/-- A computation over a world `ω` ending in a value or an error. -/
def Io (ω ε α : Type) : Type := ω → Except ε α × ω

namespace Io

variable {ω ε α β : Type}

/-- Run a computation in a world. -/
def run (x : Io ω ε α) (w : ω) : Except ε α × ω := x w

/-- The computation that does nothing. -/
def pure (a : α) : Io ω ε α := fun w => (.ok a, w)

/-- A fallible value as a computation that leaves the world alone. -/
def suspend (r : Except ε α) : Io ω ε α := fun w => (r, w)

/-- Sequencing: the continuation runs in the world reached, and is skipped after
an error. -/
def flatMap (x : Io ω ε α) (f : α → Io ω ε β) : Io ω ε β := fun w =>
  match x w with
  | (.ok a, w') => f a w'
  | (.error e, w') => (.error e, w')

/-- Post-process the value of a computation. -/
def map (x : Io ω ε α) (f : α → β) : Io ω ε β := x.flatMap fun a => pure (f a)

@[simp] lemma run_pure (a : α) (w : ω) : (pure a : Io ω ε α).run w = (.ok a, w) := rfl

@[simp] lemma run_suspend (r : Except ε α) (w : ω) : (suspend r : Io ω ε α).run w = (r, w) := rfl

lemma run_flatMap_of_ok {x : Io ω ε α} {f : α → Io ω ε β} {w w' : ω} {a : α}
    (h : x.run w = (.ok a, w')) : (x.flatMap f).run w = (f a).run w' := by
  simp only [run] at h
  simp only [run, flatMap, h]

lemma run_flatMap_of_error {x : Io ω ε α} {f : α → Io ω ε β} {w w' : ω} {e : ε}
    (h : x.run w = (.error e, w')) : (x.flatMap f).run w = (.error e, w') := by
  simp only [run] at h
  simp only [run, flatMap, h]

@[simp] lemma run_suspend_ok_flatMap (a : α) (f : α → Io ω ε β) (w : ω) :
    ((suspend (.ok a) : Io ω ε α).flatMap f).run w = (f a).run w := rfl

/-- A chain succeeds when both of its parts do. -/
lemma flatMap_run_eq_ok {x : Io ω ε α} {f : α → Io ω ε β} {w w' : ω} {b : β} :
    (x.flatMap f).run w = (.ok b, w') ↔
      ∃ a w₁, x.run w = (.ok a, w₁) ∧ (f a).run w₁ = (.ok b, w') := by
  rcases h : x.run w with ⟨_ | a, w₁⟩
  · rw [run_flatMap_of_error h]
    simp
  · rw [run_flatMap_of_ok h]
    constructor
    · exact fun h' => ⟨a, w₁, rfl, h'⟩
    · rintro ⟨a', w₁', h1, h2⟩
      cases h1
      exact h2

/-- A chain fails when its first part does, or its second part after the first. -/
lemma flatMap_run_eq_error {x : Io ω ε α} {f : α → Io ω ε β} {w w' : ω} {e : ε} :
    (x.flatMap f).run w = (.error e, w') ↔
      x.run w = (.error e, w') ∨
        ∃ a w₁, x.run w = (.ok a, w₁) ∧ (f a).run w₁ = (.error e, w') := by
  rcases h : x.run w with ⟨e' | a, w₁⟩
  · rw [run_flatMap_of_error h]
    simp
  · rw [run_flatMap_of_ok h]
    constructor
    · exact fun h' => Or.inr ⟨a, w₁, rfl, h'⟩
    · rintro (h1 | ⟨a', w₁', h1, h2⟩)
      · cases h1
      · cases h1
        exact h2

lemma map_run_eq_ok {x : Io ω ε α} {f : α → β} {w w' : ω} {b : β} :
    (x.map f).run w = (.ok b, w') ↔ ∃ a, x.run w = (.ok a, w') ∧ f a = b := by
  rw [map, flatMap_run_eq_ok]
  constructor
  · rintro ⟨a, w₁, h1, h2⟩
    cases h2
    exact ⟨a, h1, rfl⟩
  · rintro ⟨a, h1, rfl⟩
    exact ⟨a, w', h1, rfl⟩

lemma map_run_eq_error {x : Io ω ε α} {f : α → β} {w w' : ω} {e : ε} :
    (x.map f).run w = (.error e, w') ↔ x.run w = (.error e, w') := by
  rw [map, flatMap_run_eq_error]
  constructor
  · rintro (h | ⟨a, w₁, -, h⟩)
    · exact h
    · cases h
  · exact Or.inl

lemma flatMap_assoc {γ : Type} (x : Io ω ε α) (f : α → Io ω ε β) (g : β → Io ω ε γ) :
    (x.flatMap f).flatMap g = x.flatMap fun a => (f a).flatMap g := by
  funext w
  rw [flatMap, flatMap, flatMap]
  rcases x w with ⟨_ | _, _⟩ <;> rfl

lemma pure_flatMap (a : α) (f : α → Io ω ε β) : (pure a : Io ω ε α).flatMap f = f a := rfl

lemma flatMap_pure (x : Io ω ε α) : x.flatMap pure = x := by
  funext w
  rw [flatMap]
  rcases x w with ⟨_ | _, _⟩ <;> rfl

/-- What a computation ends with if it succeeds, for evaluating it. -/
def outcome (x : Io ω ε α) (w : ω) : Option (α × ω) :=
  match x.run w with
  | (.ok a, w') => some (a, w')
  | (.error _, _) => none

lemma run_of_outcome {x : Io ω ε α} {w w' : ω} {a : α} (h : x.outcome w = some (a, w')) :
    x.run w = (.ok a, w') := by
  rw [outcome] at h
  split at h
  · rename_i hrun
    cases h
    exact hrun
  · cases h

/-- The same computation with its error renamed. -/
def mapError {ε' : Type} (x : Io ω ε α) (f : ε → ε') : Io ω ε' α := fun w =>
  match x w with
  | (.ok a, w') => (.ok a, w')
  | (.error e, w') => (.error (f e), w')

lemma mapError_run_eq_ok {ε' : Type} {x : Io ω ε α} {f : ε → ε'} {w w' : ω} {a : α} :
    (x.mapError f).run w = (.ok a, w') ↔ x.run w = (.ok a, w') := by
  simp only [run, mapError]
  rcases x w with ⟨_ | _, _⟩ <;> simp

lemma mapError_run_eq_error {ε' : Type} {x : Io ω ε α} {f : ε → ε'} {w w' : ω} {e : ε'} :
    (x.mapError f).run w = (.error e, w') ↔ ∃ e₀, x.run w = (.error e₀, w') ∧ f e₀ = e := by
  simp only [run, mapError]
  rcases x w with ⟨_ | _, _⟩ <;> simp [and_comm]

/-- One computation for each element of a list, the value handed from one to the next. -/
def chain (f : β → α → Io ω ε α) : List β → α → Io ω ε α
  | [], a => pure a
  | b :: bs, a => (f b a).flatMap (chain f bs)

/-- A fold that sequences computations is a chain of them. -/
lemma foldl_flatMap_eq_chain (f : β → α → Io ω ε α) (bs : List β) (x : Io ω ε α) :
    bs.foldl (fun acc b => acc.flatMap (f b)) x = x.flatMap (chain f bs) := by
  induction bs generalizing x with
  | nil => exact (flatMap_pure x).symm
  | cons b bs ih =>
      rw [List.foldl_cons, ih, flatMap_assoc]
      rfl

/-- What every computation of a chain keeps of the value handed on, the chain keeps. -/
lemma chain_invariant {P : α → Prop} {f : β → α → Io ω ε α}
    (hstep : ∀ b a w a' w', P a → (f b a).run w = (.ok a', w') → P a') {bs : List β} {a a' : α}
    {w w' : ω} (ha : P a) (h : (chain f bs a).run w = (.ok a', w')) : P a' := by
  induction bs generalizing a w with
  | nil =>
      cases h
      exact ha
  | cons b bs ih =>
      obtain ⟨a₁, w₁, hfirst, hrest⟩ := flatMap_run_eq_ok.mp h
      exact ih (hstep b a w a₁ w₁ ha hfirst) hrest

/-- The computation ends with a value. -/
def Succeeds (x : Io ω ε α) (w : ω) : Prop := ∃ a w', x.run w = (.ok a, w')

@[simp] lemma succeeds_pure (a : α) (w : ω) : (pure a : Io ω ε α).Succeeds w := ⟨a, w, rfl⟩

/-- A chain succeeds when its first part does and the rest does from where it ended. -/
lemma succeeds_flatMap_iff {x : Io ω ε α} {f : α → Io ω ε β} {w : ω} :
    (x.flatMap f).Succeeds w ↔ ∃ a w', x.run w = (.ok a, w') ∧ (f a).Succeeds w' := by
  constructor
  · rintro ⟨b, w', h⟩
    obtain ⟨a, w₁, hx, hf⟩ := flatMap_run_eq_ok.mp h
    exact ⟨a, w₁, hx, b, w', hf⟩
  · rintro ⟨a, w₁, hx, b, w', hf⟩
    exact ⟨b, w', flatMap_run_eq_ok.mpr ⟨a, w₁, hx, hf⟩⟩

@[simp] lemma succeeds_map_iff {x : Io ω ε α} {f : α → β} {w : ω} :
    (x.map f).Succeeds w ↔ x.Succeeds w := by
  rw [map, succeeds_flatMap_iff]
  simp [Succeeds]

/-- The computation keeps a property of the world, however it ends. -/
def Preserves (P : ω → Prop) (x : Io ω ε α) : Prop := ∀ w, P w → P (x.run w).2

lemma preserves_pure {P : ω → Prop} (a : α) : Preserves P (pure a : Io ω ε α) := fun _ h => h

lemma preserves_suspend {P : ω → Prop} (r : Except ε α) : Preserves P (suspend r : Io ω ε α) :=
  fun _ h => h

lemma Preserves.flatMap {P : ω → Prop} {x : Io ω ε α} {f : α → Io ω ε β} (hx : Preserves P x)
    (hf : ∀ a, Preserves P (f a)) : Preserves P (x.flatMap f) := by
  intro w hw
  have hw' := hx w hw
  rcases hrun : x.run w with ⟨e | a, w'⟩
  · rw [run_flatMap_of_error hrun]
    rwa [hrun] at hw'
  · rw [run_flatMap_of_ok hrun]
    rw [hrun] at hw'
    exact hf a w' hw'

lemma Preserves.map {P : ω → Prop} {x : Io ω ε α} {f : α → β} (hx : Preserves P x) :
    Preserves P (x.map f) := hx.flatMap fun _ => preserves_pure _

lemma Preserves.of_run {P : ω → Prop} {x : Io ω ε α} {w w' : ω} {r : Except ε α}
    (hx : Preserves P x) (hw : P w) (h : x.run w = (r, w')) : P w' := by
  have hw' := hx w hw
  rwa [h] at hw'

end Io

end Effect

namespace Except

variable {ε α β : Type}

/-- A fallible chain succeeds when both of its parts do. -/
lemma bind_eq_ok_iff {x : Except ε α} {f : α → Except ε β} {b : β} :
    (x >>= f) = .ok b ↔ ∃ a, x = .ok a ∧ f a = .ok b := by
  cases x with
  | error e => simp [bind, Except.bind]
  | ok a => simp [bind, Except.bind]

/-- Renaming the error does not change what succeeds. -/
lemma mapError_eq_ok_iff {ε' : Type} {x : Except ε α} {f : ε → ε'} {a : α} :
    x.mapError f = .ok a ↔ x = .ok a := by
  cases x with
  | error e => simp [Except.mapError]
  | ok b => simp [Except.mapError]

lemma toOption_eq_some_iff {x : Except ε α} {a : α} : x.toOption = some a ↔ x = .ok a := by
  cases x with
  | error e => simp [Except.toOption]
  | ok b => simp [Except.toOption]

lemma mapError_eq_error_iff {ε' : Type} {x : Except ε α} {f : ε → ε'} {e : ε'} :
    x.mapError f = .error e ↔ ∃ e₀, x = .error e₀ ∧ f e₀ = e := by
  cases x with
  | error e₀ => simp [Except.mapError]
  | ok b => simp [Except.mapError]

@[simp] lemma ok_bind (a : α) (f : α → Except ε β) : (Except.ok a >>= f) = f a := rfl

@[simp] lemma error_bind (e : ε) (f : α → Except ε β) :
    ((Except.error e : Except ε α) >>= f) = .error e := rfl

/-- A loop of steps that all succeed collects their values. -/
lemma mapM_eq_ok_map {f : α → Except ε β} {g : α → β} {l : List α}
    (h : ∀ a ∈ l, f a = .ok (g a)) : l.mapM f = .ok (l.map g) := by
  induction l with
  | nil => rfl
  | cons a l ih =>
      rw [List.mapM_cons, h a List.mem_cons_self, ih fun b hb => h b (List.mem_cons_of_mem _ hb)]
      rfl

/-- What a loop of fallible calls returned, one of them did. -/
lemma exists_of_mem_mapM {f : α → Except ε β} {l : List α} {bs : List β} {b : β}
    (h : l.mapM f = .ok bs) (hb : b ∈ bs) : ∃ a ∈ l, f a = .ok b := by
  induction l generalizing bs with
  | nil =>
      cases h
      cases hb
  | cons a l ih =>
      simp only [List.mapM_cons, bind_eq_ok_iff] at h
      obtain ⟨b₁, hfirst, bs₁, hrest, hout⟩ := h
      cases hout
      rcases List.mem_cons.mp hb with rfl | hb
      · exact ⟨a, List.mem_cons_self, hfirst⟩
      · obtain ⟨a', ha', hf⟩ := ih hrest hb
        exact ⟨a', List.mem_cons_of_mem _ ha', hf⟩

end Except
