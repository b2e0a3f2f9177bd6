import Libp2pCat.Lib.Effect
import Libp2pCat.Lib.Run

/-!
Computations whose successful runs are runs of a step relation.

* `Io.Follows step s x Q`: whenever `x` ends with a value, steps lead from the state `s` and the
  world it began in to a state and the world it ended in, and `Q` holds of the value, the labels
  of these steps and that state.
* `follows_pure`, `follows_suspend_flatMap`, `follows_single`, `Follows.flatMap`, `Follows.map`,
  `Follows.mono`: the rules.
* `follows_chain`: a list of computations, each with the labels of its own.
* `Follows.run`: a run that ends where such a computation begins goes on to where it ends.
-/

namespace Effect.Io

open Trace

variable {ω ε α β σ ι : Type} {step : σ × ω → ι → σ × ω → Prop} {s : σ}

/-- Every successful run is a run of the steps, with this to say of its end. -/
def Follows (step : σ × ω → ι → σ × ω → Prop) (s : σ) (x : Io ω ε α)
    (Q : α → List ι → σ → Prop) : Prop :=
  ∀ w a w', x.run w = (.ok a, w') → ∃ l s', Run step (s, w) l (s', w') ∧ Q a l s'

lemma Follows.mono {x : Io ω ε α} {P Q : α → List ι → σ → Prop} (hx : Follows step s x P)
    (h : ∀ a l s', P a l s' → Q a l s') : Follows step s x Q := by
  intro w a w' hrun
  obtain ⟨l, s', hsteps, hP⟩ := hx w a w' hrun
  exact ⟨l, s', hsteps, h a l s' hP⟩

lemma follows_pure {a : α} {Q : α → List ι → σ → Prop} (h : Q a [] s) :
    Follows step s (pure a : Io ω ε α) Q := by
  intro w a' w' hrun
  cases hrun
  exact ⟨[], s, .nil _, h⟩

/-- A computation that is one step. -/
lemma follows_single {x : Io ω ε α} {Q : α → List ι → σ → Prop}
    (h : ∀ w a w', x.run w = (.ok a, w') → ∃ i s', step (s, w) i (s', w') ∧ Q a [i] s') :
    Follows step s x Q := by
  intro w a w' hrun
  obtain ⟨i, s', hstep, hQ⟩ := h w a w' hrun
  exact ⟨[i], s', .single hstep, hQ⟩

/-- The labels of a chain are those of its parts. -/
lemma Follows.flatMap {x : Io ω ε α} {f : α → Io ω ε β} {P : α → List ι → σ → Prop}
    {Q : β → List ι → σ → Prop} (hx : Follows step s x P)
    (hf : ∀ a l s', P a l s' → Follows step s' (f a) fun b l' t => Q b (l ++ l') t) :
    Follows step s (x.flatMap f) Q := by
  intro w b w' hrun
  obtain ⟨a, w₁, hfirst, hrest⟩ := flatMap_run_eq_ok.mp hrun
  obtain ⟨l, s₁, hsteps, hP⟩ := hx w a w₁ hfirst
  obtain ⟨l', t, hsteps', hQ⟩ := hf a l s₁ hP w₁ b w' hrest
  exact ⟨l ++ l', t, hsteps.append hsteps', hQ⟩

lemma Follows.map {x : Io ω ε α} {f : α → β} {Q : β → List ι → σ → Prop}
    (hx : Follows step s x fun a l s' => Q (f a) l s') : Follows step s (x.map f) Q := by
  refine hx.flatMap fun a l s' hQ => follows_pure ?_
  rwa [List.append_nil]

/-- A fallible value adds no labels. -/
lemma follows_suspend_flatMap {r : Except ε α} {f : α → Io ω ε β} {Q : β → List ι → σ → Prop}
    (h : ∀ a, r = .ok a → Follows step s (f a) Q) :
    Follows step s ((suspend r).flatMap f) Q := by
  intro w b w' hrun
  cases r with
  | error e => cases hrun
  | ok a => exact h a rfl w b w' hrun

/-- A list of computations that keep a property of the value handed on, each of which ends in the
state `p` of its value after the labels `g` of its element. -/
lemma follows_chain {f : β → α → Io ω ε α} {p : α → σ} {g : β → List ι} {I : α → Prop}
    (hstep : ∀ b a, I a → Follows step (p a) (f b a) fun a' l s' => s' = p a' ∧ l = g b ∧ I a')
    (bs : List β) {a : α} (ha : I a) :
    Follows step (p a) (chain f bs a) fun a' l s' => s' = p a' ∧ l = bs.flatMap g ∧ I a' := by
  induction bs generalizing a with
  | nil => exact follows_pure ⟨rfl, rfl, ha⟩
  | cons b bs ih =>
      refine (hstep b a ha).flatMap ?_
      rintro a₁ l s₁ ⟨rfl, rfl, ha₁⟩
      refine (ih ha₁).mono ?_
      rintro a₂ l' s₂ ⟨rfl, rfl, ha₂⟩
      exact ⟨rfl, List.flatMap_cons.symm, ha₂⟩

/-- A run goes on along a computation. -/
lemma Follows.run {x : Io ω ε α} {Q : α → List ι → σ → Prop} (hx : Follows step s x Q)
    {s₀ : σ × ω} {l₀ : List ι} {w w' : ω} {a : α} (h₀ : Run step s₀ l₀ (s, w))
    (h : x.run w = (.ok a, w')) : ∃ l s', Run step s₀ (l₀ ++ l) (s', w') ∧ Q a l s' := by
  obtain ⟨l, s', hsteps, hQ⟩ := hx w a w' h
  exact ⟨l, s', h₀.append hsteps, hQ⟩

end Effect.Io
