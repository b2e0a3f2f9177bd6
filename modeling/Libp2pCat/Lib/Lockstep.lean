import Libp2pCat.Lib.Effect

/-!
Two computations in lockstep: a relational logic for `Io`, over arbitrary worlds, errors and
values.

* `Lockstep J X Q`: two finished computations correspond.  Either both end with values, related
  by `Q` together with the worlds reached, or both end with the same error in worlds related by
  `J`, or the second ended with an error of `X`, where the correspondence stops.
* `Lockstep.flatMap`, `Lockstep.map`, `Lockstep.chain`: the rules for the combinators;
  `Lockstep.imp`: the rule of consequence, which may use how the computations went.
-/

namespace Effect

variable {ω ω' ε α α' β β' γ : Type}

/-- Two finished computations correspond. -/
inductive Lockstep (J : ω → ω' → Prop) (X : ε → Prop) (Q : α × ω → α' × ω' → Prop) :
    Except ε α × ω → Except ε α' × ω' → Prop where
  | ok {a : α} {a' : α'} {w : ω} {w' : ω'} (h : Q (a, w) (a', w')) :
      Lockstep J X Q (.ok a, w) (.ok a', w')
  | error {e : ε} {w : ω} {w' : ω'} (h : J w w') : Lockstep J X Q (.error e, w) (.error e, w')
  | stopped {r : Except ε α × ω} {e : ε} {w' : ω'} (h : X e) : Lockstep J X Q r (.error e, w')

namespace Lockstep

variable {J : ω → ω' → Prop} {X : ε → Prop} {Q : α × ω → α' × ω' → Prop}
  {Q' : β × ω → β' × ω' → Prop} {x : Io ω ε α} {y : Io ω' ε α'} {w : ω} {w' : ω'}

lemma pure {a : α} {a' : α'} (h : Q (a, w) (a', w')) :
    Lockstep J X Q ((Io.pure a).run w) ((Io.pure a').run w') := .ok h

/-- A fallible value that does not depend on the side. -/
lemma suspend {r : Except ε α} {Q : α × ω → α × ω' → Prop} (hJ : J w w')
    (hQ : ∀ a, r = .ok a → Q (a, w) (a, w')) :
    Lockstep J X Q ((Io.suspend r).run w) ((Io.suspend r).run w') := by
  cases r with
  | error e => exact .error hJ
  | ok a => exact .ok (hQ a rfl)

/-- What is known of the ends may use how the computations went. -/
lemma imp {J' : ω → ω' → Prop} {Q' : α × ω → α' × ω' → Prop}
    (h : Lockstep J X Q (x.run w) (y.run w'))
    (hok : ∀ a w₁ a' w₁', x.run w = (.ok a, w₁) → y.run w' = (.ok a', w₁') →
      Q (a, w₁) (a', w₁') → Q' (a, w₁) (a', w₁'))
    (herror : ∀ e w₁ w₁', x.run w = (.error e, w₁) → y.run w' = (.error e, w₁') →
      J w₁ w₁' → J' w₁ w₁') :
    Lockstep J' X Q' (x.run w) (y.run w') := by
  generalize hx : x.run w = r at h
  generalize hy : y.run w' = r' at h
  cases h with
  | ok h => exact .ok (hok _ _ _ _ hx hy h)
  | error h => exact .error (herror _ _ _ hx hy h)
  | stopped h => exact .stopped h

lemma flatMap {f : α → Io ω ε β} {g : α' → Io ω' ε β'}
    (h : Lockstep J X Q (x.run w) (y.run w'))
    (hf : ∀ a w₁ a' w₁', Q (a, w₁) (a', w₁') →
      Lockstep J X Q' ((f a).run w₁) ((g a').run w₁')) :
    Lockstep J X Q' ((x.flatMap f).run w) ((y.flatMap g).run w') := by
  generalize hx : x.run w = r at h
  generalize hy : y.run w' = r' at h
  cases h with
  | ok h =>
      rw [Io.run_flatMap_of_ok hx, Io.run_flatMap_of_ok hy]
      exact hf _ _ _ _ h
  | error h =>
      rw [Io.run_flatMap_of_error hx, Io.run_flatMap_of_error hy]
      exact .error h
  | stopped h =>
      rw [Io.run_flatMap_of_error hy]
      exact .stopped h

lemma map {f : α → β} {g : α' → β'} (h : Lockstep J X Q (x.run w) (y.run w'))
    (hQ : ∀ a w₁ a' w₁', Q (a, w₁) (a', w₁') → Q' (f a, w₁) (g a', w₁')) :
    Lockstep J X Q' ((x.map f).run w) ((y.map g).run w') :=
  h.flatMap fun a w₁ a' w₁' hq => .pure (hQ a w₁ a' w₁' hq)

/-- Only the second computation is post-processed. -/
lemma map_right {g : α' → β'} {Q' : α × ω → β' × ω' → Prop}
    (h : Lockstep J X Q (x.run w) (y.run w'))
    (hQ : ∀ a w₁ a' w₁', Q (a, w₁) (a', w₁') → Q' (a, w₁) (g a', w₁')) :
    Lockstep J X Q' (x.run w) ((y.map g).run w') := by
  rw [← Io.flatMap_pure x]
  exact h.flatMap fun a w₁ a' w₁' hq => .pure (hQ a w₁ a' w₁' hq)

/-- Two chains over one list, with an invariant indexed by what is left of it. -/
lemma chain {f : γ → α → Io ω ε α} {g : γ → α' → Io ω' ε α'}
    {I : List γ → α × ω → α' × ω' → Prop}
    (hstep : ∀ c cs a w a' w', I (c :: cs) (a, w) (a', w') →
      Lockstep J X (I cs) ((f c a).run w) ((g c a').run w'))
    {cs : List γ} {a : α} {a' : α'} (h : I cs (a, w) (a', w')) :
    Lockstep J X (I []) ((Io.chain f cs a).run w) ((Io.chain g cs a').run w') := by
  induction cs generalizing a a' w w' with
  | nil => exact .pure h
  | cons c cs ih => exact (hstep c cs a w a' w' h).flatMap fun _ _ _ _ hI => ih hI

end Lockstep

end Effect
