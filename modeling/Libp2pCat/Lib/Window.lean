import Mathlib.Tactic

/-!
The sliding anti-replay window as a set of offsets below the greatest number
seen, over the natural numbers and for every width.

* `Window`: the greatest number `max` and the set `bits` of offsets `i` with
  `max - i` recorded; `Window.Accepts` and `Window.advance` test and record one
  number.
* `Window.Represents W w A`: the window of width `W` is the true record of the
  set `A` of the numbers recorded so far.
* `Represents.accepts_iff`: the test is exact, a number passes exactly when it is
  new and not below the window; `Represents.advance`: recording keeps the record
  true.
-/

/-- An anti-replay window: the greatest number recorded and the offsets below it
that are recorded. -/
structure Window where
  bits : Set ℕ
  max : ℕ

namespace Window

/-- The window before anything is recorded. -/
def empty : Window := ⟨∅, 0⟩

/-- A number passes when it is above the window, or inside it and unrecorded. -/
def Accepts (W : ℕ) (w : Window) (n : ℕ) : Prop :=
  w.max < n ∨ (w.max - n < W ∧ w.max - n ∉ w.bits)

/-- Record a number: a new greatest number shifts the window, any other sets its
offset. -/
def advance (W : ℕ) (w : Window) (n : ℕ) : Window :=
  if w.max < n then
    ⟨{i | i = 0 ∨ (i < W ∧ n - w.max ≤ i ∧ i - (n - w.max) ∈ w.bits)}, n⟩
  else ⟨insert (w.max - n) w.bits, w.max⟩

/-- The window is the record of the set `A`: `max` is its greatest element (`0` if
there is none) and the offsets inside the window are exactly those of `A`. -/
structure Represents (W : ℕ) (w : Window) (A : Set ℕ) : Prop where
  le_max : ∀ n ∈ A, n ≤ w.max
  max_mem : A.Nonempty → w.max ∈ A
  max_empty : A = ∅ → w.max = 0
  bit_iff : ∀ i < W, i ≤ w.max → (i ∈ w.bits ↔ w.max - i ∈ A)

/-- The empty window records nothing. -/
lemma represents_empty (W : ℕ) : Represents W empty ∅ where
  le_max := by simp
  max_mem := by simp
  max_empty := fun _ => rfl
  bit_iff := by simp [empty]

variable {W : ℕ} {w : Window} {A : Set ℕ} {n : ℕ}

/-- The test is exact: a number passes exactly when it was never recorded and is
not below the window. -/
theorem Represents.accepts_iff (h : Represents W w A) :
    w.Accepts W n ↔ n ∉ A ∧ (w.max < n ∨ w.max - n < W) := by
  rw [Accepts]
  by_cases hlt : w.max < n
  · have hn : n ∉ A := fun hmem => absurd (h.le_max n hmem) (by omega)
    simp [hlt, hn]
  · by_cases hW : w.max - n < W
    · have hbit := h.bit_iff (w.max - n) hW (by omega)
      rw [show w.max - (w.max - n) = n from by omega] at hbit
      simp [hlt, hW, hbit]
    · simp [hlt, hW]

/-- Only the offsets inside the window matter. -/
lemma Represents.congr {w' : Window} (h : Represents W w A) (hmax : w'.max = w.max)
    (hbits : ∀ i < W, (i ∈ w'.bits ↔ i ∈ w.bits)) : Represents W w' A where
  le_max := by rw [hmax]; exact h.le_max
  max_mem := by rw [hmax]; exact h.max_mem
  max_empty := by rw [hmax]; exact h.max_empty
  bit_iff := fun i hi => by rw [hmax, hbits i hi]; exact h.bit_iff i hi

/-- Recording a number keeps the record true. -/
theorem Represents.advance (h : Represents W w A) : Represents W (w.advance W n) (insert n A) := by
  by_cases hlt : w.max < n
  · rw [Window.advance, if_pos hlt]
    refine ⟨?_, fun _ => Set.mem_insert _ _, fun h0 => absurd h0 (Set.insert_nonempty n A).ne_empty,
      ?_⟩
    · rintro m (rfl | hm)
      · exact le_rfl
      · exact le_trans (h.le_max m hm) hlt.le
    · intro i hi (hin : i ≤ n)
      simp only [Set.mem_ofPred_eq, Set.mem_insert_iff]
      rcases Nat.eq_zero_or_pos i with rfl | hpos
      · simp
      · by_cases hs : n - w.max ≤ i
        · -- the offset lands inside the old window
          have hbit := h.bit_iff (i - (n - w.max)) (by omega) (by omega)
          rw [show w.max - (i - (n - w.max)) = n - i from by omega] at hbit
          constructor
          · rintro (h0 | ⟨-, -, hb⟩)
            · omega
            · exact Or.inr (hbit.mp hb)
          · rintro (h0 | hA)
            · omega
            · exact Or.inr ⟨hi, hs, hbit.mpr hA⟩
        · -- the offset lies in the gap the jump opened
          constructor
          · rintro (h0 | ⟨-, hb, -⟩) <;> omega
          · rintro (h0 | hA)
            · omega
            · exact absurd (h.le_max _ hA) (by omega)
  · rw [Window.advance, if_neg hlt]
    have hmaxA : w.max = n ∨ w.max ∈ A := by
      rcases A.eq_empty_or_nonempty with h0 | h0
      · exact Or.inl (by have := h.max_empty h0; omega)
      · exact Or.inr (h.max_mem h0)
    refine ⟨?_, fun _ => hmaxA, fun h0 => absurd h0 (Set.insert_nonempty n A).ne_empty, ?_⟩
    · rintro m (rfl | hm)
      · exact not_lt.mp hlt
      · exact h.le_max m hm
    · intro i hi (hin : i ≤ w.max)
      have hbit := h.bit_iff i hi hin
      have heq : i = w.max - n ↔ w.max - i = n := by
        constructor <;> intro <;> omega
      simp only [Set.mem_insert_iff]
      rw [heq, hbit]

end Window
