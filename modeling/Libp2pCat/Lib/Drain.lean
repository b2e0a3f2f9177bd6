import Libp2pCat.Lib.Effect
import Libp2pCat.Lib.Run

/-!
The loop that receives until an event it waits for has come.

* `Io.drain recv pick fuel s`: receive at most `fuel` times; the first event that `pick` knows what
  to do with ends the loop, every other event is passed over.
* `Io.Passes recv pick`: one receive that is passed over, as a step.
* `drain_run_eq_some_iff`, `drain_run_eq_error_iff`, `drain_run_eq_none_iff`: the loop is a run of
  such steps and then the picked event, a failure, or the end of the fuel.
* `Io.seeded op`: a receive that takes a seed, over a stream of seeds; `run_passes_seeded_iff`: what
  it passes over, as a run of the receives themselves.
-/

namespace Effect.Io

open Trace

variable {ω ε σ η β : Type}

/-- Receive until an event is picked, at most `fuel` times. -/
def drain (recv : σ → Io ω ε (σ × η)) (pick : σ → η → Option (Io ω ε β)) :
    ℕ → σ → Io ω ε (Option β)
  | 0, _ => pure none
  | fuel + 1, s => (recv s).flatMap fun r =>
      match pick r.1 r.2 with
      | some x => x.map some
      | none => drain recv pick fuel r.1

/-- A receive whose event is passed over. -/
def Passes (recv : σ → Io ω ε (σ × η)) (pick : σ → η → Option (Io ω ε β)) (s : σ × ω)
    (event : η) (s' : σ × ω) : Prop :=
  (recv s.1).run s.2 = (.ok (s'.1, event), s'.2) ∧ pick s'.1 event = none

variable {recv : σ → Io ω ε (σ × η)} {pick : σ → η → Option (Io ω ε β)}

/-- The loop after a receive that is passed over. -/
lemma run_drain_of_passes {fuel : ℕ} {s s' : σ × ω} {event : η} (h : Passes recv pick s event s') :
    (drain recv pick (fuel + 1) s.1).run s.2 = (drain recv pick fuel s'.1).run s'.2 := by
  rw [drain, run_flatMap_of_ok h.1]
  simp only [h.2]

/-- The loop after a run of receives that are passed over. -/
lemma run_drain_of_run {fuel : ℕ} {s s' : σ × ω} {l : List η} (h : Run (Passes recv pick) s l s') :
    (drain recv pick (fuel + l.length) s.1).run s.2 = (drain recv pick fuel s'.1).run s'.2 := by
  induction h generalizing fuel with
  | nil => rfl
  | snoc _ hstep ih =>
      rw [List.length_append, List.length_singleton, ← Nat.add_assoc, Nat.add_right_comm, ih,
        run_drain_of_passes hstep]

/-- The loop ends with a value exactly when some event is picked in time and its continuation ends
with that value. -/
lemma drain_run_eq_some_iff {fuel : ℕ} {s : σ} {w w' : ω} {b : β} :
    (drain recv pick fuel s).run w = (.ok (some b), w') ↔
      ∃ (l : List η) (s₁ s₂ : σ × ω) (event : η) (x : Io ω ε β), l.length < fuel ∧
        Run (Passes recv pick) (s, w) l s₁ ∧ (recv s₁.1).run s₁.2 = (.ok (s₂.1, event), s₂.2) ∧
        pick s₂.1 event = some x ∧ x.run s₂.2 = (.ok b, w') := by
  constructor
  · induction fuel generalizing s w with
    | zero =>
        intro h
        cases h
    | succ fuel ih =>
        intro h
        rw [drain] at h
        obtain ⟨⟨t, event⟩, w₁, hrecv, hrest⟩ := flatMap_run_eq_ok.mp h
        cases hpick : pick t event with
        | some x =>
            simp only [hpick] at hrest
            obtain ⟨_, hx, hb⟩ := map_run_eq_ok.mp hrest
            cases hb
            exact ⟨[], (s, w), (t, w₁), event, x, Nat.succ_pos _, .nil _, hrecv, hpick, hx⟩
        | none =>
            simp only [hpick] at hrest
            obtain ⟨l, s₁, s₂, event', x, hlen, hrun, hfound⟩ := ih hrest
            exact ⟨event :: l, s₁, s₂, event', x, Nat.succ_lt_succ hlen,
              hrun.cons ⟨hrecv, hpick⟩, hfound⟩
  · rintro ⟨l, s₁, s₂, event, x, hlen, hrun, hrecv, hpick, hx⟩
    obtain ⟨n, rfl⟩ : ∃ n, fuel = n + 1 + l.length := ⟨fuel - l.length - 1, by omega⟩
    rw [run_drain_of_run hrun, drain, run_flatMap_of_ok hrecv]
    simp only [hpick]
    exact map_run_eq_ok.mpr ⟨b, hx, rfl⟩

/-- The loop fails exactly when, in time, a receive does or the continuation of the picked event
does. -/
lemma drain_run_eq_error_iff {fuel : ℕ} {s : σ} {w w' : ω} {e : ε} :
    (drain recv pick fuel s).run w = (.error e, w') ↔
      ∃ (l : List η) (s₁ : σ × ω), l.length < fuel ∧ Run (Passes recv pick) (s, w) l s₁ ∧
        ((recv s₁.1).run s₁.2 = (.error e, w') ∨
          ∃ (s₂ : σ × ω) (event : η) (x : Io ω ε β),
            (recv s₁.1).run s₁.2 = (.ok (s₂.1, event), s₂.2) ∧ pick s₂.1 event = some x ∧
              x.run s₂.2 = (.error e, w')) := by
  constructor
  · induction fuel generalizing s w with
    | zero =>
        intro h
        cases h
    | succ fuel ih =>
        intro h
        rw [drain] at h
        rcases flatMap_run_eq_error.mp h with hfail | ⟨⟨t, event⟩, w₁, hrecv, hrest⟩
        · exact ⟨[], (s, w), Nat.succ_pos _, .nil _, Or.inl hfail⟩
        · cases hpick : pick t event with
          | some x =>
              simp only [hpick] at hrest
              exact ⟨[], (s, w), Nat.succ_pos _, .nil _,
                Or.inr ⟨(t, w₁), event, x, hrecv, hpick, map_run_eq_error.mp hrest⟩⟩
          | none =>
              simp only [hpick] at hrest
              obtain ⟨l, s₁, hlen, hrun, hfails⟩ := ih hrest
              exact ⟨event :: l, s₁, Nat.succ_lt_succ hlen, hrun.cons ⟨hrecv, hpick⟩, hfails⟩
  · rintro ⟨l, s₁, hlen, hrun, hfails⟩
    obtain ⟨n, rfl⟩ : ∃ n, fuel = n + 1 + l.length := ⟨fuel - l.length - 1, by omega⟩
    rw [run_drain_of_run hrun, drain]
    rcases hfails with hfail | ⟨s₂, event, x, hrecv, hpick, hx⟩
    · exact run_flatMap_of_error hfail
    · rw [run_flatMap_of_ok hrecv]
      simp only [hpick]
      exact map_run_eq_error.mpr hx

/-- The loop runs out of fuel exactly when it passes over that many events. -/
lemma drain_run_eq_none_iff {fuel : ℕ} {s : σ} {w w' : ω} :
    (drain recv pick fuel s).run w = (.ok none, w') ↔
      ∃ (l : List η) (t : σ), l.length = fuel ∧ Run (Passes recv pick) (s, w) l (t, w') := by
  constructor
  · induction fuel generalizing s w with
    | zero =>
        intro h
        cases h
        exact ⟨[], s, rfl, .nil _⟩
    | succ fuel ih =>
        intro h
        rw [drain] at h
        obtain ⟨⟨t, event⟩, w₁, hrecv, hrest⟩ := flatMap_run_eq_ok.mp h
        cases hpick : pick t event with
        | some x =>
            simp only [hpick] at hrest
            obtain ⟨_, -, hb⟩ := map_run_eq_ok.mp hrest
            cases hb
        | none =>
            simp only [hpick] at hrest
            obtain ⟨l, t', hlen, hrun⟩ := ih hrest
            exact ⟨event :: l, t', congrArg Nat.succ hlen, hrun.cons ⟨hrecv, hpick⟩⟩
  · rintro ⟨l, t, rfl, hrun⟩
    have hloop : (drain recv pick (0 + l.length) s).run w = (drain recv pick 0 t).run w' :=
      run_drain_of_run hrun
    rw [Nat.zero_add] at hloop
    exact hloop

/-! ### Seeds -/

variable {κ ι : Type} {op : σ → κ → Io ω ε (σ × η)}

/-- A receive with the next seed of a stream. -/
def seeded (op : σ → κ → Io ω ε (σ × η)) (s : σ × (ℕ → κ)) : Io ω ε ((σ × (ℕ → κ)) × η) :=
  (op s.1 (s.2 0)).map fun r => ((r.1, fun k => s.2 (k + 1)), r.2)

lemma seeded_run_eq_ok_iff {s s' : σ × (ℕ → κ)} {event : η} {w w' : ω} :
    (seeded op s).run w = (.ok (s', event), w') ↔
      (op s.1 (s.2 0)).run w = (.ok (s'.1, event), w') ∧ s'.2 = fun k => s.2 (k + 1) := by
  rw [seeded, map_run_eq_ok]
  constructor
  · rintro ⟨⟨t, e⟩, hrun, heq⟩
    cases heq
    exact ⟨hrun, rfl⟩
  · rintro ⟨hrun, hseeds⟩
    exact ⟨_, hrun, by rw [← hseeds]⟩

/-- The receive after `n` others. -/
lemma seeded_shift_run_eq_ok_iff {s : σ} {s' : σ × (ℕ → κ)} {seeds : ℕ → κ} {n : ℕ} {event : η}
    {w w' : ω} :
    (seeded op (s, fun k => seeds (k + n))).run w = (.ok (s', event), w') ↔
      (op s (seeds n)).run w = (.ok (s'.1, event), w') ∧ s'.2 = fun k => seeds (k + 1 + n) := by
  rw [seeded_run_eq_ok_iff]
  simp only [Nat.zero_add]

lemma seeded_shift_run_eq_error_iff {s : σ} {seeds : ℕ → κ} {n : ℕ} {e : ε} {w w' : ω} :
    (seeded op (s, fun k => seeds (k + n))).run w = (.error e, w') ↔
      (op s (seeds n)).run w = (.error e, w') := by
  rw [seeded, map_run_eq_error]
  simp only [Nat.zero_add]

/-- The seeds that are left. -/
lemma shift_seeds (seeds : ℕ → κ) (events : List η) (event : η) :
    (fun k => seeds (k + 1 + events.length)) = fun k => seeds (k + (events ++ [event]).length) := by
  funext k
  rw [List.length_append, List.length_singleton]
  congr 1
  omega

/-- A run of receives that are passed over is a run of the receives themselves, with one seed after
the other, none of whose events is of the kind that is waited for. -/
lemma run_passes_seeded_iff {pick : σ × (ℕ → κ) → η → Option (Io ω ε β)} {mine : η → Prop}
    (hpick : ∀ s event, pick s event = none ↔ ¬ mine event)
    {step : σ × ω → ι → σ × ω → Prop} {label : κ → η → ι}
    (hstep : ∀ s w key event s' w',
      step (s, w) (label key event) (s', w') ↔ (op s key).run w = (.ok (s', event), w'))
    {s s₁ : σ} {seeds seeds₁ : ℕ → κ} {w w₁ : ω} {events : List η} :
    Run (Passes (seeded op) pick) ((s, seeds), w) events ((s₁, seeds₁), w₁) ↔
      Run step (s, w) (events.mapIdx fun i event => label (seeds i) event) (s₁, w₁) ∧
        (∀ event ∈ events, ¬ mine event) ∧ seeds₁ = fun k => seeds (k + events.length) := by
  induction events using List.reverseRecOn generalizing s₁ seeds₁ w₁ with
  | nil =>
      constructor
      · intro h
        cases h.eq_of_nil
        exact ⟨.nil _, fun _ he => (List.not_mem_nil he).elim, rfl⟩
      · rintro ⟨hrun, -, rfl⟩
        cases hrun.eq_of_nil
        exact .nil _
  | append_singleton events event ih =>
      rw [List.mapIdx_append, ← shift_seeds]
      simp only [List.mapIdx_cons, List.mapIdx_nil, Nat.zero_add]
      constructor
      · intro h
        obtain ⟨⟨⟨s₂, seeds₂⟩, w₂⟩, hrun, hrecv, hother⟩ := h.exists_of_snoc
        obtain ⟨hsteps, hothers, rfl⟩ := ih.mp hrun
        obtain ⟨hop, hseeds⟩ := seeded_run_eq_ok_iff.mp hrecv
        refine ⟨hsteps.snoc ((hstep _ _ _ _ _ _).mpr ?_), fun e he => ?_, hseeds⟩
        · simpa using hop
        · rcases List.mem_append.mp he with he | he
          · exact hothers e he
          · rw [List.mem_singleton.mp he]
            exact (hpick _ _).mp hother
      · rintro ⟨hsteps, hothers, rfl⟩
        obtain ⟨⟨s₂, w₂⟩, hrun, hlast⟩ := hsteps.exists_of_snoc
        have hpassed := ih.mpr ⟨hrun, fun e he => hothers e (List.mem_append_left _ he), rfl⟩
        refine hpassed.snoc ⟨seeded_run_eq_ok_iff.mpr ⟨?_, rfl⟩,
          (hpick _ _).mpr (hothers event (by simp))⟩
        simpa using (hstep _ _ _ _ _ _).mp hlast

end Effect.Io
