import Mathlib.Tactic

/-!
A list that keeps what was touched last in front, over arbitrary keys and values.

* `Event`, `Event.apply`: a key is touched with a value and moves to the front, is dropped, or
  nothing happens.
* `LastTouch`: the time of the last touch of a key in a history, and the value it left.
* `exists_lastTouch_of_mem`, `pairwise_replay`: after any history the list holds the values of the
  last touches, in strictly decreasing order of their times.
-/

namespace Recency

variable {K V : Type*}

/-- What happens at one time. -/
inductive Event (K V : Type*) where
  | touch (k : K) (v : V)
  | drop (k : K)
  | idle

/-- The last touch of the key was at the time, with the value. -/
def LastTouch (events : List (Event K V)) (k : K) (v : V) (time : ℕ) : Prop :=
  events[time]? = some (.touch k v) ∧ ∀ u w, time < u → events[u]? ≠ some (.touch k w)

variable {events : List (Event K V)} {e : Event K V} {k : K} {v : V} {time : ℕ}

lemma LastTouch.lt_length (h : LastTouch events k v time) : time < events.length :=
  (List.getElem?_eq_some_iff.mp h.1).1

/-- The events of a longer history. -/
lemma getElem?_snoc_iff {e' : Event K V} :
    (events ++ [e])[time]? = some e' ↔
      events[time]? = some e' ∨ (time = events.length ∧ e = e') := by
  rcases Nat.lt_or_ge time events.length with hlt | hge
  · rw [List.getElem?_append_left hlt]
    simp [hlt.ne]
  · rw [List.getElem?_append_right hge, List.getElem?_eq_none hge, List.getElem?_singleton]
    split <;> simp <;> omega

/-- One more event is the last touch of its key, or changes no last touch of another. -/
lemma lastTouch_snoc : LastTouch (events ++ [e]) k v time ↔
    (e = .touch k v ∧ time = events.length) ∨
      (LastTouch events k v time ∧ ∀ w, e ≠ .touch k w) := by
  constructor
  · rintro ⟨htouch, hnone⟩
    rcases getElem?_snoc_iff.mp htouch with hold | ⟨heq, he⟩
    · have hlt := (List.getElem?_eq_some_iff.mp hold).1
      refine Or.inr ⟨⟨hold, fun u w hu hw => ?_⟩, fun w hw => ?_⟩
      · exact hnone u w hu (getElem?_snoc_iff.mpr (Or.inl hw))
      · exact hnone _ w hlt (getElem?_snoc_iff.mpr (Or.inr ⟨rfl, hw⟩))
    · exact Or.inl ⟨he, heq⟩
  · rintro (⟨rfl, rfl⟩ | ⟨h, hother⟩)
    · refine ⟨getElem?_snoc_iff.mpr (Or.inr ⟨rfl, rfl⟩), fun u w hu hw => ?_⟩
      rcases getElem?_snoc_iff.mp hw with hold | ⟨heq, -⟩
      · exact absurd (List.getElem?_eq_some_iff.mp hold).1 (Nat.lt_asymm hu)
      · omega
    · refine ⟨getElem?_snoc_iff.mpr (Or.inl h.1), fun u w hu hw => ?_⟩
      rcases getElem?_snoc_iff.mp hw with hold | ⟨-, he⟩
      · exact h.2 u w hu hold
      · exact hother w he

variable [DecidableEq K]

/-- The list after an event. -/
def Event.apply (l : List (K × V)) : Event K V → List (K × V)
  | touch k v => (k, v) :: l.filter fun p => p.1 ≠ k
  | drop k => l.filter fun p => p.1 ≠ k
  | idle => l

/-- The list after a history. -/
def replay (events : List (Event K V)) : List (K × V) := events.foldl Event.apply []

lemma replay_snoc (events : List (Event K V)) (e : Event K V) :
    replay (events ++ [e]) = e.apply (replay events) := by
  rw [replay, List.foldl_append]
  rfl

/-- No key is listed twice. -/
lemma Event.nodup_apply {l : List (K × V)} (h : (l.map Prod.fst).Nodup) (e : Event K V) :
    ((e.apply l).map Prod.fst).Nodup := by
  have hfilter : ∀ k : K, ((l.filter fun p => p.1 ≠ k).map Prod.fst).Nodup := fun k =>
    h.sublist (List.filter_sublist.map _)
  cases e with
  | touch k v =>
      refine List.nodup_cons.mpr ⟨fun hmem => ?_, hfilter k⟩
      obtain ⟨p, hp, heq⟩ := List.mem_map.mp hmem
      exact of_decide_eq_true (List.mem_filter.mp hp).2 heq
  | drop k => exact hfilter k
  | idle => exact h

/-- A listed value was left by the last touch of its key. -/
lemma exists_lastTouch_of_mem {p : K × V} (h : p ∈ replay events) :
    ∃ time, LastTouch events p.1 p.2 time := by
  induction events using List.reverseRecOn with
  | nil => cases h
  | append_singleton events e ih =>
      rw [replay_snoc] at h
      cases e with
      | touch k v =>
          rcases List.mem_cons.mp h with rfl | h
          · exact ⟨_, lastTouch_snoc.mpr (Or.inl ⟨rfl, rfl⟩)⟩
          · obtain ⟨hmem, hne⟩ := List.mem_filter.mp h
            obtain ⟨time, htime⟩ := ih hmem
            refine ⟨time, lastTouch_snoc.mpr (Or.inr ⟨htime, ?_⟩)⟩
            rintro w ⟨⟩
            exact of_decide_eq_true hne rfl
      | drop k =>
          obtain ⟨time, htime⟩ := ih (List.mem_filter.mp h).1
          exact ⟨time, lastTouch_snoc.mpr (Or.inr ⟨htime, nofun⟩)⟩
      | idle =>
          obtain ⟨time, htime⟩ := ih h
          exact ⟨time, lastTouch_snoc.mpr (Or.inr ⟨htime, nofun⟩)⟩

/-- What is listed first was touched last. -/
theorem pairwise_replay : (replay events).Pairwise fun p q =>
    ∀ v w t u, LastTouch events p.1 v t → LastTouch events q.1 w u → u < t := by
  induction events using List.reverseRecOn with
  | nil => exact .nil
  | append_singleton events e ih =>
      rw [replay_snoc]
      -- an event that touches neither of two keys leaves their order as it was
      have hkeep : ∀ {p q : K × V}, (∀ w, e ≠ .touch p.1 w) → (∀ w, e ≠ .touch q.1 w) →
          (∀ v w t u, LastTouch events p.1 v t → LastTouch events q.1 w u → u < t) →
          ∀ v w t u, LastTouch (events ++ [e]) p.1 v t → LastTouch (events ++ [e]) q.1 w u →
            u < t := by
        intro p q hp hq h v w t u ht hu
        rcases lastTouch_snoc.mp ht with ⟨he, -⟩ | ⟨ht, -⟩
        · exact absurd he (hp v)
        · rcases lastTouch_snoc.mp hu with ⟨he, -⟩ | ⟨hu, -⟩
          · exact absurd he (hq w)
          · exact h v w t u ht hu
      cases e with
      | touch k x =>
          have hother : ∀ {p : K × V}, p ∈ (replay events).filter (fun p => p.1 ≠ k) →
              ∀ w, (Event.touch k x : Event K V) ≠ .touch p.1 w := by
            rintro p hp w heq
            cases heq
            exact of_decide_eq_true (List.mem_filter.mp hp).2 rfl
          refine List.pairwise_cons.mpr ⟨fun q hq v w t u ht hu => ?_, ?_⟩
          · rcases lastTouch_snoc.mp ht with ⟨-, rfl⟩ | ⟨-, hnot⟩
            · rcases lastTouch_snoc.mp hu with ⟨he, -⟩ | ⟨hu, -⟩
              · exact absurd he (hother hq w)
              · exact hu.lt_length
            · exact absurd rfl (hnot x)
          · refine (List.Pairwise.and_mem.mp (ih.sublist List.filter_sublist)).imp ?_
            rintro p q ⟨hp, hq, h⟩
            exact hkeep (hother hp) (hother hq) h
      | drop k => exact (ih.sublist List.filter_sublist).imp (hkeep nofun nofun)
      | idle => exact ih.imp (hkeep nofun nofun)

end Recency
