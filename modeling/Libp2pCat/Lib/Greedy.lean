import Libp2pCat.Lib.Nearest

/-!
Searching greedily, over arbitrary elements and keys in a linear order.

* `rank`: how many elements of a list have a smaller key; `mem_nearest_iff_rank_lt`: the nearest
  elements are those of small rank.
* `exists_just_below`: below an element that has something below it, one comes last.
* `nearest_eq_of_closed`: who knows some elements, and of each of the nearest it knows also knows
  something nearer, if there is any, and the next one further, knows the nearest of all.
-/

namespace List

variable {α κ : Type*} [LinearOrder κ] (key : α → κ)

/-- How many elements have a smaller key. -/
def rank (l : List α) (a : α) : ℕ := l.countP fun b => key b < key a

variable {key} {n : ℕ} {l known net : List α}

lemma rank_eq_of_perm (h : l ~ net) (a : α) : rank key l a = rank key net a := h.countP_eq _

/-- A smaller key has a smaller rank. -/
lemma rank_lt_rank {a b : α} (hb : b ∈ l) (h : key b < key a) : rank key l b < rank key l a := by
  have hsub : l.filter (fun c => key c < key b) <+ l.filter fun c => key c < key a :=
    monotone_filter_right l fun c hc => by
      simp only [decide_eq_true_eq] at hc ⊢
      exact hc.trans h
  rw [rank, rank, countP_eq_length_filter, countP_eq_length_filter]
  refine lt_of_le_of_ne hsub.length_le fun hlen => ?_
  -- the element itself is counted once only
  have hmem : b ∈ l.filter fun c => key c < key a := mem_filter.mpr ⟨hb, decide_eq_true h⟩
  rw [← hsub.eq_of_length hlen] at hmem
  exact lt_irrefl _ (of_decide_eq_true (mem_filter.mp hmem).2)

/-- Knowing less makes no rank greater. -/
lemma rank_le_rank (hknown : known.Nodup) (hsub : ∀ a ∈ known, a ∈ net) (a : α) :
    rank key known a ≤ rank key net a := by
  rw [rank, rank, countP_eq_length_filter, countP_eq_length_filter]
  refine (subperm_of_subset (hknown.filter _) fun b hb => ?_).length_le
  obtain ⟨hmem, hlt⟩ := mem_filter.mp hb
  exact mem_filter.mpr ⟨hsub b hmem, hlt⟩

/-- The nearest elements are those of small rank. -/
lemma mem_nearest_iff_rank_lt (h : (l.map key).Nodup) {a : α} (ha : a ∈ l) :
    a ∈ nearest key n l ↔ rank key l a < n := by
  have hsorted := pairwise_lt_insertionSort h
  have hperm := perm_insertionSort (fun a b => key a ≤ key b) l
  rw [← rank_eq_of_perm hperm]
  rw [← take_append_drop n (l.insertionSort fun a b => key a ≤ key b), pairwise_append] at hsorted
  have hmem := hperm.mem_iff.mpr ha
  rw [← take_append_drop n (l.insertionSort fun a b => key a ≤ key b), mem_append] at hmem
  have hcount := congrArg (rank key · a)
    (take_append_drop n (l.insertionSort fun a b => key a ≤ key b))
  simp only [rank, countP_append] at hcount
  rw [nearest, rank, ← hcount]
  constructor
  · intro htake
    -- nothing further is counted, nor is the element itself
    have hdrop : (drop n (l.insertionSort fun a b => key a ≤ key b)).countP
        (fun b => key b < key a) = 0 :=
      countP_eq_zero.mpr fun b hb => by simpa using (hsorted.2.2 a htake b hb).le
    have hself : (take n (l.insertionSort fun a b => key a ≤ key b)).countP
        (fun b => key b < key a)
          ≠ (take n (l.insertionSort fun a b => key a ≤ key b)).length := fun heq => by
      have hlt := countP_eq_length.mp heq a htake
      simp at hlt
    have hle := countP_le_length (p := fun b => decide (key b < key a))
      (l := take n (l.insertionSort fun a b => key a ≤ key b))
    have hlength := length_take_le n (l.insertionSort fun a b => key a ≤ key b)
    omega
  · intro hlt
    refine hmem.resolve_right fun hdrop => ?_
    -- all that is taken is counted
    have htake : (take n (l.insertionSort fun a b => key a ≤ key b)).countP
        (fun b => key b < key a)
          = (take n (l.insertionSort fun a b => key a ≤ key b)).length :=
      countP_eq_length.mpr fun b hb => decide_eq_true (hsorted.2.2 b hb a hdrop)
    have hpos := length_pos_of_mem hdrop
    rw [length_drop] at hpos
    rw [length_take] at htake
    omega

/-- Below an element that has something below it, one comes last. -/
lemma exists_just_below {a : α} (h : ∃ b ∈ l, key b < key a) :
    ∃ b ∈ l, key b < key a ∧ ∀ c ∈ l, key c < key a → key c ≤ key b := by
  cases hmax : argmax key (l.filter fun c => key c < key a) with
  | none =>
      obtain ⟨b, hb, hlt⟩ := h
      have hmem : b ∈ l.filter fun c => key c < key a := mem_filter.mpr ⟨hb, decide_eq_true hlt⟩
      rw [argmax_eq_none.mp hmax] at hmem
      cases hmem
  | some b =>
      obtain ⟨hb, hlt⟩ := mem_filter.mp (argmax_mem hmax)
      exact ⟨b, hb, of_decide_eq_true hlt, fun c hc hca =>
        le_of_mem_argmax (mem_filter.mpr ⟨hc, decide_eq_true hca⟩) hmax⟩

/-- Among some elements one comes first. -/
lemma exists_least (key : α → κ) {l : List α} (h : l ≠ []) :
    ∃ a ∈ l, ∀ b ∈ l, key a ≤ key b := by
  cases hmin : argmin key l with
  | none => exact absurd (argmin_eq_none.mp hmin) h
  | some a => exact ⟨a, argmin_mem hmin, fun b hb => le_of_mem_argmin hb hmin⟩

section Closed

variable (hnet : (net.map key).Nodup) (hknown : (known.map key).Nodup)
  (hsub : ∀ a ∈ known, a ∈ net) (hne : known ≠ [])
  (hnearer : ∀ a ∈ nearest key n known, (∃ b ∈ net, key b < key a) →
    ∃ b ∈ known, key b < key a)
  (hnext : ∀ a ∈ nearest key n known, ∀ b ∈ net, key a < key b →
    (∀ c ∈ net, key c < key b → key c ≤ key a) → rank key net b < n → b ∈ known)

include hnet hknown hsub hne hnearer hnext

/-- By induction on the rank: the first is known since something is, and any other since the one
before it is. -/
lemma mem_of_closed {b : α} (hb : b ∈ net) (hrank : rank key net b < n) : b ∈ known := by
  induction hr : rank key net b using Nat.strong_induction_on generalizing b with
  | _ r ih =>
      have hamong : ∀ a ∈ known, rank key net a < n → a ∈ nearest key n known := fun a ha hlt =>
        (mem_nearest_iff_rank_lt hknown ha).mpr
          ((rank_le_rank hknown.of_map hsub a).trans_lt hlt)
      by_cases hbelow : ∃ c ∈ net, key c < key b
      · obtain ⟨a, ha, hab, hlast⟩ := exists_just_below hbelow
        have hlt := rank_lt_rank ha hab
        have hmem := ih _ (hr ▸ hlt) ha (hlt.trans hrank) rfl
        exact hnext a (hamong a hmem (hlt.trans hrank)) b hb hab hlast hrank
      · obtain ⟨a, ha, hleast⟩ := exists_least key hne
        have hzero : rank key known a = 0 :=
          countP_eq_zero.mpr fun c hc => by simpa using hleast c hc
        have hfirst : a ∈ nearest key n known :=
          (mem_nearest_iff_rank_lt hknown ha).mpr (by rw [hzero]; omega)
        by_contra hout
        -- the least known one is not below, and nothing nearer is known
        have hlt : key b < key a := by
          refine lt_of_le_of_ne (not_lt.mp fun hab => hbelow ⟨a, hsub a ha, hab⟩) fun heq => ?_
          exact hout (inj_on_of_nodup_map hnet hb (hsub a ha) heq ▸ ha)
        obtain ⟨c, hc, hca⟩ := hnearer a hfirst ⟨b, hb, hlt⟩
        exact absurd hca (not_lt.mpr (hleast c hc))

/-- Who knows some elements, and of each of the nearest it knows also knows something nearer, if
there is any, and the next one further, knows the nearest of all. -/
lemma nearest_eq_of_closed : nearest key n known = nearest key n net := by
  have hmem : ∀ a ∈ nearest key n net, a ∈ nearest key n known := by
    intro a ha
    have hin := mem_of_mem_nearest ha
    have hrank := (mem_nearest_iff_rank_lt hnet hin).mp ha
    have hin' := mem_of_closed hnet hknown hsub hne hnearer hnext hin hrank
    exact (mem_nearest_iff_rank_lt hknown hin').mpr
      ((rank_le_rank hknown.of_map hsub a).trans_lt hrank)
  have hsorted := pairwise_lt_nearest (n := n) hnet
  have hsorted' := pairwise_lt_nearest (n := n) hknown
  have hnodup : (nearest key n net).Nodup := hsorted.imp fun h => ne_of_apply_ne key h.ne
  have hsublist : nearest key n net <+ nearest key n known :=
    sublist_of_subperm_of_pairwise (subperm_of_subset hnodup hmem) hsorted hsorted'
  refine (hsublist.eq_of_length_le ?_).symm
  have hlength := (subperm_of_subset hknown.of_map hsub).length_le
  rw [length_nearest, length_nearest]
  omega

end Closed

end List
