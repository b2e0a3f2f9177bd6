import Mathlib.Tactic

/-!
The elements of a list with the least keys, over arbitrary elements and keys in a linear order.

* `nearest key n l`: the first `n` elements of `l` in the order of their keys.
* `pairwise_lt_nearest`, `lt_of_notMem_nearest`: in a list whose keys are all different they are
  in strict order, and everything left out has a greater key.
* `nearest_prefix`, `nearest_congr`: fewer elements are an initial part of more, and the result
  depends only on what the list contains.
* `nearest_of_pairwise_lt`, `getElem?_nearest_le`: a list in strict order is its own sorting, and
  with more to choose from what is taken at a place is at most as far.
-/

namespace List

variable {α κ : Type*} [LinearOrder κ] (key : α → κ)

/-- The first `n` elements in the order of their keys. -/
def nearest (n : ℕ) (l : List α) : List α := (l.insertionSort fun a b => key a ≤ key b).take n

variable {key} {n : ℕ} {l l' : List α}

lemma length_nearest : (nearest key n l).length = min n l.length := by
  rw [nearest, length_take, length_insertionSort]

lemma mem_of_mem_nearest {a : α} (h : a ∈ nearest key n l) : a ∈ l :=
  (perm_insertionSort _ l).mem_iff.mp (mem_of_mem_take h)

/-- Fewer elements are an initial part of more. -/
lemma nearest_prefix {m : ℕ} (h : m ≤ n) : nearest key m l <+: nearest key n l :=
  take_prefix_take_left h

/-- Different keys are in strict order. -/
lemma pairwise_lt_insertionSort (h : (l.map key).Nodup) :
    (l.insertionSort fun a b => key a ≤ key b).Pairwise fun a b => key a < key b := by
  have hsorted : (l.insertionSort fun a b => key a ≤ key b).Pairwise fun a b => key a ≤ key b := by
    have : Std.Total fun a b : α => key a ≤ key b := ⟨fun a b => le_total (key a) (key b)⟩
    have : IsTrans α fun a b => key a ≤ key b := ⟨fun _ _ _ => le_trans⟩
    exact pairwise_insertionSort _ l
  have hnodup : (l.insertionSort fun a b => key a ≤ key b).Pairwise fun a b => key a ≠ key b := by
    rw [← pairwise_map]
    exact ((perm_insertionSort _ l).map key).nodup_iff.mpr h
  exact (hsorted.and hnodup).imp fun h => lt_of_le_of_ne h.1 h.2

lemma pairwise_lt_nearest (h : (l.map key).Nodup) :
    (nearest key n l).Pairwise fun a b => key a < key b :=
  (pairwise_lt_insertionSort h).sublist (take_sublist _ _)

/-- Everything left out has a greater key than everything taken. -/
lemma lt_of_notMem_nearest (h : (l.map key).Nodup) {a b : α} (ha : a ∈ l)
    (hout : a ∉ nearest key n l) (hb : b ∈ nearest key n l) : key b < key a := by
  have hsorted := pairwise_lt_insertionSort h
  rw [← take_append_drop n (l.insertionSort fun a b => key a ≤ key b), pairwise_append] at hsorted
  have hmem : a ∈ l.insertionSort fun a b => key a ≤ key b := (perm_insertionSort _ l).mem_iff.mpr ha
  rw [← take_append_drop n (l.insertionSort fun a b => key a ≤ key b)] at hmem
  rcases mem_append.mp hmem with htake | hdrop
  · exact absurd htake hout
  · exact hsorted.2.2 b hb a hdrop

/-- The result depends only on what the list contains. -/
lemma nearest_congr (h : (l.map key).Nodup) (h' : (l'.map key).Nodup)
    (hmem : ∀ a, a ∈ l' ↔ a ∈ l) : nearest key n l' = nearest key n l := by
  have hperm : l' ~ l := (perm_ext_iff_of_nodup h'.of_map h.of_map).mpr hmem
  have hsort : (l'.insertionSort fun a b => key a ≤ key b)
      = l.insertionSort fun a b => key a ≤ key b := by
    refine Perm.eq_of_pairwise ?_ (pairwise_lt_insertionSort h') (pairwise_lt_insertionSort h)
      ((perm_insertionSort _ l').trans (hperm.trans (perm_insertionSort _ l).symm))
    intro a b _ _ hab hba
    exact absurd hab (lt_asymm hba)
  rw [nearest, nearest, hsort]

/-- A list in strict order is its own sorting. -/
lemma nearest_of_pairwise_lt (h : l.Pairwise fun a b => key a < key b) :
    nearest key n l = l.take n := by
  have hle : l.Pairwise fun a b => key a ≤ key b := h.imp le_of_lt
  rw [nearest, hle.insertionSort_eq]

/-- With more to choose from, what is taken at a place is at most as far. -/
lemma getElem?_nearest_le (h : (l.map key).Nodup) (h' : (l'.map key).Nodup)
    (hsub : ∀ a ∈ l, a ∈ l') {i : ℕ} {a : α} (ha : (nearest key n l)[i]? = some a) :
    ∃ b, (nearest key n l')[i]? = some b ∧ key b ≤ key a := by
  have hsorted := pairwise_lt_insertionSort h
  have hsorted' := pairwise_lt_insertionSort h'
  obtain ⟨hi, ha⟩ : i < n ∧ (l.insertionSort fun a b => key a ≤ key b)[i]? = some a := by
    rw [nearest, getElem?_take] at ha
    split_ifs at ha with hi
    exact ⟨hi, ha⟩
  rw [nearest, getElem?_take_of_lt hi]
  -- both are in strict order, so the shorter one is a sublist of the longer one
  have hsublist : (l.insertionSort fun a b => key a ≤ key b)
      <+ l'.insertionSort fun a b => key a ≤ key b := by
    refine sublist_of_subperm_of_pairwise ?_ hsorted hsorted'
    refine subperm_of_subset ((perm_insertionSort _ l).nodup_iff.mpr h.of_map) fun c hc => ?_
    exact (perm_insertionSort _ l').mem_iff.mpr (hsub c ((perm_insertionSort _ l).mem_iff.mp hc))
  obtain ⟨f, hf⟩ := sublist_iff_exists_orderEmbedding_getElem?_eq.mp hsublist
  have hfi := hf i
  rw [ha] at hfi
  obtain ⟨hlt, hfa⟩ := getElem?_eq_some_iff.mp hfi.symm
  have hle : i ≤ f i := f.strictMono.le_apply
  refine ⟨_, getElem?_eq_getElem (hle.trans_lt hlt), ?_⟩
  rw [← hfa]
  rcases hle.eq_or_lt with heq | hlt'
  · exact (congrArg key (getElem_congr_idx heq)).le
  · exact (pairwise_iff_getElem.mp hsorted' _ _ _ hlt hlt').le

end List
