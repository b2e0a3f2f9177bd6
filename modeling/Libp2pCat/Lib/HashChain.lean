import Mathlib.Tactic

/-!
A running hash over arbitrary types: items are absorbed one after another, each
step hashing the pair of the previous digest and the item.

* `digest H pair h ds`: the digest after absorbing the items `ds` from `h`.
* `hashed H pair h ds`: the inputs given to the hash function on the way.
* `digest_inj`: two runs over equally many items that end in the same digest
  absorbed the same items, when the hash function has no collision among the
  inputs of the two runs.
-/

namespace HashChain

variable {η δ ι : Type*} (H : ι → η) (pair : η → δ → ι)

/-- The digest after absorbing a list of items. -/
def digest (h : η) (ds : List δ) : η := ds.foldl (fun h d => H (pair h d)) h

/-- The inputs of the hash function while absorbing a list of items. -/
def hashed : η → List δ → List ι
  | _, [] => []
  | h, d :: ds => pair h d :: hashed (H (pair h d)) ds

@[simp] lemma digest_nil (h : η) : digest H pair h [] = h := rfl

@[simp] lemma digest_cons (h : η) (d : δ) (ds : List δ) :
    digest H pair h (d :: ds) = digest H pair (H (pair h d)) ds := rfl

variable {H pair}

/-- Equal digests come from equal items, as long as no two inputs of the two runs
collide. -/
theorem digest_inj {Q : Set ι} (hH : Set.InjOn H Q)
    (hpair : ∀ h h' d d', pair h d = pair h' d' → h = h' ∧ d = d')
    {ds ds' : List δ} (hlen : ds.length = ds'.length) {h h' : η}
    (hQ : ∀ x ∈ hashed H pair h ds, x ∈ Q) (hQ' : ∀ x ∈ hashed H pair h' ds', x ∈ Q)
    (heq : digest H pair h ds = digest H pair h' ds') : h = h' ∧ ds = ds' := by
  induction ds generalizing ds' h h' with
  | nil =>
      obtain rfl : ds' = [] := List.length_eq_zero_iff.mp hlen.symm
      exact ⟨heq, rfl⟩
  | cons d ds ih =>
      cases ds' with
      | nil => cases hlen
      | cons d' ds' =>
          have hin : pair h d ∈ Q := hQ _ (by simp [hashed])
          have hin' : pair h' d' ∈ Q := hQ' _ (by simp [hashed])
          -- the tails agree, and so do the digests they started from
          rw [digest_cons, digest_cons] at heq
          obtain ⟨hstart, htail⟩ := ih (Nat.succ_injective hlen)
            (fun x hx => hQ x (List.mem_cons_of_mem _ hx))
            (fun x hx => hQ' x (List.mem_cons_of_mem _ hx)) heq
          obtain ⟨hh, hd⟩ := hpair _ _ _ _ (hH hin hin' hstart)
          exact ⟨hh, by rw [hd, htail]⟩

end HashChain
