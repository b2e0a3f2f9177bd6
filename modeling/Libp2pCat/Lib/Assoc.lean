import Mathlib.Tactic

/-!
Association lists, and lists of them kept in buckets.

* `lookup_eq_some_iff_mem`, `lookup_congr_mem`: a list without repeated keys is determined, as a
  function, by what it contains.
* `exists_perm_of_getElem?`: one bucket and the rest of a list of buckets; replacing the bucket
  leaves the rest alone.
-/

namespace List

variable {κ ν α β : Type}

section Lookup

variable [BEq κ] [LawfulBEq κ]

/-- Looking a key up finds the pair the list holds. -/
lemma lookup_eq_some_iff_mem {l : List (κ × ν)} (h : (l.map Prod.fst).Nodup) {k : κ} {v : ν} :
    l.lookup k = some v ↔ (k, v) ∈ l := by
  induction l with
  | nil => simp
  | cons p l ih =>
      obtain ⟨k', v'⟩ := p
      obtain ⟨hk', hl⟩ := List.nodup_cons.mp h
      by_cases hk : k = k'
      · subst hk
        have hnot : (k, v) ∉ l := fun hmem => hk' (List.mem_map.mpr ⟨_, hmem, rfl⟩)
        simp [hnot, eq_comm]
      · rw [List.lookup_cons, beq_false_of_ne hk]
        change l.lookup k = some v ↔ _
        rw [ih hl]
        simp [hk]

/-- Two lists without repeated keys that hold the same pairs find the same values. -/
lemma lookup_congr_mem {l l' : List (κ × ν)} (h : (l.map Prod.fst).Nodup)
    (h' : (l'.map Prod.fst).Nodup) {k : κ} (hmem : ∀ v, (k, v) ∈ l ↔ (k, v) ∈ l') :
    l.lookup k = l'.lookup k := by
  refine Option.ext fun v => ?_
  rw [lookup_eq_some_iff_mem h, lookup_eq_some_iff_mem h', hmem]

lemma lookup_eq_none_iff_notMem {l : List (κ × ν)} {k : κ} :
    l.lookup k = none ↔ k ∉ l.map Prod.fst := by
  rw [List.lookup_eq_none_iff]
  constructor
  · intro h hk
    obtain ⟨p, hp, rfl⟩ := List.mem_map.mp hk
    simpa using h p hp
  · intro h p hp
    have hne : k ≠ p.1 := fun hk => h (hk ▸ List.mem_map_of_mem hp)
    simpa using hne

end Lookup

/-- The entries of one bucket and the rest of the entries: the rest stays when the bucket is
replaced, and every entry of it is in a bucket with another index. -/
lemma exists_perm_of_getElem? {l : List α} {i : ℕ} {a : α} (f : α → List β)
    (h : l[i]? = some a) :
    ∃ rest, l.flatMap f ~ f a ++ rest ∧ (∀ a', (l.set i a').flatMap f ~ f a' ++ rest) ∧
      ∀ e ∈ rest, ∃ (j : ℕ) (b : α), j ≠ i ∧ l[j]? = some b ∧ e ∈ f b := by
  obtain ⟨hi, rfl⟩ := List.getElem?_eq_some_iff.mp h
  refine ⟨(l.take i).flatMap f ++ (l.drop (i + 1)).flatMap f, ?_, ?_, ?_⟩
  · have hsplit : l = l.take i ++ l[i] :: l.drop (i + 1) := by
      rw [List.getElem_cons_drop, List.take_append_drop]
    nth_rewrite 1 [hsplit]
    rw [List.flatMap_append, List.flatMap_cons, ← List.append_assoc, ← List.append_assoc]
    exact List.perm_append_comm.append_right _
  · intro a'
    rw [List.set_eq_take_append_cons_drop, if_pos hi, List.flatMap_append, List.flatMap_cons,
      ← List.append_assoc, ← List.append_assoc]
    exact List.perm_append_comm.append_right _
  · intro e he
    rcases List.mem_append.mp he with he | he
    · obtain ⟨b, hb, heb⟩ := List.mem_flatMap.mp he
      obtain ⟨j, hj, rfl⟩ := List.mem_take_iff_getElem.mp hb
      exact ⟨j, _, by omega, List.getElem?_eq_getElem _, heb⟩
    · obtain ⟨b, hb, heb⟩ := List.mem_flatMap.mp he
      obtain ⟨j, hj, rfl⟩ := List.mem_drop_iff_getElem.mp hb
      exact ⟨i + 1 + j, _, by omega, List.getElem?_eq_getElem _, heb⟩

end List
