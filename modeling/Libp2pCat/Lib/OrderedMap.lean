import Mathlib.Tactic

/-!
The values and the entries of an ordered map.

* `getElem?_of_erase`: an entry after a removal was there before it; `getElem?_erase_of_ne`,
  `getElem?_insert_of_ne`: the other entries.
* `values_eq_map_toList`, `mem_values_iff`: the values are those of the entries, in the order of
  the keys.
* `nodup_map_values`: values that determine their keys are listed once each.
-/

namespace Std.ExtTreeMap

variable {α β γ : Type} {cmp : α → α → Ordering} [TransCmp cmp] {t : ExtTreeMap α β cmp}

/-- Erasing only drops entries. -/
lemma getElem?_of_erase {k a : α} {v : β} (h : (t.erase k)[a]? = some v) : t[a]? = some v := by
  rw [getElem?_erase] at h
  split at h
  · cases h
  · exact h

/-- Erasing a key leaves the others alone. -/
lemma getElem?_erase_of_ne [LawfulEqCmp cmp] {k a : α} (h : k ≠ a) : (t.erase k)[a]? = t[a]? := by
  rw [getElem?_erase, if_neg fun heq => h (LawfulEqCmp.eq_of_compare heq)]

/-- An insertion leaves the other keys alone. -/
lemma getElem?_insert_of_ne [LawfulEqCmp cmp] {k a : α} {v : β} (h : k ≠ a) :
    (t.insert k v)[a]? = t[a]? := by
  rw [getElem?_insert, if_neg fun heq => h (LawfulEqCmp.eq_of_compare heq)]

lemma values_eq_map_toList : t.values = t.toList.map Prod.snd := by
  have hfoldr : t.values = t.foldr (fun _ v l => v :: l) [] := by
    obtain ⟨⟨q⟩⟩ := t
    induction q using Quotient.ind
    rfl
  rw [hfoldr, foldr_eq_foldr_toList]
  induction t.toList with
  | nil => rfl
  | cons p l ih => rw [List.foldr_cons, ih, List.map_cons]

lemma mem_values_iff [LawfulEqCmp cmp] {v : β} : v ∈ t.values ↔ ∃ k : α, t[k]? = some v := by
  rw [values_eq_map_toList, List.mem_map]
  constructor
  · rintro ⟨⟨k, v⟩, h, rfl⟩
    exact ⟨k, mem_toList_iff_getElem?_eq_some.mp h⟩
  · rintro ⟨k, h⟩
    exact ⟨(k, v), mem_toList_iff_getElem?_eq_some.mpr h, rfl⟩

/-- Values that determine their keys are listed once each. -/
lemma nodup_map_values [LawfulEqCmp cmp] {f : β → γ} {g : γ → α}
    (h : ∀ (k : α) (v : β), t[k]? = some v → g (f v) = k) : (t.values.map f).Nodup := by
  rw [values_eq_map_toList, List.map_map, List.Nodup, List.pairwise_map]
  refine (List.Pairwise.and_mem.mp distinct_keys_toList).imp ?_
  rintro ⟨k, v⟩ ⟨k', v'⟩ ⟨hv, hv', hne⟩ heq
  have hk := h k v (mem_toList_iff_getElem?_eq_some.mp hv)
  have hk' := h k' v' (mem_toList_iff_getElem?_eq_some.mp hv')
  have hkeys : k = k' := by
    rw [← hk, ← hk']
    exact congrArg g heq
  exact hne (hkeys ▸ ReflCmp.compare_self)

end Std.ExtTreeMap
