import Libp2pCat.Lib.OrderedMap

/-!
A bounded table that forgets its least recently used entry, over an ordered map with
arbitrary keys and values and an arbitrary activity stamp.

* `oldest`: the first key whose entry has the least stamp.
* `insertWithLru`: insert an entry; a new key in a full table drives the oldest entry
  out first.
* `sweep`: split a table at a cutoff.
* `getElem?_insertWithLru_self`, `getElem?_of_insertWithLru`, `insertWithLru_of_lt`: the
  entry is there, every other entry is an old one, and nothing is lost while there is room.
* `getElem?_insertWithLru_of_ne`, `DropsOldest`, `insertWithLru_frame`: another entry goes only to
  make room for a new key in a full table, and it is the oldest one.
* `size_insertWithLru_le`, `insertWithLru_erase`: the bound is kept, and an entry taken out of
  a table within its bound goes back in without driving another one out.
* `Swept`, `swept_sweep`: a sweep takes exactly the entries that were idle for too long, and
  returns each of their keys once.
* `toNat_of_moved`: a machine clock that does not wrap counts its moves.
-/

namespace Lru

open Std

variable {K V : Type} [Ord K] [TransOrd K] (activity : V → ℕ)

/-- The first key whose entry has the least stamp. -/
def oldest (map : ExtTreeMap K V) : Option K :=
  (map.toList.minOn? fun p => activity p.2).map Prod.fst

/-- Drop the oldest entry of a full table that lacks the key. -/
def makeRoom (map : ExtTreeMap K V) (k : K) (cap : ℕ) : ExtTreeMap K V :=
  if map.contains k = false ∧ cap ≤ map.size then
    match oldest activity map with
    | some victim => map.erase victim
    | none => map
  else map

/-- Insert an entry into a table bounded by `cap`. -/
def insertWithLru (map : ExtTreeMap K V) (k : K) (entry : V) (cap : ℕ) : ExtTreeMap K V :=
  (makeRoom activity map k cap).insert k entry

/-- The entries stamped at or after the cutoff, and the keys of the others. -/
def sweep (map : ExtTreeMap K V) (cutoff : ℕ) : ExtTreeMap K V × List K :=
  (map.filter fun _ v => decide (cutoff ≤ activity v),
    (map.toList.filter fun p => decide (activity p.2 < cutoff)).map Prod.fst)

variable {activity} {map : ExtTreeMap K V} {k j : K} {entry v : V} {cap : ℕ}

/-- Taking an entry out and putting another in is one insertion. -/
lemma insert_erase [LawfulEqOrd K] (map : ExtTreeMap K V) (k : K) (v : V) :
    (map.erase k).insert k v = map.insert k v := by
  refine ExtTreeMap.ext_getElem? fun j => ?_
  rw [ExtTreeMap.getElem?_insert, ExtTreeMap.getElem?_insert, ExtTreeMap.getElem?_erase]
  split <;> rfl

/-- Inserting the entry that is there changes nothing. -/
lemma insert_eq_self [LawfulEqOrd K] (h : map[k]? = some v) : map.insert k v = map := by
  refine ExtTreeMap.ext_getElem? fun j => ?_
  rw [ExtTreeMap.getElem?_insert]
  split
  · rename_i heq
    rw [← LawfulEqOrd.eq_of_compare heq, h]
  · rfl

/-- Making room only drops entries. -/
lemma getElem?_of_makeRoom (h : (makeRoom activity map k cap)[j]? = some v) : map[j]? = some v := by
  rw [makeRoom] at h
  split at h
  · split at h
    · exact ExtTreeMap.getElem?_of_erase h
    · exact h
  · exact h

/-- The inserted entry is there. -/
@[simp] lemma getElem?_insertWithLru_self :
    (insertWithLru activity map k entry cap)[k]? = some entry := by
  rw [insertWithLru, ExtTreeMap.getElem?_insert_self]

/-- Every other entry is an old one. -/
lemma getElem?_of_insertWithLru [LawfulEqOrd K] (hne : j ≠ k)
    (h : (insertWithLru activity map k entry cap)[j]? = some v) : map[j]? = some v := by
  rw [insertWithLru, ExtTreeMap.getElem?_insert] at h
  split at h
  · rename_i heq
    exact absurd (LawfulEqOrd.eq_of_compare heq).symm hne
  · exact getElem?_of_makeRoom h

/-- Another entry stays, unless the key is new, the table is full and the entry is the oldest. -/
lemma getElem?_insertWithLru_of_ne [LawfulEqOrd K] (hne : j ≠ k)
    (h : ¬(map.contains k = false ∧ cap ≤ map.size ∧ oldest activity map = some j)) :
    (insertWithLru activity map k entry cap)[j]? = map[j]? := by
  rw [insertWithLru, ExtTreeMap.getElem?_insert_of_ne (Ne.symm hne), makeRoom]
  split
  · rename_i hfull
    split
    · rename_i victim hold
      refine ExtTreeMap.getElem?_erase_of_ne ?_
      rintro rfl
      exact h ⟨hfull.1, hfull.2, hold⟩
    · rfl
  · rfl

/-- A new key drives the oldest entry out of a full table. -/
lemma getElem?_insertWithLru_oldest [LawfulEqOrd K] (hnew : map.contains k = false)
    (hfull : cap ≤ map.size) (hold : oldest activity map = some j) (hne : j ≠ k) :
    (insertWithLru activity map k entry cap)[j]? = none := by
  rw [insertWithLru, ExtTreeMap.getElem?_insert_of_ne (Ne.symm hne), makeRoom,
    if_pos ⟨hnew, hfull⟩, hold]
  exact ExtTreeMap.getElem?_erase_self

/-- A table with room loses nothing. -/
lemma insertWithLru_of_lt (h : map.size < cap) :
    insertWithLru activity map k entry cap = map.insert k entry := by
  rw [insertWithLru, makeRoom, if_neg (by omega)]

/-- An entry taken out goes back in as it was. -/
lemma insertWithLru_erase [LawfulEqOrd K] (h : map[k]? = some v) (hle : map.size ≤ cap) :
    insertWithLru activity (map.erase k) k v cap = map := by
  have hmem : map.contains k = true := by
    rw [ExtTreeMap.contains_eq_isSome_getElem?, h]
    rfl
  have hpos : map.size ≠ 0 := by
    intro hzero
    rw [ExtTreeMap.eq_empty_iff_size_eq_zero.mpr hzero] at h
    simp at h
  rw [insertWithLru_of_lt (by rw [ExtTreeMap.size_erase, if_pos hmem]; omega), insert_erase,
    insert_eq_self h]

/-- The oldest key is one of the table. -/
lemma contains_of_oldest (h : oldest activity map = some k) : map.contains k = true := by
  obtain ⟨⟨k', v'⟩, hmin, rfl⟩ := Option.map_eq_some_iff.mp h
  have hmem := ExtTreeMap.mem_toList_iff_getKey?_eq_some_and_getElem?_eq_some.mp
    (List.minOn?_mem hmin)
  rw [ExtTreeMap.contains_eq_isSome_getElem?, hmem.2]
  rfl

/-- No entry has a smaller stamp than the oldest. -/
lemma activity_oldest_le [LawfulEqOrd K] (h : oldest activity map = some k) (hk : map[k]? = some v)
    {u : V} (hj : map[j]? = some u) : activity v ≤ activity u := by
  obtain ⟨⟨k', v'⟩, hmin, rfl⟩ := Option.map_eq_some_iff.mp h
  have hmem := ExtTreeMap.mem_toList_iff_getElem?_eq_some.mp (List.minOn?_mem hmin)
  obtain rfl : v' = v := Option.some.inj (hmem.symm.trans hk)
  have hle := List.apply_get_minOn?_le_of_mem (f := fun p : K × V => activity p.2)
    (ExtTreeMap.mem_toList_iff_getElem?_eq_some.mpr hj)
  simpa only [hmin, Option.get_some] using hle

/-- Insertion keeps the bound. -/
lemma size_insertWithLru_le (hpos : 0 < cap) (h : map.size ≤ cap) :
    (insertWithLru activity map k entry cap).size ≤ cap := by
  rw [insertWithLru, makeRoom]
  split
  · rename_i hfull
    cases hold : oldest activity map with
    | none =>
        -- a full table is not empty
        have hnil : map.toList = [] := by
          rw [oldest, Option.map_eq_none_iff] at hold
          by_contra hne
          have hsome := (List.isSome_minOn?_iff (f := fun p : K × V => activity p.2)).mpr hne
          rw [hold] at hsome
          cases hsome
        have hzero : map.size = 0 := by
          rw [← ExtTreeMap.length_toList, hnil]
          rfl
        omega
    | some victim =>
        have herase : (map.erase victim).size = map.size - 1 := by
          rw [ExtTreeMap.size_erase, if_pos (contains_of_oldest hold)]
        have hins := ExtTreeMap.size_insert_le (t := map.erase victim) (k := k) (v := entry)
        simp only
        omega
  · rename_i hroom
    rw [ExtTreeMap.size_insert]
    split
    · exact h
    · rename_i hnew
      have hnew' : map.contains k = false := Bool.eq_false_iff.mpr hnew
      have hlt : ¬ cap ≤ map.size := fun hle => hroom ⟨hnew', hle⟩
      omega

/-- A full table lets one entry go for a new key: the entry with the least stamp. -/
structure DropsOldest (activity : V → ℕ) (cap : ℕ) (k : K) (map map' : ExtTreeMap K V) : Prop where
  full : cap ≤ map.size
  new : map[k]? = none
  added : ∃ entry, map'[k]? = some entry
  victim : ∃ j v, j ≠ k ∧ map[j]? = some v ∧ map'[j]? = none ∧
    (∀ (i : K) (u : V), map[i]? = some u → activity v ≤ activity u) ∧
    ∀ i : K, i ≠ k → i ≠ j → map'[i]? = map[i]?

/-- A new key leaves the other entries alone, or lets the oldest one of a full table go. -/
lemma insertWithLru_frame [LawfulEqOrd K] (entry : V) (cap : ℕ) (hnew : map[k]? = none) :
    (∀ i : K, i ≠ k → (insertWithLru activity map k entry cap)[i]? = map[i]?) ∨
      DropsOldest activity cap k map (insertWithLru activity map k entry cap) := by
  have hcontains : map.contains k = false := by
    rw [ExtTreeMap.contains_eq_isSome_getElem?, hnew]
    rfl
  by_cases hfull : cap ≤ map.size
  · cases hold : oldest activity map with
    | none =>
        refine Or.inl fun i hi => getElem?_insertWithLru_of_ne hi ?_
        rintro ⟨-, -, hsome⟩
        rw [hold] at hsome
        cases hsome
    | some j =>
        have hj := contains_of_oldest hold
        have hne : j ≠ k := by
          rintro rfl
          rw [hj] at hcontains
          cases hcontains
        rw [ExtTreeMap.contains_eq_isSome_getElem?] at hj
        obtain ⟨v, hv⟩ := Option.isSome_iff_exists.mp hj
        refine Or.inr ⟨hfull, hnew, ⟨entry, getElem?_insertWithLru_self⟩, j, v, hne, hv,
          getElem?_insertWithLru_oldest hcontains hfull hold hne,
          fun i u => activity_oldest_le hold hv, fun i hi hij => ?_⟩
        refine getElem?_insertWithLru_of_ne hi ?_
        rintro ⟨-, -, hsome⟩
        exact hij (Option.some.inj (hsome.symm.trans hold))
  · exact Or.inl fun i hi => getElem?_insertWithLru_of_ne hi fun h => hfull h.2.1

/-- Sweeping only drops entries. -/
lemma getElem?_of_sweep [LawfulEqOrd K] {cutoff : ℕ} (h : (sweep activity map cutoff).1[j]? = some v) :
    map[j]? = some v := by
  rw [sweep, ExtTreeMap.getElem?_filter'] at h
  exact (Option.filter_eq_some_iff.mp h).1

/-- The keys swept are those of the entries stamped before the cutoff. -/
lemma mem_sweep_iff [LawfulEqOrd K] {cutoff : ℕ} :
    k ∈ (sweep activity map cutoff).2 ↔ ∃ v, map[k]? = some v ∧ activity v < cutoff := by
  simp only [sweep, List.mem_map, List.mem_filter, decide_eq_true_eq, Prod.exists,
    ExtTreeMap.mem_toList_iff_getElem?_eq_some, exists_and_right, exists_eq_right]

/-- The entries kept are those stamped at or after the cutoff. -/
lemma getElem?_sweep [LawfulEqOrd K] (cutoff : ℕ) :
    (sweep activity map cutoff).1[j]? = (map[j]?).filter fun v => decide (cutoff ≤ activity v) := by
  rw [sweep, ExtTreeMap.getElem?_filter']

lemma nodup_sweep [LawfulEqOrd K] (cutoff : ℕ) : (sweep activity map cutoff).2.Nodup := by
  rw [sweep, List.Nodup, List.pairwise_map]
  refine (ExtTreeMap.distinct_keys_toList.filter _).imp fun {p q} hne heq => hne ?_
  rw [heq]
  exact ReflOrd.compare_self

/-- At the time `now`, exactly the entries that were idle for more than `m` are gone, and each of
their keys is reported once. -/
structure Swept (activity : V → ℕ) (now m : ℕ) (map map' : ExtTreeMap K V) (evicted : List K) :
    Prop where
  kept : ∀ (k : K) (v : V), map'[k]? = some v ↔ map[k]? = some v ∧ ¬ m < now - activity v
  mem_evicted : ∀ k : K, k ∈ evicted ↔ ∃ v, map[k]? = some v ∧ m < now - activity v
  nodup : evicted.Nodup

/-- A sweep with the cutoff `m` before the time. -/
lemma swept_sweep [LawfulEqOrd K] (activity : V → ℕ) (map : ExtTreeMap K V) (now m : ℕ) :
    Swept activity now m map (sweep activity map (now - m)).1 (sweep activity map (now - m)).2 where
  kept k v := by
    rw [getElem?_sweep, Option.filter_eq_some_iff, decide_eq_true_eq]
    exact and_congr_right fun _ => by omega
  mem_evicted k := by
    rw [mem_sweep_iff]
    exact exists_congr fun v => and_congr_right fun _ => by omega
  nodup := nodup_sweep _

lemma size_sweep_le (cutoff : ℕ) : (sweep activity map cutoff).1.size ≤ map.size :=
  ExtTreeMap.size_filter_le_size

/-- A clock that moves by one at most and does not wrap shows one more exactly when it moved. -/
lemma toNat_of_moved {old new : UInt64} {n : ℕ} (h : new = old ∨ new = old + 1)
    (hold : old.toNat = n) (hfew : n + (if decide (new ≠ old) then 1 else 0) < 2 ^ 64) :
    new.toNat = n + if decide (new ≠ old) then 1 else 0 := by
  rcases h with rfl | rfl
  · simpa using hold
  · have hne : old + 1 ≠ old := by
      intro heq
      have hnat := congrArg UInt64.toNat heq
      rw [UInt64.toNat_add, UInt64.toNat_one] at hnat
      omega
    rw [decide_eq_true hne, if_pos rfl] at hfew ⊢
    rw [UInt64.toNat_add, UInt64.toNat_one, hold]
    omega

end Lru
