import Libp2pCat.Kad.RoutingTable
import Libp2pCat.Lib.Assoc

/-!
The routing table as a book of addresses: the representation invariant of the buckets, kept by
every insertion and removal, and what each of them does to the book.

* `RoutingTable.stored`, `RoutingTable.addrOf`: the peers of all buckets, and the address the
  table has for a peer.
* `RoutingTable.WellFormed`: 256 buckets of capacity `k` that are not overfull, every peer in the
  bucket of its distance, no peer twice.  `WellFormed.insert`, `WellFormed.remove`: one operation.
* `Bucket.insert_cases`, `RoutingTable.insert_cases`: everything an insertion can do.
* `table_representation`: the invariant after any sequence of operations, and the effect of the
  next one.
-/

namespace Libp2pCat

open ByteString
open scoped List

/-! ### Distances -/

/-- Only the own identifier is at distance zero. -/
lemma NodeId.isZero_distance_iff (id other : NodeId) :
    (id.distance other).isZero = true ↔ id = other := by
  have hlists : ∀ xs ys : Bytes, xs.length = ys.length →
      ((List.zipWith (· ^^^ ·) xs ys).all (· == 0) = true ↔ xs = ys) := by
    intro xs
    induction xs with
    | nil =>
        intro ys hlen
        have hys : ys = [] := List.eq_nil_of_length_eq_zero hlen.symm
        simp [hys]
    | cons x xs ih =>
        intro ys hlen
        cases ys with
        | nil => simp at hlen
        | cons y ys => simp [ih ys (by simpa using hlen)]
  have hbytes := hlists id.asBytes.bytes other.asBytes.bytes (by simp)
  obtain ⟨a⟩ := id
  obtain ⟨b⟩ := other
  rw [NodeId.mk.injEq, ← Arr.bytes_inj]
  exact hbytes

/-- Identifiers at the same distance of a target are equal. -/
lemma NodeId.distance_injective (target : NodeId) :
    Function.Injective fun id : NodeId => id.distance target := by
  have hlists : ∀ xs ys ts : Bytes, xs.length = ts.length → ys.length = ts.length →
      List.zipWith (· ^^^ ·) xs ts = List.zipWith (· ^^^ ·) ys ts → xs = ys := by
    intro xs
    induction xs with
    | nil =>
        intro ys ts hxs hys _
        exact (List.eq_nil_of_length_eq_zero (hys.trans hxs.symm)).symm
    | cons x xs ih =>
        intro ys ts hxs hys h
        cases ts with
        | nil => simp at hxs
        | cons t ts =>
            cases ys with
            | nil => simp at hys
            | cons y ys =>
                obtain ⟨hx, hrest⟩ := List.cons.inj h
                rw [(UInt8.xor_left_inj t).mp hx, ih ys ts (by simpa using hxs)
                  (by simpa using hys) hrest]
  intro a b h
  have hbytes := congrArg (fun d => d.asBytes.bytes) h
  have hab := hlists a.asBytes.bytes b.asBytes.bytes target.asBytes.bytes (by simp) (by simp) hbytes
  obtain ⟨a⟩ := a
  obtain ⟨b⟩ := b
  exact congrArg NodeId.mk (Arr.bytes_inj.mp hab)

/-- Every identifier but the own one has a bucket. -/
lemma NodeId.bucketIndex_eq_none_iff (id other : NodeId) :
    (id.distance other).bucketIndex = none ↔ id = other := by
  rw [← isZero_distance_iff, Distance.bucketIndex]
  split_ifs with h <;> simp [h]

lemma Distance.bucketIndex_lt {d : Distance} {idx : ℕ} (h : d.bucketIndex = some idx) :
    idx < NODE_ID_BITS := by
  rw [bucketIndex] at h
  split_ifs at h with hzero
  · have hidx := Option.some.inj h
    have hbits : NODE_ID_BITS = 256 := rfl
    omega

/-! ### One bucket -/

namespace Bucket

/-- The identifiers in a bucket. -/
def ids (b : Bucket) : List NodeId := b.entries.map Prod.fst

/-- Everything an insertion into a bucket can do. -/
lemma insert_cases (b : Bucket) (node : NodeId) (addr : UdpAddr) :
    (∃ old pre post, b.entries = pre ++ (node, old) :: post ∧
      b.insert node addr = ({ b with entries := (node, addr) :: (pre ++ post) }, .updated)) ∨
    (node ∉ b.ids ∧ b.entries.length < b.capacity ∧
      b.insert node addr = ({ b with entries := (node, addr) :: b.entries }, .added)) ∨
    (node ∉ b.ids ∧ b.capacity ≤ b.entries.length ∧
      ∃ lru, b.insert node addr = (b, .bucketFull lru) ∧
        (b.entries ≠ [] → ∃ a, b.entries.getLast? = some (lru, a))) := by
  cases hfind : b.entries.findIdx? (fun p => p.1 == node) with
  | some idx =>
      left
      obtain ⟨hlt, hnode, -⟩ := List.findIdx?_eq_some_iff_getElem.mp hfind
      have hfst : b.entries[idx].1 = node := by simpa using hnode
      refine ⟨b.entries[idx].2, b.entries.take idx, b.entries.drop (idx + 1), ?_, ?_⟩
      · rw [← hfst, Prod.mk.eta, List.getElem_cons_drop, List.take_append_drop]
      · simp only [insert, hfind, List.getElem?_eq_getElem hlt, Option.map_some, Option.getD_some,
          hfst, List.eraseIdx_eq_take_drop_succ]
  | none =>
      right
      have hnot : node ∉ b.ids := by
        intro hmem
        obtain ⟨p, hp, rfl⟩ := List.mem_map.mp hmem
        have := List.findIdx?_eq_none_iff.mp hfind p hp
        simp at this
      by_cases hlt : b.entries.length < b.capacity
      · left
        refine ⟨hnot, hlt, ?_⟩
        simp only [insert, hfind, if_pos hlt]
      · right
        refine ⟨hnot, Nat.le_of_not_lt hlt,
          (b.entries.getLast?.map Prod.fst).getD ⟨.replicate NODE_ID_LEN 0⟩, ?_, fun hne => ?_⟩
        · simp only [insert, hfind, if_neg hlt]
        · rw [List.getLast?_eq_some_getLast hne]
          exact ⟨_, rfl⟩

end Bucket

/-! ### One bucket of a table -/

namespace RoutingTable

/-- The loop leaves the buckets at other indices alone. -/
lemma foldl_of_ne (idx : ℕ) (peer : NodeId) (addr : UdpAddr) (bs : List Bucket) :
    ∀ (n : ℕ) (acc : List Bucket) (o : Option InsertOutcome), (idx < n ∨ n + bs.length ≤ idx) →
    (bs.zipIdx n).foldl
      (fun (acc : List Bucket × Option InsertOutcome) (p : Bucket × ℕ) =>
        if p.2 = idx then
          let (updated, outcome) := p.1.insert peer addr
          (acc.1 ++ [updated], some outcome)
        else (acc.1 ++ [p.1], acc.2))
      (acc, o) = (acc ++ bs, o) := by
  induction bs with
  | nil =>
      intro n acc o _
      simp
  | cons b bs ih =>
      intro n acc o h
      rw [List.length_cons] at h
      have hne : n ≠ idx := by omega
      rw [List.zipIdx_cons, List.foldl_cons, if_neg hne, ih (n + 1) _ _ (by omega),
        List.append_assoc, List.singleton_append]

/-- The loop replaces the bucket at the index and returns its outcome. -/
lemma insertIntoBucket_eq {selfId : NodeId} {k idx : ℕ} {buckets : List Bucket} {b : Bucket}
    (hb : buckets[idx]? = some b) (peer : NodeId) (addr : UdpAddr) :
    insertIntoBucket selfId k buckets idx peer addr =
      (⟨selfId, k, buckets.set idx (b.insert peer addr).1⟩, (b.insert peer addr).2) := by
  obtain ⟨hidx, rfl⟩ := List.getElem?_eq_some_iff.mp hb
  have hsplit : buckets = buckets.take idx ++ buckets[idx] :: buckets.drop (idx + 1) := by
    rw [List.getElem_cons_drop, List.take_append_drop]
  have hlen : (buckets.take idx).length = idx := by
    rw [List.length_take]
    omega
  rw [insertIntoBucket, List.set_eq_take_append_cons_drop, if_pos hidx]
  nth_rewrite 1 [hsplit]
  rw [List.zipIdx_append, List.foldl_append, foldl_of_ne idx peer addr _ 0 [] none (by omega),
    List.zipIdx_cons, List.foldl_cons, if_pos (by omega), foldl_of_ne idx peer addr _ _ _ _ (by omega)]
  simp

/-- Removal replaces the bucket of the peer. -/
lemma remove_eq {table : RoutingTable} {peer : NodeId} {idx : ℕ} {b : Bucket}
    (hidx : (table.selfId.distance peer).bucketIndex = some idx)
    (hb : table.buckets[idx]? = some b) :
    table.remove peer = { table with buckets := table.buckets.set idx (b.remove peer) } := by
  simp only [remove, hidx, RoutingTable.mk.injEq, true_and]
  refine List.ext_getElem? fun i => ?_
  rw [List.getElem?_map, List.getElem?_zipIdx, List.getElem?_set]
  obtain ⟨hlt, rfl⟩ := List.getElem?_eq_some_iff.mp hb
  by_cases hi : idx = i
  · subst hi
    simp [hlt]
  · cases h : table.buckets[i]? with
    | none => simp [hi]
    | some c => simp [hi, Ne.symm hi]

/-! ### The invariant -/

/-- The peers of all buckets. -/
def stored (table : RoutingTable) : List (NodeId × UdpAddr) := table.buckets.flatMap Bucket.entries

/-- The address the table has for a peer. -/
def addrOf (table : RoutingTable) (peer : NodeId) : Option UdpAddr := table.stored.lookup peer

/-- The representation invariant of a table with its own identifier and bucket size. -/
structure WellFormed (table : RoutingTable) (selfId : NodeId) (k : ℕ) : Prop where
  selfId_eq : table.selfId = selfId
  k_eq : table.k = k
  length_buckets : table.buckets.length = NODE_ID_BITS
  capacity : ∀ b ∈ table.buckets, b.capacity = k ∧ b.entries.length ≤ k
  /-- every peer is in the bucket of its distance, and in no other -/
  placed : ∀ (i : ℕ) (b : Bucket), table.buckets[i]? = some b → ∀ e ∈ b.entries,
    (selfId.distance e.1).bucketIndex = some i
  /-- no identifier is stored twice, in one bucket or in two -/
  nodup : (table.stored.map Prod.fst).Nodup

/-- The bucket of the peer holds as many peers as it can. -/
def FullFor (table : RoutingTable) (peer : NodeId) : Prop :=
  ∃ i b, (table.selfId.distance peer).bucketIndex = some i ∧ table.buckets[i]? = some b ∧
    b.entries.length = table.k

variable {table : RoutingTable} {selfId : NodeId} {k : ℕ}

lemma eq_new_of_mem_buckets {selfId : NodeId} {k : ℕ} {b : Bucket}
    (hb : b ∈ (new selfId k).buckets) : b = Bucket.new k := by
  obtain ⟨_, -, rfl⟩ := List.mem_map.mp hb
  rfl

lemma stored_new (selfId : NodeId) (k : ℕ) : (new selfId k).stored = [] := by
  rw [stored, List.flatMap_eq_nil_iff]
  intro b hb
  rw [eq_new_of_mem_buckets hb, Bucket.new]

lemma wellFormed_new (selfId : NodeId) (k : ℕ) : (new selfId k).WellFormed selfId k := by
  refine ⟨rfl, rfl, by simp [new], ?_, ?_, ?_⟩
  · intro b hb
    rw [eq_new_of_mem_buckets hb, Bucket.new]
    exact ⟨rfl, Nat.zero_le k⟩
  · intro i b hb e he
    rw [eq_new_of_mem_buckets (List.mem_of_getElem? hb), Bucket.new] at he
    cases he
  · rw [stored_new]
    exact List.nodup_nil

namespace WellFormed

/-- The bucket of a peer that is not the own identifier. -/
lemma exists_bucket (h : table.WellFormed selfId k) {peer : NodeId} (hne : peer ≠ selfId) :
    ∃ idx b, (selfId.distance peer).bucketIndex = some idx ∧ table.buckets[idx]? = some b := by
  cases hidx : (selfId.distance peer).bucketIndex with
  | none => exact absurd ((NodeId.bucketIndex_eq_none_iff _ _).mp hidx).symm hne
  | some idx =>
      have hlt : idx < table.buckets.length := by
        rw [h.length_buckets]
        exact Distance.bucketIndex_lt hidx
      exact ⟨idx, table.buckets[idx], rfl, List.getElem?_eq_getElem hlt⟩

lemma self_notMem (h : table.WellFormed selfId k) : selfId ∉ table.stored.map Prod.fst := by
  intro hmem
  obtain ⟨e, he, hself⟩ := List.mem_map.mp hmem
  obtain ⟨b, hb, heb⟩ := List.mem_flatMap.mp he
  obtain ⟨i, hi⟩ := List.mem_iff_getElem?.mp hb
  have hplaced := h.placed i b hi e heb
  rw [hself, (NodeId.bucketIndex_eq_none_iff _ _).mpr rfl] at hplaced
  cases hplaced

/-- A peer that is not in its own bucket is in none. -/
lemma notMem_of_bucket (h : table.WellFormed selfId k) {peer : NodeId} {idx : ℕ} {b : Bucket}
    (hidx : (selfId.distance peer).bucketIndex = some idx) (hb : table.buckets[idx]? = some b)
    (hnot : peer ∉ b.ids) : peer ∉ table.stored.map Prod.fst := by
  intro hmem
  obtain ⟨e, he, rfl⟩ := List.mem_map.mp hmem
  obtain ⟨c, hc, hec⟩ := List.mem_flatMap.mp he
  obtain ⟨j, hj⟩ := List.mem_iff_getElem?.mp hc
  have hplaced := h.placed j c hj e hec
  obtain rfl : idx = j := Option.some.inj (hidx.symm.trans hplaced)
  obtain rfl : b = c := Option.some.inj (hb.symm.trans hj)
  exact hnot (List.mem_map_of_mem hec)

/-- A bucket replaced by one that holds peers of its index only. -/
lemma set (h : table.WellFormed selfId k) {idx : ℕ} {b' : Bucket} (hcap : b'.capacity = k)
    (hlen : b'.entries.length ≤ k)
    (hplaced : ∀ e ∈ b'.entries, (selfId.distance e.1).bucketIndex = some idx)
    (hnodup : (({ table with buckets := table.buckets.set idx b' } : RoutingTable).stored.map
      Prod.fst).Nodup) :
    ({ table with buckets := table.buckets.set idx b' } : RoutingTable).WellFormed selfId k := by
  refine ⟨h.selfId_eq, h.k_eq, ?_, ?_, ?_, hnodup⟩
  · rw [List.length_set, h.length_buckets]
  · intro b hb
    rcases List.mem_or_eq_of_mem_set hb with hb | rfl
    · exact h.capacity b hb
    · exact ⟨hcap, hlen⟩
  · intro i b hi e he
    rw [List.getElem?_set] at hi
    split_ifs at hi with hidx hlt
    · obtain rfl := Option.some.inj hi
      rw [← hidx]
      exact hplaced e he
    · exact h.placed i b hi e he

/-- A bucket replaced by one with a peer in front of some of its others. -/
lemma set_cons (h : table.WellFormed selfId k) {peer : NodeId} {addr : UdpAddr} {idx : ℕ}
    {b : Bucket} {entries others : List (NodeId × UdpAddr)}
    (hidx : (selfId.distance peer).bucketIndex = some idx) (hb : table.buckets[idx]? = some b)
    (hsub : entries ⊆ b.entries) (hlen : entries.length < k)
    (hnext : ({ table with
      buckets := table.buckets.set idx { b with entries := (peer, addr) :: entries } } :
        RoutingTable).stored ~ (peer, addr) :: others)
    (hnodup : (((peer, addr) :: others).map Prod.fst).Nodup) :
    ({ table with
      buckets := table.buckets.set idx { b with entries := (peer, addr) :: entries } } :
        RoutingTable).WellFormed selfId k := by
  refine h.set (h.capacity b (List.mem_of_getElem? hb)).1 hlen ?_ ?_
  · intro e he
    rcases List.mem_cons.mp he with rfl | he
    · exact hidx
    · exact h.placed idx b hb e (hsub he)
  · exact (hnext.map Prod.fst).nodup_iff.mpr hnodup

lemma le_of_fullFor (h : table.WellFormed selfId k) {peer : NodeId} (hfull : table.FullFor peer) :
    k ≤ table.stored.length := by
  obtain ⟨i, b, -, hb, hlen⟩ := hfull
  obtain ⟨rest, hstored, -⟩ := List.exists_perm_of_getElem? Bucket.entries hb
  rw [stored, hstored.length_eq, List.length_append, hlen, h.k_eq]
  exact Nat.le_add_right _ _

/-- Everything an insertion can do. -/
lemma insert_cases (h : table.WellFormed selfId k) (peer : NodeId) (addr : UdpAddr) :
    (peer = selfId ∧ table.insert peer addr = (table, .updated)) ∨
    (peer ≠ selfId ∧ ∃ next old rest, table.insert peer addr = (next, .updated) ∧
      next.WellFormed selfId k ∧ table.stored ~ (peer, old) :: rest ∧
      next.stored ~ (peer, addr) :: rest) ∨
    (peer ≠ selfId ∧ ∃ next, table.insert peer addr = (next, .added) ∧
      next.WellFormed selfId k ∧ peer ∉ table.stored.map Prod.fst ∧
      next.stored ~ (peer, addr) :: table.stored) ∨
    (peer ≠ selfId ∧ peer ∉ table.stored.map Prod.fst ∧ table.FullFor peer ∧
      ∃ lru, table.insert peer addr = (table, .bucketFull lru)) := by
  by_cases hself : peer = selfId
  · left
    refine ⟨hself, ?_⟩
    rw [insert, h.selfId_eq, (NodeId.bucketIndex_eq_none_iff _ _).mpr hself.symm]
  right
  obtain ⟨idx, b, hidx, hb⟩ := h.exists_bucket hself
  have hinsert : table.insert peer addr =
      ({ table with buckets := table.buckets.set idx (b.insert peer addr).1 },
        (b.insert peer addr).2) := by
    rw [insert, h.selfId_eq, hidx]
    simp only [insertIntoBucket_eq hb, ← h.selfId_eq]
  obtain ⟨hcap, hlen⟩ := h.capacity b (List.mem_of_getElem? hb)
  obtain ⟨rest, hstored, hset, -⟩ := List.exists_perm_of_getElem? Bucket.entries hb
  have hfresh := h.notMem_of_bucket hidx hb
  obtain ⟨old, pre, post, hentries, hb'⟩ | ⟨hnot, hroom, hb'⟩ | ⟨hnot, hfull, lru, hb', -⟩ :=
    b.insert_cases peer addr
  · -- the peer was in its bucket: the same peers are stored, one of them with another address
    left
    rw [hb'] at hinsert
    have hmove : b.entries ~ (peer, old) :: (pre ++ post) := by
      rw [hentries]
      exact List.perm_middle
    have hnext := hset { b with entries := (peer, addr) :: (pre ++ post) }
    have hold : table.stored ~ (peer, old) :: (pre ++ post ++ rest) :=
      hstored.trans (hmove.append_right rest)
    refine ⟨hself, _, old, pre ++ post ++ rest, hinsert, ?_, hold, hnext⟩
    refine h.set_cons hidx hb (fun e he => ?_) ?_ hnext ((hold.map Prod.fst).nodup_iff.mp h.nodup)
    · exact hmove.mem_iff.mpr (List.mem_cons_of_mem _ he)
    · rw [hmove.length_eq] at hlen
      exact hlen
  · right
    left
    rw [hb'] at hinsert
    have hnext := hset { b with entries := (peer, addr) :: b.entries }
    have hnew : ({ table with
        buckets := table.buckets.set idx { b with entries := (peer, addr) :: b.entries } } :
          RoutingTable).stored ~ (peer, addr) :: table.stored :=
      hnext.trans (hstored.symm.cons (peer, addr))
    rw [hcap] at hroom
    refine ⟨hself, _, hinsert, ?_, hfresh hnot, hnew⟩
    exact h.set_cons hidx hb (List.Subset.refl _) hroom hnew
      (List.nodup_cons.mpr ⟨hfresh hnot, h.nodup⟩)
  · right
    right
    rw [hcap] at hfull
    have hbucket : table.FullFor peer :=
      ⟨idx, b, by rw [h.selfId_eq, hidx], hb, by rw [h.k_eq, hlen.antisymm hfull]⟩
    refine ⟨hself, hfresh hnot, hbucket, lru, ?_⟩
    obtain ⟨hlt, rfl⟩ := List.getElem?_eq_some_iff.mp hb
    rw [hinsert, hb', List.set_getElem_self]

lemma insert (h : table.WellFormed selfId k) (peer : NodeId) (addr : UdpAddr) :
    (table.insert peer addr).1.WellFormed selfId k := by
  obtain ⟨-, hins⟩ | ⟨-, next, -, -, hins, hnext, -⟩ | ⟨-, next, hins, hnext, -⟩ |
      ⟨-, -, -, lru, hins⟩ := h.insert_cases peer addr
  · rwa [hins]
  · rwa [hins]
  · rwa [hins]
  · rwa [hins]

/-- A table with fewer than `k` peers has room for a new one. -/
lemma stored_insert (h : table.WellFormed selfId k) {peer : NodeId} (addr : UdpAddr)
    (hself : peer ≠ selfId) (hnew : peer ∉ table.stored.map Prod.fst)
    (hroom : table.stored.length < k) :
    (table.insert peer addr).1.stored ~ (peer, addr) :: table.stored := by
  obtain ⟨heq, -⟩ | ⟨-, next, old, rest, -, -, hold, -⟩ | ⟨-, next, hins, -, -, hstored⟩ |
      ⟨-, -, hfull, -⟩ := h.insert_cases peer addr
  · exact absurd heq hself
  · exact absurd ((hold.map Prod.fst).mem_iff.mpr List.mem_cons_self) hnew
  · rwa [hins]
  · exact absurd (h.le_of_fullFor hfull) (not_le.mpr hroom)

/-- Removal takes the peer out and leaves everything else. -/
lemma remove (h : table.WellFormed selfId k) (peer : NodeId) :
    (table.remove peer).WellFormed selfId k ∧
      ∀ e, e ∈ (table.remove peer).stored ↔ e ∈ table.stored ∧ e.1 ≠ peer := by
  by_cases hself : peer = selfId
  · have hremove : table.remove peer = table := by
      rw [RoutingTable.remove, h.selfId_eq, (NodeId.bucketIndex_eq_none_iff _ _).mpr hself.symm]
    rw [hremove]
    refine ⟨h, fun e => ⟨fun he => ⟨he, ?_⟩, And.left⟩⟩
    rintro rfl
    exact h.self_notMem (hself ▸ List.mem_map_of_mem he)
  obtain ⟨idx, b, hidx, hb⟩ := h.exists_bucket hself
  rw [remove_eq (by rw [h.selfId_eq, hidx]) hb]
  obtain ⟨hcap, hlen⟩ := h.capacity b (List.mem_of_getElem? hb)
  have hplaced := h.placed idx b hb
  obtain ⟨rest, hstored, hset, hrest⟩ := List.exists_perm_of_getElem? Bucket.entries hb
  have hnext := hset (b.remove peer)
  have hsub : (b.remove peer).entries.Sublist b.entries := List.filter_sublist
  refine ⟨h.set hcap (hsub.length_le.trans hlen) (fun e he => hplaced e (hsub.subset he)) ?_, ?_⟩
  · refine (hnext.map Prod.fst).nodup_iff.mpr ?_
    have hall := (hstored.map Prod.fst).nodup_iff.mp h.nodup
    exact hall.sublist ((hsub.append_right rest).map Prod.fst)
  · intro e
    have hother : e ∈ rest → e.1 ≠ peer := by
      rintro he rfl
      obtain ⟨j, c, hj, hc, hec⟩ := hrest e he
      have hplace := h.placed j c hc e hec
      rw [hidx] at hplace
      exact hj (Option.some.inj hplace).symm
    rw [stored, hnext.mem_iff, stored, hstored.mem_iff, List.mem_append, List.mem_append]
    have hfilter : e ∈ (b.remove peer).entries ↔ e ∈ b.entries ∧ e.1 ≠ peer := by
      simp [Bucket.remove]
    rw [hfilter]
    tauto

end WellFormed

/-! ### The table as a book of addresses -/

lemma len_eq_length_stored (table : RoutingTable) : table.len = table.stored.length := by
  rw [stored, List.length_flatMap]
  rfl

lemma contains_eq_isSome_addrOf (table : RoutingTable) (peer : NodeId) :
    table.contains peer = (table.addrOf peer).isSome := by
  rw [Bool.eq_iff_iff, addrOf, List.lookup_isSome_iff]
  simp only [contains, Bucket.contains, stored, List.any_eq_true, List.mem_flatMap, beq_iff_eq]
  constructor
  · rintro ⟨b, hb, e, he, rfl⟩
    exact ⟨e, ⟨b, hb, he⟩, rfl⟩
  · rintro ⟨e, ⟨b, hb, he⟩, rfl⟩
    exact ⟨b, hb, e, he, rfl⟩

namespace WellFormed

lemma addrOf_eq_some_iff (h : table.WellFormed selfId k) {peer : NodeId} {addr : UdpAddr} :
    table.addrOf peer = some addr ↔ (peer, addr) ∈ table.stored :=
  List.lookup_eq_some_iff_mem h.nodup

/-- A table that stores one peer more, or one with another address. -/
lemma addrOf_eq_update (h : table.WellFormed selfId k) {next : RoutingTable}
    (hnext : next.WellFormed selfId k) {peer : NodeId} {addr : UdpAddr}
    {rest : List (NodeId × UdpAddr)} (hperm : next.stored ~ (peer, addr) :: rest)
    (hrest : ∀ e, e.1 ≠ peer → (e ∈ table.stored ↔ e ∈ rest)) :
    next.addrOf = Function.update table.addrOf peer (some addr) := by
  funext id
  by_cases hid : id = peer
  · subst hid
    rw [Function.update_self, hnext.addrOf_eq_some_iff, hperm.mem_iff]
    exact List.mem_cons_self
  · rw [Function.update_of_ne hid]
    refine List.lookup_congr_mem hnext.nodup h.nodup fun a => ?_
    rw [hperm.mem_iff, hrest (id, a) hid, List.mem_cons]
    simp [hid]

end WellFormed

/-- An operation on a table. -/
inductive Op where
  | insert (peer : NodeId) (addr : UdpAddr)
  | remove (peer : NodeId)

/-- The table after an operation. -/
def apply (table : RoutingTable) : Op → RoutingTable
  | .insert peer addr => (table.insert peer addr).1
  | .remove peer => table.remove peer

/-- The invariant holds after any sequence of operations. -/
lemma WellFormed.run (h : table.WellFormed selfId k) (ops : List Op) :
    (ops.foldl apply table).WellFormed selfId k := by
  induction ops generalizing table with
  | nil => exact h
  | cons op ops ih =>
      refine ih ?_
      cases op with
      | insert peer addr => exact h.insert peer addr
      | remove peer => exact (h.remove peer).1

/-- What an insertion does to the book and to the size of a table. -/
def InsertEffect (table : RoutingTable) (peer : NodeId) (addr : UdpAddr) :
    RoutingTable × InsertOutcome → Prop
  | (next, .added) => peer ≠ table.selfId ∧ table.addrOf peer = none ∧
      next.addrOf = Function.update table.addrOf peer (some addr) ∧ next.len = table.len + 1
  | (next, .updated) => next.len = table.len ∧
      if peer = table.selfId then next = table
      else (∃ old, table.addrOf peer = some old) ∧
        next.addrOf = Function.update table.addrOf peer (some addr)
  | (next, .bucketFull _) => peer ≠ table.selfId ∧ table.addrOf peer = none ∧
      table.FullFor peer ∧ next = table

lemma WellFormed.insertEffect (h : table.WellFormed selfId k) (peer : NodeId) (addr : UdpAddr) :
    table.InsertEffect peer addr (table.insert peer addr) := by
  obtain ⟨hself, hins⟩ | ⟨hself, next, old, rest, hins, hnext, hold, hnew⟩ |
      ⟨hself, next, hins, hnext, hfresh, hnew⟩ | ⟨hself, hfresh, hfull, lru, hins⟩ :=
    h.insert_cases peer addr
  · rw [hins, InsertEffect, h.selfId_eq, if_pos hself]
    exact ⟨rfl, rfl⟩
  · rw [hins, InsertEffect, h.selfId_eq, if_neg hself]
    refine ⟨?_, ⟨old, ?_⟩, h.addrOf_eq_update hnext hnew fun e he => ?_⟩
    · rw [len_eq_length_stored, len_eq_length_stored, hnew.length_eq, hold.length_eq,
        List.length_cons, List.length_cons]
    · rw [h.addrOf_eq_some_iff, hold.mem_iff]
      exact List.mem_cons_self
    · rw [hold.mem_iff, List.mem_cons]
      constructor
      · rintro (rfl | hmem)
        · exact absurd rfl he
        · exact hmem
      · exact Or.inr
  · rw [hins, InsertEffect, h.selfId_eq]
    refine ⟨hself, List.lookup_eq_none_iff_notMem.mpr hfresh,
      h.addrOf_eq_update hnext hnew fun e _ => Iff.rfl, ?_⟩
    rw [len_eq_length_stored, len_eq_length_stored, hnew.length_eq, List.length_cons]
  · rw [hins, InsertEffect, h.selfId_eq]
    exact ⟨hself, List.lookup_eq_none_iff_notMem.mpr hfresh, hfull, rfl⟩

/-- An insertion keeps what is stored, and sets the address of its peer. -/
lemma WellFormed.addrOf_insert (h : table.WellFormed selfId k) {id : NodeId} {a : UdpAddr}
    (ha : table.addrOf id = some a) (peer : NodeId) (addr : UdpAddr) :
    (table.insert peer addr).1.addrOf id = some (if peer = id then addr else a) := by
  have hstored : id ∈ table.stored.map Prod.fst :=
    List.mem_map_of_mem (h.addrOf_eq_some_iff.mp ha)
  have heffect := h.insertEffect peer addr
  obtain ⟨rfl, hins⟩ | ⟨hself, next, old, rest, hins, -⟩ | ⟨-, next, hins, -⟩ |
      ⟨-, hfresh, -, lru, hins⟩ := h.insert_cases peer addr
  · rw [hins, ha, if_neg]
    rintro rfl
    exact h.self_notMem hstored
  · rw [hins, InsertEffect, h.selfId_eq, if_neg hself] at heffect
    rw [hins, heffect.2.2, Function.update_apply, ha]
    simp only [eq_comm (a := id), apply_ite some]
  · rw [hins, InsertEffect] at heffect
    rw [hins, heffect.2.2.1, Function.update_apply, ha]
    simp only [eq_comm (a := id), apply_ite some]
  · rw [hins, ha, if_neg]
    rintro rfl
    exact hfresh hstored

lemma WellFormed.addrOf_remove (h : table.WellFormed selfId k) (peer : NodeId) :
    (table.remove peer).addrOf = Function.update table.addrOf peer none := by
  obtain ⟨hnext, hmem⟩ := h.remove peer
  funext id
  by_cases hid : id = peer
  · subst hid
    rw [Function.update_self, addrOf, List.lookup_eq_none_iff_notMem]
    intro hid
    obtain ⟨e, he, rfl⟩ := List.mem_map.mp hid
    exact ((hmem e).mp he).2 rfl
  · rw [Function.update_of_ne hid]
    refine List.lookup_congr_mem hnext.nodup h.nodup fun a => ?_
    rw [hmem]
    simp [hid]

/-- After any sequence of insertions and removals the table has its 256 buckets of capacity `k`,
none overfull, every peer in the bucket of its distance and nowhere else, no peer twice and never
itself.  The next insertion sets the address of its peer and touches nothing else, or changes
nothing, for the own identifier or for a new peer whose bucket is full; the next removal takes out
its peer only; and the size grows on `Added` alone. -/
theorem table_representation (selfId : NodeId) (k : ℕ) (ops : List Op) :
    let table := ops.foldl apply (new selfId k)
    table.WellFormed selfId k ∧ selfId ∉ table.stored.map Prod.fst ∧
      (∀ peer, table.contains peer = (table.addrOf peer).isSome) ∧
      (∀ peer addr, (peer, addr) ∈ table.stored ↔ table.addrOf peer = some addr) ∧
      (∀ peer addr, table.InsertEffect peer addr (table.insert peer addr)) ∧
      (∀ peer, (table.remove peer).addrOf = Function.update table.addrOf peer none) := by
  intro table
  have h : table.WellFormed selfId k := (wellFormed_new selfId k).run ops
  exact ⟨h, h.self_notMem, table.contains_eq_isSome_addrOf,
    fun peer addr => h.addrOf_eq_some_iff.symm, h.insertEffect, h.addrOf_remove⟩

end RoutingTable

end Libp2pCat
