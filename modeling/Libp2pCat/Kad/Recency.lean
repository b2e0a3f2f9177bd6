import Libp2pCat.Kad.TableInvariant
import Libp2pCat.Lib.Recency

/-!
The order of a bucket over its whole history.

* `BucketOp`, `Bucket.event`, `Bucket.history`: the operations of a bucket, and what each of them
  did: an insertion answered `Added` or `Updated` touches its peer, a removal drops it.
* `Bucket.entries_run`: the entries are the replay of the history.
* `recency_order`: so they stand in the order of their last successful insertions, and a full
  bucket names the peer whose insertion is the oldest.
-/

namespace Libp2pCat

open ByteString Recency

/-- The operations of a bucket. -/
inductive BucketOp where
  | insert (node : NodeId) (addr : UdpAddr)
  | remove (node : NodeId)

namespace Bucket

/-- The bucket after an operation. -/
def apply (b : Bucket) : BucketOp → Bucket
  | .insert node addr => (b.insert node addr).1
  | .remove node => b.remove node

/-- What an operation does to a bucket. -/
def event (b : Bucket) : BucketOp → Event NodeId UdpAddr
  | .insert node addr =>
      match (b.insert node addr).2 with
      | .added | .updated => .touch node addr
      | .bucketFull _ => .idle
  | .remove node => .drop node

/-- What the operations did, each at its time. -/
def history (b : Bucket) : List BucketOp → List (Event NodeId UdpAddr)
  | [] => []
  | op :: ops => b.event op :: (b.apply op).history ops

/-- The last successful insertion of the peer was at the time, with the address. -/
def LastInsert (capacity : ℕ) (ops : List BucketOp) (node : NodeId) (addr : UdpAddr) (time : ℕ) :
    Prop :=
  LastTouch ((new capacity).history ops) node addr time

/-- An operation acts on the entries as its event. -/
lemma entries_apply {b : Bucket} (h : b.ids.Nodup) (op : BucketOp) :
    (b.apply op).entries = (b.event op).apply b.entries := by
  cases op with
  | remove node =>
      rw [apply, event, remove, Event.apply]
      simp only [decide_not, ne_eq]
      rfl
  | insert node addr =>
      have habsent : node ∉ b.ids → b.entries.filter (fun p => p.1 ≠ node) = b.entries := by
        intro hnot
        refine List.filter_eq_self.mpr fun p hp => decide_eq_true ?_
        rintro rfl
        exact hnot (List.mem_map_of_mem hp)
      obtain ⟨old, pre, post, hentries, hins⟩ | ⟨hnot, -, hins⟩ | ⟨-, -, lru, hins, -⟩ :=
        b.insert_cases node addr
      · rw [apply, event, hins]
        -- the peer stands once, between the entries that stay
        rw [ids, hentries, List.map_append, List.map_cons] at h
        obtain ⟨-, hmid, hdisj⟩ := List.nodup_append.mp h
        have hpre : pre.filter (fun p => p.1 ≠ node) = pre := by
          refine List.filter_eq_self.mpr fun p hp => decide_eq_true ?_
          exact hdisj _ (List.mem_map_of_mem hp) _ List.mem_cons_self
        have hpost : post.filter (fun p => p.1 ≠ node) = post := by
          refine List.filter_eq_self.mpr fun p hp => decide_eq_true ?_
          rintro rfl
          exact (List.nodup_cons.mp hmid).1 (List.mem_map.mpr ⟨p, hp, rfl⟩)
        rw [Event.apply, hentries, List.filter_append, List.filter_cons_of_neg (by simp), hpre,
          hpost]
      · rw [apply, event, hins, Event.apply, habsent hnot]
      · rw [apply, event, hins, Event.apply]

lemma capacity_apply (b : Bucket) (op : BucketOp) : (b.apply op).capacity = b.capacity := by
  cases op with
  | remove node => rfl
  | insert node addr =>
      obtain ⟨_, _, _, -, hins⟩ | ⟨-, -, hins⟩ | ⟨-, -, _, hins, -⟩ := b.insert_cases node addr <;>
        rw [apply, hins]

lemma length_apply_le {b : Bucket} (h : b.entries.length ≤ b.capacity) (op : BucketOp) :
    (b.apply op).entries.length ≤ b.capacity := by
  cases op with
  | remove node => exact (List.length_filter_le _ _).trans h
  | insert node addr =>
      obtain ⟨_, pre, post, hentries, hins⟩ | ⟨-, hroom, hins⟩ | ⟨-, -, _, hins, -⟩ :=
        b.insert_cases node addr
      · rw [hentries] at h
        rw [apply, hins]
        simp only [List.length_append, List.length_cons] at h ⊢
        omega
      · rw [apply, hins]
        exact hroom
      · rw [apply, hins]
        exact h

/-- The entries after some operations are the replay of what these did. -/
lemma entries_run {b : Bucket} (h : b.ids.Nodup) (ops : List BucketOp) :
    (ops.foldl apply b).entries = (b.history ops).foldl Event.apply b.entries ∧
      (ops.foldl apply b).ids.Nodup := by
  induction ops generalizing b with
  | nil => exact ⟨rfl, h⟩
  | cons op ops ih =>
      have hentries := entries_apply h op
      have hnodup : (b.apply op).ids.Nodup := by
        rw [ids, hentries]
        exact Event.nodup_apply h _
      obtain ⟨hrun, hlast⟩ := ih hnodup
      exact ⟨by rw [List.foldl_cons, hrun, hentries]; rfl, hlast⟩

lemma capacity_run (b : Bucket) (ops : List BucketOp) :
    (ops.foldl apply b).capacity = b.capacity := by
  induction ops generalizing b with
  | nil => rfl
  | cons op ops ih => rw [List.foldl_cons, ih, capacity_apply]

lemma length_run_le {b : Bucket} (h : b.entries.length ≤ b.capacity) (ops : List BucketOp) :
    (ops.foldl apply b).entries.length ≤ b.capacity := by
  induction ops generalizing b with
  | nil => exact h
  | cons op ops ih =>
      have hstep := ih (b := b.apply op) (by rw [capacity_apply]; exact length_apply_le h op)
      rwa [capacity_apply] at hstep

/-- A bucket refuses a peer exactly if it is full of others. -/
lemma insert_eq_bucketFull_iff {b : Bucket} (hle : b.entries.length ≤ b.capacity) (node : NodeId)
    (addr : UdpAddr) :
    (∃ lru, (b.insert node addr).2 = .bucketFull lru) ↔
      node ∉ b.ids ∧ b.entries.length = b.capacity := by
  obtain ⟨_, pre, post, hentries, hins⟩ | ⟨-, hroom, hins⟩ | ⟨hnot, hfull, lru, hins, -⟩ :=
    b.insert_cases node addr
  · have hmem : node ∈ b.ids := by
      rw [ids, hentries, List.map_append, List.map_cons]
      exact List.mem_append_right _ List.mem_cons_self
    simp [hins, hmem]
  · simp [hins, hroom.ne]
  · simp [hins, hnot, le_antisymm hle hfull]

/-- Then it is left as it was, and the peer it names is its last one. -/
lemma insert_of_bucketFull {b : Bucket} {node lru : NodeId} {addr : UdpAddr}
    (h : (b.insert node addr).2 = .bucketFull lru) :
    (b.insert node addr).1 = b ∧
      (b.entries ≠ [] → ∃ a, b.entries.getLast? = some (lru, a)) := by
  obtain ⟨_, _, _, -, hins⟩ | ⟨-, -, hins⟩ | ⟨-, -, lru', hins, hlast⟩ := b.insert_cases node addr
  · rw [hins] at h
    cases h
  · rw [hins] at h
    cases h
  · rw [hins] at h ⊢
    cases h
    exact ⟨rfl, hlast⟩

/-- After any insertions and removals a bucket lists its peers in strictly decreasing order of
their last successful insertions, with the addresses of these.  The next insertion is answered
`BucketFull` exactly if the peer is not there and the bucket is full; it then changes nothing and,
unless the bucket is empty, names the peer whose last successful insertion is the oldest. -/
theorem recency_order (capacity : ℕ) (ops : List BucketOp) :
    let bucket := ops.foldl apply (new capacity)
    (∀ p ∈ bucket.entries, ∃ t, LastInsert capacity ops p.1 p.2 t) ∧
    bucket.entries.Pairwise (fun p q => ∀ a c t u, LastInsert capacity ops p.1 a t →
      LastInsert capacity ops q.1 c u → u < t) ∧
    (∀ node addr, (∃ lru, (bucket.insert node addr).2 = .bucketFull lru) ↔
      node ∉ bucket.ids ∧ bucket.entries.length = capacity) ∧
    ∀ node addr lru, (bucket.insert node addr).2 = .bucketFull lru →
      (bucket.insert node addr).1 = bucket ∧
      (bucket.entries ≠ [] → ∃ a t, (lru, a) ∈ bucket.entries ∧ LastInsert capacity ops lru a t ∧
        ∀ p ∈ bucket.entries, p.1 ≠ lru → ∀ c u, LastInsert capacity ops p.1 c u → t < u) := by
  intro bucket
  have hreplay : bucket.entries = replay ((new capacity).history ops) :=
    (entries_run (b := new capacity) List.nodup_nil ops).1
  have hcap : bucket.capacity = capacity := capacity_run (new capacity) ops
  have hle : bucket.entries.length ≤ bucket.capacity := by
    rw [hcap]
    exact length_run_le (b := new capacity) (Nat.zero_le _) ops
  have hlast : ∀ p ∈ bucket.entries, ∃ t, LastInsert capacity ops p.1 p.2 t := fun p hp =>
    exists_lastTouch_of_mem (hreplay ▸ hp)
  have hsorted : bucket.entries.Pairwise fun p q => ∀ a c t u, LastInsert capacity ops p.1 a t →
      LastInsert capacity ops q.1 c u → u < t := hreplay ▸ pairwise_replay
  refine ⟨hlast, hsorted, fun node addr => ?_, fun node addr lru hfull => ?_⟩
  · rw [insert_eq_bucketFull_iff hle, hcap]
  · obtain ⟨hsame, hnamed⟩ := insert_of_bucketFull hfull
    refine ⟨hsame, fun hne => ?_⟩
    obtain ⟨a, ha⟩ := hnamed hne
    obtain ⟨front, hfront⟩ := List.getLast?_eq_some_iff.mp ha
    have hmem : (lru, a) ∈ bucket.entries := by
      rw [hfront]
      exact List.mem_append_right _ List.mem_cons_self
    obtain ⟨t, ht⟩ := hlast _ hmem
    refine ⟨a, t, hmem, ht, fun p hp hother c u hu => ?_⟩
    rw [hfront] at hp hsorted
    rcases List.mem_append.mp hp with hp | hp
    · exact (List.pairwise_append.mp hsorted).2.2 p hp _ List.mem_cons_self c a u t hu ht
    · exact absurd (congrArg Prod.fst (List.mem_singleton.mp hp)) hother

end Bucket

end Libp2pCat
