import Libp2pCat.Kad.Machine
import Libp2pCat.Kad.Closest

/-!
The shortlist of a lookup under any sequence of its operations.

* `LookupOp`, `Lookup.apply`, `heard`: the six operations, and the identifiers a lookup was seeded
  with or told of.
* `Relabels`: nothing but statuses changes.  `Lookup.relabels_apply`: an operation merges what it
  reports and changes statuses.
* `Lookup.Knows`: the shortlist has exactly the peers heard of, each under its own distance;
  `Lookup.Knows.topKResults_eq`: so the results are the nearest of these.
* `shortlist_correct`: after any sequence of operations.
-/

namespace Libp2pCat.Kad

open ByteString Std

/-- The operations that change a lookup. -/
inductive LookupOp where
  | markInFlight (peer : NodeId) (addr : UdpAddr)
  | markDialing (peer : NodeId) (addr : UdpAddr)
  | completeDial (addr : UdpAddr)
  | recordResponse (addr : UdpAddr) (peers : List (NodeId × UdpAddr))
  | skipPendingQueries
  | skipPendingDials

/-- The peers an operation reports. -/
def LookupOp.reported : LookupOp → List (NodeId × UdpAddr)
  | recordResponse _ peers => peers
  | _ => []

/-- The identifiers but the own one that were seeded or reported, each once. -/
def heard (selfId : NodeId) (seeds : List (NodeId × UdpAddr)) (ops : List LookupOp) :
    List NodeId :=
  (((seeds ++ ops.flatMap LookupOp.reported).map Prod.fst).filter (· ≠ selfId)).dedup

/-- The lookup after an operation. -/
def Lookup.apply (lookup : Lookup) : LookupOp → Lookup
  | .markInFlight peer addr => lookup.markInFlight peer addr
  | .markDialing peer addr => lookup.markDialing peer addr
  | .completeDial addr => lookup.completeDial addr
  | .recordResponse addr peers => (lookup.recordResponse addr peers).1
  | .skipPendingQueries => lookup.skipPendingQueries
  | .skipPendingDials => lookup.skipPendingDials

/-! ### What an operation does to the entries -/

/-- The same entries, but for their statuses. -/
def Relabels (E E' : BTreeMap Distance LookupEntry) : Prop :=
  ∀ d : Distance, ∃ f : LookupStatus → LookupStatus,
    E'[d]? = E[d]?.map fun e => { e with status := f e.status }

lemma Relabels.refl (E : BTreeMap Distance LookupEntry) : Relabels E E :=
  fun d => ⟨id, by simp⟩

lemma relabels_setStatus (E : BTreeMap Distance LookupEntry) (d : Distance) (s : LookupStatus) :
    Relabels E (Lookup.setStatus E d s) := by
  intro d'
  refine ⟨fun t => if d = d' then s else t, ?_⟩
  rw [getElem?_setStatus]
  congr 1
  funext e
  split <;> rfl

lemma relabels_skip (target : NodeId) (pending : BTreeMap UdpAddr NodeId)
    (E : BTreeMap Distance LookupEntry) : Relabels E (Lookup.skip target pending E) := by
  intro d
  refine ⟨fun t => if ∃ id ∈ pending.values, id.distance target = d then .skipped else t, ?_⟩
  rw [getElem?_skip]
  congr 1
  funext e
  split <;> rfl

namespace Lookup

variable {lookup : Lookup} {selfId target : NodeId} {config : LookupConfig} {op : LookupOp}

/-- An operation merges the peers it reports, and else changes statuses only. -/
lemma relabels_apply (lookup : Lookup) (op : LookupOp) :
    Relabels (merge lookup.selfId lookup.target op.reported lookup.entries)
      (lookup.apply op).entries := by
  cases op with
  | markInFlight peer addr | markDialing peer addr => exact relabels_setStatus _ _ _
  | completeDial addr =>
      rw [apply, completeDial]
      cases lookup.pendingDials[addr]? with
      | none => exact Relabels.refl _
      | some id => exact relabels_setStatus _ _ _
  | recordResponse addr peers =>
      rw [apply, entries_recordResponse]
      cases lookup.pendingQueries[addr]? with
      | none => exact Relabels.refl _
      | some id => exact relabels_setStatus _ _ _
  | skipPendingQueries | skipPendingDials => exact relabels_skip _ _ _

lemma sameParams_apply (lookup : Lookup) (op : LookupOp) : lookup.SameParams (lookup.apply op) := by
  cases op <;> exact ⟨rfl, rfl, rfl⟩

/-- An entry stays, at its place and with its peer and address. -/
lemma exists_status_of_apply (lookup : Lookup) (op : LookupOp) {d : Distance} {e : LookupEntry}
    (he : lookup.entries[d]? = some e) :
    ∃ s, (lookup.apply op).entries[d]? = some { e with status := s } := by
  obtain ⟨f, hf⟩ := lookup.relabels_apply op d
  rw [getElem?_merge, he, Option.some_or] at hf
  exact ⟨_, hf⟩

lemma exists_status_of_run (lookup : Lookup) (ops : List LookupOp) {d : Distance} {e : LookupEntry}
    (he : lookup.entries[d]? = some e) :
    ∃ s, (ops.foldl apply lookup).entries[d]? = some { e with status := s } := by
  induction ops generalizing lookup e with
  | nil => exact ⟨e.status, he⟩
  | cons op ops ih =>
      obtain ⟨s, hs⟩ := lookup.exists_status_of_apply op he
      obtain ⟨s', hs'⟩ := ih (lookup.apply op) hs
      exact ⟨s', hs'⟩

/-! ### The peers heard of -/

/-- The shortlist has exactly the given peers, each under its own distance. -/
structure Knows (lookup : Lookup) (selfId target : NodeId) (config : LookupConfig)
    (ids : List NodeId) : Prop where
  selfId_eq : lookup.selfId = selfId
  target_eq : lookup.target = target
  config_eq : lookup.config = config
  keyed : ∀ (d : Distance) (e : LookupEntry), lookup.entries[d]? = some e →
    e.nodeId.distance target = d
  mem_iff : ∀ id : NodeId, id ∈ ids ↔ ∃ e, lookup.entries[id.distance target]? = some e

lemma mem_heard_iff {seeds : List (NodeId × UdpAddr)} {ops : List LookupOp} {id : NodeId} :
    id ∈ heard selfId seeds ops ↔ id ≠ selfId ∧
      ((∃ p ∈ seeds, p.1 = id) ∨ ∃ op ∈ ops, ∃ p ∈ op.reported, p.1 = id) := by
  rw [heard, List.mem_dedup, List.mem_filter, List.map_append, List.mem_append, and_comm,
    decide_eq_true_eq, List.mem_map, List.mem_map]
  simp only [List.mem_flatMap]
  refine and_congr_right fun _ => or_congr_right ⟨?_, ?_⟩
  · rintro ⟨p, ⟨op, hop, hp⟩, rfl⟩
    exact ⟨op, hop, p, hp, rfl⟩
  · rintro ⟨op, hop, p, hp, rfl⟩
    exact ⟨p, ⟨op, hop, hp⟩, rfl⟩

/-- A fresh lookup knows its seeds. -/
lemma knows_new (selfId target : NodeId) (config : LookupConfig)
    (seeds : List (NodeId × UdpAddr)) :
    (new selfId target config seeds).Knows selfId target config (heard selfId seeds []) := by
  have hfold : ∀ (ps : List (NodeId × UdpAddr)) (E : BTreeMap Distance LookupEntry) (d : Distance),
      (∃ e, (ps.foldl (fun acc p => acc.insert (p.1.distance target)
        (⟨p.1, p.2, .unqueried⟩ : LookupEntry)) E)[d]? = some e) ↔
        (∃ e, E[d]? = some e) ∨ ∃ p ∈ ps, p.1.distance target = d := by
    intro ps
    induction ps with
    | nil => simp
    | cons p ps ih =>
        intro E d
        rw [List.foldl_cons, ih, ExtTreeMap.getElem?_insert]
        by_cases hd : p.1.distance target = d
        · simp [hd]
        · simp [hd]
  refine ⟨rfl, rfl, rfl, (sound_new selfId target config seeds).keyed, fun id => ?_⟩
  have hnew := hfold (seeds.filter fun p => p.1 ≠ selfId) ∅ (id.distance target)
  rw [mem_heard_iff]
  refine Iff.trans ?_ hnew.symm
  simp only [ExtTreeMap.getElem?_empty, reduceCtorEq, exists_false, false_or, List.mem_filter,
    decide_eq_true_eq, List.not_mem_nil, false_and, or_false]
  constructor
  · rintro ⟨hne, p, hp, rfl⟩
    exact ⟨p, ⟨hp, hne⟩, rfl⟩
  · rintro ⟨p, ⟨hp, hne⟩, hd⟩
    obtain rfl := NodeId.distance_injective target hd
    exact ⟨hne, p, hp, rfl⟩

/-- Merging adds the advertised peers but the own one. -/
lemma exists_merge_iff {peers : List (NodeId × UdpAddr)} {E : BTreeMap Distance LookupEntry}
    {id : NodeId} :
    (∃ e, (merge selfId target peers E)[id.distance target]? = some e) ↔
      (∃ e, E[id.distance target]? = some e) ∨ (id ≠ selfId ∧ ∃ p ∈ peers, p.1 = id) := by
  rw [getElem?_merge, ← Option.isSome_iff_exists, ← Option.isSome_iff_exists, Option.isSome_or,
    Option.isSome_map, Bool.or_eq_true, List.find?_isSome]
  simp only [decide_eq_true_eq]
  refine or_congr_right ⟨?_, ?_⟩
  · rintro ⟨p, hp, hne, hd⟩
    obtain rfl := NodeId.distance_injective target hd
    exact ⟨hne, p, hp, rfl⟩
  · rintro ⟨hne, p, hp, rfl⟩
    exact ⟨p, hp, hne, rfl⟩

/-- An operation adds the peers it reports to the known ones. -/
lemma Knows.apply {seeds : List (NodeId × UdpAddr)} {ops : List LookupOp}
    (h : lookup.Knows selfId target config (heard selfId seeds ops)) (op : LookupOp) :
    (lookup.apply op).Knows selfId target config (heard selfId seeds (ops ++ [op])) := by
  obtain ⟨htarget, hconfig, hself⟩ := lookup.sameParams_apply op
  refine ⟨hself.trans h.selfId_eq, htarget.trans h.target_eq, hconfig.trans h.config_eq, ?_, ?_⟩
  · intro d e he
    obtain ⟨f, hf⟩ := lookup.relabels_apply op d
    rw [he, h.target_eq] at hf
    obtain ⟨e₀, he₀, rfl⟩ := Option.map_eq_some_iff.mp hf.symm
    exact keyed_merge h.keyed d e₀ he₀
  · intro id
    obtain ⟨f, hf⟩ := lookup.relabels_apply op (id.distance target)
    rw [h.selfId_eq, h.target_eq] at hf
    rw [hf, ← Option.isSome_iff_exists, Option.isSome_map, Option.isSome_iff_exists,
      exists_merge_iff, ← h.mem_iff, mem_heard_iff, mem_heard_iff]
    simp only [List.mem_append, List.mem_singleton]
    constructor
    · rintro ⟨hne, hseed | ⟨op', hop | rfl, hp⟩⟩
      · exact Or.inl ⟨hne, Or.inl hseed⟩
      · exact Or.inl ⟨hne, Or.inr ⟨op', hop, hp⟩⟩
      · exact Or.inr ⟨hne, hp⟩
    · rintro (⟨hne, hseed | ⟨op', hop, hp⟩⟩ | ⟨hne, hp⟩)
      · exact ⟨hne, Or.inl hseed⟩
      · exact ⟨hne, Or.inr ⟨op', Or.inl hop, hp⟩⟩
      · exact ⟨hne, Or.inr ⟨op, Or.inr rfl, hp⟩⟩

lemma Knows.run {seeds : List (NodeId × UdpAddr)} (ops : List LookupOp) :
    (ops.foldl Lookup.apply (new selfId target config seeds)).Knows selfId target config
      (heard selfId seeds ops) := by
  induction ops using List.reverseRecOn with
  | nil => exact knows_new selfId target config seeds
  | append_singleton ops op ih =>
      rw [List.foldl_append]
      exact ih.apply op

/-- How far a peer is from the target. -/
def far (target id : NodeId) : ℕ := (id.distance target).toNat

lemma far_injective (target : NodeId) : Function.Injective (far target) :=
  Distance.toNat_injective.comp (NodeId.distance_injective target)

/-- The peers of the shortlist stand in the order of their distances. -/
lemma Knows.pairwise_far {ids : List NodeId} (h : lookup.Knows selfId target config ids) :
    (lookup.entries.values.map LookupEntry.nodeId).Pairwise
      fun a b => far target a < far target b := by
  rw [ExtTreeMap.values_eq_map_toList, List.map_map, List.pairwise_map]
  refine (List.Pairwise.and_mem.mp ExtTreeMap.ordered_keys_toList).imp ?_
  rintro ⟨d, e⟩ ⟨d', e'⟩ ⟨he, he', hlt⟩
  have hd := h.keyed d e (ExtTreeMap.mem_toList_iff_getElem?_eq_some.mp he)
  have hd' := h.keyed d' e' (ExtTreeMap.mem_toList_iff_getElem?_eq_some.mp he')
  subst hd hd'
  exact Distance.compare_eq_lt_iff.mp hlt

lemma Knows.mem_values_iff {ids : List NodeId} (h : lookup.Knows selfId target config ids)
    (id : NodeId) : id ∈ lookup.entries.values.map LookupEntry.nodeId ↔ id ∈ ids := by
  rw [h.mem_iff, List.mem_map]
  constructor
  · rintro ⟨e, he, rfl⟩
    obtain ⟨d, hd⟩ := ExtTreeMap.mem_values_iff.mp he
    exact ⟨e, by rw [h.keyed d e hd]; exact hd⟩
  · rintro ⟨e, he⟩
    exact ⟨e, ExtTreeMap.mem_values_iff.mpr ⟨_, he⟩,
      NodeId.distance_injective target (h.keyed _ e he)⟩

/-- The results are the known peers nearest to the target. -/
lemma Knows.topKResults_eq {ids : List NodeId} (h : lookup.Knows selfId target config ids)
    (hnodup : ids.Nodup) :
    lookup.topKResults.map Prod.fst = List.nearest (far target) config.k ids := by
  have hsorted := h.pairwise_far
  have hkeys : ((lookup.entries.values.map LookupEntry.nodeId).map (far target)).Nodup :=
    List.pairwise_map.mpr (hsorted.imp fun h => h.ne)
  rw [← List.nearest_congr (hnodup.map (far_injective target)) hkeys h.mem_values_iff,
    List.nearest_of_pairwise_lt hsorted, topKResults, h.config_eq, List.map_map, ← List.map_take]
  rfl

/-- A result is an entry of the shortlist. -/
lemma Knows.has_of_mem_topKResults {ids : List NodeId}
    (h : lookup.Knows selfId target config ids) {p : NodeId × UdpAddr}
    (hp : p ∈ lookup.topKResults) : ∃ s, lookup.Has p.1 p.2 s := by
  obtain ⟨e, he, rfl⟩ := List.mem_map.mp hp
  obtain ⟨d, hd⟩ := ExtTreeMap.mem_values_iff.mp (List.mem_of_mem_take he)
  refine ⟨e.status, ?_⟩
  rw [Has, h.target_eq, h.keyed d e hd]
  exact hd

/-- After any sequence of operations on a fresh lookup: every entry stands under the distance of
its peer, which is not the node itself; it stays there with its peer and its address, whatever
comes next; and the results are the `min k n` peers closest to the target among all `n` that were
seeded or reported, as the shortlist has them, in strictly increasing distance.  So the distance
of the result at a place never increases. -/
theorem shortlist_correct (selfId target : NodeId) (config : LookupConfig)
    (seeds : List (NodeId × UdpAddr)) (ops : List LookupOp) :
    let lookup := ops.foldl Lookup.apply (new selfId target config seeds)
    let known := heard selfId seeds ops
    (∀ (d : Distance) (e : LookupEntry), lookup.entries[d]? = some e →
      e.nodeId.distance target = d ∧ e.nodeId ≠ selfId) ∧
    (∀ (ops' : List LookupOp) (d : Distance) (e : LookupEntry), lookup.entries[d]? = some e →
      ∃ s, (ops'.foldl Lookup.apply lookup).entries[d]? = some { e with status := s }) ∧
    lookup.topKResults.length = min config.k known.length ∧
    (∀ p ∈ lookup.topKResults, p.1 ∈ known ∧ ∃ s, lookup.Has p.1 p.2 s) ∧
    lookup.topKResults.Pairwise (fun p q => far target p.1 < far target q.1) ∧
    (∀ id ∈ known, id ∉ lookup.topKResults.map Prod.fst → ∀ p ∈ lookup.topKResults,
      far target p.1 < far target id) ∧
    ∀ (ops' : List LookupOp) (i : ℕ) (p : NodeId × UdpAddr), lookup.topKResults[i]? = some p →
      ∃ q, (ops'.foldl Lookup.apply lookup).topKResults[i]? = some q ∧
        far target q.1 ≤ far target p.1 := by
  intro lookup known
  have h : lookup.Knows selfId target config known := Knows.run ops
  have hnodup : known.Nodup := List.nodup_dedup _
  have hkeys := hnodup.map (far_injective target)
  have hresults := h.topKResults_eq hnodup
  refine ⟨fun d e he => ?_, fun ops' d e => lookup.exists_status_of_run ops', ?_, ?_, ?_, ?_, ?_⟩
  · have hd := h.keyed d e he
    have hmem : e.nodeId ∈ known := (h.mem_iff e.nodeId).mpr ⟨e, hd ▸ he⟩
    exact ⟨hd, (mem_heard_iff.mp hmem).1⟩
  · have hlength : (List.nearest (far target) config.k known).length = min config.k known.length :=
      List.length_nearest
    rw [← hlength, ← hresults, List.length_map]
  · intro p hp
    have hmem : p.1 ∈ lookup.topKResults.map Prod.fst := List.mem_map_of_mem hp
    rw [hresults] at hmem
    exact ⟨List.mem_of_mem_nearest hmem, h.has_of_mem_topKResults hp⟩
  · rw [← List.pairwise_map (f := Prod.fst) (R := fun a b => far target a < far target b), hresults]
    exact List.pairwise_lt_nearest hkeys
  · intro id hid hout p hp
    have hmem : p.1 ∈ lookup.topKResults.map Prod.fst := List.mem_map_of_mem hp
    rw [hresults] at hout hmem
    exact List.lt_of_notMem_nearest hkeys hid hout hmem
  · intro ops' i p hp
    have h' : (ops'.foldl Lookup.apply lookup).Knows selfId target config
        (heard selfId seeds (ops ++ ops')) := by
      have hrun : ((ops ++ ops').foldl Lookup.apply (new selfId target config seeds)).Knows selfId
          target config (heard selfId seeds (ops ++ ops')) := Knows.run (ops ++ ops')
      rwa [List.foldl_append] at hrun
    have hmore : ∀ id ∈ known, id ∈ heard selfId seeds (ops ++ ops') := by
      intro id hid
      obtain ⟨hne, hseed | ⟨op, hop, hp⟩⟩ := mem_heard_iff.mp hid
      · exact mem_heard_iff.mpr ⟨hne, Or.inl hseed⟩
      · exact mem_heard_iff.mpr ⟨hne, Or.inr ⟨op, List.mem_append_left _ hop, hp⟩⟩
    have hnodup' : (heard selfId seeds (ops ++ ops')).Nodup := List.nodup_dedup _
    have hi : (List.nearest (far target) config.k known)[i]? = some p.1 := by
      rw [← hresults, List.getElem?_map, hp]
      rfl
    obtain ⟨id, hid, hle⟩ := List.getElem?_nearest_le hkeys
      (hnodup'.map (far_injective target)) hmore hi
    rw [← h'.topKResults_eq hnodup', List.getElem?_map] at hid
    obtain ⟨q, hq, rfl⟩ := Option.map_eq_some_iff.mp hid
    exact ⟨q, hq, hle⟩

end Lookup

end Libp2pCat.Kad
