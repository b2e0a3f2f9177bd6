import Libp2pCat.Kad.Driver
import Libp2pCat.Host.Channel
import Libp2pCat.Kad.Shortlist
import Libp2pCat.Kad.Closest
import Libp2pCat.Lib.Greedy

/-!
Where a lookup arrives.

* `Routes`: what the table of a peer of a network knows of the network: somebody closer to the
  target than the peer itself, unless nobody is, and the next one further.
* `Explored`: what a lookup knows around a peer of its shortlist; `Routes.explored`: the closest
  peers of such a table are enough for it.
* `Lookup.Charted`: every peer of the shortlist is of the network, and around each that has answered
  the lookup knows its way.  `PhaseStep.charted`: every step keeps it if the answers come from such
  tables.
* `Party.rest`: the code that is left to run; `Party.Move.rest_run`: a move does not change how it
  ends.
* `Party.lookup_converges`: a lookup whose closest peers have all answered returns the closest peers
  of the whole network.
-/

namespace Libp2pCat.Kad

open ByteString Effect Std Trace Lookup

variable {C : Crypto} {N : Type}

/-! ### What a peer knows of its network -/

/-- The table of a peer of a network: it knows somebody of the network who is closer to the target
than the peer itself, unless nobody is, and the next one further. -/
structure Routes (net : List NodeId) (selfId target : NodeId) (k : ℕ) (id : NodeId)
    (table : RoutingTable) : Prop where
  wellFormed : table.WellFormed id table.k
  members : ∀ p ∈ table.stored, p.1 ∈ net ∨ p.1 = selfId
  /-- it returns as many peers as are looked for, and more than the one who asks -/
  large : k ≤ table.k ∧ 2 ≤ table.k
  nearer : (∃ b ∈ net, far target b < far target id) →
    ∃ p ∈ table.stored, p.1 ∈ net ∧ far target p.1 < far target id
  next : ∀ b ∈ net, far target id < far target b →
    (∀ c ∈ net, far target c < far target b → far target c ≤ far target id) →
    ∃ p ∈ table.stored, p.1 = b

/-- Who knows these peers knows somebody closer to the target than this one, unless nobody is, and
the next one further, if it is among the `k` closest. -/
structure Explored (net : List NodeId) (target : NodeId) (k : ℕ) (known : NodeId → Prop)
    (id : NodeId) : Prop where
  nearer : (∃ b ∈ net, far target b < far target id) →
    ∃ b, known b ∧ far target b < far target id
  next : ∀ b ∈ net, far target id < far target b →
    (∀ c ∈ net, far target c < far target b → far target c ≤ far target id) →
    List.rank (far target) net b < k → known b

variable {net : List NodeId} {selfId target id : NodeId} {k : ℕ} {table : RoutingTable}

lemma Explored.mono {known known' : NodeId → Prop} (h : Explored net target k known id)
    (hle : ∀ b, known b → known' b) : Explored net target k known' id where
  nearer hb := (h.nearer hb).imp fun _ hc => ⟨hle _ hc.1, hc.2⟩
  next b hb hlt hlast hrank := hle b (h.next b hb hlt hlast hrank)

lemma mem_of_mem_closestTo {n : ℕ} {p : NodeId × UdpAddr} (h : p ∈ table.closestTo target n) :
    p ∈ table.stored := by
  rw [RoutingTable.closestTo_eq_nearest] at h
  exact List.mem_of_mem_nearest h

lemma closestTo_ne_nil {n : ℕ} (target : NodeId) (h : table.stored ≠ []) :
    table.closestTo target (n + 1) ≠ [] := by
  rw [RoutingTable.closestTo_eq_nearest, ← List.length_pos_iff, List.length_nearest]
  have := List.length_pos_iff.mpr h
  omega

namespace Routes

/-- A stored peer is returned if fewer than `table.k` stored peers are closer. -/
lemma mem_closestTo (h : Routes net selfId target k id table) {p : NodeId × UdpAddr}
    (hp : p ∈ table.stored) {closer : List NodeId} (hlen : closer.length < table.k)
    (hcloser : ∀ q ∈ table.stored, far target q.1 < far target p.1 → q.1 ∈ closer) :
    p ∈ table.closestTo target table.k := by
  rw [RoutingTable.closestTo_eq_nearest,
    List.mem_nearest_iff_rank_lt (h.wellFormed.nodup_away target) hp]
  refine Nat.lt_of_le_of_lt ?_ hlen
  rw [List.rank, List.countP_eq_length_filter, ← List.length_map Prod.fst]
  refine (List.subperm_of_subset ?_ fun b hb => ?_).length_le
  · exact h.wellFormed.nodup.sublist (List.filter_sublist.map _)
  · obtain ⟨q, hq, rfl⟩ := List.mem_map.mp hb
    obtain ⟨hmem, hlt⟩ := List.mem_filter.mp hq
    exact hcloser q hmem (of_decide_eq_true hlt)

/-- The closest peers of such a table are enough to know one's way around its owner. -/
lemma explored (h : Routes net selfId target k id table) (hid : id ∈ net)
    {known : NodeId → Prop} (hself : selfId ∉ net)
    (hknown : ∀ p ∈ table.closestTo target table.k, p.1 ≠ selfId → known p.1) :
    Explored net target k known id where
  nearer hb := by
    -- the closest stored peer of the network is returned: only the one who asks may be closer
    obtain ⟨p₀, hp₀, hnet₀, hlt₀⟩ := h.nearer hb
    have hne : table.stored.filter (fun p => p.1 ∈ net) ≠ [] :=
      List.ne_nil_of_mem (List.mem_filter.mpr ⟨hp₀, decide_eq_true hnet₀⟩)
    obtain ⟨p, hp, hleast⟩ := List.exists_least (fun p => far target p.1) hne
    obtain ⟨hstored, hnet⟩ := List.mem_filter.mp hp
    have hnet : p.1 ∈ net := of_decide_eq_true hnet
    have hcloser : ∀ q ∈ table.stored, far target q.1 < far target p.1 → q.1 ∈ [selfId] :=
      fun q hq hlt => List.mem_singleton.mpr <| (h.members q hq).resolve_left fun hqnet =>
        absurd hlt (Nat.not_lt.mpr (hleast q (List.mem_filter.mpr ⟨hq, decide_eq_true hqnet⟩)))
    have hlen : [selfId].length < table.k := h.large.2
    have hret := h.mem_closestTo hstored hlen hcloser
    refine ⟨p.1, hknown p hret fun heq => hself (heq ▸ hnet), ?_⟩
    exact (hleast p₀ (List.mem_filter.mpr ⟨hp₀, decide_eq_true hnet₀⟩)).trans_lt hlt₀
  next b hb hlt hlast hrank := by
    obtain ⟨p, hp, rfl⟩ := h.next b hb hlt hlast
    -- closer are the one who asks and the peers of the network closer than it, the owner aside
    have hmem : id ∈ net.filter fun c => far target c < far target p.1 :=
      List.mem_filter.mpr ⟨hid, decide_eq_true hlt⟩
    have hlen : (selfId :: (net.filter fun c => far target c < far target p.1).erase id).length
        = List.rank (far target) net p.1 := by
      rw [List.length_cons, List.length_erase_of_mem hmem, List.rank,
        List.countP_eq_length_filter]
      have := List.length_pos_of_mem hmem
      omega
    refine hknown p (h.mem_closestTo hp (hlen.trans_lt (hrank.trans_le h.large.1)) ?_)
      fun heq => hself (heq ▸ hb)
    intro q hq hclose
    rcases h.members q hq with hqnet | rfl
    · exact List.mem_cons_of_mem _ ((List.mem_erase_of_ne fun heq =>
        h.wellFormed.self_notMem (List.mem_map.mpr ⟨q, hq, heq⟩)).mpr
          (List.mem_filter.mpr ⟨hqnet, decide_eq_true hclose⟩))
    · exact List.mem_cons_self

end Routes

/-! ### What a lookup knows -/

/-- Every peer of the shortlist is of the network, and around each that has answered the lookup
knows its way. -/
structure Lookup.Charted (net : List NodeId) (lookup : Lookup) : Prop where
  members : ∀ (d : Distance) (e : LookupEntry), lookup.entries[d]? = some e → e.nodeId ∈ net
  explored : ∀ (d : Distance) (e : LookupEntry), lookup.entries[d]? = some e → e.status = .done →
    Explored net lookup.target lookup.config.k
      (fun id => ∃ e, lookup.entries[id.distance lookup.target]? = some e) e.nodeId

/-- Nobody is new on the shortlist, and nobody has answered. -/
def NoNews (E E' : BTreeMap Distance LookupEntry) : Prop :=
  ∀ (d : Distance) (e' : LookupEntry), E'[d]? = some e' →
    ∃ e, E[d]? = some e ∧ e'.nodeId = e.nodeId ∧ (e'.status = .done → e.status = .done)

lemma NoNews.refl (E : BTreeMap Distance LookupEntry) : NoNews E E :=
  fun _ e he => ⟨e, he, rfl, id⟩

lemma NoNews.trans {E E' E'' : BTreeMap Distance LookupEntry} (h : NoNews E E')
    (h' : NoNews E' E'') : NoNews E E'' := by
  intro d e'' he''
  obtain ⟨e', he', hid', hdone'⟩ := h' d e'' he''
  obtain ⟨e, he, hid, hdone⟩ := h d e' he'
  exact ⟨e, he, hid'.trans hid, fun h => hdone (hdone' h)⟩

lemma noNews_setStatus (E : BTreeMap Distance LookupEntry) (d : Distance) {s : LookupStatus}
    (hs : s ≠ .done) : NoNews E (setStatus E d s) := by
  intro d' e' he'
  rw [getElem?_setStatus] at he'
  obtain ⟨e, he, rfl⟩ := Option.map_eq_some_iff.mp he'
  refine ⟨e, he, ?_⟩
  split_ifs
  · exact ⟨rfl, fun h => absurd h hs⟩
  · exact ⟨rfl, id⟩

lemma noNews_skip (target : NodeId) (pending : BTreeMap UdpAddr NodeId)
    (E : BTreeMap Distance LookupEntry) : NoNews E (skip target pending E) := by
  intro d e' he'
  rw [getElem?_skip] at he'
  obtain ⟨e, he, rfl⟩ := Option.map_eq_some_iff.mp he'
  refine ⟨e, he, ?_⟩
  split_ifs
  · exact ⟨rfl, by rintro ⟨⟩⟩
  · exact ⟨rfl, id⟩

lemma noNews_markActions (lookup : Lookup) (actions : List (NodeId × RoundAction)) :
    NoNews lookup.entries (markActions lookup actions).entries := by
  induction actions generalizing lookup with
  | nil => exact NoNews.refl _
  | cons p rest ih =>
      obtain ⟨id, action⟩ := p
      rw [markActions_cons]
      refine NoNews.trans ?_ (ih _)
      rw [entries_mark]
      exact noNews_setStatus _ _ (by cases action <;> rintro ⟨⟩)

lemma noNews_completeDial (lookup : Lookup) (addr : UdpAddr) :
    NoNews lookup.entries (lookup.completeDial addr).entries := by
  rw [Lookup.completeDial]
  cases lookup.pendingDials[addr]? with
  | none => exact NoNews.refl _
  | some id => exact noNews_setStatus _ _ (by rintro ⟨⟩)

/-- An answer is merged into the shortlist, and then nothing but the status of the peer that was
asked changes. -/
lemma Lookup.exists_merge_of_recordResponse {lookup : Lookup} {addr : UdpAddr}
    {peers : List (NodeId × UdpAddr)} {d : Distance} {e' : LookupEntry}
    (he' : (lookup.recordResponse addr peers).1.entries[d]? = some e') :
    ∃ e, (merge lookup.selfId lookup.target peers lookup.entries)[d]? = some e ∧
      e'.nodeId = e.nodeId ∧ (e'.status = .done → e.status = .done ∨
        ∃ id, lookup.pendingQueries[addr]? = some id ∧ id.distance lookup.target = d) := by
  rw [entries_recordResponse] at he'
  cases hq : lookup.pendingQueries[addr]? with
  | none =>
      rw [hq] at he'
      exact ⟨e', he', rfl, Or.inl⟩
  | some id =>
      rw [hq] at he'
      dsimp only at he'
      rw [getElem?_setStatus] at he'
      obtain ⟨e, he, rfl⟩ := Option.map_eq_some_iff.mp he'
      refine ⟨e, he, ?_⟩
      split_ifs with hd
      · exact ⟨rfl, fun _ => Or.inr ⟨id, rfl, hd⟩⟩
      · exact ⟨rfl, Or.inl⟩

lemma Lookup.exists_recordResponse_of_merge {lookup : Lookup} {addr : UdpAddr}
    {peers : List (NodeId × UdpAddr)} {d : Distance}
    (h : ∃ e, (merge lookup.selfId lookup.target peers lookup.entries)[d]? = some e) :
    ∃ e, (lookup.recordResponse addr peers).1.entries[d]? = some e := by
  obtain ⟨e, he⟩ := h
  rw [entries_recordResponse]
  cases lookup.pendingQueries[addr]? with
  | none => exact ⟨e, he⟩
  | some id =>
      dsimp only
      rw [getElem?_setStatus, he]
      exact ⟨_, rfl⟩

namespace Lookup.Charted

variable {lookup lookup' : Lookup}

/-- What brings no news keeps the chart. -/
lemma of_noNews (h : lookup.Charted net) (hparams : lookup.SameParams lookup')
    (hkeeps : Keeps lookup.entries lookup'.entries)
    (hnews : NoNews lookup.entries lookup'.entries) : lookup'.Charted net where
  members d e' he' := by
    obtain ⟨e, he, hid, -⟩ := hnews d e' he'
    exact hid ▸ h.members d e he
  explored d e' he' hdone' := by
    obtain ⟨e, he, hid, hdone⟩ := hnews d e' he'
    rw [hid, hparams.1, hparams.2.1]
    refine (h.explored d e he (hdone hdone')).mono fun b ⟨e₀, he₀⟩ => ?_
    obtain ⟨s, hs, -⟩ := hkeeps _ e₀ he₀
    exact ⟨_, hs⟩

/-- An answer out of a table that knows its way adds to the chart. -/
lemma recordResponse (h : lookup.Charted net) (hsound : lookup.Sound)
    (hself : lookup.selfId ∉ net) {addr : UdpAddr} {peers : List (NodeId × UdpAddr)}
    (hpeers : ∀ p ∈ peers, p.1 ∈ net ∨ p.1 = lookup.selfId)
    (hanswer : ∀ id, lookup.pendingQueries[addr]? = some id → ∃ table,
      Routes net lookup.selfId lookup.target lookup.config.k id table ∧
        peers.map Prod.fst = (table.closestTo lookup.target table.k).map Prod.fst) :
    (lookup.recordResponse addr peers).1.Charted net := by
  have hkeyed := (hsound.recordResponse addr peers).1.keyed
  -- the peers of a merged shortlist: those it had, and those of the answer, not yet queried
  have hmerged : ∀ (d : Distance) (e : LookupEntry),
      (merge lookup.selfId lookup.target peers lookup.entries)[d]? = some e →
      lookup.entries[d]? = some e ∨ e.status = .unqueried ∧ e.nodeId ∈ net := by
    intro d e he
    rw [getElem?_merge] at he
    rcases Option.or_eq_some_iff.mp he with he | ⟨-, he⟩
    · exact Or.inl he
    · obtain ⟨p, hp, rfl⟩ := Option.map_eq_some_iff.mp he
      have hfound := List.find?_some hp
      simp only [decide_eq_true_eq] at hfound
      exact Or.inr ⟨rfl, (hpeers p (List.mem_of_find?_eq_some hp)).resolve_right hfound.1⟩
  refine ⟨fun d e' he' => ?_, fun d e' he' hdone' => ?_⟩
  · obtain ⟨e, he, hid, -⟩ := exists_merge_of_recordResponse he'
    rw [hid]
    exact (hmerged d e he).elim (h.members d e) And.right
  · obtain ⟨e, he, hid, hstatus⟩ := exists_merge_of_recordResponse he'
    rcases hstatus hdone' with hdone | ⟨id, hq, rfl⟩
    · -- it had answered before
      have hold : lookup.entries[d]? = some e := (hmerged d e he).resolve_right fun hnew => by
        rw [hdone] at hnew
        cases hnew.1
      rw [hid]
      refine (h.explored d e hold hdone).mono fun b hb => exists_recordResponse_of_merge ?_
      exact exists_merge_iff.mpr (Or.inl hb)
    · -- it is the one who answers
      obtain ⟨table, hroutes, heq⟩ := hanswer id hq
      have hid' : e'.nodeId = id := NodeId.distance_injective _ (hkeyed _ e' he')
      rw [hid']
      refine hroutes.explored (h.members _ _ (hsound.queried addr id hq)) hself fun p hp hne => ?_
      have hmem := List.mem_map_of_mem (f := Prod.fst) hp
      rw [← heq] at hmem
      obtain ⟨q, hq', hqp⟩ := List.mem_map.mp hmem
      exact exists_recordResponse_of_merge
        (exists_merge_iff.mpr (Or.inr ⟨hne, q, hq', hqp⟩))

end Lookup.Charted

/-! ### The steps of a lookup in a network -/

/-- What a lookup hears in a network: all it is told of is of the network, and who is asked answers
with the closest peers of a table that knows its way. -/
def Honest (net : List NodeId) (s : Phase) (label : Label) : Prop :=
  ∀ addr peers, label = .received (some (.findNodeResponseReceived addr peers)) →
    (∀ p ∈ peers, p.1 ∈ net ∨ p.1 = s.lookup.selfId) ∧
      ∀ id, s.lookup.pendingQueries[addr]? = some id → ∃ table,
        Routes net s.lookup.selfId s.lookup.target s.lookup.config.k id table ∧
          peers.map Prod.fst = (table.closestTo s.lookup.target table.k).map Prod.fst

/-- Every step keeps the chart. -/
lemma PhaseStep.charted {p p' : Phase} {label : Label} (h : PhaseStep p label p')
    (hhonest : Honest net p label) (hsound : p.lookup.Sound) (hself : p.lookup.selfId ∉ net)
    (hp : p.lookup.Charted net) : p'.lookup.Charted net := by
  have hkeeps := (h.sound hsound).2
  have hparams := h.sameParams
  cases h with
  | pick hactions => exact hp.of_noNews hparams hkeeps (noNews_markActions _ _)
  | @recv lookup budget roundsLeft event hpending =>
      cases event with
      | findNodeResponseReceived addr peers =>
          obtain ⟨hpeers, hanswer⟩ := hhonest addr peers rfl
          exact hp.recordResponse hsound hself hpeers hanswer
      | handshakeComplete addr _ _ _ =>
          refine hp.of_noNews hparams hkeeps ?_
          dsimp only [Phase.lookup, Lookup.onEvent]
          split_ifs
          · exact noNews_completeDial _ _
          · exact NoNews.refl _
      | _ => exact hp
  | close hstop =>
      exact hp.of_noNews hparams hkeeps ((noNews_skip _ _ _).trans (noNews_skip _ _ _))
  | _ => exact hp

/-- The peers of the shortlist. -/
lemma Lookup.Sound.mem_map_nodeId_iff {lookup : Lookup} (h : lookup.Sound) {id : NodeId} :
    id ∈ lookup.entries.values.map LookupEntry.nodeId ↔
      ∃ e, lookup.entries[id.distance lookup.target]? = some e := by
  rw [List.mem_map]
  constructor
  · rintro ⟨e, he, rfl⟩
    obtain ⟨d, hd⟩ := ExtTreeMap.mem_values_iff.mp he
    exact ⟨e, by rw [h.keyed d e hd]; exact hd⟩
  · rintro ⟨e, he⟩
    exact ⟨e, ExtTreeMap.mem_values_iff.mpr ⟨_, he⟩,
      NodeId.distance_injective _ (h.keyed _ e he)⟩

/-- The identifiers of the results are the nearest of those on the shortlist. -/
lemma Lookup.Sound.topKResults_eq {lookup : Lookup} (h : lookup.Sound) :
    lookup.topKResults.map Prod.fst = List.nearest (far lookup.target) lookup.config.k
      (lookup.entries.values.map LookupEntry.nodeId) := by
  have hnodup : (lookup.entries.values.map LookupEntry.nodeId).Nodup :=
    ExtTreeMap.nodup_map_values (g := fun id => id.distance lookup.target) h.keyed
  exact Knows.topKResults_eq ⟨rfl, rfl, rfl, h.keyed, fun _ => h.mem_map_nodeId_iff⟩ hnodup

/-- A fresh lookup is charted if the peers it starts from are of the network. -/
lemma Lookup.charted_new {config : LookupConfig} {peers : List (NodeId × UdpAddr)}
    (h : ∀ p ∈ peers, p.1 ∈ net) : (Lookup.new selfId target config peers).Charted net where
  members d e he := by
    obtain ⟨p, hp, -, rfl⟩ := getElem?_new he
    exact h p hp
  explored d e he hdone := by
    obtain ⟨p, -, -, rfl⟩ := getElem?_new he
    cases hdone

/-- A charted lookup whose closest peers have all answered knows the closest peers of the whole
network. -/
lemma Lookup.Charted.topKResults_eq {lookup : Lookup} (h : lookup.Charted net)
    (hsound : lookup.Sound) (hnodup : net.Nodup) {d : Distance} {e : LookupEntry}
    (hsome : lookup.entries[d]? = some e)
    (hanswered : ∀ e ∈ lookup.entries.values.take lookup.config.k, e.status = .done) :
    lookup.topKResults.map Prod.fst
      = List.nearest (far lookup.target) lookup.config.k net := by
  have hkeys := far_injective lookup.target
  have hids : (lookup.entries.values.map LookupEntry.nodeId).Nodup :=
    ExtTreeMap.nodup_map_values (g := fun id => id.distance lookup.target) hsound.keyed
  -- the closest peers it knows have answered, so it knows its way around them
  have hexplored : ∀ a ∈ List.nearest (far lookup.target) lookup.config.k
      (lookup.entries.values.map LookupEntry.nodeId),
      Explored net lookup.target lookup.config.k
        (· ∈ lookup.entries.values.map LookupEntry.nodeId) a := by
    intro a ha
    rw [← hsound.topKResults_eq, Lookup.topKResults, List.map_map] at ha
    obtain ⟨e, he, rfl⟩ := List.mem_map.mp ha
    obtain ⟨d, hd⟩ := ExtTreeMap.mem_values_iff.mp (List.mem_of_mem_take he)
    exact (h.explored d e hd (hanswered e he)).mono fun _ => hsound.mem_map_nodeId_iff.mpr
  rw [hsound.topKResults_eq]
  refine List.nearest_eq_of_closed (hnodup.map hkeys) (hids.map hkeys) ?_ ?_
    (fun a ha => (hexplored a ha).nearer) fun a ha => (hexplored a ha).next
  · intro a ha
    obtain ⟨e, he, rfl⟩ := List.mem_map.mp ha
    obtain ⟨d, hd⟩ := ExtTreeMap.mem_values_iff.mp he
    exact h.members d e hd
  · exact List.ne_nil_of_mem (List.mem_map_of_mem (ExtTreeMap.mem_values_iff.mpr ⟨d, hsome⟩))

/-! ### The code that is left to run -/

namespace Party

variable {P : Party C N}

/-- Give up what is still under way, and run the rounds that are left. -/
def nextRound (P : Party C N) (roundsLeft : ℕ) (r : N × Lookup × (ℕ → Key)) :
    Io World Error (N × Lookup) :=
  P.drive r.1 r.2.1.skipPendingQueries.skipPendingDials r.2.2 roundsLeft

/-- The code that is left to run. -/
def rest (P : Party C N) (s : Driven N) : Io World Error (N × Lookup) :=
  match s.phase with
  | .head lookup roundsLeft => P.drive s.node lookup s.seeds roundsLeft
  | .sending actions lookup roundsLeft =>
      (Io.chain (fun p => P.act p.2 lookup.target) actions s.node).flatMap fun node =>
        (P.drain node lookup s.seeds lookup.config.maxRecvPerRound).flatMap (P.nextRound roundsLeft)
  | .draining lookup budget roundsLeft =>
      (P.drain s.node lookup s.seeds budget).flatMap (P.nextRound roundsLeft)
  | .failed lookup => Io.pure (s.node, lookup)

/-- A move that does not fail does not change how the lookup ends. -/
lemma Move.rest_run {s s' : Driven N} {label : Label} (h : P.Move s label s')
    (hgoes : ∀ lookup, s'.phase ≠ .failed lookup) :
    (P.rest s).run s.world = (P.rest s').run s'.world := by
  cases h with
  | pick hdone hpick =>
      have hgo : ¬ (_ ∨ _) := not_or.mpr ⟨Bool.eq_false_iff.mp hdone, hpick⟩
      dsimp only [rest]
      rw [drive, if_neg hgo]
      rfl
  | act hact =>
      dsimp only [rest]
      rw [Io.chain, Io.flatMap_assoc, Io.run_flatMap_of_ok hact]
  | listen => rfl
  | recv hpending hrecv =>
      dsimp only [rest]
      rw [drain, if_pos hpending, Io.flatMap_assoc, Io.run_flatMap_of_ok hrecv]
  | @close node seeds lookup budget roundsLeft w hstop =>
      have hstopped : P.drain node lookup seeds budget = Io.pure (node, lookup, seeds) := by
        cases budget with
        | zero => rfl
        | succ budget =>
            rw [drain, if_neg (by simp [hstop.resolve_left (Nat.succ_ne_zero _)])]
      dsimp only [rest]
      rw [hstopped, Io.pure_flatMap]
      rfl
  | actFails | recvFails => exact absurd rfl (hgoes _)

/-- A run of moves that did not fail does not change how the lookup ends. -/
lemma rest_run_of_run {s s' : Driven N} {labels : List Label} (h : Run P.Move s labels s')
    (hgoes : ∀ lookup, s'.phase ≠ .failed lookup) :
    (P.rest s).run s.world = (P.rest s').run s'.world := by
  induction h with
  | nil => rfl
  | snoc _ hmove ih =>
      refine (ih fun lookup hfailed => ?_).trans (hmove.rest_run hgoes)
      -- nothing comes after a failure
      cases hmove <;> cases hfailed

/-- A lookup at the head of a round with nobody left to ask returns what it has. -/
lemma lookup_run_of_head {node : N} {target : NodeId} {config : LookupConfig} {seeds : ℕ → Key}
    {w : World} {labels : List Label} {s : Driven N} {lookup : Lookup} {left : ℕ}
    (hrun : Run P.Move (P.start node target config seeds w) labels s)
    (hphase : s.phase = .head lookup left) (hpick : lookup.pickNextAlpha = []) :
    (P.lookup node target config seeds).run w = (.ok (s.node, lookup.topKResults), s.world) := by
  have hrest := rest_run_of_run hrun fun l => by
    rw [hphase]
    rintro ⟨⟩
  have hlast : (P.rest s).run s.world = (.ok (s.node, lookup), s.world) := by
    rw [rest, hphase]
    cases left with
    | zero => rfl
    | succ left =>
        dsimp only
        rw [drive, if_pos (Or.inr hpick)]
        rfl
  exact Io.map_run_eq_ok.mpr ⟨_, hrest.trans hlast, rfl⟩

/-- A lookup in a network whose peers each know somebody closer to the target, unless nobody is, and
the next one further.  Once the closest peers that it knows have all answered, at the head of a
round, it returns, and these are the closest peers of the whole network, in order. -/
theorem lookup_converges {node : N} {target : NodeId} {config : LookupConfig} {seeds : ℕ → Key}
    {w : World} (hnodup : net.Nodup) (hself : (P.table node).selfId ∉ net)
    (hstored : ∀ p ∈ (P.table node).stored, p.1 ∈ net) (hsome : (P.table node).stored ≠ [])
    {labels : List Label} {s : Driven N}
    (hrun : Run (fun s label s' => P.Move s label s' ∧ Honest net s.phase label)
      (P.start node target config seeds w) labels s)
    {lookup : Lookup} {left : ℕ} (hphase : s.phase = .head lookup left)
    (hanswered : ∀ e ∈ lookup.entries.values.take config.k, e.status = .done) :
    ∃ peers, (P.lookup node target config seeds).run w = (.ok (s.node, peers), s.world) ∧
      peers.map Prod.fst = List.nearest (far target) config.k net := by
  have hmoves := hrun.mono fun _ _ _ h => h.1
  obtain ⟨⟨hsound, hparams⟩, hchart⟩ := hrun.invariant
    (P := fun s => (s.phase.lookup.Sound ∧ (Lookup.new (P.table node).selfId target config
      ((P.table node).closestTo target config.k)).SameParams s.phase.lookup) ∧
        s.phase.lookup.Charted net)
    (fun s label s' ⟨⟨hsound, hparams⟩, hchart⟩ ⟨hmove, hhonest⟩ =>
      ⟨⟨(hmove.phaseStep.sound hsound).1, hparams.trans hmove.phaseStep.sameParams⟩,
        hmove.phaseStep.charted hhonest hsound (hparams.2.2.symm ▸ hself) hchart⟩)
    ⟨⟨sound_new _ _ _ _, rfl, rfl, rfl⟩, charted_new fun p hp =>
      hstored p (mem_of_mem_closestTo hp)⟩
  have hkeeps := (sound_run (phase_run hmoves) (sound_new _ _ _ _)).2
  rw [hphase] at hsound hparams hchart hkeeps
  obtain ⟨rfl, rfl, -⟩ : lookup.target = target ∧ lookup.config = config ∧ _ := hparams
  refine ⟨lookup.topKResults, lookup_run_of_head hmoves hphase ?_, ?_⟩
  · -- who has answered is not asked again
    rw [pickNextAlpha, List.filter_eq_nil_iff.mpr fun e he => ?_, List.take_nil,
      List.map_nil]
    rw [hanswered e he]
    decide
  · cases hk : lookup.config.k with
    | zero => simp [topKResults, hk, List.nearest]
    | succ k =>
        -- the lookup starts from somebody, and keeps it
        obtain ⟨p, hp⟩ :=
          List.exists_mem_of_ne_nil _ (closestTo_ne_nil (n := k) lookup.target hsome)
        have hheard : p.1 ∈ heard (P.table node).selfId
            ((P.table node).closestTo lookup.target (k + 1)) [] :=
          mem_heard_iff.mpr ⟨fun heq => hself (heq ▸ hstored p (mem_of_mem_closestTo hp)),
            Or.inl ⟨p, hp, rfl⟩⟩
        obtain ⟨e, he⟩ := ((knows_new _ lookup.target lookup.config _).mem_iff _).mp hheard
        obtain ⟨_, hs, -⟩ := hkeeps _ e (by rw [start, hk]; exact he)
        rw [← hk]
        exact hchart.topKResults_eq hsound hnodup hs hanswered

/-- A run whose operations all pass a check has what the check is for. -/
lemma run_of_passesWithin {check : Driven N → Label → Bool} {Q : Driven N → Label → Prop}
    (hcheck : ∀ s label, check s label = true → Q s label) {n : ℕ} {s₀ s : Driven N}
    {labels : List Label} (h : P.passesWithin check n s₀ = true) (hrun : Run P.Move s₀ labels s) :
    Run (fun s label s' => P.Move s label s' ∧ Q s label) s₀ labels s := by
  induction hrun with
  | nil => exact .nil _
  | snoc hrun hmove ih =>
      exact ih.snoc ⟨hmove, hcheck _ _ (check_of_passesWithin h hrun hmove)⟩

end Party

/-! ### A sample network -/

/-- The peers of the sample network. -/
def nearPeer : NodeId × UdpAddr := (⟨.replicate 32 5⟩, .v4 ⟨.replicate 4 2, 9⟩)

def farPeer : NodeId × UdpAddr := (⟨.replicate 32 6⟩, sampleAddr)

/-- A table that knows one peer. -/
def tableOf (owner : NodeId) (peer : NodeId × UdpAddr) : RoutingTable :=
  ((RoutingTable.new owner DEFAULT_K).insert peer.1 peer.2).1

def searcherId : NodeId := .fromPeerId sampleCrypto (sampleHost 1).identity.peerId

/-- A node with a connection to each peer, which knows the far one. -/
def searcher : KademliaNode sampleCrypto :=
  let peers := [(farPeer.2, sampleLinked 1 2), (nearPeer.2, sampleLinked 3 4)]
  ⟨{ sampleHost 1 with established := .ofList peers }, tableOf searcherId farPeer⟩

/-- The first datagram under a sample key, with this frame in it. -/
def sealedFrame (key : UInt8) (frame : Frame) : Bytes :=
  List.replicate 8 0 ++
    ((encode frame).toOption.getD [] ++ (List.replicate 12 0 ++ List.replicate 4 key))

/-- The answers: the far peer names the near one, and this one names the far one. -/
def answers : World where
  recvFrom k := if k = 0 then .ok (farPeer.2, sealedFrame 2 (.findNodeResp [nearPeer]))
    else .ok (nearPeer.2, sealedFrame 4 (.findNodeResp [farPeer]))
  sendTo _ := .ok ()
  sent := []
  received := []

/-- The lookup of the near peer. -/
def sampleSearch : Driven (KademliaNode sampleCrypto) :=
  kadParty.start searcher nearPeer.1 .default (fun _ => .replicate 32 4) answers

/-- An answer is one of these two. -/
def answersAsked (s : Driven (KademliaNode sampleCrypto)) : Label → Bool
  | .received (some (.findNodeResponseReceived addr peers)) =>
      let lookup := s.phase.lookup
      decide (lookup.selfId = searcherId ∧ lookup.target = nearPeer.1 ∧
        lookup.config.k = DEFAULT_K ∧
        (lookup.pendingQueries[addr]? = some farPeer.1 ∧ peers = [nearPeer] ∨
          lookup.pendingQueries[addr]? = some nearPeer.1 ∧ peers = [farPeer]))
  | _ => true

/-- The statuses of the shortlist between two rounds. -/
def statusesAtHead (s : Driven (KademliaNode sampleCrypto)) : Option (List LookupStatus) :=
  match s.phase with
  | .head lookup _ => some (lookup.entries.values.map LookupEntry.status)
  | _ => none

lemma exists_of_statusesAtHead {s : Driven (KademliaNode sampleCrypto)} {l : List LookupStatus}
    (h : statusesAtHead s = some l) : ∃ lookup left, s.phase = .head lookup left ∧
      lookup.entries.values.map LookupEntry.status = l := by
  rw [statusesAtHead] at h
  split at h
  · rename_i lookup left hphase
    exact ⟨lookup, left, hphase, Option.some.inj h⟩
  · cases h

lemma stored_tableOf (owner : NodeId) (peer : NodeId × UdpAddr) (h : peer.1 ≠ owner) :
    (tableOf owner peer).stored = [peer] := by
  have hperm := (RoutingTable.wellFormed_new owner DEFAULT_K).stored_insert peer.2 h
    (by simp [RoutingTable.stored_new]) (by simp [RoutingTable.stored_new])
  rw [RoutingTable.stored_new] at hperm
  exact List.perm_singleton.mp hperm

/-- Either peer's table knows the other peer, which is all there is to know. -/
lemma routes_sample {owner other : NodeId × UdpAddr}
    (hpair : owner = farPeer ∧ other = nearPeer ∨ owner = nearPeer ∧ other = farPeer) :
    ∃ table, Routes [farPeer.1, nearPeer.1] searcherId nearPeer.1 DEFAULT_K owner.1
      table ∧ [other].map Prod.fst = (table.closestTo nearPeer.1 table.k).map Prod.fst := by
  have hwell := (RoutingTable.wellFormed_new owner.1 DEFAULT_K).insert other.1 other.2
  have hk : (tableOf owner.1 other).k = DEFAULT_K := hwell.k_eq
  have hstored : (tableOf owner.1 other).stored = [other] :=
    stored_tableOf _ _ (by rcases hpair with ⟨rfl, rfl⟩ | ⟨rfl, rfl⟩ <;> decide)
  refine ⟨tableOf owner.1 other, ⟨hk.symm ▸ hwell, ?_, hk.symm ▸ by decide, ?_, ?_⟩, ?_⟩
  · rw [hstored]
    rcases hpair with ⟨rfl, rfl⟩ | ⟨rfl, rfl⟩ <;> decide
  · rw [hstored]
    rcases hpair with ⟨rfl, rfl⟩ | ⟨rfl, rfl⟩ <;> decide
  · rw [hstored]
    rcases hpair with ⟨rfl, rfl⟩ | ⟨rfl, rfl⟩ <;> decide
  · rw [RoutingTable.closestTo_eq_nearest, hk, hstored]
    rfl

lemma honest_of_answersAsked (s : Driven (KademliaNode sampleCrypto)) (label : Label)
    (h : answersAsked s label = true) : Honest [farPeer.1, nearPeer.1] s.phase label := by
  rintro addr peers rfl
  rw [answersAsked, decide_eq_true_eq] at h
  obtain ⟨hself, htarget, hk, hcases⟩ := h
  rw [hself, htarget, hk]
  rcases hcases with ⟨hpending, rfl⟩ | ⟨hpending, rfl⟩
  · refine ⟨by decide, fun id hid => ?_⟩
    rw [hpending] at hid
    cases hid
    exact routes_sample (Or.inl ⟨rfl, rfl⟩)
  · refine ⟨by decide, fun id hid => ?_⟩
    rw [hpending] at hid
    cases hid
    exact routes_sample (Or.inr ⟨rfl, rfl⟩)

/-- The lookup finds the near peer over the far one. -/
theorem lookup_converges_sample :
    ∃ node' w' peers, (kadParty.lookup searcher nearPeer.1 .default
        (fun _ => .replicate 32 4)).run answers = (.ok (node', peers), w') ∧
      peers.map Prod.fst = [nearPeer.1, farPeer.1] := by
  have hvalues : (kadParty.passesWithin answersAsked 10 sampleSearch,
      statusesAtHead (kadParty.walk 10 sampleSearch).2) = (true, some [.done, .done]) := by
    decide +kernel
  obtain ⟨hpasses, hstatuses⟩ := Prod.mk.inj hvalues
  obtain ⟨lookup, left, hphase, hdone⟩ := exists_of_statusesAtHead hstatuses
  have hanswered : ∀ e ∈ lookup.entries.values.take LookupConfig.default.k, e.status = .done := by
    intro e he
    have hmem := List.mem_map_of_mem (f := LookupEntry.status) (List.mem_of_mem_take he)
    rw [hdone] at hmem
    simpa using hmem
  have hne : farPeer.1 ≠ searcherId := by decide
  have hstored : (kadParty.table searcher).stored = [farPeer] := by
    dsimp only [kadParty, searcher]
    exact stored_tableOf searcherId farPeer hne
  have hmembers : ∀ p ∈ (kadParty.table searcher).stored, p.1 ∈ [farPeer.1, nearPeer.1] := by
    rw [hstored]
    simp
  obtain ⟨peers, hrun, hids⟩ := Party.lookup_converges (by decide) (by decide +kernel)
    hmembers (ne_of_eq_of_ne hstored (List.cons_ne_nil _ _))
    (Party.run_of_passesWithin honest_of_answersAsked hpasses (kadParty.run_walk 10 sampleSearch))
    hphase hanswered
  refine ⟨_, _, peers, hrun, hids.trans ?_⟩
  decide

end Libp2pCat.Kad
