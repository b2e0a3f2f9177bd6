import Libp2pCat.Mux.Driver
import Libp2pCat.Kad.Bounds

/-!
Where the peers of a shortlist come from.

* `Lookup.Lists`: the shortlist has the peer; `PhaseStep.lists_of`: only an answer puts a new
  peer there.
* `Lookup.entries_recordResponse_eq_iff`: an answer that nobody waits for leaves the shortlist
  alone exactly when it names no new peer.
* `Sourced`: every peer comes from the routing table or from an answer that was waited for, and
  no other answer has an effect; `Unsolicited`: the answers that could break it.
* `shortlist_sourced_iff`: a run of either driver is sourced exactly when its unsolicited answers
  name no new peer; `unsolicited_answer_enters_shortlist`: they can.
-/

namespace Libp2pCat.Kad

open ByteString Effect Trace Std

variable {C : Crypto} {N : Type}

namespace Lookup

/-- The peer is on the shortlist. -/
def Lists (lookup : Lookup) (id : NodeId) : Prop :=
  ∃ (d : Distance) (e : LookupEntry), lookup.entries[d]? = some e ∧ e.nodeId = id

/-- The same peers at the same places; the statuses may differ. -/
def SamePeers (E E' : BTreeMap Distance LookupEntry) : Prop :=
  ∀ d : Distance, E'[d]?.map LookupEntry.nodeId = E[d]?.map LookupEntry.nodeId

lemma SamePeers.trans {E E' E'' : BTreeMap Distance LookupEntry} (h : SamePeers E E')
    (h' : SamePeers E' E'') : SamePeers E E'' := fun d => (h' d).trans (h d)

lemma samePeers_setStatus (E : BTreeMap Distance LookupEntry) (d : Distance) (s : LookupStatus) :
    SamePeers E (setStatus E d s) := by
  intro d'
  rw [getElem?_setStatus, Option.map_map]
  congr 1
  funext e
  simp only [Function.comp_apply]
  split <;> rfl

lemma samePeers_skip (target : NodeId) (pending : BTreeMap UdpAddr NodeId)
    (E : BTreeMap Distance LookupEntry) : SamePeers E (skip target pending E) := by
  intro d
  rw [getElem?_skip, Option.map_map]
  congr 1
  funext e
  simp only [Function.comp_apply]
  split <;> rfl

lemma samePeers_markActions (lookup : Lookup) (actions : List (NodeId × RoundAction)) :
    SamePeers lookup.entries (markActions lookup actions).entries := by
  induction actions generalizing lookup with
  | nil => exact fun _ => rfl
  | cons p rest ih =>
      obtain ⟨id, action⟩ := p
      rw [markActions_cons]
      refine SamePeers.trans ?_ (ih _)
      rw [entries_mark]
      exact samePeers_setStatus _ _ _

lemma SamePeers.exists_of {E E' : BTreeMap Distance LookupEntry} (h : SamePeers E E')
    {d : Distance} {e' : LookupEntry} (he' : E'[d]? = some e') :
    ∃ e, E[d]? = some e ∧ e.nodeId = e'.nodeId := by
  have hd := h d
  rw [he', Option.map_some] at hd
  exact Option.map_eq_some_iff.mp hd.symm

lemma SamePeers.lists {lookup lookup' : Lookup} {id : NodeId}
    (h : SamePeers lookup.entries lookup'.entries) (hlists : lookup'.Lists id) :
    lookup.Lists id := by
  obtain ⟨d, e, he, rfl⟩ := hlists
  obtain ⟨e', he', hid⟩ := h.exists_of he
  exact ⟨d, e', he', hid⟩

end Lookup

/-! ### One answer -/

/-- What is on a shortlist after a merge was there before or is advertised. -/
lemma getElem?_merge_of {selfId target : NodeId} {peers : List (NodeId × UdpAddr)}
    {E : BTreeMap Distance LookupEntry} {d : Distance} {e : LookupEntry}
    (h : (merge selfId target peers E)[d]? = some e) :
    E[d]? = some e ∨ ∃ a, (e.nodeId, a) ∈ peers := by
  rw [getElem?_merge] at h
  rcases Option.or_eq_some_iff.mp h with h | ⟨-, h⟩
  · exact Or.inl h
  · obtain ⟨p, hp, rfl⟩ := Option.map_eq_some_iff.mp h
    exact Or.inr ⟨p.2, List.mem_of_find?_eq_some hp⟩

/-- A merge changes nothing exactly when every peer is the own one or on the shortlist. -/
lemma merge_eq_iff {lookup : Lookup} (hsound : lookup.Sound) (peers : List (NodeId × UdpAddr)) :
    merge lookup.selfId lookup.target peers lookup.entries = lookup.entries ↔
      ∀ p ∈ peers, p.1 = lookup.selfId ∨ lookup.Lists p.1 := by
  constructor
  · intro heq p hp
    by_cases hself : p.1 = lookup.selfId
    · exact Or.inl hself
    · -- the place of the peer is taken, and by nobody else
      refine Or.inr ?_
      cases hentry : lookup.entries[p.1.distance lookup.target]? with
      | some e =>
          have hkey := hsound.keyed _ e hentry
          exact ⟨_, e, hentry, NodeId.distance_injective _ hkey⟩
      | none =>
          have hget : (merge lookup.selfId lookup.target peers
              lookup.entries)[p.1.distance lookup.target]? = _ := getElem?_merge _
          rw [heq, hentry, Option.none_or] at hget
          have hnone := List.find?_eq_none.mp (Option.map_eq_none_iff.mp hget.symm) p hp
          exact absurd (by simp [hself]) hnone
  · intro hknown
    refine ExtTreeMap.ext_getElem? fun d => ?_
    rw [getElem?_merge]
    cases hentry : lookup.entries[d]? with
    | some e => rw [Option.some_or]
    | none =>
        rw [Option.none_or, Option.map_eq_none_iff, List.find?_eq_none]
        intro p hp hsel
        obtain ⟨hself, rfl⟩ : p.1 ≠ lookup.selfId ∧ p.1.distance lookup.target = d := by
          simpa using hsel
        obtain ⟨d', e, he, hid⟩ := (hknown p hp).resolve_left hself
        rw [← hsound.keyed d' e he, hid] at he
        rw [he] at hentry
        cases hentry

namespace Lookup

/-- An answer that nobody waits for leaves the shortlist alone exactly when it names no new
peer. -/
lemma entries_recordResponse_eq_iff {lookup : Lookup} (hsound : lookup.Sound) {addr : UdpAddr}
    (haddr : addr ∉ lookup.pendingQueries) (peers : List (NodeId × UdpAddr)) :
    (lookup.recordResponse addr peers).1.entries = lookup.entries ↔
      ∀ p ∈ peers, p.1 = lookup.selfId ∨ lookup.Lists p.1 := by
  rw [entries_recordResponse, ExtTreeMap.getElem?_eq_none haddr]
  exact merge_eq_iff hsound peers

lemma lists_recordResponse {lookup : Lookup} {addr : UdpAddr} {peers : List (NodeId × UdpAddr)}
    {id : NodeId} (h : (lookup.recordResponse addr peers).1.Lists id) :
    lookup.Lists id ∨ ∃ a, (id, a) ∈ peers := by
  obtain ⟨d, e, he, rfl⟩ := h
  rw [entries_recordResponse] at he
  have hmerged : ∃ e', (merge lookup.selfId lookup.target peers lookup.entries)[d]? = some e' ∧
      e'.nodeId = e.nodeId := by
    split at he
    · exact (samePeers_setStatus _ _ _).exists_of he
    · exact ⟨e, he, rfl⟩
  obtain ⟨e', he', hid⟩ := hmerged
  rw [← hid]
  rcases getElem?_merge_of he' with h | h
  · exact Or.inl ⟨d, e', h, rfl⟩
  · exact Or.inr h

end Lookup

/-- The label of an answer. -/
def Label.answer (addr : UdpAddr) (peers : List (NodeId × UdpAddr)) : Label :=
  .received (some (.findNodeResponseReceived addr peers))

/-- Only an answer puts a new peer on the shortlist. -/
lemma PhaseStep.lists_of {p p' : Phase} {label : Label} {id : NodeId} (h : PhaseStep p label p')
    (hlists : p'.lookup.Lists id) :
    p.lookup.Lists id ∨ ∃ addr peers a, label = .answer addr peers ∧ (id, a) ∈ peers := by
  cases h with
  | pick hactions => exact Or.inl ((Lookup.samePeers_markActions _ _).lists hlists)
  | @recv lookup budget roundsLeft event hpending =>
      cases event with
      | findNodeResponseReceived addr peers =>
          rcases Lookup.lists_recordResponse hlists with h | ⟨a, ha⟩
          · exact Or.inl h
          · exact Or.inr ⟨addr, peers, a, rfl, ha⟩
      | handshakeComplete addr _ _ _ =>
          refine Or.inl (Lookup.SamePeers.lists ?_ hlists)
          simp only [Phase.lookup, Lookup.onEvent, Lookup.completeDial]
          split_ifs
          · split
            · exact Lookup.samePeers_setStatus _ _ _
            · exact fun _ => rfl
          · exact fun _ => rfl
      | _ => exact Or.inl hlists
  | close hstop =>
      refine Or.inl (Lookup.SamePeers.lists ?_ hlists)
      exact (Lookup.samePeers_skip _ _ _).trans (Lookup.samePeers_skip _ _ _)
  | _ => exact Or.inl hlists

/-! ### A run -/

namespace Party

variable (P : Party C N)

/-- Every peer of the shortlist comes from the given ones or from an answer of an address with a
query under way, and the other answers change neither the shortlist nor the result. -/
def Sourced (s₀ : Driven N) (initial : List (NodeId × UdpAddr)) (labels : List Label)
    (s : Driven N) : Prop :=
  (∀ id, s.phase.lookup.Lists id → (∃ a, (id, a) ∈ initial) ∨
    ∃ addr peers s₁ s₂, Run.Takes P.Move s₀ labels s s₁ (.answer addr peers) s₂ ∧
      addr ∈ s₁.phase.lookup.pendingQueries ∧ ∃ a, (id, a) ∈ peers) ∧
  ∀ addr peers s₁ s₂, Run.Takes P.Move s₀ labels s s₁ (.answer addr peers) s₂ →
    addr ∉ s₁.phase.lookup.pendingQueries →
      s₂.phase.lookup.entries = s₁.phase.lookup.entries ∧
      s₂.phase.lookup.topKResults = s₁.phase.lookup.topKResults

/-- The answers of addresses without a query under way name the own peer and peers on the
shortlist only. -/
def NamesNobodyNew (s₀ : Driven N) (selfId : NodeId) (labels : List Label) (s : Driven N) : Prop :=
  ∀ addr peers s₁ s₂, Run.Takes P.Move s₀ labels s s₁ (.answer addr peers) s₂ →
    addr ∉ s₁.phase.lookup.pendingQueries →
      ∀ p ∈ peers, p.1 = selfId ∨ s₁.phase.lookup.Lists p.1

variable {P}

/-- What an answer does to the lookup. -/
lemma Move.lookup_answer {s s' : Driven N} {addr : UdpAddr} {peers : List (NodeId × UdpAddr)}
    (h : P.Move s (.answer addr peers) s') :
    s'.phase.lookup = (s.phase.lookup.recordResponse addr peers).1 := by
  cases h with
  | recv hpending hrecv => rfl

/-- A run is sourced exactly when its unsolicited answers name nobody new. -/
lemma sourced_iff {node : N} {target : NodeId} {config : LookupConfig} {seeds : ℕ → Key}
    {w : World} {labels : List Label} {s : Driven N}
    (hrun : Run P.Move (P.start node target config seeds w) labels s) :
    P.Sourced (P.start node target config seeds w) ((P.table node).closestTo target config.k)
        labels s ↔
      P.NamesNobodyNew (P.start node target config seeds w) (P.table node).selfId labels s := by
  have hunchanged : ∀ {l₁ addr peers s₁ s₂},
      Run P.Move (P.start node target config seeds w) l₁ s₁ →
      P.Move s₁ (.answer addr peers) s₂ → addr ∉ s₁.phase.lookup.pendingQueries →
      (s₂.phase.lookup.entries = s₁.phase.lookup.entries ↔
        ∀ p ∈ peers, p.1 = (P.table node).selfId ∨ s₁.phase.lookup.Lists p.1) := by
    intro l₁ addr peers s₁ s₂ h₁ hmove haddr
    obtain ⟨hsound, hself⟩ := sound_of_run h₁
    rw [hmove.lookup_answer, Lookup.entries_recordResponse_eq_iff hsound haddr, hself]
  constructor
  · rintro ⟨-, hsame⟩ addr peers s₁ s₂ htakes haddr
    obtain ⟨l₁, l₂, -, h₁, hmove, -⟩ := id htakes
    exact (hunchanged h₁ hmove haddr).mp (hsame addr peers s₁ s₂ htakes haddr).1
  · intro hnames
    refine ⟨?_, ?_⟩
    · -- along the run: a peer that was not there is named by an answer that was waited for
      induction hrun with
      | nil =>
          rintro id ⟨d, e, he, rfl⟩
          obtain ⟨p, hp, -, rfl⟩ := Lookup.getElem?_new he
          exact Or.inl ⟨p.2, hp⟩
      | @snoc s s' l label hrun hmove ih =>
          have hbefore := ih fun addr peers s₁ s₂ htakes =>
            hnames addr peers s₁ s₂ (htakes.snoc hmove)
          intro id hlists
          by_cases hold : s.phase.lookup.Lists id
          · obtain h | ⟨addr, peers, s₁, s₂, htakes, hrest⟩ := hbefore id hold
            · exact Or.inl h
            · exact Or.inr ⟨addr, peers, s₁, s₂, htakes.snoc hmove, hrest⟩
          · obtain ⟨addr, peers, a, rfl, ha⟩ :=
              (hmove.phaseStep.lists_of hlists).resolve_left hold
            refine Or.inr ⟨addr, peers, s, s', hrun.takes_last hmove, ?_, a, ha⟩
            by_contra haddr
            have hentries := (hunchanged hrun hmove haddr).mpr
              (hnames addr peers s s' (hrun.takes_last hmove) haddr)
            refine hold ?_
            rwa [Lookup.Lists, ← hentries]
    · intro addr peers s₁ s₂ htakes haddr
      obtain ⟨l₁, l₂, -, h₁, hmove, -⟩ := id htakes
      have hentries := (hunchanged h₁ hmove haddr).mpr (hnames addr peers s₁ s₂ htakes haddr)
      refine ⟨hentries, ?_⟩
      have hconfig := hmove.phaseStep.sameParams.2.1
      rw [Lookup.topKResults, Lookup.topKResults, hentries, hconfig]

end Party

end Libp2pCat.Kad

namespace Libp2pCat.Mux

open ByteString Effect Trace Std Kad

variable {C : Crypto} {R : Pubsub.Rlnc} {A : Pubsub.PubsubAuth}

/-- In every run of either driver, every peer of the shortlist comes from the routing table or from
an answer that was waited for, and the other answers have no effect, exactly when these other
answers name only the own peer and peers that are on the shortlist when they are taken. -/
theorem shortlist_sourced_iff :
    (∀ (node : KademliaNode C) (target : NodeId) (config : LookupConfig) (seeds : ℕ → Key)
      (w : World) (labels : List Label) (s : Driven (KademliaNode C)),
      Run kadParty.Move (kadParty.start node target config seeds w) labels s →
      (kadParty.Sourced (kadParty.start node target config seeds w)
          (node.table.closestTo target config.k) labels s ↔
        kadParty.NamesNobodyNew (kadParty.start node target config seeds w) node.table.selfId
          labels s)) ∧
    ∀ (node : MultiProtocolNode C R A) (target : NodeId) (config : LookupConfig)
      (seeds : ℕ → Key) (w : World) (labels : List Label) (s : Driven (MultiProtocolNode C R A)),
      Run muxParty.Move (muxParty.start node target config seeds w) labels s →
      (muxParty.Sourced (muxParty.start node target config seeds w)
          (node.kadTable.closestTo target config.k) labels s ↔
        muxParty.NamesNobodyNew (muxParty.start node target config seeds w) node.kadTable.selfId
          labels s) :=
  ⟨fun _ _ _ _ _ _ _ hrun => Party.sourced_iff hrun,
    fun _ _ _ _ _ _ _ hrun => Party.sourced_iff hrun⟩

/-- An answer comes from an address with a query under way. -/
def waitedFor (s : Driven (KademliaNode sampleCrypto)) : Label → Bool
  | .received (some (.findNodeResponseReceived addr _)) =>
      s.phase.lookup.pendingQueries.contains addr
  | _ => true

lemma namesNobodyNew_of_waitedFor {n : ℕ} {s₀ s : Driven (KademliaNode sampleCrypto)}
    {labels : List Label} (h : kadParty.passesWithin waitedFor n s₀ = true) (selfId : NodeId) :
    kadParty.NamesNobodyNew s₀ selfId labels s := by
  rintro addr peers s₁ s₂ ⟨l₁, l₂, rfl, h₁, hmove, -⟩ haddr
  have hat := Party.check_of_passesWithin h h₁ hmove
  exact absurd (ExtTreeMap.mem_iff_contains.mpr hat) haddr

/-- When the connected peer is queried too, its answer is waited for, and the third peer comes
from it. -/
theorem shortlist_sourced_sample :
    ∃ (node : KademliaNode sampleCrypto) (labels : List Label)
      (s : Driven (KademliaNode sampleCrypto)),
      connectedNode = some node ∧ Run kadParty.Move (advertisedStart ⟨2, DEFAULT_K, 1, 1⟩ node) labels s ∧
      resultIds s = [⟨.replicate 32 5⟩, ⟨.replicate 32 4⟩, ⟨.replicate 32 6⟩] ∧
      kadParty.Sourced (advertisedStart ⟨2, DEFAULT_K, 1, 1⟩ node)
        (node.table.closestTo ⟨.replicate 32 5⟩ DEFAULT_K) labels s := by
  have hchecks : connectedNode.map (fun node =>
      (kadParty.passesWithin waitedFor 9 (advertisedStart ⟨2, DEFAULT_K, 1, 1⟩ node),
        resultIds (kadParty.walk 9 (advertisedStart ⟨2, DEFAULT_K, 1, 1⟩ node)).2))
        = some (true, [⟨.replicate 32 5⟩, ⟨.replicate 32 4⟩, ⟨.replicate 32 6⟩]) := by
    decide +kernel
  obtain ⟨node, hnode, hvalues⟩ := Option.map_eq_some_iff.mp hchecks
  obtain ⟨hwaited, hids⟩ := Prod.mk.inj hvalues
  have hrun := kadParty.run_walk 9 (advertisedStart ⟨2, DEFAULT_K, 1, 1⟩ node)
  have hiff := (shortlist_sourced_iff (R := Pubsub.sampleRlnc)
    (A := Pubsub.nullAuthenticator)).1 node ⟨.replicate 32 5⟩ ⟨2, DEFAULT_K, 1, 1⟩ _ _ _ _ hrun
  exact ⟨node, _, _, hnode, hrun, hids, hiff.mpr (namesNobodyNew_of_waitedFor hwaited _)⟩

/-- When only the unconnected peer is dialed, nobody waits for an answer of the connected one, yet
the peer that it advertises enters the shortlist and the result. -/
theorem unsolicited_answer_enters_shortlist :
    ∃ (node : KademliaNode sampleCrypto) (labels : List Label)
      (s : Driven (KademliaNode sampleCrypto)),
      connectedNode = some node ∧ Run kadParty.Move (advertisedStart ⟨1, DEFAULT_K, 1, 1⟩ node) labels s ∧
      (node.table.closestTo ⟨.replicate 32 5⟩ DEFAULT_K).map Prod.fst
        = [⟨.replicate 32 5⟩, ⟨.replicate 32 6⟩] ∧
      resultIds s = [⟨.replicate 32 5⟩, ⟨.replicate 32 4⟩, ⟨.replicate 32 6⟩] ∧
      ¬ kadParty.Sourced (advertisedStart ⟨1, DEFAULT_K, 1, 1⟩ node)
        (node.table.closestTo ⟨.replicate 32 5⟩ DEFAULT_K) labels s := by
  -- the answer is the fourth operation, after the pick, the dial and the start of the drain
  have hchecks : (connectedNode.bind fun node =>
      let s₁ := (kadParty.walk 3 (advertisedStart ⟨1, DEFAULT_K, 1, 1⟩ node)).2
      (kadParty.next s₁).map fun r =>
        (r.1, s₁.phase.lookup.pendingQueries.contains sampleAddr,
          [(node.table.closestTo ⟨.replicate 32 5⟩ DEFAULT_K).map Prod.fst, resultIds s₁,
            resultIds r.2, resultIds (kadParty.walk 9 r.2).2]))
        = some (.answer sampleAddr [(⟨.replicate 32 4⟩, .v4 ⟨.replicate 4 8, 9⟩)], false,
          [[⟨.replicate 32 5⟩, ⟨.replicate 32 6⟩], [⟨.replicate 32 5⟩, ⟨.replicate 32 6⟩],
            [⟨.replicate 32 5⟩, ⟨.replicate 32 4⟩, ⟨.replicate 32 6⟩],
            [⟨.replicate 32 5⟩, ⟨.replicate 32 4⟩, ⟨.replicate 32 6⟩]]) := by decide +kernel
  obtain ⟨node, hnode, hnext⟩ := Option.bind_eq_some_iff.mp hchecks
  obtain ⟨⟨label, s₂⟩, hs₂, hvalues⟩ := Option.map_eq_some_iff.mp hnext
  simp only [Prod.mk.injEq, List.cons.injEq, and_true] at hvalues
  obtain ⟨rfl, hpending, hseed, hbefore, hafter, hend⟩ := hvalues
  have hrun₁ := kadParty.run_walk 3 (advertisedStart ⟨1, DEFAULT_K, 1, 1⟩ node)
  have hmove := Party.move_iff_next.mpr hs₂
  have hrun₂ := kadParty.run_walk 9 s₂
  refine ⟨node, _, _, hnode, hrun₁.append (hrun₂.cons hmove), hseed, hend, fun hsourced => ?_⟩
  have haddr : sampleAddr ∉
      (kadParty.walk 3 (advertisedStart ⟨1, DEFAULT_K, 1, 1⟩ node)).2.phase.lookup.pendingQueries := by
    rw [ExtTreeMap.mem_iff_contains, hpending]
    nofun
  have hsame := hsourced.2 _ _ _ _ ⟨_, _, rfl, hrun₁, hmove, hrun₂⟩ haddr
  have hids : resultIds s₂ = resultIds (kadParty.walk 3 (advertisedStart ⟨1, DEFAULT_K, 1, 1⟩ node)).2 :=
    congrArg (List.map Prod.fst) hsame.2
  rw [hbefore, hafter] at hids
  exact absurd hids (by decide)

end Libp2pCat.Mux
