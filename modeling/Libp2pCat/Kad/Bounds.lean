import Libp2pCat.Kad.Driver
import Libp2pCat.Host.VerifiedPeers

/-!
Every lookup is bounded, and queries no peer twice.

* `Label.isQueryOf`, `Label.isAction`, `Label.isReceive`: what is counted.
* `Phase.queued`, `Phase.actionsLeft`, `Phase.recvsLeft`: what a phase may still do;
  `PhaseStep.count_actions`, `PhaseStep.count_recvs`: a step spends what it does.
* `Ledger`: a peer is queried at most once, and once it is, or is about to be, it is spent.
* `lookup_bounded`: the bounds for every run of the standalone driver.
-/

namespace Libp2pCat.Kad

open ByteString Effect Trace Std

variable {C : Crypto}

/-- The label is a query of this peer. -/
def Label.isQueryOf (id : NodeId) : Label → Bool
  | .acted id' (.query _) => id' = id
  | _ => false

/-- The label is a dial or a query. -/
def Label.isAction : Label → Bool
  | .acted _ _ => true
  | _ => false

/-- The label is a receive, failed ones included. -/
def Label.isReceive : Label → Bool
  | .received _ => true
  | _ => false

/-! ### Dials, queries and receives in total -/

/-- The dials and queries that a phase may still lead to. -/
def Phase.actionsLeft (alpha : ℕ) : Phase → ℕ
  | .head _ roundsLeft => alpha * roundsLeft
  | .sending actions _ roundsLeft => actions.length + alpha * roundsLeft
  | .draining _ _ roundsLeft => alpha * roundsLeft
  | .failed _ => 0

/-- The receives that a phase may still lead to. -/
def Phase.recvsLeft (perRound : ℕ) : Phase → ℕ
  | .head _ roundsLeft => roundsLeft * perRound
  | .sending _ _ roundsLeft => (roundsLeft + 1) * perRound
  | .draining _ budget roundsLeft => budget + roundsLeft * perRound
  | .failed _ => 0

lemma length_pickNextAlpha_le (lookup : Lookup) :
    lookup.pickNextAlpha.length ≤ lookup.config.alpha := by
  rw [Lookup.pickNextAlpha, List.length_map]
  exact List.length_take_le _ _

lemma PhaseStep.count_actions {p p' : Phase} {label : Label} (h : PhaseStep p label p') :
    [label].countP Label.isAction + p'.actionsLeft p.lookup.config.alpha
      ≤ p.actionsLeft p.lookup.config.alpha := by
  cases h with
  | @pick lookup roundsLeft actions hactions =>
      have hlen := length_pickNextAlpha_le lookup
      rw [← hactions, List.length_map] at hlen
      simp only [Phase.actionsLeft, Phase.lookup, List.countP_singleton, Label.isAction, Nat.mul_succ,
        Bool.false_eq_true, if_false]
      omega
  | act =>
      simp only [Phase.actionsLeft, List.countP_singleton, Label.isAction, List.length_cons, if_true]
      omega
  | actFails =>
      simp only [Phase.actionsLeft, List.countP_singleton, Label.isAction, List.length_cons, if_true]
      omega
  | _ => simp [Phase.actionsLeft, Label.isAction]

lemma PhaseStep.count_recvs {p p' : Phase} {label : Label} (h : PhaseStep p label p') :
    [label].countP Label.isReceive + p'.recvsLeft p.lookup.config.maxRecvPerRound
      ≤ p.recvsLeft p.lookup.config.maxRecvPerRound := by
  cases h with
  | listen =>
      simp only [Phase.recvsLeft, Phase.lookup, Nat.succ_mul, List.countP_singleton, Label.isReceive,
        Bool.false_eq_true, if_false]
      omega
  | recv hpending =>
      simp only [Phase.recvsLeft, List.countP_singleton, Label.isReceive, if_true]
      omega
  | recvFails hpending =>
      simp only [Phase.recvsLeft, List.countP_singleton, Label.isReceive, if_true]
      omega
  | _ => simp [Phase.recvsLeft, Label.isReceive]

/-- A run of the machine spends what its labels say. -/
lemma count_run {p₀ p : Phase} {labels : List Label} (h : Run PhaseStep p₀ labels p) :
    p.lookup.config = p₀.lookup.config ∧
      labels.countP Label.isAction + p.actionsLeft p₀.lookup.config.alpha
        ≤ p₀.actionsLeft p₀.lookup.config.alpha ∧
      labels.countP Label.isReceive + p.recvsLeft p₀.lookup.config.maxRecvPerRound
        ≤ p₀.recvsLeft p₀.lookup.config.maxRecvPerRound := by
  induction h with
  | nil => simp
  | snoc _ hstep ih =>
      obtain ⟨hconfig, hact, hrecv⟩ := ih
      have hact' := hstep.count_actions
      have hrecv' := hstep.count_recvs
      rw [hconfig] at hact' hrecv'
      refine ⟨hstep.sameParams.2.1.trans hconfig, ?_, ?_⟩
      · rw [List.countP_append]
        omega
      · rw [List.countP_append]
        omega

/-! ### One query for each peer -/

/-- The queries of a peer that a round still has to send. -/
def Phase.queued (id : NodeId) : Phase → ℕ
  | .sending actions _ _ => actions.countP fun p => (Label.acted p.1 p.2).isQueryOf id
  | _ => 0

/-- The peer is on the shortlist and was queried or given up. -/
def Lookup.HasSpent (lookup : Lookup) (id : NodeId) : Prop :=
  ∃ addr s, lookup.Has id addr s ∧ s.Spent

/-- No peer was queried twice, and one that was queried, or is about to be, is spent. -/
def Ledger (labels : List Label) (p : Phase) : Prop :=
  ∀ id, labels.countP (Label.isQueryOf id) + p.queued id ≤ 1 ∧
    (0 < labels.countP (Label.isQueryOf id) + p.queued id → p.lookup.HasSpent id)

lemma Lookup.HasSpent.keeps {lookup lookup' : Lookup} {id : NodeId} (h : lookup.HasSpent id)
    (htarget : lookup'.target = lookup.target) (hkeeps : Keeps lookup.entries lookup'.entries) :
    lookup'.HasSpent id := by
  obtain ⟨addr, s, hhas, hspent⟩ := h
  obtain ⟨s', hs', -, hspent'⟩ := hkeeps _ _ hhas
  refine ⟨addr, s', ?_, hspent' hspent⟩
  rw [Lookup.Has, htarget]
  exact hs'

/-- A peer that a round picks is not spent. -/
lemma Lookup.HasSpent.notMem {lookup : Lookup} {id : NodeId} (h : lookup.HasSpent id)
    {actions : List (NodeId × RoundAction)} (hpicks : lookup.Picks actions) :
    id ∉ actions.map Prod.fst := by
  intro hmem
  obtain ⟨p, hp, rfl⟩ := List.mem_map.mp hmem
  obtain ⟨addr, s, hhas, hspent⟩ := h
  have hunqueried := hpicks.2 p hp
  rw [Lookup.Has, hhas] at hunqueried
  cases hunqueried
  rcases hspent with h | h | h <;> cases h

lemma isQueryOf_acted_iff {id id' : NodeId} {action : RoundAction} :
    (Label.acted id' action).isQueryOf id = true ↔ id' = id ∧ ∃ addr, action = .query addr := by
  cases action <;> simp [Label.isQueryOf]

lemma countP_queries_le_one {actions : List (NodeId × RoundAction)}
    (h : (actions.map Prod.fst).Nodup) (id : NodeId) :
    (actions.countP fun p => (Label.acted p.1 p.2).isQueryOf id) ≤ 1 := by
  calc (actions.countP fun p => (Label.acted p.1 p.2).isQueryOf id)
      ≤ actions.countP (fun p => p.1 == id) := by
        refine List.countP_mono_left fun p _ hp => ?_
        exact beq_iff_eq.mpr (isQueryOf_acted_iff.mp hp).1
    _ = (actions.map Prod.fst).count id := by
        rw [List.count, List.countP_map]
        rfl
    _ ≤ 1 := List.nodup_iff_count_le_one.mp h id

lemma Ledger.pick {labels : List Label} {lookup : Lookup} {roundsLeft : ℕ}
    {actions : List (NodeId × RoundAction)} (hsound : lookup.Sound)
    (hactions : actions.map (fun p => (p.1, p.2.addr)) = lookup.pickNextAlpha)
    (h : Ledger labels (.head lookup (roundsLeft + 1))) :
    Ledger (labels ++ [.picked actions])
      (.sending actions (markActions lookup actions) roundsLeft) := by
  have hpicks := hsound.picks hactions
  obtain ⟨-, hkeeps, hstatus⟩ := hsound.markActions hpicks
  intro id
  obtain ⟨hle, hspent⟩ := h id
  have hone := countP_queries_le_one hpicks.1 id
  have hlabel : (labels ++ [Label.picked actions]).countP (Label.isQueryOf id)
      = labels.countP (Label.isQueryOf id) := by
    simp [List.countP_append, Label.isQueryOf]
  rw [hlabel]
  simp only [Phase.queued, Nat.add_zero] at hle hspent ⊢
  by_cases hzero : labels.countP (Label.isQueryOf id) = 0
  · -- not queried before: it is spent once it is picked to be queried
    rw [hzero, Nat.zero_add]
    refine ⟨hone, fun hpos => ?_⟩
    obtain ⟨p, hp, hquery⟩ := List.countP_pos_iff.mp hpos
    obtain ⟨rfl, addr, haction⟩ := isQueryOf_acted_iff.mp hquery
    have hhas := hstatus p hp
    rw [haction] at hhas
    exact ⟨_, _, hhas, Or.inl rfl⟩
  · -- queried before: it cannot be picked again
    have hhas := hspent (Nat.pos_of_ne_zero hzero)
    have hnot : (actions.countP fun p => (Label.acted p.1 p.2).isQueryOf id) = 0 := by
      refine List.countP_eq_zero.mpr fun p hp hquery => ?_
      have hid := (isQueryOf_acted_iff.mp hquery).1
      exact hhas.notMem hpicks (hid ▸ List.mem_map_of_mem hp)
    rw [hnot, Nat.add_zero]
    exact ⟨hle, fun _ => hhas.keeps (Lookup.sameParams_markActions _ _).1 hkeeps⟩

lemma Ledger.step {labels : List Label} {p p' : Phase} {label : Label} (hsound : p.lookup.Sound)
    (hstep : PhaseStep p label p') (h : Ledger labels p) : Ledger (labels ++ [label]) p' := by
  obtain ⟨-, hkeeps⟩ := hstep.sound hsound
  have htarget := hstep.sameParams.1
  cases hstep with
  | pick hactions => exact h.pick hsound hactions
  | act =>
      intro id
      obtain ⟨hle, hspent⟩ := h id
      simp only [Phase.queued, List.countP_cons, List.countP_append, List.countP_nil] at hle hspent ⊢
      exact ⟨by omega, fun hpos => hspent (by omega)⟩
  | actFails =>
      intro id
      obtain ⟨hle, hspent⟩ := h id
      simp only [Phase.queued, List.countP_cons, List.countP_append, List.countP_nil] at hle hspent ⊢
      exact ⟨by omega, fun hpos => hspent (by omega)⟩
  | _ =>
      intro id
      obtain ⟨hle, hspent⟩ := h id
      simp only [Phase.queued, List.countP_append, List.countP_nil, List.countP_cons,
        Label.isQueryOf, Bool.false_eq_true, if_false, Nat.add_zero] at hle hspent ⊢
      exact ⟨hle, fun hpos => (hspent hpos).keeps htarget hkeeps⟩

lemma ledger_run {p₀ p : Phase} {labels : List Label} (h : Run PhaseStep p₀ labels p)
    (hsound : p₀.lookup.Sound) (hstart : Ledger [] p₀) : Ledger labels p := by
  induction h with
  | nil => exact hstart
  | snoc hrun hstep ih => exact ih.step (sound_run hrun hsound).1 hstep

/-! ### Datagrams -/

/-- A receive takes one datagram at most. -/
lemma KademliaNode.length_received_recvOne {node : KademliaNode C} {seed : Key} {w w' : World}
    {r : Except Error (KademliaNode C × KadEvent)} (h : (node.recvOne seed).run w = (r, w')) :
    w'.received.length ≤ w.received.length + 1 := by
  rw [KademliaNode.recvOne, Host.recvOne, Io.flatMap_assoc] at h
  rcases hrecv : node.host.socket.recv.run w with ⟨e | ⟨⟨addr, datagram⟩, socket⟩, w₁⟩
  · rw [Io.run_flatMap_of_error hrecv] at h
    obtain ⟨-, rfl⟩ := Prod.mk.inj h
    rw [Io.run, UdpTransport.recv] at hrecv
    cases hnext : w.recvFrom 0 with
    | error e' =>
        rw [hnext] at hrecv
        obtain ⟨-, rfl⟩ := Prod.mk.inj hrecv
        exact Nat.le_succ _
    | ok d =>
        rw [hnext] at hrecv
        cases hrecv
  · rw [Io.run_flatMap_of_ok hrecv] at h
    obtain ⟨_, -, -, -, rfl⟩ := UdpTransport.recv_run_eq_ok_iff.mp hrecv
    have hkept := UdpTransport.received_send (w.afterRecv addr datagram).received
    have hrest := (Host.preserves_dispatchInbound { node.host with socket := socket } hkept addr
      datagram seed).flatMap fun r : Host C × HostEvent =>
        preserves_handleHostEvent hkept r.1 node.table r.2
    rw [hrest.of_run rfl h]
    exact (List.length_append).le

/-- A move of the standalone driver takes one datagram at most, and only when it receives. -/
lemma length_received_move {s s' : Driven (KademliaNode C)} {label : Label}
    (h : kadParty.Move s label s') :
    s'.world.received.length ≤ s.world.received.length + [label].countP Label.isReceive := by
  have hact : ∀ {action : RoundAction} {target : NodeId} {node : KademliaNode C} {w w' : World}
      {r : Except Error (KademliaNode C)}, (action.act target node).run w = (r, w') →
      w'.received.length ≤ w.received.length := by
    intro action target node w w' r hrun
    have hkept := UdpTransport.received_send w.received
    rw [(RoundAction.preserves_act hkept action target node).of_run rfl hrun]
  cases h with
  | act h => exact (hact h).trans (Nat.le_add_right _ _)
  | actFails h => exact (hact h).trans (Nat.le_add_right _ _)
  | recv hpending h => exact KademliaNode.length_received_recvOne h
  | recvFails hpending h => exact KademliaNode.length_received_recvOne h
  | _ => exact Nat.le_add_right _ _

lemma length_received_run {s₀ s : Driven (KademliaNode C)} {labels : List Label}
    (h : Run kadParty.Move s₀ labels s) :
    s.world.received.length ≤ s₀.world.received.length + labels.countP Label.isReceive := by
  induction h with
  | nil => exact Nat.le_add_right _ _
  | snoc _ hstep ih =>
      have hlast := length_received_move hstep
      rw [List.countP_append]
      omega

/-! ### The bounds -/

/-- In every run of a lookup, whatever is received: no peer is sent two queries, a peer that is
`Done` or `Skipped` stays so for the rest of the lookup, there are at most `alpha * maxRounds`
dials and queries, failed ones included, and at most `maxRounds * maxRecvPerRound` datagrams are
received. -/
theorem lookup_bounded {node : KademliaNode C} {target : NodeId} {config : LookupConfig}
    {seeds : ℕ → Key} {w : World} {labels : List Label} {s : Driven (KademliaNode C)}
    (hrun : Run kadParty.Move (kadParty.start node target config seeds w) labels s) :
    (∀ id, labels.countP (Label.isQueryOf id) ≤ 1) ∧
    (∀ l₁ l₂ s₁, Run kadParty.Move (kadParty.start node target config seeds w) l₁ s₁ →
      Run kadParty.Move s₁ l₂ s → ∀ (d : Distance) (e : LookupEntry),
        s₁.phase.lookup.entries[d]? = some e → e.status = .done ∨ e.status = .skipped →
          s.phase.lookup.entries[d]? = some e) ∧
    labels.countP Label.isAction ≤ config.alpha * config.maxRounds ∧
    labels.countP Label.isReceive ≤ config.maxRounds * config.maxRecvPerRound ∧
    s.world.received.length ≤ w.received.length + config.maxRounds * config.maxRecvPerRound := by
  have hsound := Lookup.sound_new node.table.selfId target config
    (node.table.closestTo target config.k)
  have hfresh : Ledger [] (kadParty.start node target config seeds w).phase := by
    intro id
    exact ⟨Nat.zero_le _, fun hpos => absurd hpos (Nat.lt_irrefl 0)⟩
  have hledger := ledger_run (Party.phase_run hrun) hsound hfresh
  obtain ⟨-, hact, hrecv⟩ := count_run (Party.phase_run hrun)
  have hactions : labels.countP Label.isAction ≤ config.alpha * config.maxRounds :=
    (Nat.le_add_right _ _).trans hact
  have hrecvs : labels.countP Label.isReceive ≤ config.maxRounds * config.maxRecvPerRound :=
    (Nat.le_add_right _ _).trans hrecv
  have hreceived := length_received_run hrun
  refine ⟨fun id => (Nat.le_add_right _ _).trans (hledger id).1, ?_, hactions, hrecvs, ?_⟩
  · intro l₁ l₂ s₁ h₁ h₂ d e he hfinal
    obtain ⟨-, hkeeps⟩ := sound_run (Party.phase_run h₂) (Party.sound_of_run h₁).1
    obtain ⟨status, hstatus, hsame, -⟩ := hkeeps d e he
    rw [hstatus, hsame hfinal]
  · exact hreceived.trans (Nat.add_le_add_left hrecvs _)

/-- The connected sample host as a node that knows its peer and one more, at another address. -/
def connectedNode : Option (KademliaNode sampleCrypto) :=
  connectedHost.map fun host =>
    let table := RoutingTable.new (.fromPeerId sampleCrypto host.identity.peerId) DEFAULT_K
    ⟨host, ((table.insert ⟨.replicate 32 6⟩ sampleAddr).1.insert ⟨.replicate 32 5⟩
      (.v4 ⟨.replicate 4 7, 9⟩)).1⟩

/-- A world in which the connected peer sends one plaintext over and over. -/
def answeringWorld (plaintext : Bytes) : World where
  recvFrom _ := .ok (sampleAddr, connectedDatagram plaintext)
  sendTo _ := .ok ()
  sent := []
  received := []

/-- The plaintext of an answer that advertises one peer. -/
def advertisement : Bytes :=
  Opcode.findNodeResp.toByte :: 1 :: encodeEntry (⟨.replicate 32 4⟩, .v4 ⟨.replicate 4 8, 9⟩)

/-- The start of a lookup of the unconnected peer, while the connected one advertises a third. -/
def advertisedStart (config : LookupConfig) (node : KademliaNode sampleCrypto) :
    Driven (KademliaNode sampleCrypto) :=
  kadParty.start node ⟨.replicate 32 5⟩ config (fun _ => .replicate 32 4)
    (answeringWorld advertisement)

/-- The peers that a lookup would return here. -/
def resultIds (s : Driven (KademliaNode sampleCrypto)) : List NodeId :=
  s.phase.lookup.topKResults.map Prod.fst

/-- A lookup of two rounds that queries the connected peer, learns a third peer from its answer
and dials the other two: no peer is queried twice, and at most four are acted on. -/
theorem lookup_bounded_sample :
    ∃ (node : KademliaNode sampleCrypto) (labels : List Label)
      (s : Driven (KademliaNode sampleCrypto)),
      connectedNode = some node ∧
      Run kadParty.Move (advertisedStart ⟨2, DEFAULT_K, 2, 2⟩ node) labels s ∧
      resultIds s = [⟨.replicate 32 5⟩, ⟨.replicate 32 4⟩, ⟨.replicate 32 6⟩] ∧
      (∀ id, labels.countP (Label.isQueryOf id) ≤ 1) ∧ labels.countP Label.isAction ≤ 2 * 2 ∧
      s.world.received.length ≤ 2 * 2 := by
  have hpeers : (connectedNode.map fun node =>
      resultIds (kadParty.walk 12 (advertisedStart ⟨2, DEFAULT_K, 2, 2⟩ node)).2)
        = some [⟨.replicate 32 5⟩, ⟨.replicate 32 4⟩, ⟨.replicate 32 6⟩] := by decide +kernel
  obtain ⟨node, hnode, hids⟩ := Option.map_eq_some_iff.mp hpeers
  have hrun := kadParty.run_walk 12 (advertisedStart ⟨2, DEFAULT_K, 2, 2⟩ node)
  obtain ⟨honce, -, hactions, -, hreceived⟩ := lookup_bounded hrun
  exact ⟨node, _, _, hnode, hrun, hids, honce, hactions, hreceived⟩

end Libp2pCat.Kad
