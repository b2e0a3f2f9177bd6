import Libp2pCat.Kad.Driver

/-!
What the traffic of a node teaches its routing table.

* `learn`, `lastListed`: the peers of an answer added to a table, and the address the answer has
  for a peer in the end.
* `tableAfter`: the table after an event; `KademliaNode.recvOne_table`: it is the one a receive
  leaves.
* `KademliaNode.Step`: the operations of a standalone node.  Lookups are runs of them
  (`KademliaNode.run_lookupNode`).
* `KademliaNode.run_wellFormed`: the table is well formed in every run.
* `SetsListed`, `setsListed_tableAfter`: an answer of another peer sets the address of every
  stored peer it lists, and leaves the others alone.
-/

namespace Libp2pCat.Kad

open ByteString Effect Trace RoutingTable

variable {C : Crypto} {N : Type}

/-! ### Answers -/

/-- The address an answer lists last for a peer. -/
def lastListed (peers : List (NodeId × UdpAddr)) (id : NodeId) : Option UdpAddr :=
  peers.reverse.lookup id

/-- A table with the peers of an answer. -/
def learn (table : RoutingTable) (peers : List (NodeId × UdpAddr)) : RoutingTable :=
  peers.foldl (fun acc p => if p.1 = acc.selfId then acc else (acc.insert p.1 p.2).1) table

variable {table : RoutingTable} {selfId : NodeId} {k : ℕ}

lemma lastListed_cons (p : NodeId × UdpAddr) (peers : List (NodeId × UdpAddr)) (id : NodeId) :
    lastListed (p :: peers) id = (lastListed peers id).or (if p.1 = id then some p.2 else none) := by
  rw [lastListed, List.reverse_cons, List.lookup_append]
  congr 1
  by_cases hid : p.1 = id
  · rw [if_pos hid, ← hid]
    exact List.lookup_cons_self
  · rw [if_neg hid, List.lookup_cons, beq_false_of_ne (Ne.symm hid)]
    rfl

/-- The peers of an answer are inserted one by one; the own identifier would not be stored in any
case. -/
lemma learn_cons (h : table.WellFormed selfId k) (p : NodeId × UdpAddr)
    (peers : List (NodeId × UdpAddr)) :
    learn table (p :: peers) = learn (table.insert p.1 p.2).1 peers := by
  rw [learn, List.foldl_cons]
  split
  · rename_i hself
    rcases h.insert_cases p.1 p.2 with ⟨-, hins⟩ | ⟨hne, -⟩ | ⟨hne, -⟩ | ⟨hne, -⟩
    · rw [hins]
      rfl
    · exact absurd (hself.trans h.selfId_eq) hne
    · exact absurd (hself.trans h.selfId_eq) hne
    · exact absurd (hself.trans h.selfId_eq) hne
  · rfl

lemma wellFormed_learn (h : table.WellFormed selfId k) (peers : List (NodeId × UdpAddr)) :
    (learn table peers).WellFormed selfId k := by
  induction peers generalizing table with
  | nil => exact h
  | cons p peers ih =>
      rw [learn_cons h]
      exact ih (h.insert p.1 p.2)

/-- An answer keeps what is stored, and sets the addresses it lists. -/
lemma addrOf_learn (h : table.WellFormed selfId k) {id : NodeId} {a : UdpAddr}
    (ha : table.addrOf id = some a) (peers : List (NodeId × UdpAddr)) :
    (learn table peers).addrOf id = some ((lastListed peers id).getD a) := by
  induction peers generalizing table a with
  | nil => exact ha
  | cons p peers ih =>
      rw [learn_cons h, ih (h.insert p.1 p.2) (h.addrOf_insert ha p.1 p.2), lastListed_cons]
      cases lastListed peers id with
      | some b => rfl
      | none =>
          by_cases hid : p.1 = id
          · simp [hid]
          · simp [hid]

lemma wellFormed_observe (h : table.WellFormed selfId k) (host : Host C) (addr : UdpAddr) :
    (observe host table addr).WellFormed selfId k := by
  rw [observe]
  split
  · exact h.insert _ _
  · exact h

/-- The verified peer behind a frame is the only one that can move. -/
lemma addrOf_observe (h : table.WellFormed selfId k) {host : Host C} {addr : UdpAddr} {id : NodeId}
    (hother : ∀ peerId, host.remotePeerIdOf addr = some peerId → NodeId.fromPeerId C peerId ≠ id)
    {a : UdpAddr} (ha : table.addrOf id = some a) :
    (observe host table addr).addrOf id = some a := by
  rw [observe]
  split
  · rename_i peerId hpeer
    rw [h.addrOf_insert ha, if_neg (hother peerId hpeer)]
  · exact ha

/-! ### Events -/

/-- The table after an event. -/
def tableAfter (host : Host C) (table : RoutingTable) : KadEvent → RoutingTable
  | .handshakeProgress _ | .rejected _ _ => table
  | .handshakeComplete addr _ _ remoteNodeId => (table.insert remoteNodeId addr).1
  | .pingRequestReceived addr | .pingResponseReceived addr | .findNodeRequestReceived addr _ _ =>
      observe host table addr
  | .findNodeResponseReceived addr peers => learn (observe host table addr) peers

lemma wellFormed_tableAfter (h : table.WellFormed selfId k) (host : Host C) (event : KadEvent) :
    (tableAfter host table event).WellFormed selfId k := by
  cases event with
  | handshakeProgress | rejected => exact h
  | handshakeComplete => exact h.insert _ _
  | pingRequestReceived | pingResponseReceived | findNodeRequestReceived =>
      exact wellFormed_observe h host _
  | findNodeResponseReceived => exact wellFormed_learn (wellFormed_observe h host _) _

/-- The table after a plaintext was processed, for every host that knows the same peer behind its
source; no plaintext completes a handshake. -/
lemma handleDatagram_table {host host₀ : Host C} {addr : UdpAddr} {plaintext : Bytes}
    {wrap : Bytes → Bytes} {node' : KademliaNode C} {event : KadEvent} {w w' : World}
    (hpeer : host.remotePeerIdOf addr = host₀.remotePeerIdOf addr)
    (h : (handleDatagram host table addr plaintext wrap).run w = (.ok (node', event), w')) :
    node'.table = tableAfter host₀ table event ∧
      ∀ a remoteStatic peerId id, event ≠ .handshakeComplete a remoteStatic peerId id := by
  have hobserve := observe_congr table hpeer
  rw [handleDatagram] at h
  split at h
  · cases h
    exact ⟨rfl, by rintro _ _ _ _ ⟨⟩⟩
  · rename_i frame hframe
    cases frame with
    | pingReq =>
        simp only [dispatchFrame, autoReplyPing] at h
        obtain ⟨bytes, w₁, -, h⟩ := Io.flatMap_run_eq_ok.mp h
        obtain ⟨host', -, hr⟩ := Io.map_run_eq_ok.mp h
        cases hr
        exact ⟨hobserve, by rintro _ _ _ _ ⟨⟩⟩
    | pingResp =>
        cases h
        exact ⟨hobserve, by rintro _ _ _ _ ⟨⟩⟩
    | findNodeReq target =>
        simp only [dispatchFrame, autoReplyFindNode] at h
        obtain ⟨bytes, w₁, -, h⟩ := Io.flatMap_run_eq_ok.mp h
        obtain ⟨host', -, hr⟩ := Io.map_run_eq_ok.mp h
        cases hr
        exact ⟨hobserve, by rintro _ _ _ _ ⟨⟩⟩
    | findNodeResp peers =>
        cases h
        exact ⟨congrArg (learn · peers) hobserve, by rintro _ _ _ _ ⟨⟩⟩

/-- A delivered datagram leaves the verified peer of its source as it was. -/
lemma remotePeerIdOf_of_delivered {host host' : Host C} {seed : Key} {addr : UdpAddr}
    {plaintext : Bytes} {w w' : World}
    (h : (host.recvOne seed).run w = (.ok (host', .datagramDelivered addr plaintext), w')) :
    host'.remotePeerIdOf addr = host.remotePeerIdOf addr := by
  obtain ⟨source, datagram, reply, -, hin, -⟩ := recvOne_run_eq_ok h
  rcases hin.of_opens with ⟨_, -, hev, -, hpeer, -⟩ | ⟨-, hother⟩
  · obtain ⟨rfl, -⟩ := HostEvent.datagramDelivered.inj hev
    exact hpeer
  · exact absurd rfl (hother addr plaintext)

/-- The table after a receive. -/
lemma KademliaNode.recvOne_table {node node' : KademliaNode C} {seed : Key} {event : KadEvent}
    {w w' : World} (h : (node.recvOne seed).run w = (.ok (node', event), w')) :
    node'.table = tableAfter node.host node.table event := by
  rw [KademliaNode.recvOne] at h
  obtain ⟨⟨host', hostEvent⟩, w₁, hrecv, h⟩ := Io.flatMap_run_eq_ok.mp h
  cases hostEvent with
  | handshakeProgress | handshakeComplete | rejected =>
      cases h
      rfl
  | datagramDelivered addr plaintext =>
      exact (handleDatagram_table (remotePeerIdOf_of_delivered hrecv) h).1

/-! ### Operations -/

/-- The operations of a node, with the event they return if they react to something.  Between
`split` and `join` the host and the table can be operated on alone. -/
inductive KademliaNode.Step :
    KademliaNode C × World → Option KadEvent → KademliaNode C × World → Prop where
  | dial {node node' : KademliaNode C} {w w' : World} {addr : UdpAddr} {ephemeralSeed : Key} :
      (node.dial addr ephemeralSeed).run w = (.ok node', w') → Step (node, w) none (node', w')
  | ping {node node' : KademliaNode C} {w w' : World} {peer : UdpAddr} :
      (node.ping peer).run w = (.ok node', w') → Step (node, w) none (node', w')
  | findNode {node node' : KademliaNode C} {w w' : World} {peer : UdpAddr} {target : NodeId} :
      (node.findNode peer target).run w = (.ok node', w') → Step (node, w) none (node', w')
  | recvOne {node node' : KademliaNode C} {w w' : World} {ephemeralSeed : Key} {event : KadEvent} :
      (node.recvOne ephemeralSeed).run w = (.ok (node', event), w') →
      Step (node, w) (some event) (node', w')
  | processPlaintextWithWrap {node node' : KademliaNode C} {w w' : World} {addr : UdpAddr}
      {plaintext : Bytes} {wrap : Bytes → Bytes} {event : KadEvent} :
      (node.processPlaintextWithWrap addr plaintext wrap).run w = (.ok (node', event), w') →
      Step (node, w) (some event) (node', w')
  | splitHost {host host' : Host C} {table : RoutingTable} {w w' : World} {l : HostLabel} :
      Host.Step (host, w) l (host', w') → Step (⟨host, table⟩, w) none (⟨host', table⟩, w')
  | splitTable (host : Host C) (table : RoutingTable) (w : World) (op : RoutingTable.Op) :
      Step (⟨host, table⟩, w) none (⟨host, table.apply op⟩, w)

lemma KademliaNode.sendFrame_table {node node' : KademliaNode C} {peer : UdpAddr} {frame : Frame}
    {w w' : World} (h : (node.sendFrame peer frame).run w = (.ok node', w')) :
    node'.table = node.table := by
  rw [KademliaNode.sendFrame] at h
  obtain ⟨bytes, w₁, -, h⟩ := Io.flatMap_run_eq_ok.mp h
  obtain ⟨host', -, rfl⟩ := Io.map_run_eq_ok.mp h
  rfl

/-- What an operation does to the table: it goes by the event, or the table is operated on. -/
lemma KademliaNode.Step.teaches {s s' : KademliaNode C × World} {x : Option KadEvent}
    (h : KademliaNode.Step s x s') :
    (∀ event, x = some event → s'.1.table = tableAfter s.1.host s.1.table event) ∧
      (x = none → s'.1.table = s.1.table ∨ ∃ op, s'.1.table = s.1.table.apply op) := by
  cases h with
  | dial hrun =>
      obtain ⟨host', -, rfl⟩ := Io.map_run_eq_ok.mp hrun
      exact ⟨nofun, fun _ => Or.inl rfl⟩
  | ping hrun | findNode hrun =>
      exact ⟨nofun, fun _ => Or.inl (KademliaNode.sendFrame_table hrun)⟩
  | recvOne hrun =>
      refine ⟨fun event hev => ?_, nofun⟩
      cases hev
      exact KademliaNode.recvOne_table hrun
  | processPlaintextWithWrap hrun =>
      refine ⟨fun event hev => ?_, nofun⟩
      cases hev
      exact (handleDatagram_table rfl hrun).1
  | splitHost => exact ⟨nofun, fun _ => Or.inl rfl⟩
  | splitTable _ _ _ op => exact ⟨nofun, fun _ => Or.inr ⟨op, rfl⟩⟩

/-- The table of a node is well formed in every run. -/
lemma KademliaNode.run_wellFormed {host : Host C} {k : ℕ} {w : World} {l : List (Option KadEvent)}
    {s : KademliaNode C × World} (h : Run KademliaNode.Step (.new host k, w) l s) :
    s.1.table.WellFormed (.fromPeerId C host.identity.peerId) k := by
  refine h.invariant (P := fun s => s.1.table.WellFormed (.fromPeerId C host.identity.peerId) k)
    ?_ (wellFormed_new _ k)
  rintro s (_ | event) s' hs hstep
  · rcases hstep.teaches.2 rfl with hsame | ⟨op, hop⟩
    · rwa [hsame]
    · rw [hop]
      exact hs.run [op]
  · rw [hstep.teaches.1 event rfl]
    exact wellFormed_tableAfter hs _ event

/-! ### Lookups -/

/-- The moves of a lookup, up to a failure, are operations of its node. -/
lemma Party.run_of_moves {P : Party C N} {R : N × World → Option KadEvent → N × World → Prop}
    (hact : ∀ {action target node node' w w'},
      (P.act action target node).run w = (.ok node', w') → R (node, w) none (node', w'))
    (hrecv : ∀ {node node' seed event w w'},
      (P.recvOne node seed).run w = (.ok (node', event), w') → R (node, w) (some event) (node', w'))
    {s s' : Driven N} {labels : List Label} (h : Run P.Move s labels s')
    (hgoes : ∀ lookup, s'.phase ≠ .failed lookup) :
    ∃ l, Run R (s.node, s.world) l (s'.node, s'.world) := by
  induction h with
  | nil => exact ⟨[], .nil _⟩
  | @snoc t t' labels label hrun hmove ih =>
      -- nothing moves after a failure
      have hbefore : ∀ lookup, t.phase ≠ .failed lookup := by
        intro lookup hfailed
        cases hmove <;> cases hfailed
      obtain ⟨l, hl⟩ := ih hbefore
      cases hmove with
      | pick | listen | close => exact ⟨l, hl⟩
      | act hacted => exact ⟨_, hl.snoc (hact hacted)⟩
      | recv _ hreceived => exact ⟨_, hl.snoc (hrecv hreceived)⟩
      | actFails | recvFails => exact absurd rfl (hgoes _)

/-- A lookup that returns is a run of operations of its node. -/
lemma Party.run_lookup {P : Party C N} {R : N × World → Option KadEvent → N × World → Prop}
    (hact : ∀ {action target node node' w w'},
      (P.act action target node).run w = (.ok node', w') → R (node, w) none (node', w'))
    (hrecv : ∀ {node node' seed event w w'},
      (P.recvOne node seed).run w = (.ok (node', event), w') → R (node, w) (some event) (node', w'))
    {node node' : N} {target : NodeId} {config : LookupConfig} {seeds : ℕ → Key}
    {peers : List (NodeId × UdpAddr)} {w w' : World}
    (h : (P.lookup node target config seeds).run w = (.ok (node', peers), w')) :
    ∃ l, Run R (node, w) l (node', w') := by
  rw [Party.lookup] at h
  obtain ⟨⟨node₁, lookup⟩, hdrive, hr⟩ := Io.map_run_eq_ok.mp h
  cases hr
  obtain ⟨labels, seeds', left, hrun, -⟩ := Party.drive_run_ok hdrive
  exact Party.run_of_moves hact hrecv hrun (by rintro _ ⟨⟩)

/-- The lookups of a standalone node are runs of its operations. -/
lemma KademliaNode.run_lookupNode {node node' : KademliaNode C} {target : NodeId}
    {config : LookupConfig} {seeds : ℕ → Key} {peers : List (NodeId × UdpAddr)} {w w' : World}
    (h : (node.lookupNode target config seeds).run w = (.ok (node', peers), w')) :
    ∃ l, Run KademliaNode.Step (node, w) l (node', w') := by
  rw [KademliaNode.lookupNode_eq_lookup] at h
  refine kadParty.run_lookup (fun {action target _ _ _ _} hact => ?_) (fun hrecv => .recvOne hrecv) h
  cases action with
  | query => exact .findNode hact
  | dial => exact .dial hact

/-! ### What an answer of another peer does -/

variable (C) in
/-- If the event is an answer of another peer, it sets the address of a stored peer to the one it
lists last, and leaves a stored peer that it does not list alone. -/
def SetsListed (host : Host C) (table : RoutingTable) (event : KadEvent) (table' : RoutingTable) :
    Prop :=
  ∀ addr peers id a, event = .findNodeResponseReceived addr peers →
    (∀ peerId, host.remotePeerIdOf addr = some peerId → NodeId.fromPeerId C peerId ≠ id) →
    table.addrOf id = some a → table'.addrOf id = some ((lastListed peers id).getD a)

lemma setsListed_tableAfter (h : table.WellFormed selfId k) (host : Host C) (event : KadEvent) :
    SetsListed C host table event (tableAfter host table event) := by
  rintro addr peers id a rfl hother ha
  exact addrOf_learn (wellFormed_observe h host addr) (addrOf_observe h hother ha) peers

end Libp2pCat.Kad
