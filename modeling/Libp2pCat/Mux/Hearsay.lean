import Libp2pCat.Mux.Driver
import Libp2pCat.Kad.Hearsay
import Libp2pCat.Host.VerifiedPeers

/-!
What answers do to the routes a node has verified, standalone and inside the multiplexer.

* `MultiProtocolNode.Step`: the operations of the multiplexer; lookups are runs of them
  (`MultiProtocolNode.run_lookupNode`).
* `MultiProtocolNode.recvOne_table`: a receive teaches the table what it teaches that of a
  standalone node.
* `answers_set_listed`: an answer of another peer sets the address of every stored peer it lists,
  verified or not, and of no other; `verified_route_overwritten`: so it overwrites a verified one.
-/

namespace Libp2pCat.Mux

open ByteString Effect Kad Trace RoutingTable

variable {C : Crypto} {R : Pubsub.Rlnc} {A : Pubsub.PubsubAuth}

/-! ### Receiving -/

/-- A plaintext teaches the table what its event says, for every host that knows the same peer
behind its source. -/
lemma dispatchPlaintext_table {host host₀ : Host C} {pubsubState : Pubsub.PubsubState R A}
    {kadTable : RoutingTable} {addr : UdpAddr} {plaintext : Bytes}
    {relayRng : ℕ → Except String Bytes} {node' : MultiProtocolNode C R A}
    {event : MultiProtocolEvent} {w w' : World}
    (hpeer : host.remotePeerIdOf addr = host₀.remotePeerIdOf addr)
    (h : (dispatchPlaintext host pubsubState kadTable addr plaintext relayRng).run w
      = (.ok (node', event), w')) :
    node'.kadTable = tableAfter host₀ kadTable event.kadView := by
  rw [dispatchPlaintext] at h
  split_ifs at h
  · rw [dispatchPubsub] at h
    obtain ⟨⟨mux, muxEvent⟩, -, hr⟩ := Io.map_run_eq_ok.mp h
    cases hr
    cases muxEvent <;> rfl
  · rw [dispatchKad, KademliaNode.processPlaintextWithWrap] at h
    obtain ⟨⟨node, kadEvent⟩, hkad, hr⟩ := Io.map_run_eq_ok.mp h
    cases hr
    obtain ⟨htable, hplain⟩ := handleDatagram_table hpeer hkad
    cases kadEvent with
    | handshakeComplete => exact absurd rfl (hplain _ _ _ _)
    | _ => exact htable
  · rw [dispatchRendezvous] at h
    obtain ⟨⟨node, rendezvousEvent⟩, -, hr⟩ := Io.map_run_eq_ok.mp h
    cases hr
    cases rendezvousEvent <;> rfl
  · cases h
    rfl
  · cases h
    rfl
  · cases h
    rfl

/-- A receive teaches the table what its event says. -/
lemma MultiProtocolNode.recvOne_table {node node' : MultiProtocolNode C R A} {seed : Key}
    {relayRng : ℕ → Except String Bytes} {event : MultiProtocolEvent} {w w' : World}
    (h : (node.recvOne seed relayRng).run w = (.ok (node', event), w')) :
    node'.kadTable = tableAfter node.host node.kadTable event.kadView := by
  rw [MultiProtocolNode.recvOne] at h
  obtain ⟨⟨host', hostEvent⟩, w₁, hrecv, h⟩ := Io.flatMap_run_eq_ok.mp h
  cases hostEvent with
  | handshakeProgress | handshakeComplete | rejected =>
      cases h
      rfl
  | datagramDelivered addr plaintext =>
      exact dispatchPlaintext_table (remotePeerIdOf_of_delivered hrecv) h

/-! ### Operations -/

/-- The operations of the multiplexer, with what a lookup sees of the event of a receive. -/
inductive MultiProtocolNode.Step :
    MultiProtocolNode C R A × World → Option KadEvent → MultiProtocolNode C R A × World → Prop where
  | dial {node node' : MultiProtocolNode C R A} {w w' : World} {addr : UdpAddr} {seed : Key} :
      (node.dial addr seed).run w = (.ok node', w') → Step (node, w) none (node', w')
  | registerTopic (node : MultiProtocolNode C R A) (w : World) (topic : Pubsub.Topic)
      (pieceCount pieceByteLen : ℕ) (commitment : A.Commitment) :
      Step (node, w) none (node.registerTopic topic pieceCount pieceByteLen commitment, w)
  | registerRelay (node : MultiProtocolNode C R A) (w : World) (topic : Pubsub.Topic)
      (pieceCount pieceByteLen : ℕ) (commitment : A.Commitment) :
      Step (node, w) none (node.registerRelay topic pieceCount pieceByteLen commitment, w)
  | unregisterTopic (node : MultiProtocolNode C R A) (w : World) (topic : Pubsub.Topic) :
      Step (node, w) none (node.unregisterTopic topic, w)
  | unregisterRelay (node : MultiProtocolNode C R A) (w : World) (topic : Pubsub.Topic) :
      Step (node, w) none (node.unregisterRelay topic, w)
  | evictIdleTopics (node : MultiProtocolNode C R A) (w : World) (maxIdleTicks : UInt64) :
      Step (node, w) none ((node.evictIdleTopics maxIdleTicks).1, w)
  | evictIdleRelays (node : MultiProtocolNode C R A) (w : World) (maxIdleTicks : UInt64) :
      Step (node, w) none ((node.evictIdleRelays maxIdleTicks).1, w)
  | sendApp {node node' : MultiProtocolNode C R A} {w w' : World} {addr : UdpAddr}
      {payload : Bytes} :
      (node.sendApp addr payload).run w = (.ok node', w') → Step (node, w) none (node', w')
  | broadcast {node node' : MultiProtocolNode C R A} {w w' : World} {topic : Pubsub.Topic}
      {pieceCount pieceByteLen : ℕ} {pieces : Except String (List (Pubsub.WirePiece A))} :
      (node.broadcast topic pieceCount pieceByteLen pieces).run w = (.ok node', w') →
      Step (node, w) none (node', w')
  | kadPing {node node' : MultiProtocolNode C R A} {w w' : World} {peer : UdpAddr} :
      (node.kadPing peer).run w = (.ok node', w') → Step (node, w) none (node', w')
  | kadFindNode {node node' : MultiProtocolNode C R A} {w w' : World} {peer : UdpAddr}
      {target : NodeId} :
      (node.kadFindNode peer target).run w = (.ok node', w') → Step (node, w) none (node', w')
  | sendRpc {node node' : MultiProtocolNode C R A} {w w' : World} {peer : UdpAddr} {body : Bytes} :
      (node.sendRpc peer body).run w = (.ok node', w') → Step (node, w) none (node', w')
  | sendObserveReq {node node' : MultiProtocolNode C R A} {w w' : World} {server : UdpAddr} :
      (node.sendObserveReq server).run w = (.ok node', w') → Step (node, w) none (node', w')
  | sendPunchReq {node node' : MultiProtocolNode C R A} {w w' : World} {server target : UdpAddr} :
      (node.sendPunchReq server target).run w = (.ok node', w') → Step (node, w) none (node', w')
  | recvOne {node node' : MultiProtocolNode C R A} {w w' : World} {seed : Key}
      {relayRng : ℕ → Except String Bytes} {event : MultiProtocolEvent} :
      (node.recvOne seed relayRng).run w = (.ok (node', event), w') →
      Step (node, w) (some event.kadView) (node', w')

lemma MultiProtocolNode.sendKadFrame_kadTable {node node' : MultiProtocolNode C R A}
    {peer : UdpAddr} {frame : Kad.Frame} {w w' : World}
    (h : (node.sendKadFrame peer frame).run w = (.ok node', w')) :
    node'.kadTable = node.kadTable := by
  rw [MultiProtocolNode.sendKadFrame] at h
  obtain ⟨body, w₁, -, h⟩ := Io.flatMap_run_eq_ok.mp h
  obtain ⟨host', -, rfl⟩ := Io.map_run_eq_ok.mp h
  rfl

lemma MultiProtocolNode.sendRendezvousFrame_kadTable {node node' : MultiProtocolNode C R A}
    {peer : UdpAddr} {frame : Rendezvous.Frame} {w w' : World}
    (h : (node.sendRendezvousFrame peer frame).run w = (.ok node', w')) :
    node'.kadTable = node.kadTable := by
  rw [MultiProtocolNode.sendRendezvousFrame] at h
  obtain ⟨body, w₁, -, h⟩ := Io.flatMap_run_eq_ok.mp h
  obtain ⟨host', -, rfl⟩ := Io.map_run_eq_ok.mp h
  rfl

/-- What an operation teaches the table: what its event says, if it receives something. -/
lemma MultiProtocolNode.Step.teaches {s s' : MultiProtocolNode C R A × World}
    {x : Option KadEvent} (h : MultiProtocolNode.Step s x s') :
    (∀ event, x = some event → s'.1.kadTable = tableAfter s.1.host s.1.kadTable event) ∧
      (x = none → s'.1.kadTable = s.1.kadTable) := by
  cases h with
  | registerTopic | registerRelay | unregisterTopic | unregisterRelay | evictIdleTopics
  | evictIdleRelays => exact ⟨nofun, fun _ => rfl⟩
  | dial hrun | sendApp hrun | broadcast hrun | sendRpc hrun =>
      obtain ⟨_, -, rfl⟩ := Io.map_run_eq_ok.mp hrun
      exact ⟨nofun, fun _ => rfl⟩
  | kadPing hrun | kadFindNode hrun =>
      exact ⟨nofun, fun _ => MultiProtocolNode.sendKadFrame_kadTable hrun⟩
  | sendObserveReq hrun | sendPunchReq hrun =>
      exact ⟨nofun, fun _ => MultiProtocolNode.sendRendezvousFrame_kadTable hrun⟩
  | recvOne hrun =>
      refine ⟨fun event hev => ?_, nofun⟩
      cases hev
      exact MultiProtocolNode.recvOne_table hrun

/-- The table of the multiplexer is well formed in every run. -/
lemma MultiProtocolNode.run_wellFormed {host : Host C} {k : ℕ} {w : World}
    {l : List (Option KadEvent)} {s : MultiProtocolNode C R A × World}
    (h : Run MultiProtocolNode.Step (.new host k, w) l s) :
    s.1.kadTable.WellFormed (.fromPeerId C host.identity.peerId) k := by
  refine h.invariant (P := fun s => s.1.kadTable.WellFormed (.fromPeerId C host.identity.peerId) k)
    ?_ (wellFormed_new _ k)
  rintro s (_ | event) s' hs hstep
  · rwa [hstep.teaches.2 rfl]
  · rw [hstep.teaches.1 event rfl]
    exact wellFormed_tableAfter hs _ event

/-- The lookups of the multiplexer are runs of its operations. -/
lemma MultiProtocolNode.run_lookupNode {node node' : MultiProtocolNode C R A} {target : NodeId}
    {config : LookupConfig} {seeds : ℕ → Key} {peers : List (NodeId × UdpAddr)} {w w' : World}
    (h : (node.lookupNode target config seeds).run w = (.ok (node', peers), w')) :
    ∃ l, Run MultiProtocolNode.Step (node, w) l (node', w') := by
  rw [MultiProtocolNode.lookupNode_eq_lookup] at h
  refine muxParty.run_lookup (fun {action target _ _ _ _} hact => ?_) (fun hrecv => ?_) h
  · cases action with
    | query => exact .kadFindNode hact
    | dial => exact .dial hact
  · obtain ⟨⟨node₁, event⟩, hrun, hr⟩ := Io.map_run_eq_ok.mp hrecv
    cases hr
    exact .recvOne hrun

/-! ### Answers and verified routes -/

/-- Answers of other peers.  In every state of a node, standalone or in the multiplexer, an answer of
a peer keeps every other stored peer, sets its address to the one the answer lists last for it if
there is one, and leaves it alone otherwise, whether or not the address was verified. -/
theorem answers_set_listed (host : Host C) (k : ℕ) (w₀ : World) :
    (∀ l s event s', Run KademliaNode.Step (.new host k, w₀) l s →
      KademliaNode.Step s (some event) s' →
      SetsListed C s.1.host s.1.table event s'.1.table) ∧
    (∀ l (s : MultiProtocolNode C R A × World) event s',
      Run MultiProtocolNode.Step (.new host k, w₀) l s →
      MultiProtocolNode.Step s (some event) s' →
      SetsListed C s.1.host s.1.kadTable event s'.1.kadTable) := by
  refine ⟨fun l s event s' hrun hstep => ?_, fun l s event s' hrun hstep => ?_⟩
  · rw [hstep.teaches.1 event rfl]
    exact setsListed_tableAfter (KademliaNode.run_wellFormed hrun) _ event
  · rw [hstep.teaches.1 event rfl]
    exact setsListed_tableAfter (MultiProtocolNode.run_wellFormed hrun) _ event

/-- The address of a second peer of the sample node. -/
def gossipAddr : UdpAddr := .v4 ⟨.replicate 4 6, 9⟩

/-- An address nobody was seen at. -/
def hearsayAddr : UdpAddr := .v4 ⟨.replicate 4 8, 9⟩

/-- The verified identities of the sample peer and of the second one. -/
def samplePeerId : PeerId := .fromEd25519 (.replicate 32 1)
def gossipPeerId : PeerId := .fromEd25519 (.replicate 32 6)

/-- The route of the sample peer as the second peer advertises it. -/
def hearsay : List (NodeId × UdpAddr) :=
  [(.fromPeerId sampleCrypto samplePeerId, hearsayAddr)]

/-- The frame that advertises it. -/
def hearsayFrame : Bytes := (Kad.encode (.findNodeResp hearsay)).toOption.getD []

/-- A world in which two peers complete a handshake, and the second one sends the frame. -/
def hearsayWorld : World where
  recvFrom k :=
    if k = 0 then .ok (sampleAddr, sampleMsg1WithCookie)
    else if k = 1 then .ok (sampleAddr, sampleMsg3)
    else if k = 2 then .ok (gossipAddr, List.replicate 32 3 ++
      (Cookie.mint sampleCrypto (.replicate 32 2) gossipAddr (List.replicate 32 3)).bytes)
    else if k = 3 then .ok (gossipAddr,
      (List.replicate 32 1 ++ ([0, 0, 0, 0, 1, 0, 0, 0, 0, 0, 0, 0] ++ [51, 69, 75, 65])) ++
        (List.replicate 96 6 ++ (List.replicate 12 0 ++ [51, 69, 75, 65])))
    else .ok (gossipAddr, connectedDatagram hearsayFrame)
  sendTo _ := .ok ()
  sent := []
  received := []

/-- A number of receives of a node. -/
def receives : ℕ → KademliaNode C × World → Option (List KadEvent × (KademliaNode C × World))
  | 0, s => some ([], s)
  | n + 1, s =>
      match (s.1.recvOne (.replicate 32 4)).run s.2 with
      | (.ok (node, event), w) => (receives n (node, w)).map fun r => (event :: r.1, r.2)
      | (.error _, _) => none

lemma run_of_receives {n : ℕ} {s s' : KademliaNode C × World} {events : List KadEvent}
    (h : receives n s = some (events, s')) : Run KademliaNode.Step s (events.map some) s' := by
  induction n generalizing s events with
  | zero =>
      cases h
      exact .nil _
  | succ n ih =>
      rw [receives] at h
      split at h
      · rename_i node event w hrun
        obtain ⟨⟨events', t⟩, hrest, hr⟩ := Option.map_eq_some_iff.mp h
        cases hr
        exact (ih hrest).cons (.recvOne hrun)
      · cases h

/-- The address the table of a state has for the sample peer. -/
def sampleRoute (s : KademliaNode sampleCrypto × World) : Option UdpAddr :=
  s.1.table.addrOf (.fromPeerId sampleCrypto samplePeerId)

/-- The sample node in this world: once the first peer is verified, once the second one is, and
after the frame. -/
lemma hearsay_arrives :
    ∃ s₁ s₂ s₃ : KademliaNode sampleCrypto × World,
      Run KademliaNode.Step (.new (sampleHost 2) DEFAULT_K, hearsayWorld)
        [some (.handshakeProgress sampleAddr), some (.handshakeComplete sampleAddr
          (.replicate 32 1) samplePeerId (.fromPeerId sampleCrypto samplePeerId))] s₁ ∧
      sampleRoute s₁ = some sampleAddr ∧
      Run KademliaNode.Step s₁
        [some (.handshakeProgress gossipAddr), some (.handshakeComplete gossipAddr
          (.replicate 32 1) gossipPeerId (.fromPeerId sampleCrypto gossipPeerId))] s₂ ∧
      sampleRoute s₂ = some sampleAddr ∧ s₂.1.host.remotePeerIdOf gossipAddr = some gossipPeerId ∧
      KademliaNode.Step s₂ (some (.findNodeResponseReceived gossipAddr hearsay)) s₃ ∧
      sampleRoute s₃ = some hearsayAddr := by
  have hall : ((receives 2 (.new (sampleHost 2) DEFAULT_K, hearsayWorld)).bind fun r₁ =>
      (receives 2 r₁.2).bind fun r₂ => (receives 1 r₂.2).map fun r₃ =>
        ([r₁.1, r₂.1, r₃.1], [sampleRoute r₁.2, sampleRoute r₂.2, sampleRoute r₃.2],
          r₂.2.1.host.remotePeerIdOf gossipAddr))
      = some ([[.handshakeProgress sampleAddr, .handshakeComplete sampleAddr (.replicate 32 1)
            samplePeerId (.fromPeerId sampleCrypto samplePeerId)],
          [.handshakeProgress gossipAddr, .handshakeComplete gossipAddr (.replicate 32 1)
            gossipPeerId (.fromPeerId sampleCrypto gossipPeerId)],
          [.findNodeResponseReceived gossipAddr hearsay]],
        [some sampleAddr, some sampleAddr, some hearsayAddr], some gossipPeerId) := by
    decide +kernel
  obtain ⟨⟨events₁, s₁⟩, h₁, hall⟩ := Option.bind_eq_some_iff.mp hall
  obtain ⟨⟨events₂, s₂⟩, h₂, hall⟩ := Option.bind_eq_some_iff.mp hall
  obtain ⟨⟨events₃, s₃⟩, h₃, hall⟩ := Option.map_eq_some_iff.mp hall
  simp only [Prod.mk.injEq, List.cons.injEq, and_true] at hall
  obtain ⟨⟨rfl, rfl, rfl⟩, ⟨hroute₁, hroute₂, hroute₃⟩, hpeer⟩ := hall
  obtain ⟨t, hstep, hend⟩ := (run_of_receives h₃).exists_of_cons
  obtain rfl := hend.eq_of_nil
  exact ⟨s₁, s₂, s₃, run_of_receives h₁, hroute₁, run_of_receives h₂, hroute₂, hpeer, hstep,
    hroute₃⟩

lemma gossip_ne_sample : NodeId.fromPeerId sampleCrypto gossipPeerId
    ≠ NodeId.fromPeerId sampleCrypto samplePeerId := by
  decide +kernel

/-- The answer of the second peer sets the listed address of the first one. -/
theorem answers_set_listed_sample :
    ∃ (l : List (Option KadEvent)) (s s' : KademliaNode sampleCrypto × World),
      Run KademliaNode.Step (.new (sampleHost 2) DEFAULT_K, hearsayWorld) l s ∧
      KademliaNode.Step s (some (.findNodeResponseReceived gossipAddr hearsay)) s' ∧
      SetsListed sampleCrypto s.1.host s.1.table
        (.findNodeResponseReceived gossipAddr hearsay) s'.1.table ∧
      sampleRoute s = some sampleAddr ∧ sampleRoute s' = some hearsayAddr := by
  obtain ⟨s₁, s₂, s₃, hrun₁, -, hrun₂, hroute, hpeer, hstep, -⟩ := hearsay_arrives
  have hrun := hrun₁.append hrun₂
  have hsets := (answers_set_listed (R := Pubsub.sampleRlnc) (A := Pubsub.nullAuthenticator)
    (sampleHost 2) DEFAULT_K hearsayWorld).1 _ _ _ _ hrun hstep
  refine ⟨_, s₂, s₃, hrun, hstep, hsets, hroute, ?_⟩
  refine hsets _ _ _ _ rfl (fun peerId hverified => ?_) hroute
  rw [hpeer] at hverified
  rw [← Option.some.inj hverified]
  exact gossip_ne_sample

/-- The route of a peer that completed its handshake at `sampleAddr` is overwritten by what another
peer says. -/
theorem verified_route_overwritten :
    sampleAddr ≠ hearsayAddr ∧ ∃ s₁ s₂ s₃ : KademliaNode sampleCrypto × World,
      Run KademliaNode.Step (.new (sampleHost 2) DEFAULT_K, hearsayWorld)
        [some (.handshakeProgress sampleAddr), some (.handshakeComplete sampleAddr
          (.replicate 32 1) samplePeerId (.fromPeerId sampleCrypto samplePeerId))] s₁ ∧
      s₁.1.table.addrOf (.fromPeerId sampleCrypto samplePeerId) = some sampleAddr ∧
      (∃ l, Run KademliaNode.Step s₁ l s₂) ∧
      s₂.1.table.addrOf (.fromPeerId sampleCrypto samplePeerId) = some sampleAddr ∧
      s₂.1.host.remotePeerIdOf gossipAddr = some gossipPeerId ∧
      NodeId.fromPeerId sampleCrypto gossipPeerId ≠ .fromPeerId sampleCrypto samplePeerId ∧
      KademliaNode.Step s₂ (some (.findNodeResponseReceived gossipAddr hearsay)) s₃ ∧
      s₃.1.table.addrOf (.fromPeerId sampleCrypto samplePeerId) = some hearsayAddr := by
  obtain ⟨s₁, s₂, s₃, hrun₁, hroute₁, hrun₂, hroute₂, hpeer, hstep, hroute₃⟩ := hearsay_arrives
  exact ⟨by decide, s₁, s₂, s₃, hrun₁, hroute₁, ⟨_, hrun₂⟩, hroute₂, hpeer, gossip_ne_sample, hstep,
    hroute₃⟩

end Libp2pCat.Mux
