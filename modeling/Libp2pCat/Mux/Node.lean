import Libp2pCat.Kad.Lookup
import Libp2pCat.Pubsub.Mux
import Libp2pCat.Rendezvous.Node

/-!
`libp2p-cat-mux/src/node.rs`, `event.rs`, `lib.rs`: pubsub, Kademlia and rendezvous over one
host, told apart by the first byte of a plaintext.

* `MultiProtocolEvent`: what one receive came to, whichever protocol it belongs to.
* `dispatchPlaintext`: the kind byte decides which protocol reacts; the reaction is that of the
  protocol's own node, with the kind byte put before what it sends.
* `MultiProtocolNode.recvOne`, `sendApp`, `kadFindNode`, `sendRpc` and the other operations.
* `driveLookupRounds`, `drainLookupResponses`: the lookup driver of a node that shares its host.
-/

namespace Libp2pCat.Mux

open ByteString Effect

variable {C : Crypto} {R : Pubsub.Rlnc} {A : Pubsub.PubsubAuth}

def KIND_APP : UInt8 := 0x00
def KIND_PUBSUB : UInt8 := 0x01
def KIND_KAD : UInt8 := 0x02
def KIND_RENDEZVOUS : UInt8 := 0x03
def KIND_RPC : UInt8 := 0x04

/-- What one receive came to. -/
inductive MultiProtocolEvent where
  | handshakeProgress (addr : UdpAddr)
  | handshakeComplete (addr : UdpAddr) (remoteStatic : StaticPublicKey) (remotePeerId : PeerId)
      (remoteNodeId : NodeId)
  | appData (addr : UdpAddr) (bytes : Bytes)
  | pubsubAbsorbed (addr : UdpAddr) (topic : Pubsub.Topic)
  | pubsubDelivered (addr : UdpAddr) (topic : Pubsub.Topic) (data : Bytes)
  | pubsubRelayed (source : UdpAddr) (topic : Pubsub.Topic) (fanoutCount : ℕ)
  | pubsubRedundant (addr : UdpAddr) (topic : Pubsub.Topic)
  | kadPingRequestReceived (source : UdpAddr)
  | kadPingResponseReceived (source : UdpAddr)
  | kadFindNodeRequestReceived (source : UdpAddr) (target : NodeId) (returned : ℕ)
  | kadFindNodeResponseReceived (source : UdpAddr) (peers : List (NodeId × UdpAddr))
  | observeRequestReceived (source : UdpAddr)
  | observeResponseReceived (source observed : UdpAddr)
  | punchRequestReceived (source target : UdpAddr) (forwarded : Bool)
  | punchForwardReceived (source initiator : UdpAddr)
  | relayForwarded (source target : UdpAddr) (forwarded : Bool) (payloadLen : ℕ)
  | relayReceived (source originator : UdpAddr) (payload : Bytes)
  | relayFailed (source peer : UdpAddr) (reason : String)
  | rpcDatagram (peer : UdpAddr) (body : Bytes)
  | rejected (addr : UdpAddr) (reason : String)
  deriving DecidableEq

variable (C R A) in
/-- A host, the pubsub state and the routing table. -/
structure MultiProtocolNode where
  host : Host C
  pubsubState : Pubsub.PubsubState R A
  kadTable : RoutingTable

/-- The plaintext of a kind. -/
def prefixKind (kind : UInt8) (payload : Bytes) : Bytes := kind :: payload

def sendWithKind (host : Host C) (addr : UdpAddr) (kind : UInt8) (body : Bytes) :
    Io World Error (Host C) :=
  host.send addr (prefixKind kind body)

/-- What the protocols put around the frames they answer with. -/
def kindWrap (kind : UInt8) (bytes : Bytes) : Bytes := kind :: bytes

/-! ### Receiving -/

def liftPubsubEvent : Pubsub.MuxEvent → MultiProtocolEvent
  | .appData addr bytes => .appData addr bytes
  | .pubsubAbsorbed addr topic => .pubsubAbsorbed addr topic
  | .pubsubDelivered addr topic data => .pubsubDelivered addr topic data
  | .pubsubRedundant addr topic => .pubsubRedundant addr topic
  | .pubsubRelayed source topic fanoutCount => .pubsubRelayed source topic fanoutCount
  | .handshakeProgress addr => .rejected addr
      "pubsub HandshakeProgress surfaced inside dispatch_pubsub (unexpected)"
  | .handshakeComplete addr _ _ => .rejected addr
      "pubsub HandshakeComplete surfaced inside dispatch_pubsub (unexpected)"
  | .rejected addr reason => .rejected addr reason

/-- App data and pubsub frames: the pubsub multiplexer reads the kind byte itself. -/
def dispatchPubsub (host : Host C) (pubsubState : Pubsub.PubsubState R A) (kadTable : RoutingTable)
    (addr : UdpAddr) (plaintext : Bytes) (relayRng : ℕ → Except String Bytes) :
    Io World Error (MultiProtocolNode C R A × MultiProtocolEvent) :=
  (Pubsub.PubsubMux.processPlaintext ⟨host, pubsubState⟩ addr plaintext relayRng).map fun r =>
    (⟨r.1.host, r.1.state, kadTable⟩, liftPubsubEvent r.2)

def liftKadEvent : Kad.KadEvent → MultiProtocolEvent
  | .pingRequestReceived source => .kadPingRequestReceived source
  | .pingResponseReceived source => .kadPingResponseReceived source
  | .findNodeRequestReceived source target returned =>
      .kadFindNodeRequestReceived source target returned
  | .findNodeResponseReceived source peers => .kadFindNodeResponseReceived source peers
  | .rejected addr reason => .rejected addr reason
  | .handshakeProgress addr => .rejected addr
      "kad HandshakeProgress surfaced inside dispatch_kad (unreachable)"
  | .handshakeComplete addr _ _ _ => .rejected addr
      "kad HandshakeComplete surfaced inside dispatch_kad (unreachable)"

def dispatchKad (host : Host C) (pubsubState : Pubsub.PubsubState R A) (kadTable : RoutingTable)
    (addr : UdpAddr) (body : Bytes) :
    Io World Error (MultiProtocolNode C R A × MultiProtocolEvent) :=
  (Kad.KademliaNode.processPlaintextWithWrap ⟨host, kadTable⟩ addr body (kindWrap KIND_KAD)).map
    fun r => (⟨r.1.host, pubsubState, r.1.table⟩, liftKadEvent r.2)

def liftRendezvousEvent : Rendezvous.RendezvousEvent → MultiProtocolEvent
  | .observeRequestReceived source => .observeRequestReceived source
  | .observeResponseReceived source observed => .observeResponseReceived source observed
  | .punchRequestReceived source target forwarded => .punchRequestReceived source target forwarded
  | .punchForwardReceived source initiator => .punchForwardReceived source initiator
  | .relayForwarded source target forwarded payloadLen =>
      .relayForwarded source target forwarded payloadLen
  | .relayReceived source originator payload => .relayReceived source originator payload
  | .relayFailed source peer reason => .relayFailed source peer reason
  | .rejected addr reason => .rejected addr reason
  | .handshakeProgress addr => .rejected addr
      "rendezvous HandshakeProgress surfaced inside dispatch_rendezvous (unreachable)"
  | .handshakeComplete addr _ _ => .rejected addr
      "rendezvous HandshakeComplete surfaced inside dispatch_rendezvous (unreachable)"

def dispatchRendezvous (host : Host C) (pubsubState : Pubsub.PubsubState R A)
    (kadTable : RoutingTable) (addr : UdpAddr) (body : Bytes) :
    Io World Error (MultiProtocolNode C R A × MultiProtocolEvent) :=
  (Rendezvous.RendezvousNode.processPlaintextWithWrap ⟨host⟩ addr body
    (kindWrap KIND_RENDEZVOUS)).map
      fun r => (⟨r.1.host, pubsubState, kadTable⟩, liftRendezvousEvent r.2)

/-- A decrypted plaintext, by its kind byte. -/
def dispatchPlaintext (host : Host C) (pubsubState : Pubsub.PubsubState R A)
    (kadTable : RoutingTable) (addr : UdpAddr) (plaintext : Bytes)
    (relayRng : ℕ → Except String Bytes) :
    Io World Error (MultiProtocolNode C R A × MultiProtocolEvent) :=
  let kind := plaintext.head?
  let body := (sliceFrom plaintext 1).getD []
  if kind = some KIND_APP ∨ kind = some KIND_PUBSUB then
    dispatchPubsub host pubsubState kadTable addr plaintext relayRng
  else if kind = some KIND_KAD then dispatchKad host pubsubState kadTable addr body
  else if kind = some KIND_RENDEZVOUS then dispatchRendezvous host pubsubState kadTable addr body
  else if kind = some KIND_RPC then
    Io.pure (⟨host, pubsubState, kadTable⟩, .rpcDatagram addr body)
  else if kind = none then
    Io.pure (⟨host, pubsubState, kadTable⟩,
      .rejected addr "datagram plaintext was empty (no kind byte)")
  else
    Io.pure (⟨host, pubsubState, kadTable⟩,
      .rejected addr s!"unknown plaintext kind byte 0x{hexByte (kind.getD 0)}")

/-- An event of the host. -/
def handleHostEvent (host : Host C) (pubsubState : Pubsub.PubsubState R A)
    (kadTable : RoutingTable) (relayRng : ℕ → Except String Bytes) :
    HostEvent → Io World Error (MultiProtocolNode C R A × MultiProtocolEvent)
  | .handshakeProgress addr =>
      Io.pure (⟨host, pubsubState, kadTable⟩, .handshakeProgress addr)
  | .handshakeComplete addr remoteStatic remotePeerId =>
      let remoteNodeId := NodeId.fromPeerId C remotePeerId
      let kadTable := (kadTable.insert remoteNodeId addr).1
      Io.pure (⟨host, pubsubState, kadTable⟩,
        .handshakeComplete addr remoteStatic remotePeerId remoteNodeId)
  | .rejected addr reason => Io.pure (⟨host, pubsubState, kadTable⟩, .rejected addr reason)
  | .datagramDelivered addr plaintext =>
      dispatchPlaintext host pubsubState kadTable addr plaintext relayRng

namespace MultiProtocolNode

/-- A node with no topics and an empty table of bucket size `k`. -/
def new (host : Host C) (k : ℕ) : MultiProtocolNode C R A :=
  ⟨host, .new, .new (.fromPeerId C host.identity.peerId) k⟩

def registerTopic (node : MultiProtocolNode C R A) (topic : Pubsub.Topic)
    (pieceCount pieceByteLen : ℕ) (commitment : A.Commitment) : MultiProtocolNode C R A :=
  { node with
    pubsubState := node.pubsubState.registerTopic topic pieceCount pieceByteLen commitment }

def registerRelay (node : MultiProtocolNode C R A) (topic : Pubsub.Topic)
    (pieceCount pieceByteLen : ℕ) (commitment : A.Commitment) : MultiProtocolNode C R A :=
  { node with
    pubsubState := node.pubsubState.registerRelay topic pieceCount pieceByteLen commitment }

def unregisterTopic (node : MultiProtocolNode C R A) (topic : Pubsub.Topic) :
    MultiProtocolNode C R A :=
  { node with pubsubState := node.pubsubState.unregisterTopic topic }

def unregisterRelay (node : MultiProtocolNode C R A) (topic : Pubsub.Topic) :
    MultiProtocolNode C R A :=
  { node with pubsubState := node.pubsubState.unregisterRelay topic }

def evictIdleTopics (node : MultiProtocolNode C R A) (maxIdleTicks : UInt64) :
    MultiProtocolNode C R A × List Pubsub.Topic :=
  let (pubsubState, evicted) := node.pubsubState.evictIdleTopics maxIdleTicks
  ({ node with pubsubState := pubsubState }, evicted)

def evictIdleRelays (node : MultiProtocolNode C R A) (maxIdleTicks : UInt64) :
    MultiProtocolNode C R A × List Pubsub.Topic :=
  let (pubsubState, evicted) := node.pubsubState.evictIdleRelays maxIdleTicks
  ({ node with pubsubState := pubsubState }, evicted)

/-- Receive one datagram and react to it. -/
def recvOne (node : MultiProtocolNode C R A) (ephemeralSeed : Key)
    (relayRng : ℕ → Except String Bytes) :
    Io World Error (MultiProtocolNode C R A × MultiProtocolEvent) :=
  (node.host.recvOne ephemeralSeed).flatMap fun r =>
    handleHostEvent r.1 node.pubsubState node.kadTable relayRng r.2

/-! ### Sending -/

def dial (node : MultiProtocolNode C R A) (addr : UdpAddr) (ephemeralSeed : Key) :
    Io World Error (MultiProtocolNode C R A) :=
  (node.host.dial addr ephemeralSeed).map fun host => { node with host := host }

def sendApp (node : MultiProtocolNode C R A) (addr : UdpAddr) (payload : Bytes) :
    Io World Error (MultiProtocolNode C R A) :=
  (Pubsub.PubsubMux.sendApp ⟨node.host, node.pubsubState⟩ addr payload).map fun mux =>
    ⟨mux.host, mux.state, node.kadTable⟩

/-- Send the coded pieces of a generation to every peer; `pieces` is what the coder of the
source came to. -/
def broadcast (node : MultiProtocolNode C R A) (topic : Pubsub.Topic) (pieceCount pieceByteLen : ℕ)
    (pieces : Except String (List (Pubsub.WirePiece A))) :
    Io World Error (MultiProtocolNode C R A) :=
  (Pubsub.PubsubMux.broadcast ⟨node.host, node.pubsubState⟩ topic pieceCount pieceByteLen
    pieces).map fun mux => ⟨mux.host, mux.state, node.kadTable⟩

def sendKadFrame (node : MultiProtocolNode C R A) (peer : UdpAddr) (frame : Kad.Frame) :
    Io World Error (MultiProtocolNode C R A) :=
  (Io.suspend (Kad.encode frame)).flatMap fun body =>
    (sendWithKind node.host peer KIND_KAD body).map fun host => { node with host := host }

def kadPing (node : MultiProtocolNode C R A) (peer : UdpAddr) :
    Io World Error (MultiProtocolNode C R A) :=
  node.sendKadFrame peer .pingReq

def kadFindNode (node : MultiProtocolNode C R A) (peer : UdpAddr) (target : NodeId) :
    Io World Error (MultiProtocolNode C R A) :=
  node.sendKadFrame peer (.findNodeReq target)

def sendRpc (node : MultiProtocolNode C R A) (peer : UdpAddr) (body : Bytes) :
    Io World Error (MultiProtocolNode C R A) :=
  (node.host.send peer (prefixKind KIND_RPC body)).map fun host => { node with host := host }

def sendRendezvousFrame (node : MultiProtocolNode C R A) (peer : UdpAddr)
    (frame : Rendezvous.Frame) : Io World Error (MultiProtocolNode C R A) :=
  (Io.suspend (Rendezvous.encode frame)).flatMap fun body =>
    (sendWithKind node.host peer KIND_RENDEZVOUS body).map fun host => { node with host := host }

def sendObserveReq (node : MultiProtocolNode C R A) (server : UdpAddr) :
    Io World Error (MultiProtocolNode C R A) :=
  node.sendRendezvousFrame server .observeReq

def sendPunchReq (node : MultiProtocolNode C R A) (server target : UdpAddr) :
    Io World Error (MultiProtocolNode C R A) :=
  node.sendRendezvousFrame server (.punchReq target)

end MultiProtocolNode

/-! ### Looking peers up -/

/-- What an event means to a lookup under way. -/
def absorbLookupEvent (lookup : Kad.Lookup) : MultiProtocolEvent → Kad.Lookup
  | .kadFindNodeResponseReceived source peers => (lookup.recordResponse source peers).1
  | .handshakeComplete addr _ _ _ =>
      if lookup.isPendingDial addr then lookup.completeDial addr else lookup
  | _ => lookup

/-- Read datagrams until nothing is under way or the budget is spent; `seeds` are the values of
the coming calls of the seed factory. -/
def drainLookupResponses (node : MultiProtocolNode C R A) (lookup : Kad.Lookup)
    (seeds : ℕ → Key) : ℕ → Io World Error (MultiProtocolNode C R A × Kad.Lookup × (ℕ → Key))
  | 0 => Io.pure (node, lookup, seeds)
  | budget + 1 =>
      if !lookup.hasPending then Io.pure (node, lookup, seeds)
      else
        (node.recvOne (seeds 0) Pubsub.unusedRelayRng).flatMap fun r =>
          drainLookupResponses r.1 (absorbLookupEvent lookup r.2) (fun i => seeds (i + 1)) budget

/-- Act on one peer of a round. -/
def lookupAct (action : Kad.RoundAction) (target : NodeId) (node : MultiProtocolNode C R A) :
    Io World Error (MultiProtocolNode C R A) :=
  match action with
  | .query addr => node.kadFindNode addr target
  | .dial addr seed => node.dial addr seed

/-- Act on the peers of a round, one after the other. -/
def lookupSendChain (target : NodeId) (actions : List (NodeId × Kad.RoundAction))
    (node : MultiProtocolNode C R A) : Io World Error (MultiProtocolNode C R A) :=
  actions.foldl (fun acc p => acc.flatMap fun n => lookupAct p.2 target n) (Io.pure node)

/-- Run the rounds that are left. -/
def driveLookupRounds (node : MultiProtocolNode C R A) (lookup : Kad.Lookup) (seeds : ℕ → Key) :
    ℕ → Io World Error (MultiProtocolNode C R A × Kad.Lookup)
  | 0 => Io.pure (node, lookup)
  | roundsLeft + 1 =>
      if lookup.isDone then Io.pure (node, lookup)
      else
        let toAct := lookup.pickNextAlpha
        if toAct = [] then Io.pure (node, lookup)
        else
          let (actions, seeds) := Kad.decideActions node.host toAct seeds
          let lookup := Kad.markActions lookup actions
          (lookupSendChain lookup.target actions node).flatMap fun node =>
            (drainLookupResponses node lookup seeds lookup.config.maxRecvPerRound).flatMap fun r =>
              driveLookupRounds r.1 r.2.1.skipPendingQueries.skipPendingDials r.2.2 roundsLeft

/-- Look the peers closest to a target up. -/
def MultiProtocolNode.lookupNode (node : MultiProtocolNode C R A) (target : NodeId)
    (config : Kad.LookupConfig) (seeds : ℕ → Key) :
    Io World Error (MultiProtocolNode C R A × List (NodeId × UdpAddr)) :=
  let initial := node.kadTable.closestTo target config.k
  let lookup := Kad.Lookup.new node.kadTable.selfId target config initial
  (driveLookupRounds node lookup seeds config.maxRounds).map fun r => (r.1, r.2.topKResults)

end Libp2pCat.Mux
