import Libp2pCat.Kad.Codec
import Libp2pCat.Host.Operations

/-!
`libp2p-cat-kad/src/node.rs`, `event.rs`: a host with a routing table that answers `PING` and
`FIND_NODE` by itself.

* `KadEvent`: what one receive came to.
* `KademliaNode.dial`, `ping`, `findNode`, `recvOne`, `processPlaintextWithWrap`: the
  operations; `wrap` is what the sharing multiplexer puts around an answer.
-/

namespace Libp2pCat.Kad

open ByteString Effect

variable {C : Crypto}

/-- What one receive came to. -/
inductive KadEvent where
  | handshakeProgress (addr : UdpAddr)
  | handshakeComplete (addr : UdpAddr) (remoteStatic : StaticPublicKey) (remotePeerId : PeerId)
      (remoteNodeId : NodeId)
  | pingRequestReceived (addr : UdpAddr)
  | pingResponseReceived (addr : UdpAddr)
  | findNodeRequestReceived (addr : UdpAddr) (target : NodeId) (returned : ℕ)
  | findNodeResponseReceived (addr : UdpAddr) (peers : List (NodeId × UdpAddr))
  | rejected (addr : UdpAddr) (reason : String)
  deriving DecidableEq

variable (C) in
/-- A host and its routing table. -/
structure KademliaNode where
  host : Host C
  table : RoutingTable

/-- Answer a `PING`. -/
def autoReplyPing (host : Host C) (table : RoutingTable) (addr : UdpAddr) (wrap : Bytes → Bytes) :
    Io World Error (KademliaNode C × KadEvent) :=
  (Io.suspend (encode .pingResp)).flatMap fun bytes =>
    (host.send addr (wrap bytes)).map fun host =>
      (⟨host, table⟩, .pingRequestReceived addr)

/-- Answer a `FIND_NODE` with the closest known peers. -/
def autoReplyFindNode (host : Host C) (table : RoutingTable) (addr : UdpAddr) (target : NodeId)
    (wrap : Bytes → Bytes) : Io World Error (KademliaNode C × KadEvent) :=
  let peers := table.closestTo target table.k
  let returned := peers.length
  (Io.suspend (encode (.findNodeResp peers))).flatMap fun bytes =>
    (host.send addr (wrap bytes)).map fun host =>
      (⟨host, table⟩, .findNodeRequestReceived addr target returned)

/-- React to a frame: requests are answered, the peers of an answer are learned. -/
def dispatchFrame (host : Host C) (table : RoutingTable) (addr : UdpAddr) (frame : Frame)
    (wrap : Bytes → Bytes) : Io World Error (KademliaNode C × KadEvent) :=
  match frame with
  | .pingReq => autoReplyPing host table addr wrap
  | .pingResp => Io.pure (⟨host, table⟩, .pingResponseReceived addr)
  | .findNodeReq target => autoReplyFindNode host table addr target wrap
  | .findNodeResp peers =>
      let table := peers.foldl
        (fun acc p => if p.1 = acc.selfId then acc else (acc.insert p.1 p.2).1) table
      Io.pure (⟨host, table⟩, .findNodeResponseReceived addr peers)

/-- The table with the verified peer behind the source of a frame. -/
def observe (host : Host C) (table : RoutingTable) (addr : UdpAddr) : RoutingTable :=
  match host.remotePeerIdOf addr with
  | some peerId => (table.insert (.fromPeerId C peerId) addr).1
  | none => table

lemma observe_congr {host host' : Host C} {addr : UdpAddr} (table : RoutingTable)
    (h : host'.remotePeerIdOf addr = host.remotePeerIdOf addr) :
    observe host' table addr = observe host table addr := by
  rw [observe, observe, h]

/-- React to a decrypted plaintext. -/
def handleDatagram (host : Host C) (table : RoutingTable) (addr : UdpAddr) (plaintext : Bytes)
    (wrap : Bytes → Bytes) : Io World Error (KademliaNode C × KadEvent) :=
  match decode plaintext with
  | .error e => Io.pure (⟨host, table⟩, .rejected addr s!"kad decode failed: {e.display}")
  | .ok frame => dispatchFrame host (observe host table addr) addr frame wrap

namespace KademliaNode

/-- A node with an empty table of bucket size `k`. -/
def new (host : Host C) (k : ℕ) : KademliaNode C :=
  ⟨host, .new (.fromPeerId C host.identity.peerId) k⟩

def dial (node : KademliaNode C) (addr : UdpAddr) (ephemeralSeed : Key) :
    Io World Error (KademliaNode C) :=
  (node.host.dial addr ephemeralSeed).map fun host => ⟨host, node.table⟩

/-- Encode a frame and send it. -/
def sendFrame (node : KademliaNode C) (peer : UdpAddr) (frame : Frame) :
    Io World Error (KademliaNode C) :=
  (Io.suspend (encode frame)).flatMap fun bytes =>
    (node.host.send peer bytes).map fun host => ⟨host, node.table⟩

def ping (node : KademliaNode C) (peer : UdpAddr) : Io World Error (KademliaNode C) :=
  node.sendFrame peer .pingReq

def findNode (node : KademliaNode C) (peer : UdpAddr) (target : NodeId) :
    Io World Error (KademliaNode C) :=
  node.sendFrame peer (.findNodeReq target)

def processPlaintextWithWrap (node : KademliaNode C) (addr : UdpAddr) (plaintext : Bytes)
    (wrap : Bytes → Bytes) : Io World Error (KademliaNode C × KadEvent) :=
  handleDatagram node.host node.table addr plaintext wrap

def processPlaintext (node : KademliaNode C) (addr : UdpAddr) (plaintext : Bytes) :
    Io World Error (KademliaNode C × KadEvent) :=
  node.processPlaintextWithWrap addr plaintext id

/-- React to an event of the host. -/
def handleHostEvent (host : Host C) (table : RoutingTable) :
    HostEvent → Io World Error (KademliaNode C × KadEvent)
  | .handshakeProgress addr => Io.pure (⟨host, table⟩, .handshakeProgress addr)
  | .handshakeComplete addr remoteStatic remotePeerId =>
      let remoteNodeId := NodeId.fromPeerId C remotePeerId
      let table := (table.insert remoteNodeId addr).1
      Io.pure (⟨host, table⟩, .handshakeComplete addr remoteStatic remotePeerId remoteNodeId)
  | .rejected addr reason => Io.pure (⟨host, table⟩, .rejected addr reason)
  | .datagramDelivered addr plaintext => processPlaintext ⟨host, table⟩ addr plaintext

/-- Receive one datagram and react to it. -/
def recvOne (node : KademliaNode C) (ephemeralSeed : Key) :
    Io World Error (KademliaNode C × KadEvent) :=
  (node.host.recvOne ephemeralSeed).flatMap fun r => handleHostEvent r.1 node.table r.2

end KademliaNode

end Libp2pCat.Kad
