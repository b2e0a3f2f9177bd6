import Libp2pCat.Rendezvous.Codec
import Libp2pCat.Host.Operations

/-!
`libp2p-cat-rendezvous/src/node.rs`, `event.rs`: the frame handler over one host.

* `handleDatagram`: what a decrypted frame is answered, forwarded or punched with; `wrap` is
  applied to every frame that goes out encrypted.
* `RendezvousNode.recvOne`, `observeSelf`, `punchVia`, `relayVia`: the operations of a node.
-/

namespace Libp2pCat.Rendezvous

open ByteString Effect

variable {C : Crypto}

/-- What one receive came to. -/
inductive RendezvousEvent where
  | handshakeProgress (addr : UdpAddr)
  | handshakeComplete (addr : UdpAddr) (remoteStatic : StaticPublicKey) (remotePeerId : PeerId)
  | observeRequestReceived (source : UdpAddr)
  | observeResponseReceived (source : UdpAddr) (observed : UdpAddr)
  | punchRequestReceived (source target : UdpAddr) (forwarded : Bool)
  | punchForwardReceived (source initiator : UdpAddr)
  | relayForwarded (source target : UdpAddr) (forwarded : Bool) (payloadLen : ℕ)
  | relayReceived (source originator : UdpAddr) (payload : Bytes)
  | relayFailed (source peer : UdpAddr) (reason : String)
  | rejected (addr : UdpAddr) (reason : String)
  deriving DecidableEq

variable (C) in
/-- A host that answers rendezvous frames. -/
structure RendezvousNode where
  host : Host C

/-- The byte sent as a punch. -/
def PUNCH_BYTE : UInt8 := 0x00

/-- Tell a peer the address it is seen at. -/
def autoReplyObserve (host : Host C) (addr : UdpAddr) (wrap : Bytes → Bytes) :
    Io World Error (RendezvousNode C × RendezvousEvent) :=
  (Io.suspend (encode (.observeResp addr))).flatMap fun bytes =>
    (host.send addr (wrap bytes)).map fun host => (⟨host⟩, .observeRequestReceived addr)

/-- Pass a punch request on to its target, if there is a session with it. -/
def autoForwardPunch (host : Host C) (source target : UdpAddr) (wrap : Bytes → Bytes) :
    Io World Error (RendezvousNode C × RendezvousEvent) :=
  if host.isEstablished target then
    (Io.suspend (encode (.punchForward source))).flatMap fun bytes =>
      (host.send target (wrap bytes)).map fun host =>
        (⟨host⟩, .punchRequestReceived source target true)
  else Io.pure (⟨host⟩, .punchRequestReceived source target false)

/-- Send one bare byte to the initiator of a punch. -/
def autoSendPunch (host : Host C) (source initiator : UdpAddr) :
    Io World Error (RendezvousNode C × RendezvousEvent) :=
  (host.sendRaw initiator [PUNCH_BYTE]).map fun host =>
    (⟨host⟩, .punchForwardReceived source initiator)

/-- Why a payload was not relayed. -/
def relayFailReason (target : UdpAddr) : String :=
  s!"relay: no established session with {target.display}"

/-- Pass a payload on to its target, or tell the requester that there is no session with it. -/
def autoForwardRelay (host : Host C) (source target : UdpAddr) (payload : Bytes)
    (wrap : Bytes → Bytes) : Io World Error (RendezvousNode C × RendezvousEvent) :=
  let payloadLen := payload.length
  if host.isEstablished target then
    (Io.suspend (encode (.relayDataDeliver source payload))).flatMap fun bytes =>
      (host.send target (wrap bytes)).map fun host =>
        (⟨host⟩, .relayForwarded source target true payloadLen)
  else
    (Io.suspend (encode (.relayFail target (relayFailReason target)))).flatMap fun bytes =>
      (host.send source (wrap bytes)).map fun host =>
        (⟨host⟩, .relayForwarded source target false payloadLen)

/-- React to a decrypted plaintext. -/
def handleDatagram (host : Host C) (addr : UdpAddr) (plaintext : Bytes) (wrap : Bytes → Bytes) :
    Io World Error (RendezvousNode C × RendezvousEvent) :=
  match decode plaintext with
  | .error e => Io.pure (⟨host⟩, .rejected addr s!"rendezvous decode failed: {e.display}")
  | .ok .observeReq => autoReplyObserve host addr wrap
  | .ok (.observeResp observed) => Io.pure (⟨host⟩, .observeResponseReceived addr observed)
  | .ok (.punchReq target) => autoForwardPunch host addr target wrap
  | .ok (.punchForward initiator) => autoSendPunch host addr initiator
  | .ok (.relayDataReq target payload) => autoForwardRelay host addr target payload wrap
  | .ok (.relayDataDeliver originator payload) =>
      Io.pure (⟨host⟩, .relayReceived addr originator payload)
  | .ok (.relayFail peer reason) => Io.pure (⟨host⟩, .relayFailed addr peer reason)

namespace RendezvousNode

def dial (node : RendezvousNode C) (addr : UdpAddr) (ephemeralSeed : Key) :
    Io World Error (RendezvousNode C) :=
  (node.host.dial addr ephemeralSeed).map fun host => ⟨host⟩

def send (node : RendezvousNode C) (addr : UdpAddr) (plaintext : Bytes) :
    Io World Error (RendezvousNode C) :=
  (node.host.send addr plaintext).map fun host => ⟨host⟩

def processPlaintextWithWrap (node : RendezvousNode C) (addr : UdpAddr) (plaintext : Bytes)
    (wrap : Bytes → Bytes) : Io World Error (RendezvousNode C × RendezvousEvent) :=
  handleDatagram node.host addr plaintext wrap

def processPlaintext (node : RendezvousNode C) (addr : UdpAddr) (plaintext : Bytes) :
    Io World Error (RendezvousNode C × RendezvousEvent) :=
  node.processPlaintextWithWrap addr plaintext id

end RendezvousNode

/-- An event of the host. -/
def handleHostEvent (host : Host C) : HostEvent →
    Io World Error (RendezvousNode C × RendezvousEvent)
  | .handshakeProgress addr => Io.pure (⟨host⟩, .handshakeProgress addr)
  | .handshakeComplete addr remoteStatic remotePeerId =>
      Io.pure (⟨host⟩, .handshakeComplete addr remoteStatic remotePeerId)
  | .rejected addr reason => Io.pure (⟨host⟩, .rejected addr reason)
  | .datagramDelivered addr plaintext =>
      RendezvousNode.processPlaintext ⟨host⟩ addr plaintext

namespace RendezvousNode

/-- Receive one datagram and react to it. -/
def recvOne (node : RendezvousNode C) (ephemeralSeed : Key) :
    Io World Error (RendezvousNode C × RendezvousEvent) :=
  (node.host.recvOne ephemeralSeed).flatMap fun r => handleHostEvent r.1 r.2

/-- Send a frame to a server. -/
def request (node : RendezvousNode C) (serverAddr : UdpAddr) (frame : Frame) :
    Io World Error (RendezvousNode C) :=
  (Io.suspend (encode frame)).flatMap fun bytes =>
    (node.host.send serverAddr bytes).map fun host => ⟨host⟩

def sendObserveReq (node : RendezvousNode C) (serverAddr : UdpAddr) :
    Io World Error (RendezvousNode C) :=
  node.request serverAddr .observeReq

def punchVia (node : RendezvousNode C) (serverAddr targetAddr : UdpAddr) :
    Io World Error (RendezvousNode C) :=
  node.request serverAddr (.punchReq targetAddr)

def relayVia (node : RendezvousNode C) (serverAddr targetAddr : UdpAddr) (payload : Bytes) :
    Io World Error (RendezvousNode C) :=
  node.request serverAddr (.relayDataReq targetAddr payload)

/-- Receive until the server answered, at most `fuel` times; `seeds` are those of the coming
receives. -/
def drainForObserveResponse (node : RendezvousNode C) (serverAddr : UdpAddr) (seeds : ℕ → Key) :
    ℕ → Io World Error (Option (RendezvousNode C × UdpAddr))
  | 0 => Io.pure none
  | fuel + 1 => (node.recvOne (seeds 0)).flatMap fun r =>
      match r.2 with
      | .observeResponseReceived source observed =>
          if source = serverAddr then Io.pure (some (r.1, observed))
          else drainForObserveResponse r.1 serverAddr (fun k => seeds (k + 1)) fuel
      | _ => drainForObserveResponse r.1 serverAddr (fun k => seeds (k + 1)) fuel

/-- Ask a server for the address it sees this node at. -/
def observeSelf (node : RendezvousNode C) (serverAddr : UdpAddr) (seeds : ℕ → Key) (fuel : ℕ) :
    Io World Error (Option (RendezvousNode C × UdpAddr)) :=
  (node.sendObserveReq serverAddr).flatMap fun node =>
    node.drainForObserveResponse serverAddr seeds fuel

end RendezvousNode

end Libp2pCat.Rendezvous
