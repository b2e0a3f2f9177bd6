import Libp2pCat.Noise.Handshake
import Libp2pCat.Identity
import Libp2pCat.Udp
import Libp2pCat.Lib.Lru

/-!
`libp2p-cat-host/src/{capacity,event,state}.rs` and the data of `host.rs`: the two
connection tables, their bounds and the outcomes of one inbound datagram.

* `Capacity`: caps that are never zero.
* `HandshakeState`, `InFlightHandshake`, `EstablishedConnection`: the table entries.
* `HostIdentity`: the long-lived keys of a host; the signed binding it sends is one its
  own identity key made.
* `Host`, `Host.withCapacity`: the host and its construction.
* `insertHandshakeWithLru`, `insertEstablishedWithLru`, `sweepIdleHandshakes`,
  `sweepIdleEstablished`: the two instances of the bounded table of `Lru`.
-/

namespace Libp2pCat

open ByteString

/-- Caps on the two tables of a host. -/
structure Capacity where
  maxHandshakesInFlight : ℕ
  maxEstablished : ℕ
  handshakes_pos : 0 < maxHandshakesInFlight
  established_pos : 0 < maxEstablished

/-- Caps from two numbers; a zero cap is refused. -/
def Capacity.new (maxHandshakesInFlight maxEstablished : ℕ) : Option Capacity :=
  if h : 0 < maxHandshakesInFlight ∧ 0 < maxEstablished then
    some ⟨maxHandshakesInFlight, maxEstablished, h.1, h.2⟩
  else none

/-- The default caps. -/
def Capacity.default : Capacity := ⟨256, 1024, by decide, by decide⟩

/-- What happened while processing one inbound datagram. -/
inductive HostEvent where
  | handshakeProgress (addr : UdpAddr)
  | handshakeComplete (addr : UdpAddr) (remoteStatic : StaticPublicKey) (remotePeerId : PeerId)
  | datagramDelivered (addr : UdpAddr) (plaintext : Bytes)
  | rejected (addr : UdpAddr) (reason : String)
  deriving DecidableEq

variable (C : Crypto)

/-- A handshake waiting on the remote. -/
inductive HandshakeState where
  | initiatorAwaitingResponse (afterE : InitiatorAfterE C) (msg1 : Bytes)
  | responderAwaitingFinalize (afterResp : ResponderAfterResponse)

/-- A handshake entry with the tick at which it was last touched. -/
structure InFlightHandshake where
  state : HandshakeState C
  lastActivity : UInt64

/-- An established connection with the tick at which it was last touched. -/
structure EstablishedConnection where
  transport : TransportState
  remoteStatic : StaticPublicKey
  remotePeerId : PeerId
  lastActivity : UInt64
  deriving DecidableEq

/-- The long-lived identity of a host.  The binding was made by the identity key
behind the peer identifier. -/
structure HostIdentity where
  staticKeypair : StaticKeypair C
  signedStaticKey : SignedStaticKey
  peerId : PeerId
  cookieSecret : Key
  binding : ∃ identity : Ed25519Keypair C,
    SignedStaticKey.create identity staticKeypair.publicKey = .ok signedStaticKey ∧
      peerId = identity.peerId

/-- A connection-managing host. -/
structure Host where
  socket : UdpTransport
  identity : HostIdentity C
  handshakes : BTreeMap UdpAddr (InFlightHandshake C)
  established : BTreeMap UdpAddr EstablishedConnection
  capacity : Capacity
  tick : UInt64

variable {C}

namespace Host

/-- A host without connections. -/
def withCapacity (socket : UdpTransport) (staticKeypair : StaticKeypair C)
    (identity : Ed25519Keypair C) (cookieSecret : Key) (capacity : Capacity) :
    Except Error (Host C) :=
  match h : SignedStaticKey.create identity staticKeypair.publicKey with
  | .error e => .error e
  | .ok signedStaticKey => .ok
      { socket := socket
        identity := ⟨staticKeypair, signedStaticKey, identity.peerId, cookieSecret,
          ⟨identity, h, rfl⟩⟩
        handshakes := ∅
        established := ∅
        capacity := capacity
        tick := 0 }

/-- What a host without connections starts from. -/
lemma withCapacity_eq_ok {socket : UdpTransport} {staticKeypair : StaticKeypair C}
    {identity : Ed25519Keypair C} {cookieSecret : Key} {capacity : Capacity} {host : Host C}
    (h : withCapacity socket staticKeypair identity cookieSecret capacity = .ok host) :
    host.handshakes = ∅ ∧ host.established = ∅ ∧ host.tick = 0 ∧ host.capacity = capacity ∧
      host.identity.cookieSecret = cookieSecret := by
  rw [withCapacity] at h
  split at h
  · cases h
  · cases h
    exact ⟨rfl, rfl, rfl, rfl, rfl⟩

/-- A host with the default caps. -/
def new (socket : UdpTransport) (staticKeypair : StaticKeypair C) (identity : Ed25519Keypair C)
    (cookieSecret : Key) : Except Error (Host C) :=
  withCapacity socket staticKeypair identity cookieSecret .default

/-- Whether an address has an established connection. -/
def isEstablished (h : Host C) (addr : UdpAddr) : Bool := h.established.contains addr

/-- The peer identifier verified for an address. -/
def remotePeerIdOf (h : Host C) (addr : UdpAddr) : Option PeerId :=
  h.established[addr]?.map EstablishedConnection.remotePeerId

/-- The addresses with an established connection, in the order of the table. -/
def establishedAddrs (h : Host C) : List UdpAddr := h.established.keys

end Host

/-- A host over the sample functions whose keys repeat one byte. -/
def sampleHost (b : UInt8) : Host sampleCrypto where
  socket := ⟨DEFAULT_MAX_DATAGRAM, MAX_UDP_PAYLOAD⟩
  identity := ⟨.fromPrivateBytes sampleCrypto (.replicate 32 b),
    ⟨.replicate 32 b, .replicate 64 b⟩, .fromEd25519 (.replicate 32 b), .replicate 32 b,
    ⟨.fromSeed sampleCrypto (.replicate 32 b), rfl, rfl⟩⟩
  handshakes := ∅
  established := ∅
  capacity := .default
  tick := 0

lemma sampleHost_eq (b : UInt8) :
    Host.withCapacity ⟨DEFAULT_MAX_DATAGRAM, MAX_UDP_PAYLOAD⟩
      (.fromPrivateBytes sampleCrypto (.replicate 32 b))
      (.fromSeed sampleCrypto (.replicate 32 b)) (.replicate 32 b) .default
        = .ok (sampleHost b) := rfl

/-! ### The bounded tables -/

/-- Insert a handshake, driving the oldest one out of a full table. -/
def insertHandshakeWithLru (handshakes : BTreeMap UdpAddr (InFlightHandshake C)) (addr : UdpAddr)
    (entry : InFlightHandshake C) (cap : ℕ) : BTreeMap UdpAddr (InFlightHandshake C) :=
  Lru.insertWithLru (fun e => e.lastActivity.toNat) handshakes addr entry cap

/-- Insert a connection, driving the oldest one out of a full table. -/
def insertEstablishedWithLru (established : BTreeMap UdpAddr EstablishedConnection)
    (addr : UdpAddr) (conn : EstablishedConnection) (cap : ℕ) :
    BTreeMap UdpAddr EstablishedConnection :=
  Lru.insertWithLru (fun c => c.lastActivity.toNat) established addr conn cap

/-- Drop the handshakes stamped before the cutoff. -/
def sweepIdleHandshakes (handshakes : BTreeMap UdpAddr (InFlightHandshake C)) (cutoff : UInt64) :
    BTreeMap UdpAddr (InFlightHandshake C) × List UdpAddr :=
  Lru.sweep (fun e => e.lastActivity.toNat) handshakes cutoff.toNat

/-- Drop the connections stamped before the cutoff. -/
def sweepIdleEstablished (established : BTreeMap UdpAddr EstablishedConnection)
    (cutoff : UInt64) : BTreeMap UdpAddr EstablishedConnection × List UdpAddr :=
  Lru.sweep (fun c => c.lastActivity.toNat) established cutoff.toNat

end Libp2pCat
