import Libp2pCat.Pubsub.Codec
import Libp2pCat.Host.Operations

/-!
`libp2p-cat-pubsub/src/state.rs`, `mux.rs`: RLNC pubsub over one host.

* `PubsubState`: the decoders and recoders by topic, and a clock that stamps them.
* `decoderPath`, `relayPath`: what a frame does to the role its topic has.
* `PubsubMux.processPlaintext`, `recvOne`, `broadcast`: the operations; `relayRng` is called at
  most once, by the relay path.
-/

namespace Libp2pCat.Pubsub

open ByteString Effect

variable {C : Crypto} {R : Rlnc} {A : PubsubAuth}

/-! ### The state -/

/-- A decoder, what it was committed to and when it was last touched. -/
structure DecoderEntry (R : Rlnc) (A : PubsubAuth) where
  state : R.DecoderState
  commitment : A.Commitment
  lastActivity : UInt64

/-- A recoder with the rank it has seen, what it was committed to and when it was last
touched. -/
structure RecoderEntry (R : Rlnc) (A : PubsubAuth) where
  recoder : R.Recoder
  rankTracker : R.DecoderState
  commitment : A.Commitment
  lastActivity : UInt64

/-- The roles of the topics. -/
structure PubsubState (R : Rlnc) (A : PubsubAuth) where
  decoders : BTreeMap Topic (DecoderEntry R A)
  recoders : BTreeMap Topic (RecoderEntry R A)
  tick : UInt64

namespace PubsubState

def new : PubsubState R A := ⟨∅, ∅, 0⟩

/-- Take the decoder role on a topic. -/
def registerTopic (state : PubsubState R A) (topic : Topic) (pieceCount pieceByteLen : ℕ)
    (commitment : A.Commitment) : PubsubState R A :=
  let nextTick := state.tick + 1
  { state with
    decoders := state.decoders.insert topic
      ⟨R.newDecoder pieceCount pieceByteLen, commitment, nextTick⟩
    tick := nextTick }

/-- Take the relay role on a topic. -/
def registerRelay (state : PubsubState R A) (topic : Topic) (pieceCount pieceByteLen : ℕ)
    (commitment : A.Commitment) : PubsubState R A :=
  let nextTick := state.tick + 1
  { state with
    recoders := state.recoders.insert topic
      ⟨R.newRecoder pieceCount pieceByteLen, R.newDecoder pieceCount pieceByteLen, commitment,
        nextTick⟩
    tick := nextTick }

def unregisterTopic (state : PubsubState R A) (topic : Topic) : PubsubState R A :=
  { state with decoders := state.decoders.erase topic, tick := state.tick + 1 }

def unregisterRelay (state : PubsubState R A) (topic : Topic) : PubsubState R A :=
  { state with recoders := state.recoders.erase topic, tick := state.tick + 1 }

/-- The clock value before which entries are idle. -/
def cutoff (state : PubsubState R A) (maxIdleTicks : UInt64) : ℕ :=
  state.tick.toNat - maxIdleTicks.toNat

/-- Drop the decoders that were idle for too long. -/
def evictIdleTopics (state : PubsubState R A) (maxIdleTicks : UInt64) :
    PubsubState R A × List Topic :=
  let (kept, evicted) := Lru.sweep (fun entry => entry.lastActivity.toNat) state.decoders
    (state.cutoff maxIdleTicks)
  ({ state with decoders := kept, tick := state.tick + 1 }, evicted)

/-- Drop the recoders that were idle for too long. -/
def evictIdleRelays (state : PubsubState R A) (maxIdleTicks : UInt64) :
    PubsubState R A × List Topic :=
  let (kept, evicted) := Lru.sweep (fun entry => entry.lastActivity.toNat) state.recoders
    (state.cutoff maxIdleTicks)
  ({ state with recoders := kept, tick := state.tick + 1 }, evicted)

end PubsubState

/-! ### The multiplexer -/

def KIND_APP : UInt8 := 0x00
def KIND_PUBSUB : UInt8 := 0x01

/-- What one receive came to. -/
inductive MuxEvent where
  | appData (addr : UdpAddr) (bytes : Bytes)
  | pubsubAbsorbed (addr : UdpAddr) (topic : Topic)
  | pubsubRedundant (addr : UdpAddr) (topic : Topic)
  | pubsubDelivered (addr : UdpAddr) (topic : Topic) (data : Bytes)
  | pubsubRelayed (addr : UdpAddr) (topic : Topic) (fanoutCount : ℕ)
  | handshakeProgress (addr : UdpAddr)
  | handshakeComplete (addr : UdpAddr) (remoteStatic : StaticPublicKey) (remotePeerId : PeerId)
  | rejected (addr : UdpAddr) (reason : String)
  deriving DecidableEq

variable (C R A) in
/-- A host and the roles of the topics. -/
structure PubsubMux where
  host : Host C
  state : PubsubState R A

/-- The plaintext of a kind. -/
def prefixKind (kind : UInt8) (payload : Bytes) : Bytes := kind :: payload

/-- Send a datagram to the given peers, one after the other. -/
def sendToEach (mux : PubsubMux C R A) (datagram : Bytes) (addrs : List UdpAddr) :
    Io World Error (PubsubMux C R A) :=
  addrs.foldl (fun acc addr => acc.flatMap fun mux =>
    (mux.host.send addr datagram).map fun host => ⟨host, mux.state⟩) (Io.pure mux)

/-- Send a frame to every peer. -/
def sendFrameToAll (mux : PubsubMux C R A) (frame : Bytes) : Io World Error (PubsubMux C R A) :=
  sendToEach mux (prefixKind KIND_PUBSUB frame) mux.host.establishedAddrs

/-- Send frames to every peer, one after the other. -/
def fanOutAll (mux : PubsubMux C R A) (frames : List Bytes) : Io World Error (PubsubMux C R A) :=
  frames.foldl (fun acc frame => acc.flatMap fun mux => sendFrameToAll mux frame) (Io.pure mux)

/-- Send a frame to every peer but one; how many there were. -/
def sendFrameExcluding (mux : PubsubMux C R A) (frame : Bytes) (exclude : UdpAddr) :
    Io World Error (PubsubMux C R A × ℕ) :=
  let addrs := mux.host.establishedAddrs.filter fun a => a ≠ exclude
  (sendToEach mux (prefixKind KIND_PUBSUB frame) addrs).map fun mux => (mux, addrs.length)

/-- A frame for a topic with a decoder. -/
def decoderPath (host : Host C) (state : PubsubState R A) (addr : UdpAddr) (topic : Topic)
    (wirePiece : WirePiece A) : PubsubMux C R A × MuxEvent :=
  let decoders := state.decoders.erase topic
  match state.decoders[topic]? with
  | none => (⟨host, { state with decoders := decoders }⟩,
      .rejected addr s!"decoder for topic {topic.asStr} vanished mid-dispatch")
  | some entry =>
      match A.verify entry.commitment wirePiece.piece wirePiece.tag with
      | .error e =>
          (⟨host, { state with decoders := decoders.insert topic entry }⟩,
            .rejected addr s!"auth verify failed for topic {topic.asStr}: {e}")
      | .ok () =>
          match R.absorb entry.state wirePiece.piece with
          -- the decoder is not put back here
          | .error e => (⟨host, { state with decoders := decoders }⟩,
              .rejected addr s!"absorb failed: {e}")
          | .ok next =>
              let nextTick := state.tick + 1
              if R.isComplete next then
                match R.decode next with
                | .ok data => (⟨host, { state with decoders := decoders, tick := nextTick }⟩,
                    .pubsubDelivered addr topic data)
                | .error e => (⟨host, { state with decoders := decoders, tick := nextTick }⟩,
                    .rejected addr s!"decode failed: {e}")
              else
                (⟨host, { state with
                  decoders := decoders.insert topic ⟨next, entry.commitment, nextTick⟩
                  tick := nextTick }⟩, .pubsubAbsorbed addr topic)

/-- Recode, tag and forward after a piece that raised the rank. -/
def relayOn (host : Host C) (state : PubsubState R A) (addr : UdpAddr) (topic : Topic)
    (wirePiece : WirePiece A) (commitment : A.Commitment) (recoder : R.Recoder)
    (relayRng : ℕ → Except String Bytes) : Io World Error (PubsubMux C R A × MuxEvent) :=
  let pieceCount := wirePiece.piece.codingVector.length
  let pieceByteLen := wirePiece.piece.data.length
  (Io.suspend ((R.recodeOne recoder relayRng).mapError Error.rlncLayer)).flatMap fun recoded =>
    let tag := A.tag commitment recoded
    (Io.suspend (encode R A topic pieceCount pieceByteLen ⟨commitment, recoded, tag⟩)).flatMap
      fun frame => (sendFrameExcluding ⟨host, state⟩ frame addr).map fun r =>
        (r.1, .pubsubRelayed addr topic r.2)

/-- The branch for a relay whose rank is full: the piece is redundant, unseen. -/
def fastPath (host : Host C) (state : PubsubState R A) (addr : UdpAddr) (topic : Topic)
    (entry : RecoderEntry R A) : PubsubMux C R A × MuxEvent :=
  let nextTick := state.tick + 1
  (⟨host, { state with
    recoders := (state.recoders.erase topic).insert topic { entry with lastActivity := nextTick }
    tick := nextTick }⟩, .pubsubRedundant addr topic)

/-- The general branch: absorb the piece into a copy of the tracker and compare the ranks. -/
def rankGate (host : Host C) (state : PubsubState R A) (addr : UdpAddr) (topic : Topic)
    (wirePiece : WirePiece A) (entry : RecoderEntry R A) (relayRng : ℕ → Except String Bytes) :
    Io World Error (PubsubMux C R A × MuxEvent) :=
  let recoders := state.recoders.erase topic
  let nextTick := state.tick + 1
  match R.absorb entry.rankTracker wirePiece.piece with
  | .error e =>
      Io.pure (⟨host, { state with recoders := recoders.insert topic entry }⟩,
        .rejected addr s!"relay rank tracker absorb failed: {e}")
  | .ok tracker =>
      if R.usefulCount tracker = R.usefulCount entry.rankTracker then
        Io.pure (⟨host, { state with
          recoders := recoders.insert topic { entry with lastActivity := nextTick }
          tick := nextTick }⟩, .pubsubRedundant addr topic)
      else
        match R.addPiece entry.recoder wirePiece.piece with
        | .error e =>
            Io.pure (⟨host, { state with recoders := recoders.insert topic entry }⟩,
              .rejected addr s!"recoder add_piece failed: {e}")
        | .ok nextRecoder =>
            relayOn host
              { state with
                recoders := recoders.insert topic ⟨nextRecoder, tracker, entry.commitment, nextTick⟩
                tick := nextTick }
              addr topic wirePiece entry.commitment nextRecoder relayRng

/-- A frame for a topic with a recoder. -/
def relayPath (host : Host C) (state : PubsubState R A) (addr : UdpAddr) (topic : Topic)
    (wirePiece : WirePiece A) (relayRng : ℕ → Except String Bytes) :
    Io World Error (PubsubMux C R A × MuxEvent) :=
  let recoders := state.recoders.erase topic
  match state.recoders[topic]? with
  | none => Io.pure (⟨host, { state with recoders := recoders }⟩,
      .rejected addr s!"recoder for topic {topic.asStr} vanished mid-dispatch")
  | some entry =>
      match A.verify entry.commitment wirePiece.piece wirePiece.tag with
      | .error e =>
          Io.pure (⟨host, { state with recoders := recoders.insert topic entry }⟩,
            .rejected addr s!"auth verify failed for topic {topic.asStr}: {e}")
      | .ok () =>
          if R.isComplete entry.rankTracker then Io.pure (fastPath host state addr topic entry)
          else rankGate host state addr topic wirePiece entry relayRng

/-- A pubsub frame: the relay role comes before the decoder role. -/
def handlePubsubBody (host : Host C) (state : PubsubState R A) (addr : UdpAddr) (body : Bytes)
    (relayRng : ℕ → Except String Bytes) : Io World Error (PubsubMux C R A × MuxEvent) :=
  match decode R A body with
  | .error e => Io.pure (⟨host, state⟩,
      .rejected addr s!"pubsub frame decode failed: {e.display}")
  | .ok (frame, wirePiece) =>
      let topic := frame.topic
      if state.recoders.contains topic then
        relayPath host state addr topic wirePiece relayRng
      else if state.decoders.contains topic then
        Io.pure (decoderPath host state addr topic wirePiece)
      else
        Io.pure (⟨host, state⟩,
          .rejected addr s!"frame received for unregistered topic {topic.asStr}")

/-- A decrypted plaintext, by its kind byte. -/
def dispatchPlaintext (host : Host C) (state : PubsubState R A) (addr : UdpAddr)
    (plaintext : Bytes) (relayRng : ℕ → Except String Bytes) :
    Io World Error (PubsubMux C R A × MuxEvent) :=
  match plaintext.head? with
  | none => Io.pure (⟨host, state⟩,
      .rejected addr "datagram plaintext was empty (no kind byte)")
  | some kind =>
      let body := (sliceFrom plaintext 1).getD []
      if kind = KIND_APP then Io.pure (⟨host, state⟩, .appData addr body)
      else if kind = KIND_PUBSUB then handlePubsubBody host state addr body relayRng
      else
        Io.pure (⟨host, state⟩,
          .rejected addr s!"unknown plaintext kind byte 0x{hexByte kind}")

/-- The coefficients of a node that relays nothing: asking for them fails. -/
def unusedRelayRng (_ : ℕ) : Except String Bytes :=
  .error "relay rng was invoked but no relay was expected"

/-- An event of the host. -/
def processEvent (host : Host C) (state : PubsubState R A) (relayRng : ℕ → Except String Bytes) :
    HostEvent → Io World Error (PubsubMux C R A × MuxEvent)
  | .handshakeProgress addr => Io.pure (⟨host, state⟩, .handshakeProgress addr)
  | .handshakeComplete addr remoteStatic remotePeerId =>
      Io.pure (⟨host, state⟩, .handshakeComplete addr remoteStatic remotePeerId)
  | .rejected addr reason => Io.pure (⟨host, state⟩, .rejected addr reason)
  | .datagramDelivered addr plaintext => dispatchPlaintext host state addr plaintext relayRng

namespace PubsubMux

def new (host : Host C) : PubsubMux C R A := ⟨host, .new⟩

def dial (mux : PubsubMux C R A) (addr : UdpAddr) (ephemeralSeed : Key) :
    Io World Error (PubsubMux C R A) :=
  (mux.host.dial addr ephemeralSeed).map fun host => ⟨host, mux.state⟩

def sendApp (mux : PubsubMux C R A) (addr : UdpAddr) (payload : Bytes) :
    Io World Error (PubsubMux C R A) :=
  (mux.host.send addr (prefixKind KIND_APP payload)).map fun host => ⟨host, mux.state⟩

/-- Send the coded pieces of a generation to every peer; `pieces` is what the coder of the
source came to. -/
def broadcast (mux : PubsubMux C R A) (topic : Topic) (pieceCount pieceByteLen : ℕ)
    (pieces : Except String (List (WirePiece A))) : Io World Error (PubsubMux C R A) :=
  (Io.suspend (pieces.mapError Error.rlncLayer)).flatMap fun pieces =>
    (Io.suspend (pieces.mapM fun wp => encode R A topic pieceCount pieceByteLen wp)).flatMap
      fun frames => fanOutAll mux frames

def processPlaintext (mux : PubsubMux C R A) (addr : UdpAddr) (plaintext : Bytes)
    (relayRng : ℕ → Except String Bytes) : Io World Error (PubsubMux C R A × MuxEvent) :=
  dispatchPlaintext mux.host mux.state addr plaintext relayRng

/-- Receive one datagram and react to it. -/
def recvOne (mux : PubsubMux C R A) (ephemeralSeed : Key) (relayRng : ℕ → Except String Bytes) :
    Io World Error (PubsubMux C R A × MuxEvent) :=
  (mux.host.recvOne ephemeralSeed).flatMap fun r => processEvent r.1 mux.state relayRng r.2

end PubsubMux

end Libp2pCat.Pubsub
