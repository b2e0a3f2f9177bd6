import Libp2pCat.Host.Operations

/-!
`libp2p-cat-rpc/src/lib.rs`, `transport.rs`, `serve.rs`: remote calls over one host.

* `Tarpc`: what the crate uses of the RPC framework and of its JSON codec, `Serve` what it uses of a
  service; their errors are given by the texts they print.
* `HostTransport.send`, `HostTransport.recv`: the client's end, anchored to one peer.
* `serveOne`, `handleRpcDatagram`, `dispatchRequest`: one turn of the server.
-/

namespace Libp2pCat.Rpc

open ByteString Effect

/-- First byte of a remote call. -/
def MUX_KIND_RPC : UInt8 := 0x04

/-- What travels in a remote call. -/
inductive Envelope (RequestId : Type) where
  | request (id : RequestId) (payload : String)
  | response (id : RequestId) (payload : String)
  | error (id : RequestId) (message : String)
  deriving DecidableEq

/-- The framework: its identifiers, its errors and the JSON form of its envelopes. -/
structure Tarpc where
  RequestId : Type
  Error : Type
  /-- `Error::Io`. -/
  io : String → Error
  /-- `Error::Server`. -/
  server : String → Error
  fromSerialize : String → Error
  fromDeserialize : String → Error
  display : Error → String
  /-- `serde_json::to_vec`. -/
  toVec : Envelope RequestId → Except String Bytes
  /-- `serde_json::from_slice`. -/
  fromSlice : Bytes → Except String (Envelope RequestId)

/-- A service: its requests and responses with their JSON forms, and what it answers. -/
structure Serve (T : Tarpc) where
  Request : Type
  Response : Type
  requestFromStr : String → Except String Request
  handle : Request → Except T.Error Response
  responseToString : Response → Except String String

variable {C : Crypto} {T : Tarpc}

/-- An error of the host as one of the framework. -/
def libErrorToTarpc : Error → T.Error
  | .io e => T.io e
  | e => T.server s!"libp2p error: {e.display}"

/-- The plaintext of a body. -/
def framed (body : Bytes) : Bytes := MUX_KIND_RPC :: body

/-! ### The client -/

variable (C) in
/-- A host that talks to one peer; `seeds` are the values of the coming calls of the factory. -/
structure HostTransport where
  host : Host C
  peer : UdpAddr
  seeds : ℕ → Key

/-- The bytes of an envelope, with the error of its serialization. -/
def serialize (envelope : Envelope T.RequestId) : Except T.Error Bytes :=
  (T.toVec envelope).mapError T.fromSerialize

/-- The envelope of some bytes, with the error of its deserialization. -/
def deserialize (body : Bytes) : Except T.Error (Envelope T.RequestId) :=
  (T.fromSlice body).mapError T.fromDeserialize

/-- Receive until an RPC plaintext of the peer comes, at most `fuel` times. -/
def drainForRpc (host : Host C) (peer : UdpAddr) (seeds : ℕ → Key) :
    ℕ → Io World T.Error (Option (Envelope T.RequestId × HostTransport C))
  | 0 => Io.pure none
  | fuel + 1 =>
      ((host.recvOne (seeds 0)).mapError libErrorToTarpc).flatMap fun r =>
        match r.2 with
        | .datagramDelivered addr plaintext =>
            if addr = peer ∧ plaintext.head? = some MUX_KIND_RPC then
              Io.suspend do
                let body := (sliceFrom plaintext 1).getD []
                let envelope ← deserialize body
                pure (some (envelope, ⟨r.1, peer, fun k => seeds (k + 1)⟩))
            else drainForRpc r.1 peer (fun k => seeds (k + 1)) fuel
        | .handshakeProgress _ | .handshakeComplete .. | .rejected .. =>
            drainForRpc r.1 peer (fun k => seeds (k + 1)) fuel

namespace HostTransport

/-- Send an envelope to the peer. -/
def send (transport : HostTransport C) (envelope : Envelope T.RequestId) :
    Io World T.Error (HostTransport C) :=
  (Io.suspend (serialize envelope)).flatMap fun body =>
    ((transport.host.send transport.peer (framed body)).mapError libErrorToTarpc).map fun host =>
      { transport with host := host }

/-- Receive the next envelope of the peer. -/
def recv (transport : HostTransport C) (fuel : ℕ) :
    Io World T.Error (Option (Envelope T.RequestId × HostTransport C)) :=
  drainForRpc transport.host transport.peer transport.seeds fuel

/-- The host and the peer. -/
def intoParts (transport : HostTransport C) : Host C × UdpAddr := (transport.host, transport.peer)

end HostTransport

/-! ### The server -/

/-- What one turn of the server came to. -/
inductive ServeEvent (RequestId : Type) where
  | handled (peer : UdpAddr) (requestId : RequestId)
  | rejected (peer : UdpAddr) (reason : String)
  | handshakeProgress (peer : UdpAddr)
  | handshakeComplete (peer : UdpAddr) (remoteStatic : StaticPublicKey) (remotePeerId : PeerId)
  | hostRejected (peer : UdpAddr) (reason : String)
  deriving DecidableEq

/-- The answer of a service to the payload of a request; whatever goes wrong with it is told to the
client. -/
def answer (service : Serve T) (id : T.RequestId) (payload : String) : Envelope T.RequestId :=
  let outcome : Except T.Error (Envelope T.RequestId) := do
    let request ← (service.requestFromStr payload).mapError T.fromDeserialize
    let response ← service.handle request
    let respPayload ← (service.responseToString response).mapError T.fromSerialize
    pure (.response id respPayload)
  match outcome with
  | .ok envelope => envelope
  | .error e => .error id (T.display e)

/-- Answer a request. -/
def dispatchRequest (host : Host C) (service : Serve T) (peer : UdpAddr) (id : T.RequestId)
    (payload : String) : Io World Error (Host C × ServeEvent T.RequestId) :=
  (Io.suspend ((T.toVec (answer service id payload)).mapError fun e =>
    Error.pubsubProtocol s!"rpc envelope serialize: {e}")).flatMap fun body =>
      (host.send peer (framed body)).map fun host => (host, .handled peer id)

/-- React to a decrypted plaintext. -/
def handleRpcDatagram (host : Host C) (service : Serve T) (peer : UdpAddr) (plaintext : Bytes) :
    Io World Error (Host C × ServeEvent T.RequestId) :=
  match plaintext.head? with
  | some kind =>
      if kind = MUX_KIND_RPC then
        let body := (sliceFrom plaintext 1).getD []
        match T.fromSlice body with
        | .error e => Io.pure (host, .rejected peer s!"envelope decode failed: {e}")
        | .ok (.request id payload) => dispatchRequest host service peer id payload
        | .ok (.response ..) | .ok (.error ..) =>
            Io.pure (host, .rejected peer "expected Envelope::Request from client")
      else Io.pure (host, .rejected peer s!"non-RPC kind byte 0x{hexByte kind}")
  | none => Io.pure (host, .rejected peer "empty plaintext (no kind byte)")

/-- Receive one datagram and serve it. -/
def serveOne (host : Host C) (service : Serve T) (ephemeralSeed : Key) :
    Io World Error (Host C × ServeEvent T.RequestId) :=
  (host.recvOne ephemeralSeed).flatMap fun r =>
    match r.2 with
    | .datagramDelivered addr plaintext => handleRpcDatagram r.1 service addr plaintext
    | .handshakeProgress addr => Io.pure (r.1, .handshakeProgress addr)
    | .handshakeComplete addr remoteStatic remotePeerId =>
        Io.pure (r.1, .handshakeComplete addr remoteStatic remotePeerId)
    | .rejected addr reason => Io.pure (r.1, .hostRejected addr reason)

end Libp2pCat.Rpc
