import Libp2pCat.Kad.Codec

/-!
`libp2p-cat-rendezvous/src/codec.rs`: the wire format of the rendezvous frames.

* `Frame`, `Opcode`: the seven frames and the byte each starts with.
* `encode`, `decode`: the format, with every error text; addresses are written and read as in
  the Kademlia frames.
-/

namespace Libp2pCat.Rendezvous

open ByteString

/-- The carrier of wire violations. -/
def protocolError (reason : String) : Error := .pubsubProtocol reason

/-- The first byte of a frame. -/
inductive Opcode where
  | observeReq
  | observeResp
  | punchReq
  | punchForward
  | relayDataReq
  | relayDataDeliver
  | relayFail
  deriving DecidableEq

namespace Opcode

def toByte : Opcode → UInt8
  | observeReq => 0x00
  | observeResp => 0x01
  | punchReq => 0x02
  | punchForward => 0x03
  | relayDataReq => 0x04
  | relayDataDeliver => 0x05
  | relayFail => 0x06

def fromByte (byte : UInt8) : Except Error Opcode :=
  if byte = 0x00 then .ok observeReq
  else if byte = 0x01 then .ok observeResp
  else if byte = 0x02 then .ok punchReq
  else if byte = 0x03 then .ok punchForward
  else if byte = 0x04 then .ok relayDataReq
  else if byte = 0x05 then .ok relayDataDeliver
  else if byte = 0x06 then .ok relayFail
  else .error (protocolError s!"unknown rendezvous opcode 0x{hexByte byte}")

end Opcode

/-- A frame. -/
inductive Frame where
  | observeReq
  | observeResp (observed : UdpAddr)
  | punchReq (target : UdpAddr)
  | punchForward (initiator : UdpAddr)
  | relayDataReq (target : UdpAddr) (payload : Bytes)
  | relayDataDeliver (originator : UdpAddr) (payload : Bytes)
  | relayFail (peer : UdpAddr) (reason : String)
  deriving DecidableEq

/-! ### Encoding -/

/-- An address, as in the Kademlia frames. -/
def encodeAddr (addr : UdpAddr) : Bytes := Kad.encodeAddr addr

/-- The bytes of a frame. -/
def encode : Frame → Except Error Bytes
  | .observeReq => .ok [Opcode.observeReq.toByte]
  | .observeResp observed => .ok (Opcode.observeResp.toByte :: encodeAddr observed)
  | .punchReq target => .ok (Opcode.punchReq.toByte :: encodeAddr target)
  | .punchForward initiator => .ok (Opcode.punchForward.toByte :: encodeAddr initiator)
  | .relayDataReq target payload =>
      .ok (Opcode.relayDataReq.toByte :: (encodeAddr target ++ payload))
  | .relayDataDeliver originator payload =>
      .ok (Opcode.relayDataDeliver.toByte :: (encodeAddr originator ++ payload))
  | .relayFail peer reason =>
      .ok (Opcode.relayFail.toByte :: (encodeAddr peer ++ ofText reason))

/-! ### Decoding -/

/-- An address and the number of bytes it took, as in the Kademlia frames. -/
def decodeAddr (buf : Bytes) : Except Error (UdpAddr × ℕ) := Kad.decodeAddr buf

def decodeObserveReq (body : Bytes) : Except Error Frame :=
  if body = [] then .ok .observeReq
  else .error (protocolError s!"ObserveReq expects an empty body, got {body.length} bytes")

/-- A body that is exactly one address. -/
def decodeAddrBody (body : Bytes) (wrap : UdpAddr → Frame) : Except Error Frame := do
  let (addr, consumed) ← decodeAddr body
  let trailing := (sliceFrom body consumed).getD []
  if trailing = [] then pure (wrap addr)
  else
    .error (protocolError
      s!"addr-bearing frame has {trailing.length} unexpected trailing bytes")

/-- A body that is an address and data behind it. -/
def decodeAddrAndPayload (body : Bytes) (wrap : UdpAddr → Bytes → Frame) : Except Error Frame := do
  let (addr, consumed) ← decodeAddr body
  let payload := (sliceFrom body consumed).getD []
  pure (wrap addr payload)

def decodeRelayDataReq (body : Bytes) : Except Error Frame :=
  decodeAddrAndPayload body .relayDataReq

def decodeRelayDataDeliver (body : Bytes) : Except Error Frame :=
  decodeAddrAndPayload body .relayDataDeliver

def decodeRelayFail (body : Bytes) : Except Error Frame := do
  let (peer, consumed) ← decodeAddr body
  let reasonBytes := (sliceFrom body consumed).getD []
  let reason ← okOr (textOf reasonBytes) (protocolError
    s!"RelayFail reason is not valid UTF-8: {utf8ErrorText reasonBytes}")
  pure (.relayFail peer reason)

/-- The body of a frame, by its opcode. -/
def decodeBody (opcode : Opcode) (body : Bytes) : Except Error Frame :=
  match opcode with
  | .observeReq => decodeObserveReq body
  | .observeResp => decodeAddrBody body .observeResp
  | .punchReq => decodeAddrBody body .punchReq
  | .punchForward => decodeAddrBody body .punchForward
  | .relayDataReq => decodeRelayDataReq body
  | .relayDataDeliver => decodeRelayDataDeliver body
  | .relayFail => decodeRelayFail body

/-- Parse a frame. -/
def decode (bytes : Bytes) : Except Error Frame := do
  let opcodeByte ← okOr bytes.head? (protocolError "rendezvous frame is empty")
  let opcode ← Opcode.fromByte opcodeByte
  decodeBody opcode ((sliceFrom bytes 1).getD [])

end Libp2pCat.Rendezvous
