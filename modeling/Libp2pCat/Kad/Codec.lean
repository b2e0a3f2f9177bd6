import Libp2pCat.Kad.RoutingTable
import Libp2pCat.Lib.Effect

/-!
`libp2p-cat-kad/src/codec.rs`: the wire format of the Kademlia frames.

* `Frame`, `Opcode`: the four frames and the byte each starts with.
* `encode`, `decode`: the format, with every error text.
* `encode_isOk_iff`: only an answer with more than 255 peers has no encoding.
-/

namespace Libp2pCat.Kad

open ByteString

/-- The carrier of wire violations. -/
def protocolError (reason : String) : Error := .pubsubProtocol reason

/-- The first byte of a frame. -/
inductive Opcode where
  | pingReq
  | pingResp
  | findNodeReq
  | findNodeResp
  deriving DecidableEq

namespace Opcode

def toByte : Opcode → UInt8
  | pingReq => 0x00
  | pingResp => 0x01
  | findNodeReq => 0x02
  | findNodeResp => 0x03

def fromByte (byte : UInt8) : Except Error Opcode :=
  if byte = 0x00 then .ok pingReq
  else if byte = 0x01 then .ok pingResp
  else if byte = 0x02 then .ok findNodeReq
  else if byte = 0x03 then .ok findNodeResp
  else .error (protocolError s!"unknown kad opcode 0x{hexByte byte}")

/-- The name the debug format prints. -/
def debug : Opcode → String
  | pingReq => "PingReq"
  | pingResp => "PingResp"
  | findNodeReq => "FindNodeReq"
  | findNodeResp => "FindNodeResp"

end Opcode

/-- A frame. -/
inductive Frame where
  | pingReq
  | pingResp
  | findNodeReq (target : NodeId)
  | findNodeResp (peers : List (NodeId × UdpAddr))
  deriving DecidableEq

/-- The most peers an answer can carry: its count is one byte. -/
abbrev MAX_PEERS_PER_RESP : ℕ := 255

def ADDR_KIND_V4 : UInt8 := 0x04
def ADDR_KIND_V6 : UInt8 := 0x06
abbrev ADDR_V4_BODY_LEN : ℕ := 4 + 2
abbrev ADDR_V6_BODY_LEN : ℕ := 16 + 2

/-! ### Encoding -/

/-- An address: its kind, its octets and its port; the flow label and the scope are not
sent. -/
def encodeAddr : UdpAddr → Bytes
  | .v4 s => ADDR_KIND_V4 :: (s.ip.bytes ++ beBytes 2 s.port.toNat)
  | .v6 s => ADDR_KIND_V6 :: (s.ip.bytes ++ beBytes 2 s.port.toNat)

def encodeEntry (entry : NodeId × UdpAddr) : Bytes := entry.1.asBytes.bytes ++ encodeAddr entry.2

def encodeFindNodeResp (peers : List (NodeId × UdpAddr)) : Except Error Bytes :=
  if peers.length ≤ 255 then
    .ok (Opcode.findNodeResp.toByte :: UInt8.ofNat peers.length :: peers.flatMap encodeEntry)
  else
    .error (protocolError (s!"FindNodeResp peer count {peers.length} exceeds the 1-byte cap of " ++
      s!"{MAX_PEERS_PER_RESP}"))

/-- The bytes of a frame. -/
def encode : Frame → Except Error Bytes
  | .pingReq => .ok [Opcode.pingReq.toByte]
  | .pingResp => .ok [Opcode.pingResp.toByte]
  | .findNodeReq target => .ok (Opcode.findNodeReq.toByte :: target.asBytes.bytes)
  | .findNodeResp peers => encodeFindNodeResp peers

/-! ### Decoding -/

def decodeNoBody (opcode : Opcode) (body : Bytes) : Except Error Frame :=
  if body = [] then
    match opcode with
    | .pingReq => .ok .pingReq
    | .pingResp => .ok .pingResp
    | _ => .error (protocolError
        s!"decode_no_body called with body-bearing opcode {opcode.debug}")
  else
    .error (protocolError s!"{opcode.debug} expects an empty body, got {body.length} bytes")

def decodeFindNodeReq (body : Bytes) : Except Error Frame := do
  let targetSlice ← okOr (sliceTo body NODE_ID_LEN)
    (protocolError s!"FindNodeReq needs {NODE_ID_LEN} bytes, got {body.length}")
  let trailing := (sliceFrom body NODE_ID_LEN).getD []
  if trailing = [] then do
    let arr ← okOr (Arr.tryFrom NODE_ID_LEN targetSlice)
      (protocolError "FindNodeReq target slice not 32 bytes wide")
    pure (.findNodeReq ⟨arr⟩)
  else
    .error (protocolError s!"FindNodeReq has {trailing.length} unexpected trailing bytes")

/-- The octets and the port of an address with octets of width `w`; `ver` names the kind in
the error texts. -/
def decodeAddrBody (w : ℕ) (ver : String) (body : Bytes) : Except Error (Arr w × UInt16) := do
  let ipSlice ← okOr (sliceTo body w) (protocolError s!"{ver} addr needs {w} IP bytes")
  let portSlice ← okOr (sliceRange body w (w + 2))
    (protocolError s!"{ver} addr needs 2 port bytes")
  let ipArr ← okOr (Arr.tryFrom w ipSlice) (protocolError s!"{ver} IP slice not {w} bytes wide")
  let portArr ← okOr (Arr.tryFrom 2 portSlice) (protocolError s!"{ver} port slice not 2 bytes wide")
  pure (ipArr, UInt16.ofNat (ofBe portArr.bytes))

def decodeAddrV4 (body : Bytes) : Except Error UdpAddr := do
  let (ip, port) ← decodeAddrBody 4 "V4" body
  pure (.v4 ⟨ip, port⟩)

def decodeAddrV6 (body : Bytes) : Except Error UdpAddr := do
  let (ip, port) ← decodeAddrBody 16 "V6" body
  pure (.v6 ⟨ip, port, 0, 0⟩)

/-- An address and the number of bytes it took. -/
def decodeAddr (buf : Bytes) : Except Error (UdpAddr × ℕ) := do
  let kind ← okOr buf.head? (protocolError "addr kind byte missing")
  let body := (sliceFrom buf 1).getD []
  if kind = ADDR_KIND_V4 then do
    let addr ← decodeAddrV4 body
    pure (addr, 1 + ADDR_V4_BODY_LEN)
  else if kind = ADDR_KIND_V6 then do
    let addr ← decodeAddrV6 body
    pure (addr, 1 + ADDR_V6_BODY_LEN)
  else .error (protocolError s!"unknown addr kind 0x{hexByte kind}")

/-- A peer and the number of bytes it took. -/
def decodeEntry (buf : Bytes) : Except Error ((NodeId × UdpAddr) × ℕ) := do
  let idSlice ← okOr (sliceTo buf NODE_ID_LEN)
    (protocolError s!"entry NodeId needs {NODE_ID_LEN} bytes, got {buf.length}")
  let idArr ← okOr (Arr.tryFrom NODE_ID_LEN idSlice)
    (protocolError "entry NodeId slice not 32 bytes wide")
  let afterId := (sliceFrom buf NODE_ID_LEN).getD []
  let (addr, addrConsumed) ← decodeAddr afterId
  pure ((⟨idArr⟩, addr), NODE_ID_LEN + addrConsumed)

/-- One step of the entry loop: the peers so far and the offset behind them. -/
def decodeEntriesStep (buf : Bytes) (acc : List (NodeId × UdpAddr) × ℕ) (idx : ℕ) :
    Except Error (List (NodeId × UdpAddr) × ℕ) := do
  let chunk := (sliceFrom buf acc.2).getD []
  let (entry, consumed) ← (decodeEntry chunk).mapError fun e =>
    protocolError s!"FindNodeResp entry {idx} decode failed: {e.display}"
  pure (acc.1 ++ [entry], acc.2 + consumed)

def decodeEntries (buf : Bytes) (count : ℕ) : Except Error (List (NodeId × UdpAddr) × ℕ) :=
  (List.range count).foldlM (decodeEntriesStep buf) ([], 0)

def decodeFindNodeResp (body : Bytes) : Except Error Frame := do
  let countByte ← okOr body.head? (protocolError "FindNodeResp missing count byte")
  let count := countByte.toNat
  let entriesSlice := (sliceFrom body 1).getD []
  let (peers, consumed) ← decodeEntries entriesSlice count
  let trailing := (sliceFrom entriesSlice consumed).getD []
  if trailing = [] then pure (.findNodeResp peers)
  else
    .error (protocolError (s!"FindNodeResp has {trailing.length} unexpected trailing bytes after " ++
      s!"{count} entries"))

/-- The body of a frame, by its opcode. -/
def decodeBody (opcode : Opcode) (body : Bytes) : Except Error Frame :=
  match opcode with
  | .pingReq | .pingResp => decodeNoBody opcode body
  | .findNodeReq => decodeFindNodeReq body
  | .findNodeResp => decodeFindNodeResp body

/-- Parse a frame. -/
def decode (bytes : Bytes) : Except Error Frame := do
  let opcodeByte ← okOr bytes.head? (protocolError "kad frame is empty")
  let opcode ← Opcode.fromByte opcodeByte
  decodeBody opcode ((sliceFrom bytes 1).getD [])

/-! ### Frames that have no encoding -/

/-- The frame is no answer with more peers than its count byte can hold. -/
def Frame.Encodable : Frame → Prop
  | .findNodeResp peers => peers.length ≤ MAX_PEERS_PER_RESP
  | _ => True

lemma encode_isOk_iff (frame : Frame) : (∃ bytes, encode frame = .ok bytes) ↔ frame.Encodable := by
  cases frame with
  | findNodeResp peers =>
      rw [encode, encodeFindNodeResp, Frame.Encodable]
      by_cases h : peers.length ≤ 255 <;> simp [h]
  | _ => simp [encode, Frame.Encodable]

end Libp2pCat.Kad
