import Mathlib.Tactic
import Libp2pCat.Lib.Bytes

/-!
`libp2p-cat-types`: the workspace error, UDP addresses and peer identifiers.

* `Error`, `Error.display`: the error every fallible operation returns and the
  text it is printed as (`error.rs`).
* `UdpAddr`: an IPv4 or IPv6 socket address (`addr.rs`), with the lexicographic
  order of the derived `Ord` (`UdpAddr.sortKey`) that the tables keyed by
  addresses are listed in, and the text `UdpAddr.display`.
* `PeerId.fromEd25519`: the identity multihash of an Ed25519 key (`peer_id.rs`).
* `BTreeMap`: the ordered map of the source.
-/

namespace Libp2pCat

open ByteString

/-- The ordered map of the source's standard library. -/
abbrev BTreeMap (K V : Type) [Ord K] := Std.ExtTreeMap K V

/-! ### The workspace error -/

/-- The workspace error, less the two variants of protocol and peer identifier
parsing, which nothing modelled here raises. -/
inductive Error where
  | io (e : String)
  | datagramTooLarge (attempted maximum : ℕ)
  | noiseDecrypt
  | noiseProtocol (reason : String)
  | noiseReplay (nonce : UInt64)
  | rlncLayer (reason : String)
  | pubsubProtocol (reason : String)
  | hostState (reason : String)
  | identityVerify (reason : String)
  deriving DecidableEq

/-- The text an error is printed as. -/
def Error.display : Error → String
  | .io e => s!"I/O error: {e}"
  | .datagramTooLarge attempted maximum =>
      s!"datagram too large: attempted {attempted} bytes, maximum {maximum}"
  | .noiseDecrypt => "noise decryption failed"
  | .noiseProtocol reason => s!"noise protocol violation: {reason}"
  | .noiseReplay nonce => s!"noise replay or out-of-window datagram: nonce {nonce}"
  | .rlncLayer reason => s!"rlnc layer error: {reason}"
  | .pubsubProtocol reason => s!"pubsub protocol violation: {reason}"
  | .hostState reason => s!"host state violation: {reason}"
  | .identityVerify reason => s!"identity verification failed: {reason}"

/-- The value of an option, or the given error. -/
def okOr {α : Type} (o : Option α) (e : Error) : Except Error α :=
  match o with
  | some a => .ok a
  | none => .error e

@[simp] lemma okOr_some {α : Type} (a : α) (e : Error) : okOr (some a) e = .ok a := rfl

lemma okOr_eq_ok_iff {α : Type} {o : Option α} {e : Error} {a : α} :
    okOr o e = .ok a ↔ o = some a := by
  cases o <;> simp [okOr]

/-- A byte as two lowercase hexadecimal digits. -/
def hexByte (b : UInt8) : String :=
  String.ofList [Nat.digitChar (b.toNat / 16), Nat.digitChar (b.toNat % 16)]

/-! ### IP addresses -/

/-- An IPv4 address: its octets. -/
abbrev Ipv4Addr := Arr 4

/-- An IPv6 address: its octets. -/
abbrev Ipv6Addr := Arr 16

/-- The IPv4 address an IPv4-mapped IPv6 address (`::ffff:a.b.c.d`) stands for. -/
def Ipv6Addr.toIpv4Mapped (ip : Ipv6Addr) : Option Ipv4Addr :=
  if ip.bytes.take 12 = List.replicate 10 0 ++ [0xff, 0xff] then
    Arr.tryFrom 4 (ip.bytes.drop 12)
  else none

/-- Dotted-decimal notation. -/
def Ipv4Addr.display (ip : Ipv4Addr) : String :=
  ".".intercalate (ip.bytes.map fun b => toString b.toNat)

/-- The eight 16-bit groups of an IPv6 address. -/
def Ipv6Addr.segments (ip : Ipv6Addr) : List ℕ :=
  (List.range 8).map fun i => ofBe ((ip.bytes.drop (2 * i)).take 2)

/-- The first longest run of zero groups, as its start and its length: one pass
that keeps the longest run seen and the run being read. -/
def longestZeroRun (segments : List ℕ) : ℕ × ℕ :=
  let step := fun (acc : (ℕ × ℕ) × (ℕ × ℕ)) (p : ℕ × ℕ) =>
    let (longest, current) := acc
    let (segment, i) := p
    if segment = 0 then
      let current := if current.2 = 0 then (i, 1) else (current.1, current.2 + 1)
      (if longest.2 < current.2 then current else longest, current)
    else (longest, (0, 0))
  (segments.zipIdx.foldl step ((0, 0), (0, 0))).1

/-- Groups in lowercase hexadecimal, joined by colons. -/
def fmtSubslice (segments : List ℕ) : String :=
  ":".intercalate (segments.map fun n => String.ofList (Nat.toDigits 16 n))

/-- The compressed text form of an IPv6 address. -/
def Ipv6Addr.display (ip : Ipv6Addr) : String :=
  match ip.toIpv4Mapped with
  | some v4 => "::ffff:" ++ v4.display
  | none =>
      let segments := ip.segments
      let (start, len) := longestZeroRun segments
      if 1 < len then
        fmtSubslice (segments.take start) ++ "::" ++ fmtSubslice (segments.drop (start + len))
      else fmtSubslice segments

/-! ### UDP addresses -/

/-- An IPv4 socket address. -/
structure SocketAddrV4 where
  ip : Ipv4Addr
  port : UInt16
  deriving DecidableEq

/-- An IPv6 socket address. -/
structure SocketAddrV6 where
  ip : Ipv6Addr
  port : UInt16
  flowinfo : UInt32
  scopeId : UInt32
  deriving DecidableEq

/-- A UDP transport address. -/
inductive UdpAddr where
  | v4 (s : SocketAddrV4)
  | v6 (s : SocketAddrV6)
  deriving DecidableEq

namespace UdpAddr

/-- The multiaddr-style text of an address. -/
def display : UdpAddr → String
  | .v4 s => "/ip4/" ++ s.ip.display ++ "/udp/" ++ toString s.port.toNat
  | .v6 s => "/ip6/" ++ s.ip.display ++ "/udp/" ++ toString s.port.toNat

/-- The fields of an address in the order the derived `Ord` compares them: V4
before V6, then the octets, the port, the flow label and the scope. -/
def sortKey : UdpAddr → Bytes
  | .v4 s => 0 :: (s.ip.bytes ++ beBytes 2 s.port.toNat)
  | .v6 s => 1 :: (s.ip.bytes ++ (beBytes 2 s.port.toNat ++
      (beBytes 4 s.flowinfo.toNat ++ beBytes 4 s.scopeId.toNat)))

lemma sortKey_injective : Function.Injective sortKey := by
  intro a b h
  cases a with
  | v4 s =>
      cases b with
      | v6 t => simp [sortKey] at h
      | v4 t =>
          simp only [sortKey, List.cons.injEq, true_and] at h
          obtain ⟨hip, hport⟩ := List.append_inj h (by simp)
          have hp : s.port = t.port :=
            UInt16.toNat_inj.mp (beBytes_inj (s.port.toNat_lt) (t.port.toNat_lt) hport)
          obtain ⟨ip, port⟩ := s
          obtain ⟨ip', port'⟩ := t
          simp_all
  | v6 s =>
      cases b with
      | v4 t => simp [sortKey] at h
      | v6 t =>
          simp only [sortKey, List.cons.injEq, true_and] at h
          obtain ⟨hip, h⟩ := List.append_inj h (by simp)
          obtain ⟨hport, h⟩ := List.append_inj h (by simp)
          obtain ⟨hflow, hscope⟩ := List.append_inj h (by simp)
          have hp : s.port = t.port :=
            UInt16.toNat_inj.mp (beBytes_inj (s.port.toNat_lt) (t.port.toNat_lt) hport)
          have hf : s.flowinfo = t.flowinfo :=
            UInt32.toNat_inj.mp (beBytes_inj (s.flowinfo.toNat_lt) (t.flowinfo.toNat_lt) hflow)
          have hs : s.scopeId = t.scopeId :=
            UInt32.toNat_inj.mp (beBytes_inj (s.scopeId.toNat_lt) (t.scopeId.toNat_lt) hscope)
          obtain ⟨ip, port, flow, scope⟩ := s
          obtain ⟨ip', port', flow', scope'⟩ := t
          simp_all

instance : Ord UdpAddr := ⟨compareOn sortKey⟩

instance : Std.TransOrd UdpAddr := inferInstanceAs (Std.TransCmp (compareOn sortKey))

instance : Std.LawfulEqOrd UdpAddr where
  eq_of_compare h := sortKey_injective (Std.LawfulEqOrd.eq_of_compare h)

end UdpAddr

/-! ### Peer identifiers -/

/-- A libp2p peer identifier: the bytes of a multihash. -/
structure PeerId where
  asBytes : Bytes
  deriving DecidableEq

/-- Protobuf key-type discriminant of Ed25519. -/
def KEY_TYPE_ED25519 : UInt8 := 1

/-- Multihash code of the identity function. -/
def IDENTITY_MULTIHASH_CODE : UInt8 := 0x00

/-- The protobuf `PublicKey` message of an Ed25519 key. -/
def ed25519Protobuf (key : Arr 32) : Bytes := [0x08, KEY_TYPE_ED25519, 0x12, 32] ++ key.bytes

/-- The identity multihash of a protobuf message. -/
def identityMultihashFromArray (pb : Bytes) : Bytes :=
  [IDENTITY_MULTIHASH_CODE, UInt8.ofNat pb.length] ++ pb

/-- The peer identifier of an Ed25519 public key. -/
def PeerId.fromEd25519 (key : Arr 32) : PeerId := ⟨identityMultihashFromArray (ed25519Protobuf key)⟩

end Libp2pCat
