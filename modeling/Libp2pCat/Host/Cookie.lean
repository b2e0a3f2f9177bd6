import Libp2pCat.Noise.Handshake

/-!
`libp2p-cat-host/src/cookie.rs`: stateless source-address validation.

* `mint`, `challenge`, `isChallenge`, `verify`, `addrBytes`: the code, with the keyed hash
  of `Crypto`.
* `verify_eq_true_iff`: the constant-time comparison accepts exactly the minted cookie.
* `macInput_inj`: the input of the hash determines the ephemeral key, the port and the IP in its
  canonical form; `cookie_binds`: so a cookie passes for no other source and key.
-/

namespace Libp2pCat.Cookie

open ByteString

/-- Length of the truncated cookie MAC. -/
abbrev COOKIE_MAC_LEN : ℕ := 16

/-- Marker byte of a cookie challenge. -/
def COOKIE_REPLY_MARKER : UInt8 := 0xC0

/-- Wire length of a cookie challenge. -/
abbrev COOKIE_REPLY_LEN : ℕ := 1 + COOKIE_MAC_LEN

/-- Wire length of message 1 with its echoed cookie. -/
abbrev MSG1_WITH_COOKIE_LEN : ℕ := MESSAGE_1_LEN + COOKIE_MAC_LEN

/-- Domain separation of the cookie MAC input. -/
def COOKIE_DOMAIN : Bytes := ofText "libp2p-cat-host cookie v1"

/-- Source address encoding of the MAC input: family tag, octets and port, with
IPv4-mapped IPv6 addresses in their IPv4 form. -/
def addrBytes : UdpAddr → Bytes
  | .v4 s => 0x04 :: (s.ip.bytes ++ beBytes 2 s.port.toNat)
  | .v6 s =>
      match s.ip.toIpv4Mapped with
      | some v4 => 0x04 :: (v4.bytes ++ beBytes 2 s.port.toNat)
      | none => 0x06 :: (s.ip.bytes ++ beBytes 2 s.port.toNat)

variable (C : Crypto)

/-- The cookie of a source address and an ephemeral key. -/
def mint (secret : Key) (addr : UdpAddr) (e : Bytes) : Arr COOKIE_MAC_LEN :=
  let input := COOKIE_DOMAIN ++ (addrBytes addr ++ e)
  let full := C.blake3KeyedHash secret input
  ⟨full.bytes.take COOKIE_MAC_LEN, by simp [KEY_LEN, COOKIE_MAC_LEN]⟩

/-- The challenge that answers a bare message 1. -/
def challenge (secret : Key) (addr : UdpAddr) (e : Bytes) : Bytes :=
  COOKIE_REPLY_MARKER :: (mint C secret addr e).bytes

/-- Whether a datagram has the shape of a challenge. -/
def isChallenge (datagram : Bytes) : Bool :=
  decide (datagram.length = COOKIE_REPLY_LEN) && decide (datagram.head? = some COOKIE_REPLY_MARKER)

/-- The accumulated difference of two byte strings of the same length. -/
def xorDiff (expected echoed : Bytes) : UInt8 :=
  (expected.zip echoed).foldl (fun acc p => acc ||| (p.1 ^^^ p.2)) 0

/-- Constant-time verification of an echoed cookie. -/
def verify (secret : Key) (addr : UdpAddr) (e mac : Bytes) : Bool :=
  match Arr.tryFrom COOKIE_MAC_LEN mac with
  | none => false
  | some echoed =>
      let expected := mint C secret addr e
      decide (xorDiff expected.bytes echoed.bytes = 0)

/-! ### What the comparison accepts -/

lemma foldl_xor_eq_zero_iff {a b : Bytes} (h : a.length = b.length) (acc : UInt8) :
    (a.zip b).foldl (fun acc p => acc ||| (p.1 ^^^ p.2)) acc = 0 ↔ acc = 0 ∧ a = b := by
  induction a generalizing b acc with
  | nil =>
      obtain rfl : b = [] := List.length_eq_zero_iff.mp h.symm
      simp
  | cons x a ih =>
      cases b with
      | nil => cases h
      | cons y b =>
          rw [List.zip_cons_cons, List.foldl_cons, ih (Nat.succ_injective h)]
          simp [and_assoc]

/-- The echoed cookie passes exactly when it is the minted one. -/
lemma verify_eq_true_iff {secret : Key} {addr : UdpAddr} {e mac : Bytes} :
    verify C secret addr e mac = true ↔ mac = (mint C secret addr e).bytes := by
  rw [verify]
  cases hmac : Arr.tryFrom COOKIE_MAC_LEN mac with
  | none =>
      have hlen := Arr.tryFrom_eq_none_iff.mp hmac
      simp only [Bool.false_eq_true, false_iff]
      intro heq
      exact hlen (heq ▸ Arr.length_bytes _)
  | some echoed =>
      obtain rfl := Arr.tryFrom_eq_some_iff.mp hmac
      have hlen : (mint C secret addr e).bytes.length = echoed.bytes.length := by
        rw [Arr.length_bytes, Arr.length_bytes]
      simp only [decide_eq_true_eq, xorDiff, foldl_xor_eq_zero_iff hlen, true_and]
      exact eq_comm

/-- A message 1 with the cookie minted for its source and its ephemeral key. -/
def Valid (secret : Key) (addr : UdpAddr) (datagram : Bytes) : Prop :=
  datagram.length = MSG1_WITH_COOKIE_LEN ∧
    datagram.drop MESSAGE_1_LEN = (mint C secret addr (datagram.take MESSAGE_1_LEN)).bytes

instance (secret : Key) (addr : UdpAddr) (datagram : Bytes) :
    Decidable (Valid C secret addr datagram) :=
  inferInstanceAs (Decidable (_ ∧ _))

@[simp] lemma length_challenge (secret : Key) (addr : UdpAddr) (e : Bytes) :
    (challenge C secret addr e).length = COOKIE_REPLY_LEN := by
  rw [challenge, List.length_cons, Arr.length_bytes, Nat.add_comm]

lemma isChallenge_challenge (secret : Key) (addr : UdpAddr) (e : Bytes) :
    isChallenge (challenge C secret addr e) = true := by
  rw [isChallenge, length_challenge, decide_eq_true rfl, Bool.true_and, challenge, List.head?_cons]
  exact decide_eq_true rfl

/-! ### What a cookie is bound to -/

/-- An IP address. -/
inductive IpAddr where
  | v4 (ip : Ipv4Addr)
  | v6 (ip : Ipv6Addr)
  deriving DecidableEq

/-- The IP of a source, an IPv4-mapped IPv6 address in its IPv4 form. -/
def canonicalIp : UdpAddr → IpAddr
  | .v4 s => .v4 s.ip
  | .v6 s =>
      match s.ip.toIpv4Mapped with
      | some v4 => .v4 v4
      | none => .v6 s.ip

def port : UdpAddr → UInt16
  | .v4 s => s.port
  | .v6 s => s.port

/-- The family tag and the octets of an IP. -/
def ipBytes : IpAddr → Bytes
  | .v4 ip => 0x04 :: ip.bytes
  | .v6 ip => 0x06 :: ip.bytes

lemma addrBytes_eq (addr : UdpAddr) :
    addrBytes addr = ipBytes (canonicalIp addr) ++ beBytes 2 (port addr).toNat := by
  cases addr with
  | v4 s => rfl
  | v6 s =>
      rw [addrBytes, canonicalIp, port]
      cases s.ip.toIpv4Mapped <;> rfl

/-- No family tag and octets are the front of another. -/
lemma ipBytes_append_inj {ip ip' : IpAddr} {rest rest' : Bytes}
    (h : ipBytes ip ++ rest = ipBytes ip' ++ rest') : ip = ip' ∧ rest = rest' := by
  cases ip with
  | v4 ip =>
      cases ip' with
      | v4 ip' =>
          obtain ⟨-, htail⟩ := List.cons.inj h
          obtain ⟨hip, hrest⟩ := List.append_inj htail (by simp)
          exact ⟨congrArg IpAddr.v4 (Arr.bytes_inj.mp hip), hrest⟩
      | v6 ip' => cases (List.cons.inj h).1
  | v6 ip =>
      cases ip' with
      | v4 ip' => cases (List.cons.inj h).1
      | v6 ip' =>
          obtain ⟨-, htail⟩ := List.cons.inj h
          obtain ⟨hip, hrest⟩ := List.append_inj htail (by simp)
          exact ⟨congrArg IpAddr.v6 (Arr.bytes_inj.mp hip), hrest⟩

/-- What the cookie of a source and an ephemeral key is the hash of. -/
def macInput (addr : UdpAddr) (e : Bytes) : Bytes := COOKIE_DOMAIN ++ (addrBytes addr ++ e)

/-- The keyed hash, truncated. -/
def truncatedHash (secret : Key) (input : Bytes) : Bytes :=
  (C.blake3KeyedHash secret input).bytes.take COOKIE_MAC_LEN

lemma bytes_mint (secret : Key) (addr : UdpAddr) (e : Bytes) :
    (mint C secret addr e).bytes = truncatedHash C secret (macInput addr e) := rfl

/-- The input is not ambiguous: it determines the key, the port and the IP. -/
lemma macInput_inj {a a' : UdpAddr} {e e' : Bytes} :
    macInput a e = macInput a' e' ↔ e = e' ∧ port a = port a' ∧ canonicalIp a = canonicalIp a' := by
  rw [macInput, macInput, List.append_right_inj, addrBytes_eq, addrBytes_eq, List.append_assoc,
    List.append_assoc]
  constructor
  · intro h
    obtain ⟨hip, hrest⟩ := ipBytes_append_inj h
    obtain ⟨hport, he⟩ := List.append_inj hrest (by simp)
    exact ⟨he, UInt16.toNat_inj.mp (beBytes_inj (port a).toNat_lt (port a').toNat_lt hport), hip⟩
  · rintro ⟨rfl, hport, hip⟩
    rw [hport, hip]

/-- A cookie passes exactly if it has 16 bytes and is the minted one; and where the truncated hash
maps no two inputs to one value, the cookie minted for one source and ephemeral key passes for
another exactly if the key, the port and the canonical IP are the same. -/
theorem cookie_binds (secret : Key) :
    (∀ (addr : UdpAddr) (e : Arr KEY_LEN) (mac : Bytes), verify C secret addr e.bytes mac = true ↔
      mac.length = COOKIE_MAC_LEN ∧ mac = (mint C secret addr e.bytes).bytes) ∧
    ∀ (a a' : UdpAddr) (e e' : Arr KEY_LEN),
      Set.InjOn (truncatedHash C secret) {macInput a e.bytes, macInput a' e'.bytes} →
      (verify C secret a' e'.bytes (mint C secret a e.bytes).bytes = true ↔
        e = e' ∧ port a = port a' ∧ canonicalIp a = canonicalIp a') := by
  refine ⟨fun addr e mac => ?_, fun a a' e e' hinj => ?_⟩
  · rw [verify_eq_true_iff]
    constructor
    · rintro rfl
      exact ⟨Arr.length_bytes _, rfl⟩
    · exact fun h => h.2
  · rw [verify_eq_true_iff, bytes_mint, bytes_mint, ← Arr.bytes_inj (a := e), ← macInput_inj]
    exact hinj.eq_iff (by simp) (by simp)

/-- A source over IPv4, and the same one as a dual-stack socket reports it. -/
def plainSource : UdpAddr := .v4 ⟨.replicate 4 1, 9⟩

def mappedSource : UdpAddr :=
  .v6 ⟨⟨List.replicate 10 0 ++ [0xff, 0xff, 1, 1, 1, 1], rfl⟩, 9, 5, 7⟩

/-- The cookie of a source passes for its other form, and not with another ephemeral key. -/
theorem cookie_binds_sample :
    verify sampleCrypto (.replicate 32 2) mappedSource (Arr.replicate 32 3).bytes
      (mint sampleCrypto (.replicate 32 2) plainSource (Arr.replicate 32 3).bytes).bytes = true ∧
    ¬verify sampleCrypto (.replicate 32 2) mappedSource (Arr.replicate 32 4).bytes
      (mint sampleCrypto (.replicate 32 2) plainSource (Arr.replicate 32 3).bytes).bytes = true := by
  have hsame : macInput plainSource (Arr.replicate 32 3).bytes
      = macInput mappedSource (Arr.replicate 32 3).bytes := by decide +kernel
  have hother : truncatedHash sampleCrypto (.replicate 32 2)
        (macInput plainSource (Arr.replicate 32 3).bytes)
      ≠ truncatedHash sampleCrypto (.replicate 32 2)
        (macInput mappedSource (Arr.replicate 32 4).bytes) := by decide +kernel
  refine ⟨((cookie_binds sampleCrypto _).2 plainSource mappedSource (.replicate 32 3)
    (.replicate 32 3) ?_).mpr ?_, fun h => ?_⟩
  · rw [hsame, Set.pair_eq_singleton]
    exact Set.injOn_singleton _ _
  · refine ⟨rfl, by decide +kernel, by decide +kernel⟩
  · have hkeys := ((cookie_binds sampleCrypto _).2 plainSource mappedSource (.replicate 32 3)
      (.replicate 32 4) (Set.injOn_pair.mpr fun heq => absurd heq hother)).mp h
    exact absurd hkeys.1 (by decide)

end Libp2pCat.Cookie
