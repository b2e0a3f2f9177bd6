import Libp2pCat.Noise.Primitives
import Libp2pCat.Lib.Effect

/-!
`libp2p-cat-identity`: Ed25519 identities bound to Noise static keys.

* `Ed25519Keypair` (`keypair.rs`), `SignedStaticKey` (`signed_static_key.rs`): the key
  pair and the signed binding a host sends as its handshake trailer.
* `SignedStaticKey.Binds`: the strict signature over `DOMAIN_TAG || static key` verifies;
  `verify_eq_ok_iff` says that `verify` tests exactly this.
* `fromBytes_eq_ok_iff`: a binding is read off every string that starts with its wire form.
* `fromBytes_toBytes`, `create_verify`: an honest binding survives the wire and verifies,
  for signatures that verify under the key that made them (`Crypto.SignsVerify`).
-/

namespace Libp2pCat

open ByteString

/-- Domain separator prefixed to the signed input. -/
def DOMAIN_TAG : Bytes := ofText "libp2p-cat-identity-static-key:"

/-- Length of an Ed25519 public key on the wire. -/
abbrev ED25519_PUBLIC_KEY_LEN : ℕ := 32

/-- Length of an Ed25519 signature on the wire. -/
abbrev ED25519_SIGNATURE_LEN : ℕ := 64

/-- Wire width of a `SignedStaticKey`. -/
abbrev SIGNED_STATIC_KEY_LEN : ℕ := ED25519_PUBLIC_KEY_LEN + ED25519_SIGNATURE_LEN

/-- The compressed encoding of an Ed25519 public key. -/
abbrev Ed25519PublicKey := Arr ED25519_PUBLIC_KEY_LEN

/-- A detached Ed25519 signature. -/
abbrev Ed25519Signature := Arr ED25519_SIGNATURE_LEN

variable (C : Crypto)

/-- Reconstruct the verifying key of the encoded public key. -/
def Ed25519PublicKey.verifyingKey (pk : Ed25519PublicKey) : Except Error Unit :=
  (C.ed25519VerifyingKey pk).mapError fun e =>
    .identityVerify s!"ed25519 public key bytes are not a valid curve point: {e}"

/-- The peer identifier of a public key. -/
def Ed25519PublicKey.peerId (pk : Ed25519PublicKey) : PeerId := PeerId.fromEd25519 pk

/-- An Ed25519 signing key pair; the public half belongs to the secret half. -/
structure Ed25519Keypair where
  signingKey : Arr 32
  publicKey : Ed25519PublicKey
  public_eq : publicKey = C.ed25519Public signingKey

/-- The key pair of a seed. -/
def Ed25519Keypair.fromSeed (seed : Arr 32) : Ed25519Keypair C where
  signingKey := seed
  publicKey := C.ed25519Public seed
  public_eq := rfl

variable {C}

/-- The peer identifier of a key pair. -/
def Ed25519Keypair.peerId (kp : Ed25519Keypair C) : PeerId := kp.publicKey.peerId

/-- Sign a message. -/
def Ed25519Keypair.trySign (kp : Ed25519Keypair C) (message : Bytes) :
    Except Error Ed25519Signature :=
  (C.ed25519TrySign kp.signingKey message).mapError fun e =>
    .identityVerify s!"ed25519 try_sign failed: {e}"

/-- The byte string that is signed for a static key. -/
def signedInput (staticPub : StaticPublicKey) : Bytes := DOMAIN_TAG ++ staticPub.bytes

/-- An Ed25519 binding of a Noise static key. -/
structure SignedStaticKey where
  publicKey : Ed25519PublicKey
  signature : Ed25519Signature
  deriving DecidableEq

namespace SignedStaticKey

/-- Sign a static key. -/
def create (keypair : Ed25519Keypair C) (staticPub : StaticPublicKey) :
    Except Error SignedStaticKey := do
  let input := signedInput staticPub
  let signature ← keypair.trySign input
  pure { publicKey := keypair.publicKey, signature := signature }

variable (C) in
/-- Verify the binding against a static key. -/
def verify (s : SignedStaticKey) (staticPub : StaticPublicKey) :
    Except Error (Ed25519PublicKey × PeerId) := do
  s.publicKey.verifyingKey C
  let input := signedInput staticPub
  (C.ed25519VerifyStrict s.publicKey input s.signature).mapError fun e =>
    .identityVerify s!"ed25519 signature did not verify: {e}"
  pure (s.publicKey, s.publicKey.peerId)

/-- The wire form: public key, then signature. -/
def toBytes (s : SignedStaticKey) : Bytes := s.publicKey.bytes ++ s.signature.bytes

/-- Decode a binding.  Bytes past the first `SIGNED_STATIC_KEY_LEN` are not looked
at. -/
def fromBytes (bytes : Bytes) : Except Error SignedStaticKey := do
  let short := Error.identityVerify
    s!"SignedStaticKey wire payload needs {SIGNED_STATIC_KEY_LEN} bytes, got {bytes.length}"
  let pkSlice ← okOr (sliceTo bytes ED25519_PUBLIC_KEY_LEN) short
  let sigSlice ← okOr (sliceRange bytes ED25519_PUBLIC_KEY_LEN SIGNED_STATIC_KEY_LEN) short
  let pkArr ← okOr (Arr.tryFrom ED25519_PUBLIC_KEY_LEN pkSlice) (.identityVerify
    s!"SignedStaticKey public-key slice not {ED25519_PUBLIC_KEY_LEN} bytes wide")
  let sigArr ← okOr (Arr.tryFrom ED25519_SIGNATURE_LEN sigSlice) (.identityVerify
    s!"SignedStaticKey signature slice not {ED25519_SIGNATURE_LEN} bytes wide")
  pure { publicKey := pkArr, signature := sigArr }

/-! ### What a verified binding is -/

variable (C) in
/-- The strict signature over the domain tag and the static key verifies under the
public key. -/
def Binds (s : SignedStaticKey) (staticPub : StaticPublicKey) : Prop :=
  C.ed25519VerifyingKey s.publicKey = .ok () ∧
    C.ed25519VerifyStrict s.publicKey (DOMAIN_TAG ++ staticPub.bytes) s.signature = .ok ()

/-- `verify` accepts exactly the bindings, and names the peer of their public key. -/
lemma verify_eq_ok_iff {s : SignedStaticKey} {staticPub : StaticPublicKey}
    {r : Ed25519PublicKey × PeerId} :
    s.verify C staticPub = .ok r ↔
      s.Binds C staticPub ∧ r = (s.publicKey, PeerId.fromEd25519 s.publicKey) := by
  rw [verify, Binds, Ed25519PublicKey.verifyingKey, signedInput]
  simp only [Except.bind_eq_ok_iff, Except.mapError_eq_ok_iff]
  refine ⟨?_, ?_⟩
  · rintro ⟨_, hkey, _, hsig, h⟩
    cases h
    exact ⟨⟨hkey, hsig⟩, rfl⟩
  · rintro ⟨⟨hkey, hsig⟩, rfl⟩
    exact ⟨(), hkey, (), hsig, rfl⟩

@[simp] lemma length_toBytes (s : SignedStaticKey) : s.toBytes.length = SIGNED_STATIC_KEY_LEN := by
  rw [toBytes, List.length_append, Arr.length_bytes, Arr.length_bytes]

/-- A binding is read off every byte string that starts with its wire form. -/
lemma fromBytes_eq_ok_iff {bytes : Bytes} {s : SignedStaticKey} :
    fromBytes bytes = .ok s ↔ s.toBytes <+: bytes := by
  simp only [fromBytes, Except.bind_eq_ok_iff, okOr_eq_ok_iff, sliceTo_eq_some_iff,
    sliceRange_eq_some_iff, Arr.tryFrom_eq_some_iff]
  constructor
  · rintro ⟨_, ⟨hpk, rfl⟩, _, ⟨⟨-, hsig⟩, rfl⟩, pk, hpkArr, sig, hsigArr, hs⟩
    cases hs
    rw [toBytes, hpkArr, hsigArr, ← List.take_add]
    exact List.take_prefix _ _
  · rintro ⟨rest, rfl⟩
    have hlen := s.length_toBytes
    have hpk := s.publicKey.length_bytes
    have hsig := s.signature.length_bytes
    refine ⟨_, ⟨?_, rfl⟩, _, ⟨⟨by norm_num, ?_⟩, rfl⟩, s.publicKey, ?_, s.signature, ?_, rfl⟩
    · rw [List.length_append, hlen]
      simp only [SIGNED_STATIC_KEY_LEN]
      omega
    · rw [List.length_append, hlen]
      exact Nat.le_add_right _ _
    · rw [toBytes, List.append_assoc, List.take_left' hpk]
    · rw [toBytes, List.append_assoc, List.drop_left' hpk]
      exact (List.take_left' hsig).symm

/-- Every byte string of at least that width starts with the wire form of a binding. -/
lemma exists_toBytes_prefix {bytes : Bytes} (h : SIGNED_STATIC_KEY_LEN ≤ bytes.length) :
    ∃ s : SignedStaticKey, s.toBytes <+: bytes := by
  have hpk : (bytes.take ED25519_PUBLIC_KEY_LEN).length = ED25519_PUBLIC_KEY_LEN :=
    List.length_take_of_le ((Nat.le_add_right _ _).trans h)
  have hsig : ((bytes.drop ED25519_PUBLIC_KEY_LEN).take ED25519_SIGNATURE_LEN).length
      = ED25519_SIGNATURE_LEN := by
    refine List.length_take_of_le ?_
    rw [List.length_drop]
    exact Nat.le_sub_of_add_le' h
  refine ⟨⟨Arr.ofBytes _ hpk, Arr.ofBytes _ hsig⟩, ?_⟩
  rw [toBytes, Arr.bytes_ofBytes, Arr.bytes_ofBytes, ← List.take_add]
  exact List.take_prefix _ _

/-- A binding survives the wire. -/
lemma fromBytes_toBytes (s : SignedStaticKey) : fromBytes s.toBytes = .ok s :=
  fromBytes_eq_ok_iff.mpr List.prefix_rfl

end SignedStaticKey

/-- Signatures verify under the public half of the key that made them. -/
def Crypto.SignsVerify (C : Crypto) : Prop :=
  ∀ seed msg sig, C.ed25519TrySign seed msg = .ok sig →
    C.ed25519VerifyingKey (C.ed25519Public seed) = .ok () ∧
      C.ed25519VerifyStrict (C.ed25519Public seed) msg sig = .ok ()

lemma sampleCrypto_signsVerify : sampleCrypto.SignsVerify := by
  intro seed msg sig h
  cases h
  exact ⟨rfl, if_pos rfl⟩

/-- An honest binding verifies and names the peer of the key pair. -/
lemma SignedStaticKey.create_verify (hC : C.SignsVerify) {kp : Ed25519Keypair C}
    {staticPub : StaticPublicKey} {s : SignedStaticKey} (h : create kp staticPub = .ok s) :
    s.verify C staticPub = .ok (kp.publicKey, kp.peerId) := by
  obtain ⟨sig, hsig, hs⟩ := Except.bind_eq_ok_iff.mp h
  cases hs
  obtain ⟨hkey, hver⟩ := hC _ _ _ (Except.mapError_eq_ok_iff.mp hsig)
  rw [← kp.public_eq] at hkey hver
  exact verify_eq_ok_iff.mpr ⟨⟨hkey, hver⟩, rfl⟩

end Libp2pCat
