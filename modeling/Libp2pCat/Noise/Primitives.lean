import Mathlib.Data.UInt
import Libp2pCat.Types

/-!
`libp2p-cat-noise/src/primitives.rs`: keys, key pairs and the three
Diffie-Hellman helpers, over the functions of the external crates.

* `Crypto`: the functions of `x25519-dalek`, `blake3`, `chacha20poly1305` and
  `ed25519-dalek` the workspace calls, left as parameters.
* `Crypto.Agrees`: what the handshake relies on for honest peers:
  Diffie-Hellman commutes, encryption never fails, adds a tag of `AEAD_TAG_LEN`
  bytes and is undone by decryption.
* `sampleCrypto`: functions that keep these promises and can be run, on which the
  statements about every `Crypto` are evaluated.
* `StaticKeypair`: a key pair carries the proof that its public half belongs to
  its private half, as `from_private_bytes` is its only constructor.
-/

namespace Libp2pCat

open ByteString

/-- Width of every key, hash and Diffie-Hellman output. -/
abbrev KEY_LEN : ℕ := 32

/-- Length of the AEAD authentication tag. -/
abbrev AEAD_TAG_LEN : ℕ := 16

/-- A 32-byte key, hash or Diffie-Hellman output. -/
abbrev Key := Arr KEY_LEN

/-- The cryptographic functions of the external crates. -/
structure Crypto where
  /-- `PublicKey::from(&StaticSecret)`. -/
  x25519Public : Key → Key
  /-- `StaticSecret::diffie_hellman`. -/
  x25519 : Key → Key → Key
  /-- The plain BLAKE3 hash. -/
  blake3 : Bytes → Key
  /-- The first 64 bytes of the keyed BLAKE3 output stream. -/
  blake3KeyedXof : Key → Bytes → Arr (KEY_LEN + KEY_LEN)
  /-- `blake3::keyed_hash`. -/
  blake3KeyedHash : Key → Bytes → Key
  /-- `ChaCha20Poly1305::encrypt` with key, nonce, associated data and message. -/
  chachaEncrypt : Key → Arr 12 → Bytes → Bytes → Option Bytes
  /-- `ChaCha20Poly1305::decrypt`. -/
  chachaDecrypt : Key → Arr 12 → Bytes → Bytes → Option Bytes
  /-- The public half of an Ed25519 signing key. -/
  ed25519Public : Arr 32 → Arr 32
  /-- `SigningKey::try_sign`. -/
  ed25519TrySign : Arr 32 → Bytes → Except String (Arr 64)
  /-- `VerifyingKey::from_bytes`. -/
  ed25519VerifyingKey : Arr 32 → Except String Unit
  /-- `VerifyingKey::verify_strict`. -/
  ed25519VerifyStrict : Arr 32 → Bytes → Arr 64 → Except String Unit

/-- What the external crates promise to honest peers. -/
structure Crypto.Agrees (C : Crypto) : Prop where
  dh_comm : ∀ a b, C.x25519 a (C.x25519Public b) = C.x25519 b (C.x25519Public a)
  encrypt_decrypt : ∀ key nonce aad msg, ∃ c, C.chachaEncrypt key nonce aad msg = some c ∧
    c.length = msg.length + AEAD_TAG_LEN ∧ C.chachaDecrypt key nonce aad c = some msg

/-- Encryption never fails and adds the tag. -/
def Crypto.Seals (C : Crypto) : Prop :=
  ∀ key nonce aad msg, ∃ c, C.chachaEncrypt key nonce aad msg = some c ∧
    c.length = msg.length + AEAD_TAG_LEN

lemma Crypto.Agrees.seals {C : Crypto} (h : C.Agrees) : C.Seals := fun key nonce aad msg => by
  obtain ⟨c, hc, hlen, -⟩ := h.encrypt_decrypt key nonce aad msg
  exact ⟨c, hc, hlen⟩

/-- The tag of the sample AEAD: the nonce and the first bytes of the key. -/
def sampleTag (key : Key) (nonce : Arr 12) : Bytes := nonce.bytes ++ key.bytes.take 4

/-- A `Crypto` that can be run: private and public keys coincide and exchanges add
them bytewise, the hash counts the items it absorbed in its first byte, the AEAD
appends its tag to the message and signatures repeat the public key. -/
def sampleCrypto : Crypto where
  x25519Public k := k
  x25519 a b := ⟨List.zipWith (· + ·) a.bytes b.bytes, by simp⟩
  blake3 bs := ⟨((bs.headD 0 + 1) :: bs.tail ++ List.replicate KEY_LEN 0).take KEY_LEN, by
    simp [KEY_LEN]⟩
  blake3KeyedXof key _ := ⟨key.bytes ++ key.bytes.reverse, by simp⟩
  blake3KeyedHash key input := ⟨(input.sum :: key.bytes).take KEY_LEN, by simp [KEY_LEN]⟩
  chachaEncrypt key nonce _ msg := some (msg ++ sampleTag key nonce)
  chachaDecrypt key nonce _ c :=
    if AEAD_TAG_LEN ≤ c.length ∧ c.drop (c.length - AEAD_TAG_LEN) = sampleTag key nonce then
      some (c.take (c.length - AEAD_TAG_LEN))
    else none
  ed25519Public k := k
  ed25519TrySign k _ := .ok ⟨k.bytes ++ k.bytes, by simp⟩
  ed25519VerifyingKey _ := .ok ()
  ed25519VerifyStrict k _ sig :=
    if sig.bytes = k.bytes ++ k.bytes then .ok () else .error "signature mismatch"

lemma sampleCrypto_agrees : sampleCrypto.Agrees where
  dh_comm a b := Subtype.ext (List.zipWith_comm_of_comm fun x y => UInt8.add_comm x y)
  encrypt_decrypt key nonce _ msg := by
    have hlen : (sampleTag key nonce).length = AEAD_TAG_LEN := by simp [sampleTag, KEY_LEN]
    refine ⟨msg ++ sampleTag key nonce, rfl, by rw [List.length_append, hlen], ?_⟩
    simp [sampleCrypto, hlen]

/-- A static X25519 private key. -/
abbrev StaticPrivateKey := Key

/-- A static X25519 public key. -/
abbrev StaticPublicKey := Key

/-- An ephemeral X25519 private key. -/
abbrev EphemeralPrivateKey := Key

/-- An ephemeral X25519 public key. -/
abbrev EphemeralPublicKey := Key

/-- The output of one Diffie-Hellman exchange. -/
abbrev DhOutput := Key

/-- A long-lived key pair. -/
structure StaticKeypair (C : Crypto) where
  privateKey : StaticPrivateKey
  publicKey : StaticPublicKey
  public_eq : publicKey = C.x25519Public privateKey

/-- Derive a key pair from its private bytes. -/
def StaticKeypair.fromPrivateBytes (C : Crypto) (privateBytes : Key) : StaticKeypair C where
  privateKey := privateBytes
  publicKey := C.x25519Public privateBytes
  public_eq := rfl

@[simp] lemma StaticKeypair.fromPrivateBytes_publicKey (C : Crypto) (privateBytes : Key) :
    (StaticKeypair.fromPrivateBytes C privateBytes).publicKey = C.x25519Public privateBytes := rfl

variable (C : Crypto)

/-- The ephemeral private key of a seed. -/
def EphemeralPrivateKey.fromSeed (seed : Key) : EphemeralPrivateKey := seed

/-- The public half of an ephemeral key. -/
def EphemeralPrivateKey.publicKey (k : EphemeralPrivateKey) : EphemeralPublicKey := C.x25519Public k

/-- One Diffie-Hellman exchange on raw keys. -/
def dhRaw (privateBytes publicBytes : Key) : Key := C.x25519 privateBytes publicBytes

/-- Ephemeral private key against an ephemeral public key. -/
def dhEe (priv : EphemeralPrivateKey) (pub : EphemeralPublicKey) : DhOutput := dhRaw C priv pub

/-- Ephemeral private key against a static public key. -/
def dhEs (priv : EphemeralPrivateKey) (pub : StaticPublicKey) : DhOutput := dhRaw C priv pub

/-- Static private key against an ephemeral public key. -/
def dhSe (priv : StaticPrivateKey) (pub : EphemeralPublicKey) : DhOutput := dhRaw C priv pub

variable {C}

/-- The two ends of an `ee` token agree. -/
lemma Crypto.Agrees.dhEe_comm (h : C.Agrees) (a b : EphemeralPrivateKey) :
    dhEe C a (b.publicKey C) = dhEe C b (a.publicKey C) := h.dh_comm a b

/-- The two ends of an `es` or `se` token agree: the ephemeral side against the
static side. -/
lemma Crypto.Agrees.dhEs_eq_dhSe (h : C.Agrees) (e : EphemeralPrivateKey) (s : StaticKeypair C) :
    dhEs C e s.publicKey = dhSe C s.privateKey (e.publicKey C) := by
  rw [s.public_eq]
  exact h.dh_comm e s.privateKey

end Libp2pCat
