import Libp2pCat.Noise.Primitives
import Libp2pCat.Lib.Effect

/-!
`libp2p-cat-noise/src/symmetric.rs`: the running state of a handshake.

* `SymmetricState` and its operations `mixHash`, `mixKey`, `encryptAndHash`,
  `decryptAndHash`, `split`.
* `aeadEncrypt`, `aeadDecrypt`: the AEAD under the Noise nonce encoding
  `chachaNonce`.
* `decryptAndHash_encryptAndHash`: two peers in the same state stay in the same
  state over one ciphertext, and the receiver reads what the sender wrote.
-/

namespace Libp2pCat

open ByteString

/-- The protocol name, which initialises the hash and the chaining key. -/
def PROTOCOL_NAME : Key := ⟨ofText "Noise_XX_25519_ChaChaPoly_BLAKE3", by decide⟩

/-- The running state of a handshake. -/
structure SymmetricState where
  chainingKey : Key
  hash : Key
  cipherKey : Option Key
  nonce : UInt64
  deriving DecidableEq

variable (C : Crypto)

/-- The two-output key derivation: the halves of the keyed output stream. -/
def kdfTwo (key : Key) (input : Bytes) : Key × Key :=
  let out := C.blake3KeyedXof key input
  (out.front KEY_LEN, out.back KEY_LEN)

/-- The hash of `previousHash || data`. -/
def blake3HashTwo (previousHash : Key) (data : Bytes) : Key := C.blake3 (previousHash.bytes ++ data)

/-- The AEAD nonce of a counter: four zero bytes, then the counter in
little-endian. -/
def chachaNonce (counter : UInt64) : Arr 12 :=
  ⟨List.replicate 4 0 ++ leBytes 8 counter.toNat, by simp⟩

/-- AEAD encryption under a counter nonce. -/
def aeadEncrypt (key : Key) (nonce : UInt64) (aad plaintext : Bytes) : Except Error Bytes :=
  match C.chachaEncrypt key (chachaNonce nonce) aad plaintext with
  | some ciphertext => .ok ciphertext
  | none => .error .noiseDecrypt

/-- AEAD decryption under a counter nonce. -/
def aeadDecrypt (key : Key) (nonce : UInt64) (aad ciphertext : Bytes) : Except Error Bytes :=
  match C.chachaDecrypt key (chachaNonce nonce) aad ciphertext with
  | some plaintext => .ok plaintext
  | none => .error .noiseDecrypt

variable {C} in
lemma aeadEncrypt_eq_ok_iff {key : Key} {nonce : UInt64} {aad p c : Bytes} :
    aeadEncrypt C key nonce aad p = .ok c ↔ C.chachaEncrypt key (chachaNonce nonce) aad p = some c := by
  rw [aeadEncrypt]
  cases C.chachaEncrypt key (chachaNonce nonce) aad p <;> simp

variable {C} in
lemma aeadDecrypt_eq_ok_iff {key : Key} {nonce : UInt64} {aad c p : Bytes} :
    aeadDecrypt C key nonce aad c = .ok p ↔ C.chachaDecrypt key (chachaNonce nonce) aad c = some p := by
  rw [aeadDecrypt]
  cases C.chachaDecrypt key (chachaNonce nonce) aad c <;> simp

namespace SymmetricState

/-- The state before the first message. -/
def initial : SymmetricState where
  chainingKey := PROTOCOL_NAME
  hash := PROTOCOL_NAME
  cipherKey := none
  nonce := 0

/-- Mix bytes into the running hash. -/
def mixHash (s : SymmetricState) (data : Bytes) : SymmetricState :=
  { s with hash := blake3HashTwo C s.hash data }

/-- Mix a Diffie-Hellman output into the chaining key, deriving a cipher key and
resetting the nonce. -/
def mixKey (s : SymmetricState) (input : DhOutput) : SymmetricState :=
  let (nextChainingKey, nextCipherKey) := kdfTwo C s.chainingKey input.bytes
  { s with chainingKey := nextChainingKey, cipherKey := some nextCipherKey, nonce := 0 }

/-- Encrypt under the cipher key with the hash as associated data and mix the
ciphertext in; without a cipher key the plaintext is passed through. -/
def encryptAndHash (s : SymmetricState) (plaintext : Bytes) :
    Except Error (SymmetricState × Bytes) :=
  match s.cipherKey with
  | none => .ok (s.mixHash C plaintext, plaintext)
  | some key => do
      let ciphertext ← aeadEncrypt C key s.nonce s.hash.bytes plaintext
      let next := { s with nonce := s.nonce + 1, cipherKey := some key }.mixHash C ciphertext
      pure (next, ciphertext)

/-- The dual of `encryptAndHash`. -/
def decryptAndHash (s : SymmetricState) (ciphertext : Bytes) :
    Except Error (SymmetricState × Bytes) :=
  match s.cipherKey with
  | none => .ok (s.mixHash C ciphertext, ciphertext)
  | some key => do
      let plaintext ← aeadDecrypt C key s.nonce s.hash.bytes ciphertext
      let next := { s with nonce := s.nonce + 1, cipherKey := some key }.mixHash C ciphertext
      pure (next, plaintext)

/-- The two transport keys, initiator to responder first. -/
def split (s : SymmetricState) : Key × Key := kdfTwo C s.chainingKey []

/-! ### One ciphertext between two peers -/

variable {C}

@[simp] lemma mixHash_cipherKey (s : SymmetricState) (d : Bytes) :
    (s.mixHash C d).cipherKey = s.cipherKey := rfl

@[simp] lemma mixHash_nonce (s : SymmetricState) (d : Bytes) :
    (s.mixHash C d).nonce = s.nonce := rfl

@[simp] lemma mixHash_hash (s : SymmetricState) (d : Bytes) :
    (s.mixHash C d).hash = blake3HashTwo C s.hash d := rfl

@[simp] lemma mixKey_hash (s : SymmetricState) (k : DhOutput) : (s.mixKey C k).hash = s.hash := rfl

@[simp] lemma mixKey_cipherKey (s : SymmetricState) (k : DhOutput) :
    (s.mixKey C k).cipherKey = some (kdfTwo C s.chainingKey k.bytes).2 := rfl

@[simp] lemma mixKey_nonce (s : SymmetricState) (k : DhOutput) : (s.mixKey C k).nonce = 0 := rfl

/-- Without a cipher key, encryption only mixes the plaintext in. -/
lemma encryptAndHash_of_none {s : SymmetricState} (h : s.cipherKey = none) (p : Bytes) :
    s.encryptAndHash C p = .ok (s.mixHash C p, p) := by
  rw [encryptAndHash, h]

/-- Without a cipher key, decryption only mixes the ciphertext in. -/
lemma decryptAndHash_of_none {s : SymmetricState} (h : s.cipherKey = none) (c : Bytes) :
    s.decryptAndHash C c = .ok (s.mixHash C c, c) := by
  rw [decryptAndHash, h]

/-- With a cipher key set, encryption succeeds, the ciphertext is a tag longer
than the plaintext, and a peer in the same state decrypts it into the same next
state. -/
lemma encryptAndHash_spec (hC : C.Agrees) {s : SymmetricState} {key : Key}
    (hkey : s.cipherKey = some key) (plaintext : Bytes) :
    ∃ s' c, s.encryptAndHash C plaintext = .ok (s', c) ∧
      s.decryptAndHash C c = .ok (s', plaintext) ∧
      c.length = plaintext.length + AEAD_TAG_LEN ∧ s'.cipherKey = some key := by
  obtain ⟨c, henc, hlen, hdec⟩ :=
    hC.encrypt_decrypt key (chachaNonce s.nonce) s.hash.bytes plaintext
  refine ⟨{ s with nonce := s.nonce + 1, cipherKey := some key }.mixHash C c, c, ?_, ?_, hlen, rfl⟩
  · rw [encryptAndHash, hkey]
    simp only [aeadEncrypt, henc, Except.ok_bind]
    rfl
  · rw [decryptAndHash, hkey]
    simp only [aeadDecrypt, hdec, Except.ok_bind]
    rfl

/-- Encryption and decryption keep the cipher key. -/
lemma encryptAndHash_cipherKey {s s' : SymmetricState} {c p : Bytes}
    (h : s.encryptAndHash C p = .ok (s', c)) : s'.cipherKey = s.cipherKey := by
  cases hkey : s.cipherKey with
  | none =>
      rw [encryptAndHash_of_none hkey] at h
      cases h
      exact hkey
  | some key =>
      rw [encryptAndHash, hkey] at h
      obtain ⟨c', -, h2⟩ := Except.bind_eq_ok_iff.mp h
      cases h2
      rfl

lemma decryptAndHash_cipherKey {s s' : SymmetricState} {c p : Bytes}
    (h : s.decryptAndHash C c = .ok (s', p)) : s'.cipherKey = s.cipherKey := by
  cases hkey : s.cipherKey with
  | none =>
      rw [decryptAndHash_of_none hkey] at h
      cases h
      exact hkey
  | some key =>
      rw [decryptAndHash, hkey] at h
      obtain ⟨p', -, h2⟩ := Except.bind_eq_ok_iff.mp h
      cases h2
      rfl

/-- With a cipher key set, the ciphertext is a tag longer than the plaintext. -/
lemma length_encryptAndHash (hC : C.Seals) {s s' : SymmetricState} {key : Key} {c p : Bytes}
    (hkey : s.cipherKey = some key) (h : s.encryptAndHash C p = .ok (s', c)) :
    c.length = p.length + AEAD_TAG_LEN := by
  rw [encryptAndHash, hkey] at h
  obtain ⟨c', henc, h2⟩ := Except.bind_eq_ok_iff.mp h
  cases h2
  obtain ⟨c', hseal, hlen⟩ := hC key (chachaNonce s.nonce) s.hash.bytes p
  rw [aeadEncrypt_eq_ok_iff.mp henc] at hseal
  cases hseal
  exact hlen

/-- Every accepted ciphertext is mixed into the hash. -/
lemma decryptAndHash_hash {s s' : SymmetricState} {c p : Bytes}
    (h : s.decryptAndHash C c = .ok (s', p)) : s'.hash = blake3HashTwo C s.hash c := by
  cases hkey : s.cipherKey with
  | none =>
      rw [decryptAndHash, hkey] at h
      cases h
      rfl
  | some key =>
      rw [decryptAndHash, hkey] at h
      obtain ⟨p', -, h2⟩ := Except.bind_eq_ok_iff.mp h
      cases h2
      rfl

/-- Every ciphertext written is mixed into the hash. -/
lemma encryptAndHash_hash {s s' : SymmetricState} {c p : Bytes}
    (h : s.encryptAndHash C p = .ok (s', c)) : s'.hash = blake3HashTwo C s.hash c := by
  cases hkey : s.cipherKey with
  | none =>
      rw [encryptAndHash, hkey] at h
      cases h
      rfl
  | some key =>
      rw [encryptAndHash, hkey] at h
      obtain ⟨c', -, h2⟩ := Except.bind_eq_ok_iff.mp h
      cases h2
      rfl

end SymmetricState

end Libp2pCat
