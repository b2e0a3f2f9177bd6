import Libp2pCat.Noise.Handshake
import Libp2pCat.Lib.HashChain

/-!
What the two sides of an XX handshake agree on.

* `handshake_agrees`: two honest peers reading each other's messages never fail
  and end with each other's static key and payload and mirrored transports.
* `exchange`, `exchange_mirrors`: the whole exchange as one computation.
* `transcript`: the items of messages 1 and 2 in the order both sides absorb them;
  `readResponse_digest` and `writeResponse_digest` say that the hash of either side is
  the digest of the transcript it saw.
* `transcript_binding`: when the responder accepts message 3, the network delivered
  messages 1 and 2 as they were written.
-/

namespace Libp2pCat

open ByteString

variable {C : Crypto}

/-! ### Honest peers -/

/-- Two honest peers complete the handshake, whatever their keys, seeds and
payloads. -/
lemma handshake_agrees (hC : C.Agrees) (kI kR : StaticKeypair C) (seedI seedR : Key)
    (p₂ : Bytes) :
    ∃ (rR : ResponderAfterResponse) (m₂ : Bytes) (iR : InitiatorAfterResponse C),
      (ResponderAfterE.mk kR (C.x25519Public seedI)
        (symAfterE C (C.x25519Public seedI))).writeResponse seedR p₂ = .ok (rR, m₂) ∧
      m₂.length = MESSAGE_2_OVERHEAD_LEN + p₂.length ∧
      (InitiatorAfterE.mk kI seedI (symAfterE C (C.x25519Public seedI))).readResponse m₂
        = .ok (iR, p₂) ∧
      iR.remoteStatic = kR.publicKey ∧
      ∀ p₃, ∃ (tI tR : TransportState) (m₃ : Bytes),
        iR.writeS p₃ = .ok (tI, m₃, kR.publicKey) ∧
        m₃.length = MESSAGE_3_OVERHEAD_LEN + p₃.length ∧
        rR.readS C m₃ = .ok (tR, kI.publicKey, p₃) ∧ tI.Mirrored tR := by
  have hee : dhEe C seedI (C.x25519Public seedR) = dhEe C seedR (C.x25519Public seedI) :=
    hC.dhEe_comm seedI seedR
  have hes : dhEs C seedI kR.publicKey = dhSe C kR.privateKey (C.x25519Public seedI) :=
    hC.dhEs_eq_dhSe seedI kR
  have hse : dhEs C seedR kI.publicKey = dhSe C kI.privateKey (C.x25519Public seedR) :=
    hC.dhEs_eq_dhSe seedR kI
  -- the two ciphertexts of message 2, then the two of message 3
  obtain ⟨s₁, c₁, henc₁, hdec₁, hlen₁, -⟩ := SymmetricState.encryptAndHash_spec hC
    (SymmetricState.mixKey_cipherKey
      ((symAfterE C (C.x25519Public seedI)).mixHash C (C.x25519Public seedR).bytes)
      (dhEe C seedR (C.x25519Public seedI))) kR.publicKey.bytes
  obtain ⟨s₂, c₂, henc₂, hdec₂, hlen₂, hkey₂⟩ := SymmetricState.encryptAndHash_spec hC
    (SymmetricState.mixKey_cipherKey s₁ (dhSe C kR.privateKey (C.x25519Public seedI))) p₂
  obtain ⟨s₃, c₃, henc₃, hdec₃, hlen₃, -⟩ :=
    SymmetricState.encryptAndHash_spec hC hkey₂ kI.publicKey.bytes
  rw [Arr.length_bytes] at hlen₁ hlen₃
  refine ⟨⟨seedR, s₂⟩, (C.x25519Public seedR).bytes ++ (c₁ ++ c₂),
    ⟨kI, C.x25519Public seedR, kR.publicKey, s₂⟩,
    writeResponse_eq_ok_iff.mpr ⟨s₁, c₁, s₂, c₂, henc₁, henc₂, rfl, rfl⟩, ?_,
    readResponse_eq_ok_iff.mpr ⟨C.x25519Public seedR, c₁, c₂, s₁, s₂, kR.publicKey, rfl, hlen₁,
      by rw [hlen₂]; omega, by rw [hee]; exact hdec₁, by rw [hes]; exact hdec₂, rfl⟩, rfl, ?_⟩
  · simp only [List.length_append, Arr.length_bytes, hlen₁, hlen₂, MESSAGE_2_OVERHEAD_LEN,
      EPH_PUBLIC_LEN, ENC_STATIC_LEN]
    omega
  · intro p₃
    obtain ⟨s₄, c₄, henc₄, hdec₄, hlen₄, -⟩ := SymmetricState.encryptAndHash_spec hC
      (SymmetricState.mixKey_cipherKey s₃ (dhSe C kI.privateKey (C.x25519Public seedR))) p₃
    refine ⟨_, _, c₃ ++ c₄, writeS_eq_ok_iff.mpr ⟨s₃, c₃, s₄, c₄, henc₃, henc₄, rfl, rfl, rfl⟩, ?_,
      readS_eq_ok_iff.mpr ⟨c₃, c₄, s₃, s₄, rfl, hlen₃, by rw [hlen₄]; omega, hdec₃,
        by rw [hse]; exact hdec₄, rfl⟩, TransportState.mirrored_new _ _⟩
    simp only [List.length_append, hlen₃, hlen₄, MESSAGE_3_OVERHEAD_LEN, ENC_STATIC_LEN]
    omega

/-- What an exchange leaves behind: the messages as they were written, the
symmetric states on both sides before message 3, and for each side its transport
and the static key and payload it read. -/
structure Exchange where
  message1 : Bytes
  message2 : Bytes
  message3 : Bytes
  initiatorSym : SymmetricState
  responderSym : SymmetricState
  initiator : TransportState
  initiatorSees : StaticPublicKey × Bytes
  responder : TransportState
  responderSees : StaticPublicKey × Bytes

/-- A handshake over a network that delivers `net₁ m₁` and `net₂ m₂` in place of
messages 1 and 2. -/
def exchange (net₁ net₂ : Bytes → Bytes) (kI kR : StaticKeypair C) (seedI seedR : Key)
    (p₂ p₃ : Bytes) : Except Error Exchange := do
  let (iE, m₁) ← (Initiator.new kI).writeE seedI
  let rE ← (Responder.new kR).readE (net₁ m₁)
  let (rR, m₂) ← rE.writeResponse seedR p₂
  let (iR, q₂) ← iE.readResponse (net₂ m₂)
  let (tI, m₃, rsI) ← iR.writeS p₃
  let (tR, rsR, q₃) ← rR.readS C m₃
  pure { message1 := m₁, message2 := m₂, message3 := m₃,
         initiatorSym := iR.sym, responderSym := rR.sym,
         initiator := tI, initiatorSees := (rsI, q₂), responder := tR, responderSees := (rsR, q₃) }

/-- Over a faithful network the handshake never fails, each side reads the other's
static key and payload, and the transports are mirror images. -/
theorem exchange_mirrors (hC : C.Agrees) (privI privR seedI seedR : Key) (p₂ p₃ : Bytes) :
    ∃ x, exchange id id (StaticKeypair.fromPrivateBytes C privI)
        (StaticKeypair.fromPrivateBytes C privR) seedI seedR p₂ p₃ = .ok x ∧
      x.initiatorSees = (C.x25519Public privR, p₂) ∧
      x.responderSees = (C.x25519Public privI, p₃) ∧
      x.message1.length = 32 ∧ x.message2.length = 96 + p₂.length ∧
      x.message3.length = 64 + p₃.length ∧ x.initiator.Mirrored x.responder := by
  obtain ⟨rR, m₂, iR, hwrite, hlen₂, hread, -, hrest⟩ := handshake_agrees hC
    (.fromPrivateBytes C privI) (.fromPrivateBytes C privR) seedI seedR p₂
  obtain ⟨tI, tR, m₃, hwriteS, hlen₃, hreadS, hmirror⟩ := hrest p₃
  refine ⟨⟨(C.x25519Public seedI).bytes, m₂, m₃, iR.sym, rR.sym, tI, (C.x25519Public privR, p₂), tR,
    (C.x25519Public privI, p₃)⟩, ?_, rfl, rfl, Arr.length_bytes _, hlen₂, hlen₃, hmirror⟩
  simp only [exchange, writeE_eq, Except.ok_bind, id_eq, readE_bytes, hwrite, hread, hwriteS, hreadS]
  rfl

/-- The exchange run on the sample functions. -/
theorem exchange_mirrors_sample :
    ∃ x, exchange id id (StaticKeypair.fromPrivateBytes sampleCrypto (.replicate 32 1))
        (StaticKeypair.fromPrivateBytes sampleCrypto (.replicate 32 2))
        (.replicate 32 3) (.replicate 32 4) [5, 6] [7] = .ok x ∧
      x.initiatorSees = (.replicate 32 2, [5, 6]) ∧ x.responderSees = (.replicate 32 1, [7]) ∧
      x.message1.length = 32 ∧ x.message2.length = 96 + 2 ∧ x.message3.length = 64 + 1 ∧
      x.initiator.Mirrored x.responder :=
  exchange_mirrors sampleCrypto_agrees (.replicate 32 1) (.replicate 32 2) (.replicate 32 3)
    (.replicate 32 4) [5, 6] [7]

/-! ### The transcript -/

/-- The items of messages 1 and 2 in the order both sides absorb them: the
initiator's ephemeral key, its empty trailer, and the three parts of message 2. -/
def transcript (m₁ m₂ : Bytes) : List Bytes :=
  [m₁, [], m₂.take EPH_PUBLIC_LEN, (m₂.drop EPH_PUBLIC_LEN).take ENC_STATIC_LEN,
    m₂.drop (EPH_PUBLIC_LEN + ENC_STATIC_LEN)]

/-- The pair of a digest and an item, as the running hash reads it. -/
def hashPair (h : Key) (d : Bytes) : Bytes := h.bytes ++ d

lemma hashPair_inj (h h' : Key) (d d' : Bytes) (heq : hashPair h d = hashPair h' d') :
    h = h' ∧ d = d' := by
  obtain ⟨h₁, h₂⟩ := List.append_inj heq (by rw [h.length_bytes, h'.length_bytes])
  exact ⟨Arr.bytes_injective h₁, h₂⟩

variable (C) in
/-- The running hash over a transcript. -/
def transcriptDigest (m₁ m₂ : Bytes) : Key :=
  HashChain.digest C.blake3 hashPair PROTOCOL_NAME (transcript m₁ m₂)

variable (C) in
/-- The inputs of the hash function along a transcript. -/
def transcriptInputs (m₁ m₂ : Bytes) : List Bytes :=
  HashChain.hashed C.blake3 hashPair PROTOCOL_NAME (transcript m₁ m₂)

lemma transcript_append (m₁ : Bytes) (e : EphemeralPublicKey) {c₁ c₂ : Bytes}
    (hc₁ : c₁.length = ENC_STATIC_LEN) :
    transcript m₁ (e.bytes ++ (c₁ ++ c₂)) = [m₁, [], e.bytes, c₁, c₂] := by
  have hdrop : (e.bytes ++ (c₁ ++ c₂)).drop EPH_PUBLIC_LEN = c₁ ++ c₂ :=
    List.drop_left' e.length_bytes
  rw [transcript, ← List.drop_drop, hdrop, List.take_left' e.length_bytes, List.take_left' hc₁,
    List.drop_left' hc₁]

/-- Equal digests come from equal messages when the hash has no collision on the
way. -/
lemma transcript_of_digest_eq {Q : Set Bytes} (hQ : Set.InjOn C.blake3 Q) {m₁ m₂ m₁' m₂' : Bytes}
    (hin : ∀ x ∈ transcriptInputs C m₁ m₂, x ∈ Q)
    (hin' : ∀ x ∈ transcriptInputs C m₁' m₂', x ∈ Q)
    (heq : transcriptDigest C m₁ m₂ = transcriptDigest C m₁' m₂') : m₁ = m₁' ∧ m₂ = m₂' := by
  obtain ⟨-, htr⟩ := HashChain.digest_inj hQ hashPair_inj (by rfl) hin hin' heq
  simp only [transcript, List.cons.injEq, true_and, and_true] at htr
  obtain ⟨h₁, he, hs, hp⟩ := htr
  refine ⟨h₁, ?_⟩
  have hp' : (m₂.drop EPH_PUBLIC_LEN).drop ENC_STATIC_LEN
      = (m₂'.drop EPH_PUBLIC_LEN).drop ENC_STATIC_LEN := by
    rw [List.drop_drop, List.drop_drop]
    exact hp
  -- message 2 is the concatenation of its three parts
  rw [← List.take_append_drop EPH_PUBLIC_LEN m₂, ← List.take_append_drop EPH_PUBLIC_LEN m₂', he,
    ← List.take_append_drop ENC_STATIC_LEN (m₂.drop EPH_PUBLIC_LEN),
    ← List.take_append_drop ENC_STATIC_LEN (m₂'.drop EPH_PUBLIC_LEN), hs, hp']

/-- The hash of the initiator after message 2 is the digest of what it saw. -/
lemma readResponse_digest {kI : StaticKeypair C} {seed : Key} {e : EphemeralPublicKey}
    {m₂ payload : Bytes} {iR : InitiatorAfterResponse C}
    (h : (InitiatorAfterE.mk kI seed (symAfterE C e)).readResponse m₂ = .ok (iR, payload)) :
    iR.sym.hash = transcriptDigest C e.bytes m₂ := by
  obtain ⟨e', c₁, c₂, s₁, s₂, rs, rfl, hc₁, -, hdec₁, hdec₂, rfl⟩ := readResponse_eq_ok_iff.mp h
  have h₁ := SymmetricState.decryptAndHash_hash hdec₁
  have h₂ := SymmetricState.decryptAndHash_hash hdec₂
  rw [SymmetricState.mixKey_hash] at h₁ h₂
  rw [transcriptDigest, transcript_append _ _ hc₁]
  exact h₂.trans (by rw [h₁]; rfl)

/-- The ciphertext of a static key is as long as the layout of the messages
expects. -/
lemma encryptAndHash_length (hC : C.Agrees) {s s' : SymmetricState} {key : Key} {p c : Bytes}
    (hkey : s.cipherKey = some key) (h : s.encryptAndHash C p = .ok (s', c)) :
    c.length = p.length + AEAD_TAG_LEN := by
  obtain ⟨s'', c', henc, -, hlen, -⟩ := SymmetricState.encryptAndHash_spec hC hkey p
  rw [henc] at h
  cases h
  exact hlen

/-- The hash of the responder after message 2 is the digest of what it saw. -/
lemma writeResponse_digest (hC : C.Agrees) {kR : StaticKeypair C} {seed : Key}
    {e : EphemeralPublicKey} {m₂ payload : Bytes} {rR : ResponderAfterResponse}
    (h : (ResponderAfterE.mk kR e (symAfterE C e)).writeResponse seed payload = .ok (rR, m₂)) :
    rR.sym.hash = transcriptDigest C e.bytes m₂ := by
  obtain ⟨s₁, c₁, s₂, c₂, henc₁, henc₂, rfl, rfl⟩ := writeResponse_eq_ok_iff.mp h
  have hc₁ : c₁.length = ENC_STATIC_LEN := by
    rw [encryptAndHash_length hC (SymmetricState.mixKey_cipherKey _ _) henc₁, Arr.length_bytes]
  have h₁ := SymmetricState.encryptAndHash_hash henc₁
  have h₂ := SymmetricState.encryptAndHash_hash henc₂
  rw [SymmetricState.mixKey_hash] at h₁ h₂
  rw [transcriptDigest, transcript_append _ _ hc₁]
  exact h₂.trans (by rw [h₁]; rfl)

/-- After message 2 both sides hold a cipher key. -/
lemma readResponse_cipherKey {st : InitiatorAfterE C} {m₂ payload : Bytes}
    {iR : InitiatorAfterResponse C} (h : st.readResponse m₂ = .ok (iR, payload)) :
    ∃ key, iR.sym.cipherKey = some key := by
  obtain ⟨e, c₁, c₂, s₁, s₂, rs, -, -, -, -, hdec₂, rfl⟩ := readResponse_eq_ok_iff.mp h
  exact ⟨_, SymmetricState.decryptAndHash_cipherKey hdec₂⟩

lemma writeResponse_cipherKey {st : ResponderAfterE C} {seed : Key} {m₂ payload : Bytes}
    {rR : ResponderAfterResponse} (h : st.writeResponse seed payload = .ok (rR, m₂)) :
    ∃ key, rR.sym.cipherKey = some key := by
  obtain ⟨s₁, c₁, s₂, c₂, -, henc₂, rfl, -⟩ := writeResponse_eq_ok_iff.mp h
  exact ⟨_, SymmetricState.encryptAndHash_cipherKey henc₂⟩

/-! ### Transcript binding -/

/-- The key, nonce and associated data under which a state encrypts next. -/
def SymmetricState.sealing (s : SymmetricState) : Option (Key × Arr 12 × Bytes) :=
  s.cipherKey.map fun key => (key, chachaNonce s.nonce, s.hash.bytes)

variable (C) in
/-- Among the triples of `T`, a ciphertext produced under one decrypts under another
only if the two are equal. -/
def Crypto.BindsOn (T : Set (Key × Arr 12 × Bytes)) : Prop :=
  ∀ t ∈ T, ∀ t' ∈ T, ∀ p c p', C.chachaEncrypt t.1 t.2.1 t.2.2 p = some c →
    C.chachaDecrypt t'.1 t'.2.1 t'.2.2 c = some p' → t = t'

/-- A state that decrypts what another encrypted is about to use the same key,
nonce and hash. -/
lemma hash_eq_of_decryptAndHash {T : Set (Key × Arr 12 × Bytes)} (hT : C.BindsOn T)
    {s t s' t' : SymmetricState} {p c q : Bytes} {ks kt : Key} (hks : s.cipherKey = some ks)
    (hkt : t.cipherKey = some kt) (hs : ∀ x ∈ s.sealing, x ∈ T) (ht : ∀ x ∈ t.sealing, x ∈ T)
    (henc : s.encryptAndHash C p = .ok (s', c)) (hdec : t.decryptAndHash C c = .ok (t', q)) :
    s.hash = t.hash := by
  rw [SymmetricState.encryptAndHash, hks] at henc
  rw [SymmetricState.decryptAndHash, hkt] at hdec
  obtain ⟨c', henc', hc⟩ := Except.bind_eq_ok_iff.mp henc
  obtain ⟨q', hdec', -⟩ := Except.bind_eq_ok_iff.mp hdec
  cases hc
  have htriple := hT (ks, chachaNonce s.nonce, s.hash.bytes)
    (hs _ (by simp [SymmetricState.sealing, hks])) (kt, chachaNonce t.nonce, t.hash.bytes)
    (ht _ (by simp [SymmetricState.sealing, hkt])) p c q' (aeadEncrypt_eq_ok_iff.mp henc')
    (aeadDecrypt_eq_ok_iff.mp hdec')
  exact Arr.bytes_injective (Prod.ext_iff.mp (Prod.ext_iff.mp htriple).2).2

/-- The responder reads the static key out of the very ciphertext the initiator
wrote first in message 3. -/
lemma readS_static_ciphertext (hC : C.Agrees) {iR : InitiatorAfterResponse C} {key : Key}
    (hkey : iR.sym.cipherKey = some key) {rR : ResponderAfterResponse} {p₃ m₃ q₃ : Bytes}
    {tI tR : TransportState} {rsI rsR : StaticPublicKey} (hw : iR.writeS p₃ = .ok (tI, m₃, rsI))
    (hr : rR.readS C m₃ = .ok (tR, rsR, q₃)) :
    ∃ c s s', iR.sym.encryptAndHash C iR.staticKeypair.publicKey.bytes = .ok (s, c) ∧
      rR.sym.decryptAndHash C c = .ok (s', rsR.bytes) := by
  obtain ⟨s₁, c₁, s₂, c₂, henc, -, -, rfl, -⟩ := writeS_eq_ok_iff.mp hw
  obtain ⟨d₁, d₂, u₁, u₂, hm, hd₁, -, hdec, -, -⟩ := readS_eq_ok_iff.mp hr
  have hc₁ : c₁.length = ENC_STATIC_LEN := by
    rw [encryptAndHash_length hC hkey henc, Arr.length_bytes]
  obtain ⟨rfl, -⟩ := List.append_inj hm (by rw [hc₁, hd₁])
  exact ⟨c₁, s₁, u₁, henc, hdec⟩

/-- When the network replaces messages 1 and 2 by any byte strings and both sides
still accept, the network replaced nothing, each side holds the other's true static
key and the transports are mirrored.  The hash has no collision among the inputs of
the two runs (`Q`), and the AEAD binds its ciphertexts to the triples of the two
sides (`T`). -/
theorem transcript_binding (hC : C.Agrees) {kI kR : StaticKeypair C} {seedI seedR : Key}
    {p₂ p₃ m₁' m₂' : Bytes} {x : Exchange}
    (hx : exchange (fun _ => m₁') (fun _ => m₂') kI kR seedI seedR p₂ p₃ = .ok x)
    {Q : Set Bytes} (hQ : Set.InjOn C.blake3 Q)
    (hQI : ∀ d ∈ transcriptInputs C x.message1 m₂', d ∈ Q)
    (hQR : ∀ d ∈ transcriptInputs C m₁' x.message2, d ∈ Q)
    {T : Set (Key × Arr 12 × Bytes)} (hT : C.BindsOn T)
    (hTI : ∀ t ∈ x.initiatorSym.sealing, t ∈ T) (hTR : ∀ t ∈ x.responderSym.sealing, t ∈ T) :
    m₁' = x.message1 ∧ m₂' = x.message2 ∧ x.initiatorSees.1 = kR.publicKey ∧
      x.responderSees.1 = kI.publicKey ∧ x.initiator.Mirrored x.responder := by
  simp only [exchange, writeE_eq, Except.ok_bind] at hx
  obtain ⟨rE, hrE, hx⟩ := Except.bind_eq_ok_iff.mp hx
  obtain ⟨⟨rR, m₂⟩, hwrite, hx⟩ := Except.bind_eq_ok_iff.mp hx
  obtain ⟨⟨iR, q₂⟩, hread, hx⟩ := Except.bind_eq_ok_iff.mp hx
  obtain ⟨⟨tI, m₃, rsI⟩, hwriteS, hx⟩ := Except.bind_eq_ok_iff.mp hx
  obtain ⟨⟨tR, rsR, q₃⟩, hreadS, hx⟩ := Except.bind_eq_ok_iff.mp hx
  cases hx
  obtain ⟨e, rfl, rfl⟩ := (readE_eq_ok_iff kR m₁' rE).mp hrE
  -- one accepted ciphertext forces the two running hashes to agree
  obtain ⟨kI', hkI⟩ := readResponse_cipherKey hread
  obtain ⟨kR', hkR⟩ := writeResponse_cipherKey hwrite
  obtain ⟨c, s, s', henc, hdec⟩ := readS_static_ciphertext hC hkI hwriteS hreadS
  have hhash : iR.sym.hash = rR.sym.hash :=
    hash_eq_of_decryptAndHash hT hkI hkR hTI hTR henc hdec
  rw [readResponse_digest hread, writeResponse_digest hC hwrite] at hhash
  obtain ⟨h₁, rfl⟩ := transcript_of_digest_eq hQ hQI hQR hhash
  obtain rfl : C.x25519Public seedI = e := Arr.bytes_injective h₁
  -- so the run was the honest one
  obtain ⟨rR', m₂', iR', hwrite', -, hread', -, hrest⟩ :=
    handshake_agrees hC kI kR seedI seedR p₂
  obtain ⟨tI', tR', m₃', hwriteS', -, hreadS', hmirror⟩ := hrest p₃
  rw [hwrite'] at hwrite
  cases hwrite
  rw [hread'] at hread
  cases hread
  rw [hwriteS'] at hwriteS
  cases hwriteS
  rw [hreadS'] at hreadS
  cases hreadS
  exact ⟨rfl, rfl, rfl, rfl, hmirror⟩

/-- The tag of both ciphertexts of message 2 in the sample exchange. -/
def sampleMessage2Tag : Bytes := List.replicate 12 0 ++ [51, 69, 75, 65]

/-- Message 2 of the sample exchange. -/
def sampleMessage2 : Bytes :=
  List.replicate 32 4 ++ (List.replicate 32 2 ++ sampleMessage2Tag) ++ sampleMessage2Tag

/-- A sample exchange over a network that delivers what was sent. -/
theorem transcript_binding_sample :
    ∃ x, exchange (fun _ => List.replicate 32 3) (fun _ => sampleMessage2)
        (StaticKeypair.fromPrivateBytes sampleCrypto (.replicate 32 1))
        (StaticKeypair.fromPrivateBytes sampleCrypto (.replicate 32 2))
        (.replicate 32 3) (.replicate 32 4) [] [] = .ok x ∧
      List.replicate 32 3 = x.message1 ∧ sampleMessage2 = x.message2 ∧
      x.initiatorSees.1 = .replicate 32 2 ∧ x.responderSees.1 = .replicate 32 1 ∧
      x.initiator.Mirrored x.responder := by
  have hQ : Set.InjOn sampleCrypto.blake3
      {d | d ∈ transcriptInputs sampleCrypto (List.replicate 32 3) sampleMessage2} := by
    have h : ∀ d ∈ transcriptInputs sampleCrypto (List.replicate 32 3) sampleMessage2,
        ∀ d' ∈ transcriptInputs sampleCrypto (List.replicate 32 3) sampleMessage2,
          sampleCrypto.blake3 d = sampleCrypto.blake3 d' → d = d' := by decide +kernel
    exact fun d hd d' hd' heq => h d hd d' hd' heq
  obtain ⟨x, hx, h₁, h₂, hsym⟩ : ∃ x, exchange (fun _ => List.replicate 32 3)
      (fun _ => sampleMessage2) (StaticKeypair.fromPrivateBytes sampleCrypto (.replicate 32 1))
      (StaticKeypair.fromPrivateBytes sampleCrypto (.replicate 32 2))
      (.replicate 32 3) (.replicate 32 4) [] [] = .ok x ∧ x.message1 = List.replicate 32 3 ∧
      x.message2 = sampleMessage2 ∧ x.initiatorSym = x.responderSym :=
    ⟨_, by rfl, by rfl, by rfl, by rfl⟩
  -- both sides are about to use one and the same triple
  have hT : sampleCrypto.BindsOn {t | t ∈ x.responderSym.sealing} :=
    fun t ht t' ht' _ _ _ _ _ => Option.mem_unique ht ht'
  exact ⟨x, hx, transcript_binding sampleCrypto_agrees hx hQ (fun d hd => h₁ ▸ hd)
    (fun d hd => h₂ ▸ hd) hT (fun t ht => hsym ▸ ht) (fun t ht => ht)⟩

end Libp2pCat
