import Libp2pCat.Noise.Symmetric
import Libp2pCat.Lib.Window

/-!
`libp2p-cat-noise/src/transport.rs`: post-handshake encryption with explicit
nonces and the 64-bit replay window.

* `TransportState.encrypt`, `TransportState.decrypt`, with `decryptChecked`,
  `nonceAcceptable` and `advanceWindow`: the code.
* `windowOf`: the window of the code as an abstract `Window`; `nonceAcceptable_iff`
  and `windowOf_advanceWindow` say that the two bit manipulations are the
  abstract test and the abstract recording at width `REPLAY_WINDOW_BITS`.
* `decryptChecked_eq_ok_iff`, `TransportState.decrypt_of_error`: what is accepted, and that
  a refused datagram leaves the state as it was.
-/

namespace Libp2pCat

open ByteString

/-- Bytes of nonce prefixed to every transport datagram. -/
abbrev TRANSPORT_NONCE_PREFIX_LEN : ℕ := 8

/-- Wire overhead of a transport datagram: nonce prefix and AEAD tag. -/
abbrev TRANSPORT_OVERHEAD : ℕ := TRANSPORT_NONCE_PREFIX_LEN + AEAD_TAG_LEN

/-- Width of the replay window in bits. -/
abbrev REPLAY_WINDOW_BITS : ℕ := 64

/-- The two cipher keys of a connection with the counter of each direction. -/
structure TransportState where
  sendKey : Key
  sendNonce : UInt64
  recvKey : Key
  recvMaxNonce : UInt64
  recvReplayWindow : UInt64
  deriving DecidableEq

/-- Whether a nonce is fresh and inside the window. -/
def nonceAcceptable (window maxNonce incoming : UInt64) : Except Error Unit :=
  if maxNonce < incoming then .ok ()
  else
    let distance := maxNonce - incoming
    if REPLAY_WINDOW_BITS ≤ distance.toNat then .error (.noiseReplay incoming)
    else
      let bit := (1 : UInt64) <<< distance
      if window &&& bit ≠ 0 then .error (.noiseReplay incoming) else .ok ()

/-- The window after a nonce was accepted. -/
def advanceWindow (window maxNonce incoming : UInt64) : UInt64 × UInt64 :=
  if maxNonce < incoming then
    let shift := incoming - maxNonce
    let newWindow := if REPLAY_WINDOW_BITS ≤ shift.toNat then 1 else (window <<< shift) ||| 1
    (newWindow, incoming)
  else
    let distance := maxNonce - incoming
    let bit := (1 : UInt64) <<< distance
    (window ||| bit, maxNonce)

/-- The next counter value, or nothing past `u64::MAX`. -/
def checkedSucc (n : UInt64) : Option UInt64 := if n.toNat + 1 < 2 ^ 64 then some (n + 1) else none

lemma checkedSucc_eq_some_iff {n m : UInt64} :
    checkedSucc n = some m ↔ n.toNat + 1 < 2 ^ 64 ∧ m = n + 1 := by
  rw [checkedSucc]
  split <;> simp_all [eq_comm]

variable (C : Crypto)

/-- Length check, nonce parse, replay check and authentication of a datagram;
the nonce and the plaintext on success. -/
def decryptChecked (recvKey : Key) (window maxNonce : UInt64) (datagram : Bytes) :
    Except Error (UInt64 × Bytes) :=
  let total := datagram.length
  if total < TRANSPORT_OVERHEAD then
    .error (.noiseProtocol
      s!"transport datagram too short: {total} bytes, need at least {TRANSPORT_OVERHEAD}")
  else do
    let nonceSlice ← okOr (sliceRange datagram 0 TRANSPORT_NONCE_PREFIX_LEN)
      (.noiseProtocol "missing nonce prefix")
    let ciphertext ← okOr (sliceFrom datagram TRANSPORT_NONCE_PREFIX_LEN)
      (.noiseProtocol "missing ciphertext")
    let nonceArr ← okOr (Arr.tryFrom TRANSPORT_NONCE_PREFIX_LEN nonceSlice)
      (.noiseProtocol "nonce prefix wrong length")
    let nonce := UInt64.ofNat (ofBe nonceArr.bytes)
    nonceAcceptable window maxNonce nonce
    let plaintext ← aeadDecrypt C recvKey nonce [] ciphertext
    pure (nonce, plaintext)

namespace TransportState

/-- Fresh transport state from the two keys of a handshake. -/
def new (sendKey recvKey : Key) : TransportState where
  sendKey := sendKey
  sendNonce := 0
  recvKey := recvKey
  recvMaxNonce := 0
  recvReplayWindow := 0

/-- Encrypt a plaintext into one datagram.  The nonce `u64::MAX` is computed with
but never emitted: the counter could not advance past it. -/
def encrypt (t : TransportState) (plaintext : Bytes) : Except Error (TransportState × Bytes) := do
  let nonce := t.sendNonce
  let ciphertext ← aeadEncrypt C t.sendKey nonce [] plaintext
  let datagram := beBytes 8 nonce.toNat ++ ciphertext
  let nextNonce ← okOr (checkedSucc nonce) (.noiseProtocol "send nonce counter exhausted")
  pure ({ t with sendNonce := nextNonce }, datagram)

/-- Decrypt a datagram; the state comes back with the outcome, advanced only on
success. -/
def decrypt (t : TransportState) (datagram : Bytes) : TransportState × Except Error Bytes :=
  match decryptChecked C t.recvKey t.recvReplayWindow t.recvMaxNonce datagram with
  | .error e => (t, .error e)
  | .ok (nonce, plaintext) =>
      let (newWindow, newMax) := advanceWindow t.recvReplayWindow t.recvMaxNonce nonce
      ({ t with recvMaxNonce := newMax, recvReplayWindow := newWindow }, .ok plaintext)

/-- Each side sends under the key the other side receives under. -/
def MirrorKeys (a b : TransportState) : Prop := a.sendKey = b.recvKey ∧ a.recvKey = b.sendKey

/-- Nothing was sent or received yet. -/
def Fresh (t : TransportState) : Prop :=
  t.sendNonce = 0 ∧ t.recvMaxNonce = 0 ∧ t.recvReplayWindow = 0

/-- The two ends of a connection nobody has used yet. -/
def Mirrored (a b : TransportState) : Prop := a.MirrorKeys b ∧ a.Fresh ∧ b.Fresh

lemma mirrored_new (k₁ k₂ : Key) : (new k₁ k₂).Mirrored (new k₂ k₁) :=
  ⟨⟨rfl, rfl⟩, ⟨rfl, rfl, rfl⟩, ⟨rfl, rfl, rfl⟩⟩

end TransportState

/-! ### One datagram -/

variable {C}

/-- A datagram passes the checks exactly when it is a nonce and a ciphertext, the
nonce is acceptable and the ciphertext authenticates under it. -/
lemma decryptChecked_eq_ok_iff {recvKey : Key} {window maxNonce nonce : UInt64}
    {datagram plaintext : Bytes} :
    decryptChecked C recvKey window maxNonce datagram = .ok (nonce, plaintext) ↔
      ∃ c, datagram = beBytes 8 nonce.toNat ++ c ∧ AEAD_TAG_LEN ≤ c.length ∧
        nonceAcceptable window maxNonce nonce = .ok () ∧
        aeadDecrypt C recvKey nonce [] c = .ok plaintext := by
  rw [decryptChecked]
  refine ⟨fun h => ?_, ?_⟩
  · split at h
    · cases h
    · rename_i hlen
      simp only [Except.bind_eq_ok_iff, okOr_eq_ok_iff, sliceRange_eq_some_iff,
        sliceFrom_eq_some_iff, Arr.tryFrom_eq_some_iff] at h
      obtain ⟨_, ⟨-, rfl⟩, _, ⟨-, rfl⟩, arr, harr, _, hacc, p, hdec, h⟩ := h
      cases h
      have hnonce : (UInt64.ofNat (ofBe arr.bytes)).toNat = ofBe arr.bytes :=
        toNat_ofNat_ofBe arr.length_bytes
      refine ⟨_, ?_, ?_, hacc, hdec⟩
      · have hbe := beBytes_ofBe arr.bytes
        rw [arr.length_bytes] at hbe
        rw [hnonce, hbe, harr, List.drop_zero, Nat.sub_zero, List.take_append_drop]
      · rw [List.length_drop]
        simp only [TRANSPORT_OVERHEAD, TRANSPORT_NONCE_PREFIX_LEN, AEAD_TAG_LEN] at hlen ⊢
        omega
  · rintro ⟨c, rfl, hc, hacc, hdec⟩
    -- the prefix is kept opaque: only its width and its value matter
    obtain ⟨pre, hpre, hnonce, heq⟩ : ∃ pre : Bytes, pre.length = TRANSPORT_NONCE_PREFIX_LEN ∧
        UInt64.ofNat (ofBe pre) = nonce ∧ pre = beBytes 8 nonce.toNat :=
      ⟨_, length_beBytes 8 _, by rw [ofBe_beBytes_toNat, UInt64.ofNat_toNat], rfl⟩
    rw [← heq]
    have hlen : ¬ (pre ++ c).length < TRANSPORT_OVERHEAD := by
      rw [List.length_append, hpre, TRANSPORT_OVERHEAD]
      omega
    have hs₁ : sliceRange (pre ++ c) 0 TRANSPORT_NONCE_PREFIX_LEN = some pre :=
      sliceRange_append (s := []) rfl (by rw [hpre, Nat.zero_add])
    have hs₂ : sliceFrom (pre ++ c) TRANSPORT_NONCE_PREFIX_LEN = some c := sliceFrom_append hpre
    have harr : Arr.tryFrom TRANSPORT_NONCE_PREFIX_LEN pre = some (Arr.ofBytes pre hpre) :=
      Arr.tryFrom_eq_some_iff.mpr rfl
    simp only [if_neg hlen, hs₁, hs₂, harr, okOr_some, Except.ok_bind, Arr.bytes_ofBytes, hnonce,
      hacc, hdec]
    rfl

/-- The first outcome of a decryption: the datagram is accepted and its nonce
recorded. -/
lemma TransportState.decrypt_of_checked {t : TransportState} {datagram plaintext : Bytes}
    {nonce : UInt64}
    (h : decryptChecked C t.recvKey t.recvReplayWindow t.recvMaxNonce datagram
      = .ok (nonce, plaintext)) :
    t.decrypt C datagram =
      ({ t with recvMaxNonce := (advanceWindow t.recvReplayWindow t.recvMaxNonce nonce).2,
                recvReplayWindow := (advanceWindow t.recvReplayWindow t.recvMaxNonce nonce).1 },
        .ok plaintext) := by
  rw [TransportState.decrypt, h]

/-- The second outcome: the datagram is refused and the state is as it was. -/
lemma TransportState.decrypt_of_error {t : TransportState} {datagram : Bytes} {e : Error}
    (h : (t.decrypt C datagram).2 = .error e) : (t.decrypt C datagram).1 = t := by
  rw [TransportState.decrypt] at h ⊢
  cases hchk : decryptChecked C t.recvKey t.recvReplayWindow t.recvMaxNonce datagram with
  | error e' => rfl
  | ok r =>
      rw [hchk] at h
      cases h

/-- Whatever is accepted passed the checks. -/
lemma TransportState.checked_of_decrypt {t : TransportState} {datagram plaintext : Bytes}
    (h : (t.decrypt C datagram).2 = .ok plaintext) :
    ∃ nonce, decryptChecked C t.recvKey t.recvReplayWindow t.recvMaxNonce datagram
      = .ok (nonce, plaintext) := by
  rw [TransportState.decrypt] at h
  cases hchk : decryptChecked C t.recvKey t.recvReplayWindow t.recvMaxNonce datagram with
  | error e =>
      rw [hchk] at h
      cases h
  | ok r =>
      rw [hchk] at h
      cases h
      exact ⟨r.1, rfl⟩

/-- One emitted datagram: the counter, then the ciphertext under it; the counter
moves on. -/
lemma TransportState.encrypt_eq_ok_iff {t t' : TransportState} {plaintext datagram : Bytes} :
    t.encrypt C plaintext = .ok (t', datagram) ↔
      ∃ c, aeadEncrypt C t.sendKey t.sendNonce [] plaintext = .ok c ∧
        datagram = beBytes 8 t.sendNonce.toNat ++ c ∧ t.sendNonce.toNat + 1 < 2 ^ 64 ∧
        t' = { t with sendNonce := t.sendNonce + 1 } := by
  rw [TransportState.encrypt]
  simp only [Except.bind_eq_ok_iff, okOr_eq_ok_iff, checkedSucc_eq_some_iff]
  refine ⟨?_, ?_⟩
  · rintro ⟨c, hc, n, ⟨hlt, rfl⟩, h⟩
    cases h
    exact ⟨c, hc, rfl, hlt, rfl⟩
  · rintro ⟨c, hc, rfl, hlt, rfl⟩
    exact ⟨c, hc, t.sendNonce + 1, ⟨hlt, rfl⟩, rfl⟩

/-! ### The window as a set -/

/-- The abstract window a bitmap and a greatest nonce stand for. -/
def windowOf (window maxNonce : UInt64) : Window where
  bits := {i | window.toNat.testBit i = true}
  max := maxNonce.toNat

/-- Shifting one into place sets exactly one bit. -/
lemma testBit_one_shiftLeft {d : UInt64} (hd : d.toNat < 64) (i : ℕ) :
    ((1 : UInt64) <<< d).toNat.testBit i = decide (i = d.toNat) := by
  have hpow : 2 ^ d.toNat < 2 ^ 64 := Nat.pow_lt_pow_right (by norm_num) hd
  rw [UInt64.toNat_shiftLeft, Nat.mod_eq_of_lt hd, show (1 : UInt64).toNat = 1 from rfl,
    Nat.one_shiftLeft, Nat.mod_eq_of_lt hpow, Nat.testBit_two_pow]
  exact decide_eq_decide.mpr eq_comm

/-- Testing one bit of the window through a mask. -/
lemma and_one_shiftLeft_ne_zero_iff (window : UInt64) {d : UInt64} (hd : d.toNat < 64) :
    window &&& ((1 : UInt64) <<< d) ≠ 0 ↔ window.toNat.testBit d.toNat = true := by
  have hbit : ∀ i, (window &&& ((1 : UInt64) <<< d)).toNat.testBit i
      = (window.toNat.testBit i && decide (i = d.toNat)) := by
    intro i
    rw [UInt64.toNat_and, Nat.testBit_and, testBit_one_shiftLeft hd]
  constructor
  · intro hne
    by_contra hf
    apply hne
    apply UInt64.toNat_inj.mp
    refine Nat.eq_of_testBit_eq fun i => ?_
    rw [hbit i]
    by_cases hi : i = d.toNat
    · subst hi
      simp [Bool.eq_false_iff.mpr hf]
    · simp [hi]
  · intro ht h0
    have h1 := hbit d.toNat
    rw [h0, ht] at h1
    simp at h1

/-- Shifting the window and setting its lowest bit. -/
lemma testBit_shiftLeft_or_one (window : UInt64) {s : UInt64} (hs : s.toNat < 64) {i : ℕ}
    (hi : i < 64) :
    ((window <<< s) ||| 1).toNat.testBit i = true ↔
      i = 0 ∨ (s.toNat ≤ i ∧ window.toNat.testBit (i - s.toNat) = true) := by
  rw [UInt64.toNat_or, Nat.testBit_or, UInt64.toNat_shiftLeft, Nat.mod_eq_of_lt hs,
    Nat.testBit_mod_two_pow, Nat.testBit_shiftLeft, show (1 : UInt64).toNat = 1 from rfl,
    Bool.or_eq_true, Nat.testBit_one_eq_true_iff_self_eq_zero]
  simp [hi, or_comm]

/-- The replay check of the code is the abstract test. -/
lemma nonceAcceptable_iff (window maxNonce incoming : UInt64) :
    nonceAcceptable window maxNonce incoming = .ok () ↔
      (windowOf window maxNonce).Accepts 64 incoming.toNat := by
  rw [nonceAcceptable, Window.Accepts]
  by_cases hlt : maxNonce < incoming
  · have hlt' : maxNonce.toNat < incoming.toNat := UInt64.lt_iff_toNat_lt.mp hlt
    simp [hlt, windowOf, hlt']
  · have hle : incoming ≤ maxNonce := UInt64.not_lt.mp hlt
    have hle' : ¬ maxNonce.toNat < incoming.toNat := fun h => hlt (UInt64.lt_iff_toNat_lt.mpr h)
    have hsub : (maxNonce - incoming).toNat = maxNonce.toNat - incoming.toNat :=
      UInt64.toNat_sub_of_le _ _ hle
    simp only [if_neg hlt, windowOf, hle', false_or, Set.mem_ofPred_eq]
    by_cases hold : REPLAY_WINDOW_BITS ≤ (maxNonce - incoming).toNat
    · have hfar : ¬ maxNonce.toNat - incoming.toNat < 64 := by
        rw [← hsub]
        exact not_lt.mpr hold
      simp [if_pos hold, hfar]
    · have hd : (maxNonce - incoming).toNat < 64 := not_le.mp hold
      rw [if_neg hold, ← hsub]
      by_cases hb : window &&& ((1 : UInt64) <<< (maxNonce - incoming)) ≠ 0
      · simp [if_pos hb, (and_one_shiftLeft_ne_zero_iff window hd).mp hb]
      · simp only [if_neg hb, true_iff]
        exact ⟨hd, mt (and_one_shiftLeft_ne_zero_iff window hd).mpr hb⟩

/-- The window update of the code is the abstract recording. -/
lemma windowOf_advanceWindow {window maxNonce incoming : UInt64} {A : Set ℕ}
    (hrep : (windowOf window maxNonce).Represents 64 A)
    (hacc : nonceAcceptable window maxNonce incoming = .ok ()) :
    (windowOf (advanceWindow window maxNonce incoming).1
      (advanceWindow window maxNonce incoming).2).Represents 64 (insert incoming.toNat A) := by
  refine (hrep.advance (n := incoming.toNat)).congr ?_ fun i hi => ?_
  · by_cases hlt : maxNonce < incoming
    · simp [advanceWindow, hlt, windowOf, Window.advance, UInt64.lt_iff_toNat_lt.mp hlt]
    · have hlt' : ¬ maxNonce.toNat < incoming.toNat := fun h => hlt (UInt64.lt_iff_toNat_lt.mpr h)
      simp [advanceWindow, hlt, windowOf, Window.advance, hlt']
  · by_cases hlt : maxNonce < incoming
    · have hlt' : maxNonce.toNat < incoming.toNat := UInt64.lt_iff_toNat_lt.mp hlt
      have hsub : (incoming - maxNonce).toNat = incoming.toNat - maxNonce.toNat :=
        UInt64.toNat_sub_of_le _ _ (UInt64.le_of_lt hlt)
      simp only [advanceWindow, if_pos hlt, windowOf, Window.advance, if_pos hlt',
        Set.mem_ofPred_eq, hi, true_and, ← hsub]
      by_cases hfar : REPLAY_WINDOW_BITS ≤ (incoming - maxNonce).toNat
      · -- the jump clears the whole window
        have hnot : ¬ (incoming - maxNonce).toNat ≤ i := fun h => absurd (le_trans hfar h) (by
          exact not_le.mpr hi)
        simp [if_pos hfar, hnot, Nat.testBit_one_eq_true_iff_self_eq_zero]
      · rw [if_neg hfar]
        exact testBit_shiftLeft_or_one window (not_le.mp hfar) hi
    · have hlt' : ¬ maxNonce.toNat < incoming.toNat := fun h => hlt (UInt64.lt_iff_toNat_lt.mpr h)
      have hsub : (maxNonce - incoming).toNat = maxNonce.toNat - incoming.toNat :=
        UInt64.toNat_sub_of_le _ _ (UInt64.not_lt.mp hlt)
      have hd : (maxNonce - incoming).toNat < 64 := by
        rcases (nonceAcceptable_iff window maxNonce incoming).mp hacc with h | ⟨h, -⟩
        · exact absurd h hlt'
        · rw [hsub]
          exact h
      simp only [advanceWindow, if_neg hlt, windowOf, Window.advance, if_neg hlt',
        Set.mem_ofPred_eq, Set.mem_insert_iff, UInt64.toNat_or, Nat.testBit_or,
        testBit_one_shiftLeft hd, Bool.or_eq_true, decide_eq_true_eq, ← hsub]
      exact or_comm

end Libp2pCat
