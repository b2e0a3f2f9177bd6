import Libp2pCat.Noise.Transport
import Libp2pCat.Lib.Run

/-!
One direction of an established connection over a network that loses, repeats,
reorders and forges datagrams.

* `Link`: a sender, a receiver and the history of what was emitted and accepted;
  `Link.Step`: one `encrypt` of the sender or one datagram handed to the receiver,
  where the AEAD accepts a ciphertext under a nonce only if the sender produced it
  for that nonce (`Link.Authentic`).
* `Link.Good`: the invariant that ties the sender's counter, the emitted datagrams and
  the receiver's window together; `Link.Good.step` keeps it.
* `exactly_once_delivery`: what is returned was sent, nothing is accepted twice, and a
  genuine datagram inside the window is accepted whatever came before it.
-/

namespace Libp2pCat

open ByteString Trace

/-- The nonce a datagram carries. -/
def nonceOf (datagram : Bytes) : ℕ := ofBe (datagram.take TRANSPORT_NONCE_PREFIX_LEN)

lemma nonceOf_append (n : UInt64) (c : Bytes) : nonceOf (beBytes 8 n.toNat ++ c) = n.toNat := by
  rw [nonceOf, List.take_left' (length_beBytes 8 _), ofBe_beBytes_toNat]

/-- A nonce and a ciphertext are read back from their datagram. -/
lemma datagram_inj {n m : UInt64} {c d : Bytes}
    (h : beBytes 8 n.toNat ++ c = beBytes 8 m.toNat ++ d) : n = m ∧ c = d := by
  obtain ⟨-, hcd⟩ := List.append_inj h (by rw [length_beBytes, length_beBytes])
  have hnm : n.toNat = m.toNat := by rw [← nonceOf_append n c, h, nonceOf_append]
  exact ⟨UInt64.toNat_inj.mp hnm, hcd⟩

/-- A sender, a receiver, and the pairs of plaintext and datagram emitted by the one
and accepted by the other. -/
structure Link where
  sender : TransportState
  receiver : TransportState
  emitted : List (Bytes × Bytes)
  accepted : List (Bytes × Bytes)

/-- What can happen next on a link. -/
inductive LinkOp where
  | encrypt (plaintext : Bytes)
  | deliver (datagram : Bytes)

variable (C : Crypto)

/-- The AEAD accepts the ciphertext of this datagram under its nonce only if the
sender produced it for that nonce. -/
def Link.Authentic (l : Link) (datagram : Bytes) : Prop :=
  ∀ (n : UInt64) (c p : Bytes), datagram = beBytes 8 n.toNat ++ c →
    aeadDecrypt C l.receiver.recvKey n [] c = .ok p → ∃ q, (q, datagram) ∈ l.emitted

/-- One step of a link: the sender encrypts, or the receiver is handed an arbitrary
byte string and takes or refuses it.  A failed `encrypt` consumes the sender and
emits nothing, so it only ends the steps of the first kind. -/
inductive Link.Step : Link → LinkOp → Link → Prop where
  | encrypt {l : Link} {p d : Bytes} {t : TransportState} :
      l.sender.encrypt C p = .ok (t, d) →
      Step l (.encrypt p) { l with sender := t, emitted := l.emitted ++ [(p, d)] }
  | accept {l : Link} {p d : Bytes} {t : TransportState} :
      l.Authentic C d → l.receiver.decrypt C d = (t, .ok p) →
      Step l (.deliver d) { l with receiver := t, accepted := l.accepted ++ [(p, d)] }
  | refuse {l : Link} {d : Bytes} {t : TransportState} {e : Error} :
      l.Authentic C d → l.receiver.decrypt C d = (t, .error e) →
      Step l (.deliver d) { l with receiver := t }

/-- The invariant of a link under the key `K`. -/
structure Link.Good (K : Key) (l : Link) : Prop where
  sendKey : l.sender.sendKey = K
  recvKey : l.receiver.recvKey = K
  /-- Emitted datagrams carry nonces below the counter. -/
  genuine : ∀ x ∈ l.emitted, ∃ (n : UInt64) (c : Bytes), n.toNat < l.sender.sendNonce.toNat ∧
    x.2 = beBytes 8 n.toNat ++ c ∧ aeadEncrypt C K n [] x.1 = .ok c
  emitted_inj : ∀ x ∈ l.emitted, ∀ y ∈ l.emitted, nonceOf x.2 = nonceOf y.2 → x = y
  accepted_emitted : ∀ x ∈ l.accepted, x ∈ l.emitted
  /-- The window is the record of the accepted nonces. -/
  window : (windowOf l.receiver.recvReplayWindow l.receiver.recvMaxNonce).Represents 64
    {n | ∃ x ∈ l.accepted, nonceOf x.2 = n}
  accepted_once : (l.accepted.map fun x => nonceOf x.2).Nodup

variable {C} {K : Key} {l l' : Link}

/-- A connection nobody has used yet. -/
lemma Link.good_of_mirrored {a b : TransportState} (h : a.Mirrored b) :
    Link.Good C a.sendKey ⟨a, b, [], []⟩ where
  sendKey := rfl
  recvKey := h.1.1.symm
  genuine := by simp
  emitted_inj := by simp
  accepted_emitted := by simp
  window := by
    obtain ⟨-, -, -, hmax, hwin⟩ := h
    simp only [hmax, hwin, List.not_mem_nil, false_and, exists_false, Set.ofPred_false]
    exact (Window.represents_empty 64).congr rfl (by simp [windowOf, Window.empty])
  accepted_once := by simp

/-- A genuine ciphertext decrypts to the plaintext it was made from. -/
lemma aeadDecrypt_of_aeadEncrypt (hC : C.Agrees) {n : UInt64} {p c : Bytes}
    (h : aeadEncrypt C K n [] p = .ok c) :
    aeadDecrypt C K n [] c = .ok p ∧ c.length = p.length + AEAD_TAG_LEN := by
  obtain ⟨c', henc, hlen, hdec⟩ := hC.encrypt_decrypt K (chachaNonce n) [] p
  rw [aeadEncrypt_eq_ok_iff, henc] at h
  cases h
  exact ⟨aeadDecrypt_eq_ok_iff.mpr hdec, hlen⟩

/-- Whatever an authentic delivery returns was emitted, as that very datagram. -/
lemma Link.Good.mem_emitted (hC : C.Agrees) (h : l.Good C K) {n : UInt64} {c d p : Bytes}
    (hauth : l.Authentic C d) (hd : d = beBytes 8 n.toNat ++ c)
    (hdec : aeadDecrypt C l.receiver.recvKey n [] c = .ok p) : (p, d) ∈ l.emitted := by
  obtain ⟨q, hq⟩ := hauth n c p hd hdec
  obtain ⟨m, c', -, hd', henc⟩ := h.genuine _ hq
  obtain ⟨rfl, rfl⟩ := datagram_inj (hd.symm.trans hd')
  rw [h.recvKey, (aeadDecrypt_of_aeadEncrypt hC henc).1] at hdec
  cases hdec
  exact hq

/-- The nonce of a new datagram lies above every emitted one. -/
lemma Link.Good.encrypt (h : l.Good C K) {p d : Bytes} {t : TransportState}
    (henc : l.sender.encrypt C p = .ok (t, d)) :
    Link.Good C K { l with sender := t, emitted := l.emitted ++ [(p, d)] } := by
  obtain ⟨c, hc, rfl, hlt, rfl⟩ := TransportState.encrypt_eq_ok_iff.mp henc
  have hsucc : (l.sender.sendNonce + 1).toNat = l.sender.sendNonce.toNat + 1 := by
    rw [UInt64.toNat_add, show (1 : UInt64).toNat = 1 from rfl, Nat.mod_eq_of_lt hlt]
  have hnew : ∀ x ∈ l.emitted, nonceOf x.2 < l.sender.sendNonce.toNat := by
    intro x hx
    obtain ⟨n, c', hn, hd, -⟩ := h.genuine x hx
    rw [hd, nonceOf_append]
    exact hn
  refine ⟨h.sendKey, h.recvKey, ?_, ?_, fun x hx => List.mem_append_left _
    (h.accepted_emitted x hx), h.window, h.accepted_once⟩
  · intro x hx
    rcases List.mem_append.mp hx with hx | hx
    · obtain ⟨n, c', hn, hd, hc'⟩ := h.genuine x hx
      exact ⟨n, c', by show n.toNat < _; rw [hsucc]; omega, hd, hc'⟩
    · obtain rfl := List.mem_singleton.mp hx
      exact ⟨l.sender.sendNonce, c, by show _ < _; rw [hsucc]; omega, rfl, h.sendKey ▸ hc⟩
  · intro x hx y hy hxy
    rcases List.mem_append.mp hx with hx | hx <;> rcases List.mem_append.mp hy with hy | hy
    · exact h.emitted_inj x hx y hy hxy
    · obtain rfl := List.mem_singleton.mp hy
      rw [nonceOf_append] at hxy
      exact absurd (hnew x hx) (by omega)
    · obtain rfl := List.mem_singleton.mp hx
      rw [nonceOf_append] at hxy
      exact absurd (hnew y hy) (by omega)
    · rw [List.mem_singleton.mp hx, List.mem_singleton.mp hy]

/-- The window lets a nonce through once only. -/
lemma Link.Good.accept (hC : C.Agrees) (h : l.Good C K) {p d : Bytes} {t : TransportState}
    (hauth : l.Authentic C d) (hdec : l.receiver.decrypt C d = (t, .ok p)) :
    Link.Good C K { l with receiver := t, accepted := l.accepted ++ [(p, d)] } := by
  obtain ⟨n, hchk⟩ := TransportState.checked_of_decrypt (by rw [hdec])
  obtain ⟨c, hd, hlen, hacc, haead⟩ := decryptChecked_eq_ok_iff.mp hchk
  rw [TransportState.decrypt_of_checked hchk] at hdec
  obtain ⟨rfl, -⟩ := Prod.ext_iff.mp hdec
  have hnonce : nonceOf d = n.toNat := by rw [hd, nonceOf_append]
  have hset : {m | ∃ x ∈ l.accepted ++ [(p, d)], nonceOf x.2 = m}
      = insert n.toNat {m | ∃ x ∈ l.accepted, nonceOf x.2 = m} := by
    ext m
    simp [hnonce, or_and_right, exists_or, or_comm, eq_comm]
  refine ⟨h.sendKey, h.recvKey, h.genuine, h.emitted_inj, ?_, ?_, ?_⟩
  · intro x hx
    rcases List.mem_append.mp hx with hx | hx
    · exact h.accepted_emitted x hx
    · rw [List.mem_singleton.mp hx]
      exact h.mem_emitted hC hauth hd haead
  · rw [hset]
    exact windowOf_advanceWindow h.window hacc
  · have hfresh := (h.window.accepts_iff.mp ((nonceAcceptable_iff _ _ _).mp hacc)).1
    rw [List.map_append, List.nodup_append]
    refine ⟨h.accepted_once, by simp, ?_⟩
    intro m hm m' hm' heq
    obtain ⟨x, hx, rfl⟩ := List.mem_map.mp hm
    refine hfresh ⟨x, hx, ?_⟩
    rw [heq, List.mem_singleton.mp hm']
    exact hnonce

/-- Every step keeps the invariant. -/
lemma Link.Good.step (hC : C.Agrees) (h : l.Good C K) {op : LinkOp} (hs : Link.Step C l op l') :
    l'.Good C K := by
  cases hs with
  | encrypt henc => exact h.encrypt henc
  | accept hauth hdec => exact h.accept hC hauth hdec
  | @refuse d t e hauth hdec =>
      obtain rfl : l.receiver = t := by
        rw [← TransportState.decrypt_of_error (C := C) (t := l.receiver) (by rw [hdec]), hdec]
      exact h

/-- A genuine datagram that was not accepted before and is not below the window is
accepted. -/
lemma Link.Good.decrypt_genuine (hC : C.Agrees) (h : l.Good C K) {x : Bytes × Bytes}
    (hx : x ∈ l.emitted) (hnew : x.2 ∉ l.accepted.map Prod.snd)
    (hwin : ∀ y ∈ l.accepted, nonceOf y.2 < nonceOf x.2 + 64) :
    (l.receiver.decrypt C x.2).2 = .ok x.1 := by
  obtain ⟨n, c, -, hd, henc⟩ := h.genuine x hx
  obtain ⟨hdec, hlen⟩ := aeadDecrypt_of_aeadEncrypt hC henc
  have hnonce : nonceOf x.2 = n.toNat := by rw [hd, nonceOf_append]
  have hacc : nonceAcceptable l.receiver.recvReplayWindow l.receiver.recvMaxNonce n = .ok () := by
    rw [nonceAcceptable_iff, h.window.accepts_iff]
    refine ⟨?_, ?_⟩
    · rintro ⟨y, hy, hyn⟩
      have hxy := h.emitted_inj x hx y (h.accepted_emitted y hy) (by rw [hnonce, hyn])
      exact hnew (List.mem_map.mpr ⟨y, hy, by rw [hxy]⟩)
    · rcases l.accepted.eq_nil_or_concat with hnil | ⟨ys, y, hcat⟩
      · have hmax := h.window.max_empty (by simp [hnil])
        rw [hmax]
        omega
      · obtain ⟨z, hz, hzmax⟩ := h.window.max_mem ⟨_, y, by simp [hcat], rfl⟩
        have hlt := hwin z hz
        rw [hzmax, hnonce] at hlt
        omega
  have hchk := decryptChecked_eq_ok_iff.mpr
    ⟨c, hd, by rw [hlen]; omega, hacc, h.recvKey.symm ▸ hdec⟩
  rw [TransportState.decrypt_of_checked hchk]

/-- Over every interleaving of a sender's datagrams with arbitrary deliveries: what the
receiver returns was encrypted by the sender and came in that datagram, no datagram is
accepted twice, a genuine datagram inside the window is still accepted, and a refused
one leaves the receiver as it was. -/
theorem exactly_once_delivery (hC : C.Agrees) {a b : TransportState} (hab : a.Mirrored b)
    {ops : List LinkOp} (hrun : Run (Link.Step C) ⟨a, b, [], []⟩ ops l) :
    (∀ x ∈ l.accepted, x ∈ l.emitted) ∧ (l.accepted.map Prod.snd).Nodup ∧
      (∀ x ∈ l.emitted, x.2 ∉ l.accepted.map Prod.snd →
        (∀ y ∈ l.accepted, nonceOf y.2 < nonceOf x.2 + 64) →
        (l.receiver.decrypt C x.2).2 = .ok x.1) ∧
      ∀ d e, (l.receiver.decrypt C d).2 = .error e → (l.receiver.decrypt C d).1 = l.receiver := by
  have hgood : l.Good C a.sendKey :=
    hrun.invariant (fun _ _ _ h hs => h.step hC hs) (Link.good_of_mirrored hab)
  refine ⟨hgood.accepted_emitted, ?_, fun x hx hnew hwin => hgood.decrypt_genuine hC hx hnew hwin,
    fun d e h => TransportState.decrypt_of_error h⟩
  have honce := hgood.accepted_once
  rw [show (fun x : Bytes × Bytes => nonceOf x.2) = nonceOf ∘ Prod.snd from rfl,
    ← List.map_map] at honce
  exact honce.of_map _

/-- The first datagram of the sample sender. -/
def sampleDatagram : Bytes := List.replicate 8 0 ++ ([9] ++ (List.replicate 12 0 ++ [1, 1, 1, 1]))

/-- The sample link after its first datagram was emitted. -/
def sampleLink : Link where
  sender := ⟨.replicate 32 1, 1, .replicate 32 2, 0, 0⟩
  receiver := .new (.replicate 32 2) (.replicate 32 1)
  emitted := [([9], sampleDatagram)]
  accepted := []

/-- One plaintext sent, a truncated datagram refused, the genuine one accepted. -/
theorem exactly_once_delivery_sample :
    ∃ l, Run (Link.Step sampleCrypto)
        ⟨.new (.replicate 32 1) (.replicate 32 2), .new (.replicate 32 2) (.replicate 32 1), [], []⟩
        [.encrypt [9], .deliver [7, 7, 7], .deliver sampleDatagram] l ∧
      l.accepted = [([9], sampleDatagram)] ∧
      (∀ x ∈ l.accepted, x ∈ l.emitted) ∧ (l.accepted.map Prod.snd).Nodup ∧
      (∀ x ∈ l.emitted, x.2 ∉ l.accepted.map Prod.snd →
        (∀ y ∈ l.accepted, nonceOf y.2 < nonceOf x.2 + 64) →
        (l.receiver.decrypt sampleCrypto x.2).2 = .ok x.1) ∧
      ∀ d e, (l.receiver.decrypt sampleCrypto d).2 = .error e →
        (l.receiver.decrypt sampleCrypto d).1 = l.receiver := by
  have h₁ : Link.Step sampleCrypto
      ⟨.new (.replicate 32 1) (.replicate 32 2), .new (.replicate 32 2) (.replicate 32 1), [], []⟩
      (.encrypt [9]) sampleLink := .encrypt (t := _) (d := sampleDatagram) (by rfl)
  -- three bytes are too short to be a nonce and a ciphertext
  have hshort : sampleLink.Authentic sampleCrypto [7, 7, 7] := by
    intro n c p hd _
    have hlen := congrArg List.length hd
    rw [List.length_append, length_beBytes] at hlen
    simp only [List.length_cons, List.length_nil] at hlen
    omega
  have h₂ := Link.Step.refuse (t := sampleLink.receiver) hshort (by rfl)
  have h₃ := Link.Step.accept (C := sampleCrypto) (l := sampleLink) (d := sampleDatagram)
    (p := [9]) (fun n c p hd _ => ⟨[9], by simp [sampleLink]⟩) (by rfl)
  have hrun := (((Run.nil _).snoc h₁).snoc h₂).snoc h₃
  exact ⟨_, hrun, rfl, exactly_once_delivery sampleCrypto_agrees
    (TransportState.mirrored_new (.replicate 32 1) (.replicate 32 2)) hrun⟩

end Libp2pCat
