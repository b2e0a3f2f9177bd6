import Libp2pCat.Host.Steps

/-!
Exactly when the operations of a host succeed, in a world whose socket calls all do.

* `Host.dial_succeeds_iff`, `Host.send_succeeds_iff`, `Host.sendRaw_succeeds_iff`: the
  outbound operations.
* `Host.reply`: the datagram a receive answers with; `Host.recvOne_succeeds_iff`: a receive
  fails only when this one does not fit.  `Host.replyLen` is its length, which the kind of the
  datagram alone decides.
-/

namespace Libp2pCat

open ByteString Effect Std

variable {C : Crypto}

/-- Bytes a transport datagram has more than its plaintext. -/
abbrev TRANSPORT_OVERHEAD_LEN : ℕ := 8 + AEAD_TAG_LEN

lemma UdpTransport.send_succeeds_iff {socket : UdpTransport} {dst : UdpAddr} {payload : Bytes}
    {w : World} (hw : w.SendsOk) :
    (socket.send dst payload).Succeeds w ↔ payload.length ≤ socket.maxSendPayload := by
  constructor
  · rintro ⟨s, w', h⟩
    exact (send_run_eq_ok_iff.mp h).1
  · intro h
    exact ⟨socket, _, send_run_eq_ok_iff.mpr ⟨h, hw 0, rfl, rfl⟩⟩

/-- Encryption succeeds exactly while the send counter can advance. -/
lemma TransportState.encrypt_isOk_iff (hC : C.Seals) {t : TransportState} (plaintext : Bytes) :
    (∃ r, t.encrypt C plaintext = .ok r) ↔ t.sendNonce.toNat + 1 < 2 ^ 64 := by
  constructor
  · rintro ⟨⟨t', datagram⟩, h⟩
    obtain ⟨c, -, -, hlt, -⟩ := encrypt_eq_ok_iff.mp h
    exact hlt
  · intro hlt
    obtain ⟨c, hc, -⟩ := hC t.sendKey (chachaNonce t.sendNonce) [] plaintext
    exact ⟨_, encrypt_eq_ok_iff.mpr ⟨c, aeadEncrypt_eq_ok_iff.mpr hc, rfl, hlt, rfl⟩⟩

lemma TransportState.length_encrypt (hC : C.Seals) {t t' : TransportState}
    {plaintext datagram : Bytes} (h : t.encrypt C plaintext = .ok (t', datagram)) :
    datagram.length = plaintext.length + TRANSPORT_OVERHEAD_LEN := by
  obtain ⟨c, hc, rfl, -, -⟩ := encrypt_eq_ok_iff.mp h
  obtain ⟨c', hc', hlen⟩ := hC t.sendKey (chachaNonce t.sendNonce) [] plaintext
  rw [aeadEncrypt_eq_ok_iff.mp hc] at hc'
  cases hc'
  rw [List.length_append, length_beBytes, hlen]
  simp only [TRANSPORT_OVERHEAD_LEN]
  omega

namespace Host

variable {host : Host C} {addr : UdpAddr} {w : World}

/-- The send counter of the connection behind an address is not exhausted. -/
def NonceLeft (host : Host C) (addr : UdpAddr) : Prop :=
  ∀ conn, host.established[addr]? = some conn → conn.transport.sendNonce.toNat + 1 < 2 ^ 64

/-- A dial succeeds exactly on an unknown address, if message 1 fits. -/
lemma dial_succeeds_iff {seed : Key} (hw : w.SendsOk) :
    (host.dial addr seed).Succeeds w ↔
      host.handshakes.contains addr = false ∧ host.isEstablished addr = false ∧
        MESSAGE_1_LEN ≤ host.socket.maxSendPayload := by
  rw [dial, Io.succeeds_flatMap_iff]
  simp only [Io.run_suspend, Prod.mk.injEq, Io.succeeds_map_iff, prepareDial, isEstablished]
  cases hknown : host.handshakes.contains addr || host.established.contains addr with
  | true =>
      rcases Bool.or_eq_true _ _ ▸ hknown with h | h <;> simp [h]
  | false =>
      obtain ⟨hh, he⟩ := Bool.or_eq_false_iff.mp hknown
      simp only [Bool.false_eq_true, if_false, writeE_eq, Except.ok_bind, hh, he, true_and]
      constructor
      · rintro ⟨prepared, w', ⟨hp, rfl⟩, hsend⟩
        cases hp
        simpa using (UdpTransport.send_succeeds_iff hw).mp hsend
      · intro hfit
        exact ⟨_, w, ⟨rfl, rfl⟩, (UdpTransport.send_succeeds_iff hw).mpr (by simpa using hfit)⟩

/-- A send succeeds exactly on an established address whose send counter can advance, if the
datagram fits. -/
lemma send_succeeds_iff (hC : C.Seals) {plaintext : Bytes} (hw : w.SendsOk) :
    (host.send addr plaintext).Succeeds w ↔
      host.isEstablished addr = true ∧ host.NonceLeft addr ∧
        plaintext.length + TRANSPORT_OVERHEAD_LEN ≤ host.socket.maxSendPayload := by
  rw [send, Io.succeeds_flatMap_iff]
  simp only [Io.run_suspend, Prod.mk.injEq, Io.succeeds_map_iff, isEstablished, NonceLeft,
    ExtTreeMap.contains_eq_isSome_getElem?, prepareSend]
  cases hconn : host.established[addr]? with
  | none => simp [okOr]
  | some conn =>
      simp only [okOr_some, Except.ok_bind, Option.isSome_some, true_and, Option.some.injEq,
        forall_eq']
      constructor
      · rintro ⟨prepared, w', ⟨hp, rfl⟩, hsend⟩
        obtain ⟨⟨t, datagram⟩, henc, hp⟩ := Except.bind_eq_ok_iff.mp hp
        cases hp
        refine ⟨(TransportState.encrypt_isOk_iff hC plaintext).mp ⟨_, henc⟩, ?_⟩
        rw [← TransportState.length_encrypt hC henc]
        exact (UdpTransport.send_succeeds_iff hw).mp hsend
      · rintro ⟨hlt, hfit⟩
        obtain ⟨⟨t, datagram⟩, henc⟩ := (TransportState.encrypt_isOk_iff hC plaintext).mpr hlt
        refine ⟨_, w, ⟨Except.bind_eq_ok_iff.mpr ⟨_, henc, rfl⟩, rfl⟩, ?_⟩
        refine (UdpTransport.send_succeeds_iff hw).mpr ?_
        rw [TransportState.length_encrypt hC henc]
        exact hfit

lemma sendRaw_succeeds_iff {bytes : Bytes} (hw : w.SendsOk) :
    (host.sendRaw addr bytes).Succeeds w ↔ bytes.length ≤ host.socket.maxSendPayload := by
  rw [sendRaw, Io.succeeds_map_iff, UdpTransport.send_succeeds_iff hw]

/-- The datagram a host sends back on receiving one, if any. -/
def reply (host : Host C) (addr : UdpAddr) (datagram : Bytes) (seed : Key) : Option Bytes :=
  if host.isEstablished addr then none
  else
    match host.handshakes[addr]? with
    | some ⟨.initiatorAwaitingResponse afterE msg1, _⟩ =>
        if Cookie.isChallenge datagram then some (msg1 ++ datagram.drop 1)
        else (initiatorAdvance host.identity afterE datagram).toOption.map fun r => r.2.1
    | some ⟨.responderAwaitingFinalize _, _⟩ => none
    | none =>
        if datagram.length = MESSAGE_1_LEN then
          some (Cookie.challenge C host.identity.cookieSecret addr datagram)
        else if Cookie.Valid C host.identity.cookieSecret addr datagram then
          (responderRespond host.identity (datagram.take MESSAGE_1_LEN) seed).toOption.map Prod.snd
        else none

end Host

/-- The reply of every outcome is this one. -/
lemma Inbound.reply_eq {host host' : Host C} {addr : UdpAddr} {datagram : Bytes} {seed : Key}
    {sent : Option Bytes} {event : HostEvent}
    (h : Inbound host addr datagram seed sent host' event) :
    sent = host.reply addr datagram seed := by
  -- every outcome but the first two finds no connection
  have hunknown : host.established[addr]? = none → host.isEstablished addr = false := by
    intro ha
    rw [Host.isEstablished, ExtTreeMap.contains_eq_isSome_getElem?, ha]
    rfl
  have hknown : ∀ {conn}, host.established[addr]? = some conn →
      host.isEstablished addr = true := by
    intro conn ha
    rw [Host.isEstablished, ExtTreeMap.contains_eq_isSome_getElem?, ha]
    rfl
  rw [Host.reply]
  cases h with
  | delivered hconn _ => rw [if_pos (hknown hconn)]
  | undecryptable hconn _ => rw [if_pos (hknown hconn)]
  | challenged hest hentry hchal => simp [hunknown hest, hentry, hchal]
  | initiatorCompleted hest hentry hchal hadv =>
      simp [hunknown hest, hentry, hchal, hadv, Except.toOption]
  | initiatorKept hest hentry hchal hadv =>
      simp [hunknown hest, hentry, hchal, hadv, Except.toOption]
  | responderCompleted hest hentry _ => simp [hunknown hest, hentry]
  | responderKept hest hentry _ => simp [hunknown hest, hentry]
  | bareMsg1 hest hnew hlen => simp [hunknown hest, hnew, hlen]
  | validatedMsg1 hest hnew hcookie hresp =>
      have hlen : datagram.length ≠ MESSAGE_1_LEN := by
        rw [hcookie.1]
        decide
      simp [hunknown hest, hnew, hlen, hcookie, hresp, Except.toOption]
  | unanswerable hest hnew hcookie hresp =>
      have hlen : datagram.length ≠ MESSAGE_1_LEN := by
        rw [hcookie.1]
        decide
      simp [hunknown hest, hnew, hlen, hcookie, hresp, Except.toOption]
  | refused hest hnew hlen hcookie => simp [hunknown hest, hnew, hlen, hcookie]

namespace Host

variable {host : Host C} {addr : UdpAddr} {w : World}

/-- A receive succeeds exactly when its reply fits. -/
lemma recvOne_succeeds_iff {seed : Key} {datagram : Bytes} (hw : w.SendsOk)
    (hnext : w.recvFrom 0 = .ok (addr, datagram)) :
    (host.recvOne seed).Succeeds w ↔
      ∀ b ∈ host.reply addr (datagram.take host.socket.recvBufSize) seed,
        b.length ≤ host.socket.maxSendPayload := by
  obtain ⟨sent, host', event, hin, heq⟩ :=
    dispatchInbound_spec host addr (datagram.take host.socket.recvBufSize) seed
  have hrun := recvOne_run_of_recvFrom host seed hnext
  rw [heq] at hrun
  rw [Io.Succeeds, hrun, ← hin.reply_eq]
  constructor
  · rintro ⟨r, w', hemit⟩ b hb
    cases sent with
    | none => cases hb
    | some payload =>
        cases hb
        exact (UdpTransport.send_succeeds_iff (hw.afterRecv _ _)).mp
          (Io.succeeds_map_iff.mp ⟨r, w', hemit⟩)
  · intro hfit
    exact ⟨_, _, emit_run_of_fits (hw.afterRecv _ _) hfit⟩

/-- The length of the reply: a cookie challenge, its echo, message 2 or message 3. -/
def replyLen (host : Host C) (addr : UdpAddr) (datagram : Bytes) (seed : Key) : ℕ :=
  if host.isEstablished addr then 0
  else
    match host.handshakes[addr]? with
    | some ⟨.initiatorAwaitingResponse afterE msg1, _⟩ =>
        if Cookie.isChallenge datagram then msg1.length + Cookie.COOKIE_MAC_LEN
        else if (initiatorAdvance host.identity afterE datagram).isOk then
          MESSAGE_3_OVERHEAD_LEN + SIGNED_STATIC_KEY_LEN
        else 0
    | some ⟨.responderAwaitingFinalize _, _⟩ => 0
    | none =>
        if datagram.length = MESSAGE_1_LEN then Cookie.COOKIE_REPLY_LEN
        else if Cookie.Valid C host.identity.cookieSecret addr datagram ∧
            (responderRespond host.identity (datagram.take MESSAGE_1_LEN) seed).isOk then
          MESSAGE_2_OVERHEAD_LEN + SIGNED_STATIC_KEY_LEN
        else 0

end Host

lemma length_initiatorAdvance (hC : C.Seals) {identity : HostIdentity C}
    {afterE : InitiatorAfterE C} {datagram msg3 : Bytes} {transport : TransportState}
    {rs : StaticPublicKey} {pid : PeerId}
    (h : initiatorAdvance identity afterE datagram = .ok (transport, msg3, rs, pid)) :
    msg3.length = MESSAGE_3_OVERHEAD_LEN + SIGNED_STATIC_KEY_LEN := by
  obtain ⟨afterResp, payload, hread, -, hwrite⟩ := initiatorAdvance_eq_ok_iff.mp h
  obtain ⟨e, c₁, c₂, s₁, s₂, rs', -, -, -, -, hdec, rfl⟩ := readResponse_eq_ok_iff.mp hread
  obtain ⟨t₁, d₁, t₂, d₂, henc₁, henc₂, -, rfl, -⟩ := writeS_eq_ok_iff.mp hwrite
  have hkey := SymmetricState.decryptAndHash_cipherKey hdec
  rw [SymmetricState.mixKey_cipherKey] at hkey
  rw [List.length_append, SymmetricState.length_encryptAndHash hC hkey henc₁,
    SymmetricState.length_encryptAndHash hC (SymmetricState.mixKey_cipherKey _ _) henc₂,
    Arr.length_bytes, SignedStaticKey.length_toBytes]
  simp only [MESSAGE_3_OVERHEAD_LEN, ENC_STATIC_LEN]
  omega

lemma length_responderRespond (hC : C.Seals) {identity : HostIdentity C} {eBytes msg2 : Bytes}
    {seed : Key} {afterResp : ResponderAfterResponse}
    (h : responderRespond identity eBytes seed = .ok (afterResp, msg2)) :
    msg2.length = MESSAGE_2_OVERHEAD_LEN + SIGNED_STATIC_KEY_LEN := by
  obtain ⟨afterE, -, hwrite⟩ := Except.bind_eq_ok_iff.mp h
  obtain ⟨s₁, c₁, s₂, c₂, henc₁, henc₂, -, rfl⟩ := writeResponse_eq_ok_iff.mp hwrite
  rw [List.length_append, List.length_append,
    SymmetricState.length_encryptAndHash hC (SymmetricState.mixKey_cipherKey _ _) henc₁,
    SymmetricState.length_encryptAndHash hC (SymmetricState.mixKey_cipherKey _ _) henc₂,
    Arr.length_bytes, Arr.length_bytes, SignedStaticKey.length_toBytes]
  simp only [MESSAGE_2_OVERHEAD_LEN, ENC_STATIC_LEN, EPH_PUBLIC_LEN]
  omega

namespace Host

variable {host : Host C} {addr : UdpAddr}

/-- The reply has the length its kind has. -/
lemma reply_fits_iff (hC : C.Seals) {datagram : Bytes} {seed : Key} {m : ℕ} :
    (∀ b ∈ host.reply addr datagram seed, b.length ≤ m) ↔
      host.replyLen addr datagram seed ≤ m := by
  rw [reply, replyLen]
  split
  · simp
  · cases hentry : host.handshakes[addr]? with
    | none =>
        simp only
        by_cases hlen : datagram.length = MESSAGE_1_LEN
        · simp only [if_pos hlen, Option.mem_some_iff, forall_eq', Cookie.challenge,
            List.length_cons, Arr.length_bytes, Cookie.COOKIE_REPLY_LEN, Nat.add_comm 1]
        · simp only [if_neg hlen]
          by_cases hcookie : Cookie.Valid C host.identity.cookieSecret addr datagram
          · cases hresp : responderRespond host.identity (datagram.take MESSAGE_1_LEN) seed with
            | error e => simp [Except.toOption, Except.isOk, Except.toBool]
            | ok r =>
                have hmsg := length_responderRespond hC hresp
                simp [hcookie, Except.toOption, Except.isOk, Except.toBool, hmsg]
          · simp [hcookie]
    | some entry =>
        obtain ⟨state, stamp⟩ := entry
        cases state with
        | responderAwaitingFinalize afterResp => simp
        | initiatorAwaitingResponse afterE msg1 =>
            simp only
            cases hchal : Cookie.isChallenge datagram with
            | true =>
                have hlen : datagram.length = Cookie.COOKIE_REPLY_LEN := by
                  simp only [Cookie.isChallenge, Bool.and_eq_true, decide_eq_true_eq] at hchal
                  exact hchal.1
                simp [hlen]
            | false =>
                cases hadv : initiatorAdvance host.identity afterE datagram with
                | error e => simp [Except.toOption, Except.isOk, Except.toBool]
                | ok r =>
                    have hmsg := length_initiatorAdvance hC hadv
                    simp [Except.toOption, Except.isOk, Except.toBool, hmsg]

/-- The plaintext a datagram of an established address decrypts to. -/
def opens (host : Host C) (addr : UdpAddr) (datagram : Bytes) : Option Bytes :=
  host.established[addr]?.bind fun conn => (conn.transport.decrypt C datagram).2.toOption

end Host

/-- A datagram is handed over exactly when it decrypts; its connection keeps the peer and
the send counter. -/
lemma Inbound.of_opens {host host' : Host C} {addr : UdpAddr} {datagram : Bytes} {seed : Key}
    {sent : Option Bytes} {event : HostEvent}
    (h : Inbound host addr datagram seed sent host' event) :
    (∃ plaintext, host.opens addr datagram = some plaintext ∧
      event = .datagramDelivered addr plaintext ∧ host'.isEstablished addr = true ∧
      host'.remotePeerIdOf addr = host.remotePeerIdOf addr ∧
      (host'.NonceLeft addr ↔ host.NonceLeft addr)) ∨
    (host.opens addr datagram = none ∧ ∀ a plaintext, event ≠ .datagramDelivered a plaintext) := by
  cases h with
  | @delivered conn transport plaintext hconn hdec =>
      obtain ⟨nonce, hchk⟩ := TransportState.checked_of_decrypt (by rw [hdec])
      have ht := TransportState.decrypt_of_checked hchk
      rw [hdec] at ht
      cases ht
      refine Or.inl ⟨plaintext, ?_, rfl, ?_, ?_, ?_⟩
      · rw [Host.opens, hconn, Option.bind_some, hdec]
        rfl
      · exact ExtTreeMap.contains_insert_self
      · simp [Host.remotePeerIdOf, hconn]
      · simp [Host.NonceLeft, hconn]
  | undecryptable hconn hdec =>
      refine Or.inr ⟨?_, by simp⟩
      rw [Host.opens, hconn, Option.bind_some, hdec]
      rfl
  | _ => exact Or.inr ⟨by simp [Host.opens, *], by simp⟩

/-- A delivered datagram establishes nothing and takes no send nonce. -/
lemma Inbound.of_delivered {host host' : Host C} {addr a : UdpAddr} {datagram plaintext : Bytes}
    {seed : Key} {sent : Option Bytes}
    (h : Inbound host addr datagram seed sent host' (.datagramDelivered a plaintext)) (b : UdpAddr) :
    host'.isEstablished b = host.isEstablished b ∧ (host.NonceLeft b → host'.NonceLeft b) := by
  cases h with
  | @delivered conn transport plaintext hconn hdec =>
      obtain ⟨nonce, hchk⟩ := TransportState.checked_of_decrypt (by rw [hdec])
      have ht := TransportState.decrypt_of_checked hchk
      rw [hdec] at ht
      cases ht
      refine ⟨?_, fun hleft conn' hconn' => ?_⟩
      · by_cases hb : addr = b
        · subst hb
          simp [Host.isEstablished, ExtTreeMap.contains_eq_isSome_getElem?, hconn]
        · have hcmp : compare addr b ≠ .eq := fun heq => hb (LawfulEqOrd.eq_of_compare heq)
          simp [Host.isEstablished, ExtTreeMap.contains_insert, hcmp]
      · rw [ExtTreeMap.getElem?_insert] at hconn'
        split at hconn'
        · rename_i heq
          cases hconn'
          obtain rfl := LawfulEqOrd.eq_of_compare heq
          exact hleft conn hconn
        · exact hleft conn' hconn'

/-! ### What the operations keep of the world -/

namespace Host

variable (host : Host C) {P : World → Prop}

lemma preserves_dial (hP : UdpTransport.KeptBySends P) (addr : UdpAddr) (seed : Key) :
    (host.dial addr seed).Preserves P :=
  (Io.preserves_suspend _).flatMap fun _ => (hP _ _ _).map

lemma preserves_send (hP : UdpTransport.KeptBySends P) (addr : UdpAddr) (plaintext : Bytes) :
    (host.send addr plaintext).Preserves P :=
  (Io.preserves_suspend _).flatMap fun _ => (hP _ _ _).map

lemma preserves_dispatchInbound (hP : UdpTransport.KeptBySends P) (addr : UdpAddr)
    (datagram : Bytes) (seed : Key) : (dispatchInbound host addr datagram seed).Preserves P := by
  obtain ⟨sent, host', event, -, heq⟩ := dispatchInbound_spec host addr datagram seed
  rw [heq]
  cases sent with
  | none => exact Io.preserves_pure _
  | some b => exact (hP _ _ _).map

lemma calm_recvOne (seed : Key) : (host.recvOne seed).Preserves World.Calm :=
  (UdpTransport.calm_recv _).flatMap fun _ => preserves_dispatchInbound _ UdpTransport.calm_send _ _ _

end Host

end Libp2pCat
