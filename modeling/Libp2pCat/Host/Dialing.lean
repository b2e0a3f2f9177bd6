import Libp2pCat.Host.Steps
import Libp2pCat.Noise.Agreement

/-!
Two hosts, one of which dials the other, over a network that repeats datagrams and mixes
junk in.

* `honest_handshake`: what two hosts with valid identities make of each other's messages.
* `Net`: both hosts and the datagrams each has emitted to the other; `Net.Step`: one of them
  is handed the next datagram of the other, one it was handed before, or junk.
* `Phase`: the four phases of a dial (`opening`, `answered`, `finishing`, `done`) with what the
  two hosts hold and what is still on its way; `Phase.toA`, `Phase.toB`: one delivery.
* `dial_completes`: once everything emitted was delivered, both sides are established with
  each other.
-/

namespace Libp2pCat

open ByteString Effect Std Trace

variable {C : Crypto}

/-! ### The honest handshake between two hosts -/

/-- The awaiting state of a dial. -/
def dialState (id : HostIdentity C) (seed : Key) : InitiatorAfterE C :=
  ⟨id.staticKeypair, seed, symAfterE C (C.x25519Public seed)⟩

/-- The binding a host sends verifies and names its peer. -/
lemma verifyBinding_identity (hS : C.SignsVerify) (id : HostIdentity C) :
    verifyBinding C id.signedStaticKey.toBytes id.staticKeypair.publicKey = .ok id.peerId := by
  obtain ⟨kp, hcreate, hpeer⟩ := id.binding
  have hver := SignedStaticKey.create_verify hS hcreate
  simp only [verifyBinding, SignedStaticKey.fromBytes_toBytes, Except.ok_bind, hver, hpeer]
  rfl

/-- Whatever seeds two hosts use, message 2 of the one advances the dial of the other,
message 3 finalizes it, and each side learns the other's true key and peer. -/
lemma honest_handshake (hC : C.Agrees) (hS : C.SignsVerify) (idA idB : HostIdentity C)
    (seedA seedB : Key) :
    ∃ rR m₂ m₃ tA tB,
      responderRespond idB (C.x25519Public seedA).bytes seedB = .ok (rR, m₂) ∧
      Cookie.isChallenge m₂ = false ∧
      initiatorAdvance idA (dialState idA seedA) m₂
        = .ok (tA, m₃, idB.staticKeypair.publicKey, idB.peerId) ∧
      responderFinalize C rR m₃ = .ok (tB, idA.staticKeypair.publicKey, idA.peerId) ∧
      tA.Mirrored tB := by
  obtain ⟨rR, m₂, iR, hwrite, hlen, hread, hstatic, hrest⟩ := handshake_agrees hC
    idA.staticKeypair idB.staticKeypair seedA seedB idB.signedStaticKey.toBytes
  obtain ⟨tA, tB, m₃, hwriteS, -, hreadS, hmirror⟩ := hrest idA.signedStaticKey.toBytes
  have hshape : Cookie.isChallenge m₂ = false := by
    have hne : m₂.length ≠ Cookie.COOKIE_REPLY_LEN := by
      rw [hlen, SignedStaticKey.length_toBytes]
      decide
    rw [Cookie.isChallenge, decide_eq_false hne, Bool.false_and]
  refine ⟨rR, m₂, m₃, tA, tB, ?_, hshape, ?_, ?_, hmirror⟩
  · simp only [responderRespond, readE_bytes, Except.ok_bind, hwrite]
  · exact initiatorAdvance_eq_ok_iff.mpr
      ⟨iR, _, hread, hstatic ▸ verifyBinding_identity hS idB, hwriteS⟩
  · exact responderFinalize_eq_ok_iff.mpr ⟨_, hreadS, verifyBinding_identity hS idA⟩

/-- A message 1, bare or with a cookie, is never message 3. -/
lemma responderFinalize_short {rR : ResponderAfterResponse} {d : Bytes}
    (h : d.length < MESSAGE_3_OVERHEAD_LEN) : ∃ e, responderFinalize C rR d = .error e := by
  cases hfin : responderFinalize C rR d with
  | error e => exact ⟨e, rfl⟩
  | ok r =>
      obtain ⟨payload, hread, -⟩ := responderFinalize_eq_ok_iff.mp hfin
      obtain ⟨c₁, c₂, _, _, rfl, hc₁, hc₂, -⟩ := readS_eq_ok_iff.mp hread
      rw [List.length_append, hc₁, MESSAGE_3_OVERHEAD_LEN] at h
      omega

/-! ### The network -/

variable (C) in
/-- Two hosts, the datagrams each emitted to the other in order, how many of them the
other was handed, and the plaintexts the two transports have handed over. -/
structure Net where
  a : Host C
  b : Host C
  aToB : List Bytes
  bToA : List Bytes
  readB : ℕ
  readA : ℕ
  opened : List Bytes

/-- The datagram waits at the socket, and every socket call succeeds. -/
def arrival (addr : UdpAddr) (datagram : Bytes) : World :=
  { World.quiet with recvFrom := fun _ => .ok (addr, datagram) }

/-- The same, with the second datagram behind the first and ever after. -/
def arrivals (first second : UdpAddr × Bytes) : World :=
  { World.quiet with recvFrom := fun k => .ok (if k = 0 then first else second) }

/-- The plaintext an event hands over. -/
@[simp] def HostEvent.opened : HostEvent → List Bytes
  | .datagramDelivered _ plaintext => [plaintext]
  | _ => []

/-- A host receives a datagram that fits its buffer: the host after it, what it emitted,
and the plaintext it opened. -/
def Handles (host : Host C) (addr : UdpAddr) (datagram : Bytes) (seed : Key) (host' : Host C)
    (out opened : List Bytes) : Prop :=
  datagram.length ≤ host.socket.recvBufSize ∧
  ∃ event w', (host.recvOne seed).run (arrival addr datagram) = (.ok (host', event), w') ∧
    out = w'.sent.map Prod.snd ∧ opened = event.opened

/-- The datagram is an authentic message 2 or 3 for the handshake a host has in flight. -/
def AuthenticFor (host : Host C) (addr : UdpAddr) (datagram : Bytes) : Prop :=
  (∃ afterE msg1 stamp r,
    host.handshakes[addr]? = some ⟨.initiatorAwaitingResponse afterE msg1, stamp⟩ ∧
      initiatorAdvance host.identity afterE datagram = .ok r) ∨
  ∃ afterResp stamp r,
    host.handshakes[addr]? = some ⟨.responderAwaitingFinalize afterResp, stamp⟩ ∧
      responderFinalize C afterResp datagram = .ok r

/-- The next emitted datagram, or one that was handed over before. -/
inductive Genuine (sent : List Bytes) (read : ℕ) : Bytes → ℕ → Prop where
  | next {d : Bytes} : sent[read]? = some d → Genuine sent read d (read + 1)
  | again {d : Bytes} {i : ℕ} : i < read → sent[i]? = some d → Genuine sent read d read

/-- What the network hands to a host next. -/
inductive NetLabel where
  | toA (datagram : Bytes) (seed : Key)
  | toB (datagram : Bytes) (seed : Key)

/-- One delivery: a genuine datagram, or junk that is no authentic message 2 or 3 of this
handshake and, towards the answering host, no message 1 with a valid cookie of the dialer's
address. -/
inductive Net.Step (addrA addrB : UdpAddr) : Net C → NetLabel → Net C → Prop where
  | genuineToB {n : Net C} {d : Bytes} {seed : Key} {read' : ℕ} {b' : Host C}
      {out opened : List Bytes} (hd : Genuine n.aToB n.readB d read')
      (hrun : Handles n.b addrA d seed b' out opened) :
      Step addrA addrB n (.toB d seed)
        { n with b := b', bToA := n.bToA ++ out, readB := read', opened := n.opened ++ opened }
  | junkToB {n : Net C} {d : Bytes} {seed : Key} {b' : Host C} {out opened : List Bytes}
      (hcookie : ¬ Cookie.Valid C n.b.identity.cookieSecret addrA d)
      (hauth : ¬ AuthenticFor n.b addrA d) (hrun : Handles n.b addrA d seed b' out opened) :
      Step addrA addrB n (.toB d seed)
        { n with b := b', bToA := n.bToA ++ out, opened := n.opened ++ opened }
  | genuineToA {n : Net C} {d : Bytes} {seed : Key} {read' : ℕ} {a' : Host C}
      {out opened : List Bytes} (hd : Genuine n.bToA n.readA d read')
      (hrun : Handles n.a addrB d seed a' out opened) :
      Step addrA addrB n (.toA d seed)
        { n with a := a', aToB := n.aToB ++ out, readA := read', opened := n.opened ++ opened }
  | junkToA {n : Net C} {d : Bytes} {seed : Key} {a' : Host C} {out opened : List Bytes}
      (hauth : ¬ AuthenticFor n.a addrB d) (hrun : Handles n.a addrB d seed a' out opened) :
      Step addrA addrB n (.toA d seed)
        { n with a := a', aToB := n.aToB ++ out, opened := n.opened ++ opened }

/-- A host that was handed a datagram went through one outcome of `Inbound`. -/
lemma Handles.inbound {host host' : Host C} {addr : UdpAddr} {d : Bytes} {seed : Key}
    {out opened : List Bytes} (h : Handles host addr d seed host' out opened) :
    ∃ reply event, Inbound host addr d seed reply host' event ∧ out = reply.toList ∧
      opened = event.opened := by
  obtain ⟨hfit, event, w', hrun, rfl, rfl⟩ := h
  obtain ⟨_, _, reply, hnext, hin, rfl⟩ := recvOne_run_eq_ok hrun
  cases hnext
  rw [List.take_of_length_le hfit] at hin
  refine ⟨reply, event, hin, ?_, rfl⟩
  cases reply <;> rfl

/-- Nothing this short is an authentic message 2 or 3. -/
lemma not_authenticFor_of_short {host : Host C} {addr : UdpAddr} {d : Bytes}
    (hshort : d.length ≤ Cookie.MSG1_WITH_COOKIE_LEN) : ¬ AuthenticFor host addr d := by
  have hshort : d.length ≤ 48 := hshort
  rintro (⟨_, _, _, ⟨t, msg3, rs, pid⟩, -, hadv⟩ | ⟨_, _, _, -, hfin⟩)
  · obtain ⟨_, _, hread, -⟩ := initiatorAdvance_eq_ok_iff.mp hadv
    obtain ⟨e, c₁, c₂, -, -, -, rfl, hc₁, -⟩ := readResponse_eq_ok_iff.mp hread
    have hc₁ : c₁.length = 48 := hc₁
    have he : e.bytes.length = 32 := e.length_bytes
    rw [List.length_append, List.length_append] at hshort
    omega
  · have hlt : d.length < MESSAGE_3_OVERHEAD_LEN := by
      change d.length < 64
      omega
    obtain ⟨e, herr⟩ := responderFinalize_short hlt
    rw [hfin] at herr
    cases herr

/-! ### The phases of a dial -/

/-- A message 1, bare or with sixteen bytes of cookie. -/
def IsMsg1 (msg1 d : Bytes) : Prop :=
  d = msg1 ∨ ∃ mac : Bytes, mac.length = Cookie.COOKIE_MAC_LEN ∧ d = msg1 ++ mac

/-- Two transports that hold each other's keys and have sent nothing; they are untouched
unless one of them opened a datagram. -/
def Linked (t t' : TransportState) (opened : List Bytes) : Prop :=
  t.MirrorKeys t' ∧ t.sendNonce = 0 ∧ t'.sendNonce = 0 ∧ (opened = [] → t.Mirrored t')

/-- The connection records the true key and peer of a host. -/
def TruePeer (conn : EstablishedConnection) (id : HostIdentity C) : Prop :=
  conn.remoteStatic = id.staticKeypair.publicKey ∧ conn.remotePeerId = id.peerId

/-- The rest of a handshake once message 2 is written. -/
structure Script (idA idB : HostIdentity C) (seedA : Key) (rR : ResponderAfterResponse)
    (m₂ m₃ : Bytes) (tA tB : TransportState) : Prop where
  shape : Cookie.isChallenge m₂ = false
  advance : initiatorAdvance idA (dialState idA seedA) m₂
    = .ok (tA, m₃, idB.staticKeypair.publicKey, idB.peerId)
  finalize : responderFinalize C rR m₃ = .ok (tB, idA.staticKeypair.publicKey, idA.peerId)
  mirrored : tA.Mirrored tB

/-- The cookie exchange is still moving: message 1, the challenge to it or its answer with
the cookie is on the way. -/
def Pending (addrA : UdpAddr) (idB : HostIdentity C) (msg1 : Bytes) (n : Net C) : Prop :=
  n.readB = 0 ∨
    (∃ i, n.readA ≤ i ∧
      n.bToA[i]? = some (Cookie.challenge C idB.cookieSecret addrA msg1)) ∨
    ∃ j, n.readB ≤ j ∧
      n.aToB[j]? = some (msg1 ++ (Cookie.mint C idB.cookieSecret addrA msg1).bytes)

/-- How far the dial of `addrB` by the host at `addrA` has come. -/
inductive Phase (addrA addrB : UdpAddr) (idA idB : HostIdentity C) (seedA : Key) (n : Net C) :
    Prop where
  /-- The cookie exchange. -/
  | opening {stamp : UInt64}
      (ha : n.a.handshakes[addrB]? = some ⟨.initiatorAwaitingResponse (dialState idA seedA)
        (C.x25519Public seedA).bytes, stamp⟩)
      (hae : n.a.established[addrB]? = none) (hb : n.b.handshakes[addrA]? = none)
      (hbe : n.b.established[addrA]? = none)
      (hA : ∀ d ∈ n.aToB, IsMsg1 (C.x25519Public seedA).bytes d)
      (hB : ∀ d ∈ n.bToA, Cookie.isChallenge d = true)
      (hfirst : n.aToB[0]? = some (C.x25519Public seedA).bytes)
      (hpend : Pending addrA idB (C.x25519Public seedA).bytes n)
  /-- Message 2 is on its way, behind nothing but challenges. -/
  | answered {stamp stamp' : UInt64} {rR : ResponderAfterResponse} {m₂ m₃ : Bytes}
      {tA tB : TransportState} {challenges : List Bytes}
      (ha : n.a.handshakes[addrB]? = some ⟨.initiatorAwaitingResponse (dialState idA seedA)
        (C.x25519Public seedA).bytes, stamp⟩)
      (hae : n.a.established[addrB]? = none)
      (hb : n.b.handshakes[addrA]? = some ⟨.responderAwaitingFinalize rR, stamp'⟩)
      (hbe : n.b.established[addrA]? = none) (hscript : Script idA idB seedA rR m₂ m₃ tA tB)
      (hA : ∀ d ∈ n.aToB, IsMsg1 (C.x25519Public seedA).bytes d)
      (hB : n.bToA = challenges ++ [m₂])
      (hchal : ∀ d ∈ challenges, Cookie.isChallenge d = true)
      (hread : n.readA ≤ challenges.length)
  /-- Message 3 is on its way, behind nothing but messages 1. -/
  | finishing {stamp' : UInt64} {rR : ResponderAfterResponse} {m₃ : Bytes} {tB : TransportState}
      {conn : EstablishedConnection} {requests : List Bytes}
      (ha : n.a.established[addrB]? = some conn)
      (hb : n.b.handshakes[addrA]? = some ⟨.responderAwaitingFinalize rR, stamp'⟩)
      (hbe : n.b.established[addrA]? = none)
      (hfin : responderFinalize C rR m₃ = .ok (tB, idA.staticKeypair.publicKey, idA.peerId))
      (hpeer : TruePeer conn idB) (hlink : Linked conn.transport tB n.opened)
      (hA : n.aToB = requests ++ [m₃])
      (hreq : ∀ d ∈ requests, IsMsg1 (C.x25519Public seedA).bytes d)
      (hread : n.readB ≤ requests.length)
  /-- Both sides are established with each other. -/
  | done {connA connB : EstablishedConnection}
      (ha : n.a.established[addrB]? = some connA) (hb : n.b.established[addrA]? = some connB)
      (hpeerA : TruePeer connA idB) (hpeerB : TruePeer connB idA)
      (hlink : Linked connA.transport connB.transport n.opened)

/-- The invariant of a dial. -/
structure Dialing (addrA addrB : UdpAddr) (idA idB : HostIdentity C) (seedA : Key) (n : Net C) :
    Prop where
  identityA : n.a.identity = idA
  identityB : n.b.identity = idB
  readA_le : n.readA ≤ n.bToA.length
  readB_le : n.readB ≤ n.aToB.length
  phase : Phase addrA addrB idA idB seedA n

/-! ### Linked transports -/

/-- Decryption leaves the keys and the send counter alone. -/
lemma decrypt_keys {t t' : TransportState} {d p : Bytes} (h : t.decrypt C d = (t', .ok p)) :
    t'.sendKey = t.sendKey ∧ t'.recvKey = t.recvKey ∧ t'.sendNonce = t.sendNonce := by
  obtain ⟨nonce, hchk⟩ := TransportState.checked_of_decrypt (by rw [h])
  rw [TransportState.decrypt_of_checked hchk] at h
  cases h
  exact ⟨rfl, rfl, rfl⟩

lemma Linked.symm {t t' : TransportState} {opened : List Bytes} (h : Linked t t' opened) :
    Linked t' t opened := by
  obtain ⟨⟨hs, hr⟩, h₁, h₂, hfresh⟩ := h
  refine ⟨⟨hr.symm, hs.symm⟩, h₂, h₁, fun ho => ?_⟩
  obtain ⟨-, hf, hf'⟩ := hfresh ho
  exact ⟨⟨hr.symm, hs.symm⟩, hf', hf⟩

/-- A datagram opened by the first transport keeps the two linked. -/
lemma Linked.decrypt {t t' t₂ : TransportState} {opened : List Bytes} {d p : Bytes}
    (h : Linked t t' opened) (hdec : t.decrypt C d = (t₂, .ok p)) :
    Linked t₂ t' (opened ++ [p]) := by
  obtain ⟨hsend, hrecv, hnonce⟩ := decrypt_keys hdec
  obtain ⟨⟨hs, hr⟩, h₁, h₂, -⟩ := h
  exact ⟨⟨hsend.trans hs, hrecv.trans hr⟩, hnonce.trans h₁, h₂, fun ho => absurd ho (by simp)⟩

lemma linked_of_mirrored {t t' : TransportState} (h : t.Mirrored t') (opened : List Bytes) :
    Linked t t' opened := ⟨h.1, h.2.1.1, h.2.2.1, fun _ => h⟩

/-- Whatever an established host is handed, its connection keeps its peer and stays linked,
and it emits nothing. -/
lemma Handles.of_established {host host' : Host C} {addr : UdpAddr} {d : Bytes} {seed : Key}
    {out opened opened' : List Bytes} {conn : EstablishedConnection} {id : HostIdentity C}
    {t' : TransportState} (h : Handles host addr d seed host' out opened')
    (hconn : host.established[addr]? = some conn) (hpeer : TruePeer conn id)
    (hlink : Linked conn.transport t' opened) :
    out = [] ∧ ∃ conn', host'.established[addr]? = some conn' ∧ TruePeer conn' id ∧
      Linked conn'.transport t' (opened ++ opened') := by
  obtain ⟨reply, event, hin, rfl, rfl⟩ := h.inbound
  obtain ⟨rfl, -, hcase⟩ := hin.of_established hconn
  refine ⟨rfl, ?_⟩
  rcases hcase with ⟨rfl, reason, rfl⟩ | ⟨transport, plaintext, hdec, hnew, rfl⟩
  · exact ⟨conn, hconn, hpeer, by simpa using hlink⟩
  · exact ⟨_, hnew, hpeer, hlink.decrypt hdec⟩

/-! ### What is on the way -/

/-- A delivery leaves the reading position where it is, or takes the next datagram. -/
def Took (sent : List Bytes) (read : ℕ) (d : Bytes) (read' : ℕ) : Prop :=
  read' = read ∨ (read' = read + 1 ∧ sent[read]? = some d)

lemma Genuine.took {sent : List Bytes} {read read' : ℕ} {d : Bytes}
    (h : Genuine sent read d read') : Took sent read d read' := by
  cases h with
  | next h => exact Or.inr ⟨rfl, h⟩
  | again => exact Or.inl rfl

lemma Genuine.mem {sent : List Bytes} {read read' : ℕ} {d : Bytes}
    (h : Genuine sent read d read') : d ∈ sent := by
  cases h with
  | next h => exact List.mem_of_getElem? h
  | again _ h => exact List.mem_of_getElem? h

lemma Took.le {sent : List Bytes} {read read' : ℕ} {d : Bytes} (h : Took sent read d read')
    (hle : read ≤ sent.length) : read' ≤ sent.length := by
  rcases h with rfl | ⟨rfl, hd⟩
  · exact hle
  · exact Nat.succ_le_of_lt (List.getElem?_eq_some_iff.mp hd).1

/-- A datagram ahead of the reading position stays ahead unless it is the one taken. -/
lemma Took.ahead {sent : List Bytes} {read read' i : ℕ} {d x : Bytes}
    (h : Took sent read d read') (out : List Bytes) (hi : read ≤ i) (hx : sent[i]? = some x) :
    d = x ∨ (read' ≤ i ∧ (sent ++ out)[i]? = some x) := by
  have happ : (sent ++ out)[i]? = some x := by
    rw [List.getElem?_append_left (List.getElem?_eq_some_iff.mp hx).1, hx]
  rcases h with rfl | ⟨rfl, hd⟩
  · exact Or.inr ⟨hi, happ⟩
  · rcases Nat.lt_or_ge read i with hlt | hge
    · exact Or.inr ⟨hlt, happ⟩
    · rw [show i = read from by omega, hd] at hx
      exact Or.inl (Option.some.inj hx)

section

variable {addrA addrB : UdpAddr} {idA idB : HostIdentity C} {seedA seed : Key} {n : Net C}
  {d msg1 : Bytes} {a' b' : Host C} {out opened : List Bytes} {read' : ℕ}

/-- A delivery to the answering host keeps the cookie exchange moving, if it answers
message 1 with the challenge and does not take the cookie. -/
lemma Pending.toB (h : Pending addrA idB msg1 n) (hle : n.readA ≤ n.bToA.length)
    (hfirst : n.aToB[0]? = some msg1) (hd : Took n.aToB n.readB d read')
    (hchal : d = msg1 → out = [Cookie.challenge C idB.cookieSecret addrA msg1])
    (hne : d ≠ msg1 ++ (Cookie.mint C idB.cookieSecret addrA msg1).bytes) :
    Pending addrA idB msg1 { n with b := b', bToA := n.bToA ++ out, readB := read',
                                    opened := opened } := by
  rcases h with h0 | ⟨i, hi, hx⟩ | ⟨j, hj, hx⟩
  · rcases hd with rfl | ⟨rfl, hd⟩
    · exact Or.inl h0
    · -- message 1 itself is taken, and answered
      rw [h0, hfirst] at hd
      rw [hchal (Option.some.inj hd).symm]
      exact Or.inr (Or.inl ⟨n.bToA.length, hle, by simp⟩)
  · refine Or.inr (Or.inl ⟨i, hi, ?_⟩)
    show (n.bToA ++ out)[i]? = _
    rw [List.getElem?_append_left (List.getElem?_eq_some_iff.mp hx).1, hx]
  · rcases hd.ahead [] hj hx with heq | ⟨hj', hx'⟩
    · exact absurd heq hne
    · exact Or.inr (Or.inr ⟨j, hj', by simpa using hx'⟩)

/-- A delivery to the dialer keeps the cookie exchange moving, if it answers the challenge
with the cookie. -/
lemma Pending.toA (h : Pending addrA idB msg1 n) (hle : n.readB ≤ n.aToB.length)
    (hd : Took n.bToA n.readA d read')
    (hecho : d = Cookie.challenge C idB.cookieSecret addrA msg1 →
      out = [msg1 ++ (Cookie.mint C idB.cookieSecret addrA msg1).bytes]) :
    Pending addrA idB msg1 { n with a := a', aToB := n.aToB ++ out, readA := read',
                                    opened := opened } := by
  rcases h with h0 | ⟨i, hi, hx⟩ | ⟨j, hj, hx⟩
  · exact Or.inl h0
  · rcases hd.ahead [] hi hx with heq | ⟨hi', hx'⟩
    · rw [hecho heq]
      exact Or.inr (Or.inr ⟨n.aToB.length, hle, by simp⟩)
    · exact Or.inr (Or.inl ⟨i, hi', by simpa using hx'⟩)
  · refine Or.inr (Or.inr ⟨j, hj, ?_⟩)
    show (n.aToB ++ out)[j]? = _
    rw [List.getElem?_append_left (List.getElem?_eq_some_iff.mp hx).1, hx]

/-! ### Deliveries to the answering host -/

/-- The bytes of message 1 have the length of a key. -/
lemma IsMsg1.length_le {e : EphemeralPublicKey} (h : IsMsg1 e.bytes d) :
    d.length ≤ Cookie.MSG1_WITH_COOKIE_LEN := by
  rcases h with rfl | ⟨mac, hmac, rfl⟩
  · rw [Arr.length_bytes]
    exact Nat.le_add_right _ _
  · rw [List.length_append, Arr.length_bytes, hmac]

/-- A message 1 with a valid cookie starts with the ephemeral key. -/
lemma IsMsg1.take {e : EphemeralPublicKey} (h : IsMsg1 e.bytes d) :
    d.take MESSAGE_1_LEN = e.bytes := by
  rcases h with rfl | ⟨mac, -, rfl⟩
  · exact List.take_of_length_le (Nat.le_of_eq e.length_bytes)
  · exact List.take_left' e.length_bytes

/-- During the cookie exchange the answering host answers bare messages 1 and takes the
one cookie that is valid. -/
lemma Phase.toB_opening (hC : C.Agrees) (hS : C.SignsVerify) (hidB : n.b.identity = idB)
    (hleA : n.readA ≤ n.bToA.length) {stamp : UInt64}
    (ha : n.a.handshakes[addrB]? = some ⟨.initiatorAwaitingResponse (dialState idA seedA)
      (C.x25519Public seedA).bytes, stamp⟩)
    (hae : n.a.established[addrB]? = none) (hb : n.b.handshakes[addrA]? = none)
    (hbe : n.b.established[addrA]? = none)
    (hA : ∀ d ∈ n.aToB, IsMsg1 (C.x25519Public seedA).bytes d)
    (hB : ∀ d ∈ n.bToA, Cookie.isChallenge d = true)
    (hfirst : n.aToB[0]? = some (C.x25519Public seedA).bytes)
    (hpend : Pending addrA idB (C.x25519Public seedA).bytes n)
    (hd : Took n.aToB n.readB d read')
    (hmine : Cookie.Valid C idB.cookieSecret addrA d →
      d.take MESSAGE_1_LEN = (C.x25519Public seedA).bytes)
    (hrun : Handles n.b addrA d seed b' out opened) :
    Phase addrA addrB idA idB seedA
      { n with b := b', bToA := n.bToA ++ out, readB := read', opened := n.opened ++ opened } := by
  have hlen1 : (C.x25519Public seedA).bytes.length = MESSAGE_1_LEN := Arr.length_bytes _
  -- the cookie of message 1 is valid
  have hecho : Cookie.Valid C idB.cookieSecret addrA ((C.x25519Public seedA).bytes ++
      (Cookie.mint C idB.cookieSecret addrA (C.x25519Public seedA).bytes).bytes) := by
    refine ⟨?_, ?_⟩
    · rw [List.length_append, hlen1, Arr.length_bytes]
    · rw [List.drop_left' hlen1, List.take_left' hlen1]
  obtain ⟨reply, event, hin, rfl, rfl⟩ := hrun.inbound
  subst hidB
  cases hin with
  | bareMsg1 _ _ hlen =>
      refine .opening ha hae hb hbe hA ?_ hfirst (hpend.toB hleA hfirst hd ?_ ?_)
      · intro x hx
        rcases List.mem_append.mp hx with hx | hx
        · exact hB x hx
        · rw [List.mem_singleton.mp hx]
          exact Cookie.isChallenge_challenge C _ _ _
      · rintro rfl
        rfl
      · rintro rfl
        rw [hecho.1] at hlen
        exact absurd hlen (by decide)
  | refused _ _ hlen hbad =>
      refine .opening ha hae hb hbe hA (by simpa using hB) hfirst (hpend.toB hleA hfirst hd ?_ ?_)
      · rintro rfl
        exact absurd hlen1 hlen
      · rintro rfl
        exact hbad hecho
  | @validatedMsg1 rR m₂ _ _ hvalid hresp =>
      obtain ⟨rR', m₂', m₃, tA, tB, hresp', hshape, hadv, hfin, hmirror⟩ :=
        honest_handshake hC hS idA n.b.identity seedA seed
      rw [hmine hvalid, hresp'] at hresp
      cases hresp
      exact .answered ha hae Lru.getElem?_insertWithLru_self hbe ⟨hshape, hadv, hfin, hmirror⟩ hA
        rfl hB hleA
  | unanswerable _ _ hvalid hresp =>
      obtain ⟨_, _, _, _, _, hresp', -⟩ := honest_handshake hC hS idA n.b.identity seedA seed
      rw [hmine hvalid, hresp'] at hresp
      cases hresp
  | _ => simp_all

/-- What is handed to the answering host and could be taken for message 3 is message 3. -/
lemma not_finalized (hmsg1 : IsMsg1 (C.x25519Public seedA).bytes d) {rR : ResponderAfterResponse}
    {r : TransportState × StaticPublicKey × PeerId} : responderFinalize C rR d ≠ .ok r := by
  have hshort : d.length < MESSAGE_3_OVERHEAD_LEN :=
    Nat.lt_of_le_of_lt hmsg1.length_le (by decide)
  obtain ⟨e, he⟩ : ∃ e, responderFinalize C rR d = .error e := responderFinalize_short hshort
  rw [he]
  nofun

/-- A delivery to the answering host keeps the phases. -/
lemma Phase.toB (hC : C.Agrees) (hS : C.SignsVerify) (hidB : n.b.identity = idB)
    (hleA : n.readA ≤ n.bToA.length) (h : Phase addrA addrB idA idB seedA n)
    (hd : Took n.aToB n.readB d read')
    (horigin : d ∈ n.aToB ∨
      ¬ Cookie.Valid C n.b.identity.cookieSecret addrA d ∧ ¬ AuthenticFor n.b addrA d)
    (hrun : Handles n.b addrA d seed b' out opened) :
    Phase addrA addrB idA idB seedA
      { n with b := b', bToA := n.bToA ++ out, readB := read', opened := n.opened ++ opened } := by
  cases h with
  | opening ha hae hb hbe hA hB hfirst hpend =>
      refine Phase.toB_opening hC hS hidB hleA ha hae hb hbe hA hB hfirst hpend hd ?_ hrun
      intro hvalid
      rcases horigin with hmem | ⟨hbad, -⟩
      · exact (hA d hmem).take
      · exact absurd (hidB ▸ hvalid) hbad
  | @answered stamp stamp' rR m₂ m₃ tA tB challenges ha hae hb hbe hscript hA hB hchal hread =>
      obtain ⟨reply, event, hin, rfl, rfl⟩ := hrun.inbound
      have hself := n.b.getElem?_restore addrA ⟨.responderAwaitingFinalize rR, stamp'⟩
      obtain ⟨rfl, ⟨t, rs, pid, hfin, -, -⟩ | ⟨-, hest, hhs, reason, rfl⟩⟩ := hin.of_responder hbe hb
      · rcases horigin with hmem | ⟨-, hauth⟩
        · exact absurd hfin (not_finalized (hA d hmem))
        · exact absurd (Or.inr ⟨_, _, _, hb, hfin⟩) hauth
      · rw [← hhs] at hself
        exact .answered ha hae hself (by rw [hest, hbe]) hscript hA (by simpa using hB) hchal hread
  | @finishing stamp' rR m₃ tB conn requests ha hb hbe hm₃ hpeer hlink hA hreq hread =>
      obtain ⟨reply, event, hin, rfl, rfl⟩ := hrun.inbound
      have hself := n.b.getElem?_restore addrA ⟨.responderAwaitingFinalize rR, stamp'⟩
      obtain ⟨rfl, ⟨t, rs, pid, hfin, rfl, rfl⟩ | ⟨⟨e, hfin⟩, hest, hhs, reason, rfl⟩⟩ :=
        hin.of_responder hbe hb
      · rcases horigin with hmem | ⟨-, hauth⟩
        · rw [hA, List.mem_append, List.mem_singleton] at hmem
          rcases hmem with hmem | rfl
          · exact absurd hfin (not_finalized (hreq d hmem))
          · rw [hm₃] at hfin
            cases hfin
            exact .done ha Lru.getElem?_insertWithLru_self hpeer ⟨rfl, rfl⟩ (by simpa using hlink)
        · exact absurd (Or.inr ⟨_, _, _, hb, hfin⟩) hauth
      · rw [← hhs] at hself
        refine .finishing ha hself (by rw [hest, hbe]) hm₃ hpeer (by simpa using hlink) hA hreq ?_
        -- message 3 is still ahead: the datagram was another one
        have hm : n.aToB[requests.length]? = some m₃ := by simp [hA]
        rcases hd.ahead [] hread hm with rfl | ⟨hle, -⟩
        · rw [hm₃] at hfin
          cases hfin
        · exact hle
  | done ha hb hpeerA hpeerB hlink =>
      obtain ⟨rfl, connB, hb', hpeer', hlink'⟩ := hrun.of_established hb hpeerB hlink.symm
      exact .done ha hb' hpeerA hpeer' hlink'.symm

/-! ### Deliveries to the dialer -/

/-- A challenge echoed behind message 1 is a message 1 with a cookie. -/
lemma isMsg1_echo (hchal : Cookie.isChallenge d = true) : IsMsg1 msg1 (msg1 ++ d.drop 1) := by
  refine Or.inr ⟨d.drop 1, ?_, rfl⟩
  simp only [Cookie.isChallenge, Bool.and_eq_true, decide_eq_true_eq] at hchal
  rw [List.length_drop, hchal.1]
  rfl

/-- With it, the dialer has still sent nothing but messages 1. -/
lemma forall_mem_echo {sent : List Bytes} (h : ∀ x ∈ sent, IsMsg1 msg1 x)
    (hchal : Cookie.isChallenge d = true) :
    ∀ x ∈ sent ++ (some (msg1 ++ d.drop 1)).toList, IsMsg1 msg1 x := by
  intro x hx
  rcases List.mem_append.mp hx with hx | hx
  · exact h x hx
  · rw [List.mem_singleton.mp hx]
    exact isMsg1_echo hchal

/-- A delivery to the dialer keeps the phases. -/
lemma Phase.toA (hidA : n.a.identity = idA) (hleB : n.readB ≤ n.aToB.length)
    (h : Phase addrA addrB idA idB seedA n) (hd : Took n.bToA n.readA d read')
    (horigin : d ∈ n.bToA ∨ ¬ AuthenticFor n.a addrB d)
    (hrun : Handles n.a addrB d seed a' out opened) :
    Phase addrA addrB idA idB seedA
      { n with a := a', aToB := n.aToB ++ out, readA := read', opened := n.opened ++ opened } := by
  subst hidA
  cases h with
  | @opening stamp ha hae hb hbe hA hB hfirst hpend =>
      obtain ⟨reply, event, hin, rfl, rfl⟩ := hrun.inbound
      have hkeep : ∀ x, (n.aToB ++ x)[0]? = some (C.x25519Public seedA).bytes := by
        intro x
        rw [List.getElem?_append_left (List.getElem?_eq_some_iff.mp hfirst).1, hfirst]
      have hself := n.a.getElem?_restore addrB ⟨.initiatorAwaitingResponse
        (dialState n.a.identity seedA) (C.x25519Public seedA).bytes, stamp⟩
      rcases hin.of_initiator hae ha with ⟨hchal, rfl, hest, hhs, rfl⟩ |
        ⟨hchal, t, m₃, rs, pid, hadv, -⟩ | ⟨hchal, -, rfl, hest, hhs, reason, rfl⟩
      · rw [← hhs] at hself
        refine .opening hself (by rw [hest, hae]) hb hbe (forall_mem_echo hA hchal) hB (hkeep _)
          (hpend.toA hleB hd ?_)
        rintro rfl
        rfl
      · rcases horigin with hmem | hauth
        · rw [hB d hmem] at hchal
          cases hchal
        · exact absurd (Or.inl ⟨_, _, _, _, ha, hadv⟩) hauth
      · rw [← hhs] at hself
        refine .opening hself (by rw [hest, hae]) hb hbe (by simpa using hA) hB (hkeep _)
          (hpend.toA hleB hd ?_)
        rintro rfl
        rw [Cookie.isChallenge_challenge] at hchal
        cases hchal
  | @answered stamp stamp' rR m₂ m₃ tA tB challenges ha hae hb hbe hscript hA hB hchals hread =>
      obtain ⟨reply, event, hin, rfl, rfl⟩ := hrun.inbound
      have hself := n.a.getElem?_restore addrB ⟨.initiatorAwaitingResponse
        (dialState n.a.identity seedA) (C.x25519Public seedA).bytes, stamp⟩
      have hm : n.bToA[challenges.length]? = some m₂ := by simp [hB]
      rcases hin.of_initiator hae ha with ⟨hchal, rfl, hest, hhs, rfl⟩ |
        ⟨hchal, t, m, rs, pid, hadv, rfl, rfl, rfl⟩ | ⟨hchal, ⟨e, hadv⟩, rfl, hest, hhs, reason, rfl⟩
      · rw [← hhs] at hself
        refine .answered hself (by rw [hest, hae]) hb hbe hscript (forall_mem_echo hA hchal) hB
          hchals ?_
        rcases hd.ahead [] hread hm with rfl | ⟨hle, -⟩
        · rw [hscript.shape] at hchal
          cases hchal
        · exact hle
      · rcases horigin with hmem | hauth
        · rw [hB, List.mem_append, List.mem_singleton] at hmem
          rcases hmem with hmem | rfl
          · rw [hchals d hmem] at hchal
            cases hchal
          · rw [hscript.advance] at hadv
            cases hadv
            exact .finishing Lru.getElem?_insertWithLru_self hb hbe hscript.finalize ⟨rfl, rfl⟩
              (linked_of_mirrored hscript.mirrored _) rfl hA hleB
        · exact absurd (Or.inl ⟨_, _, _, _, ha, hadv⟩) hauth
      · rw [← hhs] at hself
        refine .answered hself (by rw [hest, hae]) hb hbe hscript (by simpa using hA) hB hchals ?_
        rcases hd.ahead [] hread hm with rfl | ⟨hle, -⟩
        · rw [hscript.advance] at hadv
          cases hadv
        · exact hle
  | finishing ha hb hbe hfin hpeer hlink hA hreq hread =>
      obtain ⟨rfl, connA, ha', hpeer', hlink'⟩ := hrun.of_established ha hpeer hlink
      exact .finishing ha' hb hbe hfin hpeer' hlink' (by simpa using hA) hreq hread
  | done ha hb hpeerA hpeerB hlink =>
      obtain ⟨rfl, connA, ha', hpeer', hlink'⟩ := hrun.of_established ha hpeerA hlink
      exact .done ha' hb hpeer' hpeerB hlink'

end

/-! ### Whole runs -/

section

variable {addrA addrB : UdpAddr} {idA idB : HostIdentity C} {seedA : Key} {n n' : Net C}

/-- Receiving keeps the identity of a host. -/
lemma Handles.identity {host host' : Host C} {addr : UdpAddr} {d : Bytes} {seed : Key}
    {out opened : List Bytes} (h : Handles host addr d seed host' out opened) :
    host'.identity = host.identity := by
  obtain ⟨reply, event, hin, -⟩ := h.inbound
  exact hin.constants.1

/-- Every delivery keeps the invariant of the dial. -/
lemma Dialing.step (hC : C.Agrees) (hS : C.SignsVerify) {l : NetLabel}
    (h : Dialing addrA addrB idA idB seedA n) (hstep : Net.Step addrA addrB n l n') :
    Dialing addrA addrB idA idB seedA n' := by
  cases hstep with
  | genuineToB hd hrun =>
      refine ⟨h.identityA, hrun.identity.trans h.identityB, ?_, hd.took.le h.readB_le,
        h.phase.toB hC hS h.identityB h.readA_le hd.took (Or.inl hd.mem) hrun⟩
      exact Nat.le_trans h.readA_le (by simp)
  | junkToB hcookie hauth hrun =>
      refine ⟨h.identityA, hrun.identity.trans h.identityB, ?_, h.readB_le,
        h.phase.toB hC hS h.identityB h.readA_le (Or.inl rfl) (Or.inr ⟨hcookie, hauth⟩) hrun⟩
      exact Nat.le_trans h.readA_le (by simp)
  | genuineToA hd hrun =>
      refine ⟨hrun.identity.trans h.identityA, h.identityB, hd.took.le h.readA_le, ?_,
        h.phase.toA h.identityA h.readB_le hd.took (Or.inl hd.mem) hrun⟩
      exact Nat.le_trans h.readB_le (by simp)
  | junkToA hauth hrun =>
      refine ⟨hrun.identity.trans h.identityA, h.identityB, h.readA_le, ?_,
        h.phase.toA h.identityA h.readB_le (Or.inl rfl) (Or.inr hauth) hrun⟩
      exact Nat.le_trans h.readB_le (by simp)

/-- The network right after a dial. -/
def dialed (a b : Host C) (w : World) : Net C := ⟨a, b, w.sent.map Prod.snd, [], 0, 0, []⟩

/-- A dial opens the cookie exchange. -/
lemma dialing_of_dial {a a' b : Host C} {w : World} (hb : b.handshakes[addrA]? = none)
    (hbe : b.established[addrA]? = none)
    (hdial : (a.dial addrB seedA).run World.quiet = (.ok a', w)) :
    Dialing addrA addrB a.identity b.identity seedA (dialed a' b w) := by
  obtain ⟨-, hae, rfl, rfl⟩ := dial_run_eq_ok hdial
  refine ⟨rfl, rfl, Nat.zero_le _, Nat.zero_le _, ?_⟩
  refine .opening Lru.getElem?_insertWithLru_self hae hb hbe ?_ nofun rfl (Or.inl rfl)
  intro d hd
  exact Or.inl (List.mem_singleton.mp hd)

/-- A dial completes despite junk: the dialer `a` and the host `b` have no entry for each
other, and the network hands each of them what the other emits, in order, repeated at will
and mixed with junk. Once everything was handed over, both are established with each other
under mirrored transports, and each recorded the other's true static key and peer. -/
theorem dial_completes (hC : C.Agrees) (hS : C.SignsVerify) {a a' b : Host C} {w : World}
    {labels : List NetLabel} (hb : b.handshakes[addrA]? = none)
    (hbe : b.established[addrA]? = none)
    (hdial : (a.dial addrB seedA).run World.quiet = (.ok a', w))
    (hrun : Run (Net.Step addrA addrB) (dialed a' b w) labels n)
    (hallB : n.readB = n.aToB.length) (hallA : n.readA = n.bToA.length) :
    ∃ connA connB, n.a.established[addrB]? = some connA ∧ n.b.established[addrA]? = some connB ∧
      TruePeer connA b.identity ∧ TruePeer connB a.identity ∧
      Linked connA.transport connB.transport n.opened := by
  have hinv : Dialing addrA addrB a.identity b.identity seedA n :=
    hrun.invariant (fun _ _ _ h hs => h.step hC hS hs) (dialing_of_dial hb hbe hdial)
  cases hinv.phase with
  | opening _ _ _ _ _ _ hfirst hpend =>
      have hsome := (List.getElem?_eq_some_iff.mp hfirst).1
      rcases hpend with h0 | ⟨i, hi, hx⟩ | ⟨j, hj, hx⟩
      · omega
      · have := (List.getElem?_eq_some_iff.mp hx).1
        omega
      · have := (List.getElem?_eq_some_iff.mp hx).1
        omega
  | answered _ _ _ _ _ _ hB _ hread =>
      rw [hB, List.length_append, List.length_singleton] at hallA
      omega
  | finishing _ _ _ _ _ _ hA _ hread =>
      rw [hA, List.length_append, List.length_singleton] at hallB
      omega
  | @done connA connB ha hb' hpeerA hpeerB hlink =>
      exact ⟨connA, connB, ha, hb', hpeerA, hpeerB, hlink⟩

end

/-! ### A sample dial -/

/-- Hand a datagram to a host: the host after it, what it emitted and the plaintext it opened. -/
def handed (host : Host C) (addr : UdpAddr) (d : Bytes) (seed : Key) :
    Option (Host C × List Bytes × List Bytes) :=
  if d.length ≤ host.socket.recvBufSize then
    (Host.recvOutcome (host, arrival addr d) seed).map fun r =>
      (r.2.1, r.2.2.sent.map Prod.snd, r.1.opened)
  else none

lemma handles_of_handed {host host' : Host C} {addr : UdpAddr} {d : Bytes} {seed : Key}
    {out opened : List Bytes} (h : handed host addr d seed = some (host', out, opened)) :
    Handles host addr d seed host' out opened := by
  rw [handed] at h
  split at h
  · rename_i hfit
    obtain ⟨⟨event, _, w'⟩, hout, heq⟩ := Option.map_eq_some_iff.mp h
    cases heq
    cases Host.step_of_recvOutcome hout with
    | recvOne hrun => exact ⟨hfit, event, w', hrun, rfl, rfl⟩
  · cases h

/-- What the network picks for a host: the next datagram of the other, an earlier one again, or
junk. -/
inductive Pick where
  | next
  | again (i : ℕ)
  | junk (d : Bytes)

/-- The datagram picked of those the other host emitted, and how many of these were read then. -/
def Pick.of (sent : List Bytes) (read : ℕ) : Pick → Option (Bytes × ℕ)
  | .next => sent[read]?.map fun d => (d, read + 1)
  | .again i => if i < read then sent[i]?.map fun d => (d, read) else none
  | .junk d => if d.length < Cookie.MSG1_WITH_COOKIE_LEN then some (d, read) else none

lemma Pick.of_eq_some {p : Pick} {sent : List Bytes} {read read' : ℕ} {d : Bytes}
    (h : p.of sent read = some (d, read')) :
    Genuine sent read d read' ∨ (read' = read ∧ d.length < Cookie.MSG1_WITH_COOKIE_LEN) := by
  cases p with
  | next =>
      obtain ⟨_, hd, heq⟩ := Option.map_eq_some_iff.mp h
      cases heq
      exact Or.inl (.next hd)
  | again i =>
      rw [Pick.of] at h
      split at h
      · rename_i hi
        obtain ⟨_, hd, heq⟩ := Option.map_eq_some_iff.mp h
        cases heq
        exact Or.inl (.again hi hd)
      · cases h
  | junk x =>
      rw [Pick.of] at h
      split at h
      · rename_i hshort
        cases h
        exact Or.inr ⟨rfl, hshort⟩
      · cases h

/-- Whom the network hands its next pick. -/
inductive Handover where
  | toA (p : Pick)
  | toB (p : Pick)

/-- The network after a handover. -/
def Net.hand (addrA addrB : UdpAddr) (seed : Key) (n : Net C) : Handover → Option (Net C)
  | .toA p => (p.of n.bToA n.readA).bind fun (d, read') =>
      (handed n.a addrB d seed).map fun (a', out, opened) =>
        { n with a := a', aToB := n.aToB ++ out, readA := read', opened := n.opened ++ opened }
  | .toB p => (p.of n.aToB n.readB).bind fun (d, read') =>
      (handed n.b addrA d seed).map fun (b', out, opened) =>
        { n with b := b', bToA := n.bToA ++ out, readB := read', opened := n.opened ++ opened }

/-- The network after some handovers. -/
def Net.handAll (addrA addrB : UdpAddr) (seed : Key) (n : Net C) (hs : List Handover) :
    Option (Net C) := hs.foldlM (Net.hand addrA addrB seed) n

lemma Net.hand_step {addrA addrB : UdpAddr} {seed : Key} {n n' : Net C} {h : Handover}
    (hn : n.hand addrA addrB seed h = some n') : ∃ l, Net.Step addrA addrB n l n' := by
  cases h with
  | toA p =>
      obtain ⟨⟨d, read'⟩, hpick, hmap⟩ := Option.bind_eq_some_iff.mp hn
      obtain ⟨⟨a', out, opened⟩, hhand, rfl⟩ := Option.map_eq_some_iff.mp hmap
      rcases Pick.of_eq_some hpick with hgen | ⟨rfl, hshort⟩
      · exact ⟨_, .genuineToA hgen (handles_of_handed hhand)⟩
      · exact ⟨_, .junkToA (not_authenticFor_of_short hshort.le) (handles_of_handed hhand)⟩
  | toB p =>
      obtain ⟨⟨d, read'⟩, hpick, hmap⟩ := Option.bind_eq_some_iff.mp hn
      obtain ⟨⟨b', out, opened⟩, hhand, rfl⟩ := Option.map_eq_some_iff.mp hmap
      rcases Pick.of_eq_some hpick with hgen | ⟨rfl, hshort⟩
      · exact ⟨_, .genuineToB hgen (handles_of_handed hhand)⟩
      · exact ⟨_, .junkToB (fun hvalid => hshort.ne hvalid.1) (not_authenticFor_of_short hshort.le)
          (handles_of_handed hhand)⟩

lemma Net.run_of_handAll {addrA addrB : UdpAddr} {seed : Key} {n n' : Net C} {hs : List Handover}
    (h : n.handAll addrA addrB seed hs = some n') :
    ∃ labels, Run (Net.Step addrA addrB) n labels n' := by
  induction hs generalizing n with
  | nil =>
      cases h
      exact ⟨[], .nil _⟩
  | cons x hs ih =>
      rw [Net.handAll, List.foldlM_cons] at h
      obtain ⟨n₁, hfirst, hrest⟩ := Option.bind_eq_some_iff.mp h
      obtain ⟨l, hstep⟩ := Net.hand_step hfirst
      obtain ⟨labels, hrun⟩ := ih hrest
      exact ⟨l :: labels, hrun.cons hstep⟩

/-- The addresses of the two sample hosts. -/
def sampleDialerAddr : UdpAddr := .v4 ⟨.replicate 4 1, 9⟩

def sampleAnswererAddr : UdpAddr := .v4 ⟨.replicate 4 2, 9⟩

/-- The messages of a dial between the sample hosts, among junk and repetitions: a foreign message 1
is challenged before that of the dialer and the dialer answers both challenges, message 1 comes
again after message 2 was sent, and a challenge after the dialer is done. -/
def sampleHandovers : List Handover :=
  [.toB (.junk (List.replicate 32 7)), .toB .next, .toA (.junk [7, 7, 7]), .toA .next, .toA .next,
    .toB .next, .toB .next, .toB (.again 0), .toA .next, .toA (.again 0), .toB .next,
    .toB (.junk [7])]

/-- The dial of one sample host by the other completes. -/
theorem dial_completes_sample :
    ∃ (a' : Host sampleCrypto) (w : World) (n : Net sampleCrypto)
      (connA connB : EstablishedConnection),
      ((sampleHost 1).dial sampleAnswererAddr (.replicate 32 3)).run World.quiet = (.ok a', w) ∧
      (dialed a' (sampleHost 2) w).handAll sampleDialerAddr sampleAnswererAddr (.replicate 32 4)
        sampleHandovers = some n ∧
      n.a.established[sampleAnswererAddr]? = some connA ∧
      n.b.established[sampleDialerAddr]? = some connB ∧
      TruePeer connA (sampleHost 2).identity ∧ TruePeer connB (sampleHost 1).identity ∧
      connA.transport.Mirrored connB.transport := by
  obtain ⟨a', w, hdial⟩ :
      ∃ a' w, ((sampleHost 1).dial sampleAnswererAddr (.replicate 32 3)).run World.quiet
        = (.ok a', w) := ⟨_, _, rfl⟩
  have hall : (((dialed a' (sampleHost 2) w).handAll sampleDialerAddr sampleAnswererAddr
      (.replicate 32 4) sampleHandovers).map fun n =>
        (decide (n.readB = n.aToB.length), decide (n.readA = n.bToA.length), n.opened))
          = some (true, true, []) := by
    obtain ⟨-, -, rfl, rfl⟩ := dial_run_eq_ok hdial
    decide +kernel
  obtain ⟨n, hn, hread⟩ := Option.map_eq_some_iff.mp hall
  obtain ⟨labels, hrun⟩ := Net.run_of_handAll hn
  simp only [Prod.mk.injEq, decide_eq_true_eq] at hread
  obtain ⟨connA, connB, ha, hb, hpeerA, hpeerB, hlink⟩ := dial_completes sampleCrypto_agrees
    sampleCrypto_signsVerify (by rfl) (by rfl) hdial hrun hread.1 hread.2.1
  exact ⟨a', w, n, connA, connB, hdial, hn, ha, hb, hpeerA, hpeerB, hlink.2.2.2 hread.2.2⟩

end Libp2pCat
