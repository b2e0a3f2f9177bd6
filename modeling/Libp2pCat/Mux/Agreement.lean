import Libp2pCat.Mux.Driver
import Libp2pCat.Kad.Bounds
import Libp2pCat.Lib.Lockstep

/-!
The two lookup drivers agree: the multiplexer looks peers up as the standalone node does, with
one more byte in every plaintext.

* `SameDatagram`: two dials or replies that are the same, or two plaintexts that are the same but
  for the kind byte, encrypted alike; `SameTraffic`: such datagrams were sent since two worlds.
* `Pairs`: two inbound datagrams that mean the same to the two nodes; `Paired`: they do at every
  point where the standalone lookup receives one.
* `lockstep_send`, `lockstep_recvOne`, `lockstep_drive`: the two nodes in lockstep.
* `lookup_drivers_agree`: both lookups end alike, unless the extra byte makes a datagram exceed
  the limit.
-/

namespace Libp2pCat.Mux

open ByteString Effect Trace Std Kad

variable {C : Crypto} {R : Pubsub.Rlnc} {A : Pubsub.PubsubAuth}

/-- Encryption fails only when the send counter is exhausted, whatever the plaintext. -/
lemma encrypt_of_seals (hC : C.Seals) (t : TransportState) (plaintext : Bytes) :
    ∃ c, c.length = plaintext.length + AEAD_TAG_LEN ∧
      t.encrypt C plaintext = okOr (checkedSucc t.sendNonce)
        (.noiseProtocol "send nonce counter exhausted") >>= fun n =>
          .ok ({ t with sendNonce := n }, beBytes 8 t.sendNonce.toNat ++ c) := by
  obtain ⟨c, hc, hlen⟩ := hC t.sendKey (chachaNonce t.sendNonce) [] plaintext
  refine ⟨c, hlen, ?_⟩
  rw [TransportState.encrypt, aeadEncrypt_eq_ok_iff.mpr hc]
  rfl

/-! ### Sending -/

variable (C) in
/-- Two datagrams to one address: the same message 1 of a dial, the same reply to a datagram that
came in, or a plaintext and the plaintext with the kind byte, encrypted alike. -/
inductive SameDatagram : UdpAddr × Bytes → UdpAddr × Bytes → Prop where
  | dial {host : Host C} {addr : UdpAddr} {seed : Key} {prepared : DialPrepared C}
      (h : prepareDial host addr seed = .ok prepared) :
      SameDatagram (addr, prepared.msg1) (addr, prepared.msg1)
  | reply {host host' : Host C} {addr : UdpAddr} {datagram payload : Bytes} {seed : Key}
      {event : HostEvent} (h : Inbound host addr datagram seed (some payload) host' event) :
      SameDatagram (addr, payload) (addr, payload)
  | transport {addr : UdpAddr} {t t' : TransportState} {body datagram datagram' : Bytes}
      (h : t.encrypt C body = .ok (t', datagram))
      (h' : t.encrypt C (prefixKind KIND_KAD body) = .ok (t', datagram')) :
      SameDatagram (addr, datagram) (addr, datagram')

variable (C) in
/-- Since the first two worlds the sockets sent the same datagrams up to the kind byte and received
equally many, and they will take the same sends. -/
structure SameTraffic (w₀ w₀' w w' : World) : Prop where
  sendTo : w'.sendTo = w.sendTo
  sent : ∃ sent sent', w.sent = w₀.sent ++ sent ∧ w'.sent = w₀'.sent ++ sent' ∧
    List.Forall₂ (SameDatagram C) sent sent'
  received : ∃ n, w.received.length = w₀.received.length + n ∧
    w'.received.length = w₀'.received.length + n

lemma SameTraffic.start {w w' : World} (h : w'.sendTo = w.sendTo) : SameTraffic C w w' w w' :=
  ⟨h, ⟨[], [], (List.append_nil _).symm, (List.append_nil _).symm, .nil⟩, 0, rfl, rfl⟩

/-- The error of a datagram that exceeds the limit. -/
def TooLarge (e : Error) : Prop := ∃ attempted maximum, e = .datagramTooLarge attempted maximum

variable (C) in
/-- Related values after sends: the second socket has the same datagrams before it. -/
def AfterSends {α β : Type} (w₀ w₀' : World) (Q : α → β → Prop)
    (inbound : ℕ → Except String (UdpAddr × Bytes)) (p : α × World) (p' : β × World) : Prop :=
  Q p.1 p'.1 ∧ SameTraffic C w₀ w₀' p.2 p'.2 ∧ p'.2.recvFrom = inbound

variable {w₀ w₀' w w' : World}

lemma lockstep_socketSend (hw : SameTraffic C w₀ w₀' w w') (socket : UdpTransport) {dst : UdpAddr}
    {payload payload' : Bytes} (hsame : SameDatagram C (dst, payload) (dst, payload'))
    (hlen : payload.length ≤ payload'.length) :
    Lockstep (SameTraffic C w₀ w₀') TooLarge (AfterSends C w₀ w₀' Eq w'.recvFrom)
      ((socket.send dst payload).run w) ((socket.send dst payload').run w') := by
  simp only [Io.run, UdpTransport.send, hw.sendTo]
  by_cases hlarge : socket.maxSendPayload < payload'.length
  · rw [if_pos hlarge]
    exact .stopped ⟨_, _, rfl⟩
  · rw [if_neg hlarge, if_neg fun h => hlarge (h.trans_le hlen)]
    cases hnext : w.sendTo 0 with
    | error e => exact .error ⟨rfl, hw.sent, hw.received⟩
    | ok u =>
        refine .ok ⟨rfl, ⟨?_, ?_, hw.received⟩, rfl⟩
        · simp [World.afterSend, hw.sendTo]
        · obtain ⟨sent, sent', hsent, hsent', hall⟩ := hw.sent
          refine ⟨sent ++ [_], sent' ++ [_], ?_, ?_, List.rel_append hall (.cons hsame .nil)⟩
          · simp [World.afterSend, hsent]
          · simp [World.afterSend, hsent']

lemma lockstep_dial (hw : SameTraffic C w₀ w₀' w w') (host : Host C) (addr : UdpAddr) (seed : Key) :
    Lockstep (SameTraffic C w₀ w₀') TooLarge (AfterSends C w₀ w₀' Eq w'.recvFrom)
      ((host.dial addr seed).run w) ((host.dial addr seed).run w') := by
  have hprepare : Lockstep (SameTraffic C w₀ w₀') TooLarge
      (AfterSends C w₀ w₀' (fun prepared prepared' => prepared' = prepared ∧
        prepareDial host addr seed = .ok prepared) w'.recvFrom)
      ((Io.suspend (prepareDial host addr seed)).run w)
      ((Io.suspend (prepareDial host addr seed)).run w') :=
    .suspend hw fun _ hprep => ⟨⟨rfl, hprep⟩, hw, rfl⟩
  refine hprepare.flatMap ?_
  rintro prepared w₁ prepared' w₁' ⟨⟨rfl, hprep⟩, hw₁, hin⟩
  rw [← hin]
  refine (lockstep_socketSend hw₁ _ (.dial hprep) le_rfl).map ?_
  rintro socket w₂ socket' w₂' ⟨hsocket, hrest⟩
  cases hsocket
  exact ⟨rfl, hrest⟩

/-- A plaintext and the plaintext with the kind byte, sent to one peer. -/
lemma lockstep_send (hC : C.Seals) (hw : SameTraffic C w₀ w₀' w w') (host : Host C) (addr : UdpAddr)
    (body : Bytes) :
    Lockstep (SameTraffic C w₀ w₀') TooLarge (AfterSends C w₀ w₀' Eq w'.recvFrom)
      ((host.send addr body).run w) ((host.send addr (prefixKind KIND_KAD body)).run w') := by
  rw [Host.send, Host.send, prepareSend, prepareSend]
  cases hconn : host.established[addr]? with
  | none => exact .error hw
  | some conn =>
      obtain ⟨c, hc, henc⟩ := encrypt_of_seals hC conn.transport body
      obtain ⟨c', hc', henc'⟩ := encrypt_of_seals hC conn.transport (prefixKind KIND_KAD body)
      simp only [okOr_some, Except.ok_bind, henc, henc']
      cases hnonce : checkedSucc conn.transport.sendNonce with
      | none => exact .error hw
      | some n =>
          rw [hnonce] at henc henc'
          have hsame : SameDatagram C
              (addr, beBytes 8 conn.transport.sendNonce.toNat ++ c)
              (addr, beBytes 8 conn.transport.sendNonce.toNat ++ c') :=
            .transport henc henc'
          refine (lockstep_socketSend hw _ hsame ?_).map ?_
          · rw [List.length_append, List.length_append, hc, hc', prefixKind, List.length_cons]
            omega
          · rintro socket w₂ socket' w₂' ⟨hsocket, hrest⟩
            cases hsocket
            exact ⟨rfl, hrest⟩

/-- The multiplexer with the host and the table of a standalone node. -/
def beside (pubsubState : Pubsub.PubsubState R A) (node : KademliaNode C) :
    MultiProtocolNode C R A :=
  ⟨node.host, pubsubState, node.table⟩

/-- A frame encoded and sent, by the standalone node and by the multiplexer. -/
lemma lockstep_sendFrame (hC : C.Seals) (hw : SameTraffic C w₀ w₀' w w') (frame : Kad.Frame)
    {α β : Type} {Q : α → β → Prop} (host : Host C) (addr : UdpAddr) {f : Host C → α}
    {g : Host C → β} (hQ : ∀ host, Q (f host) (g host)) :
    Lockstep (SameTraffic C w₀ w₀') TooLarge (AfterSends C w₀ w₀' Q w'.recvFrom)
      (((Io.suspend (Kad.encode frame)).flatMap fun bytes => (host.send addr bytes).map f).run w)
      (((Io.suspend (Kad.encode frame)).flatMap fun bytes =>
        (host.send addr (prefixKind KIND_KAD bytes)).map g).run w') := by
  have hencode : Lockstep (SameTraffic C w₀ w₀') TooLarge (AfterSends C w₀ w₀' Eq w'.recvFrom)
      ((Io.suspend (Kad.encode frame)).run w) ((Io.suspend (Kad.encode frame)).run w') :=
    .suspend hw fun _ _ => ⟨rfl, hw, rfl⟩
  refine hencode.flatMap fun bytes w₁ bytes' w₁' ⟨hbytes, hw₁, hin⟩ => ?_
  cases hbytes
  rw [← hin]
  refine (lockstep_send hC hw₁ host addr bytes).map ?_
  rintro host' w₂ host'' w₂' ⟨hhost, hrest⟩
  cases hhost
  exact ⟨hQ host', hrest⟩

/-- One action of a round. -/
lemma lockstep_act (hC : C.Seals) (hw : SameTraffic C w₀ w₀' w w')
    (pubsubState : Pubsub.PubsubState R A) (action : RoundAction) (target : NodeId)
    (node : KademliaNode C) :
    Lockstep (SameTraffic C w₀ w₀') TooLarge
      (AfterSends C w₀ w₀' (fun n m => m = beside pubsubState n) w'.recvFrom)
      ((kadParty.act action target node).run w)
      ((muxParty.act action target (beside pubsubState node)).run w') := by
  cases action with
  | query addr => exact lockstep_sendFrame hC hw (.findNodeReq target) node.host addr fun _ => rfl
  | dial addr seed =>
      refine (lockstep_dial hw node.host addr seed).map ?_
      rintro host w₁ host' w₁' ⟨hhost, hrest⟩
      cases hhost
      exact ⟨rfl, hrest⟩

/-! ### Receiving -/

/-- The next datagrams of the two sockets mean the same to nodes with this host: both sockets fail
alike, the datagrams are the same and do not decrypt, or they carry one counter and decrypt to a
plaintext and to the plaintext with the kind byte. -/
inductive Pairs (host : Host C) :
    Except String (UdpAddr × Bytes) → Except String (UdpAddr × Bytes) → Prop where
  | fails (e : String) : Pairs host (.error e) (.error e)
  | same {addr : UdpAddr} {datagram : Bytes}
      (hopens : host.opens addr (datagram.take host.socket.recvBufSize) = none) :
      Pairs host (.ok (addr, datagram)) (.ok (addr, datagram))
  | kad {addr : UdpAddr} {datagram datagram' body : Bytes}
      (hopens : host.opens addr (datagram.take host.socket.recvBufSize) = some body)
      (hopens' : host.opens addr (datagram'.take host.socket.recvBufSize)
        = some (prefixKind KIND_KAD body))
      (hnonce : datagram'.take TRANSPORT_NONCE_PREFIX_LEN
        = datagram.take TRANSPORT_NONCE_PREFIX_LEN) :
      Pairs host (.ok (addr, datagram)) (.ok (addr, datagram'))

/-- An accepted datagram starts with its counter. -/
lemma take_of_decrypt {t : TransportState} {datagram plaintext : Bytes}
    (h : (t.decrypt C datagram).2 = .ok plaintext) :
    ∃ nonce : UInt64, datagram.take TRANSPORT_NONCE_PREFIX_LEN = beBytes 8 nonce.toNat ∧
      (t.decrypt C datagram).1 = { t with
        recvMaxNonce := (advanceWindow t.recvReplayWindow t.recvMaxNonce nonce).2
        recvReplayWindow := (advanceWindow t.recvReplayWindow t.recvMaxNonce nonce).1 } := by
  obtain ⟨nonce, hchecked⟩ := TransportState.checked_of_decrypt h
  obtain ⟨c, rfl, -, -, -⟩ := decryptChecked_eq_ok_iff.mp hchecked
  refine ⟨nonce, ?_, ?_⟩
  · rw [List.take_left' (length_beBytes 8 _)]
  · rw [TransportState.decrypt_of_checked hchecked]

/-- The window after an accepted datagram depends on its counter only. -/
lemma decrypt_fst_eq {t : TransportState} {datagram datagram' plaintext plaintext' : Bytes}
    (h : (t.decrypt C datagram).2 = .ok plaintext)
    (h' : (t.decrypt C datagram').2 = .ok plaintext')
    (hnonce : datagram'.take TRANSPORT_NONCE_PREFIX_LEN
      = datagram.take TRANSPORT_NONCE_PREFIX_LEN) :
    (t.decrypt C datagram').1 = (t.decrypt C datagram).1 := by
  obtain ⟨nonce, hn, hstate⟩ := take_of_decrypt h
  obtain ⟨nonce', hn', hstate'⟩ := take_of_decrypt h'
  have heq : nonce' = nonce := by
    rw [hn, hn'] at hnonce
    have hbe := congrArg ofBe hnonce
    rw [ofBe_beBytes_toNat, ofBe_beBytes_toNat] at hbe
    exact UInt64.toNat_inj.mp hbe
  rw [hstate, hstate', heq]

/-- A datagram that decrypts is handed over. -/
lemma dispatchInbound_of_opens {host : Host C} {addr : UdpAddr} {datagram plaintext : Bytes}
    (seed : Key) (h : host.opens addr datagram = some plaintext) :
    ∃ conn, host.established[addr]? = some conn ∧
      (conn.transport.decrypt C datagram).2 = .ok plaintext ∧
      dispatchInbound host addr datagram seed = Io.pure
        ({ host with
            established := host.established.insert addr
              { conn with
                transport := (conn.transport.decrypt C datagram).1
                lastActivity := host.tick + 1 }
            tick := host.tick + 1 }, .datagramDelivered addr plaintext) := by
  obtain ⟨conn, hconn, hopen⟩ := Option.bind_eq_some_iff.mp h
  have hdec : (conn.transport.decrypt C datagram).2 = .ok plaintext := by
    cases hd : (conn.transport.decrypt C datagram).2 with
    | error e => rw [hd] at hopen; cases hopen
    | ok p => rw [hd] at hopen; cases hopen; rfl
  refine ⟨conn, hconn, hdec, ?_⟩
  rw [dispatchInbound, if_pos (by rw [ExtTreeMap.contains_eq_isSome_getElem?, hconn]; rfl),
    decryptEstablished, hconn]
  rcases hd : conn.transport.decrypt C datagram with ⟨transport, e | p⟩
  · rw [hd] at hdec
    cases hdec
  · rw [hd] at hdec
    cases hdec
    simp only [okOr_some, Lru.insert_erase]
    funext w
    simp [Io.map, Io.flatMap, Io.suspend, Io.pure, hd]

/-- What the hosts tell their nodes: the same, or a plaintext and the plaintext with the kind
byte. -/
inductive SameEvent : HostEvent → HostEvent → Prop where
  | same {event : HostEvent} (h : ∀ addr plaintext, event ≠ .datagramDelivered addr plaintext) :
      SameEvent event event
  | kad {addr : UdpAddr} {body : Bytes} :
      SameEvent (.datagramDelivered addr body) (.datagramDelivered addr (prefixKind KIND_KAD body))

lemma SameTraffic.afterRecv (hw : SameTraffic C w₀ w₀' w w') (addr : UdpAddr)
    (payload payload' : Bytes) :
    SameTraffic C w₀ w₀' (w.afterRecv addr payload) (w'.afterRecv addr payload') := by
  obtain ⟨n, hn, hn'⟩ := hw.received
  refine ⟨hw.sendTo, hw.sent, n + 1, ?_, ?_⟩
  · simp [World.afterRecv, hn, Nat.add_assoc]
  · simp [World.afterRecv, hn', Nat.add_assoc]

/-- One receive of two equal hosts. -/
lemma lockstep_hostRecvOne (hw : SameTraffic C w₀ w₀' w w') {host : Host C} (seed : Key)
    (hpairs : Pairs host (w.recvFrom 0) (w'.recvFrom 0)) :
    Lockstep (SameTraffic C w₀ w₀') TooLarge
      (AfterSends C w₀ w₀' (fun r r' => r'.1 = r.1 ∧ SameEvent r.2 r'.2)
        fun k => w'.recvFrom (k + 1))
      ((host.recvOne seed).run w) ((host.recvOne seed).run w') := by
  generalize hnext : w.recvFrom 0 = r at hpairs
  generalize hnext' : w'.recvFrom 0 = r' at hpairs
  cases hpairs with
  | fails e =>
      have hfail : ∀ {v : World}, v.recvFrom 0 = .error e → (host.recvOne seed).run v
          = (.error (.io e), { v with recvFrom := fun k => v.recvFrom (k + 1) }) := by
        intro v hv
        refine Io.run_flatMap_of_error ?_
        rw [Io.run, UdpTransport.recv, hv]
      rw [hfail hnext, hfail hnext']
      exact .error ⟨hw.sendTo, hw.sent, hw.received⟩
  | @same addr datagram hopens =>
      rw [recvOne_run_of_recvFrom host seed hnext, recvOne_run_of_recvFrom host seed hnext']
      have hw₁ := hw.afterRecv addr (datagram.take host.socket.recvBufSize)
        (datagram.take host.socket.recvBufSize)
      obtain ⟨reply, host', event, hin, heq⟩ := dispatchInbound_spec host addr
        (datagram.take host.socket.recvBufSize) seed
      have hevent : SameEvent event event := by
        rcases hin.of_opens with ⟨plaintext, hplain, -⟩ | ⟨-, hnot⟩
        · rw [hopens] at hplain
          cases hplain
        · exact .same hnot
      rw [heq]
      cases reply with
      | none => exact .ok ⟨⟨rfl, hevent⟩, hw₁, rfl⟩
      | some payload =>
          refine (lockstep_socketSend hw₁ _ (.reply hin) le_rfl).map ?_
          rintro socket w₂ socket' w₂' ⟨-, hrest⟩
          exact ⟨⟨rfl, hevent⟩, hrest⟩
  | @kad addr datagram datagram' body hopens hopens' hnonce =>
      rw [recvOne_run_of_recvFrom host seed hnext, recvOne_run_of_recvFrom host seed hnext']
      obtain ⟨conn, hconn, hdec, heq⟩ := dispatchInbound_of_opens seed hopens
      obtain ⟨conn', hconn', hdec', heq'⟩ := dispatchInbound_of_opens seed hopens'
      rw [hconn] at hconn'
      cases hconn'
      -- what decrypts is longer than its counter, so nothing of that is cut off
      have hcut : ∀ {d p : Bytes},
          (conn.transport.decrypt C (d.take host.socket.recvBufSize)).2 = .ok p →
          (d.take host.socket.recvBufSize).take TRANSPORT_NONCE_PREFIX_LEN
            = d.take TRANSPORT_NONCE_PREFIX_LEN := by
        intro d p hd
        obtain ⟨nonce, htake, -⟩ := take_of_decrypt hd
        have hlen := congrArg List.length htake
        rw [length_beBytes, List.take_take, List.length_take] at hlen
        rw [List.take_take, Nat.min_eq_left]
        simp only [TRANSPORT_NONCE_PREFIX_LEN] at hlen ⊢
        omega
      have hstate := decrypt_fst_eq hdec hdec' (by rw [hcut hdec, hcut hdec', hnonce])
      rw [heq, heq', hstate]
      exact .ok ⟨⟨rfl, .kad⟩, hw.afterRecv _ _ _, rfl⟩

/-- The reactions to one Kademlia body: the answers differ by the kind byte, and the events are
those the multiplexer lifts as they are. -/
lemma lockstep_handleDatagram (hC : C.Seals) (hw : SameTraffic C w₀ w₀' w w') (host : Host C)
    (table : RoutingTable) (addr : UdpAddr) (body : Bytes) :
    Lockstep (SameTraffic C w₀ w₀') TooLarge
      (AfterSends C w₀ w₀' (fun r r' => r' = r ∧ (liftKadEvent r.2).kadView = r.2) w'.recvFrom)
      ((Kad.handleDatagram host table addr body id).run w)
      ((Kad.handleDatagram host table addr body (kindWrap KIND_KAD)).run w') := by
  rw [Kad.handleDatagram, Kad.handleDatagram]
  cases Kad.decode body with
  | error e => exact .pure ⟨⟨rfl, rfl⟩, hw, rfl⟩
  | ok frame =>
      cases frame with
      | pingReq => exact lockstep_sendFrame hC hw .pingResp host addr fun _ => ⟨rfl, rfl⟩
      | findNodeReq target =>
          exact lockstep_sendFrame hC hw (.findNodeResp _) host addr fun _ => ⟨rfl, rfl⟩
      | _ => exact .pure ⟨⟨rfl, rfl⟩, hw, rfl⟩

lemma lockstep_dispatchKad (hC : C.Seals) (hw : SameTraffic C w₀ w₀' w w') (host : Host C)
    (pubsubState : Pubsub.PubsubState R A) (table : RoutingTable) (addr : UdpAddr) (body : Bytes) :
    Lockstep (SameTraffic C w₀ w₀') TooLarge
      (AfterSends C w₀ w₀' (fun r r' => r'.1 = beside pubsubState r.1 ∧ r'.2.kadView = r.2)
        w'.recvFrom)
      ((Kad.handleDatagram host table addr body id).run w)
      ((dispatchKad host pubsubState table addr body).run w') := by
  refine (lockstep_handleDatagram hC hw host table addr body).map_right ?_
  rintro r w₁ r' w₁' ⟨⟨rfl, hview⟩, hrest⟩
  exact ⟨⟨rfl, hview⟩, hrest⟩

/-- A plaintext with the Kademlia kind byte goes to the Kademlia node. -/
lemma dispatchPlaintext_kad (host : Host C) (pubsubState : Pubsub.PubsubState R A)
    (kadTable : RoutingTable) (addr : UdpAddr) (body : Bytes)
    (relayRng : ℕ → Except String Bytes) :
    dispatchPlaintext host pubsubState kadTable addr (prefixKind KIND_KAD body) relayRng
      = dispatchKad host pubsubState kadTable addr body := by
  have hbody : sliceFrom (KIND_KAD :: body) 1 = some body :=
    sliceFrom_eq_some_iff.mpr ⟨Nat.succ_le_succ (Nat.zero_le _), rfl⟩
  have hkind : ¬ (some KIND_KAD = some KIND_APP ∨ some KIND_KAD = some KIND_PUBSUB) := by decide
  rw [dispatchPlaintext, prefixKind, hbody, List.head?_cons]
  simp only [if_neg hkind, if_true, Option.getD_some]

/-- One receive of the two nodes. -/
lemma lockstep_recvOne (hC : C.Seals) (hw : SameTraffic C w₀ w₀' w w')
    (pubsubState : Pubsub.PubsubState R A) {node : KademliaNode C} (seed : Key)
    (hpairs : Pairs node.host (w.recvFrom 0) (w'.recvFrom 0)) :
    Lockstep (SameTraffic C w₀ w₀') TooLarge
      (AfterSends C w₀ w₀' (fun r r' => r' = (beside pubsubState r.1, r.2))
        fun k => w'.recvFrom (k + 1))
      ((kadParty.recvOne node seed).run w)
      ((muxParty.recvOne (beside pubsubState node) seed).run w') := by
  have hmux : muxParty.recvOne (beside pubsubState node) seed
      = (node.host.recvOne seed).flatMap fun r =>
        (handleHostEvent r.1 pubsubState node.table Pubsub.unusedRelayRng r.2).map
          fun r => (r.1, r.2.kadView) := by
    simp only [muxParty, MultiProtocolNode.recvOne, beside, Io.map, Io.flatMap_assoc]
  rw [hmux]
  refine (lockstep_hostRecvOne hw seed hpairs).flatMap ?_
  rintro ⟨host, event⟩ w₁ ⟨host', event'⟩ w₁' ⟨⟨hhost, hevent⟩, hw₁, hin⟩
  cases hhost
  rw [← hin]
  cases hevent with
  | same hnot =>
      cases event with
      | datagramDelivered addr plaintext => exact absurd rfl (hnot addr plaintext)
      | _ => exact .pure ⟨rfl, hw₁, rfl⟩
  | @kad addr body =>
      rw [handleHostEvent, dispatchPlaintext_kad]
      refine (lockstep_dispatchKad hC hw₁ host pubsubState node.table addr body).map_right ?_
      rintro r w₂ r' w₂' ⟨⟨hnode, hview⟩, hrest⟩
      exact ⟨Prod.ext hnode hview, hrest⟩

/-! ### The drivers -/

/-- The driver is about to receive. -/
def Awaits : Kad.Phase → Prop
  | .draining lookup (_ + 1) _ => lookup.hasPending = true
  | _ => False

/-- Whenever the standalone driver receives, its next datagram and that of the other socket mean
the same. -/
def Paired (s₀ : Driven (KademliaNode C)) (inbound : ℕ → Except String (UdpAddr × Bytes)) : Prop :=
  ∀ labels s, Run kadParty.Move s₀ labels s → Awaits s.phase →
    Pairs s.node.host (s.world.recvFrom 0) (inbound (labels.countP Label.isReceive))

section Simulation

variable {s₀ : Driven (KademliaNode C)} {s₀' : Driven (MultiProtocolNode C R A)}
  {pubsubState : Pubsub.PubsubState R A} {seeds seeds' : ℕ → Key} {lookup : Lookup}
  {roundsLeft budget : ℕ} {node node' : KademliaNode C} {w₁ w₁' : World}

variable (s₀ s₀') in
/-- The same moves lead to these worlds, which saw the same traffic. -/
def EndAlike (v v' : World) : Prop :=
  SameTraffic C s₀.world s₀'.world v v' ∧ ∃ labels s s', Run kadParty.Move s₀ labels s ∧
    Run muxParty.Move s₀' labels s' ∧ s.world = v ∧ s'.world = v'

variable (s₀ s₀' pubsubState) in
/-- The same moves lead to this point of both drivers, and the traffic was the same. -/
def Aligned (phase : Kad.Phase) (seeds : ℕ → Key) (p : KademliaNode C × World)
    (p' : MultiProtocolNode C R A × World) : Prop :=
  p'.1 = beside pubsubState p.1 ∧ SameTraffic C s₀.world s₀'.world p.2 p'.2 ∧
    ∃ labels, Run kadParty.Move s₀ labels ⟨p.1, seeds, phase, p.2⟩ ∧
      Run muxParty.Move s₀' labels ⟨p'.1, seeds, phase, p'.2⟩ ∧
      p'.2.recvFrom = fun k => s₀'.world.recvFrom (k + labels.countP Label.isReceive)

lemma Aligned.endAlike {phase : Kad.Phase} {p : KademliaNode C × World}
    {p' : MultiProtocolNode C R A × World} (h : Aligned s₀ s₀' pubsubState phase seeds p p') :
    EndAlike s₀ s₀' p.2 p'.2 := by
  obtain ⟨-, htraffic, labels, hrun, hrun', -⟩ := h
  exact ⟨htraffic, labels, _, _, hrun, hrun', rfl, rfl⟩

/-- The same move of both drivers leads on. -/
lemma Aligned.move {phase phase' : Kad.Phase} {label : Label}
    (h : Aligned s₀ s₀' pubsubState phase seeds (node, w) (beside pubsubState node, w'))
    (hmove : kadParty.Move ⟨node, seeds, phase, w⟩ label ⟨node', seeds', phase', w₁⟩)
    (hmove' : muxParty.Move ⟨beside pubsubState node, seeds, phase, w'⟩ label
      ⟨beside pubsubState node', seeds', phase', w₁'⟩)
    (htraffic : SameTraffic C s₀.world s₀'.world w₁ w₁')
    (hinbound : w₁'.recvFrom = fun k => w'.recvFrom (k + [label].countP Label.isReceive)) :
    Aligned s₀ s₀' pubsubState phase' seeds' (node', w₁) (beside pubsubState node', w₁') := by
  obtain ⟨-, -, labels, hrun, hrun', hin⟩ := h
  refine ⟨rfl, htraffic, labels ++ [label], hrun.snoc hmove, hrun'.snoc hmove', ?_⟩
  rw [hinbound]
  funext k
  rw [hin, List.countP_append]
  exact congrArg s₀'.world.recvFrom (by omega)

/-- Equal moves that fail end alike. -/
lemma Aligned.fails {phase : Kad.Phase} {label : Label} {s : Driven (KademliaNode C)}
    {s' : Driven (MultiProtocolNode C R A)} {p' : MultiProtocolNode C R A × World}
    (h : Aligned s₀ s₀' pubsubState phase seeds (node, w) p')
    (hmove : kadParty.Move ⟨node, seeds, phase, w⟩ label s)
    (hmove' : muxParty.Move ⟨p'.1, seeds, phase, p'.2⟩ label s')
    (htraffic : SameTraffic C s₀.world s₀'.world s.world s'.world) :
    EndAlike s₀ s₀' s.world s'.world := by
  obtain ⟨-, -, labels, hrun, hrun', -⟩ := h
  exact ⟨htraffic, _, _, _, hrun.snoc hmove, hrun'.snoc hmove', rfl, rfl⟩

/-- The actions of a round. -/
lemma lockstep_chain (hC : C.Seals) {actions : List (NodeId × RoundAction)}
    (h : Aligned s₀ s₀' pubsubState (.sending actions lookup roundsLeft) seeds (node, w)
      (beside pubsubState node, w')) :
    Lockstep (EndAlike s₀ s₀') TooLarge
      (Aligned s₀ s₀' pubsubState (.sending [] lookup roundsLeft) seeds)
      ((Io.chain (fun p => kadParty.act p.2 lookup.target) actions node).run w)
      ((Io.chain (fun p => muxParty.act p.2 lookup.target) actions
        (beside pubsubState node)).run w') := by
  refine Lockstep.chain
    (I := fun actions => Aligned s₀ s₀' pubsubState (.sending actions lookup roundsLeft) seeds)
    ?_ h
  rintro ⟨id, action⟩ rest node w m w' halign
  obtain rfl : m = beside pubsubState node := halign.1
  refine (lockstep_act hC halign.2.1 pubsubState action lookup.target node).imp ?_ ?_
  · rintro node₁ w₁ m₁ w₁' hact hact' ⟨hnode, htraffic, hin⟩
    obtain rfl : m₁ = beside pubsubState node₁ := hnode
    exact halign.move (.act hact) (.act hact') htraffic hin
  · intro e w₁ w₁' hact hact' htraffic
    exact halign.fails (.actFails hact) (.actFails hact') htraffic

/-- The rest of a round: both drivers stop receiving at the same point. -/
lemma lockstep_drain (hC : C.Seals) (hpaired : Paired s₀ s₀'.world.recvFrom)
    (h : Aligned s₀ s₀' pubsubState (.draining lookup budget roundsLeft) seeds (node, w)
      (beside pubsubState node, w')) :
    Lockstep (EndAlike s₀ s₀') TooLarge
      (fun p p' => p'.1.2 = p.1.2 ∧ Aligned s₀ s₀' pubsubState
        (.head p.1.2.1.skipPendingQueries.skipPendingDials roundsLeft) p.1.2.2 (p.1.1, p.2)
        (p'.1.1, p'.2))
      ((kadParty.drain node lookup seeds budget).run w)
      ((muxParty.drain (beside pubsubState node) lookup seeds budget).run w') := by
  induction budget generalizing node lookup seeds w w' with
  | zero =>
      exact .pure ⟨rfl, h.move (.close (Or.inl rfl)) (.close (Or.inl rfl)) h.2.1 rfl⟩
  | succ budget ih =>
      rw [Party.drain, Party.drain]
      by_cases hpending : lookup.hasPending = true
      · rw [if_pos hpending, if_pos hpending]
        -- both receive: the datagrams are paired at this point of the standalone run
        have hpairs : Pairs node.host (w.recvFrom 0) (w'.recvFrom 0) := by
          obtain ⟨-, -, labels, hrun, -, hin⟩ := h
          have hat := hpaired labels _ hrun hpending
          rwa [show w'.recvFrom 0 = _ from congrFun hin 0, Nat.zero_add]
        have hrecv : Lockstep (EndAlike s₀ s₀') TooLarge
            (fun p p' => p'.1.2 = p.1.2 ∧ Aligned s₀ s₀' pubsubState
              (.draining (lookup.onEvent p.1.2) budget roundsLeft) (fun i => seeds (i + 1))
              (p.1.1, p.2) (p'.1.1, p'.2))
            ((kadParty.recvOne node (seeds 0)).run w)
            ((muxParty.recvOne (beside pubsubState node) (seeds 0)).run w') := by
          refine (lockstep_recvOne hC h.2.1 pubsubState (seeds 0) hpairs).imp ?_ ?_
          · rintro ⟨node₁, event⟩ w₁ r' w₁' hrun hrun' ⟨hr, htraffic, hin⟩
            obtain rfl : r' = (beside pubsubState node₁, event) := hr
            exact ⟨rfl, h.move (.recv hpending hrun) (.recv hpending hrun') htraffic hin⟩
          · intro e w₁ w₁' hrun hrun' htraffic
            exact h.fails (.recvFails hpending hrun) (.recvFails hpending hrun') htraffic
        refine hrecv.flatMap ?_
        rintro ⟨node₁, event⟩ w₁ ⟨m, event'⟩ w₁' ⟨hevent, halign⟩
        obtain rfl : event' = event := hevent
        obtain rfl : m = beside pubsubState node₁ := halign.1
        exact ih halign
      · have hstop : lookup.hasPending = false := by simpa using hpending
        rw [if_neg hpending, if_neg hpending]
        exact .pure ⟨rfl, h.move (.close (Or.inr hstop)) (.close (Or.inr hstop)) h.2.1 rfl⟩

/-- The rounds that are left. -/
lemma lockstep_drive (hC : C.Seals) (hpaired : Paired s₀ s₀'.world.recvFrom)
    (h : Aligned s₀ s₀' pubsubState (.head lookup roundsLeft) seeds (node, w)
      (beside pubsubState node, w')) :
    Lockstep (EndAlike s₀ s₀') TooLarge
      (fun p p' => p'.1 = (beside pubsubState p.1.1, p.1.2) ∧ EndAlike s₀ s₀' p.2 p'.2)
      ((kadParty.drive node lookup seeds roundsLeft).run w)
      ((muxParty.drive (beside pubsubState node) lookup seeds roundsLeft).run w') := by
  induction roundsLeft generalizing node lookup seeds w w' with
  | zero => exact .pure ⟨rfl, h.endAlike⟩
  | succ roundsLeft ih =>
      rw [Party.drive, Party.drive]
      by_cases hstop : lookup.isDone = true ∨ lookup.pickNextAlpha = []
      · rw [if_pos hstop, if_pos hstop]
        exact .pure ⟨rfl, h.endAlike⟩
      · rw [if_neg hstop, if_neg hstop]
        obtain ⟨hdone, hpick⟩ := not_or.mp hstop
        have hnot : lookup.isDone = false := by simpa using hdone
        have hpicked := h.move (.pick hnot hpick) (.pick hnot hpick) h.2.1 rfl
        refine (lockstep_chain hC hpicked).flatMap ?_
        rintro node₁ w₁ m w₁' halign
        obtain rfl : m = beside pubsubState node₁ := halign.1
        have hlisten := halign.move .listen .listen halign.2.1 rfl
        refine (lockstep_drain hC hpaired hlisten).flatMap ?_
        rintro ⟨node₂, rest⟩ w₂ ⟨m, rest'⟩ w₂' ⟨hrest, halign₂⟩
        obtain rfl : rest' = rest := hrest
        obtain rfl : m = beside pubsubState node₂ := halign₂.1
        exact ih halign₂

/-- The two lookups. -/
lemma lockstep_lookup (hC : C.Seals) (pubsubState : Pubsub.PubsubState R A) {target : NodeId}
    {config : LookupConfig} (hsends : w'.sendTo = w.sendTo)
    (hpaired : Paired (kadParty.start node target config seeds w) w'.recvFrom) :
    Lockstep
      (EndAlike (kadParty.start node target config seeds w)
        (muxParty.start (beside pubsubState node) target config seeds w')) TooLarge
      (fun p p' => p'.1 = (beside pubsubState p.1.1, p.1.2) ∧
        EndAlike (kadParty.start node target config seeds w)
          (muxParty.start (beside pubsubState node) target config seeds w') p.2 p'.2)
      ((node.lookupNode target config seeds).run w)
      (((beside pubsubState node).lookupNode target config seeds).run w') := by
  rw [KademliaNode.lookupNode_eq_lookup, MultiProtocolNode.lookupNode_eq_lookup]
  have hstart : Aligned (kadParty.start node target config seeds w)
      (muxParty.start (beside pubsubState node) target config seeds w') pubsubState
      (kadParty.start node target config seeds w).phase seeds (node, w)
      (beside pubsubState node, w') :=
    ⟨rfl, .start hsends, [], .nil _, .nil _, rfl⟩
  refine (lockstep_drive hC hpaired hstart).map ?_
  rintro ⟨node', lookup⟩ v ⟨m, lookup'⟩ v' ⟨hend, halike⟩
  cases hend
  exact ⟨rfl, halike⟩

end Simulation

/-- The standalone node and the multiplexer look peers up alike.  From the same host and table,
over sockets that take the same sends and whose datagrams are paired, and unless a datagram of the
multiplexer exceeds the limit, the two lookups make the same moves, send the same datagrams up to
the kind byte, receive equally many and end with the same host, table and peers, or with the same
error; the pubsub state is as it was. -/
theorem lookup_drivers_agree (hC : C.Seals) {host : Host C} {table : RoutingTable}
    {pubsubState : Pubsub.PubsubState R A} {target : NodeId} {config : LookupConfig}
    {seeds : ℕ → Key} {w w' : World} (hsends : w'.sendTo = w.sendTo)
    (hpaired : Paired (kadParty.start ⟨host, table⟩ target config seeds w) w'.recvFrom)
    (hfits : ∀ attempted maximum v',
      (MultiProtocolNode.lookupNode ⟨host, pubsubState, table⟩ target config seeds).run w'
        ≠ (.error (.datagramTooLarge attempted maximum), v')) :
    ∃ labels s s',
      Run kadParty.Move (kadParty.start ⟨host, table⟩ target config seeds w) labels s ∧
      Run muxParty.Move (muxParty.start ⟨host, pubsubState, table⟩ target config seeds w') labels
        s' ∧
      SameTraffic C w w' s.world s'.world ∧
      ((∃ host' table' peers,
        (KademliaNode.lookupNode ⟨host, table⟩ target config seeds).run w
          = (.ok (⟨host', table'⟩, peers), s.world) ∧
        (MultiProtocolNode.lookupNode ⟨host, pubsubState, table⟩ target config seeds).run w'
          = (.ok (⟨host', pubsubState, table'⟩, peers), s'.world)) ∨
      ∃ e, (KademliaNode.lookupNode ⟨host, table⟩ target config seeds).run w
          = (.error e, s.world) ∧
        (MultiProtocolNode.lookupNode ⟨host, pubsubState, table⟩ target config seeds).run w'
          = (.error e, s'.world)) := by
  have hlookup : Lockstep _ TooLarge _
      ((KademliaNode.lookupNode ⟨host, table⟩ target config seeds).run w)
      ((MultiProtocolNode.lookupNode ⟨host, pubsubState, table⟩ target config seeds).run w') :=
    lockstep_lookup hC pubsubState hsends hpaired
  generalize hrun : (KademliaNode.lookupNode ⟨host, table⟩ target config seeds).run w = r
    at hlookup ⊢
  generalize hrun' : (MultiProtocolNode.lookupNode ⟨host, pubsubState, table⟩ target config
    seeds).run w' = r' at hlookup hfits ⊢
  cases hlookup with
  | @ok out out' v v' h =>
      obtain ⟨hout, htraffic, labels, s, s', hmoves, hmoves', rfl, rfl⟩ := h
      obtain rfl : out' = (beside pubsubState out.1, out.2) := hout
      exact ⟨labels, s, s', hmoves, hmoves', htraffic, Or.inl ⟨_, _, _, rfl, rfl⟩⟩
  | @error e v v' h =>
      obtain ⟨htraffic, labels, s, s', hmoves, hmoves', rfl, rfl⟩ := h
      exact ⟨labels, s, s', hmoves, hmoves', htraffic, Or.inr ⟨e, rfl, rfl⟩⟩
  | stopped h =>
      obtain ⟨attempted, maximum, rfl⟩ := h
      exact absurd rfl (hfits attempted maximum _)

/-- A driver that is about to receive does. -/
lemma exists_receive {s : Driven (KademliaNode C)} (h : Awaits s.phase) :
    ∃ event s', kadParty.Move s (.received event) s' := by
  obtain ⟨node, seeds, phase, w⟩ := s
  match phase, h with
  | .draining lookup (budget + 1) roundsLeft, hpending =>
      rcases hrun : (kadParty.recvOne node (seeds 0)).run w with ⟨e | ⟨node', event⟩, w'⟩
      · exact ⟨none, _, .recvFails hpending hrun⟩
      · exact ⟨some event, _, .recv hpending hrun⟩

/-- Both datagrams decrypt, to this body and to the body with the kind byte. -/
def pairsAt (host : Host C) (body : Bytes) :
    Except String (UdpAddr × Bytes) → Except String (UdpAddr × Bytes) → Bool
  | .ok (addr, datagram), .ok (addr', datagram') => decide (addr' = addr ∧
      host.opens addr (datagram.take host.socket.recvBufSize) = some body ∧
      host.opens addr (datagram'.take host.socket.recvBufSize) = some (prefixKind KIND_KAD body) ∧
      datagram'.take TRANSPORT_NONCE_PREFIX_LEN = datagram.take TRANSPORT_NONCE_PREFIX_LEN)
  | _, _ => false

lemma pairs_of_pairsAt {host : Host C} {body : Bytes} {r r' : Except String (UdpAddr × Bytes)}
    (h : pairsAt host body r r' = true) : Pairs host r r' := by
  unfold pairsAt at h
  split at h
  · obtain ⟨rfl, hopens, hopens', hnonce⟩ := of_decide_eq_true h
    exact .kad hopens hopens' hnonce
  · cases h

/-- Where the sample lookup receives, the advertisement is paired with itself. -/
def pairedAt (s : Driven (KademliaNode sampleCrypto)) : Label → Bool
  | .received _ => pairsAt s.node.host advertisement (s.world.recvFrom 0)
      (.ok (sampleAddr, connectedDatagram (prefixKind KIND_KAD advertisement)))
  | _ => true

lemma paired_of_passesWithin {n : ℕ} {s₀ : Driven (KademliaNode sampleCrypto)}
    (h : kadParty.passesWithin pairedAt n s₀ = true) :
    Paired s₀ (answeringWorld (prefixKind KIND_KAD advertisement)).recvFrom := by
  intro labels s hrun hawaits
  obtain ⟨event, s', hmove⟩ := exists_receive hawaits
  exact pairs_of_pairsAt (Party.check_of_passesWithin h hrun hmove)

/-- The peers that a lookup of the multiplexer ends with. -/
def muxLookedUp
    (node : MultiProtocolNode sampleCrypto Pubsub.sampleRlnc Pubsub.nullAuthenticator) :
    Option (List NodeId) :=
  match (node.lookupNode ⟨.replicate 32 5⟩ ⟨2, DEFAULT_K, 1, 1⟩ fun _ => .replicate 32 4).run
    (answeringWorld (prefixKind KIND_KAD advertisement)) with
  | (.ok (_, peers), _) => some (peers.map Prod.fst)
  | (.error _, _) => none

/-- Both nodes query the connected peer, dial the other one, take the advertisement and return the
same three peers. -/
theorem lookup_drivers_agree_sample :
    ∃ (node : KademliaNode sampleCrypto) (host' : Host sampleCrypto) (table' : RoutingTable)
      (peers : List (NodeId × UdpAddr)) (v v' : World),
      connectedNode = some node ∧
      SameTraffic sampleCrypto (answeringWorld advertisement)
        (answeringWorld (prefixKind KIND_KAD advertisement)) v v' ∧
      (node.lookupNode ⟨.replicate 32 5⟩ ⟨2, DEFAULT_K, 1, 1⟩ fun _ => .replicate 32 4).run
        (answeringWorld advertisement) = (.ok (⟨host', table'⟩, peers), v) ∧
      (MultiProtocolNode.lookupNode (R := Pubsub.sampleRlnc) (A := Pubsub.nullAuthenticator)
        ⟨node.host, .new, node.table⟩ ⟨.replicate 32 5⟩ ⟨2, DEFAULT_K, 1, 1⟩
          fun _ => .replicate 32 4).run (answeringWorld (prefixKind KIND_KAD advertisement))
            = (.ok (⟨host', .new, table'⟩, peers), v') ∧
      peers.map Prod.fst = [⟨.replicate 32 5⟩, ⟨.replicate 32 4⟩, ⟨.replicate 32 6⟩] := by
  have hchecks : connectedNode.map (fun node =>
      (kadParty.passesWithin pairedAt 9 (advertisedStart ⟨2, DEFAULT_K, 1, 1⟩ node),
        muxLookedUp ⟨node.host, .new, node.table⟩))
        = some (true, some [⟨.replicate 32 5⟩, ⟨.replicate 32 4⟩, ⟨.replicate 32 6⟩]) := by
    decide +kernel
  obtain ⟨node, hnode, hvalues⟩ := Option.map_eq_some_iff.mp hchecks
  obtain ⟨hpaired, hmux⟩ := Prod.mk.inj hvalues
  rw [muxLookedUp] at hmux
  split at hmux
  · rename_i m peers v' hrun
    have hsends : (answeringWorld (prefixKind KIND_KAD advertisement)).sendTo
        = (answeringWorld advertisement).sendTo := rfl
    obtain ⟨labels, s, s', -, -, htraffic, hend⟩ := lookup_drivers_agree sampleCrypto_agrees.seals
      hsends (paired_of_passesWithin hpaired) (fun _ _ _ h => by rw [hrun] at h; cases h)
    rcases hend with ⟨host', table', peers', hkad, hsame⟩ | ⟨e, -, hfail⟩
    · rw [hrun] at hsame
      cases hsame
      exact ⟨node, host', table', peers, s.world, _, hnode, htraffic, hkad, hrun,
        Option.some.inj hmux⟩
    · rw [hrun] at hfail
      cases hfail
  · cases hmux

end Libp2pCat.Mux
