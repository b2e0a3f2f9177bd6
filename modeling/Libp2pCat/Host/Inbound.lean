import Libp2pCat.Host.Operations

/-!
What one received datagram can do to a host, said once.

* `Inbound host addr datagram seed reply host' event`: one constructor per outcome of the
  dispatcher; `reply` is the datagram sent back to `addr`, if any.
* `dispatchInbound_spec`: the dispatcher is exactly one of these outcomes followed by
  sending its reply, so its only failures are those of the socket.
* `recvOne_run_eq_ok`: a successful `recv_one` taken apart.
-/

namespace Libp2pCat

open ByteString Effect Std

variable {C : Crypto}

/-- The handshake table with an entry taken out put back in. -/
def Host.restore (host : Host C) (addr : UdpAddr) (entry : InFlightHandshake C) :
    BTreeMap UdpAddr (InFlightHandshake C) :=
  insertHandshakeWithLru (host.handshakes.erase addr) addr entry
    host.capacity.maxHandshakesInFlight

/-- The entry is there again, whatever else had to go. -/
lemma Host.getElem?_restore (host : Host C) (addr : UdpAddr) (entry : InFlightHandshake C) :
    (host.restore addr entry)[addr]? = some entry := Lru.getElem?_insertWithLru_self

/-- The host after a handshake with `addr` completed. -/
def Host.completed (host : Host C) (addr : UdpAddr) (transport : TransportState)
    (remoteStatic : StaticPublicKey) (remotePeerId : PeerId) : Host C :=
  { host with
    handshakes := host.handshakes.erase addr
    established := insertEstablishedWithLru host.established addr
      ⟨transport, remoteStatic, remotePeerId, host.tick + 1⟩ host.capacity.maxEstablished
    tick := host.tick + 1 }

/-- The outcomes of one datagram. -/
inductive Inbound (host : Host C) (addr : UdpAddr) (datagram : Bytes) (seed : Key) :
    Option Bytes → Host C → HostEvent → Prop where
  /-- A transport datagram of an established peer is decrypted. -/
  | delivered {conn : EstablishedConnection} {transport : TransportState} {plaintext : Bytes}
      (hconn : host.established[addr]? = some conn)
      (hdec : conn.transport.decrypt C datagram = (transport, .ok plaintext)) :
      Inbound host addr datagram seed none
        { host with
          established := host.established.insert addr
            { conn with transport := transport, lastActivity := host.tick + 1 }
          tick := host.tick + 1 }
        (.datagramDelivered addr plaintext)
  /-- A datagram that does not decrypt changes nothing. -/
  | undecryptable {conn : EstablishedConnection} {e : Error}
      (hconn : host.established[addr]? = some conn)
      (hdec : (conn.transport.decrypt C datagram).2 = .error e) :
      Inbound host addr datagram seed none host
        (.rejected addr
          s!"transport decrypt failed: {e.display}; datagram dropped, connection kept")
  /-- A dialing host answers a cookie challenge. -/
  | challenged {afterE : InitiatorAfterE C} {msg1 : Bytes} {stamp : UInt64}
      (hest : host.established[addr]? = none)
      (hentry : host.handshakes[addr]? = some ⟨.initiatorAwaitingResponse afterE msg1, stamp⟩)
      (hchal : Cookie.isChallenge datagram = true) :
      Inbound host addr datagram seed (some (msg1 ++ datagram.drop 1))
        { host with
          handshakes := host.restore addr ⟨.initiatorAwaitingResponse afterE msg1, stamp⟩ }
        (.handshakeProgress addr)
  /-- A dialing host reads message 2 and answers with message 3. -/
  | initiatorCompleted {afterE : InitiatorAfterE C} {msg1 msg3 : Bytes} {stamp : UInt64}
      {transport : TransportState} {remoteStatic : StaticPublicKey} {remotePeerId : PeerId}
      (hest : host.established[addr]? = none)
      (hentry : host.handshakes[addr]? = some ⟨.initiatorAwaitingResponse afterE msg1, stamp⟩)
      (hchal : Cookie.isChallenge datagram = false)
      (hadv : initiatorAdvance host.identity afterE datagram
        = .ok (transport, msg3, remoteStatic, remotePeerId)) :
      Inbound host addr datagram seed (some msg3)
        (host.completed addr transport remoteStatic remotePeerId)
        (.handshakeComplete addr remoteStatic remotePeerId)
  /-- A dialing host keeps its handshake over a datagram that is not message 2. -/
  | initiatorKept {afterE : InitiatorAfterE C} {msg1 : Bytes} {stamp : UInt64} {e : Error}
      (hest : host.established[addr]? = none)
      (hentry : host.handshakes[addr]? = some ⟨.initiatorAwaitingResponse afterE msg1, stamp⟩)
      (hchal : Cookie.isChallenge datagram = false)
      (hadv : initiatorAdvance host.identity afterE datagram = .error e) :
      Inbound host addr datagram seed none
        { host with
          handshakes := host.restore addr ⟨.initiatorAwaitingResponse afterE msg1, stamp⟩
          tick := host.tick + 1 }
        (.rejected addr s!"initiator: failed to advance on msg2: {e.display}; handshake kept")
  /-- An answering host reads message 3. -/
  | responderCompleted {afterResp : ResponderAfterResponse} {stamp : UInt64}
      {transport : TransportState} {remoteStatic : StaticPublicKey} {remotePeerId : PeerId}
      (hest : host.established[addr]? = none)
      (hentry : host.handshakes[addr]? = some ⟨.responderAwaitingFinalize afterResp, stamp⟩)
      (hfin : responderFinalize C afterResp datagram
        = .ok (transport, remoteStatic, remotePeerId)) :
      Inbound host addr datagram seed none
        (host.completed addr transport remoteStatic remotePeerId)
        (.handshakeComplete addr remoteStatic remotePeerId)
  /-- An answering host keeps its handshake over a datagram that is not message 3. -/
  | responderKept {afterResp : ResponderAfterResponse} {stamp : UInt64} {e : Error}
      (hest : host.established[addr]? = none)
      (hentry : host.handshakes[addr]? = some ⟨.responderAwaitingFinalize afterResp, stamp⟩)
      (hfin : responderFinalize C afterResp datagram = .error e) :
      Inbound host addr datagram seed none
        { host with
          handshakes := host.restore addr ⟨.responderAwaitingFinalize afterResp, stamp⟩
          tick := host.tick + 1 }
        (.rejected addr s!"responder: failed to finalize on msg3: {e.display}; handshake kept")
  /-- A bare message 1 of an unknown address is answered with a challenge. -/
  | bareMsg1 (hest : host.established[addr]? = none) (hnew : host.handshakes[addr]? = none)
      (hlen : datagram.length = MESSAGE_1_LEN) :
      Inbound host addr datagram seed
        (some (Cookie.challenge C host.identity.cookieSecret addr datagram))
        { host with tick := host.tick + 1 } (.handshakeProgress addr)
  /-- Message 1 with its cookie is answered with message 2. -/
  | validatedMsg1 {afterResp : ResponderAfterResponse} {msg2 : Bytes}
      (hest : host.established[addr]? = none) (hnew : host.handshakes[addr]? = none)
      (hcookie : Cookie.Valid C host.identity.cookieSecret addr datagram)
      (hresp : responderRespond host.identity (datagram.take MESSAGE_1_LEN) seed
        = .ok (afterResp, msg2)) :
      Inbound host addr datagram seed (some msg2)
        { host with
          handshakes := insertHandshakeWithLru host.handshakes addr
            ⟨.responderAwaitingFinalize afterResp, host.tick + 1⟩
            host.capacity.maxHandshakesInFlight
          tick := host.tick + 1 }
        (.handshakeProgress addr)
  /-- A validated message 1 that message 2 could not be written for is refused. -/
  | unanswerable {e : Error} (hest : host.established[addr]? = none)
      (hnew : host.handshakes[addr]? = none)
      (hcookie : Cookie.Valid C host.identity.cookieSecret addr datagram)
      (hresp : responderRespond host.identity (datagram.take MESSAGE_1_LEN) seed = .error e) :
      Inbound host addr datagram seed none { host with tick := host.tick + 1 }
        (.rejected addr s!"responder: failed to start handshake: {e.display}")
  /-- Everything else of an unknown address is refused. -/
  | refused {reason : String} (hest : host.established[addr]? = none)
      (hnew : host.handshakes[addr]? = none) (hlen : datagram.length ≠ MESSAGE_1_LEN)
      (hcookie : ¬ Cookie.Valid C host.identity.cookieSecret addr datagram) :
      Inbound host addr datagram seed none { host with tick := host.tick + 1 }
        (.rejected addr reason)

/-- Send the reply, if there is one, and end with the given result. -/
def emit (socket : UdpTransport) (addr : UdpAddr) {α : Type} (r : α) :
    Option Bytes → Io World Error α
  | none => Io.pure r
  | some reply => (socket.send addr reply).map fun _ => r

/-- The socket comes back from a send as it was. -/
lemma send_map_eq_emit {α : Type} (socket : UdpTransport) (addr : UdpAddr) (payload : Bytes)
    (f : UdpTransport → α) :
    (socket.send addr payload).map f = emit socket addr (f socket) (some payload) := by
  funext w
  rw [emit]
  show ((socket.send addr payload).map f).run w
    = ((socket.send addr payload).map fun _ => f socket).run w
  rcases hrun : (socket.send addr payload).run w with ⟨r | s, w'⟩
  · rw [Io.map_run_eq_error.mpr hrun, Io.map_run_eq_error.mpr hrun]
  · obtain ⟨-, -, rfl, -⟩ := UdpTransport.send_run_eq_ok_iff.mp hrun
    rw [Io.map_run_eq_ok.mpr ⟨_, hrun, rfl⟩, Io.map_run_eq_ok.mpr ⟨_, hrun, rfl⟩]

/-- What happens to a datagram of an unknown address. -/
lemma tryResponderMsg1_spec (host : Host C) (addr : UdpAddr) (datagram : Bytes) (seed : Key)
    (hest : host.established[addr]? = none) (hnew : host.handshakes[addr]? = none) :
    ∃ reply host' event, Inbound host addr datagram seed reply host' event ∧
      tryResponderMsg1 host addr datagram seed
        = emit host.socket addr (host', event) reply := by
  rw [tryResponderMsg1]
  by_cases hbare : datagram.length = MESSAGE_1_LEN
  · refine ⟨_, _, _, .bareMsg1 hest hnew hbare, ?_⟩
    rw [if_pos hbare, send_map_eq_emit]
  · rw [if_neg hbare]
    by_cases hlen : datagram.length = Cookie.MSG1_WITH_COOKIE_LEN
    · have hle : MESSAGE_1_LEN ≤ datagram.length := by
        rw [hlen]
        exact Nat.le_add_right _ _
      simp only [if_pos hlen, sliceTo_of_le hle, sliceFrom_of_le hle, Option.getD_some]
      by_cases hver : Cookie.verify C host.identity.cookieSecret addr (datagram.take MESSAGE_1_LEN)
          (datagram.drop MESSAGE_1_LEN) = true
      · have hvalid : Cookie.Valid C host.identity.cookieSecret addr datagram :=
          ⟨hlen, (Cookie.verify_eq_true_iff C).mp hver⟩
        rw [if_pos hver, respondToValidatedMsg1]
        cases hresp : responderRespond host.identity (datagram.take MESSAGE_1_LEN) seed with
        | error e => exact ⟨_, _, _, .unanswerable hest hnew hvalid hresp, rfl⟩
        | ok r =>
            refine ⟨_, _, _, .validatedMsg1 hest hnew hvalid hresp, ?_⟩
            simp only [send_map_eq_emit]
      · have hvalid : ¬ Cookie.Valid C host.identity.cookieSecret addr datagram :=
          fun h => hver ((Cookie.verify_eq_true_iff C).mpr h.2)
        rw [if_neg hver]
        exact ⟨_, _, _, .refused hest hnew hbare hvalid, rfl⟩
    · rw [if_neg hlen]
      exact ⟨_, _, _, .refused hest hnew hbare fun h => hlen h.1, rfl⟩

/-- What happens to a datagram of an address with a handshake in flight. -/
lemma advanceInFlight_spec (host : Host C) (addr : UdpAddr) (datagram : Bytes) (seed : Key)
    {entry : InFlightHandshake C} (hest : host.established[addr]? = none)
    (hentry : host.handshakes[addr]? = some entry) :
    ∃ reply host' event, Inbound host addr datagram seed reply host' event ∧
      advanceInFlight host addr datagram = emit host.socket addr (host', event) reply := by
  obtain ⟨state, stamp⟩ := entry
  have hhead : ∀ f : InFlightHandshake C → Io World Error (Host C × HostEvent),
      (Io.suspend (okOr host.handshakes[addr]?
        (.hostState "in-flight entry vanished mid-dispatch"))).flatMap f = f ⟨state, stamp⟩ := by
    intro f
    rw [hentry]
    rfl
  simp only [advanceInFlight, hhead]
  cases state with
  | initiatorAwaitingResponse afterE msg1 =>
      by_cases hchal : Cookie.isChallenge datagram = true
      · have hle : 1 ≤ datagram.length := by
          simp only [Cookie.isChallenge, Bool.and_eq_true, decide_eq_true_eq] at hchal
          rw [hchal.1]
          exact Nat.le_add_right _ _
        refine ⟨_, _, _, .challenged hest hentry hchal, ?_⟩
        simp only [if_pos hchal, answerCookieChallenge, sliceFrom_of_le hle, Option.getD_some,
          send_map_eq_emit]
        rfl
      · have hchal' : Cookie.isChallenge datagram = false := by simpa using hchal
        simp only [if_neg hchal, initiatorConsumeMsg2]
        cases hadv : initiatorAdvance host.identity afterE datagram with
        | error e => exact ⟨_, _, _, .initiatorKept hest hentry hchal' hadv, rfl⟩
        | ok r =>
            refine ⟨_, _, _, .initiatorCompleted hest hentry hchal' hadv, ?_⟩
            simp only [send_map_eq_emit]
            rfl
  | responderAwaitingFinalize afterResp =>
      simp only [responderConsumeMsg3]
      cases hfin : responderFinalize C afterResp datagram with
      | error e => exact ⟨_, _, _, .responderKept hest hentry hfin, rfl⟩
      | ok r => exact ⟨_, _, _, .responderCompleted hest hentry hfin, rfl⟩

/-- What happens to a datagram of an established address. -/
lemma decryptEstablished_spec (host : Host C) (addr : UdpAddr) (datagram : Bytes) (seed : Key)
    {conn : EstablishedConnection} (hconn : host.established[addr]? = some conn) :
    ∃ reply host' event, Inbound host addr datagram seed reply host' event ∧
      decryptEstablished host addr datagram = emit host.socket addr (host', event) reply := by
  have hhead : ∀ f : EstablishedConnection → Host C × HostEvent,
      (Io.suspend (okOr host.established[addr]?
        (.hostState "established entry vanished mid-dispatch"))).map f
        = (Io.pure (f conn) : Io World Error (Host C × HostEvent)) := by
    intro f
    rw [hconn]
    rfl
  simp only [decryptEstablished, hhead, Lru.insert_erase]
  rcases hdec : conn.transport.decrypt C datagram with ⟨transport, e | plaintext⟩
  · refine ⟨_, _, _, .undecryptable hconn (by rw [hdec]), ?_⟩
    -- the connection goes back as it was
    have hsame : transport = conn.transport := by
      rw [← TransportState.decrypt_of_error (C := C) (t := conn.transport) (by rw [hdec]), hdec]
    have hins : host.established.insert addr
        { conn with transport := transport, lastActivity := conn.lastActivity }
          = host.established := by
      rw [hsame]
      exact Lru.insert_eq_self hconn
    simp only [hins]
    rfl
  · exact ⟨_, _, _, .delivered hconn hdec, rfl⟩

/-- The dispatcher is one of the outcomes of `Inbound`, with its reply sent. -/
theorem dispatchInbound_spec (host : Host C) (addr : UdpAddr) (datagram : Bytes) (seed : Key) :
    ∃ reply host' event, Inbound host addr datagram seed reply host' event ∧
      dispatchInbound host addr datagram seed = emit host.socket addr (host', event) reply := by
  rw [dispatchInbound]
  cases hest : host.established[addr]? with
  | some conn =>
      rw [if_pos (by rw [ExtTreeMap.contains_eq_isSome_getElem?, hest]; rfl)]
      exact decryptEstablished_spec host addr datagram seed hest
  | none =>
      rw [if_neg (by rw [ExtTreeMap.contains_eq_isSome_getElem?, hest]; simp)]
      cases hnew : host.handshakes[addr]? with
      | some entry =>
          rw [if_pos (by rw [ExtTreeMap.contains_eq_isSome_getElem?, hnew]; rfl)]
          exact advanceInFlight_spec host addr datagram seed hest hnew
      | none =>
          rw [if_neg (by rw [ExtTreeMap.contains_eq_isSome_getElem?, hnew]; simp)]
          exact tryResponderMsg1_spec host addr datagram seed hest hnew

/-! ### By the entry of the source -/

section

variable {host host' : Host C} {addr : UdpAddr} {datagram : Bytes} {seed : Key}
  {reply : Option Bytes} {event : HostEvent}

/-- An established source: the connection keeps its peer, keys and send counter, and
nothing is sent. -/
lemma Inbound.of_established (h : Inbound host addr datagram seed reply host' event)
    {conn : EstablishedConnection} (hconn : host.established[addr]? = some conn) :
    reply = none ∧ host'.handshakes = host.handshakes ∧
      ((host' = host ∧ ∃ reason, event = .rejected addr reason) ∨
        ∃ transport plaintext, conn.transport.decrypt C datagram = (transport, .ok plaintext) ∧
          host'.established[addr]? = some
            { conn with transport := transport, lastActivity := host.tick + 1 } ∧
          event = .datagramDelivered addr plaintext) := by
  cases h with
  | delivered hc hdec =>
      rw [hconn] at hc
      cases hc
      exact ⟨rfl, rfl, Or.inr ⟨_, _, hdec, ExtTreeMap.getElem?_insert_self, rfl⟩⟩
  | undecryptable => exact ⟨rfl, rfl, Or.inl ⟨rfl, _, rfl⟩⟩
  | _ => simp_all

/-- A source that was dialed: the challenge is answered, message 2 completes, anything else
is refused. -/
lemma Inbound.of_initiator (h : Inbound host addr datagram seed reply host' event)
    (hest : host.established[addr]? = none) {afterE : InitiatorAfterE C} {msg1 : Bytes}
    {stamp : UInt64}
    (hentry : host.handshakes[addr]? = some ⟨.initiatorAwaitingResponse afterE msg1, stamp⟩) :
    (Cookie.isChallenge datagram = true ∧ reply = some (msg1 ++ datagram.drop 1) ∧
      host'.established = host.established ∧
      host'.handshakes = host.restore addr ⟨.initiatorAwaitingResponse afterE msg1, stamp⟩ ∧
      event = .handshakeProgress addr) ∨
    (Cookie.isChallenge datagram = false ∧ ∃ transport msg3 remoteStatic remotePeerId,
      initiatorAdvance host.identity afterE datagram
        = .ok (transport, msg3, remoteStatic, remotePeerId) ∧ reply = some msg3 ∧
      host' = host.completed addr transport remoteStatic remotePeerId ∧
      event = .handshakeComplete addr remoteStatic remotePeerId) ∨
    (Cookie.isChallenge datagram = false ∧
      (∃ e, initiatorAdvance host.identity afterE datagram = .error e) ∧ reply = none ∧
      host'.established = host.established ∧
      host'.handshakes = host.restore addr ⟨.initiatorAwaitingResponse afterE msg1, stamp⟩ ∧
      ∃ reason, event = .rejected addr reason) := by
  cases h with
  | challenged _ hentry' hchal =>
      rw [hentry] at hentry'
      cases hentry'
      exact Or.inl ⟨hchal, rfl, rfl, rfl, rfl⟩
  | initiatorCompleted _ hentry' hchal hadv =>
      rw [hentry] at hentry'
      cases hentry'
      exact Or.inr (Or.inl ⟨hchal, _, _, _, _, hadv, rfl, rfl, rfl⟩)
  | initiatorKept _ hentry' hchal hadv =>
      rw [hentry] at hentry'
      cases hentry'
      exact Or.inr (Or.inr ⟨hchal, ⟨_, hadv⟩, rfl, rfl, rfl, _, rfl⟩)
  | _ => simp_all

/-- A source that was answered: message 3 completes, anything else is refused. -/
lemma Inbound.of_responder (h : Inbound host addr datagram seed reply host' event)
    (hest : host.established[addr]? = none) {afterResp : ResponderAfterResponse} {stamp : UInt64}
    (hentry : host.handshakes[addr]? = some ⟨.responderAwaitingFinalize afterResp, stamp⟩) :
    reply = none ∧
    ((∃ transport remoteStatic remotePeerId,
      responderFinalize C afterResp datagram = .ok (transport, remoteStatic, remotePeerId) ∧
      host' = host.completed addr transport remoteStatic remotePeerId ∧
      event = .handshakeComplete addr remoteStatic remotePeerId) ∨
    ((∃ e, responderFinalize C afterResp datagram = .error e) ∧
      host'.established = host.established ∧
      host'.handshakes = host.restore addr ⟨.responderAwaitingFinalize afterResp, stamp⟩ ∧
      ∃ reason, event = .rejected addr reason)) := by
  cases h with
  | responderCompleted _ hentry' hfin =>
      rw [hentry] at hentry'
      cases hentry'
      exact ⟨rfl, Or.inl ⟨_, _, _, hfin, rfl, rfl⟩⟩
  | responderKept _ hentry' hfin =>
      rw [hentry] at hentry'
      cases hentry'
      exact ⟨rfl, Or.inr ⟨⟨_, hfin⟩, rfl, rfl, _, rfl⟩⟩
  | _ => simp_all

end

/-! ### Successful receives -/

/-- The world after an optional reply left. -/
def World.afterReply (w : World) (addr : UdpAddr) : Option Bytes → World
  | none => w
  | some reply => w.afterSend addr reply

lemma emit_run_eq_ok {α : Type} {socket : UdpTransport} {addr : UdpAddr} {r r' : α}
    {reply : Option Bytes} {w w' : World} (h : (emit socket addr r reply).run w = (.ok r', w')) :
    r' = r ∧ w' = w.afterReply addr reply := by
  cases reply with
  | none =>
      cases h
      exact ⟨rfl, rfl⟩
  | some payload =>
      obtain ⟨s, hs, rfl⟩ := Io.map_run_eq_ok.mp h
      exact ⟨rfl, (UdpTransport.send_run_eq_ok_iff.mp hs).2.2.2⟩

/-- A reply that fits is sent when the system takes it. -/
lemma emit_run_of_fits {α : Type} {socket : UdpTransport} {addr : UdpAddr} {r : α}
    {reply : Option Bytes} {w : World} (hw : w.SendsOk)
    (hfit : ∀ b ∈ reply, b.length ≤ socket.maxSendPayload) :
    (emit socket addr r reply).run w = (.ok r, w.afterReply addr reply) := by
  cases reply with
  | none => rfl
  | some payload =>
      exact Io.map_run_eq_ok.mpr ⟨socket,
        UdpTransport.send_run_eq_ok_iff.mpr ⟨hfit payload rfl, hw 0, rfl, rfl⟩, rfl⟩

/-- A dispatch that succeeds is one of the outcomes, with its reply on the wire. -/
lemma dispatchInbound_run_eq_ok {host host' : Host C} {addr : UdpAddr} {datagram : Bytes}
    {seed : Key} {event : HostEvent} {w w' : World}
    (h : (dispatchInbound host addr datagram seed).run w = (.ok (host', event), w')) :
    ∃ reply, Inbound host addr datagram seed reply host' event ∧ w' = w.afterReply addr reply := by
  obtain ⟨reply, host₁, event₁, hin, heq⟩ := dispatchInbound_spec host addr datagram seed
  rw [heq] at h
  obtain ⟨hr, hw⟩ := emit_run_eq_ok h
  cases hr
  exact ⟨reply, hin, hw⟩

/-- A receive is the dispatch of the datagram the socket hands over. -/
lemma recvOne_run_of_recvFrom (host : Host C) (seed : Key) {w : World} {addr : UdpAddr}
    {datagram : Bytes} (h : w.recvFrom 0 = .ok (addr, datagram)) :
    (host.recvOne seed).run w =
      (dispatchInbound host addr (datagram.take host.socket.recvBufSize) seed).run
        (w.afterRecv addr (datagram.take host.socket.recvBufSize)) :=
  Io.run_flatMap_of_ok (UdpTransport.recv_run_eq_ok_iff.mpr ⟨datagram, h, rfl, rfl, rfl⟩)

/-- A `recv_one` that succeeds took one datagram off the socket and dispatched it. -/
theorem recvOne_run_eq_ok {host host' : Host C} {seed : Key} {event : HostEvent} {w w' : World}
    (h : (host.recvOne seed).run w = (.ok (host', event), w')) :
    ∃ addr datagram reply, w.recvFrom 0 = .ok (addr, datagram) ∧
      Inbound host addr (datagram.take host.socket.recvBufSize) seed reply host' event ∧
      w' = (w.afterRecv addr (datagram.take host.socket.recvBufSize)).afterReply addr reply := by
  obtain ⟨⟨⟨addr, payload⟩, socket⟩, w₁, hrecv, hdisp⟩ := Io.flatMap_run_eq_ok.mp h
  obtain ⟨datagram, hnext, rfl, rfl, rfl⟩ := UdpTransport.recv_run_eq_ok_iff.mp hrecv
  obtain ⟨reply, hin, hw⟩ := dispatchInbound_run_eq_ok hdisp
  exact ⟨addr, datagram, reply, hnext, hin, hw⟩

end Libp2pCat
