import Libp2pCat.Rendezvous.Node
import Libp2pCat.Rendezvous.RoundTrip
import Libp2pCat.Host.Session
import Libp2pCat.Host.Changes
import Libp2pCat.Host.Traffic
import Libp2pCat.Lib.Drain

/-!
What nodes with sessions do for each other.

* `recvOne_of_send`: a frame sent over a session is handled by the node it reaches.
* `relay_delivers`: a payload relayed over a server arrives as it was, under the address the server
  sees its sender at; without a session with the target, the sender alone is told.
* `observe_self_answers`: a node that asks for its address is told what the server sees.
* `punch_lands`: a punch goes over the server to the target and comes back as one bare byte, which
  every host refuses without an answer and without a change to its tables.
-/

namespace Libp2pCat.Rendezvous

open ByteString Effect Std Trace

variable {C : Crypto}

/-! ### A frame over a session -/

lemma request_run_eq_ok {node node' : RendezvousNode C} {serverAddr : UdpAddr} {frame : Frame}
    {w w' : World} (h : (node.request serverAddr frame).run w = (.ok node', w')) :
    ∃ bytes, encode frame = .ok bytes ∧
      (node.host.send serverAddr bytes).run w = (.ok node'.host, w') := by
  obtain ⟨bytes, w₁, hbytes, hsend⟩ := Io.flatMap_run_eq_ok.mp h
  obtain ⟨henc, rfl⟩ := Prod.mk.inj hbytes
  obtain ⟨host, hhost, rfl⟩ := Io.map_run_eq_ok.mp hsend
  exact ⟨bytes, henc, hhost⟩

/-- What is sent over a session is handled by the node it reaches. -/
lemma recvOne_of_send (hC : C.Agrees) {a b a' : Host C} {addrA addrB : UdpAddr}
    (h : Reaches a addrB b addrA) {bytes : Bytes} {w w' : World}
    (hsend : (a.send addrB bytes).run w = (.ok a', w')) :
    ∃ datagram, w' = w.afterSend addrB datagram ∧
      ∃ b₁ : Host C, (∀ seed v, v.recvFrom 0 = .ok (addrA, datagram) →
          datagram.length ≤ b.socket.recvBufSize →
          ((RendezvousNode.mk b).recvOne seed).run v
            = (handleDatagram b₁ addrA bytes id).run (v.afterRecv addrA datagram)) ∧
        Reaches a' addrB b₁ addrA ∧
        (∀ z addr addrZ, Reaches b addr z addrZ → Reaches b₁ addr z addrZ) ∧
        ∀ addr, b₁.isEstablished addr = b.isEstablished addr := by
  obtain ⟨datagram, rfl, b₁, hdeliver, hreach, hout, hest, -⟩ := h.of_send hC hsend
  refine ⟨datagram, rfl, b₁, fun seed v hrecv hfit => ?_, hreach, hout, hest⟩
  rw [RendezvousNode.recvOne, Io.run_flatMap_of_ok (hdeliver seed v hrecv hfit)]
  rfl

/-! ### Relays -/

lemma autoForwardRelay_run_eq_ok {host : Host C} {source target : UdpAddr} {payload : Bytes}
    {node : RendezvousNode C} {event : RendezvousEvent} {w w' : World}
    (h : (autoForwardRelay host source target payload id).run w = (.ok (node, event), w')) :
    (host.isEstablished target = true ∧
      event = .relayForwarded source target true payload.length ∧
      ∃ bytes, encode (.relayDataDeliver source payload) = .ok bytes ∧
        (host.send target bytes).run w = (.ok node.host, w')) ∨
    (host.isEstablished target = false ∧
      event = .relayForwarded source target false payload.length ∧
      ∃ bytes, encode (.relayFail target (relayFailReason target)) = .ok bytes ∧
        (host.send source bytes).run w = (.ok node.host, w')) := by
  rw [autoForwardRelay] at h
  split at h
  · rename_i hest
    obtain ⟨bytes, w₁, hbytes, hsend⟩ := Io.flatMap_run_eq_ok.mp h
    obtain ⟨henc, rfl⟩ := Prod.mk.inj hbytes
    obtain ⟨_, hhost, heq⟩ := Io.map_run_eq_ok.mp hsend
    cases heq
    exact Or.inl ⟨hest, rfl, bytes, henc, hhost⟩
  · rename_i hest
    obtain ⟨bytes, w₁, hbytes, hsend⟩ := Io.flatMap_run_eq_ok.mp h
    obtain ⟨henc, rfl⟩ := Prod.mk.inj hbytes
    obtain ⟨_, hhost, heq⟩ := Io.map_run_eq_ok.mp hsend
    cases heq
    exact Or.inr ⟨Bool.eq_false_iff.mpr hest, rfl, bytes, henc, hhost⟩

/-- A payload relayed over a server.  The server, when it is handed the request, passes the payload
on to the target in one datagram, if it has a session with it, and the target is handed the payload
as it was, under the address that the server sees the sender at.  Otherwise the server tells the
sender, and nobody else hears of it.  The sessions stay as good as they were. -/
theorem relay_delivers (hC : C.Agrees) {a a' server : RendezvousNode C} {addrA addrS : UdpAddr}
    (hthere : Reaches a.host addrS server.host addrA) {target : UdpAddr} {payload : Bytes}
    {w w' : World} (hrelay : (a.relayVia addrS target payload).run w = (.ok a', w')) :
    ∃ datagram, w' = w.afterSend addrS datagram ∧
      ∀ seed v server' event v', v.recvFrom 0 = .ok (addrA, datagram) →
        datagram.length ≤ server.host.socket.recvBufSize →
        (server.recvOne seed).run v = (.ok (server', event), v') →
        event = .relayForwarded addrA target.onWire (server.host.isEstablished target.onWire)
          payload.length ∧
        Reaches a'.host addrS server'.host addrA ∧
        (server.host.isEstablished target.onWire = true →
          ∀ (b : RendezvousNode C) addrS', Reaches server.host target.onWire b.host addrS' →
          ∃ forwarded, v' = (v.afterRecv addrA datagram).afterSend target.onWire forwarded ∧
            ∃ b' : RendezvousNode C, Reaches server'.host target.onWire b'.host addrS' ∧
              ∀ seed' u, u.recvFrom 0 = .ok (addrS', forwarded) →
                forwarded.length ≤ b.host.socket.recvBufSize →
                (b.recvOne seed').run u
                  = (.ok (b', .relayReceived addrS' addrA.onWire payload),
                    u.afterRecv addrS' forwarded)) ∧
        (server.host.isEstablished target.onWire = false →
          Reaches server.host addrA a.host addrS →
          ∃ refusal, v' = (v.afterRecv addrA datagram).afterSend addrA refusal ∧
            ∃ a'' : RendezvousNode C, Reaches server'.host addrA a''.host addrS ∧
              ∀ seed' u, u.recvFrom 0 = .ok (addrS, refusal) →
                refusal.length ≤ a'.host.socket.recvBufSize →
                (a'.recvOne seed').run u
                  = (.ok (a'', .relayFailed addrS target.onWire (relayFailReason target.onWire)),
                    u.afterRecv addrS refusal)) := by
  obtain ⟨bytes, henc, hsend⟩ := request_run_eq_ok hrelay
  obtain ⟨datagram, rfl, server₁, hhandle, hthere₁, hout, hest⟩ := recvOne_of_send hC hthere hsend
  refine ⟨datagram, rfl, fun seed v server' event v' hrecv hfit hrun => ?_⟩
  rw [hhandle seed v hrecv hfit, handleDatagram, decode_of_encode henc] at hrun
  rcases autoForwardRelay_run_eq_ok hrun with
    ⟨htarget, rfl, bytes', henc', hsend'⟩ | ⟨htarget, rfl, bytes', henc', hsend'⟩
  · rw [hest] at htarget
    refine ⟨by rw [htarget], hthere₁.of_send_right hsend', fun _ b addrS' hb => ?_, fun hno => ?_⟩
    · obtain ⟨forwarded, hv', b₁, hhandle', hreach, -⟩ :=
        recvOne_of_send hC (hout _ _ _ hb) hsend'
      refine ⟨forwarded, hv', ⟨b₁⟩, hreach, fun seed' u hrecv' hfit' => ?_⟩
      rw [hhandle' seed' u hrecv' hfit', handleDatagram, decode_of_encode henc']
      rfl
    · rw [htarget] at hno
      cases hno
  · rw [hest] at htarget
    refine ⟨by rw [htarget], hthere₁.of_send_right hsend', fun hyes => ?_, fun _ hback => ?_⟩
    · rw [htarget] at hyes
      cases hyes
    · have hback₁ := (hout _ _ _ hback).of_send_right hsend
      obtain ⟨refusal, hv', a₁, hhandle', hreach, -⟩ := recvOne_of_send hC hback₁ hsend'
      refine ⟨refusal, hv', ⟨a₁⟩, hreach, fun seed' u hrecv' hfit' => ?_⟩
      rw [hhandle' seed' u hrecv' hfit', handleDatagram, decode_of_encode henc']
      simp only [Frame.onWire, UdpAddr.onWire_onWire]
      rfl

/-- The address of a second peer of the sample server. -/
def otherAddr : UdpAddr := .v4 ⟨.replicate 4 2, 9⟩

/-- A sample server with two peers. -/
def meetingServer : RendezvousNode sampleCrypto :=
  let peers := [(sampleAddr, sampleLinked 2 1), (otherAddr, sampleLinked 3 4)]
  ⟨{ sampleHost 2 with established := .ofList peers }⟩

/-- The first datagram under a sample key, with this frame in it. -/
def sampleFrame (key : UInt8) (frame : Frame) : Bytes :=
  List.replicate 8 0 ++
    ((encode frame).toOption.getD [] ++ (List.replicate 12 0 ++ List.replicate 4 key))

/-- The sample asker. -/
def sampleAsker : RendezvousNode sampleCrypto := ⟨sampleEnd 1 2⟩

lemma reaches_sample {a b : Host sampleCrypto} {addrA addrB : UdpAddr} (i j : UInt8)
    (ha : a.established[addrB]? = some (sampleLinked i j))
    (hb : b.established[addrA]? = some (sampleLinked j i)) : Reaches a addrB b addrA :=
  ⟨sampleLinked i j, sampleLinked j i, ha, hb,
    TransportState.ahead_of_mirrored (TransportState.mirrored_new _ _)⟩

/-- A payload goes over the sample server to its second peer. -/
theorem relay_delivers_sample :
    ∃ a' w' server' v' b' u',
      (sampleAsker.relayVia sampleAddr otherAddr [7]).run .quiet
        = (.ok a', w') ∧
      w'.sent = [(sampleAddr, sampleFrame 1 (.relayDataReq otherAddr [7]))] ∧
      (meetingServer.recvOne (.replicate 32 0)).run
          (arrival sampleAddr (sampleFrame 1 (.relayDataReq otherAddr [7])))
        = (.ok (server', .relayForwarded sampleAddr otherAddr true 1), v') ∧
      v'.sent = [(otherAddr, sampleFrame 3 (.relayDataDeliver sampleAddr [7]))] ∧
      ((⟨sampleEnd 4 3⟩ : RendezvousNode sampleCrypto).recvOne (.replicate 32 0)).run
          (arrival sampleAddr (sampleFrame 3 (.relayDataDeliver sampleAddr [7])))
        = (.ok (b', .relayReceived sampleAddr sampleAddr [7]), u') := by
  have hask : ((sampleAsker.relayVia sampleAddr otherAddr
      [7]).outcome .quiet).map (fun r => r.2.sent)
        = some [(sampleAddr, sampleFrame 1 (.relayDataReq otherAddr [7]))] := by decide
  have hforward : ((meetingServer.recvOne (.replicate 32 0)).outcome
      (arrival sampleAddr (sampleFrame 1 (.relayDataReq otherAddr [7])))).map (fun r => r.2.sent)
        = some [(otherAddr, sampleFrame 3 (.relayDataDeliver sampleAddr [7]))] := by decide
  obtain ⟨⟨a', w'⟩, hcall, hsent⟩ := Option.map_eq_some_iff.mp hask
  obtain ⟨⟨⟨server', event⟩, v'⟩, hturn, hsent'⟩ := Option.map_eq_some_iff.mp hforward
  have hrun := Io.run_of_outcome hcall
  have hrun' := Io.run_of_outcome hturn
  have hthere : Reaches sampleAsker.host sampleAddr meetingServer.host sampleAddr :=
    reaches_sample 1 2 rfl rfl
  obtain ⟨datagram, rfl, hserved⟩ := relay_delivers sampleCrypto_agrees hthere hrun
  have hdatagram : datagram = sampleFrame 1 (.relayDataReq otherAddr [7]) :=
    (Prod.mk.inj (List.singleton_inj.mp hsent)).2
  obtain ⟨rfl, -, hpassed, -⟩ := hserved _ _ _ _ _ (by rw [hdatagram]; rfl)
    (by rw [hdatagram]; decide) hrun'
  obtain ⟨forwarded, rfl, b', -, hheard⟩ := hpassed (by decide) ⟨sampleEnd 4 3⟩ sampleAddr
    (reaches_sample 3 4 rfl rfl)
  have hforwarded : forwarded = sampleFrame 3 (.relayDataDeliver sampleAddr [7]) :=
    (Prod.mk.inj (List.singleton_inj.mp hsent')).2
  have hlast := hheard (.replicate 32 0) (arrival sampleAddr forwarded) rfl
    (by rw [hforwarded]; decide)
  subst hforwarded
  exact ⟨a', _, server', _, b', _, hrun, hsent, hrun', hsent', hlast⟩

/-! ### Receives of a node -/

/-- The address an event is about. -/
def RendezvousEvent.source : RendezvousEvent → UdpAddr
  | .handshakeProgress addr | .handshakeComplete addr _ _ | .rejected addr _ => addr
  | .observeRequestReceived source | .observeResponseReceived source _
  | .punchRequestReceived source _ _ | .punchForwardReceived source _
  | .relayForwarded source _ _ _ | .relayReceived source _ _ | .relayFailed source _ _ => source

/-- A frame is answered with nothing, with one frame, or with one bare byte. -/
lemma follows_handleDatagram (host : Host C) (addr : UdpAddr) (plaintext : Bytes)
    (wrap : Bytes → Bytes) :
    Io.Follows Host.Step host (handleDatagram host addr plaintext wrap) fun r l h =>
      h = r.1.host ∧ r.2.source = addr ∧ (l = [] ∨ (∃ a bytes, l = [.send a (wrap bytes)]) ∨
        ∃ a, l = [.sendRaw a [PUNCH_BYTE]]) := by
  have hreply : ∀ (a : UdpAddr) (frame : Frame) (event : RendezvousEvent), event.source = addr →
      Io.Follows Host.Step host ((Io.suspend (encode frame)).flatMap fun bytes =>
        (host.send a (wrap bytes)).map fun host => ((⟨host⟩ : RendezvousNode C), event))
        fun r l h => h = r.1.host ∧ r.2.source = addr ∧
          (l = [] ∨ (∃ a bytes, l = [.send a (wrap bytes)]) ∨
            ∃ a, l = [.sendRaw a [PUNCH_BYTE]]) := by
    intro a frame event hsource
    refine Io.follows_suspend_flatMap fun bytes _ => ((host.follows_send a _).mono ?_).map
    rintro host' l h ⟨rfl, rfl, -⟩
    exact ⟨rfl, hsource, Or.inr (Or.inl ⟨a, bytes, rfl⟩)⟩
  rw [handleDatagram]
  split
  · exact Io.follows_pure ⟨rfl, rfl, Or.inl rfl⟩
  · exact hreply _ _ _ rfl
  · exact Io.follows_pure ⟨rfl, rfl, Or.inl rfl⟩
  · rw [autoForwardPunch]
    split
    · exact hreply _ _ _ rfl
    · exact Io.follows_pure ⟨rfl, rfl, Or.inl rfl⟩
  · rename_i initiator _
    refine ((host.follows_sendRaw initiator _).mono ?_).map
    rintro host' l h ⟨rfl, rfl⟩
    exact ⟨rfl, rfl, Or.inr (Or.inr ⟨initiator, rfl⟩)⟩
  · rw [autoForwardRelay]
    split <;> exact hreply _ _ _ rfl
  · exact Io.follows_pure ⟨rfl, rfl, Or.inl rfl⟩
  · exact Io.follows_pure ⟨rfl, rfl, Or.inl rfl⟩

/-- A receive of a node is one of its host, of the same address, and at most one datagram more. -/
lemma RendezvousNode.follows_recvOne (node : RendezvousNode C) (seed : Key) :
    Io.Follows Host.Step node.host (node.recvOne seed) fun r l h => h = r.1.host ∧
      ∃ hostEvent, hostEvent.addr = r.2.source ∧ (l = [.recvOne seed hostEvent] ∨
        (∃ a bytes, l = [.recvOne seed hostEvent, .send a bytes]) ∨
        ∃ a, l = [.recvOne seed hostEvent, .sendRaw a [PUNCH_BYTE]]) := by
  refine (node.host.follows_recvOne seed).flatMap ?_
  rintro ⟨host, hostEvent⟩ l h ⟨rfl, rfl⟩
  cases hostEvent with
  | datagramDelivered addr plaintext =>
      refine (follows_handleDatagram _ addr plaintext id).mono ?_
      rintro r l h ⟨rfl, hsource, hcases⟩
      refine ⟨rfl, .datagramDelivered addr plaintext, hsource.symm, ?_⟩
      rcases hcases with rfl | ⟨a, bytes, rfl⟩ | ⟨a, rfl⟩
      · exact Or.inl rfl
      · exact Or.inr (Or.inl ⟨a, bytes, rfl⟩)
      · exact Or.inr (Or.inr ⟨a, rfl⟩)
  | handshakeProgress addr =>
      exact Io.follows_pure ⟨rfl, .handshakeProgress addr, rfl, Or.inl rfl⟩
  | handshakeComplete addr remoteStatic remotePeerId =>
      exact Io.follows_pure
        ⟨rfl, .handshakeComplete addr remoteStatic remotePeerId, rfl, Or.inl rfl⟩
  | rejected addr reason => exact Io.follows_pure ⟨rfl, .rejected addr reason, rfl, Or.inl rfl⟩

/-- One receive of a node. -/
def RendezvousNode.Receives (s : RendezvousNode C × World) (l : Key × RendezvousEvent)
    (s' : RendezvousNode C × World) : Prop :=
  (s.1.recvOne l.1).run s.2 = (.ok (s'.1, l.2), s'.2)

/-- A send of any kind drops no connection. -/
lemma connected_of_sends {s s' : Host C × World} {l : HostLabel} (h : Host.Step s l s')
    (hl : (∃ a bytes, l = .send a bytes) ∨ ∃ a bytes, l = .sendRaw a bytes) {addr : UdpAddr}
    (hconn : Connected addr s') : Connected addr s := by
  rcases hl with ⟨a, bytes, rfl⟩ | ⟨a, bytes, rfl⟩
  · rw [connected_iff_mem, ← Host.establishedAddrs_of_send h]
    exact connected_iff_mem.mp hconn
  · cases h with
    | sendRaw hsend =>
        obtain ⟨rfl, -⟩ := sendRaw_run_eq_ok hsend
        exact hconn

/-- The node is connected with this address. -/
def RendezvousNode.Linked (addr : UdpAddr) (s : RendezvousNode C × World) : Prop :=
  Connected addr (s.1.host, s.2)

/-- A receive that is about somebody else, as a run of the host over which a connection lives. -/
lemma RendezvousNode.Receives.exists_run {s s' : RendezvousNode C × World}
    {l : Key × RendezvousEvent} (h : RendezvousNode.Receives s l s') {addr : UdpAddr}
    (hbefore : RendezvousNode.Linked addr s) (hafter : RendezvousNode.Linked addr s')
    (hother : l.2.source ≠ addr) :
    ∃ ops, Run (Run.within (Connected addr) Host.Step) (s.1.host, s.2) ops (s'.1.host, s'.2) ∧
      ∀ x ∈ ops, ∀ seed plaintext, x ≠ .recvOne seed (.datagramDelivered addr plaintext) := by
  obtain ⟨ops, _, hrun, rfl, hostEvent, hsource, hops⟩ :=
    s.1.follows_recvOne l.1 s.2 (s'.1, l.2) s'.2 h
  have hquiet : ∀ seed plaintext, HostLabel.recvOne l.1 hostEvent
      ≠ .recvOne seed (.datagramDelivered addr plaintext) := by
    rintro seed plaintext heq
    rw [(HostLabel.recvOne.inj heq).2] at hsource
    exact hother hsource.symm
  -- a receive and one datagram more
  have htwo : ∀ x, ((∃ a bytes, x = .send a bytes) ∨ ∃ a bytes, x = .sendRaw a bytes) →
      ops = [.recvOne l.1 hostEvent, x] →
      ∃ ops, Run (Run.within (Connected addr) Host.Step) (s.1.host, s.2) ops (s'.1.host, s'.2) ∧
        ∀ x ∈ ops, ∀ seed plaintext,
          x ≠ .recvOne seed (.datagramDelivered addr plaintext) := by
    rintro x hx rfl
    obtain ⟨t, hfirst, hrest⟩ := hrun.exists_of_cons
    obtain ⟨_, hsecond, hnil⟩ := hrest.exists_of_cons
    cases hnil.eq_of_nil
    have hmiddle := connected_of_sends hsecond hx hafter
    refine ⟨_, .cons ⟨hfirst, hbefore, hmiddle⟩ (.single ⟨hsecond, hmiddle, hafter⟩),
      fun y hy => ?_⟩
    rcases List.mem_pair.mp hy with rfl | rfl
    · exact hquiet
    · rcases hx with ⟨a, bytes, rfl⟩ | ⟨a, bytes, rfl⟩ <;> rintro _ _ ⟨⟩
  rcases hops with rfl | ⟨a, bytes, hops⟩ | ⟨a, hops⟩
  · obtain ⟨_, hfirst, hnil⟩ := hrun.exists_of_cons
    cases hnil.eq_of_nil
    refine ⟨_, .single ⟨hfirst, hbefore, hafter⟩, fun y hy => ?_⟩
    rw [List.mem_singleton.mp hy]
    exact hquiet
  · exact htwo _ (Or.inl ⟨a, bytes, rfl⟩) hops
  · exact htwo _ (Or.inr ⟨a, _, rfl⟩) hops

/-- Over a run of receives that are about others, both directions of a session stay good. -/
lemma RendezvousNode.reaches_of_receives {s s' : RendezvousNode C × World}
    {labels : List (Key × RendezvousEvent)} {addr : UdpAddr}
    (hrun : Run (Run.within (RendezvousNode.Linked addr) RendezvousNode.Receives) s labels s')
    (hothers : ∀ l ∈ labels, l.2.source ≠ addr) {z : Host C} {addrZ : UdpAddr} :
    (Reaches z addrZ s.1.host addr → Reaches z addrZ s'.1.host addr) ∧
      (Reaches s.1.host addr z addrZ → Reaches s'.1.host addr z addrZ) := by
  induction hrun with
  | nil => exact ⟨fun h => h, fun h => h⟩
  | @snoc t t' labels l _ hstep ih =>
      obtain ⟨hin, hout⟩ := ih fun l hl => hothers l (List.mem_append_left _ hl)
      obtain ⟨hrecv, hbefore, hafter⟩ := hstep
      obtain ⟨ops, hops, hquiet⟩ := hrecv.exists_run hbefore hafter (hothers l (by simp))
      exact ⟨fun h => (hin h).of_run_right hops hquiet, fun h => (hout h).of_run_left hops⟩

/-! ### Observing oneself -/

/-- What the loop does with an answer of the server. -/
def pickObserved (serverAddr : UdpAddr) (s : RendezvousNode C × (ℕ → Key)) :
    RendezvousEvent → Option (Io World Error (RendezvousNode C × UdpAddr))
  | .observeResponseReceived source observed =>
      if source = serverAddr then some (Io.pure (s.1, observed)) else none
  | _ => none

/-- The node's loop is the general one. -/
lemma drainForObserveResponse_eq (node : RendezvousNode C) (serverAddr : UdpAddr)
    (seeds : ℕ → Key) (fuel : ℕ) :
    node.drainForObserveResponse serverAddr seeds fuel =
      Io.drain (Io.seeded RendezvousNode.recvOne) (pickObserved serverAddr) fuel (node, seeds) := by
  induction fuel generalizing node seeds with
  | zero => rfl
  | succ fuel ih =>
      rw [RendezvousNode.drainForObserveResponse, Io.drain, Io.seeded, Io.map, Io.flatMap_assoc]
      congr 1
      funext r
      obtain ⟨node', event⟩ := r
      rw [Io.pure_flatMap]
      cases event with
      | observeResponseReceived source observed =>
          dsimp only [pickObserved]
          split
          · rfl
          · exact ih _ _
      | _ => exact ih _ _

/-- The answer the loop waits for. -/
def IsAnswer (serverAddr : UdpAddr) (event : RendezvousEvent) : Prop :=
  ∃ observed, event = .observeResponseReceived serverAddr observed

lemma pickObserved_eq_none_iff {serverAddr : UdpAddr} (s : RendezvousNode C × (ℕ → Key))
    (event : RendezvousEvent) :
    pickObserved serverAddr s event = none ↔ ¬ IsAnswer serverAddr event := by
  rw [IsAnswer]
  cases event with
  | observeResponseReceived source observed =>
      rw [pickObserved]
      split
      · rename_i heq
        simp [heq]
      · rename_i hne
        simp [hne]
  | _ => simp [pickObserved]

/-- A node that asks a server for the address it is seen at.  The server, when it is handed the
request, answers in one datagram; and whatever else the node hears from others before it, when the
answer comes the node has the address at which the server sees it, flow label and scope aside. -/
theorem observe_self_answers (hC : C.Agrees) {a a₀ server : RendezvousNode C}
    {addrA addrS : UdpAddr} (hthere : Reaches a.host addrS server.host addrA)
    (hback : Reaches server.host addrA a.host addrS) {w w₀ : World}
    (hask : (a.sendObserveReq addrS).run w = (.ok a₀, w₀)) :
    ∃ datagram, w₀ = w.afterSend addrS datagram ∧
      ∀ seed v server' event v', v.recvFrom 0 = .ok (addrA, datagram) →
        datagram.length ≤ server.host.socket.recvBufSize →
        (server.recvOne seed).run v = (.ok (server', event), v') →
        event = .observeRequestReceived addrA ∧
        ∃ reply, v' = (v.afterRecv addrA datagram).afterSend addrA reply ∧
          ∀ (seeds : ℕ → Key) (events : List RendezvousEvent) a₁ w₁ fuel, events.length < fuel →
            Run (Run.within (RendezvousNode.Linked addrS) RendezvousNode.Receives) (a₀, w₀)
              (events.mapIdx fun i event => (seeds i, event)) (a₁, w₁) →
            (∀ event ∈ events, event.source ≠ addrS) →
            w₁.recvFrom 0 = .ok (addrS, reply) →
            reply.length ≤ a₁.host.socket.recvBufSize →
            ∃ a', (a.observeSelf addrS seeds fuel).run w =
                (.ok (some (a', addrA.onWire)), w₁.afterRecv addrS reply) ∧
              Reaches a'.host addrS server'.host addrA ∧
              Reaches server'.host addrA a'.host addrS := by
  obtain ⟨bytes, henc, hsend⟩ := request_run_eq_ok hask
  obtain ⟨datagram, rfl, server₁, hhandle, hthere₁, hout, -⟩ := recvOne_of_send hC hthere hsend
  have hback₁ := (hout _ _ _ hback).of_send_right hsend
  refine ⟨datagram, rfl, fun seed v server' event v' hrecv hfit hrun => ?_⟩
  rw [hhandle seed v hrecv hfit, handleDatagram, decode_of_encode henc] at hrun
  -- the server answers with the address it sees
  obtain ⟨bytes', v₁, hbytes, hanswer⟩ := Io.flatMap_run_eq_ok.mp hrun
  obtain ⟨henc', rfl⟩ := Prod.mk.inj hbytes
  obtain ⟨_, hsend', heq⟩ := Io.map_run_eq_ok.mp hanswer
  cases heq
  refine ⟨rfl, ?_⟩
  obtain ⟨reply, hv', -⟩ := recvOne_of_send hC hback₁ hsend'
  refine ⟨reply, hv', fun seeds events a₁ w₁ fuel hfuel hevents hothers hnext hfit' => ?_⟩
  -- what the node hears before the answer keeps the session
  obtain ⟨hin, hkeeps⟩ := RendezvousNode.reaches_of_receives hevents fun l hl => by
    obtain ⟨i, hi, rfl⟩ := List.mem_mapIdx.mp hl
    exact hothers _ (List.getElem_mem hi)
  obtain ⟨reply', hv'', a₂, hhandle', hback₂, hout', -⟩ :=
    recvOne_of_send hC (hin hback₁) hsend'
  obtain rfl := World.eq_of_afterSend (hv'.symm.trans hv'')
  refine ⟨⟨a₂⟩, ?_, (hout' _ _ _ (hkeeps hthere₁)).of_send_right hsend', hback₂⟩
  have hlast : (a₁.recvOne (seeds events.length)).run w₁ =
      (.ok (⟨a₂⟩, .observeResponseReceived addrS addrA.onWire), w₁.afterRecv addrS reply) := by
    have h := hhandle' (seeds events.length) w₁ hnext hfit'
    rw [handleDatagram, id_eq, decode_of_encode henc'] at h
    exact h
  have hpassed : Run (Io.Passes (Io.seeded RendezvousNode.recvOne) (pickObserved addrS))
      ((a₀, seeds), w.afterSend addrS datagram) events
      ((a₁, fun k => seeds (k + events.length)), w₁) :=
    (Io.run_passes_seeded_iff pickObserved_eq_none_iff (fun _ _ _ _ _ _ => Iff.rfl)).mpr
      ⟨hevents.mono fun _ _ _ h => h.1, fun e he ⟨_, heq⟩ => hothers e he (heq ▸ rfl), rfl⟩
  rw [RendezvousNode.observeSelf, Io.run_flatMap_of_ok hask, drainForObserveResponse_eq,
    Io.drain_run_eq_some_iff]
  exact ⟨events, _, ((⟨a₂⟩, _), w₁.afterRecv addrS reply), _, _, hfuel, hpassed,
    Io.seeded_shift_run_eq_ok_iff.mpr ⟨hlast, rfl⟩, if_pos rfl, rfl⟩

/-- A node asks the sample server for its address, hears a stray byte of another peer, and is
told. -/
theorem observe_self_answers_sample :
    ∃ (w₀ u' : World) (a' : RendezvousNode sampleCrypto),
      w₀.sent = [(sampleAddr, sampleFrame 1 .observeReq)] ∧
      (sampleAsker.observeSelf sampleAddr (fun _ => .replicate 32 0) 2).run
          (arrivals (otherAddr, [7]) (sampleAddr, sampleFrame 2 (.observeResp sampleAddr)))
        = (.ok (some (a', sampleAddr)), u') ∧
      u'.received = [(otherAddr, [7]),
        (sampleAddr, sampleFrame 2 (.observeResp sampleAddr))] := by
  let answer := sampleFrame 2 (.observeResp sampleAddr)
  let w := arrivals (otherAddr, [7]) (sampleAddr, answer)
  have hask : ((sampleAsker.sendObserveReq sampleAddr).outcome w).bind (fun r =>
      ((r.1.recvOne (.replicate 32 0)).outcome r.2).map fun r' =>
        (r.2.sent, r.1.host.isEstablished sampleAddr, r'.1.2.source,
          r'.1.1.host.isEstablished sampleAddr))
      = some ([(sampleAddr, sampleFrame 1 .observeReq)], true, otherAddr, true) := by decide
  have hwaits : ((sampleAsker.sendObserveReq sampleAddr).outcome w).bind (fun r =>
      ((r.1.recvOne (.replicate 32 0)).outcome r.2).map fun r' =>
        ((r'.2.recvFrom 0).toOption, r'.2.received, r'.1.1.host.socket.recvBufSize))
      = some (some (sampleAddr, answer), [(otherAddr, [7])], MAX_UDP_PAYLOAD) := by decide
  have hanswer : ((meetingServer.recvOne (.replicate 32 0)).outcome
      (arrival sampleAddr (sampleFrame 1 .observeReq))).map (fun r => r.2.sent)
        = some [(sampleAddr, answer)] := by decide
  obtain ⟨⟨a₀, w₀⟩, hcall, hrest⟩ := Option.bind_eq_some_iff.mp hask
  obtain ⟨⟨⟨a₁, event⟩, w₁⟩, hstray, heq⟩ := Option.map_eq_some_iff.mp hrest
  rw [hcall, Option.bind_some, hstray, Option.map_some] at hwaits
  simp only [Prod.mk.injEq, Option.some.injEq] at heq hwaits
  obtain ⟨hsent, hlinked, hsource, hlinked'⟩ := heq
  obtain ⟨hnext, hreceived, hsocket⟩ := hwaits
  obtain ⟨⟨⟨server', event'⟩, v'⟩, hturn, hsent'⟩ := Option.map_eq_some_iff.mp hanswer
  have hthere : Reaches sampleAsker.host sampleAddr meetingServer.host sampleAddr :=
    reaches_sample 1 2 rfl rfl
  obtain ⟨datagram, hw₀, hserved⟩ := observe_self_answers sampleCrypto_agrees hthere
    (reaches_sample 2 1 rfl rfl) (Io.run_of_outcome hcall)
  rw [hw₀] at hsent
  have hdatagram : datagram = sampleFrame 1 .observeReq :=
    (Prod.mk.inj (List.singleton_inj.mp hsent)).2
  obtain ⟨-, reply, rfl, hheard⟩ := hserved _ _ _ _ _ (by rw [hdatagram]; rfl)
    (by rw [hdatagram]; decide) (Io.run_of_outcome hturn)
  have hreply : reply = answer := (Prod.mk.inj (List.singleton_inj.mp hsent')).2
  -- the stray byte is heard before the answer
  have hrun : Run (Run.within (RendezvousNode.Linked sampleAddr) RendezvousNode.Receives) (a₀, w₀)
      [(.replicate 32 0, event)] (a₁, w₁) :=
    .single ⟨Io.run_of_outcome hstray, connected_of_isEstablished hlinked,
      connected_of_isEstablished hlinked'⟩
  obtain ⟨a', hanswered, -⟩ := hheard (fun _ => .replicate 32 0) [event] a₁ w₁ 2 Nat.one_lt_two hrun
    (by rw [List.forall_mem_singleton, hsource]; decide)
    (by rw [Except.toOption_eq_some_iff.mp hnext, hreply]) (by rw [hreply, hsocket]; decide)
  refine ⟨w₀, _, a', by rw [hw₀]; exact hsent, hanswered, ?_⟩
  rw [World.afterRecv, hreceived, hreply]
  rfl

/-! ### Punches -/

/-- A datagram shorter than every message is refused and not answered. -/
lemma rejected_of_short {host host' : Host C} {addr : UdpAddr} {datagram : Bytes} {seed : Key}
    {reply : Option Bytes} {event : HostEvent}
    (h : Inbound host addr datagram seed reply host' event) (hshort : datagram.length < 17) :
    reply = none ∧ ∃ reason, event = .rejected addr reason := by
  have hcookie : ¬ Cookie.Valid C host.identity.cookieSecret addr datagram := by
    rintro ⟨hlen, -⟩
    have hlen : datagram.length = 48 := hlen
    omega
  cases h with
  | delivered _ hdec =>
      obtain ⟨_, hchk⟩ := TransportState.checked_of_decrypt (by rw [hdec])
      obtain ⟨c, rfl, hlen, -⟩ := decryptChecked_eq_ok_iff.mp hchk
      have hlen : 16 ≤ c.length := hlen
      rw [List.length_append, length_beBytes] at hshort
      omega
  | challenged _ _ hchal =>
      obtain ⟨hlen, -⟩ := (Bool.and_eq_true _ _).mp hchal
      have hlen : datagram.length = 17 := of_decide_eq_true hlen
      omega
  | initiatorCompleted _ _ _ hadv =>
      obtain ⟨_, _, hread, -⟩ := initiatorAdvance_eq_ok_iff.mp hadv
      obtain ⟨e, c₁, c₂, -, -, -, rfl, hc₁, -⟩ := readResponse_eq_ok_iff.mp hread
      have hc₁ : c₁.length = 48 := hc₁
      rw [List.length_append, List.length_append] at hshort
      omega
  | responderCompleted _ _ hfin =>
      obtain ⟨_, hread, -⟩ := responderFinalize_eq_ok_iff.mp hfin
      obtain ⟨c₁, c₂, -, -, rfl, hc₁, -⟩ := readS_eq_ok_iff.mp hread
      have hc₁ : c₁.length = 48 := hc₁
      rw [List.length_append] at hshort
      omega
  | bareMsg1 _ _ hlen =>
      have hlen : datagram.length = 32 := hlen
      omega
  | validatedMsg1 _ _ hvalid => exact absurd hvalid hcookie
  | unanswerable _ _ hvalid => exact absurd hvalid hcookie
  | _ => exact ⟨rfl, _, rfl⟩

lemma autoForwardPunch_run_eq_ok {host : Host C} {source target : UdpAddr}
    {node : RendezvousNode C} {event : RendezvousEvent} {w w' : World}
    (h : (autoForwardPunch host source target id).run w = (.ok (node, event), w')) :
    (host.isEstablished target = true ∧ event = .punchRequestReceived source target true ∧
      ∃ bytes, encode (.punchForward source) = .ok bytes ∧
        (host.send target bytes).run w = (.ok node.host, w')) ∨
    (host.isEstablished target = false ∧ event = .punchRequestReceived source target false ∧
      node.host = host ∧ w' = w) := by
  rw [autoForwardPunch] at h
  split at h
  · rename_i hest
    obtain ⟨bytes, w₁, hbytes, hsend⟩ := Io.flatMap_run_eq_ok.mp h
    obtain ⟨henc, rfl⟩ := Prod.mk.inj hbytes
    obtain ⟨_, hhost, heq⟩ := Io.map_run_eq_ok.mp hsend
    cases heq
    exact Or.inl ⟨hest, rfl, bytes, henc, hhost⟩
  · rename_i hest
    cases h
    exact Or.inr ⟨Bool.eq_false_iff.mpr hest, rfl, rfl, rfl⟩

/-- A punch over a server.  The server passes the request on to the target, in one datagram, exactly
if it has a session with it, and does nothing else; the target, when it is handed this, sends one
bare byte to the address the server sees the initiator at.  And no node within its caps is disturbed
by that byte, wherever it comes from: it is refused and not answered, and no handshake and no
connection changes. -/
theorem punch_lands (hC : C.Agrees) {a a' server : RendezvousNode C} {addrA addrS : UdpAddr}
    (hthere : Reaches a.host addrS server.host addrA) {target : UdpAddr} {w w' : World}
    (hpunch : (a.punchVia addrS target).run w = (.ok a', w')) :
    (∃ datagram, w' = w.afterSend addrS datagram ∧
      ∀ seed v server' event v', v.recvFrom 0 = .ok (addrA, datagram) →
        datagram.length ≤ server.host.socket.recvBufSize →
        (server.recvOne seed).run v = (.ok (server', event), v') →
        event = .punchRequestReceived addrA target.onWire
          (server.host.isEstablished target.onWire) ∧
        (server.host.isEstablished target.onWire = false → v' = v.afterRecv addrA datagram) ∧
        (server.host.isEstablished target.onWire = true →
          ∀ (b : RendezvousNode C) addrS', Reaches server.host target.onWire b.host addrS' →
          ∃ forwarded, v' = (v.afterRecv addrA datagram).afterSend target.onWire forwarded ∧
            ∀ seed' u b' event' u', u.recvFrom 0 = .ok (addrS', forwarded) →
              forwarded.length ≤ b.host.socket.recvBufSize →
              (b.recvOne seed').run u = (.ok (b', event'), u') →
              event' = .punchForwardReceived addrS' addrA.onWire ∧
              u' = (u.afterRecv addrS' forwarded).afterSend addrA.onWire [PUNCH_BYTE])) ∧
    ∀ (node : RendezvousNode C) addr seed x, node.host.WithinCapacity →
      x.recvFrom 0 = .ok (addr, [PUNCH_BYTE]) → 1 ≤ node.host.socket.recvBufSize →
      ∃ node' reason, (node.recvOne seed).run x
          = (.ok (node', .rejected addr reason), x.afterRecv addr [PUNCH_BYTE]) ∧
        node'.host.handshakes = node.host.handshakes ∧
        node'.host.established = node.host.established := by
  refine ⟨?_, fun node addr seed x hcap hnext hbuf => ?_⟩
  · obtain ⟨bytes, henc, hsend⟩ := request_run_eq_ok hpunch
    obtain ⟨datagram, rfl, server₁, hhandle, -, hout, hest⟩ := recvOne_of_send hC hthere hsend
    refine ⟨datagram, rfl, fun seed v server' event v' hrecv hfit hrun => ?_⟩
    rw [hhandle seed v hrecv hfit, handleDatagram, decode_of_encode henc] at hrun
    rcases autoForwardPunch_run_eq_ok hrun with
      ⟨htarget, rfl, bytes', henc', hsend'⟩ | ⟨htarget, rfl, -, rfl⟩
    · rw [hest] at htarget
      refine ⟨by rw [htarget], fun hno => ?_, fun _ b addrS' hb => ?_⟩
      · rw [htarget] at hno
        cases hno
      · obtain ⟨forwarded, hv', b₁, hhandle', -⟩ := recvOne_of_send hC (hout _ _ _ hb) hsend'
        refine ⟨forwarded, hv', fun seed' u b' event' u' hrecv' hfit' hrun' => ?_⟩
        rw [hhandle' seed' u hrecv' hfit', handleDatagram, decode_of_encode henc'] at hrun'
        -- the target punches
        obtain ⟨host, hraw, heq⟩ := Io.map_run_eq_ok.mp hrun'
        cases heq
        obtain ⟨-, -, -, rfl⟩ := sendRaw_run_eq_ok hraw
        exact ⟨rfl, rfl⟩
    · rw [hest] at htarget
      refine ⟨by rw [htarget], fun _ => rfl, fun hyes => ?_⟩
      rw [htarget] at hyes
      cases hyes
  · have hcut : [PUNCH_BYTE].take node.host.socket.recvBufSize = [PUNCH_BYTE] :=
      List.take_of_length_le hbuf
    obtain ⟨reply, host', event, hin, hdisp⟩ :=
      dispatchInbound_spec node.host addr [PUNCH_BYTE] seed
    obtain ⟨rfl, reason, rfl⟩ := rejected_of_short hin (by simp)
    have hrun := recvOne_run_of_recvFrom node.host seed hnext
    rw [hcut, hdisp] at hrun
    refine ⟨⟨host'⟩, reason, ?_, hin.tables_of_rejected hcap⟩
    rw [RendezvousNode.recvOne, Io.run_flatMap_of_ok hrun]
    rfl

lemma sampleAsker_withinCapacity : sampleAsker.host.WithinCapacity where
  disjoint _ := Or.inl rfl
  handshakes_le := Nat.zero_le _
  established_le := by decide

/-- A punch goes over the sample server, its target answers it with the byte, and the sample asker
refuses the byte. -/
theorem punch_lands_sample :
    ∃ (w' v' u' : World) (reason : String),
      w'.sent = [(sampleAddr, sampleFrame 1 (.punchReq otherAddr))] ∧
      v'.sent = [(otherAddr, sampleFrame 3 (.punchForward sampleAddr))] ∧
      (((⟨sampleEnd 4 3⟩ : RendezvousNode sampleCrypto).recvOne (.replicate 32 0)).outcome
          (arrival sampleAddr (sampleFrame 3 (.punchForward sampleAddr)))).map Prod.snd = some u' ∧
      u'.sent = [(sampleAddr, [PUNCH_BYTE])] ∧
      ∃ node', (sampleAsker.recvOne (.replicate 32 0)).run (arrival otherAddr [PUNCH_BYTE]) =
        (.ok (node', .rejected otherAddr reason),
          (arrival otherAddr [PUNCH_BYTE]).afterRecv otherAddr [PUNCH_BYTE]) := by
  have hask : ((sampleAsker.punchVia sampleAddr otherAddr).outcome .quiet).map (fun r => r.2.sent)
      = some [(sampleAddr, sampleFrame 1 (.punchReq otherAddr))] := by decide
  have hforward : ((meetingServer.recvOne (.replicate 32 0)).outcome
      (arrival sampleAddr (sampleFrame 1 (.punchReq otherAddr)))).map (fun r => r.2.sent)
        = some [(otherAddr, sampleFrame 3 (.punchForward sampleAddr))] := by decide
  have hpunch : (((⟨sampleEnd 4 3⟩ : RendezvousNode sampleCrypto).recvOne (.replicate 32 0)).outcome
      (arrival sampleAddr (sampleFrame 3 (.punchForward sampleAddr)))).isSome = true := by
    decide
  obtain ⟨⟨a', w'⟩, hcall, hsent⟩ := Option.map_eq_some_iff.mp hask
  obtain ⟨⟨⟨server', event⟩, v'⟩, hturn, hsent'⟩ := Option.map_eq_some_iff.mp hforward
  obtain ⟨⟨⟨b', event'⟩, u'⟩, hlast⟩ := Option.isSome_iff_exists.mp hpunch
  have hthere : Reaches sampleAsker.host sampleAddr meetingServer.host sampleAddr :=
    reaches_sample 1 2 rfl rfl
  obtain ⟨⟨datagram, rfl, hserved⟩, hrefused⟩ :=
    punch_lands sampleCrypto_agrees hthere (Io.run_of_outcome hcall)
  have hdatagram : datagram = sampleFrame 1 (.punchReq otherAddr) :=
    (Prod.mk.inj (List.singleton_inj.mp hsent)).2
  obtain ⟨rfl, -, hpassed⟩ := hserved _ _ _ _ _ (by rw [hdatagram]; rfl)
    (by rw [hdatagram]; decide) (Io.run_of_outcome hturn)
  obtain ⟨forwarded, rfl, hheard⟩ := hpassed (by decide) ⟨sampleEnd 4 3⟩ sampleAddr
    (reaches_sample 3 4 rfl rfl)
  have hforwarded : forwarded = sampleFrame 3 (.punchForward sampleAddr) :=
    (Prod.mk.inj (List.singleton_inj.mp hsent')).2
  obtain ⟨-, rfl⟩ := hheard _ _ _ _ _ (by rw [hforwarded]; rfl)
    (by rw [hforwarded]; decide) (Io.run_of_outcome hlast)
  obtain ⟨node', reason, hbyte, -⟩ := hrefused sampleAsker otherAddr (.replicate 32 0)
    (arrival otherAddr [PUNCH_BYTE]) sampleAsker_withinCapacity rfl (by decide)
  exact ⟨_, _, _, reason, hsent, hsent', by rw [hlast]; rfl, rfl, node', hbyte⟩

end Libp2pCat.Rendezvous
