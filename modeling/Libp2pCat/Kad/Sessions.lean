import Libp2pCat.Kad.Survival
import Libp2pCat.Kad.RoundTrip
import Libp2pCat.Kad.Hearsay
import Libp2pCat.Kad.Convergence
import Libp2pCat.Host.Session

/-!
What Kademlia nodes with sessions do for each other.

* `heardAs`: the event of a frame.
* `request_answered`: a request over a session, be it a ping or a query, is answered out of the
  table of the node it reaches, and the answer comes back as it was.
* `honest_of_answer`: out of a table that knows its way this is what a lookup needs to hear.
-/

namespace Libp2pCat.Kad

open ByteString Effect Std

variable {C : Crypto}

/-- The event of a frame, of which a request is answered with `returned` peers. -/
def heardAs (addr : UdpAddr) (returned : ℕ) : Frame → KadEvent
  | .pingReq => .pingRequestReceived addr
  | .pingResp => .pingResponseReceived addr
  | .findNodeReq target => .findNodeRequestReceived addr target returned
  | .findNodeResp peers => .findNodeResponseReceived addr peers

/-- How many peers an answer brings. -/
def Frame.count : Frame → ℕ
  | .findNodeResp peers => peers.length
  | _ => 0

lemma decode_of_encode {frame : Frame} {bytes : Bytes} (h : encode frame = .ok bytes) :
    decode bytes = .ok frame.onWire := by
  refine decode_eq_ok_iff.mpr ⟨?_, Frame.onWire_onWire frame⟩
  rw [encode_onWire, h]

/-- A request is answered, out of the given table, in one datagram. -/
lemma dispatchFrame_run_eq_ok {host : Host C} {table : RoutingTable} {addr : UdpAddr}
    {request response : Frame} (hanswer : answer table request = some response)
    {node : KademliaNode C} {event : KadEvent} {w w' : World}
    (h : (dispatchFrame host table addr request id).run w = (.ok (node, event), w')) :
    event = heardAs addr response.count request ∧ node.table = table ∧
      ∃ bytes, encode response = .ok bytes ∧
        (host.send addr bytes).run w = (.ok node.host, w') := by
  -- both answers are one frame sent back
  have hreply : ∀ event', ((Io.suspend (encode response)).flatMap fun bytes =>
      (host.send addr (id bytes)).map fun host => ((⟨host, table⟩ : KademliaNode C), event')).run w
        = (.ok (node, event), w') → event = event' ∧ node.table = table ∧
      ∃ bytes, encode response = .ok bytes ∧
        (host.send addr bytes).run w = (.ok node.host, w') := by
    intro event' h
    obtain ⟨bytes, w₁, hbytes, hsend⟩ := Io.flatMap_run_eq_ok.mp h
    obtain ⟨henc, rfl⟩ := Prod.mk.inj hbytes
    obtain ⟨_, hhost, heq⟩ := Io.map_run_eq_ok.mp hsend
    cases heq
    exact ⟨rfl, rfl, bytes, henc, hhost⟩
  cases request with
  | pingReq | findNodeReq target =>
      cases hanswer
      exact hreply _ h
  | _ => cases hanswer

/-- An answer is learned from. -/
lemma dispatchFrame_of_answer {table table' : RoutingTable} {request response : Frame}
    (hanswer : answer table' request = some response) (host before : Host C) (addr : UdpAddr)
    (returned : ℕ) :
    dispatchFrame host (observe before table addr) addr response.onWire id
      = Io.pure (⟨host, tableAfter before table (heardAs addr returned response.onWire)⟩,
          heardAs addr returned response.onWire) := by
  cases request with
  | pingReq | findNodeReq target =>
      cases hanswer
      rfl
  | _ => cases hanswer

/-- A request is the same on the wire. -/
lemma onWire_of_answer {table : RoutingTable} {request response : Frame}
    (hanswer : answer table request = some response) : request.onWire = request := by
  cases request with
  | findNodeResp peers => cases hanswer
  | _ => rfl

/-- A frame over a session is handled by the node it reaches, with its table. -/
lemma recvOne_of_send (hC : C.Agrees) {a b a' : Host C} {addrA addrB : UdpAddr}
    (h : Reaches a addrB b addrA) {frame : Frame} {bytes : Bytes} (henc : encode frame = .ok bytes)
    {w w' : World} (hsend : (a.send addrB bytes).run w = (.ok a', w')) :
    ∃ datagram, w' = w.afterSend addrB datagram ∧
      ∃ b₁ : Host C, (∀ table seed v, v.recvFrom 0 = .ok (addrA, datagram) →
          datagram.length ≤ b.socket.recvBufSize →
          ((KademliaNode.mk b table).recvOne seed).run v
            = (dispatchFrame b₁ (observe b table addrA) addrA frame.onWire id).run
              (v.afterRecv addrA datagram)) ∧
        Reaches a' addrB b₁ addrA ∧
        ∀ z addr addrZ, Reaches b addr z addrZ → Reaches b₁ addr z addrZ := by
  obtain ⟨datagram, rfl, b₁, hdeliver, hreach, hout, -, hpeer⟩ := h.of_send hC hsend
  refine ⟨datagram, rfl, b₁, fun table seed v hrecv hfit => ?_, hreach, hout⟩
  rw [KademliaNode.recvOne, Io.run_flatMap_of_ok (hdeliver seed v hrecv hfit)]
  change (handleDatagram b₁ table addrA bytes id).run _ = _
  rw [handleDatagram, decode_of_encode henc, observe_congr table (hpeer addrA)]

/-- A request over a session.  The node it reaches learns who asks, if there is room for it in its
table, and answers in one datagram out of this table; the one who asks is handed the answer as it
was, flow labels and scopes aside, and learns from it.  Both directions of the session stay as good
as they were. -/
theorem request_answered (hC : C.Agrees) {a a' b : KademliaNode C} {addrA addrB : UdpAddr}
    (hthere : Reaches a.host addrB b.host addrA) (hback : Reaches b.host addrA a.host addrB)
    {request response : Frame}
    (hanswer : answer (observe b.host b.table addrA) request = some response) {w w' : World}
    (hask : (a.sendFrame addrB request).run w = (.ok a', w')) :
    ∃ datagram, w' = w.afterSend addrB datagram ∧
      ∀ seed v b' event v', v.recvFrom 0 = .ok (addrA, datagram) →
        datagram.length ≤ b.host.socket.recvBufSize →
        (b.recvOne seed).run v = (.ok (b', event), v') →
        event = heardAs addrA response.count request ∧
        b'.table = observe b.host b.table addrA ∧
        ∃ reply, v' = (v.afterRecv addrA datagram).afterSend addrA reply ∧
          ∃ a'' : KademliaNode C,
            a''.table = tableAfter a'.host a'.table (heardAs addrB 0 response.onWire) ∧
            Reaches a''.host addrB b'.host addrA ∧ Reaches b'.host addrA a''.host addrB ∧
            ∀ seed' u, u.recvFrom 0 = .ok (addrB, reply) →
              reply.length ≤ a'.host.socket.recvBufSize →
              (a'.recvOne seed').run u
                = (.ok (a'', heardAs addrB 0 response.onWire), u.afterRecv addrB reply) := by
  obtain ⟨bytes, w₁, hbytes, hsent⟩ := Io.flatMap_run_eq_ok.mp hask
  obtain ⟨henc, rfl⟩ := Prod.mk.inj hbytes
  obtain ⟨a₁, hsend, rfl⟩ := Io.map_run_eq_ok.mp hsent
  obtain ⟨datagram, rfl, b₁, hhandle, hthere₁, hout⟩ := recvOne_of_send hC hthere henc hsend
  have hback₁ := (hout _ _ _ hback).of_send_right hsend
  refine ⟨datagram, rfl, fun seed v b' event v' hrecv hfit hrun => ?_⟩
  rw [show b = ⟨b.host, b.table⟩ from rfl, hhandle b.table seed v hrecv hfit,
    onWire_of_answer hanswer] at hrun
  obtain ⟨rfl, htable, bytes', henc', hsend'⟩ := dispatchFrame_run_eq_ok hanswer hrun
  obtain ⟨reply, hv', a₂, hhandle', hback₂, hout'⟩ := recvOne_of_send hC hback₁ henc' hsend'
  refine ⟨rfl, htable, reply, hv', ⟨a₂, _⟩, rfl, (hout' _ _ _ hthere₁).of_send_right hsend', hback₂,
    fun seed' u hrecv' hfit' => ?_⟩
  rw [hhandle' a.table seed' u hrecv' hfit', dispatchFrame_of_answer hanswer a₂ a₁ addrB 0]
  rfl

/-- Out of a table that knows its way, an answer is what a lookup in its network needs to hear. -/
lemma honest_of_answer {net : List NodeId} {s : Phase} {addr : UdpAddr} {table : RoutingTable}
    {response : Frame} (hanswer : answer table (.findNodeReq s.lookup.target) = some response)
    (hmembers : ∀ p ∈ table.stored, p.1 ∈ net ∨ p.1 = s.lookup.selfId)
    (hroutes : ∀ id, s.lookup.pendingQueries[addr]? = some id →
      Routes net s.lookup.selfId s.lookup.target s.lookup.config.k id table) :
    Honest net s (.received (some (heardAs addr 0 response.onWire))) := by
  cases hanswer
  rintro addr' peers heq
  cases heq
  have hids :
      ((table.closestTo s.lookup.target table.k).map fun p => (p.1, p.2.onWire)).map Prod.fst
      = (table.closestTo s.lookup.target table.k).map Prod.fst := by
    rw [List.map_map]
    rfl
  refine ⟨fun p hp => ?_, fun id hid => ⟨table, hroutes id hid, hids⟩⟩
  obtain ⟨q, hq, rfl⟩ := List.mem_map.mp hp
  exact hmembers q (mem_of_mem_closestTo hq)

/-- A node that knows the near peer of the sample network. -/
def knower : KademliaNode sampleCrypto := ⟨sampleEnd 2 1, tableOf ⟨.replicate 32 6⟩ nearPeer⟩

def asker : KademliaNode sampleCrypto := ⟨sampleEnd 1 2, tableOf searcherId farPeer⟩

/-- The peer at either end of a sample connection. -/
def linkedId : NodeId := .fromPeerId sampleCrypto (.fromEd25519 (.replicate 32 3))

/-- The asker is told of the near peer, and of itself. -/
theorem request_answered_sample :
    ∃ a' w' b' v' a'' u' peers,
      (asker.sendFrame sampleAddr (.findNodeReq nearPeer.1)).run .quiet = (.ok a', w') ∧
      (knower.recvOne (.replicate 32 0)).run
          (arrival sampleAddr (sealedFrame 1 (.findNodeReq nearPeer.1)))
        = (.ok (b', .findNodeRequestReceived sampleAddr nearPeer.1 2), v') ∧
      (a'.recvOne (.replicate 32 0)).run (arrival sampleAddr (sealedFrame 2 (.findNodeResp peers)))
        = (.ok (a'', .findNodeResponseReceived sampleAddr peers), u') ∧
      peers = [nearPeer, (linkedId, sampleAddr)] := by
  have hask : ((asker.sendFrame sampleAddr (.findNodeReq nearPeer.1)).outcome .quiet).map
      (fun r => (r.2.sent, r.1.host.socket.recvBufSize))
        = some ([(sampleAddr, sealedFrame 1 (.findNodeReq nearPeer.1))], MAX_UDP_PAYLOAD) := by
    decide
  have hserve : ((knower.recvOne (.replicate 32 0)).outcome
      (arrival sampleAddr (sealedFrame 1 (.findNodeReq nearPeer.1)))).map (fun r => r.2.sent)
        = some [(sampleAddr,
          sealedFrame 2 (.findNodeResp [nearPeer, (linkedId, sampleAddr)]))] := by
    decide +kernel
  have hclosest : (observe knower.host knower.table sampleAddr).closestTo nearPeer.1
      (observe knower.host knower.table sampleAddr).k = [nearPeer, (linkedId, sampleAddr)] := by
    decide +kernel
  obtain ⟨⟨a', w'⟩, hcall, heq⟩ := Option.map_eq_some_iff.mp hask
  obtain ⟨hsent, hsocket⟩ := Prod.mk.inj heq
  obtain ⟨⟨⟨b', event⟩, v'⟩, hturn, hsent'⟩ := Option.map_eq_some_iff.mp hserve
  have hlinked : ∀ i j : UInt8,
      Reaches (sampleEnd i j) sampleAddr (sampleEnd j i) sampleAddr := fun i j =>
    ⟨sampleLinked i j, sampleLinked j i, rfl, rfl,
      TransportState.ahead_of_mirrored (TransportState.mirrored_new _ _)⟩
  have hanswer : answer (observe knower.host knower.table sampleAddr) (.findNodeReq nearPeer.1)
      = some (.findNodeResp [nearPeer, (linkedId, sampleAddr)]) := by
    rw [answer, hclosest]
  have hthere : Reaches asker.host sampleAddr knower.host sampleAddr := hlinked 1 2
  obtain ⟨datagram, rfl, hserved⟩ := request_answered sampleCrypto_agrees hthere (hlinked 2 1)
    hanswer (Io.run_of_outcome hcall)
  have hdatagram : datagram = sealedFrame 1 (.findNodeReq nearPeer.1) :=
    (Prod.mk.inj (List.singleton_inj.mp hsent)).2
  obtain ⟨rfl, -, reply, rfl, a'', -, -, -, hheard⟩ := hserved _ _ _ _ _ (by rw [hdatagram]; rfl)
    (by rw [hdatagram]; decide) (Io.run_of_outcome hturn)
  have hreply : reply = sealedFrame 2 (.findNodeResp [nearPeer, (linkedId, sampleAddr)]) :=
    (Prod.mk.inj (List.singleton_inj.mp hsent')).2
  subst hreply
  have hfits : (sealedFrame 2 (.findNodeResp [nearPeer, (linkedId, sampleAddr)])).length
      ≤ MAX_UDP_PAYLOAD := by decide
  have hlast := hheard (.replicate 32 0) (arrival sampleAddr _) rfl (hsocket.symm ▸ hfits)
  exact ⟨a', _, b', _, a'', _, _, Io.run_of_outcome hcall, Io.run_of_outcome hturn, hlast, rfl⟩

end Libp2pCat.Kad
