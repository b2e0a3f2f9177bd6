import Libp2pCat.Rpc.Calls
import Libp2pCat.Host.Session
import Libp2pCat.Host.Traffic

/-!
Remote calls over a session of two hosts.

* `call_answered`: a call that is served comes back to the client with its own answer, and the
  session is as good as it was.
* `Turn`: what a turn of the server does with its host; `follows_serveOne`.
* `calls_at_most_once`: whatever the network does to the datagrams, a request is served at most as
  often as it was made, and the client hears only answers to requests that were served, each at most
  as often as it was served.
-/

namespace Libp2pCat.Rpc

open ByteString Effect Std Trace

variable {C : Crypto} {T : Tarpc}

/-! ### A call -/

/-- What a successful send of the client did. -/
lemma send_run_eq_ok {t t' : HostTransport C} {envelope : Envelope T.RequestId} {w w' : World}
    (h : (t.send envelope).run w = (.ok t', w')) :
    ∃ body host', T.toVec envelope = .ok body ∧
      (t.host.send t.peer (framed body)).run w = (.ok host', w') ∧
      t' = { t with host := host' } := by
  obtain ⟨body, w₁, hbody, hsend⟩ := Io.flatMap_run_eq_ok.mp h
  obtain ⟨hser, rfl⟩ := Prod.mk.inj hbody
  obtain ⟨host', hhost, rfl⟩ := Io.map_run_eq_ok.mp hsend
  exact ⟨body, host', Except.mapError_eq_ok_iff.mp hser, Io.mapError_run_eq_ok.mp hhost, rfl⟩

lemma dispatchRequest_run_eq_ok {host host' : Host C} {service : Serve T} {peer : UdpAddr}
    {id : T.RequestId} {payload : String} {event : ServeEvent T.RequestId} {w w' : World}
    (h : (dispatchRequest host service peer id payload).run w = (.ok (host', event), w')) :
    ∃ body, T.toVec (answer service id payload) = .ok body ∧
      (host.send peer (framed body)).run w = (.ok host', w') ∧ event = .handled peer id := by
  obtain ⟨body, w₁, hbody, hsend⟩ := Io.flatMap_run_eq_ok.mp h
  obtain ⟨hser, rfl⟩ := Prod.mk.inj hbody
  obtain ⟨_, hhost, heq⟩ := Io.map_run_eq_ok.mp hsend
  cases heq
  exact ⟨body, Except.mapError_eq_ok_iff.mp hser, hhost, rfl⟩

/-- A call over a session, served at once: what the client is waiting for comes back to it, however
much else its host hears before, and the session is as good as it was. -/
theorem call_answered (hC : C.Agrees) {service : Serve T}
    (hcodec : ∀ (envelope : Envelope T.RequestId) body,
      T.toVec envelope = .ok body → T.fromSlice body = .ok envelope)
    {t t' : HostTransport C} {server : Host C} {addrC : UdpAddr}
    (hthere : Reaches t.host t.peer server addrC) (hback : Reaches server addrC t.host t.peer)
    {id : T.RequestId} {payload : String} {w w' : World}
    (hcall : (t.send (.request id payload)).run w = (.ok t', w')) :
    ∃ datagram, w' = w.afterSend t.peer datagram ∧
      ∀ seed v server' event v', v.recvFrom 0 = .ok (addrC, datagram) →
        datagram.length ≤ server.socket.recvBufSize →
        (serveOne server service seed).run v = (.ok (server', event), v') →
        event = .handled addrC id ∧
        ∃ reply, v' = (v.afterRecv addrC datagram).afterSend addrC reply ∧
          ∀ u (events : List HostEvent) host₁ u₁ fuel, events.length < fuel →
            Run (Run.within (Connected t.peer) Host.Step) (t'.host, u)
              (events.mapIdx fun i event => .recvOne (t.seeds i) event) (host₁, u₁) →
            (∀ event ∈ events, ∀ plaintext, event ≠ .datagramDelivered t.peer plaintext) →
            u₁.recvFrom 0 = .ok (t.peer, reply) → reply.length ≤ t.host.socket.recvBufSize →
            ∃ t'', (t'.recv fuel).run u =
                (.ok (some (answer service id payload, t'')), u₁.afterRecv t.peer reply) ∧
              Reaches t''.host t.peer server' addrC ∧ Reaches server' addrC t''.host t.peer := by
  obtain ⟨body, host', hbody, hsend, rfl⟩ := send_run_eq_ok hcall
  obtain ⟨datagram, rfl, server₁, hdeliver, hthere₁, hout, -⟩ := hthere.of_send hC hsend
  have hback₁ := (hout _ _ _ hback).of_send_right hsend
  refine ⟨datagram, rfl, fun seed v server' event v' hrecv hfit hserve => ?_⟩
  -- the server is handed the request and answers it
  rw [serveOne_eq, Io.run_flatMap_of_ok (hdeliver seed v hrecv hfit)] at hserve
  have hasked : asked T (.datagramDelivered addrC (framed body)) = some (addrC, id, payload) := by
    rw [asked, (requestOf_framed body id payload).mpr (hcodec _ _ hbody)]
    rfl
  simp only [hasked] at hserve
  obtain ⟨body', hbody', hsend', rfl⟩ := dispatchRequest_run_eq_ok hserve
  refine ⟨rfl, ?_⟩
  obtain ⟨reply, hv', -⟩ := hback₁.of_send hC hsend'
  refine ⟨reply, hv', fun u events host₁ u₁ fuel hfuel hrun hquiet hnext hreply => ?_⟩
  -- what the client hears before the reply keeps the session
  have hhost := hrun.mono fun _ _ _ h => h.1
  have hthere₂ := hthere₁.of_run_left hrun
  have hback₂ := hback₁.of_run_right hrun fun l hl seed plaintext heq => by
    obtain ⟨i, hi, hl⟩ := List.mem_mapIdx.mp hl
    rw [heq] at hl
    exact hquiet _ (List.getElem_mem hi) plaintext (HostLabel.recvOne.inj hl).2
  obtain ⟨reply', hv'', client, hanswer, hback₃, hout', -⟩ := hback₂.of_send hC hsend'
  obtain rfl := World.eq_of_afterSend (hv'.symm.trans hv'')
  have hbuffer : host₁.socket = t.host.socket :=
    hhost.invariant (P := fun s => s.1.socket = t.host.socket)
      (fun _ _ _ hs hstep => hstep.constants.2.2.trans hs) (Host.Step.send hsend).constants.2.2
  refine ⟨⟨client, t.peer, fun k => t.seeds (k + 1 + events.length)⟩, ?_,
    (hout' _ _ _ hthere₂).of_send_right hsend', hback₃⟩
  rw [HostTransport.recv, drainForRpc_eq, Io.drain_run_eq_some_iff]
  exact ⟨events, _, ((client, _), u₁.afterRecv t.peer reply), _, _, hfuel,
    run_passes_iff.mpr ⟨⟨hhost, fun e he hsent => hsent.elim fun _ => hquiet e he _⟩, rfl⟩,
    Io.seeded_shift_run_eq_ok_iff.mpr ⟨Io.mapError_run_eq_ok.mpr
      (hanswer (t.seeds events.length) u₁ hnext (hbuffer ▸ hreply)), rfl⟩,
    pick_eq_some_iff.mpr ⟨body', rfl, rfl⟩, picked_run_eq_ok_iff.mpr ⟨hcodec _ _ hbody', rfl, rfl⟩⟩

/-- The client's end of the sample session. -/
def sampleTransport : HostTransport sampleCrypto :=
  ⟨sampleEnd 1 2, sampleAddr, fun _ => .replicate 32 0⟩

/-- Another peer of the client. -/
def strayAddr : UdpAddr := .v4 ⟨.replicate 4 2, 9⟩

/-- A call is made, served and answered; before the answer the client hears a stray byte of another
peer. -/
theorem call_answered_sample :
    ∃ t' w' server' v' t'' u',
      (sampleTransport.send (T := sampleTarpc) sampleRequest).run .quiet = (.ok t', w') ∧
      w'.sent = [(sampleAddr, sampleSealed 1 (framed requestJson))] ∧
      (serveOne (sampleEnd 2 1) sampleService (.replicate 32 0)).run
          (arrival sampleAddr (sampleSealed 1 (framed requestJson)))
        = (.ok (server', .handled sampleAddr (0 : UInt64)), v') ∧
      v'.sent = [(sampleAddr, sampleSealed 2 (framed responseJson))] ∧
      (t'.recv (T := sampleTarpc) 2).run
          (arrivals (strayAddr, [7]) (sampleAddr, sampleSealed 2 (framed responseJson)))
        = (.ok (some (sampleResponse, t'')), u') ∧
      u'.received = [(strayAddr, [7]), (sampleAddr, sampleSealed 2 (framed responseJson))] := by
  let answered := sampleSealed 2 (framed responseJson)
  let u := arrivals (strayAddr, [7]) (sampleAddr, answered)
  have hsend : ((sampleTransport.send (T := sampleTarpc) sampleRequest).outcome .quiet).bind
      (fun r => (Host.recvOutcome (r.1.host, u) (.replicate 32 0)).map fun r' =>
        (r.2.sent, r.1.host.isEstablished sampleAddr, r'.1.opened,
          r'.2.1.isEstablished sampleAddr))
      = some ([(sampleAddr, sampleSealed 1 (framed requestJson))], true, [], true) := by decide
  have hwaits : ((sampleTransport.send (T := sampleTarpc) sampleRequest).outcome .quiet).bind
      (fun r => (Host.recvOutcome (r.1.host, u) (.replicate 32 0)).map fun r' =>
        ((r'.2.2.recvFrom 0).toOption, r'.2.2.received))
      = some (some (sampleAddr, answered), [(strayAddr, [7])]) := by decide
  have hserve : ((serveOne (sampleEnd 2 1) sampleService (.replicate 32 0)).outcome
      (arrival sampleAddr (sampleSealed 1 (framed requestJson)))).map (fun r => r.2.sent)
        = some [(sampleAddr, answered)] := by decide
  have hlinked : ∀ i j : UInt8,
      Reaches (sampleEnd i j) sampleAddr (sampleEnd j i) sampleAddr := fun i j =>
    ⟨sampleLinked i j, sampleLinked j i, rfl, rfl,
      TransportState.ahead_of_mirrored (TransportState.mirrored_new _ _)⟩
  obtain ⟨⟨t', w'⟩, hcall, hrest⟩ := Option.bind_eq_some_iff.mp hsend
  obtain ⟨⟨event, host₁, u₁⟩, hstray, heq⟩ := Option.map_eq_some_iff.mp hrest
  rw [hcall, Option.bind_some, hstray, Option.map_some] at hwaits
  simp only [Prod.mk.injEq, Option.some.injEq] at heq hwaits
  obtain ⟨hsent, hconn, hopened, hconn'⟩ := heq
  obtain ⟨hnext, hreceived⟩ := hwaits
  obtain ⟨⟨⟨server', event'⟩, v'⟩, hturn, hsent'⟩ := Option.map_eq_some_iff.mp hserve
  have hrun := Io.run_of_outcome hcall
  have hrun' := Io.run_of_outcome hturn
  obtain ⟨datagram, hw', hserved⟩ := @call_answered sampleCrypto sampleTarpc sampleCrypto_agrees
    sampleService sampleTarpc_codec sampleTransport t' (sampleEnd 2 1) sampleAddr (hlinked 1 2)
    (hlinked 2 1) (0 : UInt64) _ _ _ hrun
  have hdatagram : datagram = sampleSealed 1 (framed requestJson) := by
    rw [hw'] at hsent
    exact (Prod.mk.inj (List.singleton_inj.mp hsent)).2
  obtain ⟨rfl, reply, rfl, hanswered⟩ := hserved _ _ _ _ _ (by rw [hdatagram]; rfl)
    (by rw [hdatagram]; decide) hrun'
  have hreply : reply = answered := (Prod.mk.inj (List.singleton_inj.mp hsent')).2
  -- the stray byte is heard before the answer
  have hheard : Run (Run.within (Connected sampleAddr) Host.Step) (t'.host, u)
      [.recvOne (.replicate 32 0) event] (host₁, u₁) :=
    .single ⟨Host.step_of_recvOutcome hstray, connected_of_isEstablished hconn,
      connected_of_isEstablished hconn'⟩
  have hother : ∀ e ∈ [event], ∀ plaintext, e ≠ .datagramDelivered sampleAddr plaintext := by
    intro e he plaintext heq
    rw [List.mem_singleton.mp he] at heq
    rw [heq] at hopened
    cases hopened
  obtain ⟨t'', hgot, -⟩ := hanswered u [event] host₁ u₁ 2 Nat.one_lt_two hheard hother
    (by rw [Except.toOption_eq_some_iff.mp hnext, hreply]; rfl) (by rw [hreply]; decide)
  refine ⟨t', _, server', _, t'', _, hrun, hsent, hrun', hsent', hgot, ?_⟩
  rw [World.afterRecv, hreceived, hreply]
  rfl

/-! ### Any number of calls -/

variable (T) in
/-- The envelope in a plaintext, if it is one. -/
def envelopeOf (plaintext : Bytes) : Option (Envelope T.RequestId) :=
  if plaintext.head? = some MUX_KIND_RPC then
    (T.fromSlice ((sliceFrom plaintext 1).getD [])).toOption
  else none

variable (T) in
/-- The request a client makes of a server in an operation. -/
def called (addrS : UdpAddr) (label : HostLabel) : Option (T.RequestId × String) :=
  (label.sentTo addrS).bind (requestOf T)

variable (T) in
/-- The request of a client a server is handed in an operation. -/
def served (addrC : UdpAddr) (label : HostLabel) : Option (T.RequestId × String) :=
  (label.handedFrom addrC).bind (requestOf T)

variable (T) in
/-- The envelope of a server a client is handed in an operation. -/
def heard (addrS : UdpAddr) (label : HostLabel) : Option (Envelope T.RequestId) :=
  (label.handedFrom addrS).bind (envelopeOf T)

variable (T) in
/-- The envelope a server sends a client in an operation. -/
def told (addrC : UdpAddr) (label : HostLabel) : Option (Envelope T.RequestId) :=
  (label.sentTo addrC).bind (envelopeOf T)

/-- The request an envelope is about. -/
def Envelope.id {RequestId : Type} : Envelope RequestId → RequestId
  | .request id _ | .response id _ | .error id _ => id

/-- What a server does with its host at a time: it receives a request and sends the answer to it, or
it does something else than sending an envelope. -/
inductive Turn (service : Serve T) : List HostLabel → Prop where
  | serve {seed : Key} {event : HostEvent} {addr : UdpAddr} {id : T.RequestId} {payload : String}
      {body : Bytes} : asked T event = some (addr, id, payload) →
      T.toVec (answer service id payload) = .ok body →
      Turn service [.recvOne seed event, .send addr (framed body)]
  | other {label : HostLabel} :
      (∀ addr plaintext, label = .send addr plaintext → envelopeOf T plaintext = none) →
      Turn service [label]

/-- A turn of the server is one. -/
lemma follows_serveOne (host : Host C) (service : Serve T) (seed : Key) :
    Io.Follows Host.Step host (serveOne host service seed)
      fun r l s => s = r.1 ∧ Turn service l := by
  rw [serveOne_eq]
  refine (host.follows_recvOne seed).flatMap ?_
  rintro ⟨host₁, event⟩ l s₁ ⟨rfl, rfl⟩
  cases hasked : asked T event with
  | none => exact Io.follows_pure ⟨rfl, .other (by rintro _ _ ⟨⟩)⟩
  | some r =>
      obtain ⟨addr, id, payload⟩ := r
      intro w r w' hrun
      obtain ⟨host₂, event'⟩ := r
      obtain ⟨body, hbody, hsend, -⟩ := dispatchRequest_run_eq_ok hrun
      exact ⟨_, _, .single (.send hsend), rfl, .serve hasked hbody⟩

@[simp] lemma envelopeOf_framed (body : Bytes) :
    envelopeOf T (framed body) = (T.fromSlice body).toOption := if_pos rfl

@[simp] lemma told_recvOne (addrC : UdpAddr) (seed : Key) (event : HostEvent) :
    told T addrC (.recvOne seed event) = none := rfl

@[simp] lemma told_send (addrC addr : UdpAddr) (plaintext : Bytes) :
    told T addrC (.send addr plaintext) =
      if addr = addrC then envelopeOf T plaintext else none := by
  rw [told, HostLabel.sentTo, ChannelLabel.sent]
  split <;> rfl

@[simp] lemma served_send (addrC addr : UdpAddr) (plaintext : Bytes) :
    served T addrC (.send addr plaintext) = none := rfl

@[simp] lemma served_delivered (addrC addr : UdpAddr) (seed : Key) (plaintext : Bytes) :
    served T addrC (.recvOne seed (.datagramDelivered addr plaintext)) =
      if addr = addrC then requestOf T plaintext else none := by
  rw [served, HostLabel.handedFrom, ChannelLabel.handed]
  split <;> rfl

lemma id_answer (service : Serve T) (id : T.RequestId) (payload : String) :
    (answer service id payload).id = id := by
  rw [answer]
  split
  · rename_i envelope houtcome
    obtain ⟨_, -, hrest⟩ := Except.bind_eq_ok_iff.mp houtcome
    obtain ⟨_, -, hrest⟩ := Except.bind_eq_ok_iff.mp hrest
    obtain ⟨_, -, hresponse⟩ := Except.bind_eq_ok_iff.mp hrest
    cases hresponse
    rfl
  · rfl

/-- Over one turn the envelopes sent to a client are the answers to some of its requests. -/
lemma Turn.told_sublist {service : Serve T}
    (hcodec : ∀ (envelope : Envelope T.RequestId) body,
      T.toVec envelope = .ok body → T.fromSlice body = .ok envelope)
    {labels : List HostLabel} (h : Turn service labels) (addrC : UdpAddr) :
    (labels.filterMap (told T addrC)).Sublist
      ((labels.filterMap (served T addrC)).map fun r => answer service r.1 r.2) := by
  cases h with
  | @serve seed event addr id payload body hasked hbody =>
      cases event with
      | datagramDelivered a plaintext =>
          obtain ⟨r, hrequest, heq⟩ := Option.map_eq_some_iff.mp hasked
          cases heq
          by_cases haddr : addr = addrC
          · simp [List.filterMap_cons, haddr, hrequest, hcodec _ _ hbody, Except.toOption]
          · simp [List.filterMap_cons, haddr]
      | _ => cases hasked
  | @other label hquiet =>
      have hnone : told T addrC label = none := by
        cases label with
        | send addr plaintext =>
            rw [told_send]
            split
            · exact hquiet addr plaintext rfl
            · rfl
        | _ => rfl
      rw [List.filterMap_cons_none hnone]
      exact List.nil_sublist _

/-- Two hosts whose connections with each other mirror, and between them a network that loses,
repeats, delays and reorders datagrams as it likes.  If the second of them sends its envelopes only
as answers to requests, then over any run a request of the first is served at most as often as it
was made, and the first hears only answers to requests that were served, each at most as often as it
was served; so requests with identifiers of their own are answered at most once. -/
theorem calls_at_most_once (hC : C.Agrees) {service : Serve T}
    (hcodec : ∀ (envelope : Envelope T.RequestId) body,
      T.toVec envelope = .ok body → T.fromSlice body = .ok envelope)
    {addrC addrS : UdpAddr} {client server : Host C × World} {connC connS : EstablishedConnection}
    (hclient : client.1.established[addrS]? = some connC)
    (hserver : server.1.established[addrC]? = some connS)
    (hmirror : connC.transport.Mirrored connS.transport) {labels : List DuplexLabel} {d : Duplex C}
    (hrun : Run (Duplex.Step addrC addrS) (Duplex.start client server) labels d)
    {turns : List (List HostLabel)} (hturns : ∀ turn ∈ turns, Turn service turn)
    (hserves : labels.filterMap DuplexLabel.ofSecond = turns.flatten) :
    ((labels.filterMap DuplexLabel.ofSecond).filterMap (served T addrC)).Subperm
        ((labels.filterMap DuplexLabel.ofFirst).filterMap (called T addrS)) ∧
      ((labels.filterMap DuplexLabel.ofFirst).filterMap (heard T addrS)).Subperm
        (((labels.filterMap DuplexLabel.ofSecond).filterMap (served T addrC)).map
          fun r => answer service r.1 r.2) ∧
      ((((labels.filterMap DuplexLabel.ofFirst).filterMap (called T addrS)).map Prod.fst).Nodup →
        (((labels.filterMap DuplexLabel.ofFirst).filterMap (heard T addrS)).map
          Envelope.id).Nodup) := by
  obtain ⟨hthere, hback⟩ := Duplex.handed_subperm hC hclient hserver hmirror hrun
  generalize labels.filterMap DuplexLabel.ofSecond = onServer at *
  generalize labels.filterMap DuplexLabel.ofFirst = onClient at *
  have hserved := subperm_filterMap (requestOf T) hthere
  have hheard := subperm_filterMap (envelopeOf T) hback
  rw [List.filterMap_filterMap, List.filterMap_filterMap] at hserved hheard
  -- what the server says is no more than its answers
  have htold : (onServer.filterMap (told T addrC)).Sublist
      ((onServer.filterMap (served T addrC)).map fun r => answer service r.1 r.2) := by
    rw [hserves]
    clear hserves
    induction turns with
    | nil => exact .slnil
    | cons turn turns ih =>
        rw [List.flatten_cons, List.filterMap_append, List.filterMap_append, List.map_append]
        exact ((hturns turn List.mem_cons_self).told_sublist hcodec addrC).append
          (ih fun t ht => hturns t (List.mem_cons_of_mem _ ht))
  have hanswers : (onClient.filterMap (heard T addrS)).Subperm
      ((onServer.filterMap (served T addrC)).map fun r => answer service r.1 r.2) :=
    hheard.trans htold.subperm
  refine ⟨hserved, hanswers, fun hids => ?_⟩
  have hheardIds := subperm_map Envelope.id hanswers
  rw [List.map_map] at hheardIds
  refine nodup_of_subperm (hheardIds.trans ?_) hids
  have hid : (Envelope.id ∘ fun r : T.RequestId × String => answer service r.1 r.2) = Prod.fst :=
    funext fun r => id_answer service r.1 r.2
  rw [hid]
  exact subperm_map Prod.fst hserved

/-- The operations of the sample call. -/
def sampleCall : List DuplexLabel :=
  [.first (.send sampleAddr (framed requestJson)),
    .second (.recvOne (.replicate 32 0) (.datagramDelivered sampleAddr (framed requestJson))),
    .second (.send sampleAddr (framed responseJson)),
    .first (.recvOne (.replicate 32 0) (.datagramDelivered sampleAddr (framed responseJson)))]

/-- The turn of the sample server. -/
lemma sampleTurn : Turn sampleService
    [.recvOne (.replicate 32 0) (.datagramDelivered sampleAddr (framed requestJson)),
      .send sampleAddr (framed responseJson)] := by
  have hasked : asked sampleTarpc (.datagramDelivered sampleAddr (framed requestJson)) =
      some (sampleAddr, (0 : UInt64), "\x7b\"message\":\"hello\"\x7d") := by
    rw [asked, (requestOf_framed _ _ _).mpr
      (sampleTarpc_codec sampleRequest requestJson toVec_sampleRequest)]
    rfl
  refine .serve hasked ?_
  have hanswer : answer sampleService (0 : UInt64) "\x7b\"message\":\"hello\"\x7d" =
      sampleResponse := rfl
  rw [hanswer]
  decide

/-- The sample call is served once and answered once. -/
theorem calls_at_most_once_sample :
    ∃ d : Duplex sampleCrypto,
      Run (Duplex.Step sampleAddr sampleAddr) (Duplex.start
        (sampleEnd 1 2, arrival sampleAddr (sampleSealed 2 (framed responseJson)))
        (sampleEnd 2 1, arrival sampleAddr (sampleSealed 1 (framed requestJson)))) sampleCall d ∧
      ((sampleCall.filterMap DuplexLabel.ofFirst).filterMap (heard sampleTarpc sampleAddr)).Subperm
        (((sampleCall.filterMap DuplexLabel.ofSecond).filterMap (served sampleTarpc sampleAddr)).map
          fun r => answer sampleService r.1 r.2) := by
  let client₀ : Host sampleCrypto × World :=
    (sampleEnd 1 2, arrival sampleAddr (sampleSealed 2 (framed responseJson)))
  let server₀ : Host sampleCrypto × World :=
    (sampleEnd 2 1, arrival sampleAddr (sampleSealed 1 (framed requestJson)))
  have hclient : (((client₀.1.send sampleAddr (framed requestJson)).outcome client₀.2).bind fun s =>
      (Host.recvOutcome s (.replicate 32 0)).map fun r =>
        (s.2.sent, Host.upcoming s, s.1.isEstablished sampleAddr, r.1,
          r.2.1.isEstablished sampleAddr))
      = some ([(sampleAddr, sampleSealed 1 (framed requestJson))],
        some (sampleAddr, sampleSealed 2 (framed responseJson)), true,
        .datagramDelivered sampleAddr (framed responseJson), true) := by decide
  have hserver : ((Host.recvOutcome server₀ (.replicate 32 0)).bind fun r =>
      ((r.2.1.send sampleAddr (framed responseJson)).outcome r.2.2).map fun s =>
        (r.2.2.sent, s.2.sent, r.2.1.isEstablished sampleAddr, r.1,
          s.1.isEstablished sampleAddr))
      = some ([], [(sampleAddr, sampleSealed 2 (framed responseJson))], true,
        .datagramDelivered sampleAddr (framed requestJson), true) := by decide
  obtain ⟨client₁, hsend, hrest⟩ := Option.bind_eq_some_iff.mp hclient
  obtain ⟨⟨event, client₂⟩, hrecv, hall⟩ := Option.map_eq_some_iff.mp hrest
  obtain ⟨⟨event', server₁⟩, hrecv', hrest'⟩ := Option.bind_eq_some_iff.mp hserver
  obtain ⟨server₂, hsend', hall'⟩ := Option.map_eq_some_iff.mp hrest'
  simp only [Prod.mk.injEq] at hall hall'
  obtain ⟨hsent, hnext, hclient₁, rfl, hclient₂⟩ := hall
  obtain ⟨hnone, hsent', hserver₁, rfl, hserver₂⟩ := hall'
  let request : Bytes × Bytes := (framed requestJson, sampleSealed 1 (framed requestJson))
  let response : Bytes × Bytes := (framed responseJson, sampleSealed 2 (framed responseJson))
  have hcalls : Duplex.Step sampleAddr sampleAddr (Duplex.start client₀ server₀)
      (.first (.send sampleAddr (framed requestJson)))
      ⟨⟨client₁, server₀, [request], []⟩, ⟨server₀, client₁, [], []⟩⟩ :=
    ⟨.sends (.send (Io.run_of_outcome hsend)) hsent (connected_of_isEstablished hclient₁),
      .receiver (.send (Io.run_of_outcome hsend)) (by rintro _ _ ⟨⟩)
        (connected_of_isEstablished hclient₁), rfl, rfl⟩
  have hserved : Duplex.Step sampleAddr sampleAddr
      ⟨⟨client₁, server₀, [request], []⟩, ⟨server₀, client₁, [], []⟩⟩
      (.second (.recvOne (.replicate 32 0) (.datagramDelivered sampleAddr (framed requestJson))))
      ⟨⟨client₁, server₁, [request], [request]⟩, ⟨server₁, client₁, [], []⟩⟩ :=
    ⟨.opens (Host.step_of_recvOutcome hrecv') rfl (fun _ _ _ _ _ _ _ => ⟨_, .head _⟩)
        (connected_of_isEstablished hserver₁),
      .sender (Host.step_of_recvOutcome hrecv') (by rintro _ ⟨⟩)
        (connected_of_isEstablished hserver₁), rfl, rfl⟩
  have htold : Duplex.Step sampleAddr sampleAddr
      ⟨⟨client₁, server₁, [request], [request]⟩, ⟨server₁, client₁, [], []⟩⟩
      (.second (.send sampleAddr (framed responseJson)))
      ⟨⟨client₁, server₂, [request], [request]⟩, ⟨server₂, client₁, [response], []⟩⟩ :=
    ⟨.receiver (.send (Io.run_of_outcome hsend')) (by rintro _ _ ⟨⟩)
        (connected_of_isEstablished hserver₂),
      .sends (.send (Io.run_of_outcome hsend')) (by rw [hsent', hnone]; rfl)
        (connected_of_isEstablished hserver₂), rfl, rfl⟩
  have hheard : Duplex.Step sampleAddr sampleAddr
      ⟨⟨client₁, server₂, [request], [request]⟩, ⟨server₂, client₁, [response], []⟩⟩
      (.first (.recvOne (.replicate 32 0) (.datagramDelivered sampleAddr (framed responseJson))))
      ⟨⟨client₂, server₂, [request], [request]⟩, ⟨server₂, client₂, [response], [response]⟩⟩ :=
    ⟨.sender (Host.step_of_recvOutcome hrecv) (by rintro _ ⟨⟩)
        (connected_of_isEstablished hclient₂),
      .opens (Host.step_of_recvOutcome hrecv) hnext (fun _ _ _ _ _ _ _ => ⟨_, .head _⟩)
        (connected_of_isEstablished hclient₂), rfl, rfl⟩
  have hrun := Run.cons hcalls (Run.cons hserved (Run.cons htold (Run.single hheard)))
  have hlinked : client₀.1.established[sampleAddr]? = some (sampleLinked 1 2) := by rfl
  have hlinked' : server₀.1.established[sampleAddr]? = some (sampleLinked 2 1) := by rfl
  have hserves : sampleCall.filterMap DuplexLabel.ofSecond = [[_, _]].flatten := rfl
  obtain ⟨-, hanswers, -⟩ := calls_at_most_once sampleCrypto_agrees sampleTarpc_codec hlinked
    hlinked' (TransportState.mirrored_new _ _) hrun (List.forall_mem_singleton.mpr sampleTurn)
    hserves
  exact ⟨_, hrun, hanswers⟩

end Libp2pCat.Rpc
