import Libp2pCat.Rpc.Transport
import Libp2pCat.Lib.Drain
import Libp2pCat.Host.Channel

/-!
The two ends of remote calls.

* `drainForRpc_eq`: the client's loop is the general one; `Overheard`: what it passes over.
* `recv_anchored`: a receive ends with the first envelope of its own peer, whatever else came before
  it, fails over a failed receive or an unreadable envelope of that peer, and ends in no other way.
* `serveOne_eq`: a turn of the server is a receive and, if that brought a request, an answer.
* `serve_one_survives_iff`: it fails only where the host does or where the answer does not fit.
-/

namespace Libp2pCat.Rpc

open ByteString Effect Std Trace

variable {C : Crypto} {T : Tarpc}

/-! ### The client -/

variable (T) in
/-- One receive of the loop. -/
def receive (host : Host C) (seed : Key) : Io World T.Error (Host C × HostEvent) :=
  (host.recvOne seed).mapError libErrorToTarpc

/-- What the loop does with an RPC plaintext of the peer. -/
def pick (peer : UdpAddr) (s : Host C × (ℕ → Key)) :
    HostEvent → Option (Io World T.Error (Envelope T.RequestId × HostTransport C))
  | .datagramDelivered addr plaintext =>
      if addr = peer ∧ plaintext.head? = some MUX_KIND_RPC then
        some ((Io.suspend (deserialize ((sliceFrom plaintext 1).getD []))).map fun envelope =>
          (envelope, ⟨s.1, peer, s.2⟩))
      else none
  | _ => none

/-- The client's loop is the general one. -/
lemma drainForRpc_eq (host : Host C) (peer : UdpAddr) (seeds : ℕ → Key) (fuel : ℕ) :
    drainForRpc (T := T) host peer seeds fuel =
      Io.drain (Io.seeded (receive T)) (pick peer) fuel (host, seeds) := by
  induction fuel generalizing host seeds with
  | zero => rfl
  | succ fuel ih =>
      rw [drainForRpc, Io.drain, Io.seeded, Io.map, Io.flatMap_assoc]
      congr 1
      funext r
      obtain ⟨host', event⟩ := r
      rw [Io.pure_flatMap]
      cases event with
      | datagramDelivered addr plaintext =>
          dsimp only [pick]
          split
          · funext w
            simp only [Io.suspend, Io.map, Io.flatMap, Io.pure]
            cases deserialize (T := T) ((sliceFrom plaintext 1).getD []) <;> rfl
          · exact ih _ _
      | _ => exact ih _ _

/-- An event is an RPC plaintext of the peer. -/
def Mine (peer : UdpAddr) (event : HostEvent) : Prop :=
  ∃ body, event = .datagramDelivered peer (framed body)

lemma eq_framed {plaintext : Bytes} (h : plaintext.head? = some MUX_KIND_RPC) :
    plaintext = framed ((sliceFrom plaintext 1).getD []) := by
  obtain ⟨rest, rfl⟩ := List.head?_eq_some_iff.mp h
  rfl

lemma pick_eq_some_iff {peer : UdpAddr} {s : Host C × (ℕ → Key)} {event : HostEvent}
    {x : Io World T.Error (Envelope T.RequestId × HostTransport C)} :
    pick peer s event = some x ↔ ∃ body, event = .datagramDelivered peer (framed body) ∧
      x = (Io.suspend (deserialize body)).map fun envelope => (envelope, ⟨s.1, peer, s.2⟩) := by
  constructor
  · intro h
    cases event with
    | datagramDelivered addr plaintext =>
        rw [pick] at h
        split at h
        · rename_i hmine
          obtain ⟨rfl, hkind⟩ := hmine
          cases h
          exact ⟨_, by rw [← eq_framed hkind], rfl⟩
        · cases h
    | _ => cases h
  · rintro ⟨body, rfl, rfl⟩
    exact if_pos ⟨rfl, rfl⟩

lemma pick_eq_none_iff {peer : UdpAddr} (s : Host C × (ℕ → Key)) (event : HostEvent) :
    pick (T := T) peer s event = none ↔ ¬ Mine peer event := by
  constructor
  · rintro h ⟨body, rfl⟩
    rw [pick, if_pos ⟨rfl, rfl⟩] at h
    cases h
  · intro h
    cases hpick : pick (T := T) peer s event with
    | none => rfl
    | some x =>
        obtain ⟨body, hevent, -⟩ := pick_eq_some_iff.mp hpick
        exact absurd ⟨body, hevent⟩ h

/-- One receive of the loop is one of the host. -/
lemma step_iff_receive (host : Host C) (w : World) (seed : Key) (event : HostEvent)
    (host' : Host C) (w' : World) :
    Host.Step (host, w) (.recvOne seed event) (host', w') ↔
      (receive T host seed).run w = (.ok (host', event), w') := by
  rw [receive, Io.mapError_run_eq_ok]
  constructor
  · rintro ⟨⟩
    assumption
  · exact .recvOne

/-- The events that the loop passes over from here on: none of them is an RPC plaintext of the
peer. -/
def Overheard (t : HostTransport C) (w : World) (events : List HostEvent) (host : Host C)
    (w' : World) : Prop :=
  Run Host.Step (t.host, w) (events.mapIdx fun i event => .recvOne (t.seeds i) event) (host, w') ∧
    ∀ event ∈ events, ¬ Mine t.peer event

/-- What the loop passes over. -/
lemma run_passes_iff {t : HostTransport C} {host₁ : Host C} {seeds₁ : ℕ → Key} {w w₁ : World}
    {events : List HostEvent} :
    Run (Io.Passes (Io.seeded (receive T)) (pick t.peer)) ((t.host, t.seeds), w) events
        ((host₁, seeds₁), w₁) ↔
      Overheard t w events host₁ w₁ ∧ seeds₁ = fun k => t.seeds (k + events.length) := by
  rw [Io.run_passes_seeded_iff pick_eq_none_iff step_iff_receive, Overheard, and_assoc]

/-- Reading the picked plaintext. -/
lemma picked_run_eq_ok_iff {t t' : HostTransport C} {body : Bytes}
    {envelope : Envelope T.RequestId} {w w' : World} :
    ((Io.suspend (deserialize body)).map fun e => (e, t)).run w = (.ok (envelope, t'), w') ↔
      T.fromSlice body = .ok envelope ∧ t' = t ∧ w' = w := by
  rw [Io.map_run_eq_ok]
  constructor
  · rintro ⟨e, hrun, heq⟩
    obtain ⟨hbody, rfl⟩ := Prod.mk.inj hrun
    cases heq
    exact ⟨Except.mapError_eq_ok_iff.mp hbody, rfl, rfl⟩
  · rintro ⟨hbody, rfl, rfl⟩
    exact ⟨envelope, Prod.ext (Except.mapError_eq_ok_iff.mpr hbody) rfl, rfl⟩

lemma picked_run_eq_error_iff {t : HostTransport C} {body : Bytes} {e : T.Error} {w w' : World} :
    ((Io.suspend (deserialize body)).map fun envelope => (envelope, t)).run w = (.error e, w') ↔
      ∃ reason, T.fromSlice body = .error reason ∧ e = T.fromDeserialize reason ∧ w' = w := by
  rw [Io.map_run_eq_error]
  constructor
  · intro hrun
    obtain ⟨hbody, rfl⟩ := Prod.mk.inj hrun
    obtain ⟨reason, hslice, rfl⟩ := Except.mapError_eq_error_iff.mp hbody
    exact ⟨reason, hslice, rfl, rfl⟩
  · rintro ⟨reason, hslice, rfl, rfl⟩
    exact Prod.ext (Except.mapError_eq_error_iff.mpr ⟨reason, hslice, rfl⟩) rfl

/-- A receive of the client. It ends with an envelope exactly when, within the fuel, the host hands
over an RPC plaintext of the client's own peer that is one, after a run of receives none of which
handed over an RPC plaintext of that peer. It fails exactly when a receive of the host fails on the
way or that plaintext is no envelope, and it is still waiting exactly when it has passed over as
many events as it has fuel. -/
theorem recv_anchored (t : HostTransport C) (fuel : ℕ) (w w' : World) :
    (∀ envelope t', (t.recv fuel).run w = (.ok (some (envelope, t')), w') ↔
      ∃ events host₁ w₁ host₂ body, events.length < fuel ∧ Overheard t w events host₁ w₁ ∧
        (host₁.recvOne (t.seeds events.length)).run w₁ =
          (.ok (host₂, .datagramDelivered t.peer (framed body)), w') ∧
        T.fromSlice body = .ok envelope ∧
        t' = ⟨host₂, t.peer, fun k => t.seeds (k + 1 + events.length)⟩) ∧
    (∀ e : T.Error, (t.recv fuel).run w = (.error e, w') ↔
      ∃ events host₁ w₁, events.length < fuel ∧ Overheard t w events host₁ w₁ ∧
        ((∃ err, (host₁.recvOne (t.seeds events.length)).run w₁ = (.error err, w') ∧
          e = libErrorToTarpc err) ∨
        ∃ host₂ body reason, (host₁.recvOne (t.seeds events.length)).run w₁ =
            (.ok (host₂, .datagramDelivered t.peer (framed body)), w') ∧
          T.fromSlice body = .error reason ∧ e = T.fromDeserialize reason)) ∧
    ((t.recv (T := T) fuel).run w = (.ok none, w') ↔
      ∃ events host₁, events.length = fuel ∧ Overheard t w events host₁ w') := by
  rw [HostTransport.recv, drainForRpc_eq]
  refine ⟨fun envelope t' => ?_, fun e => ?_, ?_⟩
  · rw [Io.drain_run_eq_some_iff]
    constructor
    · rintro ⟨events, ⟨⟨host₁, seeds₁⟩, w₁⟩, ⟨s₂, w₂⟩, event, x, hlen, hrun, hrecv, hpick, hx⟩
      obtain ⟨hoverheard, rfl⟩ := run_passes_iff.mp hrun
      obtain ⟨hhost, hseeds⟩ := Io.seeded_shift_run_eq_ok_iff.mp hrecv
      obtain ⟨body, rfl, rfl⟩ := pick_eq_some_iff.mp hpick
      obtain ⟨hslice, rfl, rfl⟩ := picked_run_eq_ok_iff.mp hx
      exact ⟨events, host₁, w₁, s₂.1, body, hlen, hoverheard, Io.mapError_run_eq_ok.mp hhost,
        hslice, by rw [hseeds]⟩
    · rintro ⟨events, host₁, w₁, host₂, body, hlen, hoverheard, hhost, hslice, rfl⟩
      exact ⟨events, _, ((host₂, _), w'), _, _, hlen, run_passes_iff.mpr ⟨hoverheard, rfl⟩,
        Io.seeded_shift_run_eq_ok_iff.mpr ⟨Io.mapError_run_eq_ok.mpr hhost, rfl⟩,
        pick_eq_some_iff.mpr ⟨body, rfl, rfl⟩, picked_run_eq_ok_iff.mpr ⟨hslice, rfl, rfl⟩⟩
  · rw [Io.drain_run_eq_error_iff]
    constructor
    · rintro ⟨events, ⟨⟨host₁, seeds₁⟩, w₁⟩, hlen, hrun, hfails⟩
      obtain ⟨hoverheard, rfl⟩ := run_passes_iff.mp hrun
      refine ⟨events, host₁, w₁, hlen, hoverheard, ?_⟩
      rcases hfails with hfail | ⟨⟨s₂, w₂⟩, event, x, hrecv, hpick, hx⟩
      · left
        obtain ⟨err, herr, rfl⟩ :=
          Io.mapError_run_eq_error.mp (Io.seeded_shift_run_eq_error_iff.mp hfail)
        exact ⟨err, herr, rfl⟩
      · right
        obtain ⟨hhost, hseeds⟩ := Io.seeded_shift_run_eq_ok_iff.mp hrecv
        obtain ⟨body, rfl, rfl⟩ := pick_eq_some_iff.mp hpick
        obtain ⟨reason, hslice, rfl, rfl⟩ := picked_run_eq_error_iff.mp hx
        exact ⟨s₂.1, body, reason, Io.mapError_run_eq_ok.mp hhost, hslice, rfl⟩
    · rintro ⟨events, host₁, w₁, hlen, hoverheard, hfails⟩
      refine ⟨events, _, hlen, run_passes_iff.mpr ⟨hoverheard, rfl⟩, ?_⟩
      rcases hfails with ⟨err, hfail, rfl⟩ | ⟨host₂, body, reason, hhost, hslice, rfl⟩
      · left
        exact Io.seeded_shift_run_eq_error_iff.mpr (Io.mapError_run_eq_error.mpr ⟨err, hfail, rfl⟩)
      · right
        exact ⟨((host₂, _), w'), _, _,
          Io.seeded_shift_run_eq_ok_iff.mpr ⟨Io.mapError_run_eq_ok.mpr hhost, rfl⟩,
          pick_eq_some_iff.mpr ⟨body, rfl, rfl⟩,
          picked_run_eq_error_iff.mpr ⟨reason, hslice, rfl, rfl⟩⟩
  · rw [Io.drain_run_eq_none_iff]
    constructor
    · rintro ⟨events, ⟨host₁, seeds₁⟩, hlen, hrun⟩
      obtain ⟨hoverheard, -⟩ := run_passes_iff.mp hrun
      exact ⟨events, host₁, hlen, hoverheard⟩
    · rintro ⟨events, host₁, hlen, hoverheard⟩
      exact ⟨events, _, hlen, run_passes_iff.mpr ⟨hoverheard, rfl⟩⟩

/-! ### The server -/

variable (T) in
/-- The request in a plaintext, if it is one. -/
def requestOf (plaintext : Bytes) : Option (T.RequestId × String) :=
  if plaintext.head? = some MUX_KIND_RPC then
    match T.fromSlice ((sliceFrom plaintext 1).getD []) with
    | .ok (.request id payload) => some (id, payload)
    | _ => none
  else none

/-- What the server reports of an event that asks nothing of it. -/
def reported : HostEvent → ServeEvent T.RequestId
  | .datagramDelivered addr plaintext =>
      match plaintext.head? with
      | some kind =>
          if kind = MUX_KIND_RPC then
            match T.fromSlice ((sliceFrom plaintext 1).getD []) with
            | .error e => .rejected addr s!"envelope decode failed: {e}"
            | .ok _ => .rejected addr "expected Envelope::Request from client"
          else .rejected addr s!"non-RPC kind byte 0x{hexByte kind}"
      | none => .rejected addr "empty plaintext (no kind byte)"
  | .handshakeProgress addr => .handshakeProgress addr
  | .handshakeComplete addr remoteStatic remotePeerId =>
      .handshakeComplete addr remoteStatic remotePeerId
  | .rejected addr reason => .hostRejected addr reason

variable (T) in
/-- The request an event brings, with the address it came from. -/
def asked : HostEvent → Option (UdpAddr × T.RequestId × String)
  | .datagramDelivered addr plaintext => (requestOf T plaintext).map fun request => (addr, request)
  | _ => none

@[simp] lemma requestOf_framed (body : Bytes) (id : T.RequestId) (payload : String) :
    requestOf T (framed body) = some (id, payload) ↔
      T.fromSlice body = .ok (.request id payload) := by
  change (if some MUX_KIND_RPC = some MUX_KIND_RPC then match T.fromSlice body with
    | .ok (.request id payload) => some (id, payload)
    | _ => none
    else none) = _ ↔ _
  rw [if_pos rfl]
  rcases T.fromSlice body with _ | (_ | _ | _) <;> simp

/-- A request is answered; anything else is reported. -/
lemma handleRpcDatagram_eq (host : Host C) (service : Serve T) (peer : UdpAddr)
    (plaintext : Bytes) :
    handleRpcDatagram host service peer plaintext =
      match requestOf T plaintext with
      | some (id, payload) => dispatchRequest host service peer id payload
      | none => Io.pure (host, reported (.datagramDelivered peer plaintext)) := by
  rw [handleRpcDatagram, requestOf, reported]
  cases plaintext with
  | nil => rfl
  | cons kind body =>
      simp only [List.head?_cons, Option.some.injEq]
      by_cases hkind : kind = MUX_KIND_RPC
      · simp only [if_pos hkind]
        rcases T.fromSlice ((sliceFrom (kind :: body) 1).getD []) with _ | (_ | _ | _) <;> rfl
      · simp only [if_neg hkind]

lemma serveOne_eq (host : Host C) (service : Serve T) (seed : Key) :
    serveOne host service seed = (host.recvOne seed).flatMap fun r =>
      match asked T r.2 with
      | some (addr, id, payload) => dispatchRequest r.1 service addr id payload
      | none => Io.pure (r.1, reported r.2) := by
  rw [serveOne]
  congr 1
  funext r
  obtain ⟨host', event⟩ := r
  cases event with
  | datagramDelivered addr plaintext =>
      simp only [handleRpcDatagram_eq, asked]
      cases requestOf T plaintext <;> rfl
  | _ => rfl

/-- A reply is on its way exactly when its envelope has a form that fits. -/
lemma dispatchRequest_succeeds_iff (hC : C.Seals) {host : Host C} {service : Serve T}
    {peer : UdpAddr} {id : T.RequestId} {payload : String} {w : World} (hw : w.SendsOk)
    (hest : host.isEstablished peer = true) (hnonce : host.NonceLeft peer) :
    (dispatchRequest host service peer id payload).Succeeds w ↔
      ∃ body, T.toVec (answer service id payload) = .ok body ∧
        body.length + 1 + TRANSPORT_OVERHEAD_LEN ≤ host.socket.maxSendPayload := by
  rw [dispatchRequest, Io.succeeds_flatMap_iff]
  simp only [Io.run_suspend, Prod.mk.injEq, Io.succeeds_map_iff, Except.mapError_eq_ok_iff]
  constructor
  · rintro ⟨body, w', ⟨hbody, rfl⟩, hsend⟩
    exact ⟨body, hbody, ((Host.send_succeeds_iff hC hw).mp hsend).2.2⟩
  · rintro ⟨body, hbody, hfit⟩
    exact ⟨body, w, ⟨hbody, rfl⟩, (Host.send_succeeds_iff hC hw).mpr ⟨hest, hnonce, hfit⟩⟩

/-- The request in the datagram a host is about to be handed. -/
def Pending (T : Tarpc) (host : Host C) (addr : UdpAddr) (datagram : Bytes) (id : T.RequestId)
    (payload : String) : Prop :=
  ∃ plaintext, host.opens addr (datagram.take host.socket.recvBufSize) = some plaintext ∧
    requestOf T plaintext = some (id, payload)

/-- The server survives a datagram exactly when its host does and, where the datagram brings a
request, the envelope of the answer has a form that fits into a datagram. -/
theorem serve_one_survives_iff (hC : C.Seals) {host : Host C} {service : Serve T} {seed : Key}
    {w : World} {addr : UdpAddr} {datagram : Bytes} (hw : w.SendsOk)
    (hnext : w.recvFrom 0 = .ok (addr, datagram)) (hnonce : host.NonceLeft addr) :
    (serveOne host service seed).Succeeds w ↔ (host.recvOne seed).Succeeds w ∧
      ∀ id payload, Pending T host addr datagram id payload →
        ∃ body, T.toVec (answer service id payload) = .ok body ∧
          body.length + 1 + TRANSPORT_OVERHEAD_LEN ≤ host.socket.maxSendPayload := by
  -- what is left after the receive of the host
  have hcont : ∀ {host' : Host C} {event : HostEvent} {w' : World},
      (host.recvOne seed).run w = (.ok (host', event), w') →
      ((match asked T event with
        | some (addr, id, payload) => dispatchRequest host' service addr id payload
        | none => Io.pure (host', reported event)).Succeeds w' ↔
      ∀ id payload, Pending T host addr datagram id payload →
        ∃ body, T.toVec (answer service id payload) = .ok body ∧
          body.length + 1 + TRANSPORT_OVERHEAD_LEN ≤ host.socket.maxSendPayload) := by
    intro host' event w' hrun
    obtain ⟨addr', datagram', reply, hnext', hin, rfl⟩ := recvOne_run_eq_ok hrun
    rw [hnext] at hnext'
    cases hnext'
    have hw' : World.SendsOk ((w.afterRecv addr
        (datagram.take host.socket.recvBufSize)).afterReply addr reply) := by
      cases reply with
      | none => exact hw
      | some b => exact World.SendsOk.afterSend hw addr b
    rcases hin.of_opens with ⟨plaintext, hopen, rfl, hest, -, hleft⟩ | ⟨hopen, hother⟩
    · simp only [Pending, hopen, Option.some.injEq, exists_eq_left', asked]
      cases hreq : requestOf T plaintext with
      | none => simp
      | some request =>
          obtain ⟨id, payload⟩ := request
          simp only [Option.map_some, Option.some.injEq, Prod.mk.injEq]
          rw [dispatchRequest_succeeds_iff hC hw' hest (hleft.mpr hnonce), hin.constants.2.2]
          simp
    · cases event with
      | datagramDelivered a plaintext => exact absurd rfl (hother a plaintext)
      | _ => simp [Pending, hopen, asked]
  rw [serveOne_eq, Io.succeeds_flatMap_iff]
  constructor
  · rintro ⟨⟨host', event⟩, w', hrun, hrest⟩
    exact ⟨⟨_, _, hrun⟩, (hcont hrun).mp hrest⟩
  · rintro ⟨⟨⟨host', event⟩, w', hrun⟩, hfits⟩
    exact ⟨_, _, hrun, (hcont hrun).mpr hfits⟩

/-- The sample request, and the answer to it. -/
def sampleRequest : Envelope UInt64 := .request 0 "\x7b\"message\":\"hello\"\x7d"

def sampleResponse : Envelope UInt64 := .response 0 "\x7b\"echo\":\"hello\"\x7d"

/-- Their JSON forms. -/
def requestJson : Bytes :=
  ofText ("\x7b\"Request\":\x7b\"id\":0,\"payload\":"
    ++ "\"\x7b\\\"message\\\":\\\"hello\\\"\x7d\"\x7d\x7d")

def responseJson : Bytes :=
  ofText ("\x7b\"Response\":\x7b\"id\":0,\"payload\":"
    ++ "\"\x7b\\\"echo\\\":\\\"hello\\\"\x7d\"\x7d\x7d")

/-- A framework that knows the two envelopes. -/
def sampleTarpc : Tarpc where
  RequestId := UInt64
  Error := String
  io e := e
  server e := e
  fromSerialize e := e
  fromDeserialize e := e
  display e := e
  toVec envelope :=
    if envelope = sampleRequest then .ok requestJson
    else if envelope = sampleResponse then .ok responseJson
    else .error "unknown"
  fromSlice body :=
    if body = requestJson then .ok sampleRequest
    else if body = responseJson then .ok sampleResponse
    else .error "expected value"

/-- The service that echoes. -/
def sampleService : Serve sampleTarpc where
  Request := String
  Response := String
  requestFromStr payload :=
    if payload = "\x7b\"message\":\"hello\"\x7d" then .ok "hello" else .error "expected value"
  handle request := .ok request
  responseToString response := .ok ("\x7b\"echo\":\"" ++ response ++ "\"\x7d")

lemma toVec_sampleRequest : sampleTarpc.toVec sampleRequest = .ok requestJson := by
  dsimp only [sampleTarpc]
  rw [if_pos rfl]

lemma sampleTarpc_codec (envelope : Envelope UInt64) (body : Bytes)
    (h : sampleTarpc.toVec envelope = .ok body) : sampleTarpc.fromSlice body = .ok envelope := by
  dsimp only [sampleTarpc] at h ⊢
  split at h
  · rename_i heq
    cases h
    exact heq ▸ if_pos rfl
  · split at h
    · rename_i heq
      cases h
      have hne : responseJson ≠ requestJson := by decide
      exact heq ▸ (if_neg hne).trans (if_pos rfl)
    · cases h

/-- The first datagram under a sample key. -/
def sampleSealed (key : UInt8) (plaintext : Bytes) : Bytes :=
  List.replicate 8 0 ++ (plaintext ++ (List.replicate 12 0 ++ List.replicate 4 key))

/-- The sample request comes, and the answer to it fits. -/
theorem serve_one_survives_sample :
    (serveOne (sampleEnd 2 1) sampleService (.replicate 32 0)).Succeeds
        (arrival sampleAddr (sampleSealed 1 (framed requestJson))) ∧
      ∃ body, sampleTarpc.toVec (answer sampleService (0 : UInt64)
          "\x7b\"message\":\"hello\"\x7d") = .ok body ∧
        body.length + 1 + TRANSPORT_OVERHEAD_LEN ≤ DEFAULT_MAX_DATAGRAM := by
  have hserve : ((serveOne (sampleEnd 2 1) sampleService (.replicate 32 0)).outcome
      (arrival sampleAddr (sampleSealed 1 (framed requestJson)))).isSome = true := by
    decide
  obtain ⟨⟨r, w⟩, houtcome⟩ := Option.isSome_iff_exists.mp hserve
  have hsucc := (⟨r, w, Io.run_of_outcome houtcome⟩ : Io.Succeeds _ _)
  have hleft : (sampleEnd 2 1).NonceLeft sampleAddr := by
    rintro conn hconn
    obtain rfl : sampleLinked 2 1 = conn := Option.some.inj hconn
    decide
  exact ⟨hsucc, ((serve_one_survives_iff sampleCrypto_agrees.seals (fun _ => rfl) rfl hleft).mp
    hsucc).2 (0 : UInt64) _ ⟨framed requestJson, by decide,
      (requestOf_framed _ _ _).mpr (sampleTarpc_codec sampleRequest _ toVec_sampleRequest)⟩⟩

end Libp2pCat.Rpc
