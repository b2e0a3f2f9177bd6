import Libp2pCat.Mux.Hearsay
import Libp2pCat.Pubsub.Fanout
import Libp2pCat.Rendezvous.Sessions

/-!
What the protocols that share a host send, and that none of them speaks for another.

* `Speaks kind`: the operation sends nothing but plaintexts of that kind; a bare byte is a punch of
  the rendezvous protocol.
* `Kad.follows_handleDatagram`: what a frame makes a node send.
* `Reacts`: what a multiplexer does with a plaintext, protocol by protocol;
  `MultiProtocolNode.follows_recvOne`: a receive is one of the host followed by such a reaction.
* `MultiProtocolNode.Step.exists_run`: every operation is a run of the host.
* `mux_isolates`: a plaintext of one kind is answered in that kind only and changes no state of
  another protocol, and whole runs of a multiplexer are runs of its host whose plaintexts are tagged.
-/

namespace Libp2pCat

open ByteString Effect Std Trace

variable {C : Crypto}

/-! ### The protocols -/

/-- The frame is answered with nothing, or with one frame to its source. -/
lemma Kad.follows_handleDatagram (host : Host C) (table : RoutingTable) (addr : UdpAddr)
    (plaintext : Bytes) (wrap : Bytes → Bytes) :
    Io.Follows Host.Step host (Kad.handleDatagram host table addr plaintext wrap) fun r l h =>
      h = r.1.host ∧ (l = [] ∨ ∃ bytes, l = [.send addr (wrap bytes)]) := by
  have hreply : ∀ (table : RoutingTable) (frame : Kad.Frame) (event : Kad.KadEvent),
      Io.Follows Host.Step host ((Io.suspend (Kad.encode frame)).flatMap fun bytes =>
        (host.send addr (wrap bytes)).map fun host => ((⟨host, table⟩ : Kad.KademliaNode C), event))
        fun r l h => h = r.1.host ∧ (l = [] ∨ ∃ bytes, l = [.send addr (wrap bytes)]) := by
    intro table frame event
    refine Io.follows_suspend_flatMap fun bytes _ => ((host.follows_send addr _).mono ?_).map
    rintro host' l h ⟨rfl, rfl, -⟩
    exact ⟨rfl, Or.inr ⟨bytes, rfl⟩⟩
  rw [Kad.handleDatagram]
  split
  · exact Io.follows_pure ⟨rfl, Or.inl rfl⟩
  · rename_i frame _
    cases frame with
    | pingReq => exact hreply (Kad.observe host table addr) .pingResp (.pingRequestReceived addr)
    | findNodeReq target =>
        let peers := (Kad.observe host table addr).closestTo target (Kad.observe host table addr).k
        exact hreply (Kad.observe host table addr) (.findNodeResp peers)
          (.findNodeRequestReceived addr target peers.length)
    | pingResp => exact Io.follows_pure ⟨rfl, Or.inl rfl⟩
    | findNodeResp peers => exact Io.follows_pure ⟨rfl, Or.inl rfl⟩

namespace Mux

variable {R : Pubsub.Rlnc} {A : Pubsub.PubsubAuth}

/-! ### One plaintext -/

/-- The operation sends nothing but plaintexts of the kind; the byte of a punch goes out bare. -/
def Speaks (kind : UInt8) : HostLabel → Prop
  | .send _ plaintext => plaintext.head? = some kind
  | .sendRaw _ bytes => kind = KIND_RENDEZVOUS ∧ bytes = [Rendezvous.PUNCH_BYTE]
  | _ => True

/-- What a multiplexer does with a plaintext: it answers in the kind of the plaintext, and only the
state of that protocol changes. -/
structure Reacts (node node' : MultiProtocolNode C R A) (plaintext : Bytes) (l : List HostLabel) :
    Prop where
  answers : ∀ x ∈ l, ∃ kind, plaintext.head? = some kind ∧ Speaks kind x
  silent : (∀ kind ∈ [KIND_PUBSUB, KIND_KAD, KIND_RENDEZVOUS], plaintext.head? ≠ some kind) → l = []
  pubsub : (∀ kind ∈ [KIND_APP, KIND_PUBSUB], plaintext.head? ≠ some kind) →
    node'.pubsubState = node.pubsubState
  kad : plaintext.head? ≠ some KIND_KAD → node'.kadTable = node.kadTable

lemma Reacts.of_nil {node node' : MultiProtocolNode C R A} {plaintext : Bytes}
    (hpubsub : node'.pubsubState = node.pubsubState) (hkad : node'.kadTable = node.kadTable) :
    Reacts node node' plaintext [] :=
  ⟨fun _ hx => (List.not_mem_nil hx).elim, fun _ => rfl, fun _ => hpubsub, fun _ => hkad⟩

section

variable {host : Host C} {pubsubState : Pubsub.PubsubState R A} {kadTable : RoutingTable}
  {addr : UdpAddr} {plaintext body : Bytes} {relayRng : ℕ → Except String Bytes}

/-- Application data changes no state and is not answered. -/
lemma app_silent {mux' : Pubsub.PubsubMux C R A} {event : Pubsub.MuxEvent} {w w' : World}
    (hkind : plaintext.head? = some KIND_APP)
    (h : (Pubsub.PubsubMux.processPlaintext ⟨host, pubsubState⟩ addr plaintext relayRng).run w
      = (.ok (mux', event), w')) :
    ∀ topic, event.relays topic = false := by
  rw [Pubsub.PubsubMux.processPlaintext, Pubsub.dispatchPlaintext, hkind] at h
  cases h
  exact fun _ => rfl

lemma follows_dispatchPubsub
    (hkind : plaintext.head? = some KIND_APP ∨ plaintext.head? = some KIND_PUBSUB) :
    Io.Follows Host.Step host
      (dispatchPubsub host pubsubState kadTable addr plaintext relayRng) fun r l h =>
        h = r.1.host ∧ Reacts ⟨host, pubsubState, kadTable⟩ r.1 plaintext l := by
  intro w r w' hrun
  obtain ⟨⟨mux', event⟩, hproc, rfl⟩ := Io.map_run_eq_ok.mp hrun
  obtain ⟨l, h, hsteps, rfl, hforwards⟩ := Pubsub.PubsubMux.follows_processPlaintext
    ⟨host, pubsubState⟩ addr plaintext relayRng w (mux', event) w' hproc
  refine ⟨l, mux'.host, hsteps, rfl, ?_, ?_, ?_, fun _ => rfl⟩
  · rcases hforwards with ⟨rfl, -⟩ | ⟨topic, frame, rfl, -, rfl⟩
    · exact fun x hx => (List.not_mem_nil hx).elim
    · intro x hx
      obtain ⟨a, -, rfl⟩ := List.mem_map.mp hx
      rcases hkind with happ | hpubsub
      · exact absurd (app_silent happ hproc topic) (by simp [Pubsub.MuxEvent.relays])
      · exact ⟨KIND_PUBSUB, hpubsub, rfl⟩
  · intro hno
    rcases hforwards with ⟨rfl, -⟩ | ⟨topic, frame, rfl, -, -⟩
    · rfl
    · rcases hkind with happ | hpubsub
      · exact absurd (app_silent happ hproc topic) (by simp [Pubsub.MuxEvent.relays])
      · exact absurd hpubsub (hno KIND_PUBSUB (by simp))
  · intro hno
    rcases hkind with happ | hpubsub
    · exact absurd happ (hno KIND_APP (by simp))
    · exact absurd hpubsub (hno KIND_PUBSUB (by simp))

lemma follows_dispatchKad (hkind : plaintext.head? = some KIND_KAD) :
    Io.Follows Host.Step host (dispatchKad host pubsubState kadTable addr body) fun r l h =>
      h = r.1.host ∧ Reacts ⟨host, pubsubState, kadTable⟩ r.1 plaintext l := by
  refine ((Kad.follows_handleDatagram host kadTable addr body (kindWrap KIND_KAD)).mono ?_).map
  rintro r l h ⟨rfl, hl⟩
  refine ⟨rfl, ?_, fun hno => absurd hkind (hno KIND_KAD (by simp)), fun _ => rfl,
    fun hno => absurd hkind hno⟩
  rcases hl with rfl | ⟨bytes, rfl⟩
  · exact fun x hx => (List.not_mem_nil hx).elim
  · intro x hx
    rw [List.mem_singleton.mp hx]
    exact ⟨KIND_KAD, hkind, rfl⟩

lemma follows_dispatchRendezvous (hkind : plaintext.head? = some KIND_RENDEZVOUS) :
    Io.Follows Host.Step host (dispatchRendezvous host pubsubState kadTable addr body) fun r l h =>
      h = r.1.host ∧ Reacts ⟨host, pubsubState, kadTable⟩ r.1 plaintext l := by
  refine ((Rendezvous.follows_handleDatagram host addr body
    (kindWrap KIND_RENDEZVOUS)).mono ?_).map
  rintro r l h ⟨rfl, -, hl⟩
  refine ⟨rfl, ?_, fun hno => absurd hkind (hno KIND_RENDEZVOUS (by simp)), fun _ => rfl,
    fun _ => rfl⟩
  intro x hx
  refine ⟨KIND_RENDEZVOUS, hkind, ?_⟩
  rcases hl with rfl | ⟨a, bytes, rfl⟩ | ⟨a, rfl⟩
  · exact (List.not_mem_nil hx).elim
  · rw [List.mem_singleton.mp hx]
    rfl
  · rw [List.mem_singleton.mp hx]
    exact ⟨rfl, rfl⟩

/-- A plaintext is handled by the protocol of its kind. -/
lemma follows_dispatchPlaintext :
    Io.Follows Host.Step host
      (dispatchPlaintext host pubsubState kadTable addr plaintext relayRng) fun r l h =>
        h = r.1.host ∧ Reacts ⟨host, pubsubState, kadTable⟩ r.1 plaintext l := by
  rw [dispatchPlaintext]
  split_ifs with hpubsub hkad hrendezvous
  · exact follows_dispatchPubsub hpubsub
  · exact follows_dispatchKad hkad
  · exact follows_dispatchRendezvous hrendezvous
  all_goals exact Io.follows_pure ⟨rfl, .of_nil rfl rfl⟩

end

/-! ### The operations -/

/-- What an operation that receives nothing makes the host do. -/
def Tagged (l : List HostLabel) : Prop :=
  ∀ x ∈ l, ∃ kind ∈ [KIND_APP, KIND_PUBSUB, KIND_KAD, KIND_RENDEZVOUS, KIND_RPC], Speaks kind x

lemma tagged_singleton (kind : UInt8) {x : HostLabel}
    (hkind : kind ∈ [KIND_APP, KIND_PUBSUB, KIND_KAD, KIND_RENDEZVOUS, KIND_RPC])
    (hx : Speaks kind x) : Tagged [x] := by
  intro y hy
  rw [List.mem_singleton.mp hy]
  exact ⟨kind, hkind, hx⟩

/-- Only three kinds are answered at all. -/
lemma Reacts.tagged {node node' : MultiProtocolNode C R A} {plaintext : Bytes} {l : List HostLabel}
    (h : Reacts node node' plaintext l) : Tagged l := by
  intro x hx
  obtain ⟨kind, hkind, hspeaks⟩ := h.answers x hx
  refine ⟨kind, ?_, hspeaks⟩
  by_contra hno
  have hnil : l = [] := by
    refine h.silent fun kind' hkind' heq => hno ?_
    obtain rfl : kind = kind' := Option.some.inj (hkind.symm.trans heq)
    simp only [List.mem_cons, List.not_mem_nil, or_false] at hkind' ⊢
    tauto
  rw [hnil] at hx
  cases hx

namespace MultiProtocolNode

variable (node : MultiProtocolNode C R A)

/-- A receive is a receive of the host, and the reaction to the plaintext it delivered. -/
lemma follows_recvOne (seed : Key) (relayRng : ℕ → Except String Bytes) :
    Io.Follows Host.Step node.host (node.recvOne seed relayRng) fun r l h =>
      h = r.1.host ∧ ∃ event l', l = .recvOne seed event :: l' ∧
        ((∃ (host : Host C) (addr : UdpAddr) (plaintext : Bytes),
            event = .datagramDelivered addr plaintext ∧
            Reacts ⟨host, node.pubsubState, node.kadTable⟩ r.1 plaintext l') ∨
          ((∀ addr plaintext, event ≠ .datagramDelivered addr plaintext) ∧ l' = [] ∧
            r.1.pubsubState = node.pubsubState)) := by
  refine (node.host.follows_recvOne seed).flatMap ?_
  rintro ⟨host, event⟩ l h ⟨rfl, rfl⟩
  cases event with
  | datagramDelivered addr plaintext =>
      refine follows_dispatchPlaintext.mono ?_
      rintro r l h ⟨hhost, hreacts⟩
      exact ⟨hhost, _, l, rfl, Or.inl ⟨_, addr, plaintext, rfl, hreacts⟩⟩
  | _ => exact Io.follows_pure ⟨rfl, _, [], rfl, Or.inr ⟨by simp, rfl, rfl⟩⟩

lemma follows_sendKadFrame (peer : UdpAddr) (frame : Kad.Frame) :
    Io.Follows Host.Step node.host (node.sendKadFrame peer frame) fun node' l h =>
      h = node'.host ∧ Tagged l := by
  refine Io.follows_suspend_flatMap fun body _ => ((node.host.follows_send peer _).mono ?_).map
  rintro host l h ⟨rfl, rfl, -⟩
  exact ⟨rfl, tagged_singleton KIND_KAD (by simp) rfl⟩

lemma follows_sendRendezvousFrame (peer : UdpAddr) (frame : Rendezvous.Frame) :
    Io.Follows Host.Step node.host (node.sendRendezvousFrame peer frame) fun node' l h =>
      h = node'.host ∧ Tagged l := by
  refine Io.follows_suspend_flatMap fun body _ => ((node.host.follows_send peer _).mono ?_).map
  rintro host l h ⟨rfl, rfl, -⟩
  exact ⟨rfl, tagged_singleton KIND_RENDEZVOUS (by simp) rfl⟩

/-- Every operation is a run of the host. -/
lemma Step.exists_run {s s' : MultiProtocolNode C R A × World} {l : Option Kad.KadEvent}
    (h : Step s l s') :
    ∃ ops, Run Host.Step (s.1.host, s.2) ops (s'.1.host, s'.2) ∧ Tagged ops := by
  have hfollows : ∀ {α : Type} {x : Io World Error α} {p : α → Host C} {host : Host C} {w w' a},
      Io.Follows Host.Step host x (fun a l h => h = p a ∧ Tagged l) → x.run w = (.ok a, w') →
      ∃ ops, Run Host.Step (host, w) ops (p a, w') ∧ Tagged ops := by
    intro α x p host w w' a hx hrun
    obtain ⟨ops, _, hsteps, rfl, htagged⟩ := hx w a w' hrun
    exact ⟨ops, hsteps, htagged⟩
  have hnothing : ∀ (x : Host C × World), ∃ ops, Run Host.Step x ops x ∧ Tagged ops :=
    fun x => ⟨[], .nil _, fun _ hx => (List.not_mem_nil hx).elim⟩
  cases h with
  | @dial node _ _ _ addr seed hrun =>
      refine hfollows ((node.host.follows_dial addr seed).mono ?_).map hrun
      rintro host l h ⟨rfl, rfl⟩
      exact ⟨rfl, tagged_singleton KIND_APP (by simp) trivial⟩
  | @sendApp node _ _ _ addr payload hrun =>
      refine hfollows (Io.Follows.map (Io.Follows.map
        ((node.host.follows_send addr (prefixKind KIND_APP payload)).mono ?_))) hrun
      rintro host l h ⟨rfl, rfl, -⟩
      exact ⟨rfl, tagged_singleton KIND_APP (by simp) rfl⟩
  | @broadcast node _ _ _ topic k b pieces hrun =>
      refine hfollows ((Pubsub.PubsubMux.follows_broadcast ⟨node.host, node.pubsubState⟩ topic k b
        pieces).mono ?_).map hrun
      rintro mux l h ⟨rfl, -, coded, frames, -, -, rfl⟩
      refine ⟨rfl, fun x hx => ⟨KIND_PUBSUB, by simp, ?_⟩⟩
      obtain ⟨frame, -, hx⟩ := List.mem_flatMap.mp hx
      obtain ⟨a, -, rfl⟩ := List.mem_map.mp hx
      rfl
  | kadPing hrun => exact hfollows (follows_sendKadFrame _ _ _) hrun
  | kadFindNode hrun => exact hfollows (follows_sendKadFrame _ _ _) hrun
  | @sendRpc node _ _ _ peer body hrun =>
      refine hfollows ((node.host.follows_send peer (prefixKind KIND_RPC body)).mono ?_).map hrun
      rintro host l h ⟨rfl, rfl, -⟩
      exact ⟨rfl, tagged_singleton KIND_RPC (by simp) rfl⟩
  | sendObserveReq hrun => exact hfollows (follows_sendRendezvousFrame _ _ _) hrun
  | sendPunchReq hrun => exact hfollows (follows_sendRendezvousFrame _ _ _) hrun
  | @recvOne node node' _ _ seed relayRng event hrun =>
      obtain ⟨ops, host, hsteps, rfl, hostEvent, l, rfl, hcase⟩ :=
        node.follows_recvOne seed relayRng _ _ _ hrun
      refine ⟨_, hsteps, fun x hx => ?_⟩
      rcases List.mem_cons.mp hx with rfl | hx
      · exact ⟨KIND_APP, by simp, trivial⟩
      · rcases hcase with ⟨_, addr, plaintext, -, hreacts⟩ | ⟨-, rfl, -⟩
        · exact hreacts.tagged x hx
        · cases hx
  | _ => exact hnothing _

end MultiProtocolNode

/-- Protocols that share a host do not mix.  A receive is one receive of the host and what the node
makes of the plaintext it delivered: every answer is a plaintext of the same kind, only pubsub, kad
and rendezvous plaintexts are answered, pubsub and application data alone touch the topics and kad
alone the routing table; whatever else the host came to is not answered and touches no topic.  And
every run of a multiplexer is a run of its host whose plaintexts all carry one of the five kinds and
whose bare datagrams are all the one byte of a punch. -/
theorem mux_isolates :
    (∀ (node node' : MultiProtocolNode C R A) seed relayRng event w w',
      (node.recvOne seed relayRng).run w = (.ok (node', event), w') →
      ∃ hostEvent l, Run Host.Step (node.host, w) (.recvOne seed hostEvent :: l) (node'.host, w') ∧
        ((∃ addr plaintext, hostEvent = .datagramDelivered addr plaintext ∧
            Reacts node node' plaintext l) ∨
          ((∀ addr plaintext, hostEvent ≠ .datagramDelivered addr plaintext) ∧ l = [] ∧
            node'.pubsubState = node.pubsubState))) ∧
    (∀ (s s' : MultiProtocolNode C R A × World) labels, Run MultiProtocolNode.Step s labels s' →
      ∃ ops, Run Host.Step (s.1.host, s.2) ops (s'.1.host, s'.2) ∧ Tagged ops) := by
  refine ⟨fun node node' seed relayRng event w w' h => ?_, fun s s' labels h => ?_⟩
  · obtain ⟨_, host, hsteps, rfl, hostEvent, l, rfl, hcase⟩ :=
      node.follows_recvOne seed relayRng w (node', event) w' h
    refine ⟨hostEvent, l, hsteps, ?_⟩
    rcases hcase with ⟨_, addr, plaintext, hevent, hreacts⟩ | hother
    · exact Or.inl ⟨addr, plaintext, hevent,
        hreacts.answers, hreacts.silent, hreacts.pubsub, hreacts.kad⟩
    · exact Or.inr hother
  · induction h with
    | nil => exact ⟨[], .nil _, fun _ hx => (List.not_mem_nil hx).elim⟩
    | snoc _ hstep ih =>
        obtain ⟨ops, hrun, htagged⟩ := ih
        obtain ⟨ops', hrun', htagged'⟩ := hstep.exists_run
        refine ⟨ops ++ ops', hrun.append hrun', fun x hx => ?_⟩
        rcases List.mem_append.mp hx with hx | hx
        · exact htagged x hx
        · exact htagged' x hx

/-- A node whose sample peer asks it with a ping. -/
def samplePinged :
    MultiProtocolNode sampleCrypto Pubsub.sampleRlnc Pubsub.nullAuthenticator × World :=
  (.new (sampleEnd 2 1) 20, arrival sampleAddr (List.replicate 8 0 ++
    ([KIND_KAD, Kad.Opcode.pingReq.toByte] ++ (List.replicate 12 0 ++ [1, 1, 1, 1]))))

/-- A ping is answered with one datagram, and whatever the host sent for it is a kad plaintext. -/
theorem mux_isolates_sample :
    ∃ (s : MultiProtocolNode sampleCrypto Pubsub.sampleRlnc Pubsub.nullAuthenticator × World)
      (seed : Key) (l : List HostLabel),
      MultiProtocolNode.Step samplePinged (some (.pingRequestReceived sampleAddr)) s ∧
      s.2.sent.map Prod.fst = [sampleAddr] ∧ (∀ x ∈ l, Speaks KIND_KAD x) ∧
      Run Host.Step (samplePinged.1.host, samplePinged.2) (.recvOne seed
        (.datagramDelivered sampleAddr [KIND_KAD, Kad.Opcode.pingReq.toByte]) :: l)
        (s.1.host, s.2) := by
  let seed : Key := .replicate 32 4
  have hrecv : ((samplePinged.1.recvOne seed fun _ => .ok []).outcome samplePinged.2).map
      (fun r => (r.1.2, r.2.sent.map Prod.fst))
        = some (.kadPingRequestReceived sampleAddr, [sampleAddr]) := by decide
  have hhost : (Host.recvOutcome (samplePinged.1.host, samplePinged.2) seed).map Prod.fst
      = some (.datagramDelivered sampleAddr [KIND_KAD, Kad.Opcode.pingReq.toByte]) := by
    decide
  obtain ⟨⟨⟨node, event⟩, w⟩, houtcome, hchecks⟩ := Option.map_eq_some_iff.mp hrecv
  obtain ⟨rfl, hsent⟩ := Prod.mk.inj hchecks
  have hrun := Io.run_of_outcome houtcome
  obtain ⟨hostEvent, l, hsteps, hcase⟩ := mux_isolates.1 _ _ _ _ _ _ _ hrun
  -- the host hands over the plaintext of the ping
  obtain ⟨t, hfirst, -⟩ := hsteps.exists_of_cons
  cases hfirst with
  | recvOne hrun₁ =>
      simp only [Host.recvOutcome, hrun₁, Option.map_some, Option.some.injEq] at hhost
      subst hhost
      rcases hcase with ⟨addr, plaintext, heq, hreacts⟩ | ⟨hno, -⟩
      · cases heq
        refine ⟨(node, w), seed, l, .recvOne hrun, hsent, fun x hx => ?_, hsteps⟩
        obtain ⟨kind, hkind, hspeaks⟩ := hreacts.answers x hx
        cases hkind
        exact hspeaks
      · exact absurd rfl (hno _ _)

end Mux

end Libp2pCat
