import Libp2pCat.Rendezvous.Sessions

/-!
Relays between three hosts, over every interleaving of what they do.

* `payloadFor`, `payloadFrom`: the payload of a request to relay to an address, and of a relayed
  frame that names its originator.
* `DistinctOnWire`: relayed frames tell the source of a request from other sources.
* `RelayTurn`: what a server does with its host at a time; `follows_recvOne_turns`: its receives are
  such turns.
* `Trio`: the channel from an asker to a server and the one from the server to a target.
* `relayed_at_most_once`: the target is handed, under the address the server sees the asker at, only
  payloads that the asker wanted relayed to it, each at most as often.
-/

namespace Libp2pCat.Rendezvous

open ByteString Effect Std Trace

variable {C : Crypto}

/-! ### What is relayed -/

/-- The payload a request wants relayed to an address. -/
def payloadFor (target : UdpAddr) (plaintext : Bytes) : Option Bytes :=
  match decode plaintext with
  | .ok (.relayDataReq target' payload) => if target' = target then some payload else none
  | _ => none

/-- The payload a relayed frame brings from an originator. -/
def payloadFrom (originator : UdpAddr) (plaintext : Bytes) : Option Bytes :=
  match decode plaintext with
  | .ok (.relayDataDeliver originator' payload) =>
      if originator' = originator then some payload else none
  | _ => none

/-- The payload a host wants the server to relay to the target in an operation. -/
def wanted (server target : UdpAddr) (label : HostLabel) : Option Bytes :=
  (label.sentTo server).bind (payloadFor target)

/-- The payload a server is asked by a source to relay to the target in an operation. -/
def asked (source target : UdpAddr) (label : HostLabel) : Option Bytes :=
  (label.handedFrom source).bind (payloadFor target)

/-- The payload of a source that a server passes on to the target in an operation. -/
def passed (source target : UdpAddr) (label : HostLabel) : Option Bytes :=
  (label.sentTo target).bind (payloadFrom source.onWire)

/-- The payload of a source that a host is handed by the server in an operation. -/
def relayed (server source : UdpAddr) (label : HostLabel) : Option Bytes :=
  (label.handedFrom server).bind (payloadFrom source.onWire)

/-- A relayed frame names its originator without flow label and scope.  In this operation no other
source asks to relay to the target that reads the same there. -/
def DistinctOnWire (source target : UdpAddr) (label : HostLabel) : Prop :=
  ∀ addr, (asked addr target label).isSome → addr.onWire = source.onWire → addr = source

/-- What a server does with its host at a time: it is handed a request to relay and passes the
payload on, or it does something else than sending a relayed frame. -/
inductive RelayTurn : List HostLabel → Prop where
  | forward {seed : Key} {source target : UdpAddr} {plaintext payload bytes : Bytes} :
      decode plaintext = .ok (.relayDataReq target payload) →
      encode (.relayDataDeliver source payload) = .ok bytes →
      RelayTurn [.recvOne seed (.datagramDelivered source plaintext), .send target bytes]
  | other {label : HostLabel} :
      (∀ addr plaintext, label = .send addr plaintext →
        ∀ originator, payloadFrom originator plaintext = none) →
      RelayTurn [label]

/-- Every other frame says nothing about payloads. -/
lemma payloadFrom_of_encode {frame : Frame} {bytes : Bytes} (henc : encode frame = .ok bytes)
    (hother : ∀ originator payload, frame ≠ .relayDataDeliver originator payload)
    (originator : UdpAddr) : payloadFrom originator bytes = none := by
  rw [payloadFrom, decode_of_encode henc]
  cases frame with
  | relayDataDeliver originator' payload => exact absurd rfl (hother originator' payload)
  | _ => rfl

/-- A receive that is followed by nothing, or by something else than a relayed frame. -/
lemma exists_turns {seed : Key} {event : HostEvent} {labels : List HostLabel}
    (h : ∀ label ∈ labels, ∀ addr plaintext, label = .send addr plaintext →
      ∀ originator, payloadFrom originator plaintext = none) :
    ∃ turns : List (List HostLabel), (∀ turn ∈ turns, RelayTurn turn) ∧
      .recvOne seed event :: labels = turns.flatten := by
  refine ⟨[.recvOne seed event] :: labels.map fun label => [label], ?_, ?_⟩
  · rintro turn hturn
    rcases List.mem_cons.mp hturn with rfl | hturn
    · exact .other (by rintro _ _ ⟨⟩)
    · obtain ⟨label, hlabel, rfl⟩ := List.mem_map.mp hturn
      exact .other (h label hlabel)
  · rw [List.flatten_cons, ← List.flatMap_def, List.flatMap_singleton']
    rfl

/-- What a server makes of a plaintext: it passes a payload on, or it sends at most one frame that
is none. -/
lemma follows_handleDatagram_turns (host : Host C) (addr : UdpAddr) (plaintext : Bytes)
    (seed : Key) :
    Io.Follows Host.Step host (handleDatagram host addr plaintext id) fun r l h =>
      h = r.1.host ∧ ∃ turns : List (List HostLabel), (∀ turn ∈ turns, RelayTurn turn) ∧
        .recvOne seed (.datagramDelivered addr plaintext) :: l = turns.flatten := by
  have hquiet : ∀ (r : RendezvousNode C × RendezvousEvent), host = r.1.host →
      Io.Follows Host.Step host (Io.pure r : Io World Error _) fun r l h =>
        h = r.1.host ∧ ∃ turns : List (List HostLabel), (∀ turn ∈ turns, RelayTurn turn) ∧
          .recvOne seed (.datagramDelivered addr plaintext) :: l = turns.flatten :=
    fun r hr => Io.follows_pure ⟨hr, exists_turns (by rintro _ ⟨⟩)⟩
  have hreply : ∀ (a : UdpAddr) (frame : Frame) (event : RendezvousEvent),
      (∀ originator payload, frame ≠ .relayDataDeliver originator payload) →
      Io.Follows Host.Step host ((Io.suspend (encode frame)).flatMap fun bytes =>
        (host.send a (id bytes)).map fun host => ((⟨host⟩ : RendezvousNode C), event))
        fun r l h => h = r.1.host ∧
          ∃ turns : List (List HostLabel), (∀ turn ∈ turns, RelayTurn turn) ∧
            .recvOne seed (.datagramDelivered addr plaintext) :: l = turns.flatten := by
    intro a frame event hother
    refine Io.follows_suspend_flatMap fun bytes henc => ((host.follows_send a _).mono ?_).map
    rintro host' l h ⟨rfl, rfl, -⟩
    refine ⟨rfl, exists_turns fun label hlabel a' p hsend => ?_⟩
    rw [List.mem_singleton.mp hlabel] at hsend
    cases hsend
    exact payloadFrom_of_encode henc hother
  rw [handleDatagram]
  split
  · exact hquiet _ rfl
  · exact hreply _ _ _ (by rintro _ _ ⟨⟩)
  · exact hquiet _ rfl
  · rw [autoForwardPunch]
    split
    · exact hreply _ _ _ (by rintro _ _ ⟨⟩)
    · exact hquiet _ rfl
  · rename_i initiator _
    refine ((host.follows_sendRaw initiator _).mono ?_).map
    rintro host' l h ⟨rfl, rfl⟩
    refine ⟨rfl, exists_turns fun label hlabel a' p hsend => ?_⟩
    rw [List.mem_singleton.mp hlabel] at hsend
    cases hsend
  · rename_i target payload hdecode
    rw [autoForwardRelay]
    split
    · -- the payload is passed on
      refine Io.follows_suspend_flatMap fun bytes henc => ((host.follows_send target _).mono ?_).map
      rintro host' l h ⟨rfl, rfl, -⟩
      exact ⟨rfl, [[_, _]], List.forall_mem_singleton.mpr (.forward hdecode henc), rfl⟩
    · exact hreply _ _ _ (by rintro _ _ ⟨⟩)
  · exact hquiet _ rfl
  · exact hquiet _ rfl

/-- A receive of a server is made of such turns. -/
lemma RendezvousNode.follows_recvOne_turns (node : RendezvousNode C) (seed : Key) :
    Io.Follows Host.Step node.host (node.recvOne seed) fun r l h => h = r.1.host ∧
      ∃ turns : List (List HostLabel), (∀ turn ∈ turns, RelayTurn turn) ∧ l = turns.flatten := by
  refine (node.host.follows_recvOne seed).flatMap ?_
  rintro ⟨host, hostEvent⟩ l h ⟨rfl, rfl⟩
  cases hostEvent with
  | datagramDelivered addr plaintext => exact follows_handleDatagram_turns _ addr plaintext seed
  | _ => exact Io.follows_pure ⟨rfl, exists_turns (by rintro _ ⟨⟩)⟩

/-- Over one turn, the payloads of an originator sent to a target are among those its requests want
relayed there. -/
lemma RelayTurn.passed_sublist {labels : List HostLabel} (h : RelayTurn labels)
    {source target : UdpAddr} (hsource : ∀ label ∈ labels, DistinctOnWire source target label) :
    (labels.filterMap (passed source target)).Sublist
      (labels.filterMap (asked source target)) := by
  cases h with
  | @forward seed source' target' plaintext payload bytes hdecode henc =>
      have htold : payloadFrom source.onWire bytes =
          if source'.onWire = source.onWire then some payload else none := by
        rw [payloadFrom, decode_of_encode henc]
        rfl
      have hasked : payloadFor target plaintext =
          if target' = target then some payload else none := by
        rw [payloadFor, hdecode]
      by_cases htarget : target' = target
      · by_cases hwire : source'.onWire = source.onWire
        · have hrequest : (asked source' target
              (.recvOne seed (.datagramDelivered source' plaintext))).isSome := by
            simp [asked, HostLabel.handedFrom, ChannelLabel.handed, hasked, htarget]
          obtain rfl := hsource _ List.mem_cons_self source' hrequest hwire
          simp [passed, asked, HostLabel.sentTo, HostLabel.handedFrom, ChannelLabel.sent,
            ChannelLabel.handed, List.filterMap_cons, htarget, htold, hasked]
        · simp [passed, HostLabel.sentTo, ChannelLabel.sent, List.filterMap_cons, htarget, htold,
            hwire]
      · simp [passed, HostLabel.sentTo, ChannelLabel.sent, List.filterMap_cons, htarget]
  | @other label hquiet =>
      have hnone : passed source target label = none := by
        cases label with
        | send addr plaintext =>
            rw [passed, HostLabel.sentTo, ChannelLabel.sent]
            split
            · exact hquiet addr plaintext rfl _
            · rfl
        | _ => rfl
      rw [List.filterMap_cons_none hnone]
      exact List.nil_sublist _

lemma passed_sublist_of_turns {turns : List (List HostLabel)} (h : ∀ turn ∈ turns, RelayTurn turn)
    {source target : UdpAddr}
    (hsource : ∀ label ∈ turns.flatten, DistinctOnWire source target label) :
    (turns.flatten.filterMap (passed source target)).Sublist
      (turns.flatten.filterMap (asked source target)) := by
  induction turns with
  | nil => exact List.nil_sublist _
  | cons turn turns ih =>
      rw [List.flatten_cons] at hsource ⊢
      rw [List.filterMap_append, List.filterMap_append]
      obtain ⟨hturn, hturns⟩ := List.forall_mem_append.mp hsource
      exact ((h turn List.mem_cons_self).passed_sublist hturn).append
        (ih (fun t ht => h t (List.mem_cons_of_mem _ ht)) hturns)

/-! ### Three hosts -/

variable (C) in
/-- The channel from an asker to a server, and the one from the server to a target. -/
structure Trio where
  toServer : Channel C
  toTarget : Channel C

/-- An operation of one of the three hosts. -/
inductive TrioLabel where
  | asker (label : HostLabel)
  | server (label : HostLabel)
  | target (label : HostLabel)

namespace TrioLabel

/-- The operation as one of the channel to the server, if it is one. -/
def toServer : TrioLabel → Option ChannelLabel
  | asker label => some (.sender label)
  | server label => some (.receiver label)
  | target _ => none

def toTarget : TrioLabel → Option ChannelLabel
  | asker _ => none
  | server label => some (.sender label)
  | target label => some (.receiver label)

/-- The operation, if it is the asker's. -/
def ofAsker : TrioLabel → Option HostLabel
  | asker label => some label
  | _ => none

def ofServer : TrioLabel → Option HostLabel
  | server label => some label
  | _ => none

def ofTarget : TrioLabel → Option HostLabel
  | target label => some label
  | _ => none

end TrioLabel

/-- One operation of one of the hosts, as both channels see it.  The server has the asker at `addrA`
and the target at `addrB`, and they have it at `addrS` and `addrS'`. -/
structure Trio.Step (addrA addrS addrS' addrB : UdpAddr) (d : Trio C) (l : TrioLabel)
    (d' : Trio C) : Prop where
  toServer : ∀ m, l.toServer = some m → Channel.Step addrA addrS d.toServer m d'.toServer
  toTarget : ∀ m, l.toTarget = some m → Channel.Step addrS' addrB d.toTarget m d'.toTarget
  awayFromServer : l.toServer = none → d'.toServer = d.toServer
  awayFromTarget : l.toTarget = none → d'.toTarget = d.toTarget
  server : d'.toTarget.sender = d'.toServer.receiver

/-- Three hosts that have sent each other nothing yet. -/
def Trio.start (a s b : Host C × World) : Trio C := ⟨⟨a, s, [], []⟩, ⟨s, b, [], []⟩⟩

/-- An asker, a server and a target, with a session between the asker and the server and one between
the server and the target, and between them a network that loses, repeats, delays and reorders
datagrams as it likes.  If the server sends relayed frames only to pass payloads on, then over any
run the payloads that the target is handed under the address the server sees the asker at are among
those that the asker wanted relayed to it, each at most as often, if no other source whose address
reads the same in a relayed frame asks the server to relay to the target. -/
theorem relayed_at_most_once (hC : C.Agrees) {addrA addrS addrS' addrB : UdpAddr}
    {a s b : Host C × World}
    {connA connS connS' connB : EstablishedConnection}
    (hA : a.1.established[addrS]? = some connA) (hS : s.1.established[addrA]? = some connS)
    (hmirror : connA.transport.Mirrored connS.transport)
    (hS' : s.1.established[addrB]? = some connS') (hB : b.1.established[addrS']? = some connB)
    (hmirror' : connS'.transport.Mirrored connB.transport) {labels : List TrioLabel} {d : Trio C}
    (hrun : Run (Trio.Step addrA addrS addrS' addrB) (Trio.start a s b) labels d)
    {turns : List (List HostLabel)} (hturns : ∀ turn ∈ turns, RelayTurn turn)
    (hserves : labels.filterMap TrioLabel.ofServer = turns.flatten)
    (hsource : ∀ label ∈ labels.filterMap TrioLabel.ofServer,
      DistinctOnWire addrA addrB label) :
    ((labels.filterMap TrioLabel.ofTarget).filterMap (relayed addrS' addrA)).Subperm
      ((labels.filterMap TrioLabel.ofAsker).filterMap (wanted addrS addrB)) := by
  have hthere := Channel.handed_subperm hC hA hS hmirror
    (hrun.relabelSome Trio.toServer TrioLabel.toServer (fun _ _ _ m h hm => h.toServer m hm)
      fun _ _ _ h => h.awayFromServer)
  have hon := Channel.handed_subperm hC hS' hB hmirror'
    (hrun.relabelSome Trio.toTarget TrioLabel.toTarget (fun _ _ _ m h hm => h.toTarget m hm)
      fun _ _ _ h => h.awayFromTarget)
  -- what the channels are told of the operations is what the hosts did
  have hhost : ∀ {side : TrioLabel → Option ChannelLabel} {of : TrioLabel → Option HostLabel}
      {f : ChannelLabel → Option Bytes} {g : HostLabel → Option Bytes},
      (∀ l, (side l).bind f = (of l).bind g) →
      (labels.filterMap side).filterMap f = (labels.filterMap of).filterMap g := by
    intro side of f g h
    rw [List.filterMap_filterMap, List.filterMap_filterMap]
    exact congrArg (fun f => labels.filterMap f) (funext h)
  have hasked : (labels.filterMap TrioLabel.toServer).filterMap (ChannelLabel.sent addrS) =
      (labels.filterMap TrioLabel.ofAsker).filterMap (HostLabel.sentTo addrS) :=
    hhost (by rintro (_ | _ | _) <;> rfl)
  have hgot : (labels.filterMap TrioLabel.toServer).filterMap (ChannelLabel.handed addrA) =
      (labels.filterMap TrioLabel.ofServer).filterMap (HostLabel.handedFrom addrA) :=
    hhost (by rintro (_ | _ | _) <;> rfl)
  have hpassed : (labels.filterMap TrioLabel.toTarget).filterMap (ChannelLabel.sent addrB) =
      (labels.filterMap TrioLabel.ofServer).filterMap (HostLabel.sentTo addrB) :=
    hhost (by rintro (_ | _ | _) <;> rfl)
  have hheard : (labels.filterMap TrioLabel.toTarget).filterMap (ChannelLabel.handed addrS') =
      (labels.filterMap TrioLabel.ofTarget).filterMap (HostLabel.handedFrom addrS') :=
    hhost (by rintro (_ | _ | _) <;> rfl)
  rw [hgot, hasked] at hthere
  rw [hheard, hpassed] at hon
  generalize labels.filterMap TrioLabel.ofServer = onServer at *
  generalize labels.filterMap TrioLabel.ofAsker = onAsker at *
  generalize labels.filterMap TrioLabel.ofTarget = onTarget at *
  have hrelayed := subperm_filterMap (payloadFrom addrA.onWire) hon
  have hwanted := subperm_filterMap (payloadFor addrB) hthere
  rw [List.filterMap_filterMap, List.filterMap_filterMap] at hrelayed hwanted
  have hpasses : List.Subperm (turns.flatten.filterMap (passed addrA addrB))
      (turns.flatten.filterMap (asked addrA addrB)) :=
    (passed_sublist_of_turns hturns (hserves ▸ hsource)).subperm
  rw [← hserves] at hpasses
  exact (hrelayed.trans hpasses).trans hwanted

/-! ### A sample relay -/

/-- A link-local address, with the scope that the server's socket reports. -/
def askerAddr : UdpAddr :=
  .v6 ⟨⟨[0xfe, 0x80, 0, 0, 0, 0, 0, 0, 0, 0, 0, 0, 0, 0, 0, 2], rfl⟩, 9, 0, 3⟩

/-- A server with a connection to the asker and one to the target. -/
def relayServer : Host sampleCrypto :=
  let peers := [(askerAddr, sampleLinked 2 1), (otherAddr, sampleLinked 3 4)]
  { sampleHost 2 with established := .ofList peers }

def relayRequest : Frame := .relayDataReq otherAddr [7]

def relayDelivery : Frame := .relayDataDeliver askerAddr [7]

/-- The plaintext of a frame. -/
def plaintextOf (frame : Frame) : Bytes := (encode frame).toOption.getD []

/-- The operations of the sample relay. -/
def sampleRelay : List TrioLabel :=
  [.asker (.send sampleAddr (plaintextOf relayRequest)),
    .server (.recvOne (.replicate 32 0)
      (.datagramDelivered askerAddr (plaintextOf relayRequest))),
    .server (.send otherAddr (plaintextOf relayDelivery)),
    .target (.recvOne (.replicate 32 0)
      (.datagramDelivered sampleAddr (plaintextOf relayDelivery)))]

/-- The turn of the sample server. -/
lemma sampleRelayTurn : RelayTurn
    [.recvOne (.replicate 32 0) (.datagramDelivered askerAddr (plaintextOf relayRequest)),
      .send otherAddr (plaintextOf relayDelivery)] := by
  have hrequest : encode relayRequest = .ok (plaintextOf relayRequest) := by rfl
  have hdelivery : encode relayDelivery = .ok (plaintextOf relayDelivery) := by rfl
  exact .forward (decode_of_encode hrequest) hdelivery

/-- The sample payload is relayed once. -/
theorem relayed_at_most_once_sample :
    ∃ d : Trio sampleCrypto,
      Run (Trio.Step askerAddr sampleAddr sampleAddr otherAddr) (Trio.start
        (sampleEnd 1 2, .quiet)
        (relayServer, arrival askerAddr (sampleFrame 1 relayRequest))
        (sampleEnd 4 3, arrival sampleAddr (sampleFrame 3 relayDelivery))) sampleRelay d ∧
      ((sampleRelay.filterMap TrioLabel.ofTarget).filterMap
          (relayed sampleAddr askerAddr)).Subperm
        ((sampleRelay.filterMap TrioLabel.ofAsker).filterMap (wanted sampleAddr otherAddr)) := by
  let asker₀ : Host sampleCrypto × World := (sampleEnd 1 2, .quiet)
  let server₀ : Host sampleCrypto × World :=
    (relayServer, arrival askerAddr (sampleFrame 1 relayRequest))
  let target₀ : Host sampleCrypto × World :=
    (sampleEnd 4 3, arrival sampleAddr (sampleFrame 3 relayDelivery))
  have hasker : ((asker₀.1.send sampleAddr (plaintextOf relayRequest)).outcome asker₀.2).map
      (fun s => (s.2.sent, s.1.isEstablished sampleAddr))
      = some ([(sampleAddr, sampleFrame 1 relayRequest)], true) := by decide
  have hserver : ((Host.recvOutcome server₀ (.replicate 32 0)).bind fun r =>
      ((r.2.1.send otherAddr (plaintextOf relayDelivery)).outcome r.2.2).map fun s =>
        ([r.2.2.sent, s.2.sent], [r.2.1, s.1].map fun h =>
          (h.isEstablished askerAddr, h.isEstablished otherAddr), r.1))
      = some ([[], [(otherAddr, sampleFrame 3 relayDelivery)]], [(true, true), (true, true)],
        .datagramDelivered askerAddr (plaintextOf relayRequest)) := by decide
  have htarget : (Host.recvOutcome target₀ (.replicate 32 0)).map
      (fun r => (r.2.1.isEstablished sampleAddr, r.1))
      = some (true, .datagramDelivered sampleAddr (plaintextOf relayDelivery)) := by
    decide
  obtain ⟨asker₁, hsend, heq⟩ := Option.map_eq_some_iff.mp hasker
  obtain ⟨hsent, hasker₁⟩ := Prod.mk.inj heq
  obtain ⟨⟨event, server₁⟩, hrecv, hrest⟩ := Option.bind_eq_some_iff.mp hserver
  obtain ⟨server₂, hpass, hall⟩ := Option.map_eq_some_iff.mp hrest
  simp only [List.map_cons, List.map_nil, Prod.mk.injEq, List.cons.injEq, and_true] at hall
  obtain ⟨⟨hnone, hpassed⟩, ⟨⟨hA₁, hB₁⟩, hA₂, hB₂⟩, rfl⟩ := hall
  obtain ⟨⟨event', target₁⟩, hheard, heq'⟩ := Option.map_eq_some_iff.mp htarget
  obtain ⟨htarget₁, rfl⟩ := Prod.mk.inj heq'
  let request : Bytes × Bytes := (plaintextOf relayRequest, sampleFrame 1 relayRequest)
  let delivery : Bytes × Bytes := (plaintextOf relayDelivery, sampleFrame 3 relayDelivery)
  have hasks : Trio.Step askerAddr sampleAddr sampleAddr otherAddr
      (Trio.start asker₀ server₀ target₀)
      (.asker (.send sampleAddr (plaintextOf relayRequest)))
      ⟨⟨asker₁, server₀, [request], []⟩, ⟨server₀, target₀, [], []⟩⟩ := by
    refine ⟨?_, by rintro _ ⟨⟩, by rintro ⟨⟩, fun _ => rfl, rfl⟩
    rintro _ ⟨⟩
    exact .sends (.send (Io.run_of_outcome hsend)) hsent (connected_of_isEstablished hasker₁)
  have hgets : Trio.Step askerAddr sampleAddr sampleAddr otherAddr
      ⟨⟨asker₁, server₀, [request], []⟩, ⟨server₀, target₀, [], []⟩⟩
      (.server (.recvOne (.replicate 32 0)
        (.datagramDelivered askerAddr (plaintextOf relayRequest))))
      ⟨⟨asker₁, server₁, [request], [request]⟩, ⟨server₁, target₀, [], []⟩⟩ := by
    refine ⟨?_, ?_, by rintro ⟨⟩, by rintro ⟨⟩, rfl⟩
    · rintro _ ⟨⟩
      exact .opens (Host.step_of_recvOutcome hrecv) rfl (fun _ _ _ _ _ _ _ => ⟨_, .head _⟩)
        (connected_of_isEstablished hA₁)
    · rintro _ ⟨⟩
      exact .sender (Host.step_of_recvOutcome hrecv) (by rintro _ ⟨⟩)
        (connected_of_isEstablished hB₁)
  have hpasses : Trio.Step askerAddr sampleAddr sampleAddr otherAddr
      ⟨⟨asker₁, server₁, [request], [request]⟩, ⟨server₁, target₀, [], []⟩⟩
      (.server (.send otherAddr (plaintextOf relayDelivery)))
      ⟨⟨asker₁, server₂, [request], [request]⟩, ⟨server₂, target₀, [delivery], []⟩⟩ := by
    refine ⟨?_, ?_, by rintro ⟨⟩, by rintro ⟨⟩, rfl⟩
    · rintro _ ⟨⟩
      exact .receiver (.send (Io.run_of_outcome hpass)) (by rintro _ _ ⟨⟩)
        (connected_of_isEstablished hA₂)
    · rintro _ ⟨⟩
      exact .sends (.send (Io.run_of_outcome hpass)) (by rw [hpassed, hnone]; rfl)
        (connected_of_isEstablished hB₂)
  have hhears : Trio.Step askerAddr sampleAddr sampleAddr otherAddr
      ⟨⟨asker₁, server₂, [request], [request]⟩, ⟨server₂, target₀, [delivery], []⟩⟩
      (.target (.recvOne (.replicate 32 0)
        (.datagramDelivered sampleAddr (plaintextOf relayDelivery))))
      ⟨⟨asker₁, server₂, [request], [request]⟩, ⟨server₂, target₁, [delivery], [delivery]⟩⟩ := by
    refine ⟨by rintro _ ⟨⟩, ?_, fun _ => rfl, by rintro ⟨⟩, rfl⟩
    rintro _ ⟨⟩
    exact .opens (Host.step_of_recvOutcome hheard) rfl (fun _ _ _ _ _ _ _ => ⟨_, .head _⟩)
      (connected_of_isEstablished htarget₁)
  have hrun := Run.cons hasks (Run.cons hgets (Run.cons hpasses (Run.single hhears)))
  have hlinkA : asker₀.1.established[sampleAddr]? = some (sampleLinked 1 2) := by rfl
  have hlinkS : server₀.1.established[askerAddr]? = some (sampleLinked 2 1) := by rfl
  have hlinkS' : server₀.1.established[otherAddr]? = some (sampleLinked 3 4) := by rfl
  have hlinkB : target₀.1.established[sampleAddr]? = some (sampleLinked 4 3) := by rfl
  have hserves : sampleRelay.filterMap TrioLabel.ofServer = [[_, _]].flatten := rfl
  have hsource : ∀ label ∈ sampleRelay.filterMap TrioLabel.ofServer,
      DistinctOnWire askerAddr otherAddr label := by
    intro label hlabel addr hasks _
    rcases List.mem_pair.mp hlabel with rfl | rfl
    · by_contra hne
      simp [asked, HostLabel.handedFrom, ChannelLabel.handed, Ne.symm hne] at hasks
    · cases hasks
  exact ⟨_, hrun, relayed_at_most_once sampleCrypto_agrees hlinkA hlinkS
    (TransportState.mirrored_new _ _) hlinkS' hlinkB (TransportState.mirrored_new _ _) hrun
    (List.forall_mem_singleton.mpr sampleRelayTurn) hserves hsource⟩

end Libp2pCat.Rendezvous
