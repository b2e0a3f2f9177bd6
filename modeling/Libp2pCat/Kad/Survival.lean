import Libp2pCat.Kad.Bounds

/-!
When a lookup returns.

* `KademliaNode.recvOne_succeeds_iff`: when a receive of a node succeeds.
* `Clashes`: the two points at which the code gives up by itself: a dial of an address with a
  handshake in flight, and an answer with more peers than its count byte holds.  `Fits`: what the
  next operation sends is within its limits.
* `Ready.not_failed`, `Clashes.fails`: a lookup in a calm world fails at a clash and, if everything
  fits, nowhere else.
* `lookup_returns_iff`: so a lookup returns exactly when it reaches no clash.
-/

namespace Libp2pCat.Kad

open ByteString Effect Std Trace

variable {C : Crypto}

/-! ### Receiving -/

/-- What a frame is answered with. -/
def answer (table : RoutingTable) : Frame → Option Frame
  | .pingReq => some .pingResp
  | .findNodeReq target => some (.findNodeResp (table.closestTo target table.k))
  | _ => none

/-- What a datagram is answered with, once decrypted. -/
def KademliaNode.answerTo (node : KademliaNode C) (addr : UdpAddr) (datagram : Bytes) :
    Option Frame :=
  (node.host.opens addr datagram).bind fun plaintext =>
    (decode plaintext).toOption.bind (answer (observe node.host node.table addr))

/-- The frame is encoded into a datagram within the limit, and the send counter of its
connection is not exhausted. -/
def Sendable (host : Host C) (addr : UdpAddr) (frame : Frame) : Prop :=
  host.NonceLeft addr ∧ ∀ bytes, encode frame = .ok bytes →
    bytes.length + TRANSPORT_OVERHEAD_LEN ≤ host.socket.maxSendPayload

/-- Sending a frame to an established address. -/
lemma send_encoded_succeeds_iff (hC : C.Seals) {host : Host C} {addr : UdpAddr} (frame : Frame)
    {w : World} (hw : w.SendsOk) (hest : host.isEstablished addr = true) {α : Type}
    (f : Host C → α) :
    ((Io.suspend (encode frame)).flatMap fun bytes =>
      (host.send addr (id bytes)).map f).Succeeds w ↔
      frame.Encodable ∧ Sendable host addr frame := by
  rw [Io.succeeds_flatMap_iff, ← encode_isOk_iff]
  simp only [Io.run_suspend, Prod.mk.injEq, Io.succeeds_map_iff, id, Sendable]
  constructor
  · rintro ⟨bytes, w', ⟨henc, rfl⟩, hsend⟩
    obtain ⟨-, hnonce, hfit⟩ := (Host.send_succeeds_iff hC hw).mp hsend
    refine ⟨⟨bytes, henc⟩, hnonce, fun bytes' henc' => ?_⟩
    rw [henc] at henc'
    cases henc'
    exact hfit
  · rintro ⟨⟨bytes, henc⟩, hnonce, hfit⟩
    exact ⟨bytes, w, ⟨henc, rfl⟩, (Host.send_succeeds_iff hC hw).mpr ⟨hest, hnonce, hfit _ henc⟩⟩

/-- Reacting to a frame succeeds exactly when its answer can be sent. -/
lemma dispatchFrame_succeeds_iff (hC : C.Seals) {host : Host C} {table : RoutingTable}
    {addr : UdpAddr} {frame : Frame} {w : World} (hw : w.SendsOk)
    (hest : host.isEstablished addr = true) :
    (dispatchFrame host table addr frame id).Succeeds w ↔
      ∀ a ∈ answer table frame, a.Encodable ∧ Sendable host addr a := by
  cases frame with
  | pingReq =>
      rw [dispatchFrame, autoReplyPing, send_encoded_succeeds_iff hC _ hw hest]
      simp [answer]
  | findNodeReq target =>
      rw [dispatchFrame, autoReplyFindNode, send_encoded_succeeds_iff hC _ hw hest]
      simp [answer]
  | _ => simp [dispatchFrame, answer]

/-- A receive succeeds exactly when the reply of the host and the answer of the node can be
sent. -/
theorem KademliaNode.recvOne_succeeds_iff (hC : C.Seals) {node : KademliaNode C} {seed : Key}
    {w : World} {addr : UdpAddr} {datagram : Bytes} (hw : w.SendsOk)
    (hnext : w.recvFrom 0 = .ok (addr, datagram)) :
    (node.recvOne seed).Succeeds w ↔
      (∀ b ∈ node.host.reply addr (datagram.take node.host.socket.recvBufSize) seed,
        b.length ≤ node.host.socket.maxSendPayload) ∧
      ∀ a ∈ node.answerTo addr (datagram.take node.host.socket.recvBufSize),
        a.Encodable ∧ Sendable node.host addr a := by
  rw [KademliaNode.recvOne, Io.succeeds_flatMap_iff, ← Host.recvOne_succeeds_iff hw hnext]
  -- what is left after the receive of the host
  have hcont : ∀ {host' : Host C} {event : HostEvent} {w' : World},
      (node.host.recvOne seed).run w = (.ok (host', event), w') →
      ((handleHostEvent host' node.table event).Succeeds w' ↔
        ∀ a ∈ node.answerTo addr (datagram.take node.host.socket.recvBufSize),
          a.Encodable ∧ Sendable node.host addr a) := by
    intro host' event w' hrun
    obtain ⟨addr', datagram', reply, hnext', hin, rfl⟩ := recvOne_run_eq_ok hrun
    rw [hnext] at hnext'
    cases hnext'
    have hw' : World.SendsOk ((w.afterRecv addr
        (datagram.take node.host.socket.recvBufSize)).afterReply addr reply) := by
      cases reply with
      | none => exact hw
      | some b => exact World.SendsOk.afterSend hw addr b
    have hsocket := hin.constants.2.2
    rcases hin.of_opens with ⟨plaintext, hopen, rfl, hest, hpeer, hnonce⟩ | ⟨hopen, hother⟩
    · rw [handleHostEvent, processPlaintext, processPlaintextWithWrap, handleDatagram, answerTo,
        hopen, Option.bind_some]
      cases hdec : decode plaintext with
      | error e => simp [Except.toOption]
      | ok frame =>
          rw [dispatchFrame_succeeds_iff hC hw' hest, observe_congr _ hpeer]
          simp only [Sendable, hnonce, hsocket, Except.toOption, Option.bind_some]
    · rw [answerTo, hopen]
      cases event with
      | datagramDelivered a plaintext => exact absurd rfl (hother a plaintext)
      | _ => simp [handleHostEvent]
  constructor
  · rintro ⟨⟨host', event⟩, w', hrun, hrest⟩
    exact ⟨⟨_, _, hrun⟩, (hcont hrun).mp hrest⟩
  · rintro ⟨⟨⟨host', event⟩, w', hrun⟩, hans⟩
    exact ⟨_, _, hrun, (hcont hrun).mpr hans⟩

/-! ### A calm world -/

lemma KademliaNode.calm_recvOne (node : KademliaNode C) (seed : Key) :
    (node.recvOne seed).Preserves World.Calm :=
  (node.host.calm_recvOne seed).flatMap fun _ =>
    preserves_handleHostEvent UdpTransport.calm_send _ _ _

/-! ### Where a lookup gives up -/

/-- The next operation dials an address with a handshake in flight, or the next datagram is
answered with a frame that has no encoding. -/
def Clashes : Driven (KademliaNode C) → Prop
  | ⟨node, _, .sending ((_, .dial addr _) :: _) _ _, _⟩ =>
      node.host.handshakes.contains addr = true
  | ⟨node, _, .draining lookup (_ + 1) _, w⟩ => lookup.hasPending = true ∧
      ∃ addr datagram a, w.recvFrom 0 = .ok (addr, datagram) ∧
        a ∈ node.answerTo addr (datagram.take node.host.socket.recvBufSize) ∧ ¬ a.Encodable
  | _ => False

/-- What the next operation sends is within the size limit, and the send counter it needs is
not exhausted. -/
def Fits : Driven (KademliaNode C) → Prop
  | ⟨node, _, .sending ((_, .query addr) :: _) lookup _, _⟩ =>
      Sendable node.host addr (.findNodeReq lookup.target)
  | ⟨node, _, .sending ((_, .dial _ _) :: _) _ _, _⟩ =>
      MESSAGE_1_LEN ≤ node.host.socket.maxSendPayload
  | ⟨node, seeds, .draining lookup (_ + 1) _, w⟩ => lookup.hasPending = true →
      ∀ addr datagram, w.recvFrom 0 = .ok (addr, datagram) →
        (∀ b ∈ node.host.reply addr (datagram.take node.host.socket.recvBufSize) (seeds 0),
          b.length ≤ node.host.socket.maxSendPayload) ∧
        ∀ a ∈ node.answerTo addr (datagram.take node.host.socket.recvBufSize),
          Sendable node.host addr a
  | _ => True

/-! ### Lookups that go through -/

/-- Queries go to established addresses, dials to others. -/
def ActionsSound (host : Host C) (actions : List (NodeId × RoundAction)) : Prop :=
  ∀ p ∈ actions, match p.2 with
    | .query addr => host.isEstablished addr = true
    | .dial addr _ => host.isEstablished addr = false

lemma decideActions_sound (host : Host C) (picks : List (NodeId × UdpAddr)) (seeds : ℕ → Key) :
    ActionsSound host (decideActions host picks seeds).1 := by
  induction picks generalizing seeds with
  | nil => nofun
  | cons p rest ih =>
      intro q hq
      rw [decideActions] at hq
      split at hq
      · rename_i hest
        rcases List.mem_cons.mp hq with rfl | hq
        · exact hest
        · exact ih _ q hq
      · rename_i hest
        rcases List.mem_cons.mp hq with rfl | hq
        · simpa using hest
        · exact ih _ q hq

/-- Acting on a peer establishes nothing and drops nothing. -/
lemma RoundAction.isEstablished_act {action : RoundAction} {target : NodeId}
    {node node' : KademliaNode C} {w w' : World}
    (h : (action.act target node).run w = (.ok node', w')) (addr : UdpAddr) :
    node'.host.isEstablished addr = node.host.isEstablished addr := by
  cases action with
  | query peer =>
      rw [RoundAction.act, KademliaNode.findNode, KademliaNode.sendFrame] at h
      obtain ⟨bytes, w₁, -, hmap⟩ := Io.flatMap_run_eq_ok.mp h
      obtain ⟨host', hsend, rfl⟩ := Io.map_run_eq_ok.mp hmap
      obtain ⟨conn, t, d, hconn, -, rfl, -⟩ := send_run_eq_ok hsend
      simp only [Host.isEstablished, ExtTreeMap.contains_insert]
      by_cases hpeer : compare peer addr = .eq
      · obtain rfl := LawfulEqOrd.eq_of_compare hpeer
        simp [ExtTreeMap.contains_eq_isSome_getElem?, hconn]
      · simp [hpeer]
  | dial peer seed =>
      obtain ⟨host', hdial, rfl⟩ := Io.map_run_eq_ok.mp h
      obtain ⟨-, -, rfl, -⟩ := dial_run_eq_ok hdial
      rfl

/-- No socket call fails, and the actions that are left suit the connections. -/
structure Ready (s : Driven (KademliaNode C)) : Prop where
  calm : s.world.Calm
  sound : ∀ actions lookup roundsLeft, s.phase = .sending actions lookup roundsLeft →
    ActionsSound s.node.host actions

lemma Ready.move {s s' : Driven (KademliaNode C)} {label : Label} (h : Ready s)
    (hmove : kadParty.Move s label s') : Ready s' := by
  obtain ⟨hcalm, hsound⟩ := h
  cases hmove with
  | pick hdone hpick =>
      refine ⟨hcalm, fun actions lookup roundsLeft hphase => ?_⟩
      cases hphase
      exact decideActions_sound _ _ _
  | act hact =>
      refine ⟨(RoundAction.preserves_act UdpTransport.calm_send _ _ _).of_run hcalm hact, ?_⟩
      rintro actions lookup roundsLeft hphase q hq
      cases hphase
      have hq' := hsound _ _ _ rfl q (List.mem_cons_of_mem _ hq)
      have hkeep := RoundAction.isEstablished_act hact
      split <;> simp_all
  | actFails hact =>
      exact ⟨(RoundAction.preserves_act UdpTransport.calm_send _ _ _).of_run hcalm hact, nofun⟩
  | recv _ hrecv | recvFails _ hrecv =>
      exact ⟨(KademliaNode.calm_recvOne _ _).of_run hcalm hrecv, nofun⟩
  | listen | close => exact ⟨hcalm, nofun⟩

/-- A point that fits and is no clash is not followed by a failure. -/
lemma Ready.not_failed (hC : C.Seals) {s s' : Driven (KademliaNode C)} {label : Label}
    (h : Ready s) (hfits : Fits s) (hclash : ¬ Clashes s) (hmove : kadParty.Move s label s')
    (l : Lookup) : s'.phase ≠ .failed l := by
  intro hphase
  cases hmove with
  | @actFails node seeds id action rest lookup roundsLeft w w' e hact =>
      have hest := h.sound _ _ _ rfl _ List.mem_cons_self
      have hsucc : (action.act lookup.target node).Succeeds w := by
        cases action with
        | query addr =>
            exact (send_encoded_succeeds_iff hC (.findNodeReq lookup.target) h.calm.1 hest _).mpr
              ⟨trivial, hfits⟩
        | dial addr seed =>
            have hnew : node.host.handshakes.contains addr = false := Bool.eq_false_iff.mpr hclash
            exact Io.succeeds_map_iff.mpr
              ((Host.dial_succeeds_iff h.calm.1).mpr ⟨hnew, hest, hfits⟩)
      obtain ⟨node₁, w₁, hok⟩ := hsucc
      cases hok.symm.trans hact
  | @recvFails node seeds lookup budget roundsLeft e w w' hpending hrecv =>
      obtain ⟨⟨addr, datagram⟩, hnext⟩ := h.calm.2 0
      obtain ⟨hreply, hanswer⟩ := hfits hpending addr datagram hnext
      have hsucc : (node.recvOne (seeds 0)).Succeeds w := by
        refine (KademliaNode.recvOne_succeeds_iff hC h.calm.1 hnext).mpr ⟨hreply, fun a ha => ?_⟩
        refine ⟨?_, hanswer a ha⟩
        by_contra henc
        exact hclash ⟨hpending, addr, datagram, a, hnext, ha, henc⟩
      obtain ⟨r, w₁, hok⟩ := hsucc
      cases hok.symm.trans hrecv
  | _ => cases hphase

/-- A clash is followed by a failure. -/
lemma Clashes.fails (hC : C.Seals) {s : Driven (KademliaNode C)} (hcalm : s.world.Calm)
    (h : Clashes s) : ∃ label s' l, kadParty.Move s label s' ∧ s'.phase = .failed l := by
  unfold Clashes at h
  split at h
  · rename_i node seeds id addr seed rest lookup roundsLeft w
    rcases hact : ((RoundAction.dial addr seed).act lookup.target node).run w with
      ⟨e | node', w'⟩
    · exact ⟨_, _, lookup, .actFails hact, rfl⟩
    · obtain ⟨hnew, -⟩ := (Host.dial_succeeds_iff hcalm.1).mp
        (Io.succeeds_map_iff.mp ⟨node', w', hact⟩)
      rw [h] at hnew
      cases hnew
  · rename_i node seeds lookup budget roundsLeft w
    obtain ⟨hpending, addr, datagram, a, hnext, ha, henc⟩ := h
    rcases hrecv : (node.recvOne (seeds 0)).run w with ⟨e | r, w'⟩
    · exact ⟨_, _, lookup, .recvFails hpending hrecv, rfl⟩
    · obtain ⟨-, hans⟩ := (KademliaNode.recvOne_succeeds_iff hC hcalm.1 hnext).mp ⟨r, w', hrecv⟩
      exact absurd (hans a ha).1 henc
  · exact h.elim

/-- Whatever the node, the target, the limits and the datagrams, if the socket calls succeed
and every datagram sent fits with its send counter not exhausted, then a lookup returns exactly
when it never dials an address that has a handshake in flight and never answers with more
peers than fit a count byte. -/
theorem lookup_returns_iff (hC : C.Seals) {node : KademliaNode C} {target : NodeId}
    {config : LookupConfig} {seeds : ℕ → Key} {w : World} (hw : w.Calm)
    (hfits : ∀ labels s, Run kadParty.Move (kadParty.start node target config seeds w) labels s →
      Fits s) :
    (node.lookupNode target config seeds).Succeeds w ↔
      ∀ labels s, Run kadParty.Move (kadParty.start node target config seeds w) labels s →
        ¬ Clashes s := by
  rw [KademliaNode.lookupNode_eq_lookup, Party.lookup_succeeds_iff]
  have hready : ∀ {labels s},
      Run kadParty.Move (kadParty.start node target config seeds w) labels s → Ready s :=
    fun hrun => hrun.invariant (fun _ _ _ h hmove => h.move hmove) ⟨hw, nofun⟩
  constructor
  · intro hnever labels s hrun hclash
    obtain ⟨label, s', l, hmove, hphase⟩ := hclash.fails hC (hready hrun).calm
    exact hnever _ s' l (hrun.snoc hmove) hphase
  · intro hclear labels s l hrun hphase
    -- the failure was the last move of its run
    cases hrun with
    | nil => cases hphase
    | snoc hbefore hmove =>
        exact (hready hbefore).not_failed hC (hfits _ _ hbefore) (hclear _ _ hbefore) hmove l hphase

/-! ### Checking the points of a lookup -/

instance (host : Host C) (addr : UdpAddr) : Decidable (host.NonceLeft addr) :=
  inferInstanceAs (Decidable (∀ conn ∈ host.established[addr]?,
    conn.transport.sendNonce.toNat + 1 < 2 ^ 64))

lemma forall_eq_ok_iff {ε α : Type} {r : Except ε α} {p : α → Prop} :
    (∀ a ∈ r.toOption, p a) ↔ ∀ a, r = .ok a → p a :=
  forall_congr' fun _ => imp_congr_left Except.toOption_eq_some_iff

instance (host : Host C) (addr : UdpAddr) (frame : Frame) : Decidable (Sendable host addr frame) :=
  decidable_of_iff (host.NonceLeft addr ∧ ∀ bytes ∈ (encode frame).toOption,
    bytes.length + TRANSPORT_OVERHEAD_LEN ≤ host.socket.maxSendPayload)
    (and_congr_right fun _ => forall_eq_ok_iff)

instance (s : Driven (KademliaNode C)) : Decidable (Fits s) :=
  match s with
  | ⟨node, _, .sending ((_, .query addr) :: _) lookup _, _⟩ =>
      inferInstanceAs (Decidable (Sendable node.host addr (.findNodeReq lookup.target)))
  | ⟨node, _, .sending ((_, .dial _ _) :: _) _ _, _⟩ =>
      inferInstanceAs (Decidable (MESSAGE_1_LEN ≤ node.host.socket.maxSendPayload))
  | ⟨node, seeds, .draining lookup (_ + 1) _, w⟩ =>
      decidable_of_iff (lookup.hasPending = true → ∀ r ∈ (w.recvFrom 0).toOption,
        (∀ b ∈ node.host.reply r.1 (r.2.take node.host.socket.recvBufSize) (seeds 0),
          b.length ≤ node.host.socket.maxSendPayload) ∧
        ∀ a ∈ node.answerTo r.1 (r.2.take node.host.socket.recvBufSize),
          Sendable node.host r.1 a)
        (imp_congr_right fun _ => forall_eq_ok_iff.trans Prod.forall)
  | ⟨_, _, .head _ _, _⟩ | ⟨_, _, .sending [] _ _, _⟩ | ⟨_, _, .draining _ 0 _, _⟩
  | ⟨_, _, .failed _, _⟩ => isTrue trivial

/-- Where a lookup ends, there is nothing to send. -/
lemma fits_of_next_eq_none {s : Driven (KademliaNode C)} (h : kadParty.next s = none) : Fits s := by
  unfold Fits
  split
  · simp only [Party.next] at h
    split at h <;> cases h
  · simp only [Party.next] at h
    split at h <;> cases h
  · intro hpending
    simp only [Party.next, hpending, if_true] at h
    split at h <;> cases h
  · exact trivial

/-- A lookup whose operations fit where they are made fits everywhere. -/
lemma fits_of_passesWithin {n : ℕ} {s₀ s : Driven (KademliaNode C)} {labels : List Label}
    (h : kadParty.passesWithin (fun s _ => decide (Fits s)) n s₀ = true)
    (hrun : Run kadParty.Move s₀ labels s) : Fits s := by
  cases hnext : kadParty.next s with
  | none => exact fits_of_next_eq_none hnext
  | some r =>
      exact of_decide_eq_true
        (Party.check_of_passesWithin h hrun (Party.move_iff_next.mpr hnext))

/-- Of two peers at two addresses the connected one is queried, the other is dialed, and the answer
is read: the lookup returns, and comes to no clash. -/
theorem lookup_returns_sample :
    ∃ (node : KademliaNode sampleCrypto) (labels : List Label)
      (s : Driven (KademliaNode sampleCrypto)), connectedNode = some node ∧
      Run kadParty.Move (advertisedStart ⟨2, DEFAULT_K, 1, 1⟩ node) labels s ∧
      labels.countP Label.isAction = 2 ∧ labels.countP Label.isReceive = 1 ∧
      (node.lookupNode ⟨.replicate 32 5⟩ ⟨2, DEFAULT_K, 1, 1⟩ fun _ => .replicate 32 4).Succeeds
        (answeringWorld advertisement) ∧
      ∀ labels s, Run kadParty.Move (advertisedStart ⟨2, DEFAULT_K, 1, 1⟩ node) labels s →
        ¬ Clashes s := by
  have hchecks : connectedNode.map (fun node =>
      (kadParty.passesWithin (fun s _ => decide (Fits s)) 9
          (advertisedStart ⟨2, DEFAULT_K, 1, 1⟩ node),
        ((kadParty.walk 9 (advertisedStart ⟨2, DEFAULT_K, 1, 1⟩ node)).1.countP Label.isAction,
          (kadParty.walk 9 (advertisedStart ⟨2, DEFAULT_K, 1, 1⟩ node)).1.countP Label.isReceive),
        ((node.lookupNode ⟨.replicate 32 5⟩ ⟨2, DEFAULT_K, 1, 1⟩ fun _ => .replicate 32 4).outcome
          (answeringWorld advertisement)).isSome)) = some (true, (2, 1), true) := by decide +kernel
  obtain ⟨node, hnode, hvalues⟩ := Option.map_eq_some_iff.mp hchecks
  simp only [Prod.mk.injEq] at hvalues
  obtain ⟨hfits, ⟨hactions, hreceives⟩, hreturns⟩ := hvalues
  obtain ⟨r, hr⟩ := Option.isSome_iff_exists.mp hreturns
  have hsucc : (node.lookupNode ⟨.replicate 32 5⟩ ⟨2, DEFAULT_K, 1, 1⟩
      fun _ => .replicate 32 4).Succeeds (answeringWorld advertisement) :=
    ⟨_, _, Io.run_of_outcome hr⟩
  have hcalm : (answeringWorld advertisement).Calm := ⟨fun _ => rfl, fun _ => ⟨_, rfl⟩⟩
  exact ⟨node, _, _, hnode, kadParty.run_walk 9 _, hactions, hreceives, hsucc,
    (lookup_returns_iff sampleCrypto_agrees.seals hcalm
      fun _ _ hrun => fits_of_passesWithin hfits hrun).mp hsucc⟩

/-- The address of the sample peers. -/
def samplePeerAddr : UdpAddr := .v4 ⟨.replicate 4 7, 9⟩

/-- Two peers at one address. -/
def samplePeers : List (NodeId × UdpAddr) :=
  [(⟨.replicate 32 5⟩, samplePeerAddr), (⟨.replicate 32 6⟩, samplePeerAddr)]

/-- A node without connections whose table learned these peers. -/
def sampleNode : KademliaNode sampleCrypto :=
  let node := KademliaNode.new (sampleHost 1) DEFAULT_K
  ⟨node.host, samplePeers.foldl (fun table p => (table.insert p.1 p.2).1) node.table⟩

/-- A world in which every socket call succeeds. -/
def sampleCalm : World where
  recvFrom _ := .ok (samplePeerAddr, [])
  sendTo _ := .ok ()
  sent := []
  received := []

lemma sampleCalm_calm : sampleCalm.Calm := ⟨fun _ => rfl, fun _ => ⟨_, rfl⟩⟩

/-- One round without receives. -/
def sampleConfig : LookupConfig := ⟨3, DEFAULT_K, 1, 0⟩

/-- The lookup of the zero identifier. -/
def sampleLookup : Io World Error (KademliaNode sampleCrypto × List (NodeId × UdpAddr)) :=
  sampleNode.lookupNode ⟨.replicate 32 0⟩ sampleConfig fun _ => .replicate 32 4

/-- The point it starts at. -/
def sampleStart : Driven (KademliaNode sampleCrypto) :=
  kadParty.start sampleNode ⟨.replicate 32 0⟩ sampleConfig (fun _ => .replicate 32 4) sampleCalm

/-- The error a computation ends with, if any. -/
def failureOf {α : Type} (x : Io World Error α) (w : World) : Option Error :=
  match (x.run w).1 with
  | .ok _ => none
  | .error e => some e

lemma succeeds_iff_failureOf_eq_none {α : Type} {x : Io World Error α} {w : World} :
    x.Succeeds w ↔ failureOf x w = none := by
  rw [Io.Succeeds, failureOf]
  rcases x.run w with ⟨_ | _, _⟩ <;> simp

/-- Two peers advertised at one address make the lookup dial it twice: although every socket
call succeeds and everything sent fits, it ends with an error. -/
theorem lookup_aborts_on_shared_address :
    sampleCalm.Calm ∧
      (∀ labels s, Run kadParty.Move sampleStart labels s → Fits s) ∧
      ¬ sampleLookup.Succeeds sampleCalm ∧
      failureOf sampleLookup sampleCalm
        = some (.hostState "dial: address /ip4/7.7.7.7/udp/9 already known to host") := by
  have hfits : kadParty.passesWithin (fun s _ => decide (Fits s)) 9 sampleStart = true := by
    decide +kernel
  have hfail : failureOf sampleLookup sampleCalm
      = some (.hostState "dial: address /ip4/7.7.7.7/udp/9 already known to host") := by
    decide +kernel
  refine ⟨sampleCalm_calm, fun _ _ hrun => fits_of_passesWithin hfits hrun, ?_, hfail⟩
  rw [succeeds_iff_failureOf_eq_none, hfail]
  nofun

end Libp2pCat.Kad
