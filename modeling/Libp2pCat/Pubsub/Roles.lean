import Libp2pCat.Pubsub.RelayBound

/-!
The role of a topic.

* `PubsubMux.Reads`: an operation of a node, with the plaintext it processed.
* `Role`, `PubsubState.plays`: a topic has a decoder, a recoder, both or neither.
* `PubsubLabel.ends`: a registration ends when the topic is unregistered, evicted, or consumed by
  the delivery of its generation.
* `Tracked`: a node with, for each topic, the roles it was registered in that have not ended
  since, latest first; `Tracked.Step` keeps this record beside the operations of the node.
* `handledBy`: what a frame meets in a role; `Tracked.Consistent`: no topic has two roles, and a
  frame meets the role of the latest registration that has not ended.
* `one_role_per_topic`: that holds as long as no operation registers a role for a topic that
  plays the other one and no frame costs a topic its decoder.  Such an operation breaks it at
  once (`Overlaps.not_consistent`, `LosesDecoder.not_consistent`), since neither registration
  ends the other (`second_registration_ignored`) and a lost decoder was not unregistered.
-/

namespace Libp2pCat.Pubsub

open ByteString Effect Std Trace

variable {C : Crypto} {R : Rlnc} {A : PubsubAuth}

/-! ### Operations and what they read -/

/-- The event an operation returned. -/
def PubsubLabel.event? : PubsubLabel A → Option MuxEvent
  | .processPlaintext event | .recvOne event => some event
  | _ => none

/-- The generation of a topic an event hands over. -/
def MuxEvent.delivered (topic : Topic) : MuxEvent → Option Bytes
  | .pubsubDelivered _ t data => if t = topic then some data else none
  | _ => none

/-- The generation of a topic an operation handed over. -/
def PubsubLabel.delivered (topic : Topic) (l : PubsubLabel A) : Option Bytes :=
  l.event?.bind (MuxEvent.delivered topic)

/-- One successful operation of a node, with the plaintext it processed. -/
inductive PubsubMux.Reads :
    PubsubMux C R A → PubsubLabel A × Option Bytes → PubsubMux C R A → Prop where
  | processPlaintext {mux mux' : PubsubMux C R A} {addr : UdpAddr} {plaintext : Bytes}
      {rng : ℕ → Except String Bytes} {event : MuxEvent} {w w' : World} :
      (mux.processPlaintext addr plaintext rng).run w = (.ok (mux', event), w') →
      Reads mux (.processPlaintext event, some plaintext) mux'
  /-- The host handed a plaintext over. -/
  | received {mux mux' : PubsubMux C R A} {host : Host C} {seed : Key} {addr : UdpAddr}
      {plaintext : Bytes} {rng : ℕ → Except String Bytes} {event : MuxEvent} {w w₁ w' : World} :
      (mux.host.recvOne seed).run w = (.ok (host, .datagramDelivered addr plaintext), w₁) →
      (processEvent host mux.state rng (.datagramDelivered addr plaintext)).run w₁
        = (.ok (mux', event), w') →
      Reads mux (.recvOne event, some plaintext) mux'
  /-- The host came to something else. -/
  | passedOn {mux mux' : PubsubMux C R A} {host : Host C} {seed : Key} {hostEvent : HostEvent}
      {rng : ℕ → Except String Bytes} {event : MuxEvent} {w w₁ w' : World} :
      (mux.host.recvOne seed).run w = (.ok (host, hostEvent), w₁) →
      (∀ addr plaintext, hostEvent ≠ .datagramDelivered addr plaintext) →
      (processEvent host mux.state rng hostEvent).run w₁ = (.ok (mux', event), w') →
      Reads mux (.recvOne event, none) mux'
  | other {mux mux' : PubsubMux C R A} {l : PubsubLabel A} :
      Step mux l mux' → l.event? = none → Reads mux (l, none) mux'

/-- Every operation is one of these. -/
lemma PubsubMux.Step.reads {mux mux' : PubsubMux C R A} {l : PubsubLabel A}
    (h : Step mux l mux') : ∃ plaintext, Reads mux (l, plaintext) mux' := by
  cases h with
  | processPlaintext hrun => exact ⟨_, .processPlaintext hrun⟩
  | recvOne hrun =>
      obtain ⟨⟨host, hostEvent⟩, w₁, hrecv, hproc⟩ := Io.flatMap_run_eq_ok.mp hrun
      cases hostEvent with
      | datagramDelivered addr plaintext => exact ⟨_, .received hrecv hproc⟩
      | _ => exact ⟨none, .passedOn hrecv (fun _ _ h => nomatch h) hproc⟩
  | registerTopic => exact ⟨none, .other (.registerTopic _ _ _ _ _) rfl⟩
  | registerRelay => exact ⟨none, .other (.registerRelay _ _ _ _ _) rfl⟩
  | unregisterTopic => exact ⟨none, .other (.unregisterTopic _ _) rfl⟩
  | unregisterRelay => exact ⟨none, .other (.unregisterRelay _ _) rfl⟩
  | evictIdleTopics => exact ⟨none, .other (.evictIdleTopics _ _) rfl⟩
  | evictIdleRelays => exact ⟨none, .other (.evictIdleRelays _ _) rfl⟩
  | dial hrun => exact ⟨none, .other (.dial hrun) rfl⟩
  | sendApp hrun => exact ⟨none, .other (.sendApp hrun) rfl⟩
  | broadcast hrun => exact ⟨none, .other (.broadcast hrun) rfl⟩

/-- And nothing else is. -/
lemma PubsubMux.Reads.step {mux mux' : PubsubMux C R A} {l : PubsubLabel A × Option Bytes}
    (h : Reads mux l mux') : Step mux l.1 mux' := by
  cases h with
  | processPlaintext hrun => exact .processPlaintext hrun
  | received hrecv hproc => exact .recvOne (Io.flatMap_run_eq_ok.mpr ⟨_, _, hrecv, hproc⟩)
  | passedOn hrecv _ hproc => exact .recvOne (Io.flatMap_run_eq_ok.mpr ⟨_, _, hrecv, hproc⟩)
  | other hstep _ => exact hstep

/-- An operation with a plaintext dispatched it. -/
lemma PubsubMux.Reads.dispatched {mux mux' : PubsubMux C R A} {l : PubsubLabel A}
    {plaintext : Bytes} (h : Reads mux (l, some plaintext) mux') :
    ∃ host addr rng event w w', (dispatchPlaintext host mux.state addr plaintext rng).run w
      = (.ok (mux', event), w') ∧ l.event? = some event := by
  cases h with
  | processPlaintext hrun => exact ⟨mux.host, _, _, _, _, _, hrun, rfl⟩
  | received _ hproc => exact ⟨_, _, _, _, _, _, hproc, rfl⟩

/-- A dispatched plaintext went through one of the outcomes. -/
lemma PubsubMux.Reads.reaction {mux mux' : PubsubMux C R A} {l : PubsubLabel A}
    {plaintext : Bytes} (h : Reads mux (l, some plaintext) mux') :
    ∃ addr event, Reaction mux.state addr plaintext mux'.state event ∧ l.event? = some event := by
  obtain ⟨host, addr, rng, event, w, w', hrun, hevent⟩ := h.dispatched
  have hprocess : ((⟨host, mux.state⟩ : PubsubMux C R A).processPlaintext addr plaintext rng).run w
      = (.ok (mux', event), w') := hrun
  have hreact := processPlaintext_run_eq_ok hprocess
  exact ⟨addr, event, hreact, hevent⟩

/-! ### Roles -/

/-- What a node does with the frames of a topic. -/
inductive Role where
  | decoder
  | relay
  deriving DecidableEq

/-- The topic has an entry for the role. -/
def PubsubState.plays (state : PubsubState R A) (topic : Topic) : Role → Bool
  | .decoder => state.decoders.contains topic
  | .relay => state.recoders.contains topic

/-- The topic and the role an operation registers. -/
def PubsubLabel.registration : PubsubLabel A → Option (Topic × Role)
  | .registerTopic topic _ _ _ => some (topic, .decoder)
  | .registerRelay topic _ _ _ => some (topic, .relay)
  | _ => none

/-- The operation ends the registration of the topic in the role: it unregisters it, evicts it, or
hands over the generation that its decoder was registered for. -/
def PubsubLabel.ends (state : PubsubState R A) (topic : Topic) : PubsubLabel A → Role → Bool
  | .unregisterTopic t, .decoder | .unregisterRelay t, .relay => t = topic
  | .evictIdleTopics n, .decoder => topic ∈ (state.evictIdleTopics n).2
  | .evictIdleRelays n, .relay => topic ∈ (state.evictIdleRelays n).2
  | .processPlaintext event, .decoder | .recvOne event, .decoder =>
      (event.delivered topic).isSome
  | _, _ => false

lemma contains_insert_iff {V : Type} {map : BTreeMap Topic V} {topic t : Topic} {v : V} :
    (map.insert t v).contains topic = true ↔ t = topic ∨ map.contains topic = true := by
  rw [ExtTreeMap.contains_insert, Bool.or_eq_true, beq_iff_eq, LawfulEqOrd.compare_eq_iff_eq]

lemma contains_erase_iff {V : Type} {map : BTreeMap Topic V} {topic t : Topic} :
    (map.erase t).contains topic = true ↔ map.contains topic = true ∧ t ≠ topic := by
  rw [ExtTreeMap.contains_erase, Bool.and_eq_true, bne_iff_ne, ne_eq,
    LawfulEqOrd.compare_eq_iff_eq, and_comm]

/-- A sweep reports the keys that it drops. -/
lemma contains_sweep_iff {V : Type} {activity : V → ℕ} {map : BTreeMap Topic V} {topic : Topic}
    {cutoff : ℕ} : (Lru.sweep activity map cutoff).1.contains topic = true ↔
      map.contains topic = true ∧ topic ∉ (Lru.sweep activity map cutoff).2 := by
  rw [ExtTreeMap.contains_eq_isSome_getElem?, ExtTreeMap.contains_eq_isSome_getElem?,
    Lru.getElem?_sweep, Lru.mem_sweep_iff]
  cases map[topic]? with
  | none => simp
  | some v => simp [Option.filter]

/-- A plaintext over which no decoder is lost ends a role by a delivery only, and starts none. -/
lemma Reaction.plays_iff {state state' : PubsubState R A} {addr : UdpAddr} {plaintext : Bytes}
    {event : MuxEvent} (h : Reaction state addr plaintext state' event)
    (hkeep : ¬LosesDecoder state plaintext) (topic : Topic) :
    (state'.decoders.contains topic = true ↔
      state.decoders.contains topic = true ∧ event.delivered topic = none) ∧
    (state'.recoders.contains topic = true ↔ state.recoders.contains topic = true) := by
  cases h with
  | relayRedundant hframe hrole | relayed hframe hrole =>
      refine ⟨by simp [MuxEvent.delivered], contains_insert_iff.trans (or_iff_right_of_imp ?_)⟩
      rintro rfl
      exact contains_of_getElem? hrole
  | decoder hframe hrelay hrole houtcome =>
      cases houtcome with
      | unverified => simp [MuxEvent.delivered]
      | unabsorbed hverify habsorb =>
          exact absurd ⟨_, _, _, hframe, hrelay, hrole, hverify, Or.inl habsorb⟩ hkeep
      | undecodable hverify habsorb hfull hdecode =>
          exact absurd ⟨_, _, _, hframe, hrelay, hrole, hverify,
            Or.inr ⟨_, habsorb, hfull, hdecode⟩⟩ hkeep
      | absorbed =>
          refine ⟨?_, Iff.rfl⟩
          simp only [MuxEvent.delivered, and_true]
          refine contains_insert_iff.trans (or_iff_right_of_imp ?_)
          rintro rfl
          exact contains_of_getElem? hrole
      | delivered =>
          refine ⟨contains_erase_iff.trans (and_congr_right fun _ => ?_), Iff.rfl⟩
          simp [MuxEvent.delivered]
  | _ => simp [MuxEvent.delivered]

/-- After an operation that brings no event a topic plays a role exactly if the operation registered
it, or it played the role before and the operation did not end it. -/
lemma PubsubMux.Step.plays_iff {mux mux' : PubsubMux C R A} {l : PubsubLabel A}
    (h : Step mux l mux') (hevent : l.event? = none) (topic : Topic) (role : Role) :
    mux'.state.plays topic role = true ↔ l.registration = some (topic, role) ∨
      (mux.state.plays topic role = true ∧ l.ends mux.state topic role = false) := by
  cases h with
  | registerTopic t k b c =>
      cases role with
      | decoder =>
          refine contains_insert_iff.trans ?_
          simp [PubsubLabel.registration, PubsubLabel.ends, PubsubState.plays]
      | relay => simp [PubsubLabel.registration, PubsubLabel.ends, PubsubState.plays,
          PubsubState.registerTopic]
  | registerRelay t k b c =>
      cases role with
      | decoder => simp [PubsubLabel.registration, PubsubLabel.ends, PubsubState.plays,
          PubsubState.registerRelay]
      | relay =>
          refine contains_insert_iff.trans ?_
          simp [PubsubLabel.registration, PubsubLabel.ends, PubsubState.plays]
  | unregisterTopic t =>
      refine Iff.trans ?_ (or_iff_right fun hreg => by cases hreg).symm
      cases role with
      | decoder =>
          exact contains_erase_iff.trans (and_congr_right fun _ => decide_eq_false_iff_not.symm)
      | relay => exact (and_iff_left rfl).symm
  | unregisterRelay t =>
      refine Iff.trans ?_ (or_iff_right fun hreg => by cases hreg).symm
      cases role with
      | decoder => exact (and_iff_left rfl).symm
      | relay =>
          exact contains_erase_iff.trans (and_congr_right fun _ => decide_eq_false_iff_not.symm)
  | evictIdleTopics n =>
      refine Iff.trans ?_ (or_iff_right fun hreg => by cases hreg).symm
      cases role with
      | decoder =>
          exact contains_sweep_iff.trans (and_congr_right fun _ => decide_eq_false_iff_not.symm)
      | relay => exact (and_iff_left rfl).symm
  | evictIdleRelays n =>
      refine Iff.trans ?_ (or_iff_right fun hreg => by cases hreg).symm
      cases role with
      | decoder => exact (and_iff_left rfl).symm
      | relay =>
          exact contains_sweep_iff.trans (and_congr_right fun _ => decide_eq_false_iff_not.symm)
  | dial hrun | sendApp hrun =>
      obtain ⟨host, -, rfl⟩ := Io.map_run_eq_ok.mp hrun
      cases role <;> simp [PubsubLabel.registration, PubsubLabel.ends]
  | broadcast hrun =>
      obtain ⟨pieces, w₁, -, hrun⟩ := Io.flatMap_run_eq_ok.mp hrun
      obtain ⟨frames, w₂, -, hrun⟩ := Io.flatMap_run_eq_ok.mp hrun
      rw [fanOutAll_state hrun]
      cases role <;> simp [PubsubLabel.registration, PubsubLabel.ends]
  | processPlaintext | recvOne => cases hevent

/-- The same of every operation that loses no decoder. -/
lemma PubsubMux.Reads.plays_iff {mux mux' : PubsubMux C R A} {l : PubsubLabel A × Option Bytes}
    (h : Reads mux l mux')
    (hkeep : ∀ plaintext, l.2 = some plaintext → ¬LosesDecoder mux.state plaintext)
    (topic : Topic) (role : Role) :
    mux'.state.plays topic role = true ↔ l.1.registration = some (topic, role) ∨
      (mux.state.plays topic role = true ∧ l.1.ends mux.state topic role = false) := by
  obtain ⟨l, _ | plaintext⟩ := l
  · cases h with
    | @passedOn _ host seed hostEvent rng event w w₁ w' hrecv hnot hproc =>
        cases hostEvent with
        | datagramDelivered addr plaintext => exact absurd rfl (hnot addr plaintext)
        | _ =>
            cases hproc
            cases role <;>
              simp [PubsubLabel.registration, PubsubLabel.ends, MuxEvent.delivered]
    | other hstep hevent => exact hstep.plays_iff hevent topic role
  · obtain ⟨addr, event, hreact, hevent⟩ := h.reaction
    obtain ⟨hdecoder, hrelay⟩ := hreact.plays_iff (hkeep _ rfl) topic
    cases l with
    | processPlaintext e | recvOne e =>
        cases hevent
        cases role with
        | decoder =>
            simpa [PubsubLabel.registration, PubsubLabel.ends, PubsubState.plays] using hdecoder
        | relay =>
            simpa [PubsubLabel.registration, PubsubLabel.ends, PubsubState.plays] using hrelay
    | _ => cases hevent

/-! ### The record of registrations -/

variable (C R A) in
/-- A node, and for each topic the roles it was registered in that have not ended, latest
first. -/
structure Tracked where
  mux : PubsubMux C R A
  roles : Topic → List Role

/-- A new registration comes first and replaces an earlier one of the same role; the operation may
end others. -/
def recordRoles (l : PubsubLabel A) (state : PubsubState R A) (roles : Topic → List Role)
    (topic : Topic) : List Role :=
  let latest := match l.registration with
    | some (t, role) => if t = topic then role :: (roles topic).filter (· ≠ role) else roles topic
    | none => roles topic
  latest.filter fun role => !l.ends state topic role

/-- A registration ends nothing. -/
lemma PubsubLabel.ends_of_registration {l : PubsubLabel A} {r : Topic × Role}
    (h : l.registration = some r) (state : PubsubState R A) (topic : Topic) (role : Role) :
    l.ends state topic role = false := by
  cases l with
  | registerTopic | registerRelay => cases role <;> rfl
  | _ => cases h

lemma mem_recordRoles {l : PubsubLabel A} {state : PubsubState R A} {roles : Topic → List Role}
    {topic : Topic} {role : Role} : role ∈ recordRoles l state roles topic ↔
      l.registration = some (topic, role) ∨
        (role ∈ roles topic ∧ l.ends state topic role = false) := by
  rw [recordRoles, List.mem_filter, Bool.not_eq_true']
  cases hreg : l.registration with
  | none => simp
  | some r =>
      obtain ⟨t, r⟩ := r
      have hends := PubsubLabel.ends_of_registration hreg state topic role
      by_cases ht : t = topic
      · by_cases hr : r = role
        · simp [ht, hr, hends]
        · simp [ht, hr, hends, Ne.symm hr]
      · simp [ht, hends]

namespace Tracked

/-- A node without topics. -/
def new (host : Host C) : Tracked C R A := ⟨.new host, fun _ => []⟩

/-- An operation of the node and the plaintext it processed, recorded. -/
def Step (s : Tracked C R A) (l : PubsubLabel A × Option Bytes) (s' : Tracked C R A) : Prop :=
  PubsubMux.Reads s.mux l s'.mux ∧ s'.roles = recordRoles l.1 s.mux.state s.roles

end Tracked

/-- What a frame of a topic meets: the path of the role, or a refusal if there is none. -/
def handledBy (role : Option Role) (host : Host C) (state : PubsubState R A) (addr : UdpAddr)
    (topic : Topic) (wirePiece : WirePiece A) (relayRng : ℕ → Except String Bytes) :
    Io World Error (PubsubMux C R A × MuxEvent) :=
  match role with
  | some .relay => relayPath host state addr topic wirePiece relayRng
  | some .decoder => Io.pure (decoderPath host state addr topic wirePiece)
  | none => Io.pure (⟨host, state⟩,
      .rejected addr s!"frame received for unregistered topic {topic.asStr}")

/-- No topic has two roles, and a frame meets the role of the latest registration that has not
ended. -/
structure Tracked.Consistent (s : Tracked C R A) : Prop where
  one_role : ∀ topic, ¬(s.mux.state.decoders.contains topic = true ∧
    s.mux.state.recoders.contains topic = true)
  handled : ∀ (host : Host C) addr plaintext rng topic wp, Carries R A plaintext topic wp →
    dispatchPlaintext host s.mux.state addr plaintext rng
      = handledBy (s.roles topic).head? host s.mux.state addr topic wp rng

/-- The operation registers a role for a topic that plays the other one. -/
def Overlaps (state : PubsubState R A) (l : PubsubLabel A) : Prop :=
  ∃ topic role other, l.registration = some (topic, role) ∧ other ≠ role ∧
    state.plays topic other = true

/-- The operation registers no role beside the other, and its plaintext costs no decoder. -/
def Orderly (state : PubsubState R A) (l : PubsubLabel A × Option Bytes) : Prop :=
  ¬Overlaps state l.1 ∧ ∀ plaintext, l.2 = some plaintext → ¬LosesDecoder state plaintext

/-- A recorded operation that is orderly. -/
def Tracked.OrderlyStep (s : Tracked C R A) (l : PubsubLabel A × Option Bytes)
    (s' : Tracked C R A) : Prop :=
  s.Step l s' ∧ Orderly s.mux.state l

/-! ### Runs -/

/-- The record names exactly the roles the topics play, and no topic plays both. -/
structure Tracked.Faithful (s : Tracked C R A) : Prop where
  mem_roles : ∀ topic role, role ∈ s.roles topic ↔ s.mux.state.plays topic role = true
  one_role : ∀ topic role other, s.mux.state.plays topic role = true →
    s.mux.state.plays topic other = true → other = role

lemma Tracked.faithful_new (host : Host C) : (Tracked.new host : Tracked C R A).Faithful := by
  have hnone : ∀ topic role,
      (Tracked.new host : Tracked C R A).mux.state.plays topic role = false := by
    intro topic role
    cases role <;> rfl
  refine ⟨fun topic role => ?_, fun topic role other hplays => ?_⟩
  · rw [hnone]
    simp [Tracked.new]
  · rw [hnone] at hplays
    cases hplays

/-- An orderly operation keeps the record faithful. -/
lemma Tracked.Faithful.step {s s' : Tracked C R A} {l : PubsubLabel A × Option Bytes}
    (h : s.Faithful) (hstep : s.Step l s') (horderly : Orderly s.mux.state l) : s'.Faithful := by
  obtain ⟨hreads, hroles⟩ := hstep
  have hplays := hreads.plays_iff horderly.2
  refine ⟨fun topic role => ?_, fun topic role other hrole hother => ?_⟩
  · rw [hroles, mem_recordRoles, hplays topic role, h.mem_roles]
  · -- a role that was not there before was registered by this operation, beside the other one
    by_contra hne
    rcases (hplays topic role).mp hrole with hreg | ⟨hr, -⟩
    · rcases (hplays topic other).mp hother with hreg' | ⟨ho, -⟩
      · rw [hreg] at hreg'
        exact hne (Prod.mk.inj (Option.some.inj hreg')).2.symm
      · exact horderly.1 ⟨topic, role, other, hreg, hne, ho⟩
    · rcases (hplays topic other).mp hother with hreg | ⟨ho, -⟩
      · exact horderly.1 ⟨topic, other, role, hreg, Ne.symm hne, hr⟩
      · exact hne (h.one_role topic role other hr ho)

/-- The head of a faithful record is the role that is played. -/
lemma Tracked.Faithful.head? {s : Tracked C R A} (h : s.Faithful) {topic : Topic} {role : Role}
    (hplays : s.mux.state.plays topic role = true) : (s.roles topic).head? = some role := by
  have hmem := (h.mem_roles topic role).mpr hplays
  obtain ⟨first, rest, hcons⟩ := List.exists_cons_of_ne_nil (List.ne_nil_of_mem hmem)
  have hfirst := (h.mem_roles topic first).mp (hcons ▸ List.mem_cons_self)
  rw [hcons, List.head?_cons, h.one_role topic role first hplays hfirst]

lemma Tracked.Faithful.consistent {s : Tracked C R A} (h : s.Faithful) : s.Consistent := by
  refine ⟨fun topic hboth => ?_, fun host addr plaintext rng topic wp hframe => ?_⟩
  · have hne := h.one_role topic .decoder .relay hboth.1 hboth.2
    cases hne
  · rw [dispatchPlaintext_of_carries hframe]
    split
    · rename_i hrelay
      have hplays : s.mux.state.plays topic .relay = true := hrelay
      rw [h.head? hplays]
      rfl
    · rename_i hrelay
      split
      · rename_i hdecoder
        have hplays : s.mux.state.plays topic .decoder = true := hdecoder
        rw [h.head? hplays]
        rfl
      · rename_i hdecoder
        have hnil : s.roles topic = [] := by
          rw [List.eq_nil_iff_forall_not_mem]
          intro role hrole
          have hplays := (h.mem_roles topic role).mp hrole
          cases role with
          | decoder => exact hdecoder hplays
          | relay => exact hrelay hplays
        rw [hnil]
        rfl

/-- After a registration beside the other role, the topic has both. -/
lemma Overlaps.not_consistent {s s' : Tracked C R A} {l : PubsubLabel A × Option Bytes}
    (h : Overlaps s.mux.state l.1) (hstep : s.Step l s') : ¬s'.Consistent := by
  obtain ⟨topic, role, other, hreg, hne, hplays⟩ := h
  intro hcons
  refine hcons.one_role topic ?_
  obtain ⟨hreads, -⟩ := hstep
  have hmux := hreads.step
  generalize s'.mux = mux' at hmux ⊢
  obtain ⟨l, read⟩ := l
  dsimp only at hreg hmux
  cases hmux with
  | registerTopic t k b c =>
      obtain ⟨rfl, rfl⟩ := Prod.mk.inj (Option.some.inj hreg)
      cases other with
      | decoder => exact absurd rfl hne
      | relay => exact ⟨ExtTreeMap.contains_insert_self, hplays⟩
  | registerRelay t k b c =>
      obtain ⟨rfl, rfl⟩ := Prod.mk.inj (Option.some.inj hreg)
      cases other with
      | decoder => exact ⟨hplays, ExtTreeMap.contains_insert_self⟩
      | relay => exact absurd rfl hne
  | _ => cases hreg

/-- The two refusals of a frame whose topic has no decoder. -/
lemma refusals_differ (name : String) : s!"frame received for unregistered topic {name}" ≠
    s!"decoder for topic {name} vanished mid-dispatch" := by
  intro h
  have hfirst := congrArg (fun reason => reason.toList.head?) h
  simp only [toString, String.toList_append] at hfirst
  cases hfirst

lemma decoderPath_of_not_contains {host : Host C} {state : PubsubState R A} {addr : UdpAddr}
    {topic : Topic} {wp : WirePiece A} (h : state.decoders.contains topic = false) :
    (decoderPath host state addr topic wp).2
      = .rejected addr s!"decoder for topic {topic.asStr} vanished mid-dispatch" := by
  rw [decoderPath, ExtTreeMap.getElem?_eq_none_of_contains_eq_false h]

/-- A decoder that was lost over a frame was not unregistered, evicted or consumed, but the next
frame of its topic is refused as one of an unregistered topic. -/
lemma LosesDecoder.not_consistent {s s' : Tracked C R A} {l : PubsubLabel A} {plaintext : Bytes}
    (h : LosesDecoder s.mux.state plaintext) (hfaithful : s.Faithful)
    (hstep : s.Step (l, some plaintext) s') : ¬s'.Consistent := by
  obtain ⟨hreads, hroles⟩ := hstep
  obtain ⟨host, addr, rng, event, w, w', hrun, hevent⟩ := hreads.dispatched
  have hlost : LosesDecoder (PubsubMux.mk host s.mux.state).state plaintext := h
  obtain ⟨topic, wp, mux', reason, hframe, hrelay, hdecoder, hrun', hgone, hsame⟩ :=
    hlost.run addr rng w
  obtain ⟨heq, rfl⟩ := Prod.mk.inj (Except.ok.inj (Prod.mk.inj (hrun.symm.trans hrun')).1)
  -- the record still names the decoder
  have hrecord : s'.roles topic = s.roles topic := by
    rw [hroles, recordRoles]
    cases l with
    | processPlaintext e | recvOne e =>
        cases hevent
        refine List.filter_eq_self.mpr fun role _ => ?_
        cases role <;> rfl
    | _ => cases hevent
  have hhead : (s'.roles topic).head? = some .decoder := hrecord ▸ hfaithful.head? hdecoder
  intro hcons
  have hnone : s'.mux.state.decoders.contains topic = false := by
    rw [heq, hgone, Bool.eq_false_iff, ne_eq, contains_erase_iff]
    exact fun hboth => hboth.2 rfl
  have hhandled := hcons.handled host addr plaintext rng topic wp hframe
  have hrelay' : s'.mux.state.recoders.contains topic = false := by rw [heq, hsame, hrelay]
  rw [dispatchPlaintext_of_carries hframe, hhead, hrelay', hnone] at hhandled
  have hevents := congrArg (fun x => (x.run .quiet).1.toOption.map Prod.snd) hhandled
  have hrefused : some (MuxEvent.rejected addr
      s!"frame received for unregistered topic {topic.asStr}")
        = some (decoderPath host s'.mux.state addr topic wp).2 := hevents
  rw [decoderPath_of_not_contains hnone] at hrefused
  exact refusals_differ _ (MuxEvent.rejected.inj (Option.some.inj hrefused)).2

/-- In every run of a new node in which no operation registers a role for a topic that plays the
other one and no frame costs a topic its decoder, no topic ever has both roles, and every frame
meets the role of the latest registration of its topic that was not unregistered, evicted or
consumed since.  One operation that registers a role beside the other is enough to break this, from
any node; and so is a frame that costs a decoder, after any such run. -/
theorem one_role_per_topic :
    (∀ (host : Host C) labels (s : Tracked C R A),
      Run Tracked.OrderlyStep (.new host) labels s → s.Consistent) ∧
    (∀ (s s' : Tracked C R A) l, s.Step l s' → Overlaps s.mux.state l.1 → ¬s'.Consistent) ∧
    ∀ (host : Host C) labels (s s' : Tracked C R A) l plaintext,
      Run Tracked.OrderlyStep (.new host) labels s →
      s.Step (l, some plaintext) s' → LosesDecoder s.mux.state plaintext → ¬s'.Consistent := by
  have hfaithful : ∀ (host : Host C) labels (s : Tracked C R A),
      Run Tracked.OrderlyStep (.new host) labels s → s.Faithful :=
    fun host labels s hrun => hrun.invariant (fun s l s' hs hstep => hs.step hstep.1 hstep.2)
      (Tracked.faithful_new host)
  refine ⟨fun host labels s hrun => (hfaithful host labels s hrun).consistent,
    fun s s' l hstep hover => hover.not_consistent hstep,
    fun host labels s s' l plaintext hrun hstep hlost => ?_⟩
  exact hlost.not_consistent (hfaithful host labels s hrun) hstep

/-- The node after it registered as a relay of the sample topic. -/
def sampleRelaying : Tracked sampleCrypto sampleRlnc nullAuthenticator :=
  ⟨sampleRelay, recordRoles (.registerRelay sampleTopic 2 2 () : PubsubLabel nullAuthenticator)
    (.new : PubsubState sampleRlnc nullAuthenticator) fun _ => []⟩

/-- The node after it registered as a decoder of the same topic too. -/
def sampleBoth : Tracked sampleCrypto sampleRlnc nullAuthenticator :=
  ⟨⟨sampleRelay.host, sampleRelay.state.registerTopic sampleTopic 2 2 ()⟩,
    recordRoles (.registerTopic sampleTopic 2 2 () : PubsubLabel nullAuthenticator)
      sampleRelay.state sampleRelaying.roles⟩

/-- A node that registered as a decoder of the sample topic. -/
def sampleTracked : Tracked sampleCrypto sampleRlnc nullAuthenticator :=
  ⟨sampleDecoding, recordRoles (.registerTopic sampleTopic 1 2 () : PubsubLabel nullAuthenticator)
    (.new : PubsubState sampleRlnc nullAuthenticator) fun _ => []⟩

lemma sampleRelaying_step : (Tracked.new (sampleHost 1)).Step
    (.registerRelay sampleTopic 2 2 (), none) sampleRelaying :=
  ⟨.other (.registerRelay _ _ _ _ _) rfl, rfl⟩

lemma sampleBoth_step : sampleRelaying.Step (.registerTopic sampleTopic 2 2 (), none) sampleBoth :=
  ⟨.other (.registerTopic _ _ _ _ _) rfl, rfl⟩

lemma sampleTracked_step : (Tracked.new (sampleHost 1)).Step
    (.registerTopic sampleTopic 1 2 (), none) sampleTracked :=
  ⟨.other (.registerTopic _ _ _ _ _) rfl, rfl⟩

/-- A first operation without a plaintext is orderly. -/
lemma orderly_first (l : PubsubLabel nullAuthenticator) : Orderly
    (Tracked.new (sampleHost 1) : Tracked sampleCrypto sampleRlnc nullAuthenticator).mux.state
    (l, none) := by
  refine ⟨?_, fun _ h => by cases h⟩
  rintro ⟨topic, role, other, -, -, hplays⟩
  cases other <;> cases hplays

/-- The sample frame has a coefficient more than the decoder of the sample topic takes. -/
lemma losesDecoder_sample : LosesDecoder sampleTracked.mux.state sampleFrame := by
  have hdecode : (decode sampleRlnc nullAuthenticator (sampleFrame.drop 1)).toOption.map
      (fun r => (r.1.topic, r.2.piece)) = some (sampleTopic, ⟨[1, 0], [7, 8]⟩) := by
    decide +kernel
  rcases hframe : decode sampleRlnc nullAuthenticator (sampleFrame.drop 1) with e | ⟨frame, wp⟩
  · rw [hframe] at hdecode
    cases hdecode
  · rw [hframe] at hdecode
    obtain ⟨htopic, hpiece⟩ := Prod.mk.inj (Option.some.inj hdecode)
    refine ⟨sampleTopic, wp, _, ⟨rfl, frame, hframe, htopic⟩, rfl,
      ExtTreeMap.getElem?_insert_self, rfl, Or.inl ⟨"dimension mismatch", ?_⟩⟩
    rw [show wp.piece = _ from hpiece]
    rfl

/-- A node that registered once is consistent; it no longer is once it registered in the other
role, or lost its decoder. -/
theorem one_role_per_topic_sample :
    sampleRelaying.Consistent ∧ Overlaps sampleRelaying.mux.state
      (.registerTopic sampleTopic 2 2 () : PubsubLabel nullAuthenticator) ∧
      ¬sampleBoth.Consistent ∧
      sampleTracked.Consistent ∧ LosesDecoder sampleTracked.mux.state sampleFrame ∧
      ∃ l s', sampleTracked.Step (l, some sampleFrame) s' ∧ ¬s'.Consistent := by
  have hover : Overlaps sampleRelaying.mux.state
      (.registerTopic sampleTopic 2 2 () : PubsubLabel nullAuthenticator) :=
    ⟨sampleTopic, .decoder, .relay, rfl, by decide, by decide +kernel⟩
  have hrelaying : Run Tracked.OrderlyStep (.new (sampleHost 1)) _ sampleRelaying :=
    .single ⟨sampleRelaying_step, orderly_first _⟩
  have htracked : Run Tracked.OrderlyStep (.new (sampleHost 1)) _ sampleTracked :=
    .single ⟨sampleTracked_step, orderly_first _⟩
  refine ⟨one_role_per_topic.1 (sampleHost 1) _ _ hrelaying, hover,
    one_role_per_topic.2.1 _ _ _ sampleBoth_step hover,
    one_role_per_topic.1 (sampleHost 1) _ _ htracked, losesDecoder_sample, ?_⟩
  obtain ⟨-, -, mux', reason, -, -, -, hrun, -⟩ :=
    losesDecoder_sample.run sampleSource (fun _ => .ok []) .quiet
  have hstep : sampleTracked.Step
      (.processPlaintext (.rejected sampleSource reason), some sampleFrame)
      ⟨mux', recordRoles (.processPlaintext (.rejected sampleSource reason))
        sampleTracked.mux.state sampleTracked.roles⟩ :=
    ⟨.processPlaintext hrun, rfl⟩
  exact ⟨_, _, hstep, one_role_per_topic.2.2 (sampleHost 1) _ _ _ _ _ htracked hstep
    losesDecoder_sample⟩

/-- After a registration as a relay and then as a decoder the topic has both roles; the record
names the decoder first, and the next frame is relayed. -/
theorem second_registration_ignored :
    (∃ labels, Run Tracked.Step (.new (sampleHost 1)) labels sampleBoth ∧
      sampleBoth.mux.state.decoders.contains sampleTopic = true ∧
      sampleBoth.mux.state.recoders.contains sampleTopic = true ∧
      (sampleBoth.roles sampleTopic).head? = some .decoder ∧
      (processed sampleBoth.mux sampleFrame).map Prod.snd
        = some (.pubsubRelayed sampleSource sampleTopic 0)) ∧
    ¬∀ (host : Host sampleCrypto) labels (s : Tracked sampleCrypto sampleRlnc nullAuthenticator),
      Run Tracked.Step (.new host) labels s → s.Consistent := by
  have hrun := (Run.single sampleRelaying_step).snoc sampleBoth_step
  have hdecoder : sampleBoth.mux.state.decoders.contains sampleTopic = true := by decide +kernel
  have hrecoder : sampleBoth.mux.state.recoders.contains sampleTopic = true := by decide +kernel
  refine ⟨⟨_, hrun, hdecoder, hrecoder, by decide +kernel, by decide +kernel⟩, fun hall => ?_⟩
  exact (hall _ _ _ hrun).one_role sampleTopic ⟨hdecoder, hrecoder⟩

end Libp2pCat.Pubsub
