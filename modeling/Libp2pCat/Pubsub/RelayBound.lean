import Libp2pCat.Pubsub.Reactions
import Libp2pCat.Host.Channel

/-!
Relay circulation is bounded.

* `PubsubMux.Step`: one successful operation of a node; `NetStep`: one operation of one node of
  a network, whatever datagram it is handed.
* `Step.recoder`: what an operation can do to the recoder of a topic.
* `RelayInv`: the relay events of a node since it registered, the pieces its recoder holds and
  the rank of its tracker are the same number.
* `relays_bounded`: in every run of a network, so they stay, and all relays together relay at
  most `piece_count` pieces each.
-/

namespace Libp2pCat.Pubsub

open ByteString Effect Std Trace

variable {C : Crypto} {R : Rlnc} {A : PubsubAuth}

/-! ### Operations of a node -/

/-- The operations of a node; receives are labelled with the event they returned. -/
inductive PubsubLabel (A : PubsubAuth) where
  | registerTopic (topic : Topic) (pieceCount pieceByteLen : ℕ) (commitment : A.Commitment)
  | registerRelay (topic : Topic) (pieceCount pieceByteLen : ℕ) (commitment : A.Commitment)
  | unregisterTopic (topic : Topic)
  | unregisterRelay (topic : Topic)
  | evictIdleTopics (maxIdleTicks : UInt64)
  | evictIdleRelays (maxIdleTicks : UInt64)
  | dial (addr : UdpAddr)
  | sendApp (addr : UdpAddr)
  | broadcast (topic : Topic)
  | processPlaintext (event : MuxEvent)
  | recvOne (event : MuxEvent)

/-- A piece of the topic was relayed. -/
def MuxEvent.relays (topic : Topic) : MuxEvent → Bool
  | .pubsubRelayed _ t _ => t = topic
  | _ => false

/-- The operation relayed a piece of the topic. -/
def PubsubLabel.relays (topic : Topic) : PubsubLabel A → Bool
  | .processPlaintext event | .recvOne event => event.relays topic
  | _ => false

/-- The operation registered the node as a relay of the topic. -/
def PubsubLabel.registers (topic : Topic) : PubsubLabel A → Bool
  | .registerRelay t _ _ _ => t = topic
  | _ => false

/-- One successful operation of a node. -/
inductive PubsubMux.Step : PubsubMux C R A → PubsubLabel A → PubsubMux C R A → Prop where
  | registerTopic (mux : PubsubMux C R A) (topic : Topic) (k b : ℕ) (c : A.Commitment) :
      Step mux (.registerTopic topic k b c) ⟨mux.host, mux.state.registerTopic topic k b c⟩
  | registerRelay (mux : PubsubMux C R A) (topic : Topic) (k b : ℕ) (c : A.Commitment) :
      Step mux (.registerRelay topic k b c) ⟨mux.host, mux.state.registerRelay topic k b c⟩
  | unregisterTopic (mux : PubsubMux C R A) (topic : Topic) :
      Step mux (.unregisterTopic topic) ⟨mux.host, mux.state.unregisterTopic topic⟩
  | unregisterRelay (mux : PubsubMux C R A) (topic : Topic) :
      Step mux (.unregisterRelay topic) ⟨mux.host, mux.state.unregisterRelay topic⟩
  | evictIdleTopics (mux : PubsubMux C R A) (n : UInt64) :
      Step mux (.evictIdleTopics n) ⟨mux.host, (mux.state.evictIdleTopics n).1⟩
  | evictIdleRelays (mux : PubsubMux C R A) (n : UInt64) :
      Step mux (.evictIdleRelays n) ⟨mux.host, (mux.state.evictIdleRelays n).1⟩
  | dial {mux mux' : PubsubMux C R A} {addr : UdpAddr} {seed : Key} {w w' : World} :
      (mux.dial addr seed).run w = (.ok mux', w') → Step mux (.dial addr) mux'
  | sendApp {mux mux' : PubsubMux C R A} {addr : UdpAddr} {payload : Bytes} {w w' : World} :
      (mux.sendApp addr payload).run w = (.ok mux', w') → Step mux (.sendApp addr) mux'
  | broadcast {mux mux' : PubsubMux C R A} {topic : Topic} {k b : ℕ}
      {pieces : Except String (List (WirePiece A))} {w w' : World} :
      (mux.broadcast topic k b pieces).run w = (.ok mux', w') → Step mux (.broadcast topic) mux'
  | processPlaintext {mux mux' : PubsubMux C R A} {addr : UdpAddr} {plaintext : Bytes}
      {rng : ℕ → Except String Bytes} {event : MuxEvent} {w w' : World} :
      (mux.processPlaintext addr plaintext rng).run w = (.ok (mux', event), w') →
      Step mux (.processPlaintext event) mux'
  | recvOne {mux mux' : PubsubMux C R A} {seed : Key} {rng : ℕ → Except String Bytes}
      {event : MuxEvent} {w w' : World} :
      (mux.recvOne seed rng).run w = (.ok (mux', event), w') → Step mux (.recvOne event) mux'

/-! ### What an operation does to a recoder -/

/-- The recoder of a topic loses nothing and gains nothing, or goes. -/
def Kept (topic : Topic) (state state' : PubsubState R A) : Prop :=
  ∀ entry', state'.recoders[topic]? = some entry' →
    ∃ entry, state.recoders[topic]? = some entry ∧ entry'.recoder = entry.recoder ∧
      entry'.rankTracker = entry.rankTracker

/-- The recoder of a topic gains one piece that raises its rank. -/
def Gained (topic : Topic) (state state' : PubsubState R A) : Prop :=
  ∃ entry entry' piece, state.recoders[topic]? = some entry ∧
    state'.recoders[topic]? = some entry' ∧
    R.absorb entry.rankTracker piece = .ok entry'.rankTracker ∧
    R.usefulCount entry'.rankTracker ≠ R.usefulCount entry.rankTracker ∧
    R.addPiece entry.recoder piece = .ok entry'.recoder

lemma Kept.of_eq {topic : Topic} {state state' : PubsubState R A}
    (h : state'.recoders = state.recoders) : Kept topic state state' := by
  intro entry' hentry'
  rw [h] at hentry'
  exact ⟨entry', hentry', rfl, rfl⟩

/-- A write to the recoders of one topic keeps those of the others. -/
lemma Kept.insert {topic topic' : Topic} {state state' : PubsubState R A}
    {entry : RecoderEntry R A} (h : state'.recoders = state.recoders.insert topic' entry)
    (hself : topic' = topic → ∃ e, state.recoders[topic]? = some e ∧
      entry.recoder = e.recoder ∧ entry.rankTracker = e.rankTracker) :
    Kept topic state state' := by
  intro entry' hentry'
  rw [h, ExtTreeMap.getElem?_insert] at hentry'
  split at hentry'
  · rename_i heq
    cases hentry'
    exact hself (LawfulEqOrd.eq_of_compare heq)
  · exact ⟨entry', hentry', rfl, rfl⟩

/-- A plaintext relays a piece of the topic and the recoder gains it, or keeps the recoder. -/
lemma Reaction.recoder (topic : Topic) {state state' : PubsubState R A} {addr : UdpAddr}
    {plaintext : Bytes} {event : MuxEvent} (h : Reaction state addr plaintext state' event) :
    (event.relays topic = true ∧ Gained topic state state') ∨
      (event.relays topic = false ∧ Kept topic state state') := by
  cases h with
  | @relayed t wp entry tracker recoder n hframe hrole hverify hopen habsorb hrank hadd =>
      by_cases ht : t = topic
      · subst ht
        exact Or.inl ⟨by simp [MuxEvent.relays], entry, _, wp.piece, hrole,
          ExtTreeMap.getElem?_insert_self, habsorb, hrank, hadd⟩
      · exact Or.inr ⟨by simp [MuxEvent.relays, ht],
          Kept.insert rfl fun heq => absurd heq ht⟩
  | relayRedundant hframe hrole =>
      refine Or.inr ⟨rfl, Kept.insert rfl ?_⟩
      rintro rfl
      exact ⟨_, hrole, rfl, rfl⟩
  | decoder _ _ _ houtcome => cases houtcome <;> exact Or.inr ⟨rfl, Kept.of_eq rfl⟩
  | _ => exact Or.inr ⟨rfl, Kept.of_eq rfl⟩

/-- A receive either passes an event of the host on or processes a plaintext. -/
lemma recvOne_reaction {mux mux' : PubsubMux C R A} {seed : Key} {rng : ℕ → Except String Bytes}
    {event : MuxEvent} {w w' : World}
    (h : (mux.recvOne seed rng).run w = (.ok (mux', event), w')) :
    (mux'.state = mux.state ∧ ∀ topic, event.relays topic = false) ∨
      ∃ addr plaintext, Reaction mux.state addr plaintext mux'.state event := by
  obtain ⟨⟨host, hostEvent⟩, w₁, -, hproc⟩ := Io.flatMap_run_eq_ok.mp h
  cases hostEvent with
  | datagramDelivered addr plaintext =>
      have hrun : (PubsubMux.processPlaintext ⟨host, mux.state⟩ addr plaintext rng).run w₁
          = (.ok (mux', event), w') := hproc
      have hreact := processPlaintext_run_eq_ok hrun
      exact Or.inr ⟨addr, plaintext, hreact⟩
  | _ =>
      cases hproc
      exact Or.inl ⟨rfl, fun _ => rfl⟩

lemma fanOutAll_state {mux mux' : PubsubMux C R A} {frames : List Bytes} {w w' : World}
    (h : (fanOutAll mux frames).run w = (.ok mux', w')) : mux'.state = mux.state := by
  rw [fanOutAll, Io.foldl_flatMap_eq_chain, Io.pure_flatMap] at h
  refine Io.chain_invariant (P := fun m => m.state = mux.state) ?_ rfl h
  intro frame m w m' w' hm hsend
  exact (sendToEach_state hsend).trans hm

/-- An operation registers the node for the topic, relays a piece of it, or leaves its recoder
alone. -/
lemma PubsubMux.Step.recoder {mux mux' : PubsubMux C R A} {l : PubsubLabel A} (topic : Topic)
    (h : Step mux l mux') :
    (l.relays topic = false ∧ ∃ k b c tick, l = .registerRelay topic k b c ∧
      mux'.state.recoders[topic]? = some ⟨R.newRecoder k b, R.newDecoder k b, c, tick⟩) ∨
    (l.registers topic = false ∧ l.relays topic = true ∧ Gained topic mux.state mux'.state) ∨
    (l.registers topic = false ∧ l.relays topic = false ∧ Kept topic mux.state mux'.state) := by
  cases h with
  | registerRelay t k b c =>
      by_cases ht : t = topic
      · subst ht
        exact Or.inl ⟨rfl, k, b, c, _, rfl, ExtTreeMap.getElem?_insert_self⟩
      · exact Or.inr (Or.inr ⟨by simp [PubsubLabel.registers, ht], rfl,
          Kept.insert rfl fun heq => absurd heq ht⟩)
  | unregisterRelay t =>
      refine Or.inr (Or.inr ⟨rfl, rfl, fun entry' hentry' => ?_⟩)
      simp only [PubsubState.unregisterRelay, ExtTreeMap.getElem?_erase] at hentry'
      split at hentry'
      · cases hentry'
      · exact ⟨entry', hentry', rfl, rfl⟩
  | evictIdleRelays n =>
      exact Or.inr (Or.inr ⟨rfl, rfl, fun entry' hentry' =>
        ⟨entry', Lru.getElem?_of_sweep hentry', rfl, rfl⟩⟩)
  | dial hrun =>
      obtain ⟨host, -, rfl⟩ := Io.map_run_eq_ok.mp hrun
      exact Or.inr (Or.inr ⟨rfl, rfl, Kept.of_eq rfl⟩)
  | sendApp hrun =>
      obtain ⟨host, -, rfl⟩ := Io.map_run_eq_ok.mp hrun
      exact Or.inr (Or.inr ⟨rfl, rfl, Kept.of_eq rfl⟩)
  | broadcast hrun =>
      obtain ⟨pieces, w₁, -, hrun⟩ := Io.flatMap_run_eq_ok.mp hrun
      obtain ⟨frames, w₂, -, hrun⟩ := Io.flatMap_run_eq_ok.mp hrun
      exact Or.inr (Or.inr ⟨rfl, rfl, Kept.of_eq (congrArg _ (fanOutAll_state hrun))⟩)
  | processPlaintext hrun =>
      rcases (processPlaintext_run_eq_ok hrun).recoder topic with ⟨hrel, hg⟩ | ⟨hrel, hk⟩
      · exact Or.inr (Or.inl ⟨rfl, hrel, hg⟩)
      · exact Or.inr (Or.inr ⟨rfl, hrel, hk⟩)
  | recvOne hrun =>
      rcases recvOne_reaction hrun with ⟨hsame, hrel⟩ | ⟨addr, plaintext, hr⟩
      · exact Or.inr (Or.inr ⟨rfl, hrel topic, Kept.of_eq (congrArg _ hsame)⟩)
      · rcases hr.recoder topic with ⟨hrel, hg⟩ | ⟨hrel, hk⟩
        · exact Or.inr (Or.inl ⟨rfl, hrel, hg⟩)
        · exact Or.inr (Or.inr ⟨rfl, hrel, hk⟩)
  | _ => exact Or.inr (Or.inr ⟨rfl, rfl, Kept.of_eq rfl⟩)

/-! ### Whole runs -/

/-- What the coder promises about ranks and buffers. -/
structure CountsRank (R : Rlnc) : Prop where
  useful_new : ∀ k b, R.usefulCount (R.newDecoder k b) = 0
  useful_absorb : ∀ {k b d d' p}, R.Absorbed k b d → R.absorb d p = .ok d' →
    R.usefulCount d' = R.usefulCount d ∨ R.usefulCount d' = R.usefulCount d + 1
  useful_le : ∀ {k b d}, R.Absorbed k b d → R.usefulCount d ≤ k
  buffered_new : ∀ k b, R.buffered (R.newRecoder k b) = 0
  buffered_addPiece : ∀ {r r' p}, R.addPiece r p = .ok r' → R.buffered r' = R.buffered r + 1

/-- The relay events of a node for a topic. -/
def relayed (topic : Topic) (labels : List (PubsubLabel A)) : ℕ :=
  labels.countP (PubsubLabel.relays topic)

/-- How often a node was registered as a relay of a topic. -/
def registrations (topic : Topic) (labels : List (PubsubLabel A)) : ℕ :=
  labels.countP (PubsubLabel.registers topic)

/-- A node relays nothing before it registers; then its relay events, the pieces its recoder
holds and the rank of its tracker are the same number, which never exceeds `K`. -/
structure RelayInv (K : ℕ) (topic : Topic) (labels : List (PubsubLabel A))
    (state : PubsubState R A) : Prop where
  unregistered : registrations topic labels = 0 →
    state.recoders[topic]? = none ∧ relayed topic labels = 0
  registered : ∀ entry, state.recoders[topic]? = some entry →
    relayed topic labels = R.buffered entry.recoder ∧
    relayed topic labels = R.usefulCount entry.rankTracker ∧
    ∃ b, R.Absorbed K b entry.rankTracker
  bounded : relayed topic labels ≤ K

section

variable {topic : Topic} {K : ℕ} {mux mux' : PubsubMux C R A} {l : PubsubLabel A}
  {labels : List (PubsubLabel A)}

/-- One operation keeps the three numbers equal. -/
lemma RelayInv.step (hR : CountsRank R) (h : RelayInv K topic labels mux.state)
    (hstep : PubsubMux.Step mux l mux') (hreg : registrations topic (labels ++ [l]) ≤ 1)
    (hK : ∀ k b c, l = .registerRelay topic k b c → k = K) :
    RelayInv K topic (labels ++ [l]) mux'.state := by
  have hrelayed : relayed topic (labels ++ [l])
      = relayed topic labels + (if l.relays topic then 1 else 0) := by
    rw [relayed, List.countP_append, List.countP_singleton]
    rfl
  have hregs : registrations topic (labels ++ [l])
      = registrations topic labels + (if l.registers topic then 1 else 0) := by
    rw [registrations, List.countP_append, List.countP_singleton]
    rfl
  rcases hstep.recoder topic with ⟨hnot, k, b, c, tick, rfl, hentry⟩ | ⟨hnoreg, hrel, hgain⟩ |
    ⟨hnoreg, hnot, hkept⟩
  · -- the node registers: it was not registered before, and starts from nothing
    obtain rfl := hK k b c rfl
    have hreg1 : (PubsubLabel.registerRelay topic k b c : PubsubLabel A).registers topic = true := by
      simp [PubsubLabel.registers]
    rw [hregs, hreg1, if_pos rfl] at hreg
    obtain ⟨-, hzero⟩ := h.unregistered (by omega)
    rw [hnot, hzero] at hrelayed
    refine ⟨fun hno => ?_, fun entry he => ?_, by simp [hrelayed]⟩
    · rw [hregs, hreg1, if_pos rfl] at hno
      omega
    · rw [hentry] at he
      cases he
      exact ⟨by simp [hrelayed, hR.buffered_new], by simp [hrelayed, hR.useful_new], b, .new⟩
  · -- a piece is relayed: each of the numbers goes up by one
    obtain ⟨entry, entry', piece, hold, hnew, habsorb, hrank, hadd⟩ := hgain
    obtain ⟨hbuf, huse, b, habs⟩ := h.registered entry hold
    have hone : R.usefulCount entry'.rankTracker = R.usefulCount entry.rankTracker + 1 :=
      (hR.useful_absorb habs habsorb).resolve_left hrank
    have habs' := habs.absorb habsorb
    rw [hrel, if_pos rfl] at hrelayed
    refine ⟨fun hno => ?_, fun e he => ?_, ?_⟩
    · rw [hregs] at hno
      obtain ⟨hnone, -⟩ := h.unregistered (by omega)
      rw [hold] at hnone
      cases hnone
    · rw [hnew] at he
      cases he
      exact ⟨by rw [hrelayed, hbuf, hR.buffered_addPiece hadd], by rw [hrelayed, huse, hone],
        b, habs'⟩
    · rw [hrelayed, huse, ← hone]
      exact hR.useful_le habs'
  · -- nothing happens to the recoder, or it goes
    rw [hnot, if_neg Bool.false_ne_true, Nat.add_zero] at hrelayed
    refine ⟨fun hno => ?_, fun entry' he => ?_, ?_⟩
    · rw [hregs] at hno
      obtain ⟨hnone, hzero⟩ := h.unregistered (by omega)
      refine ⟨?_, by rw [hrelayed, hzero]⟩
      cases hsome : mux'.state.recoders[topic]? with
      | none => rfl
      | some entry' =>
          obtain ⟨entry, hold, -⟩ := hkept entry' hsome
          rw [hnone] at hold
          cases hold
    · obtain ⟨entry, hold, hr, ht⟩ := hkept entry' he
      rw [hr, ht, hrelayed]
      exact h.registered entry hold
    · rw [hrelayed]
      exact h.bounded

/-- Every run of a node keeps the three numbers equal. -/
lemma relayInv_of_run (hR : CountsRank R) (hrun : Run PubsubMux.Step mux labels mux')
    (hinit : mux.state.recoders[topic]? = none) (hreg : registrations topic labels ≤ 1)
    (hK : ∀ k b c, .registerRelay topic k b c ∈ labels → k = K) :
    RelayInv K topic labels mux'.state := by
  induction hrun with
  | nil =>
      refine ⟨fun _ => ⟨hinit, rfl⟩, fun entry he => ?_, Nat.zero_le _⟩
      rw [hinit] at he
      cases he
  | @snoc s s' labels l hrun hstep ih =>
      have hle : registrations topic labels ≤ registrations topic (labels ++ [l]) := by
        rw [registrations, registrations, List.countP_append]
        exact Nat.le_add_right _ _
      have hinv := ih (Nat.le_trans hle hreg) fun k b c hl => hK k b c (by simp [hl])
      exact hinv.step hR hstep hreg fun k b c hl => hK k b c (by simp [hl])

end

/-! ### Networks -/

section

variable {ι : Type} [DecidableEq ι]

/-- One operation of one node of a network, whatever datagram reaches it. -/
def NetStep (s : ι → PubsubMux C R A) (l : ι × PubsubLabel A) (s' : ι → PubsubMux C R A) : Prop :=
  ∃ mux', PubsubMux.Step (s l.1) l.2 mux' ∧ s' = Function.update s l.1 mux'

/-- The operations of one node. -/
def ownLabels (i : ι) (labels : List (ι × PubsubLabel A)) : List (PubsubLabel A) :=
  (labels.filter fun l => l.1 = i).map Prod.snd

/-- A run of a network is a run of each of its nodes. -/
lemma run_ownLabels {s s' : ι → PubsubMux C R A} {labels : List (ι × PubsubLabel A)}
    (h : Run NetStep s labels s') (i : ι) :
    Run PubsubMux.Step (s i) (ownLabels i labels) (s' i) := by
  induction h with
  | nil => exact .nil _
  | @snoc t t' labels l hrun hstep ih =>
      obtain ⟨mux', hmux, rfl⟩ := hstep
      rw [ownLabels, List.filter_append, List.map_append]
      by_cases hi : l.1 = i
      · subst hi
        simpa [ownLabels] using ih.snoc hmux
      · simpa [ownLabels, hi, Function.update_of_ne (Ne.symm hi)] using ih

/-- The relay events of a network are those of its nodes. -/
lemma relayed_eq_sum [Fintype ι] (topic : Topic) (labels : List (ι × PubsubLabel A)) :
    labels.countP (fun l => l.2.relays topic)
      = ∑ i, relayed topic (ownLabels i labels) := by
  induction labels with
  | nil => simp [relayed, ownLabels]
  | cons l labels ih =>
      have hcons : ∀ i, relayed topic (ownLabels i (l :: labels)) =
          relayed topic (ownLabels i labels)
            + if l.1 = i then (if l.2.relays topic then 1 else 0) else 0 := by
        intro i
        by_cases hi : l.1 = i
        · simp [relayed, ownLabels, hi, List.countP_cons]
        · simp [relayed, ownLabels, hi]
      rw [List.countP_cons, ih, Finset.sum_congr rfl fun i _ => hcons i, Finset.sum_add_distrib,
        Finset.sum_ite_eq, if_pos (Finset.mem_univ _)]

/-- Relay circulation is bounded: in every run of a network whose nodes each register as a relay
of the topic at most once and with `K` pieces, whatever frames reach them in whatever order,
each relay has relayed as many pieces as its recoder holds, which is the rank of its tracker
and at most `K`; and all of them together relayed at most `K` pieces for each relay. -/
theorem relays_bounded [Fintype ι] (hR : CountsRank R) {topic : Topic} {K : ℕ}
    {s₀ s : ι → PubsubMux C R A} {labels : List (ι × PubsubLabel A)}
    (hinit : ∀ i, (s₀ i).state.recoders[topic]? = none) (hrun : Run NetStep s₀ labels s)
    (honce : ∀ i, registrations topic (ownLabels i labels) ≤ 1)
    (hK : ∀ i k b c, (i, .registerRelay topic k b c) ∈ labels → k = K) :
    (∀ i entry, (s i).state.recoders[topic]? = some entry →
      relayed topic (ownLabels i labels) = R.buffered entry.recoder ∧
      relayed topic (ownLabels i labels) = R.usefulCount entry.rankTracker ∧
      relayed topic (ownLabels i labels) ≤ K) ∧
    labels.countP (fun l => l.2.relays topic) ≤
      (Finset.univ.filter fun i => 0 < registrations topic (ownLabels i labels)).card * K := by
  have hinv : ∀ i, RelayInv K topic (ownLabels i labels) (s i).state := by
    intro i
    refine relayInv_of_run hR (run_ownLabels hrun i) (hinit i) (honce i) fun k b c hmem => ?_
    obtain ⟨⟨j, l⟩, hown, rfl⟩ := List.mem_map.mp hmem
    obtain ⟨hl, hj⟩ := List.mem_filter.mp hown
    obtain rfl : j = i := of_decide_eq_true hj
    exact hK j k b c hl
  refine ⟨fun i entry hentry => ?_, ?_⟩
  · obtain ⟨hbuf, huse, -⟩ := (hinv i).registered entry hentry
    exact ⟨hbuf, huse, (hinv i).bounded⟩
  · -- a node that never registered adds nothing to the sum
    rw [relayed_eq_sum, ← smul_eq_mul,
      ← Finset.sum_filter_of_ne (s := Finset.univ)
        (p := fun i => 0 < registrations topic (ownLabels i labels)) fun i _ hne => ?_]
    · exact Finset.sum_le_card_nsmul _ _ _ fun i _ => (hinv i).bounded
    · by_contra hno
      exact hne ((hinv i).unregistered (by omega)).2

end

lemma sampleRlnc_countsRank : CountsRank sampleRlnc where
  useful_new _ _ := rfl
  useful_absorb {k b d d' p} _ habsorb := by
    obtain ⟨-, -, rfl | ⟨-, hpieces⟩⟩ := sampleRlnc_absorb_eq_ok habsorb
    · exact Or.inl rfl
    · refine Or.inr ?_
      change (SampleDecoder.pieces d').length = (SampleDecoder.pieces d).length + 1
      rw [hpieces, List.length_append, List.length_singleton]
  useful_le hd := (sampleRlnc_absorbed hd).2.2
  buffered_new _ _ := rfl
  buffered_addPiece {r r' p} hadd := by
    simp only [sampleRlnc] at hadd ⊢
    split at hadd
    · cases hadd
    · cases hadd
      exact List.length_append

/-- A relay of two-piece generations of the sample topic. -/
def sampleRelay : PubsubMux sampleCrypto sampleRlnc nullAuthenticator :=
  ⟨sampleHost 1, PubsubState.new.registerRelay sampleTopic 2 2 ()⟩

/-- What the processing of a plaintext came to. -/
def processed (mux : PubsubMux sampleCrypto sampleRlnc nullAuthenticator) (plaintext : Bytes) :
    Option (PubsubMux sampleCrypto sampleRlnc nullAuthenticator × MuxEvent) :=
  match (mux.processPlaintext sampleSource plaintext fun _ => .ok []).run .quiet with
  | (.ok r, _) => some r
  | _ => none

/-- Two nodes that are connected with each other. -/
def samplePair : Fin 2 → PubsubMux sampleCrypto sampleRlnc nullAuthenticator :=
  ![.new (sampleEnd 1 2), .new (sampleEnd 2 1)]

/-- The two after they registered as relays of the sample topic. -/
def sampleRelays (i : Fin 2) : PubsubMux sampleCrypto sampleRlnc nullAuthenticator :=
  ⟨(samplePair i).host, sampleRelay.state⟩

/-- Two connected nodes register, and one is handed a frame by the source.  What it relays is one
datagram to the other, which relays the piece in its turn; the recoder of each holds one piece, and
this is the rank of its tracker. -/
theorem relays_bounded_sample :
    ∃ (mux₀ mux₁ : PubsubMux sampleCrypto sampleRlnc nullAuthenticator) (w₀ w₁ : World)
      (datagram : Bytes) (labels : List (Fin 2 × PubsubLabel nullAuthenticator))
      (s : Fin 2 → PubsubMux sampleCrypto sampleRlnc nullAuthenticator),
      ((sampleRelays 0).processPlaintext sampleSource sampleFrame fun _ => .ok []).run .quiet
        = (.ok (mux₀, .pubsubRelayed sampleSource sampleTopic 1), w₀) ∧
      w₀.sent.head? = some (sampleAddr, datagram) ∧
      ((sampleRelays 1).recvOne (.replicate 32 0) fun _ => .ok []).run
          (arrival sampleAddr datagram)
        = (.ok (mux₁, .pubsubRelayed sampleAddr sampleTopic 0), w₁) ∧
      Run NetStep samplePair labels s ∧ s 0 = mux₀ ∧ s 1 = mux₁ ∧
      (∀ i, ∃ entry, (s i).state.recoders[sampleTopic]? = some entry ∧
        relayed sampleTopic (ownLabels i labels) = 1 ∧ sampleRlnc.buffered entry.recoder = 1 ∧
        sampleRlnc.usefulCount entry.rankTracker = 1) ∧
      labels.countP (fun l => l.2.relays sampleTopic) ≤ 2 * 2 := by
  have hall : (((sampleRelays 0).processPlaintext sampleSource sampleFrame
      fun _ => .ok []).outcome .quiet).bind (fun r => r.2.sent.head?.bind fun x =>
        (((sampleRelays 1).recvOne (.replicate 32 0) fun _ => .ok []).outcome
          (arrival sampleAddr x.2)).map fun r' =>
            (r.1.2, r.1.1.state.recoders.contains sampleTopic, x.1, r'.1.2,
              r'.1.1.state.recoders.contains sampleTopic))
      = some (.pubsubRelayed sampleSource sampleTopic 1, true, sampleAddr,
          .pubsubRelayed sampleAddr sampleTopic 0, true) := by
    decide
  obtain ⟨⟨⟨mux₀, _⟩, w₀⟩, hup, hrest⟩ := Option.bind_eq_some_iff.mp hall
  obtain ⟨⟨_, datagram⟩, hsent, hrest⟩ := Option.bind_eq_some_iff.mp hrest
  obtain ⟨⟨⟨mux₁, _⟩, w₁⟩, hdown, heq⟩ := Option.map_eq_some_iff.mp hrest
  simp only [Prod.mk.injEq] at heq
  obtain ⟨rfl, hkept₀, rfl, rfl, hkept₁⟩ := heq
  have hup := Io.run_of_outcome hup
  have hdown := Io.run_of_outcome hdown
  let s₁ := Function.update samplePair 0 (sampleRelays 0)
  let s₂ := Function.update s₁ 1 (sampleRelays 1)
  let s₃ := Function.update s₂ 0 mux₀
  let s₄ := Function.update s₃ 1 mux₁
  have hreg₀ : NetStep samplePair (0, .registerRelay sampleTopic 2 2 ()) s₁ :=
    ⟨sampleRelays 0, .registerRelay _ _ _ _ _, rfl⟩
  have hreg₁ : NetStep s₁ (1, .registerRelay sampleTopic 2 2 ()) s₂ :=
    ⟨sampleRelays 1, .registerRelay _ _ _ _ _, rfl⟩
  have hframe₀ : NetStep s₂ (0, .processPlaintext (.pubsubRelayed sampleSource sampleTopic 1)) s₃ :=
    ⟨mux₀, .processPlaintext hup, rfl⟩
  have hframe₁ : NetStep s₃ (1, .recvOne (.pubsubRelayed sampleAddr sampleTopic 0)) s₄ :=
    ⟨mux₁, .recvOne hdown, rfl⟩
  let labels : List (Fin 2 × PubsubLabel nullAuthenticator) :=
    [(0, .registerRelay sampleTopic 2 2 ()), (1, .registerRelay sampleTopic 2 2 ()),
      (0, .processPlaintext (.pubsubRelayed sampleSource sampleTopic 1)),
      (1, .recvOne (.pubsubRelayed sampleAddr sampleTopic 0))]
  have hnet : Run NetStep samplePair labels s₄ :=
    (((Run.single hreg₀).snoc hreg₁).snoc hframe₀).snoc hframe₁
  have hinit : ∀ i, (samplePair i).state.recoders[sampleTopic]? = none :=
    Fin.forall_fin_two.mpr ⟨rfl, rfl⟩
  obtain ⟨heach, hbound⟩ := relays_bounded (K := 2) sampleRlnc_countsRank hinit hnet
    (Fin.forall_fin_two.mpr ⟨by decide, by decide⟩) fun i k b c hmem => by
      simp only [labels, List.mem_cons, Prod.mk.injEq, reduceCtorEq, List.not_mem_nil, and_false,
        or_false] at hmem
      rcases hmem with ⟨-, heq⟩ | ⟨-, heq⟩ <;> exact (PubsubLabel.registerRelay.inj heq).2.1
  have hentries : ∀ i, ∃ entry, (s₄ i).state.recoders[sampleTopic]? = some entry :=
    Fin.forall_fin_two.mpr ⟨getElem?_of_contains hkept₀, getElem?_of_contains hkept₁⟩
  have hones : ∀ i, relayed sampleTopic (ownLabels i labels) = 1 :=
    Fin.forall_fin_two.mpr ⟨rfl, rfl⟩
  refine ⟨mux₀, mux₁, w₀, w₁, datagram, labels, s₄, hup, hsent, hdown, hnet, rfl, rfl, fun i => ?_,
    hbound⟩
  obtain ⟨entry, hentry⟩ := hentries i
  obtain ⟨hbuf, huse, -⟩ := heach i entry hentry
  exact ⟨entry, hentry, hones i, hbuf.symm.trans (hones i), huse.symm.trans (hones i)⟩

end Libp2pCat.Pubsub
