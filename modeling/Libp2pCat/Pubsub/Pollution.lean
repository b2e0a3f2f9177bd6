import Libp2pCat.Pubsub.Fanout
import Libp2pCat.Pubsub.RoundTrip

/-!
A network of relays and decoders hands out nothing but what its source sent.

* `Generation`: the pieces of one generation and what the coder promises about them.
* `Gossip.Step`: one move of a network over a wire from which plaintexts may be heard late, twice,
  in any order or never, and into which strangers may put what does not verify.
* `Generation.Clean`, `Generation.Sound`: the invariants of a node and of a plaintext.
* `Clean.reaction`, `Sound.relay`: hearing a sound plaintext keeps a node clean, and what a clean
  node makes of it is sound.
* `no_pollution`: every generation that is delivered is the one the source sent.
-/

namespace Libp2pCat.Pubsub

open ByteString Effect Std Trace

variable {C : Crypto} {R : Rlnc} {A : PubsubAuth}

/-! ### Generations -/

/-- A decoder of the given dimensions that absorbed only such pieces. -/
inductive Rlnc.AbsorbedFrom (R : Rlnc) (k b : ℕ) (pieces : Set CodedPiece) :
    R.DecoderState → Prop where
  | new : AbsorbedFrom R k b pieces (R.newDecoder k b)
  | absorb {d d' : R.DecoderState} {p : CodedPiece} : AbsorbedFrom R k b pieces d → p ∈ pieces →
      R.absorb d p = .ok d' → AbsorbedFrom R k b pieces d'

/-- A recoder of the given dimensions to which only such pieces were added. -/
inductive Rlnc.CollectedFrom (R : Rlnc) (k b : ℕ) (pieces : Set CodedPiece) : R.Recoder → Prop where
  | new : CollectedFrom R k b pieces (R.newRecoder k b)
  | addPiece {r r' : R.Recoder} {p : CodedPiece} : CollectedFrom R k b pieces r → p ∈ pieces →
      R.addPiece r p = .ok r' → CollectedFrom R k b pieces r'

/-- One generation: its source commits to data, whose coded pieces are the combinations of the
source's pieces.  The coder makes only such combinations out of such combinations, and a decoder
that is complete with them has the data. -/
structure Generation (R : Rlnc) (A : PubsubAuth) where
  topic : Topic
  pieceCount : ℕ
  pieceByteLen : ℕ
  commitment : A.Commitment
  data : Bytes
  pieces : Set CodedPiece
  width : ∀ p ∈ pieces, p.codingVector.length = pieceCount
  recode : ∀ {r rng p}, R.CollectedFrom pieceCount pieceByteLen pieces r →
    R.recodeOne r rng = .ok p → p ∈ pieces
  decode : ∀ {d bytes}, R.AbsorbedFrom pieceCount pieceByteLen pieces d → R.isComplete d = true →
    R.decode d = .ok bytes → bytes = data

namespace Generation

variable (G : Generation R A)

/-- Whatever piece of the topic a plaintext carries under a tag that verifies is one of the
generation. -/
def Sound (plaintext : Bytes) : Prop :=
  ∀ wp, Carries R A plaintext G.topic wp → A.verify G.commitment wp.piece wp.tag = .ok () →
    wp.piece ∈ G.pieces

/-- The roles a node has on the topic are bound to the generation, and hold only its pieces. -/
structure Clean (state : PubsubState R A) : Prop where
  decoder : ∀ entry, state.decoders[G.topic]? = some entry → entry.commitment = G.commitment ∧
    R.AbsorbedFrom G.pieceCount G.pieceByteLen G.pieces entry.state
  recoder : ∀ entry, state.recoders[G.topic]? = some entry → entry.commitment = G.commitment ∧
    R.CollectedFrom G.pieceCount G.pieceByteLen G.pieces entry.recoder

/-- An operation that takes a role on the topic takes it for the generation. -/
def Agrees : PubsubLabel A → Prop
  | .registerTopic topic k b c | .registerRelay topic k b c => topic = G.topic →
      k = G.pieceCount ∧ b = G.pieceByteLen ∧ c = G.commitment
  | _ => True

end Generation

/-! ### Networks over a wire -/

/-- The nodes of a network and every plaintext that was put on its wire. -/
structure Gossip (ι : Type) (C : Crypto) (R : Rlnc) (A : PubsubAuth) where
  node : ι → PubsubMux C R A
  wire : List Bytes

/-- The operation neither hears nor sends a frame. -/
def PubsubLabel.silent : PubsubLabel A → Bool
  | .broadcast _ | .processPlaintext _ | .recvOne _ => false
  | _ => true

/-- The plaintexts among the operations of a host. -/
def plaintexts (l : List HostLabel) : List Bytes :=
  l.filterMap fun label => match label with
    | .send _ plaintext => some plaintext
    | _ => none

/-- The moves of a network. -/
inductive GossipLabel (ι : Type) (A : PubsubAuth) where
  | node (i : ι) (label : PubsubLabel A)
  | host (i : ι)
  | inject (plaintext : Bytes)

section

variable {ι : Type} [DecidableEq ι] (G : Generation R A)

/-- One move of a network.  What a node hears was put on the wire at some time; the peer it seems
to come from is arbitrary. -/
inductive Gossip.Step : Gossip ι C R A → GossipLabel ι A → Gossip ι C R A → Prop where
  /-- A node registers, unregisters or sweeps a topic, dials or sends application data. -/
  | own {n : Gossip ι C R A} {i : ι} {l : PubsubLabel A} {mux' : PubsubMux C R A} :
      PubsubMux.Step (n.node i) l mux' → l.silent = true → G.Agrees l →
      Step n (.node i l) ⟨Function.update n.node i mux', n.wire⟩
  /-- The connections of a node change. -/
  | host (n : Gossip ι C R A) (i : ι) (host : Host C) :
      Step n (.host i) ⟨Function.update n.node i ⟨host, (n.node i).state⟩, n.wire⟩
  /-- A node hears a plaintext and sends what it makes of it. -/
  | hear {n : Gossip ι C R A} {i : ι} {addr : UdpAddr} {plaintext : Bytes}
      {rng : ℕ → Except String Bytes} {mux' : PubsubMux C R A} {event : MuxEvent} {w w' : World}
      {l : List HostLabel} : plaintext ∈ n.wire →
      ((n.node i).processPlaintext addr plaintext rng).run w = (.ok (mux', event), w') →
      Run Host.Step ((n.node i).host, w) l (mux'.host, w') →
      Forwards (n.node i) addr plaintext rng event l →
      Step n (.node i (.processPlaintext event))
        ⟨Function.update n.node i mux', n.wire ++ plaintexts l⟩
  /-- A node sends coded pieces; on the topic of the generation, those of its source. -/
  | broadcast {n : Gossip ι C R A} {i : ι} {topic : Topic} {k b : ℕ}
      {coded : List (WirePiece A)} {frames : List Bytes} {mux' : PubsubMux C R A} {w w' : World}
      {l : List HostLabel} : ((n.node i).broadcast topic k b (.ok coded)).run w = (.ok mux', w') →
      Run Host.Step ((n.node i).host, w) l (mux'.host, w') →
      coded.mapM (fun wp => encode R A topic k b wp) = .ok frames →
      l = (frames.flatMap fun frame =>
        sendsTo (prefixKind KIND_PUBSUB frame) (n.node i).host.establishedAddrs) →
      (topic = G.topic → k = G.pieceCount ∧ ∀ wp ∈ coded, wp.piece ∈ G.pieces ∧
        wp.tag = A.tag G.commitment wp.piece) →
      Step n (.node i (.broadcast topic))
        ⟨Function.update n.node i mux', n.wire ++ plaintexts l⟩
  /-- A stranger puts a plaintext on the wire; it has no tag of the generation but for its
  pieces. -/
  | inject (n : Gossip ι C R A) {plaintext : Bytes} : G.Sound plaintext →
      Step n (.inject plaintext) ⟨n.node, n.wire ++ [plaintext]⟩

/-- Every plaintext that was heard on the wire and processed is such a move. -/
lemma Gossip.exists_step_hear {n : Gossip ι C R A} {i : ι} {addr : UdpAddr} {plaintext : Bytes}
    {rng : ℕ → Except String Bytes} {mux' : PubsubMux C R A} {event : MuxEvent} {w w' : World}
    (hmem : plaintext ∈ n.wire)
    (hrun : ((n.node i).processPlaintext addr plaintext rng).run w = (.ok (mux', event), w')) :
    ∃ wire, Gossip.Step G n (.node i (.processPlaintext event))
      ⟨Function.update n.node i mux', n.wire ++ wire⟩ := by
  obtain ⟨l, host, hsends, rfl, hforwards⟩ :=
    (n.node i).follows_processPlaintext addr plaintext rng w (mux', event) w' hrun
  exact ⟨plaintexts l, .hear hmem hrun hsends hforwards⟩

/-- Every broadcast of the source of the generation is such a move. -/
lemma Gossip.exists_step_broadcast {n : Gossip ι C R A} {i : ι} {topic : Topic} {k b : ℕ}
    {coded : List (WirePiece A)} {mux' : PubsubMux C R A} {w w' : World}
    (hrun : ((n.node i).broadcast topic k b (.ok coded)).run w = (.ok mux', w'))
    (hsource : topic = G.topic → k = G.pieceCount ∧ ∀ wp ∈ coded, wp.piece ∈ G.pieces ∧
      wp.tag = A.tag G.commitment wp.piece) :
    ∃ frames, coded.mapM (fun wp => encode R A topic k b wp) = .ok frames ∧
      Gossip.Step G n (.node i (.broadcast topic)) ⟨Function.update n.node i mux',
        n.wire ++ plaintexts (frames.flatMap fun frame =>
          sendsTo (prefixKind KIND_PUBSUB frame) (n.node i).host.establishedAddrs)⟩ := by
  obtain ⟨l, host, hsends, rfl, -, coded', frames, hcoded, hframes, rfl⟩ :=
    (n.node i).follows_broadcast topic k b (.ok coded) w mux' w' hrun
  cases hcoded
  exact ⟨frames, hframes, .broadcast hrun hsends hframes rfl hsource⟩

end

/-! ### What a frame says of its topic -/

variable {fits : Set A.Tag}

/-- A frame that is read has the topic it was written for. -/
lemma topic_of_encode (hA : A.ReadsBack fits) {topic : Topic} {k b : ℕ} {wp wp' : WirePiece A}
    {bytes : Bytes} {frame : PubsubFrame} (henc : encode R A topic k b wp = .ok bytes)
    (hdec : decode R A bytes = .ok (frame, wp')) : frame.topic = topic := by
  obtain ⟨-, -, rfl⟩ := encode_eq_ok_iff.mp henc
  obtain ⟨-, -, -, hsame, -⟩ := (decode_eq_ok_iff hA).mp hdec
  rw [layout, layout, List.cons.injEq] at hsame
  have hlen := congrArg UInt8.toNat hsame.1
  rw [UInt8.toNat_ofNat_of_lt' topic.length_asBytes_lt,
    UInt8.toNat_ofNat_of_lt' frame.topic.length_asBytes_lt] at hlen
  exact (Topic.asBytes_injective (List.append_inj hsame.2 hlen).1).symm

/-- What is heard of a frame that was sent is the piece it was made of. -/
lemma carries_prefixKind (hA : A.ReadsBack fits) (hR : R.ReadsPiecesBack) {topic topic' : Topic}
    {k b : ℕ} {wp wp' : WirePiece A} {frame : Bytes} (henc : encode R A topic k b wp = .ok frame)
    (hcarries : Carries R A (prefixKind KIND_PUBSUB frame) topic' wp')
    (hwp : topic = topic' → wp.piece.codingVector.length = k ∧ wp.tag ∈ fits) :
    topic = topic' ∧ wp' = wp := by
  obtain ⟨-, frame', hdec, rfl⟩ := hcarries
  rw [prefixKind, List.drop_one, List.tail_cons] at hdec
  have htopic := topic_of_encode hA henc hdec
  obtain ⟨hcount, hfits⟩ := hwp htopic.symm
  obtain ⟨hk, hb, rfl⟩ := encode_eq_ok_iff.mp henc
  have hread : decode R A (layout A ⟨topic, k, b, R.pieceToBytes wp.piece⟩ wp.commitment wp.tag) =
      .ok (⟨topic, k, b, R.pieceToBytes wp.piece⟩, wp) :=
    decode_layout hA hk hb hfits (hcount ▸ hR.pieceFromBytes wp.piece)
  rw [hread] at hdec
  exact ⟨htopic.symm, (Prod.mk.inj (Except.ok.inj hdec)).2.symm⟩

/-! ### One plaintext -/

namespace Generation

variable {G : Generation R A} {state state' : PubsubState R A} {plaintext : Bytes}

lemma Clean.of_eq (h : G.Clean state)
    (hd : state'.decoders[G.topic]? = state.decoders[G.topic]?)
    (hr : state'.recoders[G.topic]? = state.recoders[G.topic]?) : G.Clean state' :=
  ⟨fun entry he => h.decoder entry (hd ▸ he), fun entry he => h.recoder entry (hr ▸ he)⟩

/-- Losing a decoder keeps a node clean. -/
lemma Clean.erase_decoder (h : G.Clean state) {topic : Topic} {tick : UInt64} :
    G.Clean { state with decoders := state.decoders.erase topic, tick := tick } := by
  refine ⟨fun entry he => ?_, h.recoder⟩
  rw [ExtTreeMap.getElem?_erase] at he
  split at he
  · cases he
  · exact h.decoder entry he

/-- Hearing a sound plaintext keeps a node clean, and what it delivers of the topic is the data. -/
lemma Clean.reaction (h : G.Clean state) (hsound : G.Sound plaintext) {addr : UdpAddr}
    {event : MuxEvent} (hreact : Reaction state addr plaintext state' event) :
    G.Clean state' ∧ ∀ a data, event = .pubsubDelivered a G.topic data → data = G.data := by
  cases hreact with
  | @relayRedundant topic wp entry hframe hrole hverify hgain =>
      refine ⟨⟨h.decoder, fun entry' he => ?_⟩, fun _ _ hevent => by cases hevent⟩
      rw [ExtTreeMap.getElem?_insert] at he
      split at he
      · rename_i heq
        obtain rfl := LawfulEqOrd.eq_of_compare heq
        cases he
        exact h.recoder entry hrole
      · exact h.recoder entry' he
  | @relayed topic wp entry tracker recoder n hframe hrole hverify hopen habsorb hrank hadd =>
      refine ⟨⟨h.decoder, fun entry' he => ?_⟩, fun _ _ hevent => by cases hevent⟩
      rw [ExtTreeMap.getElem?_insert] at he
      split at he
      · rename_i heq
        obtain rfl := LawfulEqOrd.eq_of_compare heq
        cases he
        obtain ⟨hcommit, hcollected⟩ := h.recoder entry hrole
        exact ⟨hcommit, hcollected.addPiece (hsound wp hframe (hcommit ▸ hverify)) hadd⟩
      · exact h.recoder entry' he
  | @decoder topic wp entry _ _ hframe _ hrole houtcome =>
      cases houtcome with
      | unverified => exact ⟨h, fun _ _ hevent => by cases hevent⟩
      | @absorbed next hverify habsorb _ =>
          refine ⟨⟨fun entry' he => ?_, h.recoder⟩, fun _ _ hevent => by cases hevent⟩
          rw [ExtTreeMap.getElem?_insert] at he
          split at he
          · rename_i heq
            obtain rfl := LawfulEqOrd.eq_of_compare heq
            cases he
            obtain ⟨hcommit, habsorbed⟩ := h.decoder entry hrole
            exact ⟨hcommit, habsorbed.absorb (hsound wp hframe (hcommit ▸ hverify)) habsorb⟩
          · exact h.decoder entry' he
      | @delivered next data hverify habsorb hfull hdecode =>
          refine ⟨h.erase_decoder, fun a data' hevent => ?_⟩
          obtain ⟨-, rfl, rfl⟩ := MuxEvent.pubsubDelivered.inj hevent
          obtain ⟨hcommit, habsorbed⟩ := h.decoder entry hrole
          have hpiece := hsound wp hframe (hcommit ▸ hverify)
          exact G.decode (habsorbed.absorb hpiece habsorb) hfull hdecode
      | unabsorbed | undecodable =>
          exact ⟨h.erase_decoder, fun _ _ hevent => by cases hevent⟩
  | _ => exact ⟨h, fun _ _ hevent => by cases hevent⟩

/-- What a clean relay forwards of a sound plaintext is sound. -/
lemma Sound.relay (hA : A.ReadsBack fits) (hR : R.ReadsPiecesBack)
    (hfits : ∀ c p, A.tag c p ∈ fits) (hsound : G.Sound plaintext) (hclean : G.Clean state)
    {rng : ℕ → Except String Bytes} {topic : Topic} {frame : Bytes}
    (hrelays : RelaysAs state plaintext rng topic frame) :
    G.Sound (prefixKind KIND_PUBSUB frame) := by
  obtain ⟨wp, entry, recoder, recoded, hframe, hentry, hverify, hadd, hrecode, henc⟩ := hrelays
  intro wp' hcarries _
  have hgenuine : topic = G.topic →
      recoded ∈ G.pieces ∧ recoded.codingVector.length = wp.piece.codingVector.length := by
    rintro rfl
    obtain ⟨hcommit, hcollected⟩ := hclean.recoder entry hentry
    have hpiece := hsound wp hframe (hcommit ▸ hverify)
    have hrecoded := G.recode (hcollected.addPiece hpiece hadd) hrecode
    exact ⟨hrecoded, (G.width _ hrecoded).trans (G.width _ hpiece).symm⟩
  obtain ⟨htopic, rfl⟩ := carries_prefixKind hA hR henc hcarries fun htopic =>
    ⟨(hgenuine htopic).2, hfits _ _⟩
  exact (hgenuine htopic).1

/-- What the source sends is sound. -/
lemma sound_of_encode (hA : A.ReadsBack fits) (hR : R.ReadsPiecesBack)
    (hfits : ∀ c p, A.tag c p ∈ fits) {topic : Topic} {k b : ℕ} {wp : WirePiece A} {frame : Bytes}
    (hsource : topic = G.topic → k = G.pieceCount ∧ wp.piece ∈ G.pieces ∧
      wp.tag = A.tag G.commitment wp.piece)
    (henc : encode R A topic k b wp = .ok frame) : G.Sound (prefixKind KIND_PUBSUB frame) := by
  intro wp' hcarries _
  obtain ⟨htopic, rfl⟩ := carries_prefixKind hA hR henc hcarries fun htopic => by
    obtain ⟨rfl, hpiece, htag⟩ := hsource htopic
    exact ⟨G.width _ hpiece, htag ▸ hfits _ _⟩
  exact (hsource htopic).2.1

/-- An operation that hears nothing keeps a node clean. -/
lemma Clean.own {mux mux' : PubsubMux C R A} {l : PubsubLabel A} (h : G.Clean mux.state)
    (hstep : PubsubMux.Step mux l mux') (hsilent : l.silent = true) (hagrees : G.Agrees l) :
    G.Clean mux'.state := by
  cases hstep with
  | registerTopic t k b c =>
      refine ⟨fun entry he => ?_, h.recoder⟩
      simp only [PubsubState.registerTopic, ExtTreeMap.getElem?_insert] at he
      split at he
      · rename_i heq
        cases he
        obtain ⟨rfl, rfl, rfl⟩ := hagrees (LawfulEqOrd.eq_of_compare heq)
        exact ⟨rfl, .new⟩
      · exact h.decoder entry he
  | registerRelay t k b c =>
      refine ⟨h.decoder, fun entry he => ?_⟩
      simp only [PubsubState.registerRelay, ExtTreeMap.getElem?_insert] at he
      split at he
      · rename_i heq
        cases he
        obtain ⟨rfl, rfl, rfl⟩ := hagrees (LawfulEqOrd.eq_of_compare heq)
        exact ⟨rfl, .new⟩
      · exact h.recoder entry he
  | unregisterTopic t => exact h.erase_decoder
  | unregisterRelay t =>
      refine ⟨h.decoder, fun entry he => ?_⟩
      simp only [PubsubState.unregisterRelay, ExtTreeMap.getElem?_erase] at he
      split at he
      · cases he
      · exact h.recoder entry he
  | evictIdleTopics n =>
      exact ⟨fun entry he => h.decoder entry (Lru.getElem?_of_sweep he), h.recoder⟩
  | evictIdleRelays n =>
      exact ⟨h.decoder, fun entry he => h.recoder entry (Lru.getElem?_of_sweep he)⟩
  | dial hrun | sendApp hrun =>
      obtain ⟨host, -, rfl⟩ := Io.map_run_eq_ok.mp hrun
      exact h
  | broadcast | processPlaintext | recvOne => cases hsilent

end Generation

/-! ### Whole runs -/

section

variable {ι : Type} [DecidableEq ι] {G : Generation R A} {n n' : Gossip ι C R A}

/-- Every node is clean and everything on the wire is sound. -/
structure Gossip.Unpolluted (G : Generation R A) (n : Gossip ι C R A) : Prop where
  clean : ∀ i, G.Clean (n.node i).state
  sound : ∀ plaintext ∈ n.wire, G.Sound plaintext

/-- The move delivers data of the topic. -/
def GossipLabel.Delivers (topic : Topic) (data : Bytes) (l : GossipLabel ι A) : Prop :=
  ∃ i addr, l = .node i (.processPlaintext (.pubsubDelivered addr topic data))

lemma eq_of_mem_plaintexts {plaintext p : Bytes} {addrs : List UdpAddr}
    (h : p ∈ plaintexts (sendsTo plaintext addrs)) : p = plaintext := by
  obtain ⟨label, hlabel, hp⟩ := List.mem_filterMap.mp h
  obtain ⟨a, -, rfl⟩ := List.mem_map.mp hlabel
  exact (Option.some.inj hp).symm

lemma exists_of_mem_plaintexts {β : Type} {p : Bytes} {bs : List β} {f : β → List HostLabel}
    (h : p ∈ plaintexts (bs.flatMap f)) : ∃ b ∈ bs, p ∈ plaintexts (f b) := by
  obtain ⟨label, hlabel, hp⟩ := List.mem_filterMap.mp h
  obtain ⟨b, hb, hlabel⟩ := List.mem_flatMap.mp hlabel
  exact ⟨b, hb, List.mem_filterMap.mpr ⟨label, hlabel, hp⟩⟩

lemma clean_update {i : ι} {mux : PubsubMux C R A} (h : n.Unpolluted G) (hi : G.Clean mux.state) :
    ∀ j, G.Clean (Function.update n.node i mux j).state := by
  intro j
  by_cases hj : j = i
  · subst hj
    rwa [Function.update_self]
  · rw [Function.update_of_ne hj]
    exact h.clean j

/-- One move keeps a network unpolluted, and delivers nothing but the data. -/
lemma Gossip.Unpolluted.step (hA : A.ReadsBack fits) (hR : R.ReadsPiecesBack)
    (hfits : ∀ c p, A.tag c p ∈ fits) (h : n.Unpolluted G) {l : GossipLabel ι A}
    (hstep : Gossip.Step G n l n') :
    n'.Unpolluted G ∧ ∀ data, l.Delivers G.topic data → data = G.data := by
  cases hstep with
  | own hown hsilent hagrees =>
      refine ⟨⟨clean_update h ((h.clean _).own hown hsilent hagrees), h.sound⟩, ?_⟩
      rintro data ⟨i, addr, hl⟩
      cases hl
      cases hsilent
  | host i host =>
      refine ⟨⟨clean_update h (h.clean i), h.sound⟩, ?_⟩
      rintro data ⟨j, addr, hl⟩
      cases hl
  | hear hmem hrun hsends hforwards =>
      obtain ⟨hclean, hdata⟩ :=
        (h.clean _).reaction (h.sound _ hmem) (processPlaintext_run_eq_ok hrun)
      refine ⟨⟨clean_update h hclean, fun p hp => ?_⟩, ?_⟩
      · rcases List.mem_append.mp hp with hold | hnew
        · exact h.sound p hold
        · rcases hforwards with ⟨rfl, -⟩ | ⟨topic, frame, -, hrelays, rfl⟩
          · cases hnew
          · rw [eq_of_mem_plaintexts hnew]
            exact (h.sound _ hmem).relay hA hR hfits (h.clean _) hrelays
      · rintro data ⟨i, addr, hl⟩
        cases hl
        exact hdata addr data rfl
  | @broadcast i topic k b coded frames mux' w w' l hrun hsends hframes hl hsource =>
      subst hl
      refine ⟨⟨clean_update h ?_, fun p hp => ?_⟩, ?_⟩
      · obtain ⟨_, _, -, rfl, hstate, -⟩ := (n.node i).follows_broadcast topic k b _ w mux' w' hrun
        exact hstate ▸ h.clean i
      · rcases List.mem_append.mp hp with hold | hnew
        · exact h.sound p hold
        · obtain ⟨frame, hframe, hp⟩ := exists_of_mem_plaintexts hnew
          rw [eq_of_mem_plaintexts hp]
          obtain ⟨wp, hwp, henc⟩ := Except.exists_of_mem_mapM hframes hframe
          refine Generation.sound_of_encode hA hR hfits (fun htopic => ?_) henc
          obtain ⟨hk, hpieces⟩ := hsource htopic
          exact ⟨hk, hpieces wp hwp⟩
      · rintro data ⟨j, addr, hl⟩
        cases hl
  | inject hsound =>
      refine ⟨⟨h.clean, fun p hp => ?_⟩, ?_⟩
      · rcases List.mem_append.mp hp with hold | hnew
        · exact h.sound p hold
        · rwa [List.mem_singleton.mp hnew]
      · rintro data ⟨i, addr, hl⟩
        cases hl

/-- No pollution.  In every run of a network in which every role on the topic is taken for the
generation, every broadcast on the topic is its source's, and strangers cannot tag anything but its
pieces: whatever a node delivers of the topic is the data of the source, and every frame of the
topic that was ever on the wire and verifies, relayed ones included, carries a piece of the
generation.  Frames may be lost, heard twice, out of order and by any node. -/
theorem no_pollution (hA : A.ReadsBack fits) (hR : R.ReadsPiecesBack)
    (hfits : ∀ c p, A.tag c p ∈ fits) {n₀ : Gossip ι C R A} {labels : List (GossipLabel ι A)}
    (hinit : ∀ i, (n₀.node i).state.decoders[G.topic]? = none ∧
      (n₀.node i).state.recoders[G.topic]? = none) (hwire : n₀.wire = [])
    (hrun : Run (Gossip.Step G) n₀ labels n) :
    (∀ l ∈ labels, ∀ data, l.Delivers G.topic data → data = G.data) ∧
      ∀ plaintext ∈ n.wire, G.Sound plaintext := by
  have hstart : n₀.Unpolluted G := by
    refine ⟨fun i => ⟨fun entry he => ?_, fun entry he => ?_⟩, fun p hp => ?_⟩
    · rw [(hinit i).1] at he
      cases he
    · rw [(hinit i).2] at he
      cases he
    · rw [hwire] at hp
      cases hp
  have hall : n.Unpolluted G ∧ ∀ l ∈ labels, ∀ data, l.Delivers G.topic data → data = G.data := by
    induction hrun with
    | nil => exact ⟨hstart, fun l hl => by cases hl⟩
    | @snoc s s' labels l hrun hstep ih =>
        obtain ⟨hn, hlabels⟩ := ih
        obtain ⟨hn', hl⟩ := hn.step hA hR hfits hstep
        refine ⟨hn', fun l' hl' => ?_⟩
        rcases List.mem_append.mp hl' with hold | hnew
        · exact hlabels l' hold
        · rwa [List.mem_singleton.mp hnew]
  exact ⟨hall.2, hall.1.sound⟩

end

/-- A decoder of the sample coder holds only what it absorbed. -/
lemma sampleRlnc_absorbedFrom {k b : ℕ} {pieces : Set CodedPiece} {d : sampleRlnc.DecoderState}
    (h : sampleRlnc.AbsorbedFrom k b pieces d) :
    SampleDecoder.pieceCount d = k ∧ ∀ p ∈ SampleDecoder.pieces d, p ∈ pieces := by
  induction h with
  | new => exact ⟨rfl, fun p hp => by cases hp⟩
  | absorb _ hp habsorb ih =>
      obtain ⟨hk, -, rfl | ⟨-, hpieces⟩⟩ := sampleRlnc_absorb_eq_ok habsorb
      · exact ih
      · refine ⟨hk.trans ih.1, fun q hq => ?_⟩
        rw [hpieces, List.mem_append, List.mem_singleton] at hq
        rcases hq with hold | hnew
        · exact ih.2 q hold
        · rwa [hnew]

lemma sampleRlnc_collectedFrom {k b : ℕ} {pieces : Set CodedPiece} {r : sampleRlnc.Recoder}
    (h : sampleRlnc.CollectedFrom k b pieces r) : ∀ p ∈ SampleDecoder.pieces r, p ∈ pieces := by
  induction h with
  | new => exact fun p hp => by cases hp
  | addPiece _ hp hadd ih =>
      simp only [sampleRlnc] at hadd
      split at hadd
      · cases hadd
      · cases hadd
        intro q hq
        rcases List.mem_append.mp hq with hold | hnew
        · exact ih q hold
        · rwa [List.mem_singleton.mp hnew]

/-- The one piece of a generation of two bytes. -/
def samplePiece : CodedPiece := ⟨[1], [7, 8]⟩

/-- A generation of one piece on the sample topic. -/
def sampleGeneration : Generation sampleRlnc nullAuthenticator where
  topic := sampleTopic
  pieceCount := 1
  pieceByteLen := 2
  commitment := ()
  data := [7, 8]
  pieces := {samplePiece}
  width p hp := by
    rw [Set.mem_singleton_iff.mp hp]
    rfl
  recode {r rng p} hr hp := by
    cases hrng : rng (SampleDecoder.pieces r).length with
    | error e =>
        simp only [sampleRlnc, hrng, Except.error_bind] at hp
        cases hp
    | ok c =>
        simp only [sampleRlnc, hrng, Except.ok_bind] at hp
        split at hp
        · rename_i q hq
          rw [← Except.ok.inj hp]
          exact sampleRlnc_collectedFrom hr q (List.mem_of_getLast? hq)
        · cases hp
  decode {d bytes} hd hfull hdecode := by
    obtain ⟨hk, hpieces⟩ := sampleRlnc_absorbedFrom hd
    have hlen : (SampleDecoder.pieces d).length = 1 := hk ▸ of_decide_eq_true hfull
    obtain ⟨p, hp⟩ := List.length_eq_one_iff.mp hlen
    have hpiece : p = samplePiece := hpieces p (hp ▸ List.mem_singleton_self p)
    have hbytes : .ok ((SampleDecoder.pieces d).flatMap CodedPiece.data) = Except.ok bytes :=
      hdecode
    rw [hp, hpiece] at hbytes
    exact (Except.ok.inj hbytes).symm

/-- The frame of that piece, which its source sends to its two peers and the other node, which
registered for the topic, hears: it delivers the data of the source. -/
theorem no_pollution_sample :
    ∃ (labels : List (GossipLabel (Fin 2) nullAuthenticator))
      (n₀ n : Gossip (Fin 2) sampleCrypto sampleRlnc nullAuthenticator),
      Run (Gossip.Step sampleGeneration) n₀ labels n ∧
      .node 0 (.broadcast sampleTopic) ∈ labels ∧
      .node 1 (.processPlaintext (.pubsubDelivered sampleSource sampleTopic [7, 8])) ∈ labels ∧
      [7, 8] = sampleGeneration.data := by
  let source : PubsubMux sampleCrypto sampleRlnc nullAuthenticator := ⟨sampleFanRelay.host, .new⟩
  let sink : PubsubMux sampleCrypto sampleRlnc nullAuthenticator :=
    ⟨sampleHost 1, PubsubState.new.registerTopic sampleTopic 1 2 ()⟩
  let wp : WirePiece nullAuthenticator := ⟨(), samplePiece, ()⟩
  let frame : Bytes := [1, 0x74, 0, 0, 0, 1, 0, 0, 0, 2, 1, 7, 8]
  let n₀ : Gossip (Fin 2) sampleCrypto sampleRlnc nullAuthenticator :=
    ⟨![source, .new (sampleHost 1)], []⟩
  have hregister : Gossip.Step sampleGeneration n₀ (.node 1 (.registerTopic sampleTopic 1 2 ()))
      ⟨Function.update n₀.node 1 sink, n₀.wire⟩ :=
    .own (.registerTopic _ _ _ _ _) rfl fun _ => ⟨rfl, rfl, rfl⟩
  have hsends : ((source.broadcast sampleTopic 1 2 (.ok [wp])).outcome .quiet).isSome = true := by
    decide
  have hdelivers : (processed sink (prefixKind KIND_PUBSUB frame)).map Prod.snd
      = some (.pubsubDelivered sampleSource sampleTopic [7, 8]) := by decide
  obtain ⟨⟨source', w₁⟩, hsent⟩ := Option.isSome_iff_exists.mp hsends
  have hbroadcast := Io.run_of_outcome hsent
  obtain ⟨⟨sink', event⟩, hproc, rfl⟩ := Option.map_eq_some_iff.mp hdelivers
  rw [processed] at hproc
  split at hproc
  · rename_i r w₂ hhear
    cases hproc
    obtain ⟨frames, hframes, hstep₂⟩ := Gossip.exists_step_broadcast sampleGeneration
      (n := ⟨Function.update n₀.node 1 sink, n₀.wire⟩) (i := 0) hbroadcast
      fun _ => ⟨rfl, fun p hp => by rw [List.mem_singleton.mp hp]; exact ⟨rfl, rfl⟩⟩
    have hframe : frames = [frame] := (Except.ok.inj hframes).symm
    have hwire : prefixKind KIND_PUBSUB frame
        ∈ plaintexts (sendsTo (prefixKind KIND_PUBSUB frame) source.host.establishedAddrs) := by
      decide
    obtain ⟨wire, hstep₃⟩ := Gossip.exists_step_hear sampleGeneration
      (n := ⟨Function.update (Function.update n₀.node 1 sink) 0 source',
        plaintexts (sendsTo (prefixKind KIND_PUBSUB frame) source.host.establishedAddrs ++ [])⟩)
      (i := 1) (by rwa [List.append_nil]) hhear
    rw [hframe] at hstep₂
    have hrun := ((Run.single hregister).snoc hstep₂).snoc hstep₃
    obtain ⟨hdata, -⟩ := no_pollution nullAuthenticator_readsBack sampleRlnc_readsPiecesBack
      (fun _ _ => Set.mem_univ _) (fun i => ⟨by fin_cases i <;> rfl, by fin_cases i <;> rfl⟩) rfl
      hrun
    refine ⟨_, n₀, _, hrun, by simp, by simp, ?_⟩
    exact hdata _ (List.mem_append_right _ (List.mem_singleton_self _)) _ ⟨1, sampleSource, rfl⟩
  · cases hproc

end Libp2pCat.Pubsub
