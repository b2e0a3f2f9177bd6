import Libp2pCat.Pubsub.Mux

/-!
What one plaintext can do to the pubsub state, said once, and when a refused frame costs more
than itself.

* `Reaction`: one constructor per outcome of the dispatcher.
* `processPlaintext_run_eq_ok`: a plaintext that was processed went through one of them.
* `rejected_keeps_state_iff`: a refused plaintext leaves the decoders, the recoders and the
  clock alone, unless it is a verified frame for a decoder that cannot absorb it or that it
  completes without decoding.
-/

namespace Libp2pCat.Pubsub

open ByteString Effect Std

variable {C : Crypto} {R : Rlnc} {A : PubsubAuth}

variable (R A) in
/-- The plaintext is a pubsub frame of a topic with a piece. -/
def Carries (plaintext : Bytes) (topic : Topic) (wirePiece : WirePiece A) : Prop :=
  plaintext.head? = some KIND_PUBSUB ∧
    ∃ frame, decode R A (plaintext.drop 1) = .ok (frame, wirePiece) ∧ frame.topic = topic

/-- What a decoder does with a piece of its topic. -/
inductive DecoderOutcome (state : PubsubState R A) (entry : DecoderEntry R A) (addr : UdpAddr)
    (topic : Topic) (wp : WirePiece A) : PubsubState R A → MuxEvent → Prop where
  /-- The tag of the piece does not verify. -/
  | unverified {reason : String}
      (hverify : ∃ e, A.verify entry.commitment wp.piece wp.tag = .error e) :
      DecoderOutcome state entry addr topic wp state (.rejected addr reason)
  /-- The decoder cannot absorb the piece, and is lost. -/
  | unabsorbed {reason : String} (hverify : A.verify entry.commitment wp.piece wp.tag = .ok ())
      (habsorb : ∃ e, R.absorb entry.state wp.piece = .error e) :
      DecoderOutcome state entry addr topic wp
        { state with decoders := state.decoders.erase topic } (.rejected addr reason)
  /-- The decoder absorbs the piece. -/
  | absorbed {next : R.DecoderState} (hverify : A.verify entry.commitment wp.piece wp.tag = .ok ())
      (habsorb : R.absorb entry.state wp.piece = .ok next) (hopen : R.isComplete next = false) :
      DecoderOutcome state entry addr topic wp
        { state with
          decoders := state.decoders.insert topic ⟨next, entry.commitment, state.tick + 1⟩
          tick := state.tick + 1 }
        (.pubsubAbsorbed addr topic)
  /-- The decoder is complete and hands its generation over. -/
  | delivered {next : R.DecoderState} {data : Bytes}
      (hverify : A.verify entry.commitment wp.piece wp.tag = .ok ())
      (habsorb : R.absorb entry.state wp.piece = .ok next) (hfull : R.isComplete next = true)
      (hdecode : R.decode next = .ok data) :
      DecoderOutcome state entry addr topic wp
        { state with decoders := state.decoders.erase topic, tick := state.tick + 1 }
        (.pubsubDelivered addr topic data)
  /-- The decoder is complete and cannot be decoded, and is lost. -/
  | undecodable {next : R.DecoderState} {reason : String}
      (hverify : A.verify entry.commitment wp.piece wp.tag = .ok ())
      (habsorb : R.absorb entry.state wp.piece = .ok next) (hfull : R.isComplete next = true)
      (hdecode : ∃ e, R.decode next = .error e) :
      DecoderOutcome state entry addr topic wp
        { state with decoders := state.decoders.erase topic, tick := state.tick + 1 }
        (.rejected addr reason)

/-- The outcomes of one plaintext. -/
inductive Reaction (state : PubsubState R A) (addr : UdpAddr) (plaintext : Bytes) :
    PubsubState R A → MuxEvent → Prop where
  /-- Application data. -/
  | app {bytes : Bytes} : Reaction state addr plaintext state (.appData addr bytes)
  /-- No frame, or none of a topic with a role. -/
  | unknown {reason : String} : Reaction state addr plaintext state (.rejected addr reason)
  /-- A relay refuses a piece. -/
  | relayRefused {topic : Topic} {wp : WirePiece A} {entry : RecoderEntry R A} {reason : String}
      (hframe : Carries R A plaintext topic wp) (hrole : state.recoders[topic]? = some entry)
      (hrefuse : (∃ e, A.verify entry.commitment wp.piece wp.tag = .error e) ∨
        (∃ e, R.absorb entry.rankTracker wp.piece = .error e) ∨
        ∃ e, R.addPiece entry.recoder wp.piece = .error e) :
      Reaction state addr plaintext state (.rejected addr reason)
  /-- A relay has nothing to gain from a piece. -/
  | relayRedundant {topic : Topic} {wp : WirePiece A} {entry : RecoderEntry R A}
      (hframe : Carries R A plaintext topic wp) (hrole : state.recoders[topic]? = some entry)
      (hverify : A.verify entry.commitment wp.piece wp.tag = .ok ())
      (hgain : R.isComplete entry.rankTracker = true ∨
        ∃ tracker, R.absorb entry.rankTracker wp.piece = .ok tracker ∧
          R.usefulCount tracker = R.usefulCount entry.rankTracker) :
      Reaction state addr plaintext
        { state with
          recoders := state.recoders.insert topic { entry with lastActivity := state.tick + 1 }
          tick := state.tick + 1 }
        (.pubsubRedundant addr topic)
  /-- A relay stores a piece that raises its rank and forwards a new combination. -/
  | relayed {topic : Topic} {wp : WirePiece A} {entry : RecoderEntry R A}
      {tracker : R.DecoderState} {recoder : R.Recoder} {fanoutCount : ℕ}
      (hframe : Carries R A plaintext topic wp) (hrole : state.recoders[topic]? = some entry)
      (hverify : A.verify entry.commitment wp.piece wp.tag = .ok ())
      (hopen : R.isComplete entry.rankTracker = false)
      (habsorb : R.absorb entry.rankTracker wp.piece = .ok tracker)
      (hrank : R.usefulCount tracker ≠ R.usefulCount entry.rankTracker)
      (hadd : R.addPiece entry.recoder wp.piece = .ok recoder) :
      Reaction state addr plaintext
        { state with
          recoders := state.recoders.insert topic
            ⟨recoder, tracker, entry.commitment, state.tick + 1⟩
          tick := state.tick + 1 }
        (.pubsubRelayed addr topic fanoutCount)
  /-- A piece goes to the decoder of its topic. -/
  | decoder {topic : Topic} {wp : WirePiece A} {entry : DecoderEntry R A}
      {state' : PubsubState R A} {event : MuxEvent} (hframe : Carries R A plaintext topic wp)
      (hrelay : state.recoders.contains topic = false)
      (hrole : state.decoders[topic]? = some entry)
      (houtcome : DecoderOutcome state entry addr topic wp state' event) :
      Reaction state addr plaintext state' event

/-! ### The dispatcher goes through one of them -/

/-- Sending to peers leaves the roles alone. -/
lemma sendToEach_state {mux mux' : PubsubMux C R A} {datagram : Bytes} {addrs : List UdpAddr}
    {w w' : World} (h : (sendToEach mux datagram addrs).run w = (.ok mux', w')) :
    mux'.state = mux.state := by
  rw [sendToEach, Io.foldl_flatMap_eq_chain, Io.pure_flatMap] at h
  refine Io.chain_invariant (P := fun m => m.state = mux.state) ?_ rfl h
  intro addr m w m' w' hm hsend
  obtain ⟨host, -, rfl⟩ := Io.map_run_eq_ok.mp hsend
  exact hm

lemma relayOn_run_eq_ok {host : Host C} {state : PubsubState R A} {addr : UdpAddr} {topic : Topic}
    {wp : WirePiece A} {commitment : A.Commitment} {recoder : R.Recoder}
    {rng : ℕ → Except String Bytes} {mux' : PubsubMux C R A} {event : MuxEvent} {w w' : World}
    (h : (relayOn host state addr topic wp commitment recoder rng).run w
      = (.ok (mux', event), w')) :
    mux'.state = state ∧ ∃ fanoutCount, event = .pubsubRelayed addr topic fanoutCount := by
  obtain ⟨recoded, w₁, -, h⟩ := Io.flatMap_run_eq_ok.mp h
  obtain ⟨frame, w₂, -, h⟩ := Io.flatMap_run_eq_ok.mp h
  obtain ⟨⟨mux, count⟩, hfan, heq⟩ := Io.map_run_eq_ok.mp h
  obtain ⟨mux₁, hsend, hpair⟩ := Io.map_run_eq_ok.mp hfan
  cases heq
  cases hpair
  exact ⟨sendToEach_state hsend, _, rfl⟩

section

variable {host : Host C} {state : PubsubState R A} {addr : UdpAddr} {plaintext : Bytes}
  {topic : Topic} {wp : WirePiece A}

/-- The decoder path has one of these outcomes. -/
lemma decoderPath_outcome {entry : DecoderEntry R A} {mux' : PubsubMux C R A} {event : MuxEvent}
    (hrole : state.decoders[topic]? = some entry)
    (h : decoderPath host state addr topic wp = (mux', event)) :
    DecoderOutcome state entry addr topic wp mux'.state event := by
  have hback : (state.decoders.erase topic).insert topic entry = state.decoders := by
    rw [Lru.insert_erase, Lru.insert_eq_self hrole]
  rw [decoderPath, hrole] at h
  simp only [hback, Lru.insert_erase] at h
  cases hverify : A.verify entry.commitment wp.piece wp.tag with
  | error e =>
      simp only [hverify] at h
      cases h
      exact .unverified ⟨e, hverify⟩
  | ok u =>
      simp only [hverify] at h
      cases habsorb : R.absorb entry.state wp.piece with
      | error e =>
          simp only [habsorb] at h
          cases h
          exact .unabsorbed hverify ⟨e, habsorb⟩
      | ok next =>
          simp only [habsorb] at h
          cases hfull : R.isComplete next with
          | false =>
              simp only [hfull, Bool.false_eq_true, if_false] at h
              cases h
              exact .absorbed hverify habsorb hfull
          | true =>
              simp only [hfull, if_true] at h
              cases hdecode : R.decode next with
              | error e =>
                  simp only [hdecode] at h
                  cases h
                  exact .undecodable hverify habsorb hfull ⟨e, hdecode⟩
              | ok data =>
                  simp only [hdecode] at h
                  cases h
                  exact .delivered hverify habsorb hfull hdecode

/-- A frame for a topic with a recoder. -/
lemma relayPath_reaction {entry : RecoderEntry R A} {rng : ℕ → Except String Bytes}
    {mux' : PubsubMux C R A} {event : MuxEvent} {w w' : World}
    (hframe : Carries R A plaintext topic wp) (hrole : state.recoders[topic]? = some entry)
    (h : (relayPath host state addr topic wp rng).run w = (.ok (mux', event), w')) :
    Reaction state addr plaintext mux'.state event := by
  have hback : (state.recoders.erase topic).insert topic entry = state.recoders := by
    rw [Lru.insert_erase, Lru.insert_eq_self hrole]
  rw [relayPath, hrole] at h
  simp only [fastPath, rankGate, hback, Lru.insert_erase] at h
  cases hverify : A.verify entry.commitment wp.piece wp.tag with
  | error e =>
      simp only [hverify] at h
      cases h
      exact .relayRefused hframe hrole (Or.inl ⟨e, hverify⟩)
  | ok u =>
      simp only [hverify] at h
      cases hfull : R.isComplete entry.rankTracker with
      | true =>
          simp only [hfull, if_true] at h
          cases h
          exact .relayRedundant hframe hrole hverify (Or.inl hfull)
      | false =>
          simp only [hfull, Bool.false_eq_true, if_false] at h
          cases habsorb : R.absorb entry.rankTracker wp.piece with
          | error e =>
              simp only [habsorb] at h
              cases h
              exact .relayRefused hframe hrole (Or.inr (Or.inl ⟨e, habsorb⟩))
          | ok tracker =>
              simp only [habsorb] at h
              split at h
              · rename_i hrank
                cases h
                exact .relayRedundant hframe hrole hverify (Or.inr ⟨tracker, habsorb, hrank⟩)
              · rename_i hrank
                cases hadd : R.addPiece entry.recoder wp.piece with
                | error e =>
                    simp only [hadd] at h
                    cases h
                    exact .relayRefused hframe hrole (Or.inr (Or.inr ⟨e, hadd⟩))
                | ok recoder =>
                    simp only [hadd] at h
                    obtain ⟨hstate, count, rfl⟩ := relayOn_run_eq_ok h
                    rw [hstate]
                    exact .relayed hframe hrole hverify hfull habsorb hrank hadd

end

lemma getElem?_of_contains {V : Type} {map : BTreeMap Topic V} {topic : Topic}
    (h : map.contains topic = true) : ∃ v, map[topic]? = some v := by
  rw [ExtTreeMap.contains_eq_isSome_getElem?] at h
  exact Option.isSome_iff_exists.mp h

lemma contains_of_getElem? {V : Type} {map : BTreeMap Topic V} {topic : Topic} {v : V}
    (h : map[topic]? = some v) : map.contains topic = true := by
  rw [ExtTreeMap.contains_eq_isSome_getElem?, h]
  rfl

/-- A plaintext that was processed went through one of the outcomes. -/
theorem processPlaintext_run_eq_ok {mux mux' : PubsubMux C R A} {addr : UdpAddr}
    {plaintext : Bytes} {rng : ℕ → Except String Bytes} {event : MuxEvent} {w w' : World}
    (h : (mux.processPlaintext addr plaintext rng).run w = (.ok (mux', event), w')) :
    Reaction mux.state addr plaintext mux'.state event := by
  rw [PubsubMux.processPlaintext, dispatchPlaintext] at h
  cases hkind : plaintext.head? with
  | none =>
      simp only [hkind] at h
      cases h
      exact .unknown
  | some kind =>
      have hpos : 1 ≤ plaintext.length := by
        cases plaintext with
        | nil => cases hkind
        | cons => exact Nat.le_add_left _ _
      simp only [hkind, sliceFrom_of_le hpos, Option.getD_some] at h
      split at h
      · cases h
        exact .app
      · split at h
        · rename_i hpubsub
          rw [hpubsub] at hkind
          rw [handlePubsubBody] at h
          cases hdec : decode R A (plaintext.drop 1) with
          | error e =>
              simp only [hdec] at h
              cases h
              exact .unknown
          | ok r =>
              obtain ⟨frame, wp⟩ := r
              have hframe : Carries R A plaintext frame.topic wp := ⟨hkind, frame, hdec, rfl⟩
              simp only [hdec] at h
              split at h
              · rename_i hrelay
                obtain ⟨entry, hentry⟩ := getElem?_of_contains hrelay
                exact relayPath_reaction hframe hentry h
              · rename_i hrelay
                split at h
                · rename_i hdecoder
                  obtain ⟨entry, hentry⟩ := getElem?_of_contains hdecoder
                  simp only [Io.run_pure, Prod.mk.injEq, Except.ok.injEq] at h
                  exact .decoder hframe (Bool.eq_false_iff.mpr hrelay) hentry
                    (decoderPath_outcome hentry h.1)
                · cases h
                  exact .unknown
        · cases h
          exact .unknown

/-! ### Refused frames -/

/-- The plaintext is a frame of a topic without a recoder, and the decoder of the topic has
its tag verified but cannot absorb its piece, or is completed by it and cannot be decoded. -/
def LosesDecoder (state : PubsubState R A) (plaintext : Bytes) : Prop :=
  ∃ topic wp entry, Carries R A plaintext topic wp ∧ state.recoders.contains topic = false ∧
    state.decoders[topic]? = some entry ∧ A.verify entry.commitment wp.piece wp.tag = .ok () ∧
    ((∃ e, R.absorb entry.state wp.piece = .error e) ∨
      ∃ next, R.absorb entry.state wp.piece = .ok next ∧ R.isComplete next = true ∧
        ∃ e, R.decode next = .error e)

/-- A frame goes to the recoder of its topic, else to the decoder, else it is refused. -/
lemma dispatchPlaintext_of_carries {plaintext : Bytes} {topic : Topic} {wp : WirePiece A}
    (hframe : Carries R A plaintext topic wp) (host : Host C) (state : PubsubState R A)
    (addr : UdpAddr) (rng : ℕ → Except String Bytes) :
    dispatchPlaintext host state addr plaintext rng
      = if state.recoders.contains topic then relayPath host state addr topic wp rng
        else if state.decoders.contains topic then
          Io.pure (decoderPath host state addr topic wp)
        else Io.pure (⟨host, state⟩,
          .rejected addr s!"frame received for unregistered topic {topic.asStr}") := by
  obtain ⟨hkind, frame, hdec, rfl⟩ := hframe
  have hpos : 1 ≤ plaintext.length := by
    cases plaintext with
    | nil => cases hkind
    | cons => exact Nat.le_add_left _ _
  rw [dispatchPlaintext, hkind]
  simp only [sliceFrom_of_le hpos, Option.getD_some]
  rw [if_neg (by decide), if_pos trivial, handlePubsubBody, hdec]

/-- A frame of a topic with a decoder and no recoder goes to the decoder. -/
lemma processPlaintext_of_carries {mux : PubsubMux C R A} {plaintext : Bytes} {topic : Topic}
    {wp : WirePiece A} {entry : DecoderEntry R A} (hframe : Carries R A plaintext topic wp)
    (hrelay : mux.state.recoders.contains topic = false)
    (hrole : mux.state.decoders[topic]? = some entry) (addr : UdpAddr)
    (rng : ℕ → Except String Bytes) :
    mux.processPlaintext addr plaintext rng
      = Io.pure (decoderPath mux.host mux.state addr topic wp) := by
  rw [PubsubMux.processPlaintext, dispatchPlaintext_of_carries hframe, hrelay,
    contains_of_getElem? hrole]
  rfl

/-- Such a frame is refused, and the decoder is gone. -/
lemma LosesDecoder.run {mux : PubsubMux C R A} {plaintext : Bytes}
    (h : LosesDecoder mux.state plaintext) (addr : UdpAddr) (rng : ℕ → Except String Bytes)
    (w : World) :
    ∃ topic wp mux' reason, Carries R A plaintext topic wp ∧
      mux.state.recoders.contains topic = false ∧ mux.state.decoders.contains topic = true ∧
      (mux.processPlaintext addr plaintext rng).run w = (.ok (mux', .rejected addr reason), w) ∧
      mux'.state.decoders = mux.state.decoders.erase topic ∧
      mux'.state.recoders = mux.state.recoders := by
  obtain ⟨topic, wp, entry, hframe, hrelay, hrole, hverify, hlost⟩ := h
  refine ⟨topic, wp, ?_⟩
  rw [processPlaintext_of_carries hframe hrelay hrole, decoderPath, hrole]
  simp only [hverify]
  rcases hlost with ⟨e, habsorb⟩ | ⟨next, habsorb, hfull, e, hdecode⟩
  · simp only [habsorb]
    exact ⟨_, _, hframe, hrelay, contains_of_getElem? hrole, rfl, rfl, rfl⟩
  · simp only [habsorb, hfull, if_true, hdecode]
    exact ⟨_, _, hframe, hrelay, contains_of_getElem? hrole, rfl, rfl, rfl⟩

/-- A refused plaintext leaves the decoders, the recoders and the clock as they were, exactly
unless it is a frame a decoder is lost over. -/
theorem rejected_keeps_state_iff (mux : PubsubMux C R A) (addr : UdpAddr) (plaintext : Bytes)
    (rng : ℕ → Except String Bytes) (w : World) :
    (∀ mux' a reason w', (mux.processPlaintext addr plaintext rng).run w
        = (.ok (mux', .rejected a reason), w') →
      mux'.state.decoders = mux.state.decoders ∧ mux'.state.recoders = mux.state.recoders ∧
        mux'.state.tick = mux.state.tick) ↔
      ¬ LosesDecoder mux.state plaintext := by
  constructor
  · intro h hlost
    obtain ⟨topic, wp, mux', reason, -, -, hhas, hrun, hgone, -⟩ := hlost.run addr rng w
    rw [(h _ _ _ _ hrun).1] at hgone
    rw [hgone] at hhas
    simp at hhas
  · intro hkeep mux' a reason w' hrun
    have hreact := processPlaintext_run_eq_ok hrun
    generalize mux'.state = state' at hreact ⊢
    cases hreact with
    | decoder hframe hrelay hrole houtcome =>
        cases houtcome with
        | unverified => exact ⟨rfl, rfl, rfl⟩
        | unabsorbed hverify habsorb =>
            exact absurd ⟨_, _, _, hframe, hrelay, hrole, hverify, Or.inl habsorb⟩ hkeep
        | undecodable hverify habsorb hfull hdecode =>
            exact absurd ⟨_, _, _, hframe, hrelay, hrole, hverify,
              Or.inr ⟨_, habsorb, hfull, hdecode⟩⟩ hkeep
    | _ => exact ⟨rfl, rfl, rfl⟩

/-- A frame of the sample topic whose piece has two coefficients and two bytes of data. -/
def sampleFrame : Bytes :=
  [KIND_PUBSUB, 1, 0x74] ++ ([0, 0, 0, 2] ++ ([0, 0, 0, 2] ++ [1, 0, 7, 8]))

/-- A multiplexer that decodes one-piece generations of the sample topic. -/
def sampleDecoding : PubsubMux sampleCrypto sampleRlnc nullAuthenticator :=
  ⟨sampleHost 1, PubsubState.new.registerTopic sampleTopic 1 2 ()⟩

/-- The address frames come from. -/
def sampleSource : UdpAddr := .v4 ⟨.replicate 4 7, 9⟩

/-- The refusal of a frame, and whether its topic still has a decoder. -/
def refusal (mux : PubsubMux sampleCrypto sampleRlnc nullAuthenticator) (plaintext : Bytes) :
    Option (String × Bool) :=
  match (mux.processPlaintext sampleSource plaintext fun _ => .ok []).run .quiet with
  | (.ok (mux', .rejected _ reason), _) => some (reason, mux'.state.decoders.contains sampleTopic)
  | _ => none

/-- Although the coder checks dimensions, one frame of the wrong ones is refused and costs the
topic its decoder. -/
theorem rejected_frame_costs_decoder :
    sampleRlnc.ChecksDimensions ∧
      sampleDecoding.state.decoders.contains sampleTopic = true ∧
      refusal sampleDecoding sampleFrame = some ("absorb failed: dimension mismatch", false) ∧
      ¬ ∀ mux' a reason w', (sampleDecoding.processPlaintext sampleSource sampleFrame
          fun _ => .ok []).run .quiet = (.ok (mux', .rejected a reason), w') →
        mux'.state.decoders = sampleDecoding.state.decoders ∧
          mux'.state.recoders = sampleDecoding.state.recoders ∧
          mux'.state.tick = sampleDecoding.state.tick := by
  have hrefusal : refusal sampleDecoding sampleFrame
      = some ("absorb failed: dimension mismatch", false) := by decide +kernel
  have hbefore : sampleDecoding.state.decoders.contains sampleTopic = true := by decide +kernel
  refine ⟨sampleRlnc_checksDimensions, hbefore, hrefusal, fun h => ?_⟩
  rw [refusal] at hrefusal
  split at hrefusal
  · rename_i mux' addr reason w' hrun
    -- the decoder that was there before is not there after
    have hafter := (Prod.mk.inj (Option.some.inj hrefusal)).2
    rw [(h mux' addr reason w' hrun).1, hbefore] at hafter
    cases hafter
  · cases hrefusal

end Libp2pCat.Pubsub
