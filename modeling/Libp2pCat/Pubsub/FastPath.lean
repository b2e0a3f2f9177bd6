import Libp2pCat.Pubsub.Lifecycle

/-!
The shortcut of a relay whose rank is full, against the gate it cuts short.

* `relayPath_of_verified`: on a verified piece the relay takes `fastPath` when its rank is full,
  and `rankGate` otherwise.
* `Rlnc.SettlesAtFullRank`: what is assumed of the coder.  With it, the gate agrees with the
  shortcut on pieces of the right dimensions (`rankGate_of_fits`) and refuses all others
  (`rankGate_of_misfits`).
* `fast_path_agrees_iff`: so they agree on these pieces only; `misfit_answered_redundant`: a piece
  of other dimensions that reaches the shortcut.
-/

namespace Libp2pCat.Pubsub

open ByteString Effect Std

variable {C : Crypto} {R : Rlnc} {A : PubsubAuth} {host : Host C} {state : PubsubState R A}
  {addr : UdpAddr} {topic : Topic} {wp : WirePiece A} {entry : RecoderEntry R A}
  {rng : ℕ → Except String Bytes} {k b : ℕ}

/-! ### The two branches -/

/-- On a verified piece the relay takes one of the two. -/
lemma relayPath_of_verified (hrole : state.recoders[topic]? = some entry)
    (hverify : A.verify entry.commitment wp.piece wp.tag = .ok ()) :
    relayPath host state addr topic wp rng =
      if R.isComplete entry.rankTracker then Io.pure (fastPath host state addr topic entry)
      else rankGate host state addr topic wp entry rng := by
  rw [relayPath, hrole]
  simp only [hverify]

/-! ### Where they agree -/

/-- A tracker refuses pieces of other dimensions than its own, and when it is complete no other
piece changes its rank. -/
structure Rlnc.SettlesAtFullRank (R : Rlnc) : Prop where
  refuses : ∀ {k b d p}, R.Absorbed k b d → p.codingVector.length ≠ k ∨ p.data.length ≠ b →
    ∃ e, R.absorb d p = .error e
  settled : ∀ {k b d p}, R.Absorbed k b d → R.isComplete d = true →
    p.codingVector.length = k → p.data.length = b →
      ∃ d', R.absorb d p = .ok d' ∧ R.usefulCount d' = R.usefulCount d

/-- The gate on a piece that the tracker takes and that does not change its rank. -/
lemma rankGate_of_fits {tracker : R.DecoderState}
    (habsorb : R.absorb entry.rankTracker wp.piece = .ok tracker)
    (hrank : R.usefulCount tracker = R.usefulCount entry.rankTracker) :
    rankGate host state addr topic wp entry rng
      = Io.pure (fastPath host state addr topic entry) := by
  rw [rankGate, habsorb]
  simp only [if_pos hrank]
  rfl

/-- The gate on a piece that the tracker refuses. -/
lemma rankGate_of_misfits {e : String} (hrole : state.recoders[topic]? = some entry)
    (habsorb : R.absorb entry.rankTracker wp.piece = .error e) :
    rankGate host state addr topic wp entry rng
      = Io.pure (⟨host, state⟩, .rejected addr s!"relay rank tracker absorb failed: {e}") := by
  rw [rankGate, habsorb]
  simp only [Lru.insert_erase, Lru.insert_eq_self hrole]

/-- The event a frame was answered with, and the roles after it. -/
def answered (x : Io World Error (PubsubMux C R A × MuxEvent)) :
    Io World Error (MuxEvent × PubsubState R A) :=
  x.map fun r => (r.2, r.1.state)

/-- On a verified piece for a relay whose rank is full, the shortcut gives the event and the state
of the general branch exactly when the piece has the dimensions of the tracker. -/
theorem fast_path_agrees_iff (hR : R.SettlesAtFullRank)
    (hrole : state.recoders[topic]? = some entry) (htracker : R.Absorbed k b entry.rankTracker)
    (hfull : R.isComplete entry.rankTracker = true)
    (hverify : A.verify entry.commitment wp.piece wp.tag = .ok ()) :
    answered (relayPath host state addr topic wp rng)
        = answered (rankGate host state addr topic wp entry rng) ↔
      wp.piece.codingVector.length = k ∧ wp.piece.data.length = b := by
  rw [relayPath_of_verified hrole hverify, if_pos hfull]
  constructor
  · intro hagree
    by_contra hdims
    obtain ⟨e, habsorb⟩ := hR.refuses htracker (not_and_or.mp hdims)
    rw [rankGate_of_misfits hrole habsorb] at hagree
    -- one event is a redundancy, the other a refusal
    have hrun := congrArg (fun x => (x.run .quiet).1) hagree
    cases hrun
  · rintro ⟨hk, hb⟩
    obtain ⟨tracker, habsorb, hrank⟩ := hR.settled htracker hfull hk hb
    rw [rankGate_of_fits habsorb hrank]

lemma sampleRlnc_settlesAtFullRank : sampleRlnc.SettlesAtFullRank where
  refuses hd hdims := sampleRlnc_checksDimensions.absorb hd hdims
  settled {k b d p} hd hfull hk hb := by
    obtain ⟨rfl, rfl, -⟩ := sampleRlnc_absorbed hd
    have hlen : (SampleDecoder.pieces d).length = SampleDecoder.pieceCount d :=
      of_decide_eq_true hfull
    refine ⟨d, ?_, rfl⟩
    simp [sampleRlnc, SampleDecoder.absorb, SampleDecoder.useful, hk, hb, hlen]

/-- A relay of one-piece generations of the sample topic. -/
def sampleWholeRelay : PubsubMux sampleCrypto sampleRlnc nullAuthenticator :=
  ⟨sampleHost 1, PubsubState.new.registerRelay sampleTopic 1 2 ()⟩

/-- The piece of `sampleWholeFrame`, which completes such a relay. -/
def sampleWholePiece : WirePiece nullAuthenticator := ⟨(), ⟨[1], [7, 8]⟩, ()⟩

/-- The piece of `sampleFrame`, which has two coefficients. -/
def sampleMisfit : WirePiece nullAuthenticator := ⟨(), ⟨[1, 0], [7, 8]⟩, ()⟩

/-- The relay after that frame: its recoder and its tracker have the piece. -/
def sampleFullEntry : RecoderEntry sampleRlnc nullAuthenticator :=
  ⟨⟨1, 2, [sampleWholePiece.piece]⟩, ⟨1, 2, [sampleWholePiece.piece]⟩, (), 2⟩

lemma sampleFullEntry_absorbed : sampleRlnc.Absorbed 1 2 sampleFullEntry.rankTracker :=
  .absorb (p := sampleWholePiece.piece) .new rfl

/-- The event a computation ends with in a quiet world, and the clock after it. -/
def verdict (x : Io World Error (PubsubMux sampleCrypto sampleRlnc nullAuthenticator × MuxEvent)) :
    Option (MuxEvent × UInt64) :=
  match ((answered x).run .quiet).1 with
  | .ok r => some (r.1, r.2.tick)
  | .error _ => none

/-- The full relay is handed the same piece again: both branches call it redundant. -/
theorem fast_path_agrees_sample :
    answered (relayPath (sampleHost 1) ⟨∅, .ofList [(sampleTopic, sampleFullEntry)], 2⟩ sampleSource
        sampleTopic sampleWholePiece fun _ => .ok [])
      = answered (rankGate (sampleHost 1) ⟨∅, .ofList [(sampleTopic, sampleFullEntry)], 2⟩
        sampleSource sampleTopic sampleWholePiece sampleFullEntry fun _ => .ok []) :=
  (fast_path_agrees_iff sampleRlnc_settlesAtFullRank (by simp) sampleFullEntry_absorbed rfl
    rfl).mpr ⟨rfl, rfl⟩

/-- A relay that one frame completed is handed a frame with a piece of two coefficients: it calls
the piece redundant and moves its clock, where the general branch refuses the piece. -/
theorem misfit_answered_redundant :
    sampleRlnc.SettlesAtFullRank ∧ ∃ (mux : PubsubMux sampleCrypto sampleRlnc nullAuthenticator)
      (entry : RecoderEntry sampleRlnc nullAuthenticator),
      processed sampleWholeRelay sampleWholeFrame
        = some (mux, .pubsubRelayed sampleSource sampleTopic 0) ∧
      mux.state.recoders[sampleTopic]? = some entry ∧
      sampleRlnc.isComplete entry.rankTracker = true ∧
      verdict (mux.processPlaintext sampleSource sampleFrame fun _ => .ok [])
        = some (.pubsubRedundant sampleSource sampleTopic, 3) ∧
      verdict (relayPath mux.host mux.state sampleSource sampleTopic sampleMisfit fun _ => .ok [])
        = some (.pubsubRedundant sampleSource sampleTopic, 3) ∧
      verdict (rankGate mux.host mux.state sampleSource sampleTopic sampleMisfit entry
          fun _ => .ok [])
        = some (.rejected sampleSource
          "relay rank tracker absorb failed: dimension mismatch", 2) ∧
      answered (relayPath mux.host mux.state sampleSource sampleTopic sampleMisfit fun _ => .ok [])
        ≠ answered (rankGate mux.host mux.state sampleSource sampleTopic sampleMisfit entry
          fun _ => .ok []) := by
  have hchecks : ((processed sampleWholeRelay sampleWholeFrame).bind fun r =>
      r.1.state.recoders[sampleTopic]?.map fun entry =>
        (r.2, sampleRlnc.isComplete entry.rankTracker,
          [verdict (r.1.processPlaintext sampleSource sampleFrame fun _ => .ok []),
            verdict (relayPath r.1.host r.1.state sampleSource sampleTopic sampleMisfit
              fun _ => .ok []),
            verdict (rankGate r.1.host r.1.state sampleSource sampleTopic sampleMisfit entry
              fun _ => .ok [])]))
      = some (.pubsubRelayed sampleSource sampleTopic 0, true,
          [some (.pubsubRedundant sampleSource sampleTopic, 3),
            some (.pubsubRedundant sampleSource sampleTopic, 3),
            some (.rejected sampleSource
              "relay rank tracker absorb failed: dimension mismatch", 2)]) := by
    decide +kernel
  obtain ⟨⟨mux, event⟩, hmux, hentry⟩ := Option.bind_eq_some_iff.mp hchecks
  obtain ⟨entry, hrole, hvalues⟩ := Option.map_eq_some_iff.mp hentry
  simp only [Prod.mk.injEq, List.cons.injEq, and_true] at hvalues
  obtain ⟨rfl, hfull, hprocessed, hfast, hgate⟩ := hvalues
  refine ⟨sampleRlnc_settlesAtFullRank, mux, entry, hmux, hrole, hfull, hprocessed, hfast, hgate,
    fun hagree => ?_⟩
  rw [verdict, hagree, ← verdict, hgate] at hfast
  exact absurd hfast (by decide)

end Libp2pCat.Pubsub
