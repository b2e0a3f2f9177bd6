import Libp2pCat.Mux.Node
import Libp2pCat.Kad.Driver

/-!
The lookup driver of the multiplexer is the driver of the standalone node, over another party.

* `MultiProtocolEvent.kadView`: what a lookup sees of an event; `absorbLookupEvent_eq` says that
  it sees all that matters to it.
* `muxParty`: the multiplexer as a party.
* `MultiProtocolNode.lookupNode_eq_lookup`: its lookups are those of the party.
-/

namespace Libp2pCat.Mux

open ByteString Effect Kad

variable {C : Crypto} {R : Pubsub.Rlnc} {A : Pubsub.PubsubAuth}

/-- What a lookup sees of an event: the traffic of the other protocols is as good as refused. -/
def MultiProtocolEvent.kadView : MultiProtocolEvent → KadEvent
  | .handshakeProgress addr => .handshakeProgress addr
  | .handshakeComplete addr remoteStatic remotePeerId remoteNodeId =>
      .handshakeComplete addr remoteStatic remotePeerId remoteNodeId
  | .kadPingRequestReceived source => .pingRequestReceived source
  | .kadPingResponseReceived source => .pingResponseReceived source
  | .kadFindNodeRequestReceived source target returned =>
      .findNodeRequestReceived source target returned
  | .kadFindNodeResponseReceived source peers => .findNodeResponseReceived source peers
  | .rejected addr reason => .rejected addr reason
  | .appData addr _ | .pubsubAbsorbed addr _ | .pubsubDelivered addr _ _
  | .pubsubRelayed addr _ _ | .pubsubRedundant addr _ | .observeRequestReceived addr
  | .observeResponseReceived addr _ | .punchRequestReceived addr _ _
  | .punchForwardReceived addr _ | .relayForwarded addr _ _ _ | .relayReceived addr _ _
  | .relayFailed addr _ _ | .rpcDatagram addr _ => .rejected addr "not for the lookup"

lemma absorbLookupEvent_eq (lookup : Lookup) (event : MultiProtocolEvent) :
    absorbLookupEvent lookup event = lookup.onEvent event.kadView := by
  cases event <;> rfl

/-- The multiplexer as the node of a lookup. -/
def muxParty : Party C (MultiProtocolNode C R A) where
  host := MultiProtocolNode.host
  table := MultiProtocolNode.kadTable
  act := lookupAct
  recvOne node seed := (node.recvOne seed Pubsub.unusedRelayRng).map fun r => (r.1, r.2.kadView)

lemma drainLookupResponses_eq_drain (node : MultiProtocolNode C R A) (lookup : Lookup)
    (seeds : ℕ → Key) (budget : ℕ) :
    drainLookupResponses node lookup seeds budget = muxParty.drain node lookup seeds budget := by
  induction budget generalizing node lookup seeds with
  | zero => rfl
  | succ budget ih =>
      rw [drainLookupResponses, Party.drain]
      cases lookup.hasPending with
      | false => rfl
      | true =>
          simp only [muxParty, Io.map, Io.flatMap_assoc, Io.pure_flatMap, ih, absorbLookupEvent_eq]
          rfl

lemma lookupSendChain_eq_chain (target : NodeId) (actions : List (NodeId × RoundAction))
    (node : MultiProtocolNode C R A) :
    lookupSendChain target actions node = Io.chain (fun p => lookupAct p.2 target) actions node :=
  Io.foldl_flatMap_eq_chain _ actions (Io.pure node)

/-- The driver of the multiplexer. -/
lemma driveLookupRounds_eq_drive (node : MultiProtocolNode C R A) (lookup : Lookup)
    (seeds : ℕ → Key) (roundsLeft : ℕ) :
    driveLookupRounds node lookup seeds roundsLeft
      = muxParty.drive node lookup seeds roundsLeft := by
  induction roundsLeft generalizing node lookup seeds with
  | zero => rfl
  | succ roundsLeft ih =>
      rw [driveLookupRounds, Party.drive]
      by_cases hdone : lookup.isDone = true
      · rw [if_pos hdone, if_pos (Or.inl hdone)]
      · by_cases hpick : lookup.pickNextAlpha = []
        · rw [if_neg hdone, if_pos (Or.inr hpick)]
          simp only [hpick, if_true]
        · have hgo : ¬ (lookup.isDone = true ∨ lookup.pickNextAlpha = []) :=
            not_or.mpr ⟨hdone, hpick⟩
          rw [if_neg hdone, if_neg hgo]
          simp only [if_neg hpick, lookupSendChain_eq_chain, drainLookupResponses_eq_drain, ih]
          rfl

/-- The lookups of the multiplexer are those of its party. -/
lemma MultiProtocolNode.lookupNode_eq_lookup (node : MultiProtocolNode C R A) (target : NodeId)
    (config : LookupConfig) (seeds : ℕ → Key) :
    node.lookupNode target config seeds = muxParty.lookup node target config seeds := by
  rw [MultiProtocolNode.lookupNode, driveLookupRounds_eq_drive]
  rfl

end Libp2pCat.Mux
