import Libp2pCat.Pubsub.RelayBound
import Libp2pCat.Host.Traffic

/-!
What a pubsub node sends, and to whom.

* `sendsTo`: one plaintext for each of some peers; `peersBut`: every peer but one.
* `RelaysAs`: the frame with which a relay forwards what a plaintext taught it.
* `Forwards`: the sends behind the event of a plaintext; `PubsubMux.follows_processPlaintext`,
  `PubsubMux.follows_recvOne`, `PubsubMux.follows_broadcast`: nodes make exactly these.
* `relay_fans_out`: a relayed frame leaves once for every peer but its source, and nothing else
  does.
-/

namespace Libp2pCat.Pubsub

open ByteString Effect Std Trace

variable {C : Crypto} {R : Rlnc} {A : PubsubAuth}

/-- One plaintext for each of some peers. -/
def sendsTo (plaintext : Bytes) (addrs : List UdpAddr) : List HostLabel :=
  addrs.map fun a => .send a plaintext

/-- Every peer but one. -/
def peersBut (host : Host C) (addr : UdpAddr) : List UdpAddr :=
  host.establishedAddrs.filter fun a => a ≠ addr

/-- The frame with which a relay forwards what a plaintext taught it: a combination of the pieces
of its recoder, the new one included, under a tag of its own. -/
def RelaysAs (state : PubsubState R A) (plaintext : Bytes) (rng : ℕ → Except String Bytes)
    (topic : Topic) (frame : Bytes) : Prop :=
  ∃ wp entry recoder recoded, Carries R A plaintext topic wp ∧
    state.recoders[topic]? = some entry ∧ A.verify entry.commitment wp.piece wp.tag = .ok () ∧
    R.addPiece entry.recoder wp.piece = .ok recoder ∧ R.recodeOne recoder rng = .ok recoded ∧
    encode R A topic wp.piece.codingVector.length wp.piece.data.length
      ⟨entry.commitment, recoded, A.tag entry.commitment recoded⟩ = .ok frame

/-- What processing a plaintext makes a node send: nothing, or, if a relay gained a piece, one
frame to every peer but the source. -/
def Forwards (mux : PubsubMux C R A) (addr : UdpAddr) (plaintext : Bytes)
    (rng : ℕ → Except String Bytes) (event : MuxEvent) (l : List HostLabel) : Prop :=
  (l = [] ∧ ∀ topic, event.relays topic = false) ∨
    ∃ topic frame, event = .pubsubRelayed addr topic (peersBut mux.host addr).length ∧
      RelaysAs mux.state plaintext rng topic frame ∧
      l = sendsTo (prefixKind KIND_PUBSUB frame) (peersBut mux.host addr)

/-! ### The sends of an operation -/

lemma follows_sendToEach (mux : PubsubMux C R A) (datagram : Bytes) (addrs : List UdpAddr) :
    Io.Follows Host.Step mux.host (sendToEach mux datagram addrs) fun mux' l h =>
      h = mux'.host ∧ l = sendsTo datagram addrs ∧ mux'.state = mux.state ∧
        mux'.host.establishedAddrs = mux.host.establishedAddrs := by
  rw [sendToEach, Io.foldl_flatMap_eq_chain, Io.pure_flatMap]
  let I : PubsubMux C R A → Prop := fun m =>
    m.state = mux.state ∧ m.host.establishedAddrs = mux.host.establishedAddrs
  have hone : ∀ (addr : UdpAddr) (m : PubsubMux C R A), I m →
      Io.Follows Host.Step m.host
        ((m.host.send addr datagram).map fun host => (⟨host, m.state⟩ : PubsubMux C R A))
        fun m' l h => h = m'.host ∧ l = [.send addr datagram] ∧ I m' := by
    rintro addr m ⟨hstate, hpeers⟩
    refine ((m.host.follows_send addr datagram).mono ?_).map
    rintro host l h ⟨rfl, rfl, hsame⟩
    exact ⟨rfl, rfl, hstate, hsame.trans hpeers⟩
  refine (Io.follows_chain hone addrs ⟨rfl, rfl⟩).mono ?_
  rintro mux' l h ⟨hhost, rfl, hstate, hpeers⟩
  exact ⟨hhost, List.map_eq_flatMap.symm, hstate, hpeers⟩

lemma follows_relayOn {host : Host C} {state : PubsubState R A} {addr : UdpAddr} {topic : Topic}
    {wp : WirePiece A} {commitment : A.Commitment} {recoder : R.Recoder}
    {rng : ℕ → Except String Bytes} :
    Io.Follows Host.Step host (relayOn host state addr topic wp commitment recoder rng)
      fun r l h => h = r.1.host ∧ ∃ recoded frame, R.recodeOne recoder rng = .ok recoded ∧
        encode R A topic wp.piece.codingVector.length wp.piece.data.length
          ⟨commitment, recoded, A.tag commitment recoded⟩ = .ok frame ∧
        r.2 = .pubsubRelayed addr topic (peersBut host addr).length ∧
        l = sendsTo (prefixKind KIND_PUBSUB frame) (peersBut host addr) := by
  refine Io.follows_suspend_flatMap fun recoded hrecode => ?_
  refine Io.follows_suspend_flatMap fun frame hframe => ?_
  refine (((follows_sendToEach ⟨host, state⟩ _ _).mono ?_).map).map
  rintro mux' l h ⟨rfl, rfl, -, -⟩
  exact ⟨rfl, recoded, frame, Except.mapError_eq_ok_iff.mp hrecode, hframe, rfl, rfl⟩

/-- A relay sends what it forwards, and nothing else. -/
lemma follows_relayPath {host : Host C} {state : PubsubState R A} {addr : UdpAddr}
    {plaintext : Bytes} {topic : Topic} {wp : WirePiece A} {rng : ℕ → Except String Bytes}
    (hframe : Carries R A plaintext topic wp) :
    Io.Follows Host.Step host (relayPath host state addr topic wp rng) fun r l h =>
      h = r.1.host ∧ Forwards ⟨host, state⟩ addr plaintext rng r.2 l := by
  have hquiet : ∀ (m : PubsubMux C R A) event, m.host = host → (∀ t, event.relays t = false) →
      Io.Follows Host.Step host (Io.pure (m, event) : Io World Error _) fun r l h =>
        h = r.1.host ∧ Forwards ⟨host, state⟩ addr plaintext rng r.2 l :=
    fun m event hhost hevent => Io.follows_pure ⟨hhost.symm, Or.inl ⟨rfl, hevent⟩⟩
  rw [relayPath]
  split
  · exact hquiet _ _ rfl fun _ => rfl
  · rename_i entry hentry
    split
    · exact hquiet _ _ rfl fun _ => rfl
    · rename_i hverify
      split
      · exact hquiet _ _ rfl fun _ => rfl
      · rw [rankGate]
        split
        · exact hquiet _ _ rfl fun _ => rfl
        · split
          · exact hquiet _ _ rfl fun _ => rfl
          · split
            · exact hquiet _ _ rfl fun _ => rfl
            · rename_i recoder hadd
              refine follows_relayOn.mono ?_
              rintro r l h ⟨hhost, recoded, frame, hrecode, hencode, hevent, hl⟩
              exact ⟨hhost, Or.inr ⟨topic, frame, hevent,
                ⟨wp, entry, recoder, recoded, hframe, hentry, hverify, hadd, hrecode, hencode⟩, hl⟩⟩

lemma decoderPath_host (host : Host C) (state : PubsubState R A) (addr : UdpAddr) (topic : Topic)
    (wp : WirePiece A) : (decoderPath host state addr topic wp).1.host = host := by
  rw [decoderPath]
  repeat' split
  all_goals rfl

lemma follows_dispatchPlaintext {host : Host C} {state : PubsubState R A} {addr : UdpAddr}
    {plaintext : Bytes} {rng : ℕ → Except String Bytes} :
    Io.Follows Host.Step host (dispatchPlaintext host state addr plaintext rng) fun r l h =>
      h = r.1.host ∧ Forwards ⟨host, state⟩ addr plaintext rng r.2 l := by
  have hquiet : ∀ (m : PubsubMux C R A) event, m.host = host → (∀ t, event.relays t = false) →
      Io.Follows Host.Step host (Io.pure (m, event) : Io World Error _) fun r l h =>
        h = r.1.host ∧ Forwards ⟨host, state⟩ addr plaintext rng r.2 l :=
    fun m event hhost hevent => Io.follows_pure ⟨hhost.symm, Or.inl ⟨rfl, hevent⟩⟩
  by_cases hcarries : ∃ topic wp, Carries R A plaintext topic wp
  · obtain ⟨topic, wp, hframe⟩ := hcarries
    rw [dispatchPlaintext_of_carries hframe]
    split
    · exact follows_relayPath hframe
    · split
      · rename_i hdecoder
        obtain ⟨entry, hentry⟩ := getElem?_of_contains hdecoder
        rcases hpath : decoderPath host state addr topic wp with ⟨mux', event⟩
        have houtcome := decoderPath_outcome hentry hpath
        refine hquiet _ _ ?_ ?_
        · rw [← decoderPath_host host state addr topic wp, hpath]
        · generalize mux'.state = state' at houtcome
          cases houtcome <;> exact fun _ => rfl
      · exact hquiet _ _ rfl fun _ => rfl
  · rw [dispatchPlaintext]
    split
    · exact hquiet _ _ rfl fun _ => rfl
    · rename_i kind hkind
      dsimp only
      split
      · exact hquiet _ _ rfl fun _ => rfl
      · split
        · rename_i hpubsub
          have hpos : 1 ≤ plaintext.length := by
            cases plaintext with
            | nil => cases hkind
            | cons => exact Nat.le_add_left _ _
          rw [handlePubsubBody, sliceFrom_of_le hpos, Option.getD_some]
          split
          · exact hquiet _ _ rfl fun _ => rfl
          · rename_i frame wp hdecode
            exact absurd ⟨frame.topic, wp, hpubsub ▸ hkind, frame, hdecode, rfl⟩ hcarries
        · exact hquiet _ _ rfl fun _ => rfl

namespace PubsubMux

lemma follows_processPlaintext (mux : PubsubMux C R A) (addr : UdpAddr) (plaintext : Bytes)
    (rng : ℕ → Except String Bytes) :
    Io.Follows Host.Step mux.host (mux.processPlaintext addr plaintext rng) fun r l h =>
      h = r.1.host ∧ Forwards mux addr plaintext rng r.2 l :=
  follows_dispatchPlaintext

/-- A receive is a receive of the host, and then what the plaintext it delivered makes the node
send. -/
lemma follows_recvOne (mux : PubsubMux C R A) (seed : Key) (rng : ℕ → Except String Bytes) :
    Io.Follows Host.Step mux.host (mux.recvOne seed rng) fun r l h =>
      h = r.1.host ∧ ∃ event l', l = .recvOne seed event :: l' ∧
        ((l' = [] ∧ ∀ topic, r.2.relays topic = false) ∨
          ∃ (host : Host C) (addr : UdpAddr) (plaintext : Bytes),
            event = .datagramDelivered addr plaintext ∧
            Forwards ⟨host, mux.state⟩ addr plaintext rng r.2 l') := by
  refine (mux.host.follows_recvOne seed).flatMap ?_
  rintro ⟨host, event⟩ l h ⟨rfl, rfl⟩
  cases event with
  | datagramDelivered addr plaintext =>
      refine follows_dispatchPlaintext.mono ?_
      rintro r l h ⟨hhost, hforwards⟩
      exact ⟨hhost, _, l, rfl, Or.inr ⟨_, addr, plaintext, rfl, hforwards⟩⟩
  | _ => exact Io.follows_pure ⟨rfl, _, [], rfl, Or.inl ⟨rfl, fun _ => rfl⟩⟩

/-- A broadcast sends the frame of each piece to every peer, one piece after the other. -/
lemma follows_broadcast (mux : PubsubMux C R A) (topic : Topic) (k b : ℕ)
    (pieces : Except String (List (WirePiece A))) :
    Io.Follows Host.Step mux.host (mux.broadcast topic k b pieces) fun mux' l h =>
      h = mux'.host ∧ mux'.state = mux.state ∧ ∃ coded frames, pieces = .ok coded ∧
        coded.mapM (fun wp => encode R A topic k b wp) = .ok frames ∧
        l = frames.flatMap fun frame =>
          sendsTo (prefixKind KIND_PUBSUB frame) mux.host.establishedAddrs := by
  refine Io.follows_suspend_flatMap fun coded hpieces => ?_
  refine Io.follows_suspend_flatMap fun frames hframes => ?_
  rw [fanOutAll, Io.foldl_flatMap_eq_chain, Io.pure_flatMap]
  let I : PubsubMux C R A → Prop := fun m =>
    m.state = mux.state ∧ m.host.establishedAddrs = mux.host.establishedAddrs
  have hone : ∀ (frame : Bytes) (m : PubsubMux C R A), I m →
      Io.Follows Host.Step m.host (sendFrameToAll m frame) fun m' l h => h = m'.host ∧
        l = sendsTo (prefixKind KIND_PUBSUB frame) mux.host.establishedAddrs ∧ I m' := by
    rintro frame m ⟨hstate, hpeers⟩
    rw [sendFrameToAll, hpeers]
    refine (follows_sendToEach m _ _).mono ?_
    rintro m' l h ⟨rfl, rfl, hstate', hpeers'⟩
    exact ⟨rfl, rfl, hstate'.trans hstate, hpeers'.trans hpeers⟩
  refine (Io.follows_chain hone frames ⟨rfl, rfl⟩).mono ?_
  rintro mux' l h ⟨hhost, rfl, hstate, -⟩
  exact ⟨hhost, hstate, coded, frames, Except.mapError_eq_ok_iff.mp hpieces, hframes, rfl⟩

end PubsubMux

/-! ### Fan-out -/

lemma mem_peersBut {host : Host C} {addr a : UdpAddr} :
    a ∈ peersBut host addr ↔ host.isEstablished a = true ∧ a ≠ addr := by
  rw [peersBut, List.mem_filter, decide_eq_true_iff, Host.establishedAddrs, ExtTreeMap.mem_keys,
    ExtTreeMap.mem_iff_contains, Host.isEstablished]

lemma nodup_peersBut (host : Host C) (addr : UdpAddr) : (peersBut host addr).Nodup :=
  ExtTreeMap.nodup_keys.filter _

/-- A relay fans a frame out exactly once: if processing a plaintext relays a piece, the node sends
one frame, made of what its recoder gained under a tag of its own, and each established peer but
the source gets it in exactly one datagram, which the count of the event counts; if nothing is
relayed, nothing is sent and the host is as it was.  The source of a generation sends the frame of
each coded piece to every peer, exactly once, in order. -/
theorem relay_fans_out :
    (∀ (mux mux' : PubsubMux C R A) addr plaintext rng event w w',
      (mux.processPlaintext addr plaintext rng).run w = (.ok (mux', event), w') →
      (∃ topic frame out, event = .pubsubRelayed addr topic out.length ∧
        RelaysAs mux.state plaintext rng topic frame ∧ w'.sent = w.sent ++ out ∧
        Run Host.Step (mux.host, w)
          (sendsTo (prefixKind KIND_PUBSUB frame) (out.map Prod.fst)) (mux'.host, w') ∧
        (out.map Prod.fst).Nodup ∧
        ∀ a, a ∈ out.map Prod.fst ↔ mux.host.isEstablished a = true ∧ a ≠ addr) ∨
      ((∀ topic, event.relays topic = false) ∧ mux'.host = mux.host ∧ w' = w)) ∧
    (∀ (mux mux' : PubsubMux C R A) topic k b pieces w w',
      (mux.broadcast topic k b pieces).run w = (.ok mux', w') →
      ∃ coded frames, pieces = .ok coded ∧
        coded.mapM (fun wp => encode R A topic k b wp) = .ok frames ∧ mux'.state = mux.state ∧
        Run Host.Step (mux.host, w) (frames.flatMap fun frame =>
          sendsTo (prefixKind KIND_PUBSUB frame) mux.host.establishedAddrs) (mux'.host, w')) := by
  refine ⟨fun mux mux' addr plaintext rng event w w' h => ?_,
    fun mux mux' topic k b pieces w w' h => ?_⟩
  · obtain ⟨l, host, hrun, rfl, hforwards⟩ :=
      mux.follows_processPlaintext addr plaintext rng w (mux', event) w' h
    rcases hforwards with ⟨rfl, hquiet⟩ | ⟨topic, frame, rfl, hrelays, rfl⟩
    · obtain ⟨hhost, hw⟩ := Prod.mk.inj hrun.eq_of_nil
      exact Or.inr ⟨hquiet, hhost, hw⟩
    · obtain ⟨-, out, hsent, haddrs⟩ := exists_sent_of_sends hrun
      refine Or.inl ⟨topic, frame, out, ?_, hrelays, hsent, ?_, ?_, ?_⟩
      · rw [← haddrs, List.length_map]
      · rwa [haddrs]
      · exact haddrs ▸ nodup_peersBut mux.host addr
      · exact fun a => haddrs ▸ mem_peersBut
  · obtain ⟨l, host, hrun, rfl, hstate, coded, frames, hpieces, hframes, rfl⟩ :=
      mux.follows_broadcast topic k b pieces w mux' w' h
    exact ⟨coded, frames, hpieces, hframes, hstate, hrun⟩

/-- A connection of the sample host. -/
def sampleConnection : EstablishedConnection where
  transport := ⟨.replicate 32 1, 0, .replicate 32 2, 0, 0⟩
  remoteStatic := .replicate 32 3
  remotePeerId := .fromEd25519 (.replicate 32 3)
  lastActivity := 0

/-- Another peer. -/
def sampleSink : UdpAddr := .v4 ⟨.replicate 4 8, 9⟩

/-- A relay of the sample topic with two peers, the sample source one of them. -/
def sampleFanRelay : PubsubMux sampleCrypto sampleRlnc nullAuthenticator :=
  ⟨{ sampleHost 1 with
      established := .ofList [(sampleSource, sampleConnection), (sampleSink, sampleConnection)] },
    sampleRelay.state⟩

/-- What a relay with two peers forwards of a frame that one of them sent goes to the other. -/
theorem relay_fans_out_sample :
    ∃ (mux' : PubsubMux sampleCrypto sampleRlnc nullAuthenticator) (w' : World)
      (out : List (UdpAddr × Bytes)),
      (sampleFanRelay.processPlaintext sampleSource sampleFrame fun _ => .ok []).run .quiet
        = (.ok (mux', .pubsubRelayed sampleSource sampleTopic 1), w') ∧
      w'.sent = out ∧ out.length = 1 ∧
      ∀ a, a ∈ out.map Prod.fst ↔
        sampleFanRelay.host.isEstablished a = true ∧ a ≠ sampleSource := by
  have hevent : (processed sampleFanRelay sampleFrame).map Prod.snd
      = some (.pubsubRelayed sampleSource sampleTopic 1) := by decide
  obtain ⟨⟨mux', event⟩, hproc, rfl⟩ := Option.map_eq_some_iff.mp hevent
  rw [processed] at hproc
  split at hproc
  · rename_i r w' hrun
    cases hproc
    rcases relay_fans_out.1 _ _ _ _ _ _ _ _ hrun with
      ⟨topic, frame, out, hcount, -, hsent, -, -, hall⟩ | ⟨hquiet, -⟩
    · have hone : 1 = out.length := (MuxEvent.pubsubRelayed.inj hcount).2.2
      exact ⟨mux', w', out, hrun, hsent, hone.symm, hall⟩
    · exact absurd (hquiet sampleTopic) (by decide)
  · cases hproc

end Libp2pCat.Pubsub
