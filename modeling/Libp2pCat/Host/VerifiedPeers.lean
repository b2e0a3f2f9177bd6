import Libp2pCat.Host.Steps

/-!
Every established connection is with a peer whose identity was verified.

* `ReadsExactWidth`, `trailer_width_exact_iff`: the trailer of a handshake is read as its wire
  format says unless it is too long; bytes past the end are not looked at.
* `Authenticates`: in this state, this datagram completes a handshake with `addr` that
  authenticates a static key and carries a verified signature binding it to a peer.
* `Host.Step.established_of`: an entry of the established table after a step was there before
  with the same peer, or the step completed such a handshake.
* `verified_identity`: the entries of every reachable host go back to a completed handshake
  and have held its peer ever since, and `HandshakeComplete` is returned exactly when an
  entry appears.
-/

namespace Libp2pCat

open ByteString Effect Std Trace

variable {C : Crypto}

/-! ### The width of a trailer -/

/-- The bytes are read as the wire format says: as the binding whose encoding they are, and not at
all if they are no encoding; and a handshake trailer of another width binds no peer. -/
def ReadsExactWidth (C : Crypto) (b : Bytes) : Prop :=
  (∀ s, SignedStaticKey.fromBytes b = .ok s ↔
    b.length = SIGNED_STATIC_KEY_LEN ∧ s.toBytes = b) ∧
  (b.length ≠ SIGNED_STATIC_KEY_LEN →
    ∀ rs pid, verifyBinding C b rs ≠ .ok pid)

theorem trailer_width_exact_iff (C : Crypto) :
    (∀ s : SignedStaticKey, SignedStaticKey.fromBytes s.toBytes = .ok s) ∧
    ∀ b : Bytes, ReadsExactWidth C b ↔ b.length ≤ SIGNED_STATIC_KEY_LEN := by
  refine ⟨SignedStaticKey.fromBytes_toBytes, fun b => ⟨fun h => ?_, fun hle => ?_⟩⟩
  · by_contra hlong
    obtain ⟨s, hs⟩ := SignedStaticKey.exists_toBytes_prefix (Nat.le_of_not_ge hlong)
    have hwidth := ((h.1 s).mp (SignedStaticKey.fromBytes_eq_ok_iff.mpr hs)).1
    exact hlong hwidth.le
  · have hexact : ∀ s, SignedStaticKey.fromBytes b = .ok s ↔
        b.length = SIGNED_STATIC_KEY_LEN ∧ s.toBytes = b := by
      intro s
      rw [SignedStaticKey.fromBytes_eq_ok_iff]
      constructor
      · intro hpre
        have heq := hpre.eq_of_length_le (by rw [s.length_toBytes]; exact hle)
        exact ⟨heq ▸ s.length_toBytes, heq⟩
      · rintro ⟨-, rfl⟩
        exact List.prefix_rfl
    refine ⟨hexact, fun hne rs pid hbind => ?_⟩
    obtain ⟨s, hs, -⟩ := verifyBinding_eq_ok_iff.mp hbind
    exact hne ((hexact s).mp hs).1

/-- The binding of the sample identity, with a byte behind it. -/
def overlongTrailer : Bytes := (sampleHost 2).identity.signedStaticKey.toBytes ++ [0]

/-- 97 bytes are accepted. -/
theorem overlong_trailer_accepted :
    overlongTrailer.length = 97 ∧
      SignedStaticKey.fromBytes overlongTrailer = .ok (sampleHost 2).identity.signedStaticKey ∧
      (∃ pid, verifyBinding sampleCrypto overlongTrailer
        (sampleHost 2).identity.staticKeypair.publicKey = .ok pid) ∧
      ¬ReadsExactWidth sampleCrypto overlongTrailer := by
  have hlen : overlongTrailer.length = 97 := by
    rw [overlongTrailer, List.length_append, SignedStaticKey.length_toBytes]
    rfl
  have hread : SignedStaticKey.fromBytes overlongTrailer
      = .ok (sampleHost 2).identity.signedStaticKey :=
    SignedStaticKey.fromBytes_eq_ok_iff.mpr (List.prefix_append _ _)
  refine ⟨hlen, hread, ?_, fun h => ?_⟩
  · exact ⟨_, by
      simp only [verifyBinding, hread, Except.ok_bind]
      rfl⟩
  · have hwidth := ((h.1 _).mp hread).1
    rw [hlen] at hwidth
    cases hwidth

/-! ### The entries of the established table -/

/-- The datagram completes a handshake with `addr`: Noise authenticates the static key `rs`,
and the trailer holds a strict signature over it by the key of the peer `pid`. -/
inductive Authenticates (host : Host C) (addr : UdpAddr) (datagram : Bytes)
    (rs : StaticPublicKey) (pid : PeerId) : Prop where
  | initiator {afterE : InitiatorAfterE C} {msg1 payload : Bytes} {stamp : UInt64}
      {afterResp : InitiatorAfterResponse C} {signed : SignedStaticKey}
      (hentry : host.handshakes[addr]? = some ⟨.initiatorAwaitingResponse afterE msg1, stamp⟩)
      (hread : afterE.readResponse datagram = .ok (afterResp, payload))
      (hstatic : rs = afterResp.remoteStatic)
      (hsigned : SignedStaticKey.fromBytes payload = .ok signed) (hbinds : signed.Binds C rs)
      (hpeer : pid = PeerId.fromEd25519 signed.publicKey)
  | responder {afterResp : ResponderAfterResponse} {payload : Bytes} {stamp : UInt64}
      {transport : TransportState} {signed : SignedStaticKey}
      (hentry : host.handshakes[addr]? = some ⟨.responderAwaitingFinalize afterResp, stamp⟩)
      (hread : afterResp.readS C datagram = .ok (transport, rs, payload))
      (hsigned : SignedStaticKey.fromBytes payload = .ok signed) (hbinds : signed.Binds C rs)
      (hpeer : pid = PeerId.fromEd25519 signed.publicKey)

/-- The address is established with this peer. -/
def HoldsPeer (addr : UdpAddr) (rs : StaticPublicKey) (pid : PeerId) (s : Host C × World) : Prop :=
  ∃ conn, s.1.established[addr]? = some conn ∧ conn.remoteStatic = rs ∧ conn.remotePeerId = pid

variable {host host' : Host C} {addr a : UdpAddr} {datagram : Bytes} {seed : Key}
  {reply : Option Bytes} {event : HostEvent} {w w' : World} {conn conn' : EstablishedConnection}

/-- Touching an entry keeps its peer and every other entry. -/
lemma peer_of_insert {t : TransportState} {stamp : UInt64}
    (hconn : host.established[addr]? = some conn)
    (h : (host.established.insert addr
      { conn with transport := t, lastActivity := stamp })[a]? = some conn') :
    ∃ c, host.established[a]? = some c ∧ conn'.remoteStatic = c.remoteStatic ∧
      conn'.remotePeerId = c.remotePeerId := by
  rw [ExtTreeMap.getElem?_insert] at h
  split at h
  · rename_i heq
    cases h
    rw [LawfulEqOrd.eq_of_compare heq] at hconn
    exact ⟨conn, hconn, rfl, rfl⟩
  · exact ⟨conn', h, rfl, rfl⟩

/-- After a completion the new entry holds the peer, every other entry is an old one. -/
lemma established_of_completed {t : TransportState} {rs : StaticPublicKey} {pid : PeerId}
    (h : (host.completed addr t rs pid).established[a]? = some conn') :
    host.established[a]? = some conn' ∨
      (a = addr ∧ conn'.remoteStatic = rs ∧ conn'.remotePeerId = pid) := by
  by_cases ha : a = addr
  · subst ha
    rw [Host.completed, insertEstablishedWithLru, Lru.getElem?_insertWithLru_self] at h
    cases h
    exact Or.inr ⟨rfl, rfl, rfl⟩
  · exact Or.inl (Lru.getElem?_of_insertWithLru ha h)

/-- Where the entries of the established table come from: they were there with the same
peer, or this datagram completed a handshake with a verified one. -/
lemma Inbound.established_of (h : Inbound host addr datagram seed reply host' event)
    (hconn : host'.established[a]? = some conn') :
    (∃ c, host.established[a]? = some c ∧ conn'.remoteStatic = c.remoteStatic ∧
      conn'.remotePeerId = c.remotePeerId) ∨
    (a = addr ∧ host.established[a]? = none ∧
      event = .handshakeComplete a conn'.remoteStatic conn'.remotePeerId ∧
      Authenticates host a datagram conn'.remoteStatic conn'.remotePeerId) := by
  cases h with
  | delivered hc hdec => exact Or.inl (peer_of_insert hc hconn)
  | initiatorCompleted hest hentry hchal hadv =>
      rcases established_of_completed hconn with hold | ⟨rfl, rfl, rfl⟩
      · exact Or.inl ⟨conn', hold, rfl, rfl⟩
      · obtain ⟨afterResp, payload, hread, hbind, hwrite⟩ := initiatorAdvance_eq_ok_iff.mp hadv
        obtain ⟨_, _, _, _, -, -, -, -, hrs⟩ := writeS_eq_ok_iff.mp hwrite
        obtain ⟨signed, hsigned, hbinds, hpeer⟩ := verifyBinding_eq_ok_iff.mp hbind
        exact Or.inr ⟨rfl, hest, rfl,
          .initiator hentry hread hrs hsigned (hrs ▸ hbinds) hpeer⟩
  | responderCompleted hest hentry hfin =>
      rcases established_of_completed hconn with hold | ⟨rfl, rfl, rfl⟩
      · exact Or.inl ⟨conn', hold, rfl, rfl⟩
      · obtain ⟨payload, hread, hbind⟩ := responderFinalize_eq_ok_iff.mp hfin
        obtain ⟨signed, hsigned, hbinds, hpeer⟩ := verifyBinding_eq_ok_iff.mp hbind
        exact Or.inr ⟨rfl, hest, rfl, .responder hentry hread hsigned hbinds hpeer⟩
  | undecryptable => exact Or.inl ⟨conn', hconn, rfl, rfl⟩
  | challenged => exact Or.inl ⟨conn', hconn, rfl, rfl⟩
  | initiatorKept => exact Or.inl ⟨conn', hconn, rfl, rfl⟩
  | responderKept => exact Or.inl ⟨conn', hconn, rfl, rfl⟩
  | bareMsg1 => exact Or.inl ⟨conn', hconn, rfl, rfl⟩
  | validatedMsg1 => exact Or.inl ⟨conn', hconn, rfl, rfl⟩
  | unanswerable => exact Or.inl ⟨conn', hconn, rfl, rfl⟩
  | refused => exact Or.inl ⟨conn', hconn, rfl, rfl⟩

/-- A completion event names the new entry. -/
lemma Inbound.holdsPeer_of_complete {rs : StaticPublicKey} {pid : PeerId}
    (h : Inbound host addr datagram seed reply host' (.handshakeComplete a rs pid)) :
    host.established[a]? = none ∧ HoldsPeer a rs pid (host', w') := by
  have hnew : ∀ t, HoldsPeer a rs pid (host.completed a t rs pid, w') := fun t =>
    ⟨⟨t, rs, pid, host.tick + 1⟩, Lru.getElem?_insertWithLru_self, rfl, rfl⟩
  cases h with
  | initiatorCompleted hest hentry hchal hadv => exact ⟨hest, hnew _⟩
  | responderCompleted hest hentry hfin => exact ⟨hest, hnew _⟩

/-- The completion behind one receive of a host. -/
def CompletedBy (s : Host C × World) (addr : UdpAddr) (rs : StaticPublicKey) (pid : PeerId) :
    Prop :=
  ∃ datagram, s.2.recvFrom 0 = .ok (addr, datagram) ∧
    Authenticates s.1 addr (datagram.take s.1.socket.recvBufSize) rs pid

/-- The same for a whole step: sending touches entries, evicting drops them, and only a
receive brings a new one. -/
lemma Host.Step.established_of {s s' : Host C × World} {l : HostLabel} (h : Host.Step s l s')
    (hconn : s'.1.established[a]? = some conn') :
    (∃ c, s.1.established[a]? = some c ∧ conn'.remoteStatic = c.remoteStatic ∧
      conn'.remotePeerId = c.remotePeerId) ∨
    (s.1.established[a]? = none ∧
      (∃ seed, l = .recvOne seed (.handshakeComplete a conn'.remoteStatic conn'.remotePeerId)) ∧
      CompletedBy s a conn'.remoteStatic conn'.remotePeerId) := by
  cases h with
  | dial h =>
      obtain ⟨-, -, rfl, -⟩ := dial_run_eq_ok h
      exact Or.inl ⟨conn', hconn, rfl, rfl⟩
  | send h =>
      obtain ⟨c, t, d, hc, -, rfl, -⟩ := send_run_eq_ok h
      exact Or.inl (peer_of_insert hc hconn)
  | sendRaw h =>
      obtain ⟨rfl, -⟩ := sendRaw_run_eq_ok h
      exact Or.inl ⟨conn', hconn, rfl, rfl⟩
  | @recvOne _ _ _ _ seed event h =>
      obtain ⟨addr, datagram, reply, hnext, hin, -⟩ := recvOne_run_eq_ok h
      rcases hin.established_of hconn with hold | ⟨rfl, hnone, rfl, hauth⟩
      · exact Or.inl hold
      · exact Or.inr ⟨hnone, ⟨seed, rfl⟩, datagram, hnext, hauth⟩
  | evict host w addr =>
      exact Or.inl ⟨conn', ExtTreeMap.getElem?_of_erase hconn, rfl, rfl⟩
  | evictIdle => exact Or.inl ⟨conn', Lru.getElem?_of_sweep hconn, rfl, rfl⟩

/-- A receive returns `HandshakeComplete` exactly when the address enters the established
table, with the values of the new entry. -/
lemma Host.Step.complete_iff {s s' : Host C × World}
    (h : Host.Step s (.recvOne seed event) s') (addr : UdpAddr) (rs : StaticPublicKey)
    (pid : PeerId) :
    event = .handshakeComplete addr rs pid ↔
      s.1.established[addr]? = none ∧ HoldsPeer addr rs pid s' := by
  refine ⟨?_, ?_⟩
  · rintro rfl
    cases h with
    | recvOne h =>
        obtain ⟨_, _, _, -, hin, -⟩ := recvOne_run_eq_ok h
        exact hin.holdsPeer_of_complete
  · rintro ⟨hnone, conn, hconn, rfl, rfl⟩
    rcases h.established_of hconn with ⟨c, hc, -⟩ | ⟨-, ⟨seed', hl⟩, -⟩
    · rw [hnone] at hc
      cases hc
    · cases hl
      rfl

/-- While an entry lives its peer does not change. -/
lemma run_holdsPeer {s s' : Host C × World} {labels : List HostLabel} {rs : StaticPublicKey}
    {pid : PeerId}
    (h : Run (Run.within (fun s : Host C × World => ∃ c, s.1.established[addr]? = some c) Host.Step)
      s labels s') (h0 : HoldsPeer addr rs pid s) :
    Run (Run.within (HoldsPeer addr rs pid) Host.Step) s labels s' ∧ HoldsPeer addr rs pid s' := by
  induction h with
  | nil => exact ⟨.nil _, h0⟩
  | @snoc _ t _ _ _ hstep ih =>
      obtain ⟨hrun, c, hc, rfl, rfl⟩ := ih
      obtain ⟨hs, -, conn', hconn'⟩ := hstep
      have hpeer : HoldsPeer addr c.remoteStatic c.remotePeerId t := by
        rcases hs.established_of hconn' with ⟨c', hc', hrs, hpid⟩ | ⟨hnone, -⟩
        · rw [hc] at hc'
          cases hc'
          exact ⟨conn', hconn', hrs, hpid⟩
        · rw [hc] at hnone
          cases hnone
      exact ⟨hrun.snoc ⟨hs, ⟨c, hc, rfl, rfl⟩, hpeer⟩, hpeer⟩

/-- In every run of a host, each established entry was created by a receive that completed
a handshake authenticating its static key and verifying the signature of its peer, and it
has held this static key and peer ever since; and a receive returns `HandshakeComplete`
exactly when an address enters the table, with the entry's values. -/
theorem verified_identity {socket : UdpTransport} {kp : StaticKeypair C}
    {identity : Ed25519Keypair C} {secret : Key} {cap : Capacity} {host₀ : Host C} {w₀ : World}
    {labels : List HostLabel} {s : Host C × World}
    (hnew : Host.withCapacity socket kp identity secret cap = .ok host₀)
    (hrun : Run Host.Step (host₀, w₀) labels s) :
    (∀ addr conn, s.1.established[addr]? = some conn →
      ∃ l₁ seed l₂ s₁ s₂, labels = l₁ ++ .recvOne seed
          (.handshakeComplete addr conn.remoteStatic conn.remotePeerId) :: l₂ ∧
        Run Host.Step (host₀, w₀) l₁ s₁ ∧ s₁.1.established[addr]? = none ∧
        CompletedBy s₁ addr conn.remoteStatic conn.remotePeerId ∧
        Host.Step s₁ (.recvOne seed
          (.handshakeComplete addr conn.remoteStatic conn.remotePeerId)) s₂ ∧
        Run (Run.within (HoldsPeer addr conn.remoteStatic conn.remotePeerId) Host.Step) s₂ l₂ s) ∧
    ∀ seed event s', Host.Step s (.recvOne seed event) s' → ∀ addr rs pid,
      event = .handshakeComplete addr rs pid ↔
        s.1.established[addr]? = none ∧ HoldsPeer addr rs pid s' := by
  refine ⟨fun addr conn hconn => ?_, fun seed event s' h => h.complete_iff⟩
  have hempty : ¬ ∃ c, host₀.established[addr]? = some c := by
    simp [(Host.withCapacity_eq_ok hnew).2.1]
  -- the step that brought the entry in, and the stretch since then
  obtain ⟨l₁, l, l₂, s₁, s₂, rfl, hrun₁, hbefore, hstep, ⟨c, hc⟩, hsince⟩ :=
    hrun.exists_last_entry (P := fun s => ∃ c, s.1.established[addr]? = some c) hempty
      ⟨conn, hconn⟩
  rcases hstep.established_of hc with ⟨c', hc', -⟩ | ⟨hnone, ⟨seed, rfl⟩, hauth⟩
  · exact absurd ⟨c', hc'⟩ hbefore
  · obtain ⟨hheld, c'', hc'', hrs, hpid⟩ := run_holdsPeer hsince ⟨c, hc, rfl, rfl⟩
    rw [hconn] at hc''
    cases hc''
    rw [← hrs, ← hpid] at hstep hauth hheld
    exact ⟨l₁, seed, l₂, s₁, s₂, by rw [hrs, hpid], hrun₁, hnone, hauth, hstep, hheld⟩

/-- The address of the sample peer. -/
def sampleAddr : UdpAddr := .v4 ⟨.replicate 4 1, 9⟩

/-- Message 1 of the sample peer with the cookie the sample host minted for it. -/
def sampleMsg1WithCookie : Bytes :=
  List.replicate 32 3 ++
    (Cookie.mint sampleCrypto (.replicate 32 2) sampleAddr (List.replicate 32 3)).bytes

/-- Message 3 of the sample peer: its static key, then the binding of its identity. -/
def sampleMsg3 : Bytes :=
  (List.replicate 32 1 ++ ([0, 0, 0, 0, 1, 0, 0, 0, 0, 0, 0, 0] ++ [51, 69, 75, 65])) ++
    (List.replicate 96 1 ++ (List.replicate 12 0 ++ [51, 69, 75, 65]))

/-- A world in which the sample peer completes a handshake. -/
def sampleWorld : World where
  recvFrom k := .ok (sampleAddr, if k = 0 then sampleMsg1WithCookie else sampleMsg3)
  sendTo _ := .ok ()
  sent := []
  received := []

/-- The sample host once the peer completed its handshake. -/
def connectedHost : Option (Host sampleCrypto) :=
  (Host.recvOutcome (sampleHost 2, sampleWorld) (.replicate 32 4)).bind fun r =>
    (Host.recvOutcome r.2 (.replicate 32 5)).map fun r' => r'.2.1

/-- The first datagram of the connected peer, with the given plaintext. -/
def connectedDatagram (plaintext : Bytes) : Bytes :=
  beBytes 8 0 ++ (plaintext ++ (List.replicate 12 0 ++ [78, 111, 105, 115]))

/-- The sample host answers the peer, completes its handshake and has its identity
verified. -/
theorem verified_identity_sample :
    ∃ (s s₁ : Host sampleCrypto × World) (conn : EstablishedConnection),
      Run Host.Step (sampleHost 2, sampleWorld)
      [.recvOne (.replicate 32 4) (.handshakeProgress sampleAddr),
       .recvOne (.replicate 32 5) (.handshakeComplete sampleAddr (.replicate 32 1)
        (.fromEd25519 (.replicate 32 1)))] s ∧
      s.1.established[sampleAddr]? = some conn ∧ s₁.1.established[sampleAddr]? = none ∧
      CompletedBy s₁ sampleAddr conn.remoteStatic conn.remotePeerId := by
  have hevents : ((Host.recvOutcome (sampleHost 2, sampleWorld) (.replicate 32 4)).bind fun r =>
      (Host.recvOutcome r.2 (.replicate 32 5)).map fun r' => (r.1, r'.1))
        = some (.handshakeProgress sampleAddr, .handshakeComplete sampleAddr (.replicate 32 1)
          (.fromEd25519 (.replicate 32 1))) := by decide +kernel
  obtain ⟨⟨_, s₁⟩, h₁, hevents⟩ := Option.bind_eq_some_iff.mp hevents
  obtain ⟨⟨_, s⟩, h₂, hev⟩ := Option.map_eq_some_iff.mp hevents
  cases hev
  have hrun := ((Run.nil _).snoc (Host.step_of_recvOutcome h₁)).snoc (Host.step_of_recvOutcome h₂)
  obtain ⟨-, conn, hconn, -⟩ := ((Host.step_of_recvOutcome h₂).complete_iff _ _ _).mp rfl
  obtain ⟨_, _, _, s₂, _, _, _, hnone, hdone, -⟩ :=
    (verified_identity (sampleHost_eq 2) hrun).1 sampleAddr conn hconn
  exact ⟨s, s₂, conn, hrun, hconn, hnone, hdone⟩

end Libp2pCat
