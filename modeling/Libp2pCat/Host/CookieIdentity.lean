import Libp2pCat.Host.Changes

/-!
Cookie identities and table slots.

* `Host.Known`, `Host.OneSlotPerIdentity`: the addresses of the two tables have different
  encodings in the cookie MAC.
* `Host.Shadowed`: an address of the tables has the same encoding as one that is to be added, and
  the addition does not drive it out.
* `one_slot_per_identity`: the identities stay apart as long as no shadowed address is dialed or
  answered; the tables are keyed by the raw address, so such an operation ends it
  (`changed_interface_holds_two_slots`).
-/

namespace Libp2pCat

open ByteString Effect Std Trace

variable {C : Crypto}

/-- The address has a handshake or a connection. -/
def Host.Known (host : Host C) (addr : UdpAddr) : Prop :=
  (∃ e, host.handshakes[addr]? = some e) ∨ ∃ c, host.established[addr]? = some c

/-- Different addresses of the tables have different encodings in the cookie MAC. -/
def Host.OneSlotPerIdentity (host : Host C) : Prop :=
  ∀ a b, host.Known a → host.Known b → a ≠ b → Cookie.addrBytes a ≠ Cookie.addrBytes b

/-- The address has only a handshake, the oldest of a full table: the next new handshake drives it
out. -/
def Host.NextOut (host : Host C) (addr : UdpAddr) : Prop :=
  host.established[addr]? = none ∧
    host.capacity.maxHandshakesInFlight ≤ host.handshakes.size ∧
    Lru.oldest (fun e : InFlightHandshake C => e.lastActivity.toNat) host.handshakes = some addr

/-- Another address of the tables has the same encoding, and is not the next one out. -/
def Host.Shadowed (host : Host C) (addr : UdpAddr) : Prop :=
  ∃ a, a ≠ addr ∧ host.Known a ∧ Cookie.addrBytes a = Cookie.addrBytes addr ∧ ¬host.NextOut a

lemma Host.Known.mono {host host' : Host C} {a : UdpAddr} (h : host'.Known a)
    (hh : ∀ e, host'.handshakes[a]? = some e → host.handshakes[a]? = some e)
    (he : ∀ c, host'.established[a]? = some c → host.established[a]? = some c) : host.Known a :=
  h.imp (fun ⟨e, h⟩ => ⟨e, hh e h⟩) fun ⟨c, h⟩ => ⟨c, he c h⟩

/-- An operation that creates no handshake makes no address known. -/
lemma Host.Step.known_of_known {s s' : Host C × World} {l : HostLabel} (h : s.1.WithinCapacity)
    (hstep : Host.Step s l s') (hnew : ∀ addr, ¬Creates addr s l) {a : UdpAddr}
    (ha : s'.1.Known a) : s.1.Known a := by
  cases hstep.changes h with
  | kept _ _ hhandshakes hestablished =>
      rw [Host.Known, hhandshakes, hestablished] at ha
      exact ha
  | created addr _ hcreates => exact absurd hcreates (hnew addr)
  | completed addr entry conn _ hentry _ _ hhandshakes hestablished =>
      by_cases haddr : a = addr
      · exact Or.inl ⟨entry, haddr ▸ hentry⟩
      · refine ha.mono (fun e he => ?_) (fun c hc => ?_)
        · rw [hhandshakes] at he
          exact ExtTreeMap.getElem?_of_erase he
        · rw [hestablished] at hc
          exact Lru.getElem?_of_insertWithLru haddr hc
  | stamped addr conn conn' _ _ hconn _ hhandshakes hestablished =>
      by_cases haddr : a = addr
      · exact Or.inr ⟨conn, haddr ▸ hconn⟩
      · rw [Host.Known, hhandshakes, hestablished,
          ExtTreeMap.getElem?_insert_of_ne (Ne.symm haddr)] at ha
        exact ha
  | evicted addr _ hhost =>
      rw [hhost] at ha
      exact ha.mono (fun e he => ExtTreeMap.getElem?_of_erase he)
        fun c hc => ExtTreeMap.getElem?_of_erase hc
  | swept m _ hhost =>
      rw [hhost] at ha
      exact ha.mono (fun e he => Lru.getElem?_of_sweep he) fun c hc => Lru.getElem?_of_sweep hc

/-- A new handshake makes its address known, and keeps every other one known but the next one
out. -/
lemma Host.Step.known_iff_of_creates {s s' : Host C × World} {l : HostLabel} {addr : UdpAddr}
    (h : s.1.WithinCapacity) (hstep : Host.Step s l s') (hcreates : Creates addr s l)
    (a : UdpAddr) : s'.1.Known a ↔ a = addr ∨ (s.1.Known a ∧ ¬s.1.NextOut a) := by
  obtain ⟨entry, -, hest, hhandshakes, hestablished, -⟩ := hstep.of_creates h hcreates
  have hnew : s.1.handshakes.contains addr = false := by
    rw [ExtTreeMap.contains_eq_isSome_getElem?, hcreates.1]
    rfl
  by_cases ha : a = addr
  · subst ha
    simp only [true_or, iff_true]
    exact Or.inl ⟨entry, by rw [hhandshakes]; exact Lru.getElem?_insertWithLru_self⟩
  · rw [Host.Known, hestablished, hhandshakes]
    simp only [ha, false_or]
    by_cases hout : s.1.NextOut a
    · have hgone : (insertHandshakeWithLru s.1.handshakes addr entry
          s.1.capacity.maxHandshakesInFlight)[a]? = none :=
        Lru.getElem?_insertWithLru_oldest hnew hout.2.1 hout.2.2 ha
      simp [hgone, hout.1, hout]
    · simp only [hout, not_false_iff, and_true]
      cases hc : s.1.established[a]? with
      | some c => simp [Host.Known, hc]
      | none =>
          have hkept : (insertHandshakeWithLru s.1.handshakes addr entry
              s.1.capacity.maxHandshakesInFlight)[a]? = s.1.handshakes[a]? :=
            Lru.getElem?_insertWithLru_of_ne ha fun hfull => hout ⟨hc, hfull.2.1, hfull.2.2⟩
          simp [Host.Known, hkept, hc]

/-- One operation that adds no shadowed address keeps the identities apart. -/
lemma Host.OneSlotPerIdentity.step {s s' : Host C × World} {l : HostLabel}
    (h : s.1.OneSlotPerIdentity) (hcap : s.1.WithinCapacity) (hstep : Host.Step s l s')
    (hclear : ∀ addr, Creates addr s l → ¬s.1.Shadowed addr) : s'.1.OneSlotPerIdentity := by
  intro a b ha hb hne
  by_cases hcreates : ∃ addr, Creates addr s l
  · obtain ⟨addr, hcreates⟩ := hcreates
    rcases (hstep.known_iff_of_creates hcap hcreates a).mp ha with rfl | ⟨ha, houta⟩
    · rcases (hstep.known_iff_of_creates hcap hcreates b).mp hb with rfl | ⟨hb, houtb⟩
      · exact absurd rfl hne
      · intro heq
        exact hclear a hcreates ⟨b, Ne.symm hne, hb, heq.symm, houtb⟩
    · rcases (hstep.known_iff_of_creates hcap hcreates b).mp hb with rfl | ⟨hb, -⟩
      · intro heq
        exact hclear b hcreates ⟨a, hne, ha, heq, houta⟩
      · exact h a b ha hb hne
  · have hold : ∀ {x}, s'.1.Known x → s.1.Known x :=
      hstep.known_of_known hcap fun addr haddr => hcreates ⟨addr, haddr⟩
    exact h a b (hold ha) (hold hb) hne

/-- Cookie identities and slots.  In every run of a fresh host that dials or answers no address
shadowed by another one, the addresses of the two tables have different encodings in the cookie
MAC.  In every run, one operation that does is enough to end this. -/
theorem one_slot_per_identity {socket : UdpTransport} {kp : StaticKeypair C}
    {identity : Ed25519Keypair C} {secret : Key} {capacity : Capacity} {host₀ : Host C}
    (hnew : Host.withCapacity socket kp identity secret capacity = .ok host₀) (w₀ : World) :
    (∀ l s, Run (fun s x s' => Host.Step s x s' ∧ ∀ addr, Creates addr s x → ¬s.1.Shadowed addr)
      (host₀, w₀) l s → s.1.OneSlotPerIdentity) ∧
    (∀ l s x s' addr, Run Host.Step (host₀, w₀) l s → Host.Step s x s' → Creates addr s x →
      s.1.Shadowed addr → ¬s'.1.OneSlotPerIdentity) := by
  have hcap₀ := Host.WithinCapacity.withCapacity hnew
  refine ⟨fun l s hrun => ?_, ?_⟩
  · have hboth : s.1.WithinCapacity ∧ s.1.OneSlotPerIdentity := by
      refine hrun.invariant (P := fun t => t.1.WithinCapacity ∧ t.1.OneSlotPerIdentity) ?_ ?_
      · rintro s x s' ⟨hcap, hone⟩ ⟨hstep, hclear⟩
        exact ⟨hstep.withinCapacity hcap, hone.step hcap hstep hclear⟩
      · refine ⟨hcap₀, fun a b ha => ?_⟩
        obtain ⟨hh, he, -⟩ := Host.withCapacity_eq_ok hnew
        simp [Host.Known, hh, he] at ha
    exact hboth.2
  · rintro l s x s' addr hrun hstep hcreates ⟨a, hne, ha, heq, hout⟩ hone
    have hcap := run_withinCapacity hrun hcap₀
    have hknown := hstep.known_iff_of_creates hcap hcreates
    exact hone a addr ((hknown a).mpr (Or.inr ⟨ha, hout⟩)) ((hknown addr).mpr (Or.inl rfl)) hne heq

/-- The link-local address `fe80::1` with port 9, as a socket reports it on an interface. -/
def linkLocal (scopeId : UInt32) : UdpAddr :=
  .v6 ⟨⟨[0xfe, 0x80, 0, 0, 0, 0, 0, 0, 0, 0, 0, 0, 0, 0, 0, 1], rfl⟩, 9, 0, scopeId⟩

/-- Message 1 of a peer with the cookie that was minted for its address on the second interface. -/
def linkLocalMsg1 : Bytes :=
  List.replicate 32 3 ++
    (Cookie.mint sampleCrypto (.replicate 32 2) (linkLocal 2) (List.replicate 32 3)).bytes

/-- A world in which this datagram arrives on the second interface and then on the third. -/
def interfacesWorld : World where
  recvFrom k := .ok (linkLocal (if k = 0 then 2 else 3), linkLocalMsg1)
  sendTo _ := .ok ()
  sent := []
  received := []

/-- The sample host after the first and after the second of these datagrams. -/
def afterBoth :
    Option ((HostEvent × (Host sampleCrypto × World)) × HostEvent × (Host sampleCrypto × World)) :=
  (Host.recvOutcome (sampleHost 2, interfacesWorld) (.replicate 32 4)).bind fun r =>
    (Host.recvOutcome r.2 (.replicate 32 5)).map fun r' => (r, r')

/-- The interface is no part of the identity. -/
lemma addrBytes_linkLocal (scopeId scopeId' : UInt32) :
    Cookie.addrBytes (linkLocal scopeId) = Cookie.addrBytes (linkLocal scopeId') := rfl

/-- The two receives of this run. -/
lemma steps_afterBoth {r r' : HostEvent × (Host sampleCrypto × World)}
    (h : afterBoth = some (r, r')) :
    Host.Step (sampleHost 2, interfacesWorld) (.recvOne (.replicate 32 4) r.1) r.2 ∧
      Host.Step r.2 (.recvOne (.replicate 32 5) r'.1) r'.2 := by
  obtain ⟨r₁, hfirst, hmap⟩ := Option.bind_eq_some_iff.mp h
  obtain ⟨r₂, hsecond, heq⟩ := Option.map_eq_some_iff.mp hmap
  obtain ⟨rfl, rfl⟩ := Prod.mk.inj heq
  exact ⟨Host.step_of_recvOutcome hfirst, Host.step_of_recvOutcome hsecond⟩

/-- After the first datagram the identities are apart; the second one comes from a shadowed
address, the same peer on another interface, and is answered all the same. -/
theorem one_slot_per_identity_sample :
    ∃ s s' : Host sampleCrypto × World,
      Host.Step (sampleHost 2, interfacesWorld)
        (.recvOne (.replicate 32 4) (.handshakeProgress (linkLocal 2))) s ∧
      Host.Step s (.recvOne (.replicate 32 5) (.handshakeProgress (linkLocal 3))) s' ∧
      s.1.OneSlotPerIdentity ∧ s.1.Shadowed (linkLocal 3) ∧ ¬s'.1.OneSlotPerIdentity := by
  have hevents : afterBoth.map (fun r => (r.1.1, r.2.1))
      = some (.handshakeProgress (linkLocal 2), .handshakeProgress (linkLocal 3)) := by
    decide +kernel
  have htables : afterBoth.map (fun r => (r.1.2.1.handshakes.contains (linkLocal 2),
      r.1.2.1.handshakes.contains (linkLocal 3),
      decide (r.1.2.1.capacity.maxHandshakesInFlight ≤ r.1.2.1.handshakes.size)))
        = some (true, false, false) := by decide +kernel
  have hcookie : afterBoth.map (fun r => (r.1.2.2.recvFrom 0,
      decide (Cookie.Valid sampleCrypto r.1.2.1.identity.cookieSecret (linkLocal 3)
        (linkLocalMsg1.take r.1.2.1.socket.recvBufSize))))
        = some (.ok (linkLocal 3, linkLocalMsg1), true) := by decide +kernel
  obtain ⟨⟨⟨event, s⟩, event', s'⟩, hout, hev⟩ := Option.map_eq_some_iff.mp hevents
  obtain ⟨rfl, rfl⟩ := Prod.mk.inj hev
  rw [hout] at htables hcookie
  simp only [Option.map_some, Option.some.injEq, Prod.mk.injEq, decide_eq_true_eq,
    decide_eq_false_iff_not] at htables hcookie
  obtain ⟨hfirst, hsecond⟩ := steps_afterBoth hout
  have hfresh : ∀ addr, ¬(sampleHost 2).Shadowed addr := by
    rintro addr ⟨a, -, ⟨e, he⟩ | ⟨c, hc⟩, -⟩
    · cases he
    · cases hc
  have hslots := one_slot_per_identity (sampleHost_eq 2) interfacesWorld
  have hcreates : Creates (linkLocal 3) s
      (.recvOne (.replicate 32 5) (.handshakeProgress (linkLocal 3))) :=
    ⟨ExtTreeMap.getElem?_eq_none_of_contains_eq_false htables.2.1,
      Or.inr ⟨_, _, rfl, hcookie.1, hcookie.2⟩⟩
  have hshadowed : s.1.Shadowed (linkLocal 3) := by
    have hknown := htables.1
    rw [ExtTreeMap.contains_eq_isSome_getElem?] at hknown
    refine ⟨linkLocal 2, by decide, Or.inl (Option.isSome_iff_exists.mp hknown),
      addrBytes_linkLocal 2 3, fun hnext => htables.2.2 hnext.2.1⟩
  refine ⟨s, s', hfirst, hsecond, ?_, hshadowed, ?_⟩
  · exact hslots.1 _ s (Run.single ⟨hfirst, fun addr _ => hfresh addr⟩)
  · exact hslots.2 _ s _ s' (linkLocal 3) (Run.single hfirst) hsecond hcreates hshadowed

/-- One peer, heard on two interfaces, holds two slots of the handshake table under one cookie
identity. -/
theorem changed_interface_holds_two_slots :
    linkLocal 2 ≠ linkLocal 3 ∧
    Cookie.addrBytes (linkLocal 2) = Cookie.addrBytes (linkLocal 3) ∧
    (∃ l s, Run Host.Step (sampleHost 2, interfacesWorld) l s ∧ s.1.Known (linkLocal 2) ∧
      s.1.Known (linkLocal 3)) ∧
    ¬∀ l s, Run Host.Step (sampleHost 2, interfacesWorld) l s → s.1.OneSlotPerIdentity := by
  have htables : afterBoth.map (fun r => (r.2.2.1.handshakes.contains (linkLocal 2),
      r.2.2.1.handshakes.contains (linkLocal 3))) = some (true, true) := by decide +kernel
  obtain ⟨⟨r, r'⟩, hout, hboth⟩ := Option.map_eq_some_iff.mp htables
  simp only [Prod.mk.injEq, ExtTreeMap.contains_eq_isSome_getElem?] at hboth
  obtain ⟨hfirst, hsecond⟩ := steps_afterBoth hout
  have hrun := (Run.single hfirst).snoc hsecond
  have htwo : r'.2.1.Known (linkLocal 2) := Or.inl (Option.isSome_iff_exists.mp hboth.1)
  have hthree : r'.2.1.Known (linkLocal 3) := Or.inl (Option.isSome_iff_exists.mp hboth.2)
  have hne : linkLocal 2 ≠ linkLocal 3 := by decide
  refine ⟨hne, addrBytes_linkLocal 2 3, ⟨_, r'.2, hrun, htwo, hthree⟩, fun hall => ?_⟩
  exact hall _ _ hrun (linkLocal 2) (linkLocal 3) htwo hthree hne (addrBytes_linkLocal 2 3)

end Libp2pCat
