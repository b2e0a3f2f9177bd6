import Libp2pCat.Host.Session
import Libp2pCat.Host.Changes

/-!
Two hosts that dial each other at once.

* `Waiting`: the host has dialed the address and heard no message 2 from it, and has sent it nothing
  longer than a message 1 with its cookie.
* `Waiting.step`: so it stays while it has an entry for the address at all, if it hears from there
  nothing that is an authentic message 2.
* `simultaneous_dials_stall`: if the two dial each other before either has heard of the other, no
  message 2 is ever sent, and neither is connected with the other until one of them lets its entry
  for the other go.
-/

namespace Libp2pCat

open ByteString Effect Std Trace

variable {C : Crypto} {addr : UdpAddr}

/-! ### One of the two -/

/-- The host has dialed the address and is waiting for message 2, and has sent there nothing longer
than a message 1 with its cookie. -/
structure Waiting (addr : UdpAddr) (s : Host C × World) : Prop where
  withinCapacity : s.1.WithinCapacity
  dialed : ∃ afterE msg1 stamp, msg1.length = MESSAGE_1_LEN ∧
    s.1.handshakes[addr]? = some ⟨.initiatorAwaitingResponse afterE msg1, stamp⟩
  short : ∀ datagram, (addr, datagram) ∈ s.2.sent → datagram.length ≤ Cookie.MSG1_WITH_COOKIE_LEN

lemma World.mem_sent_afterSend {w : World} {a : UdpAddr} {payload datagram : Bytes} :
    (addr, datagram) ∈ (w.afterSend a payload).sent ↔
      (addr, datagram) ∈ w.sent ∨ addr = a ∧ datagram = payload := by
  rw [World.afterSend, List.mem_append, List.mem_singleton, Prod.mk.injEq]

/-- What a host that is waiting for message 2 makes of anything else. -/
lemma Inbound.of_waiting {host host' : Host C} {datagram : Bytes} {seed : Key}
    {reply : Option Bytes} {event : HostEvent}
    (h : Inbound host addr datagram seed reply host' event)
    (hest : host.established[addr]? = none) {afterE : InitiatorAfterE C} {msg1 : Bytes}
    {stamp : UInt64} (hlen : msg1.length = MESSAGE_1_LEN)
    (hentry : host.handshakes[addr]? = some ⟨.initiatorAwaitingResponse afterE msg1, stamp⟩)
    (hno : ¬ AuthenticFor host addr datagram) :
    (∀ r, reply = some r → r.length ≤ Cookie.MSG1_WITH_COOKIE_LEN) ∧
      (HostLabel.recvOne seed event).touches = none := by
  cases h with
  | delivered hconn | undecryptable hconn =>
      rw [hest] at hconn
      cases hconn
  | challenged _ hentry' hchal =>
      rw [hentry] at hentry'
      cases hentry'
      obtain ⟨hshape, -⟩ := (Bool.and_eq_true _ _).mp hchal
      refine ⟨?_, rfl⟩
      rintro r ⟨⟩
      rw [List.length_append, List.length_drop, hlen, of_decide_eq_true hshape]
      decide
  | initiatorCompleted _ hentry' _ hadv => exact absurd (Or.inl ⟨_, _, _, _, hentry', hadv⟩) hno
  | initiatorKept => exact ⟨by rintro r ⟨⟩, rfl⟩
  | responderCompleted _ hentry' | responderKept _ hentry' =>
      rw [hentry] at hentry'
      cases hentry'
  | bareMsg1 _ hnew | validatedMsg1 _ hnew | unanswerable _ hnew | refused _ hnew =>
      rw [hentry] at hnew
      cases hnew

/-- What the host hears from the address is no authentic message 2 or 3 of its handshake. -/
def HearsNoAnswer (addr : UdpAddr) (s : Host C × World) (l : HostLabel) : Prop :=
  ∀ seed event datagram, l = .recvOne seed event → s.2.recvFrom 0 = .ok (addr, datagram) →
    ¬ AuthenticFor s.1 addr (datagram.take s.1.socket.recvBufSize)

/-- The host has an entry for the address, of either kind. -/
def Known (addr : UdpAddr) (s : Host C × World) : Prop :=
  s.1.handshakes[addr]? ≠ none ∨ s.1.established[addr]? ≠ none

/-- While it has an entry for the address at all, the host stays waiting. -/
lemma Waiting.step {s s' : Host C × World} {l : HostLabel} (h : Waiting addr s)
    (hstep : Host.Step s l s') (hheard : HearsNoAnswer addr s l)
    (hraw : ∀ bytes, l = .sendRaw addr bytes → bytes.length ≤ Cookie.MSG1_WITH_COOKIE_LEN)
    (hknown : Known addr s') : Waiting addr s' := by
  obtain ⟨hcap, ⟨afterE, msg1, stamp, hlen, hentry⟩, hshort⟩ := h
  have hest : s.1.established[addr]? = none :=
    (hcap.disjoint addr).resolve_left fun hnone => by simp [hentry] at hnone
  have hchanges := hstep.changes hcap
  -- what it sends there is short, and it makes no connection with it
  have hstays : (∀ datagram, (addr, datagram) ∈ s'.2.sent →
      datagram.length ≤ Cookie.MSG1_WITH_COOKIE_LEN) ∧ l.touches ≠ some addr := by
    cases hstep with
    | @dial _ _ _ _ a seed hrun =>
        obtain ⟨hnew, -, -, rfl⟩ := dial_run_eq_ok hrun
        refine ⟨fun datagram hmem => ?_, by rintro ⟨⟩⟩
        rcases World.mem_sent_afterSend.mp hmem with hold | ⟨rfl, -⟩
        · exact hshort datagram hold
        · rw [hentry] at hnew
          cases hnew
    | @send _ _ _ _ a plaintext hrun =>
        obtain ⟨_, _, _, hconn, -, -, rfl⟩ := send_run_eq_ok hrun
        have ha : a ≠ addr := by
          rintro rfl
          rw [hest] at hconn
          cases hconn
        refine ⟨fun datagram hmem => ?_, fun h => ha (Option.some.inj h)⟩
        exact hshort datagram
          ((World.mem_sent_afterSend.mp hmem).resolve_right fun h => ha h.1.symm)
    | @sendRaw _ _ _ _ a bytes hrun =>
        obtain ⟨-, rfl⟩ := sendRaw_run_eq_ok hrun
        refine ⟨fun datagram hmem => ?_, by rintro ⟨⟩⟩
        rcases World.mem_sent_afterSend.mp hmem with hold | ⟨rfl, rfl⟩
        · exact hshort datagram hold
        · exact hraw _ rfl
    | @recvOne _ _ _ _ seed event hrun =>
        obtain ⟨a, datagram, reply, hnext, hin, rfl⟩ := recvOne_run_eq_ok hrun
        by_cases ha : a = addr
        · subst ha
          obtain ⟨hreply, htouches⟩ :=
            hin.of_waiting hest hlen hentry (hheard seed event datagram rfl hnext)
          refine ⟨fun d hmem => ?_, by rw [htouches]; rintro ⟨⟩⟩
          cases reply with
          | none => exact hshort d hmem
          | some r =>
              rcases World.mem_sent_afterSend.mp hmem with hold | ⟨-, rfl⟩
              · exact hshort d hold
              · exact hreply _ rfl
        · refine ⟨fun d hmem => ?_, fun h => ha ?_⟩
          · cases reply with
            | none => exact hshort d hmem
            | some r =>
                exact hshort d
                  ((World.mem_sent_afterSend.mp hmem).resolve_right fun h => ha h.1.symm)
          · cases hin <;> cases h <;> rfl
    | evict | evictIdle => exact ⟨hshort, by rintro ⟨⟩⟩
  refine ⟨hstep.withinCapacity hcap, ?_, hstays.1⟩
  have hest' : s'.1.established[addr]? = none := by
    by_contra hsome
    obtain ⟨c, hc⟩ := Option.ne_none_iff_exists'.mp hsome
    rcases hchanges.established_of hc with ⟨htouches, -⟩ | ⟨-, hold⟩
    · exact hstays.2 htouches
    · rw [hest] at hold
      cases hold
  obtain ⟨e, he⟩ := Option.ne_none_iff_exists'.mp (hknown.resolve_right fun h => h hest')
  rcases hchanges.handshake_of he with ⟨⟨hnew, -⟩, -⟩ | hold
  · rw [hentry] at hnew
    cases hnew
  · rw [hentry] at hold
    cases hold
    exact ⟨afterE, msg1, stamp, hlen, he⟩

/-- A dial leaves a host waiting. -/
lemma waiting_of_dial {host host' : Host C} {seed : Key} {w w' : World}
    (hcap : host.WithinCapacity) (hnothing : ∀ datagram, (addr, datagram) ∉ w.sent)
    (hdial : (host.dial addr seed).run w = (.ok host', w')) : Waiting addr (host', w') := by
  have hcap' := Host.Step.withinCapacity hcap (.dial hdial)
  obtain ⟨-, -, rfl, rfl⟩ := dial_run_eq_ok hdial
  refine ⟨hcap', ⟨_, _, _, Arr.length_bytes _, Lru.getElem?_insertWithLru_self⟩, fun d hmem => ?_⟩
  rcases World.mem_sent_afterSend.mp hmem with hold | ⟨-, rfl⟩
  · exact absurd hold (hnothing d)
  · rw [Arr.length_bytes]
    decide

/-! ### Both -/

/-- What a host hears from its peer is what the peer has sent it, or nothing that would advance the
handshake; and what it sends there bare, as a punch is, is short. -/
structure Between (addr own : UdpAddr) (s peer : Host C × World) (l : HostLabel) : Prop where
  heard : ∀ seed event datagram, l = .recvOne seed event →
    s.2.recvFrom 0 = .ok (addr, datagram) → (own, datagram) ∈ peer.2.sent ∨
      ¬ AuthenticFor s.1 addr (datagram.take s.1.socket.recvBufSize)
  raw : ∀ bytes, l = .sendRaw addr bytes → bytes.length ≤ Cookie.MSG1_WITH_COOKIE_LEN

/-- One operation of either host, after which it still has an entry for the other; the first is at
`addrA`, the second at `addrB`.  The network loses, repeats and reorders what they send, and mixes
junk in. -/
inductive Crossing (addrA addrB : UdpAddr) : (Host C × World) × (Host C × World) → DuplexLabel →
    (Host C × World) × (Host C × World) → Prop where
  | first {s s' t : Host C × World} {l : HostLabel} : Host.Step s l s' →
      Between addrB addrA s t l → Known addrB s' → Crossing addrA addrB (s, t) (.first l) (s', t)
  | second {s t t' : Host C × World} {l : HostLabel} : Host.Step t l t' →
      Between addrA addrB t s l → Known addrA t' → Crossing addrA addrB (s, t) (.second l) (s, t')

/-- What comes from a host that is waiting itself is no answer. -/
lemma Waiting.of_between {own : UdpAddr} {s s' peer : Host C × World} {l : HostLabel}
    (h : Waiting addr s) (hpeer : Waiting own peer) (hstep : Host.Step s l s')
    (hbetween : Between addr own s peer l) (hknown : Known addr s') : Waiting addr s' := by
  refine h.step hstep (fun seed event datagram hl hnext => ?_) hbetween.raw hknown
  rcases hbetween.heard seed event datagram hl hnext with hsent | hjunk
  · refine not_authenticFor_of_short ?_
    rw [List.length_take]
    exact (Nat.min_le_right _ _).trans (hpeer.short datagram hsent)
  · exact hjunk

/-- Two hosts dial each other before either has heard of the other.  However often they are handed
what they send each other, in whatever order, and whatever else they do and hear: as long as each of
them has an entry for the other at all, this is the handshake that it dialed, and neither is
connected with the other. -/
theorem simultaneous_dials_stall {addrA addrB : UdpAddr} {a a' b b' : Host C} {seedA seedB : Key}
    {w w' v v' : World} (hcapA : a.WithinCapacity) (hcapB : b.WithinCapacity)
    (hnothingA : ∀ datagram, (addrB, datagram) ∉ w.sent)
    (hnothingB : ∀ datagram, (addrA, datagram) ∉ v.sent)
    (hdialA : (a.dial addrB seedA).run w = (.ok a', w'))
    (hdialB : (b.dial addrA seedB).run v = (.ok b', v'))
    {labels : List DuplexLabel} {s t : Host C × World}
    (hrun : Run (Crossing addrA addrB) ((a', w'), (b', v')) labels (s, t)) :
    Dialed addrB s.1 ∧ s.1.established[addrB]? = none ∧
      Dialed addrA t.1 ∧ t.1.established[addrA]? = none := by
  have hboth : Waiting addrB s ∧ Waiting addrA t := by
    refine hrun.invariant (P := fun p => Waiting addrB p.1 ∧ Waiting addrA p.2) ?_
      ⟨waiting_of_dial hcapA hnothingA hdialA, waiting_of_dial hcapB hnothingB hdialB⟩
    rintro p l p' ⟨hA, hB⟩ hstep
    cases hstep with
    | first hstep hbetween hknown => exact ⟨hA.of_between hB hstep hbetween hknown, hB⟩
    | second hstep hbetween hknown => exact ⟨hA, hB.of_between hA hstep hbetween hknown⟩
  have hstalls : ∀ {addr : UdpAddr} {s : Host C × World}, Waiting addr s →
      Dialed addr s.1 ∧ s.1.established[addr]? = none := by
    rintro addr s ⟨hcap, ⟨afterE, msg1, stamp, -, hentry⟩, -⟩
    refine ⟨⟨afterE, msg1, stamp, hentry⟩, (hcap.disjoint addr).resolve_left fun hnone => ?_⟩
    rw [hentry] at hnone
    cases hnone
  exact ⟨(hstalls hboth.1).1, (hstalls hboth.1).2, (hstalls hboth.2).1, (hstalls hboth.2).2⟩

lemma sampleHost_withinCapacity (b : UInt8) : (sampleHost b).WithinCapacity where
  disjoint _ := Or.inl rfl
  handshakes_le := Nat.zero_le _
  established_le := Nat.zero_le _

/-- What a sample host sends first. -/
def sampleHello (seed : Key) : Bytes := (sampleCrypto.x25519Public seed).bytes

/-- The dialer and the answerer of the sample addresses dial each other, and are handed each other's
message 1. -/
theorem simultaneous_dials_stall_sample :
    ∃ (a' b' : Host sampleCrypto) (w' v' : World) (eventA eventB : HostEvent)
      (s t : Host sampleCrypto × World),
      ((sampleHost 1).dial sampleAnswererAddr (.replicate 32 3)).run
        (arrival sampleAnswererAddr (sampleHello (.replicate 32 4))) = (.ok a', w') ∧
      ((sampleHost 2).dial sampleDialerAddr (.replicate 32 4)).run
        (arrival sampleDialerAddr (sampleHello (.replicate 32 3))) = (.ok b', v') ∧
      Run (Crossing sampleDialerAddr sampleAnswererAddr) ((a', w'), (b', v'))
        [.first (.recvOne (.replicate 32 5) eventA), .second (.recvOne (.replicate 32 6) eventB)]
        (s, t) ∧
      s.1.established[sampleAnswererAddr]? = none ∧ t.1.established[sampleDialerAddr]? = none := by
  -- either host dials, receives and still has its entry
  have hdials : ∀ (b : UInt8) (addr : UdpAddr) (own heard seed : Key),
      ((((sampleHost b).dial addr own).outcome (arrival addr (sampleHello heard))).bind fun r =>
        (Host.recvOutcome r seed).map fun q => (q.2.1.handshakes.contains addr, q.2.2.sent))
          = some (true, [(addr, sampleHello own)]) →
      ∃ a' w' event s, ((sampleHost b).dial addr own).run (arrival addr (sampleHello heard))
          = (.ok a', w') ∧ Host.Step (a', w') (.recvOne seed event) s ∧ Known addr s ∧
          s.2.sent = [(addr, sampleHello own)] := by
    intro b addr own heard seed h
    obtain ⟨⟨a', w'⟩, hdial, h⟩ := Option.bind_eq_some_iff.mp h
    obtain ⟨⟨event, s⟩, hrecv, heq⟩ := Option.map_eq_some_iff.mp h
    obtain ⟨hcontains, hsent⟩ := Prod.mk.inj heq
    refine ⟨a', w', event, s, Io.run_of_outcome hdial, Host.step_of_recvOutcome hrecv, Or.inl ?_,
      hsent⟩
    rw [ExtTreeMap.contains_eq_isSome_getElem?] at hcontains
    exact Option.isSome_iff_ne_none.mp hcontains
  obtain ⟨a', w', eventA, s, hdialA, hstepA, hknownA, hsentA⟩ := hdials 1 sampleAnswererAddr
    (.replicate 32 3) (.replicate 32 4) (.replicate 32 5) (by decide)
  obtain ⟨b', v', eventB, t, hdialB, hstepB, hknownB, -⟩ := hdials 2 sampleDialerAddr
    (.replicate 32 4) (.replicate 32 3) (.replicate 32 6) (by decide)
  have hrun : Run (Crossing sampleDialerAddr sampleAnswererAddr) ((a', w'), (b', v'))
      [.first (.recvOne (.replicate 32 5) eventA), .second (.recvOne (.replicate 32 6) eventB)]
      (s, t) := by
    obtain ⟨-, -, -, rfl⟩ := dial_run_eq_ok hdialA
    obtain ⟨-, -, -, rfl⟩ := dial_run_eq_ok hdialB
    refine .snoc (.single (.first hstepA ⟨?_, by rintro _ ⟨⟩⟩ hknownA))
      (.second hstepB ⟨?_, by rintro _ ⟨⟩⟩ hknownB)
    · rintro _ _ datagram - hnext
      cases hnext
      exact Or.inl (hsentA ▸ List.mem_singleton_self _)
    · rintro _ _ datagram - hnext
      cases hnext
      exact Or.inl (List.mem_singleton_self _)
  obtain ⟨-, hA, -, hB⟩ := simultaneous_dials_stall (sampleHost_withinCapacity 1)
    (sampleHost_withinCapacity 2) (by rintro _ ⟨⟩) (by rintro _ ⟨⟩) hdialA hdialB hrun
  exact ⟨a', b', w', v', eventA, eventB, s, t, hdialA, hdialB, hrun, hA, hB⟩

end Libp2pCat
