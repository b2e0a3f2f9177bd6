import Libp2pCat.Host.Tables
import Libp2pCat.Host.Nonces

/-!
What an operation does to the tables and the clock of a host, said once.

* `HostLabel.touches`: the connection an operation stamps, by its completion, a send or a
  decrypted datagram.
* `Host.Changes`: one constructor per kind of change: a handshake is put in flight, a handshake
  becomes a connection, a connection is stamped, nothing but the clock moves, or entries are
  evicted.
* `Host.Step.changes`: every operation on a host within its caps is one of these.
* `Host.Changes.handshake_of`, `Host.Changes.established_of`: where the entries after a change
  come from, and what they are stamped with.
-/

namespace Libp2pCat

open ByteString Effect Std Trace

variable {C : Crypto}

/-- The address an event is about. -/
def HostEvent.addr : HostEvent → UdpAddr
  | .handshakeProgress addr => addr
  | .handshakeComplete addr _ _ => addr
  | .datagramDelivered addr _ => addr
  | .rejected addr _ => addr

/-- The address an operation is for; for a receive, the source of the datagram. -/
def HostLabel.addr? : HostLabel → Option UdpAddr
  | .dial addr _ | .send addr _ | .sendRaw addr _ | .evict addr => some addr
  | .recvOne _ event => some event.addr
  | .evictIdle _ => none

/-- The address whose connection an operation stamps. -/
def HostLabel.touches : HostLabel → Option UdpAddr
  | .send addr _ => some addr
  | .recvOne _ (.handshakeComplete addr _ _) => some addr
  | .recvOne _ (.datagramDelivered addr _) => some addr
  | _ => none

/-- The kinds of change an operation makes to the tables and the clock. -/
inductive Host.Changes (s : Host C × World) (l : HostLabel) (host' : Host C) : Prop where
  /-- Nothing but the clock moves. -/
  | kept (hquiet : l.touches = none) (hnew : ∀ addr, ¬Creates addr s l)
      (hhandshakes : host'.handshakes = s.1.handshakes)
      (hestablished : host'.established = s.1.established)
      (htick : host'.tick = s.1.tick ∨ host'.tick = s.1.tick + 1)
  /-- A handshake is put in flight. -/
  | created (addr : UdpAddr) (entry : InFlightHandshake C) (hcreates : Creates addr s l)
      (hown : l.addr? = some addr) (hquiet : l.touches = none)
      (hest : s.1.established[addr]? = none) (hstamp : entry.lastActivity = s.1.tick + 1)
      (hhandshakes : host'.handshakes = insertHandshakeWithLru s.1.handshakes addr entry
        s.1.capacity.maxHandshakesInFlight)
      (hestablished : host'.established = s.1.established) (htick : host'.tick = s.1.tick + 1)
  /-- A handshake becomes a connection. -/
  | completed (addr : UdpAddr) (entry : InFlightHandshake C) (conn : EstablishedConnection)
      (hcompletes : l.Completes addr) (hentry : s.1.handshakes[addr]? = some entry)
      (hest : s.1.established[addr]? = none) (hstamp : conn.lastActivity = s.1.tick + 1)
      (hhandshakes : host'.handshakes = s.1.handshakes.erase addr)
      (hestablished : host'.established = insertEstablishedWithLru s.1.established addr conn
        s.1.capacity.maxEstablished)
      (htick : host'.tick = s.1.tick + 1)
  /-- A connection is stamped by a send or a decrypted datagram. -/
  | stamped (addr : UdpAddr) (conn conn' : EstablishedConnection)
      (htouches : l.touches = some addr) (hown : l.addr? = some addr)
      (hconn : s.1.established[addr]? = some conn) (hstamp : conn'.lastActivity = s.1.tick + 1)
      (hhandshakes : host'.handshakes = s.1.handshakes)
      (hestablished : host'.established = s.1.established.insert addr conn')
      (htick : host'.tick = s.1.tick + 1)
  /-- Everything about an address is dropped. -/
  | evicted (addr : UdpAddr) (hl : l = .evict addr) (hhost : host' = s.1.evict addr)
  /-- Idle entries are dropped. -/
  | swept (maxIdleTicks : UInt64) (hl : l = .evictIdle maxIdleTicks)
      (hhost : host' = (s.1.evictIdle maxIdleTicks).1)

/-- Only a dial, and a receive that reports progress, puts a handshake in flight. -/
lemma not_creates_recvOne {s : Host C × World} {seed : Key} {event : HostEvent}
    (h : ∀ addr, event ≠ .handshakeProgress addr) (addr : UdpAddr) :
    ¬Creates addr s (.recvOne seed event) := by
  rintro ⟨-, ⟨_, hl⟩ | ⟨_, _, hl, -⟩⟩
  · cases hl
  · exact h addr (HostLabel.recvOne.inj hl).2

/-- What one received datagram does to the tables and the clock. -/
lemma Inbound.changes {s : Host C × World} {host' : Host C} {addr : UdpAddr} {datagram : Bytes}
    {seed : Key} {reply : Option Bytes} {event : HostEvent} (hcap : s.1.WithinCapacity)
    (hnext : s.2.recvFrom 0 = .ok (addr, datagram))
    (h : Inbound s.1 addr (datagram.take s.1.socket.recvBufSize) seed reply host' event) :
    Host.Changes s (.recvOne seed event) host' := by
  -- a datagram that puts nothing in flight: it is refused, or its source is known or unproven
  have hprogress : ∀ a, event = .handshakeProgress addr →
      (s.1.handshakes[addr]? = none → ¬Cookie.Valid C s.1.identity.cookieSecret addr
        (datagram.take s.1.socket.recvBufSize)) → ¬Creates a s (.recvOne seed event) := by
    rintro a rfl hunproven ⟨hnone, ⟨_, hl⟩ | ⟨_, datagram', hl, hnext', hcookie⟩⟩
    · cases hl
    · obtain ⟨-, hev⟩ := HostLabel.recvOne.inj hl
      obtain rfl := HostEvent.handshakeProgress.inj hev
      rw [hnext] at hnext'
      obtain ⟨-, rfl⟩ := Prod.mk.inj (Except.ok.inj hnext')
      exact hunproven hnone hcookie
  cases h with
  | delivered hconn hdec => exact .stamped addr _ _ rfl rfl hconn rfl rfl rfl rfl
  | undecryptable hconn hdec =>
      exact .kept rfl (not_creates_recvOne nofun) rfl rfl (Or.inl rfl)
  | challenged hest hentry hchal =>
      refine .kept rfl (fun a => hprogress a rfl ?_) (hcap.restore_eq hentry) rfl (Or.inl rfl)
      intro hnone
      rw [hentry] at hnone
      cases hnone
  | initiatorCompleted hest hentry hchal hadv =>
      exact .completed addr _ _ ⟨_, _, _, rfl⟩ hentry hest rfl rfl rfl rfl
  | initiatorKept hest hentry hchal hadv =>
      exact .kept rfl (not_creates_recvOne nofun) (hcap.restore_eq hentry) rfl (Or.inr rfl)
  | responderCompleted hest hentry hfin =>
      exact .completed addr _ _ ⟨_, _, _, rfl⟩ hentry hest rfl rfl rfl rfl
  | responderKept hest hentry hfin =>
      exact .kept rfl (not_creates_recvOne nofun) (hcap.restore_eq hentry) rfl (Or.inr rfl)
  | bareMsg1 hest hnew hlen =>
      refine .kept rfl (fun a => hprogress a rfl fun _ hcookie => ?_) rfl rfl (Or.inr rfl)
      rw [hcookie.1] at hlen
      cases hlen
  | validatedMsg1 hest hnew hcookie hresp =>
      exact .created addr _ ⟨hnew, Or.inr ⟨seed, datagram, rfl, hnext, hcookie⟩⟩ rfl rfl hest rfl
        rfl rfl rfl
  | unanswerable hest hnew hcookie hresp =>
      exact .kept rfl (not_creates_recvOne nofun) rfl rfl (Or.inr rfl)
  | refused hest hnew hlen hcookie =>
      exact .kept rfl (not_creates_recvOne nofun) rfl rfl (Or.inr rfl)

/-- What one operation does to the tables and the clock of a host within its caps. -/
theorem Host.Step.changes {s s' : Host C × World} {l : HostLabel} (h : s.1.WithinCapacity)
    (hstep : Host.Step s l s') : Host.Changes s l s'.1 := by
  cases hstep with
  | dial hrun =>
      obtain ⟨hnew, hest, rfl, -⟩ := dial_run_eq_ok hrun
      exact .created _ _ ⟨hnew, Or.inl ⟨_, rfl⟩⟩ rfl rfl hest rfl rfl rfl rfl
  | send hrun =>
      obtain ⟨conn, transport, datagram, hconn, -, rfl, -⟩ := send_run_eq_ok hrun
      exact .stamped _ _ _ rfl rfl hconn rfl rfl rfl rfl
  | sendRaw hrun =>
      obtain ⟨rfl, -⟩ := sendRaw_run_eq_ok hrun
      refine .kept rfl ?_ rfl rfl (Or.inr rfl)
      rintro addr ⟨-, ⟨_, hl⟩ | ⟨_, _, hl, -⟩⟩ <;> cases hl
  | recvOne hrun =>
      obtain ⟨addr, datagram, reply, hnext, hin, -⟩ := recvOne_run_eq_ok hrun
      exact hin.changes h hnext
  | evict => exact .evicted _ rfl rfl
  | evictIdle => exact .swept _ rfl rfl

/-- An operation that creates a handshake is for its address and stamps no connection. -/
lemma Creates.label {s : Host C × World} {l : HostLabel} {addr : UdpAddr}
    (h : Creates addr s l) : l.addr? = some addr ∧ l.touches = none := by
  obtain ⟨-, ⟨seed, rfl⟩ | ⟨seed, datagram, rfl, -⟩⟩ := h
  · exact ⟨rfl, rfl⟩
  · exact ⟨rfl, rfl⟩

/-- What an operation that creates a handshake does. -/
lemma Host.Step.of_creates {s s' : Host C × World} {l : HostLabel} {addr : UdpAddr}
    (h : s.1.WithinCapacity) (hstep : Host.Step s l s') (hcreates : Creates addr s l) :
    ∃ entry : InFlightHandshake C, entry.lastActivity = s.1.tick + 1 ∧
      s.1.established[addr]? = none ∧
      s'.1.handshakes = insertHandshakeWithLru s.1.handshakes addr entry
        s.1.capacity.maxHandshakesInFlight ∧
      s'.1.established = s.1.established ∧ s'.1.tick = s.1.tick + 1 := by
  obtain ⟨hown, hquiet⟩ := hcreates.label
  cases hstep.changes h with
  | kept _ hnew => exact absurd hcreates (hnew addr)
  | created a entry _ hown' _ hest hstamp hhandshakes hestablished htick =>
      obtain rfl : addr = a := Option.some.inj (hown.symm.trans hown')
      exact ⟨entry, hstamp, hest, hhandshakes, hestablished, htick⟩
  | completed a _ _ hcompletes =>
      obtain ⟨_, _, _, rfl⟩ := hcompletes
      cases hquiet
  | stamped a _ _ htouches =>
      rw [hquiet] at htouches
      cases htouches
  | evicted a hl =>
      rw [hl] at hcreates
      obtain ⟨-, ⟨_, hl⟩ | ⟨_, _, hl, -⟩⟩ := hcreates <;> cases hl
  | swept m hl =>
      rw [hl] at hown
      cases hown

/-! ### What a change leaves -/

namespace Host.Changes

variable {s : Host C × World} {l : HostLabel} {host' : Host C}

lemma tick (h : Host.Changes s l host') :
    host'.tick = s.1.tick ∨ host'.tick = s.1.tick + 1 := by
  cases h with
  | kept _ _ _ _ htick => exact htick
  | created _ _ _ _ _ _ _ _ _ htick => exact Or.inr htick
  | completed _ _ _ _ _ _ _ _ _ htick => exact Or.inr htick
  | stamped _ _ _ _ _ _ _ _ _ htick => exact Or.inr htick
  | evicted _ _ hhost => exact Or.inl (by rw [hhost]; rfl)
  | swept _ _ hhost => exact Or.inl (by rw [hhost]; rfl)

/-- Where a connection comes from: the operation stamped it, or it was there as it is. -/
lemma established_of (h : Host.Changes s l host') {a : UdpAddr} {c : EstablishedConnection}
    (hc : host'.established[a]? = some c) :
    (l.touches = some a ∧ l.addr? = some a ∧ c.lastActivity = host'.tick ∧
      host'.tick = s.1.tick + 1) ∨
    (l.touches ≠ some a ∧ s.1.established[a]? = some c) := by
  cases h with
  | kept hquiet _ _ hestablished =>
      rw [hestablished] at hc
      exact Or.inr ⟨by rw [hquiet]; exact (Option.some_ne_none a).symm, hc⟩
  | created _ _ _ _ hquiet _ _ _ hestablished =>
      rw [hestablished] at hc
      exact Or.inr ⟨by rw [hquiet]; exact (Option.some_ne_none a).symm, hc⟩
  | completed addr entry conn hcompletes _ _ hstamp _ hestablished htick =>
      obtain ⟨seed, rs, pid, rfl⟩ := hcompletes
      rw [hestablished] at hc
      by_cases ha : a = addr
      · subst ha
        rw [insertEstablishedWithLru, Lru.getElem?_insertWithLru_self] at hc
        rw [← Option.some.inj hc]
        exact Or.inl ⟨rfl, rfl, hstamp.trans htick.symm, htick⟩
      · exact Or.inr ⟨fun heq => ha (Option.some.inj heq).symm, Lru.getElem?_of_insertWithLru ha hc⟩
  | stamped addr conn conn' htouches hown hconn hstamp _ hestablished htick =>
      rw [hestablished] at hc
      by_cases ha : a = addr
      · subst ha
        rw [ExtTreeMap.getElem?_insert_self] at hc
        rw [← Option.some.inj hc]
        exact Or.inl ⟨htouches, hown, hstamp.trans htick.symm, htick⟩
      · rw [ExtTreeMap.getElem?_insert_of_ne (Ne.symm ha)] at hc
        exact Or.inr ⟨fun heq => ha (Option.some.inj (heq.symm.trans htouches)), hc⟩
  | evicted addr hl hhost =>
      rw [hhost] at hc
      rw [hl]
      exact Or.inr ⟨(Option.some_ne_none a).symm, ExtTreeMap.getElem?_of_erase hc⟩
  | swept m hl hhost =>
      rw [hhost] at hc
      rw [hl]
      exact Or.inr ⟨(Option.some_ne_none a).symm, Lru.getElem?_of_sweep hc⟩

/-- Where a handshake comes from: the operation created it, or it was there as it is. -/
lemma handshake_of (h : Host.Changes s l host') {a : UdpAddr} {e : InFlightHandshake C}
    (he : host'.handshakes[a]? = some e) :
    (Creates a s l ∧ e.lastActivity = host'.tick ∧ host'.tick = s.1.tick + 1) ∨
      s.1.handshakes[a]? = some e := by
  cases h with
  | kept _ _ hhandshakes =>
      rw [hhandshakes] at he
      exact Or.inr he
  | created addr entry hcreates _ _ _ hstamp hhandshakes _ htick =>
      rw [hhandshakes] at he
      by_cases ha : a = addr
      · subst ha
        rw [insertHandshakeWithLru, Lru.getElem?_insertWithLru_self] at he
        rw [← Option.some.inj he]
        exact Or.inl ⟨hcreates, hstamp.trans htick.symm, htick⟩
      · exact Or.inr (Lru.getElem?_of_insertWithLru ha he)
  | completed _ _ _ _ _ _ _ hhandshakes =>
      rw [hhandshakes] at he
      exact Or.inr (ExtTreeMap.getElem?_of_erase he)
  | stamped _ _ _ _ _ _ _ hhandshakes =>
      rw [hhandshakes] at he
      exact Or.inr he
  | evicted _ _ hhost =>
      rw [hhost] at he
      exact Or.inr (ExtTreeMap.getElem?_of_erase he)
  | swept _ _ hhost =>
      rw [hhost] at he
      exact Or.inr (Lru.getElem?_of_sweep he)

end Host.Changes

end Libp2pCat
