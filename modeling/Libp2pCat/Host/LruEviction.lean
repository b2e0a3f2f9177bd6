import Libp2pCat.Host.IdleClock

/-!
What an operation leaves of the entries of the other addresses.

* `Host.IsFor`: the address a dial, a send or a receive is for.
* `Host.UniqueStamps`: no two entries of the two tables share a stamp.
* `Host.LetsOldestGo`: the other entries stay as they are, or a full table lets its oldest entry go
  for a new one.
* `lru_evicts_only_oldest`: every such operation on a reachable host is of this kind, whatever
  path through the handlers it takes, and the entry it adds is there afterwards.
-/

namespace Libp2pCat

open ByteString Effect Std Trace

variable {C : Crypto}

/-- The address an operation is for: the one it is given, or the source of the datagram it
receives.  Evictions and sweeps are for none. -/
def Host.IsFor (s : Host C × World) (own : UdpAddr) : HostLabel → Prop
  | .dial addr _ | .send addr _ | .sendRaw addr _ => addr = own
  | .recvOne _ _ => ∃ datagram, s.2.recvFrom 0 = .ok (own, datagram)
  | .evict _ | .evictIdle _ => False

/-- No two entries of the two tables share a stamp. -/
structure Host.UniqueStamps (host : Host C) : Prop where
  handshakes : ∀ (a b : UdpAddr) e e', host.handshakes[a]? = some e →
    host.handshakes[b]? = some e' → a ≠ b → e.lastActivity ≠ e'.lastActivity
  established : ∀ (a b : UdpAddr) c c', host.established[a]? = some c →
    host.established[b]? = some c' → a ≠ b → c.lastActivity ≠ c'.lastActivity
  across : ∀ (a b : UdpAddr) e c, host.handshakes[a]? = some e →
    host.established[b]? = some c → e.lastActivity ≠ c.lastActivity

/-- The entries of the other addresses stay as they are, or one of the tables is full and lets its
oldest entry go for a new one. -/
inductive Host.LetsOldestGo (host : Host C) (own : UdpAddr) (host' : Host C) : Prop where
  | none (hhandshakes : ∀ i : UdpAddr, i ≠ own → host'.handshakes[i]? = host.handshakes[i]?)
      (hestablished : ∀ i : UdpAddr, i ≠ own → host'.established[i]? = host.established[i]?)
  | handshake (hdrops : Lru.DropsOldest (fun e : InFlightHandshake C => e.lastActivity.toNat)
        host.capacity.maxHandshakesInFlight own host.handshakes host'.handshakes)
      (hestablished : ∀ i : UdpAddr, i ≠ own → host'.established[i]? = host.established[i]?)
  | connection (hhandshakes : ∀ i : UdpAddr, i ≠ own → host'.handshakes[i]? = host.handshakes[i]?)
      (hdrops : Lru.DropsOldest (fun c : EstablishedConnection => c.lastActivity.toNat)
        host.capacity.maxEstablished own host.established host'.established)

/-- On a host that is on time and within its caps, stamps are unique. -/
lemma Host.OnTime.uniqueStamps {n : ℕ} {host : Host C} (h : host.OnTime n)
    (hcap : host.WithinCapacity) : host.UniqueStamps where
  handshakes a b e e' ha hb hne heq :=
    hne (h.distinct (Or.inl ⟨e, ha, rfl⟩) (Or.inl ⟨e', hb, heq.symm⟩))
  established a b c c' ha hb hne heq :=
    hne (h.distinct (Or.inr ⟨c, ha, rfl⟩) (Or.inr ⟨c', hb, heq.symm⟩))
  across a b e c ha hb heq := by
    obtain rfl := h.distinct (Or.inl ⟨e, ha, rfl⟩) (Or.inr ⟨c, hb, heq.symm⟩)
    rcases hcap.disjoint a with hnone | hnone
    · rw [hnone] at ha
      cases ha
    · rw [hnone] at hb
      cases hb

/-- The event of a received datagram is about its source. -/
lemma Inbound.addr_event {host host' : Host C} {addr : UdpAddr} {datagram : Bytes} {seed : Key}
    {reply : Option Bytes} {event : HostEvent}
    (h : Inbound host addr datagram seed reply host' event) : event.addr = addr := by
  cases h <;> rfl

/-- The address of an operation, read off its label. -/
lemma Host.IsFor.addr? {s s' : Host C × World} {own : UdpAddr} {l : HostLabel}
    (h : Host.IsFor s own l) (hstep : Host.Step s l s') : l.addr? = some own := by
  cases hstep with
  | dial | send | sendRaw => exact congrArg some h
  | recvOne hrun =>
      obtain ⟨addr, datagram, reply, hnext, hin, -⟩ := recvOne_run_eq_ok hrun
      obtain ⟨datagram', hnext'⟩ := h
      rw [hnext] at hnext'
      obtain ⟨rfl, -⟩ := Prod.mk.inj (Except.ok.inj hnext')
      exact congrArg some hin.addr_event
  | evict | evictIdle => exact h.elim

/-- The operation that completes a handshake is for its address. -/
lemma HostLabel.Completes.addr? {l : HostLabel} {addr : UdpAddr} (h : l.Completes addr) :
    l.addr? = some addr := by
  obtain ⟨_, _, _, rfl⟩ := h
  rfl

/-- What one operation leaves of the entries of the other addresses. -/
lemma Host.Changes.letsOldestGo {s : Host C × World} {l : HostLabel} {host' : Host C}
    (h : Host.Changes s l host') {own : UdpAddr} (hfor : Host.IsFor s own l)
    (hown : l.addr? = some own) : s.1.LetsOldestGo own host' := by
  cases h with
  | kept _ _ hhandshakes hestablished =>
      exact .none (fun i _ => by rw [hhandshakes]) (fun i _ => by rw [hestablished])
  | created addr entry hcreates hown' _ _ _ hhandshakes hestablished =>
      obtain rfl : own = addr := Option.some.inj (hown.symm.trans hown')
      have hothers : ∀ i : UdpAddr, i ≠ own → host'.established[i]? = s.1.established[i]? :=
        fun i _ => by rw [hestablished]
      rcases Lru.insertWithLru_frame entry s.1.capacity.maxHandshakesInFlight hcreates.1 with
        hframe | hdrops
      · exact .none (fun i hi => by rw [hhandshakes]; exact hframe i hi) hothers
      · exact .handshake (hhandshakes ▸ hdrops) hothers
  | completed addr entry conn hcompletes _ hest _ hhandshakes hestablished =>
      obtain rfl : own = addr := Option.some.inj (hown.symm.trans hcompletes.addr?)
      have hothers : ∀ i : UdpAddr, i ≠ own → host'.handshakes[i]? = s.1.handshakes[i]? :=
        fun i hi => by rw [hhandshakes, ExtTreeMap.getElem?_erase_of_ne (Ne.symm hi)]
      rcases Lru.insertWithLru_frame conn s.1.capacity.maxEstablished hest with hframe | hdrops
      · exact .none hothers fun i hi => by rw [hestablished]; exact hframe i hi
      · exact .connection hothers (hestablished ▸ hdrops)
  | stamped addr conn conn' _ hown' _ _ hhandshakes hestablished =>
      obtain rfl : own = addr := Option.some.inj (hown.symm.trans hown')
      refine .none (fun i _ => by rw [hhandshakes]) fun i hi => ?_
      rw [hestablished, ExtTreeMap.getElem?_insert_of_ne (Ne.symm hi)]
  | evicted addr hl =>
      rw [hl] at hfor
      exact hfor.elim
  | swept m hl =>
      rw [hl] at hfor
      exact hfor.elim

/-- A handshake that was put in flight is there, stamped with the time. -/
lemma Host.Step.added_handshake {s s' : Host C × World} {l : HostLabel} {addr : UdpAddr}
    (hstep : Host.Step s l s') (hcap : s.1.WithinCapacity) (hcreates : Creates addr s l) :
    ∃ e, s'.1.handshakes[addr]? = some e ∧ e.lastActivity = s'.1.tick := by
  obtain ⟨entry, hstamp, -, hhandshakes, -, htick⟩ := hstep.of_creates hcap hcreates
  exact ⟨entry, by rw [hhandshakes]; exact Lru.getElem?_insertWithLru_self,
    hstamp.trans htick.symm⟩

/-- A connection that was completed is there, stamped with the time. -/
lemma Host.Step.added_connection {s s' : Host C × World} {l : HostLabel} {addr : UdpAddr}
    (hstep : Host.Step s l s') (hcap : s.1.WithinCapacity) (hcompletes : l.Completes addr) :
    ∃ c, s'.1.established[addr]? = some c ∧ c.lastActivity = s'.1.tick := by
  obtain ⟨seed, rs, pid, rfl⟩ := hcompletes
  cases hstep.changes hcap with
  | kept hquiet => cases hquiet
  | created _ _ _ _ hquiet => cases hquiet
  | completed a _ conn hcompletes _ _ hstamp _ hestablished htick =>
      obtain rfl : addr = a := Option.some.inj hcompletes.addr?
      exact ⟨conn, by rw [hestablished]; exact Lru.getElem?_insertWithLru_self,
        hstamp.trans htick.symm⟩
  | stamped a conn conn' _ hown _ hstamp _ hestablished htick =>
      obtain rfl : addr = a := Option.some.inj hown
      exact ⟨conn', by rw [hestablished, ExtTreeMap.getElem?_insert_self],
        hstamp.trans htick.symm⟩
  | evicted _ hl => cases hl
  | swept _ hl => cases hl

/-- Only the oldest entry of a full table is let go.  In every state of a fresh host whose clock
moved less than `2 ^ 64` times no two entries of the two tables share a stamp; every dial, send and
receive from there leaves the entries of the other addresses as they are, or lets the one with the
least stamp of one full table go for a new entry of its own address; and a handshake that is put in
flight and a connection that is completed are there afterwards. -/
theorem lru_evicts_only_oldest {socket : UdpTransport} {kp : StaticKeypair C}
    {identity : Ed25519Keypair C} {secret : Key} {capacity : Capacity} {host₀ : Host C}
    {w₀ : World} {l : List (HostLabel × Bool)} {s : Host C × World}
    (hnew : Host.withCapacity socket kp identity secret capacity = .ok host₀)
    (hrun : Run Host.Counts (host₀, w₀) l s) (hfew : ticks l < 2 ^ 64) :
    s.1.UniqueStamps ∧
    ∀ x s' own, Host.Step s x s' → Host.IsFor s own x →
      s.1.LetsOldestGo own s'.1 ∧
      (Creates own s x →
        ∃ e, s'.1.handshakes[own]? = some e ∧ e.lastActivity = s'.1.tick) ∧
      (x.Completes own →
        ∃ c, s'.1.established[own]? = some c ∧ c.lastActivity = s'.1.tick) := by
  have hcap₀ := Host.WithinCapacity.withCapacity hnew
  have hcap := withinCapacity_of_counts hrun hcap₀
  have htime := run_onTime hrun hcap₀ (Host.onTime_withCapacity hnew) hfew
  refine ⟨htime.uniqueStamps hcap, fun x s' own hstep hfor => ⟨?_, ?_, ?_⟩⟩
  · exact (hstep.changes hcap).letsOldestGo hfor (hfor.addr? hstep)
  · exact hstep.added_handshake hcap
  · exact hstep.added_connection hcap

/-- The sample host with room for one handshake and one connection. -/
def crampedHost : Host sampleCrypto :=
  { sampleHost 2 with capacity := ⟨1, 1, Nat.one_pos, Nat.one_pos⟩ }

/-- A second dial of the cramped host lets the first one go, and its own handshake is there. -/
theorem lru_evicts_only_oldest_sample :
    ∃ (x : HostLabel × Bool) (s s' : Host sampleCrypto × World),
      Run Host.Counts (crampedHost, sampleWorld) [x] s ∧
      Host.Step s (.dial strangerAddr (.replicate 32 4)) s' ∧
      s.1.UniqueStamps ∧ s.1.LetsOldestGo strangerAddr s'.1 ∧
      s.1.handshakes.contains sampleAddr = true ∧ s'.1.handshakes.contains sampleAddr = false ∧
      ∃ e, s'.1.handshakes[strangerAddr]? = some e ∧ e.lastActivity = s'.1.tick := by
  have hnew : Host.withCapacity ⟨DEFAULT_MAX_DATAGRAM, MAX_UDP_PAYLOAD⟩
      (.fromPrivateBytes sampleCrypto (.replicate 32 2))
      (.fromSeed sampleCrypto (.replicate 32 2)) (.replicate 32 2)
      ⟨1, 1, Nat.one_pos, Nat.one_pos⟩ = .ok crampedHost := rfl
  obtain ⟨host, w, hfirst⟩ :
      ∃ host w, (crampedHost.dial sampleAddr (.replicate 32 3)).run sampleWorld = (.ok host, w) :=
    ⟨_, _, rfl⟩
  obtain ⟨host', w', hsecond⟩ :
      ∃ host' w', (host.dial strangerAddr (.replicate 32 4)).run w = (.ok host', w') := by
    obtain ⟨-, -, rfl, rfl⟩ := dial_run_eq_ok hfirst
    exact ⟨_, _, rfl⟩
  have hrun := Run.single (Host.Step.dial hfirst).counts
  have hstep := Host.Step.dial hsecond
  obtain ⟨hunique, hleaves⟩ := lru_evicts_only_oldest hnew hrun
    (Nat.lt_of_le_of_lt List.countP_le_length (by norm_num))
  obtain ⟨hgo, hadded, -⟩ := hleaves _ _ strangerAddr hstep rfl
  obtain ⟨hfresh, -, hhost', -⟩ := dial_run_eq_ok hsecond
  obtain ⟨-, -, hhost, -⟩ := dial_run_eq_ok hfirst
  have hbefore : host.handshakes.contains sampleAddr = true := by
    rw [hhost]
    decide +kernel
  have hafter : host'.handshakes.contains sampleAddr = false := by
    rw [hhost', hhost]
    decide +kernel
  exact ⟨_, _, _, hrun, hstep, hunique, hgo, hbefore, hafter,
    hadded ⟨hfresh, Or.inl ⟨_, rfl⟩⟩⟩

end Libp2pCat
