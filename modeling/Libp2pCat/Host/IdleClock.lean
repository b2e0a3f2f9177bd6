import Libp2pCat.Host.EvictionClock

/-!
Idle accounting over whole runs.

* `Host.Counts`, `ticks`: operations that record whether they moved the clock, and how often it
  moved in a run.
* `Host.Changes.stamp_of`: an entry after an operation has the stamp it had, or the operation is
  for its address and the stamp is the time after it.
* `Host.OnTime`: the clock shows the number of moves, no stamp is ahead of it and no two entries
  share one.
* `Host.SweepsExactly`: what a sweep takes, leaves and returns.
* `idle_accounting_exact`: a handshake is stamped when it is put in flight and never again; a
  connection is stamped by its completion, its sends and its decrypted datagrams; and sweeps go
  by these stamps.
-/

namespace Libp2pCat

open ByteString Effect Std Trace

variable {C : Crypto}

/-! ### Counted runs -/

/-- An operation, and whether it moved the clock. -/
def Host.Counts (s : Host C × World) (x : HostLabel × Bool) (s' : Host C × World) : Prop :=
  Host.Step s x.1 s' ∧ x.2 = decide (s'.1.tick ≠ s.1.tick)

/-- How often the clock moved. -/
def ticks (l : List (HostLabel × Bool)) : ℕ := l.countP Prod.snd

/-- Every operation is counted. -/
lemma Host.Step.counts {s s' : Host C × World} {l : HostLabel} (h : Host.Step s l s') :
    Host.Counts s (l, decide (s'.1.tick ≠ s.1.tick)) s' :=
  ⟨h, rfl⟩

lemma run_of_counts {s s' : Host C × World} {l : List (HostLabel × Bool)}
    (h : Run Host.Counts s l s') : Run Host.Step s (l.map Prod.fst) s' := by
  induction h with
  | nil => exact .nil _
  | snoc _ hstep ih =>
      rw [List.map_append]
      exact ih.snoc hstep.1

lemma withinCapacity_of_counts {s s' : Host C × World} {l : List (HostLabel × Bool)}
    (h : Run Host.Counts s l s') (hcap : s.1.WithinCapacity) : s'.1.WithinCapacity :=
  run_withinCapacity (run_of_counts h) hcap

/-! ### Stamps -/

/-- The entry of an address has the stamp. -/
def Host.Stamped (host : Host C) (addr : UdpAddr) (stamp : UInt64) : Prop :=
  (∃ e, host.handshakes[addr]? = some e ∧ e.lastActivity = stamp) ∨
    ∃ c, host.established[addr]? = some c ∧ c.lastActivity = stamp

/-- A stamp was there, or is the time after an operation for its address. -/
lemma Host.Changes.stamp_of {s : Host C × World} {l : HostLabel} {host' : Host C}
    (h : Host.Changes s l host') {a : UdpAddr} {stamp : UInt64}
    (hstamp : host'.Stamped a stamp) :
    s.1.Stamped a stamp ∨
      (l.addr? = some a ∧ stamp = host'.tick ∧ host'.tick = s.1.tick + 1) := by
  rcases hstamp with ⟨e, he, rfl⟩ | ⟨c, hc, rfl⟩
  · rcases h.handshake_of he with ⟨hcreates, hnew, htick⟩ | hold
    · exact Or.inr ⟨hcreates.label.1, hnew, htick⟩
    · exact Or.inl (Or.inl ⟨e, hold, rfl⟩)
  · rcases h.established_of hc with ⟨-, hown, hnew, htick⟩ | ⟨-, hold⟩
    · exact Or.inr ⟨hown, hnew, htick⟩
    · exact Or.inl (Or.inr ⟨c, hold, rfl⟩)

/-- The clock shows how often it moved, no stamp is ahead of it and no two entries share one. -/
structure Host.OnTime (n : ℕ) (host : Host C) : Prop where
  tick : host.tick.toNat = n
  behind : ∀ {a stamp}, host.Stamped a stamp → stamp.toNat ≤ n
  distinct : ∀ {a b stamp}, host.Stamped a stamp → host.Stamped b stamp → a = b

/-- A fresh host is on time. -/
lemma Host.onTime_withCapacity {socket : UdpTransport} {kp : StaticKeypair C}
    {identity : Ed25519Keypair C} {secret : Key} {capacity : Capacity} {host : Host C}
    (h : Host.withCapacity socket kp identity secret capacity = .ok host) : host.OnTime 0 := by
  obtain ⟨hh, he, htick, -⟩ := Host.withCapacity_eq_ok h
  have hnone : ∀ {a stamp}, ¬host.Stamped a stamp := by
    intro a stamp
    simp [Host.Stamped, hh, he]
  exact ⟨by rw [htick]; rfl, fun hstamp => absurd hstamp hnone,
    fun hstamp => absurd hstamp hnone⟩

/-- The clock moves to a time that no entry is stamped with. -/
lemma Host.OnTime.step {n : ℕ} {s s' : Host C × World} {x : HostLabel × Bool}
    (h : s.1.OnTime n) (hcap : s.1.WithinCapacity) (hstep : Host.Counts s x s')
    (hfew : n + (if x.2 then 1 else 0) < 2 ^ 64) :
    s'.1.OnTime (n + if x.2 then 1 else 0) := by
  obtain ⟨hop, hcount⟩ := hstep
  have hchanges := hop.changes hcap
  have htick : s'.1.tick.toNat = n + if x.2 then 1 else 0 := by
    rw [hcount] at hfew ⊢
    exact Lru.toNat_of_moved hchanges.tick h.tick hfew
  -- a new stamp is the new time, which is ahead of every old one
  have hnew : ∀ {a stamp}, s.1.Stamped a stamp → s'.1.tick = s.1.tick + 1 →
      stamp ≠ s'.1.tick := by
    rintro a _ hold hmoved rfl
    have hle := h.behind hold
    have hlt := s.1.tick.toNat_lt
    have hnat := congrArg UInt64.toNat hmoved
    rw [UInt64.toNat_add, UInt64.toNat_one] at hnat
    rw [htick] at hle
    have := h.tick
    omega
  refine ⟨htick, fun {a stamp} hstamp => ?_, fun {a b stamp} ha hb => ?_⟩
  · rcases hchanges.stamp_of hstamp with hold | ⟨-, rfl, -⟩
    · exact (h.behind hold).trans (Nat.le_add_right _ _)
    · exact htick.le
  · rcases hchanges.stamp_of ha with holda | ⟨howna, hstamp, hmoved⟩
    · rcases hchanges.stamp_of hb with holdb | ⟨-, hstamp, hmoved⟩
      · exact h.distinct holda holdb
      · exact absurd hstamp (hnew holda hmoved)
    · rcases hchanges.stamp_of hb with holdb | ⟨hownb, -, -⟩
      · exact absurd hstamp (hnew holdb hmoved)
      · exact Option.some.inj (howna.symm.trans hownb)

lemma ticks_append (l : List (HostLabel × Bool)) (x : HostLabel × Bool) :
    ticks (l ++ [x]) = ticks l + if x.2 then 1 else 0 := by
  rw [ticks, List.countP_append, List.countP_singleton]
  rfl

/-- A run in which the clock does not wrap stays on time. -/
lemma run_onTime {s s' : Host C × World} {l : List (HostLabel × Bool)}
    (hrun : Run Host.Counts s l s') (hcap : s.1.WithinCapacity) (h : s.1.OnTime 0)
    (hfew : ticks l < 2 ^ 64) : s'.1.OnTime (ticks l) := by
  induction hrun with
  | nil => exact h
  | snoc hrun hstep ih =>
      rw [ticks_append] at hfew ⊢
      exact (ih (by omega)).step (withinCapacity_of_counts hrun hcap) hstep hfew

/-- The last operation that stamped a connection, with the run since then. -/
lemma exists_last_touch {s s' : Host C × World} {l : List (HostLabel × Bool)} {addr : UdpAddr}
    (hrun : Run Host.Counts s l s') (hcap : s.1.WithinCapacity)
    (hnone : s.1.established[addr]? = none) {c : EstablishedConnection}
    (hc : s'.1.established[addr]? = some c) :
    ∃ l₁ x l₂ t t', l = l₁ ++ x :: l₂ ∧ Run Host.Counts s l₁ t ∧ Host.Counts t x t' ∧
      x.1.touches = some addr ∧ c.lastActivity = t'.1.tick ∧
      (∀ y ∈ l₂, y.1.touches ≠ some addr) ∧
      Run (Run.within (Connected addr) Host.Counts) t' l₂ s' := by
  let stampOf (u : Host C × World) : Option UInt64 :=
    u.1.established[addr]?.map fun c => c.lastActivity
  have hconnected : ∀ u, stampOf u = some c.lastActivity → Connected addr u := fun u hu =>
    (Option.map_eq_some_iff.mp hu).imp fun _ h => h.1
  have hstep : ∀ l u x u', Run Host.Counts s l u → Host.Counts u x u' →
      stampOf u' = some c.lastActivity →
      (x.1.touches = some addr ∧ c.lastActivity = u'.1.tick) ∨
        (x.1.touches ≠ some addr ∧ stampOf u = some c.lastActivity) := by
    intro l u x u' hu hcounts hafter
    have hchanges := hcounts.1.changes (withinCapacity_of_counts hu hcap)
    obtain ⟨c', hc', hsame⟩ := Option.map_eq_some_iff.mp hafter
    rcases hchanges.established_of hc' with ⟨htouches, -, hstamp, -⟩ | ⟨hnot, hold⟩
    · exact Or.inl ⟨htouches, hsame.symm.trans hstamp⟩
    · exact Or.inr ⟨hnot, Option.map_eq_some_iff.mpr ⟨c', hold, hsame⟩⟩
  obtain ⟨l₁, x, l₂, t, t', hl, ht, hx, htouches, hstamp, hquiet, hsince⟩ :=
    hrun.exists_last_touch hstep (by simp [stampOf, hnone]) (by simp [stampOf, hc])
  exact ⟨l₁, x, l₂, t, t', hl, ht, hx, htouches, hstamp, hquiet,
    hsince.mono fun u y u' h => ⟨h.1, hconnected u h.2.1, hconnected u' h.2.2⟩⟩

/-- The operation that put a handshake in flight; the entry is as it was then. -/
lemma exists_creation {s s' : Host C × World} {l : List (HostLabel × Bool)} {addr : UdpAddr}
    (hrun : Run Host.Counts s l s') (hcap : s.1.WithinCapacity)
    (hnone : s.1.handshakes[addr]? = none) {e : InFlightHandshake C}
    (he : s'.1.handshakes[addr]? = some e) :
    ∃ l₁ x l₂ t t', l = l₁ ++ x :: l₂ ∧ Run Host.Counts s l₁ t ∧ Host.Counts t x t' ∧
      Creates addr t x.1 ∧ e.lastActivity = t'.1.tick ∧ t'.1.handshakes[addr]? = some e ∧
      Run (Run.within (fun u => u.1.handshakes[addr]? = some e) Host.Counts) t' l₂ s' := by
  obtain ⟨l₁, x, l₂, t, t', rfl, ht, hbefore, hx, hafter, hsince⟩ := hrun.exists_last_entry
    (P := fun u => u.1.handshakes[addr]? = some e) (by simp [hnone]) he
  have hchanges := hx.1.changes (withinCapacity_of_counts ht hcap)
  rcases hchanges.handshake_of hafter with ⟨hcreates, hstamp, -⟩ | hold
  · exact ⟨l₁, x, l₂, t, t', rfl, ht, hx, hcreates, hstamp, hafter, hsince⟩
  · exact absurd hold hbefore

/-! ### Sweeps -/

/-- A sweep takes exactly the entries that were idle for more than `m` ticks, returns each of
their addresses once, and changes nothing else. -/
structure Host.SweepsExactly (host : Host C) (m : UInt64) : Prop where
  handshakes : ∀ (a : UdpAddr) e, (host.evictIdle m).1.handshakes[a]? = some e ↔
    host.handshakes[a]? = some e ∧ ¬m.toNat < host.tick.toNat - e.lastActivity.toNat
  established : ∀ (a : UdpAddr) c, (host.evictIdle m).1.established[a]? = some c ↔
    host.established[a]? = some c ∧ ¬m.toNat < host.tick.toNat - c.lastActivity.toNat
  mem_evicted : ∀ a : UdpAddr, a ∈ (host.evictIdle m).2 ↔
    (∃ e, host.handshakes[a]? = some e ∧ m.toNat < host.tick.toNat - e.lastActivity.toNat) ∨
    ∃ c, host.established[a]? = some c ∧ m.toNat < host.tick.toNat - c.lastActivity.toNat
  nodup : (host.evictIdle m).2.Nodup
  tick : (host.evictIdle m).1.tick = host.tick
  identity : (host.evictIdle m).1.identity = host.identity

lemma swept_handshakes (host : Host C) (m : UInt64) :
    Lru.Swept (fun e => e.lastActivity.toNat) host.tick.toNat m.toNat host.handshakes
      (host.evictIdle m).1.handshakes
      (sweepIdleHandshakes host.handshakes (saturatingSub host.tick m)).2 := by
  have hswept := Lru.swept_sweep (fun e : InFlightHandshake C => e.lastActivity.toNat)
    host.handshakes host.tick.toNat m.toNat
  rwa [← toNat_saturatingSub] at hswept

lemma swept_established (host : Host C) (m : UInt64) :
    Lru.Swept (fun c => c.lastActivity.toNat) host.tick.toNat m.toNat host.established
      (host.evictIdle m).1.established
      (sweepIdleEstablished host.established (saturatingSub host.tick m)).2 := by
  have hswept := Lru.swept_sweep (fun c : EstablishedConnection => c.lastActivity.toNat)
    host.established host.tick.toNat m.toNat
  rwa [← toNat_saturatingSub] at hswept

lemma Host.WithinCapacity.sweepsExactly {host : Host C} (h : host.WithinCapacity) (m : UInt64) :
    host.SweepsExactly m where
  handshakes := (swept_handshakes host m).kept
  established := (swept_established host m).kept
  mem_evicted a := List.mem_append.trans
    (or_congr ((swept_handshakes host m).mem_evicted a) ((swept_established host m).mem_evicted a))
  nodup := by
    refine List.nodup_append.mpr
      ⟨(swept_handshakes host m).nodup, (swept_established host m).nodup, ?_⟩
    -- no address is in both tables
    rintro a hha b hea rfl
    obtain ⟨e, he, -⟩ := ((swept_handshakes host m).mem_evicted a).mp hha
    obtain ⟨c, hc, -⟩ := ((swept_established host m).mem_evicted a).mp hea
    rcases h.disjoint a with hnone | hnone
    · rw [hnone] at he
      cases he
    · rw [hnone] at hc
      cases hc
  tick := rfl
  identity := rfl

/-- Idle accounting is exact.  In every run of a fresh host whose clock moves less than `2 ^ 64`
times: the entry of a handshake is the one with which it was put in flight, stamped with the time
right after that; a connection is stamped with the time right after the latest operation that
completed it, sent over it or decrypted a datagram of it; no stamp is ahead of the clock; and every
sweep takes exactly what was idle for too long. -/
theorem idle_accounting_exact {socket : UdpTransport} {kp : StaticKeypair C}
    {identity : Ed25519Keypair C} {secret : Key} {capacity : Capacity} {host₀ : Host C}
    {w₀ : World} {l : List (HostLabel × Bool)} {s : Host C × World}
    (hnew : Host.withCapacity socket kp identity secret capacity = .ok host₀)
    (hrun : Run Host.Counts (host₀, w₀) l s) (hfew : ticks l < 2 ^ 64) :
    (∀ (addr : UdpAddr) e, s.1.handshakes[addr]? = some e →
      ∃ l₁ x l₂ t t', l = l₁ ++ x :: l₂ ∧ Run Host.Counts (host₀, w₀) l₁ t ∧
        Host.Counts t x t' ∧ Creates addr t x.1 ∧ e.lastActivity = t'.1.tick ∧
        t'.1.handshakes[addr]? = some e ∧
        Run (Run.within (fun u => u.1.handshakes[addr]? = some e) Host.Counts) t' l₂ s) ∧
    (∀ (addr : UdpAddr) c, s.1.established[addr]? = some c →
      ∃ l₁ x l₂ t t', l = l₁ ++ x :: l₂ ∧ Run Host.Counts (host₀, w₀) l₁ t ∧
        Host.Counts t x t' ∧ x.1.touches = some addr ∧ c.lastActivity = t'.1.tick ∧
        (∀ y ∈ l₂, y.1.touches ≠ some addr) ∧
        Run (Run.within (Connected addr) Host.Counts) t' l₂ s) ∧
    (∀ addr stamp, s.1.Stamped addr stamp → stamp.toNat ≤ s.1.tick.toNat) ∧
    ∀ m, s.1.SweepsExactly m := by
  have hcap₀ := Host.WithinCapacity.withCapacity hnew
  have hcap := withinCapacity_of_counts hrun hcap₀
  have htime := run_onTime hrun hcap₀ (Host.onTime_withCapacity hnew) hfew
  obtain ⟨hh, he, -⟩ := Host.withCapacity_eq_ok hnew
  refine ⟨fun addr e hentry => exists_creation hrun hcap₀ (by simp [hh]) hentry,
    fun addr c hconn => exists_last_touch hrun hcap₀ (by simp [he]) hconn, ?_,
    hcap.sweepsExactly⟩
  intro addr stamp hstamp
  rw [htime.tick]
  exact htime.behind hstamp

/-- The sample host answers the sample peer: the handshake is stamped with the time right after
that, and sweeps go by it. -/
theorem idle_accounting_exact_sample :
    ∃ (x : HostLabel × Bool) (s : Host sampleCrypto × World) (e : InFlightHandshake sampleCrypto),
      Run Host.Counts (sampleHost 2, sampleWorld) [x] s ∧
      s.1.handshakes[sampleAddr]? = some e ∧ e.lastActivity = s.1.tick ∧ s.1.tick = 1 ∧
      s.1.SweepsExactly 0 := by
  have hrecv : (Host.recvOutcome (sampleHost 2, sampleWorld) (.replicate 32 4)).map
      (fun r => (r.2.1.handshakes.contains sampleAddr, r.2.1.tick)) = some (true, 1) := by
    decide +kernel
  obtain ⟨⟨event, s⟩, hout, hchecks⟩ := Option.map_eq_some_iff.mp hrecv
  obtain ⟨hcontains, htick⟩ := Prod.mk.inj hchecks
  rw [ExtTreeMap.contains_eq_isSome_getElem?] at hcontains
  obtain ⟨e, he⟩ := Option.isSome_iff_exists.mp hcontains
  have hrun := Run.single (Host.step_of_recvOutcome hout).counts
  obtain ⟨hhandshakes, -, -, hsweeps⟩ := idle_accounting_exact (sampleHost_eq 2) hrun
    (Nat.lt_of_le_of_lt List.countP_le_length (by norm_num))
  obtain ⟨l₁, x, l₂, t, t', hl, -, -, -, hstamp, -, hsince⟩ := hhandshakes sampleAddr e he
  -- the only operation is the one that created the entry
  have hnil : l₂ = [] := by
    have hlen := congrArg List.length hl
    rw [List.length_singleton, List.length_append, List.length_cons] at hlen
    exact List.length_eq_zero_iff.mp (by omega)
  rw [hnil] at hsince
  rw [← hsince.eq_of_nil] at hstamp
  exact ⟨_, s, e, hrun, he, hstamp, htick, hsweeps 0⟩

end Libp2pCat
