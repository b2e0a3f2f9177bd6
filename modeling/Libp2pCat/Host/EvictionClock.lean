import Libp2pCat.Host.Changes

/-!
What unauthenticated datagrams do to the eviction clock.

* `Flood`: one datagram that a host refuses, challenges, or answers with a cookie echo, none of
  which proves anything about its source.
* `Uncounted`: the datagram comes from a connection or is a challenge of a dialed peer; these are
  the branches that leave the clock alone.  `Flood.step`: such a datagram changes nothing, any
  other one moves the clock by one tick.
* `flood_keeps_sweeps`: a flood of them leaves every sweep as it was, and in a run that fits the
  clock no other flood does, unless there is nothing to sweep.
* `refused_junk_sweeps_connection`: one refused datagram of an unknown address gets a connection
  swept.
-/

namespace Libp2pCat

open ByteString Effect Std Trace

variable {C : Crypto}

/-- The address was dialed, and the datagram is a cookie challenge for it. -/
def Host.Challenges (host : Host C) (addr : UdpAddr) (datagram : Bytes) : Prop :=
  host.established[addr]? = none ∧ Cookie.isChallenge datagram = true ∧
    ∃ afterE msg1 stamp,
      host.handshakes[addr]? = some ⟨.initiatorAwaitingResponse afterE msg1, stamp⟩

/-- The datagram is refused, is a bare message 1 of an unknown address (and answered with a
challenge), or is a challenge (and answered with a cookie echo). -/
def Host.Unproven (host : Host C) (addr : UdpAddr) (datagram : Bytes) (event : HostEvent) : Prop :=
  (∃ a reason, event = .rejected a reason) ∨
    (host.established[addr]? = none ∧ host.handshakes[addr]? = none ∧
      datagram.length = MESSAGE_1_LEN) ∨
    host.Challenges addr datagram

/-- One such datagram is received. -/
def Flood (s : Host C × World) (d : UdpAddr × Bytes) (s' : Host C × World) : Prop :=
  ∃ seed datagram event, s.2.recvFrom 0 = .ok (d.1, datagram) ∧
    d.2 = datagram.take s.1.socket.recvBufSize ∧
    (s.1.recvOne seed).run s.2 = (.ok (s'.1, event), s'.2) ∧ s.1.Unproven d.1 d.2 event

/-- The datagram comes from a connection, or is a challenge of a dialed peer. -/
def Host.Uncounted (host : Host C) (d : UdpAddr × Bytes) : Prop :=
  host.isEstablished d.1 = true ∨ host.Challenges d.1 d.2

/-- The host has no handshake and no connection. -/
def Host.Bare (host : Host C) : Prop := host.handshakes = ∅ ∧ host.established = ∅

/-- An unauthenticated datagram leaves the tables alone, and counts exactly when it comes
neither from a connection nor as a challenge. -/
lemma Inbound.of_unproven {host host' : Host C} {addr : UdpAddr} {datagram : Bytes} {seed : Key}
    {reply : Option Bytes} {event : HostEvent} (h : host.WithinCapacity)
    (hin : Inbound host addr datagram seed reply host' event)
    (hun : host.Unproven addr datagram event) :
    host'.handshakes = host.handshakes ∧ host'.established = host.established ∧
      (host.Uncounted (addr, datagram) ∧ host'.tick = host.tick ∨
        ¬ host.Uncounted (addr, datagram) ∧ host'.tick = host.tick + 1) := by
  -- without a connection, only a challenge is not counted
  have hcounts : host.established[addr]? = none → ¬ host.Challenges addr datagram →
      ¬ host.Uncounted (addr, datagram) := by
    rintro ha hno (hest | hchal)
    · rw [Host.isEstablished, ExtTreeMap.contains_eq_isSome_getElem?, ha] at hest
      cases hest
    · exact hno hchal
  have hnew : host.handshakes[addr]? = none → ¬ host.Challenges addr datagram := by
    rintro ha ⟨-, -, _, _, _, hentry⟩
    rw [ha] at hentry
    cases hentry
  cases hin with
  | delivered hconn hdec =>
      rcases hun with ⟨a, r, hev⟩ | ⟨hest, -⟩ | ⟨hest, -⟩
      · cases hev
      · rw [hconn] at hest
        cases hest
      · rw [hconn] at hest
        cases hest
  | undecryptable hconn hdec =>
      refine ⟨rfl, rfl, Or.inl ⟨Or.inl ?_, rfl⟩⟩
      rw [Host.isEstablished, ExtTreeMap.contains_eq_isSome_getElem?, hconn]
      rfl
  | challenged hest hentry hchal =>
      exact ⟨h.restore_eq hentry, rfl, Or.inl ⟨Or.inr ⟨hest, hchal, _, _, _, hentry⟩, rfl⟩⟩
  | initiatorCompleted hest hentry hchal hadv =>
      rcases hun with ⟨a, r, hev⟩ | ⟨-, hnone, -⟩ | ⟨-, hchal', -⟩
      · cases hev
      · rw [hentry] at hnone
        cases hnone
      · rw [hchal] at hchal'
        cases hchal'
  | initiatorKept hest hentry hchal hadv =>
      refine ⟨h.restore_eq hentry, rfl, Or.inr ⟨hcounts hest ?_, rfl⟩⟩
      rintro ⟨-, hchal', -⟩
      rw [hchal] at hchal'
      cases hchal'
  | responderCompleted hest hentry hfin =>
      rcases hun with ⟨a, r, hev⟩ | ⟨-, hnone, -⟩ | ⟨-, -, _, _, _, hentry'⟩
      · cases hev
      · rw [hentry] at hnone
        cases hnone
      · rw [hentry] at hentry'
        cases hentry'
  | responderKept hest hentry hfin =>
      refine ⟨h.restore_eq hentry, rfl, Or.inr ⟨hcounts hest ?_, rfl⟩⟩
      rintro ⟨-, -, _, _, _, hentry'⟩
      rw [hentry] at hentry'
      cases hentry'
  | bareMsg1 hest hnone hlen => exact ⟨rfl, rfl, Or.inr ⟨hcounts hest (hnew hnone), rfl⟩⟩
  | validatedMsg1 hest hnone hcookie hresp =>
      rcases hun with ⟨a, r, hev⟩ | ⟨-, -, hlen⟩ | hchal
      · cases hev
      · rw [hcookie.1] at hlen
        cases hlen
      · exact absurd hchal (hnew hnone)
  | unanswerable hest hnone hcookie hresp =>
      exact ⟨rfl, rfl, Or.inr ⟨hcounts hest (hnew hnone), rfl⟩⟩
  | refused hest hnone hlen hcookie =>
      exact ⟨rfl, rfl, Or.inr ⟨hcounts hest (hnew hnone), rfl⟩⟩

section

variable {s s' : Host C × World}

/-- Whether a datagram counts is decided by the tables. -/
lemma Host.uncounted_congr {host host' : Host C} (hh : host'.handshakes = host.handshakes)
    (he : host'.established = host.established) (d : UdpAddr × Bytes) :
    host'.Uncounted d ↔ host.Uncounted d := by
  rw [Uncounted, Uncounted, Challenges, Challenges, isEstablished, isEstablished, hh, he]

/-- One datagram of a flood. -/
lemma Flood.step {d : UdpAddr × Bytes} (h : s.1.WithinCapacity) (hflood : Flood s d s') :
    s'.1.WithinCapacity ∧ s'.1.handshakes = s.1.handshakes ∧
      s'.1.established = s.1.established ∧
      (s.1.Uncounted d ∧ s'.1.tick = s.1.tick ∨
        ¬ s.1.Uncounted d ∧ s'.1.tick = s.1.tick + 1) := by
  obtain ⟨seed, datagram, event, hnext, hd, hrecv, hun⟩ := hflood
  obtain ⟨addr, datagram', reply, hnext', hin, -⟩ := recvOne_run_eq_ok hrecv
  rw [hnext] at hnext'
  cases hnext'
  rw [← hd] at hin
  exact ⟨hin.withinCapacity h, hin.of_unproven h hun⟩

/-- A flood leaves the tables alone and moves the clock by the datagrams that count. -/
lemma flood_tables {ds : List (UdpAddr × Bytes)} (h : s.1.WithinCapacity)
    (hflood : Run Flood s ds s') :
    s'.1.WithinCapacity ∧ s'.1.handshakes = s.1.handshakes ∧
      s'.1.established = s.1.established ∧
      ∃ n ≤ ds.length, s'.1.tick = s.1.tick + UInt64.ofNat n ∧
        (n = 0 ↔ ∀ d ∈ ds, s.1.Uncounted d) := by
  induction hflood with
  | nil => exact ⟨h, rfl, rfl, 0, Nat.le_refl _, by simp, by simp⟩
  | @snoc t t' ds d hrun hstep ih =>
      obtain ⟨ht, hh, he, n, hn, htick, hzero⟩ := ih
      obtain ⟨ht', hh', he', hclock⟩ := hstep.step ht
      have hsame := Host.uncounted_congr hh he d
      refine ⟨ht', hh'.trans hh, he'.trans he, ?_⟩
      simp only [List.mem_append, List.mem_singleton, List.length_append, List.length_singleton]
      rcases hclock with ⟨hd, hkeep⟩ | ⟨hd, hmove⟩
      · refine ⟨n, by omega, hkeep.trans htick, hzero.trans ⟨fun hall e he => ?_, fun hall e he =>
          hall e (Or.inl he)⟩⟩
        rcases he with he | rfl
        · exact hall e he
        · exact hsame.mp hd
      · refine ⟨n + 1, by omega, ?_, ⟨by omega, fun hall => ?_⟩⟩
        · rw [hmove, htick, UInt64.ofNat_add, UInt64.add_assoc]
          rfl
        · exact absurd (hsame.mpr (hall d (Or.inr rfl))) hd

end

/-! ### Sweeps -/

lemma toNat_saturatingSub (a b : UInt64) : (saturatingSub a b).toNat = a.toNat - b.toNat := by
  rw [saturatingSub]
  split
  · rename_i hle
    exact UInt64.toNat_sub_of_le _ _ hle
  · rename_i hle
    have hlt : a.toNat < b.toNat := by
      rw [UInt64.le_iff_toNat_le] at hle
      omega
    rw [UInt64.toNat_zero]
    omega

/-- What a sweep takes. -/
lemma mem_evictIdle_iff {host : Host C} {m : UInt64} {a : UdpAddr} :
    a ∈ (host.evictIdle m).2 ↔
      (∃ e, host.handshakes[a]? = some e ∧ e.lastActivity.toNat < host.tick.toNat - m.toNat) ∨
      ∃ c, host.established[a]? = some c ∧ c.lastActivity.toNat < host.tick.toNat - m.toNat := by
  have hh : a ∈ (sweepIdleHandshakes host.handshakes (saturatingSub host.tick m)).2 ↔ _ :=
    Lru.mem_sweep_iff
  have he : a ∈ (sweepIdleEstablished host.established (saturatingSub host.tick m)).2 ↔ _ :=
    Lru.mem_sweep_iff
  rw [toNat_saturatingSub] at hh he
  exact List.mem_append.trans (or_congr hh he)

lemma evictIdle_congr {host host' : Host C} (hh : host'.handshakes = host.handshakes)
    (he : host'.established = host.established) (ht : host'.tick = host.tick) (m : UInt64) :
    (host'.evictIdle m).2 = (host.evictIdle m).2 := by
  rw [Host.evictIdle, Host.evictIdle, hh, he, ht]

/-- There is nothing to sweep in a bare host. -/
lemma Host.Bare.evictIdle_eq {host : Host C} (h : host.Bare) (m : UInt64) :
    (host.evictIdle m).2 = [] := by
  refine List.eq_nil_iff_forall_not_mem.mpr fun a ha => ?_
  rcases mem_evictIdle_iff.mp ha with ⟨e, he, -⟩ | ⟨c, hc, -⟩
  · rw [h.1] at he
    simp at he
  · rw [h.2] at hc
    simp at hc

/-! ### The clock of a run -/

/-- The clock has moved at most `n` times, and no stamp is ahead of it. -/
structure Host.Clocked (n : ℕ) (host : Host C) : Prop where
  tick_le : host.tick.toNat ≤ n
  handshakes : ∀ (a : UdpAddr) e, host.handshakes[a]? = some e →
    e.lastActivity.toNat ≤ host.tick.toNat
  established : ∀ (a : UdpAddr) c, host.established[a]? = some c →
    c.lastActivity.toNat ≤ host.tick.toNat

/-- The clock moves by at most one tick, and every stamp is an old one or the new time. -/
structure Host.Ages (host host' : Host C) : Prop where
  tick : host'.tick = host.tick ∨ host'.tick = host.tick + 1
  handshakes : ∀ (a : UdpAddr) e, host'.handshakes[a]? = some e →
    host.handshakes[a]? = some e ∨ e.lastActivity = host'.tick
  established : ∀ (a : UdpAddr) c, host'.established[a]? = some c →
    host.established[a]? = some c ∨ c.lastActivity = host'.tick

lemma Host.Clocked.ages {n : ℕ} {host host' : Host C} (h : host.Clocked n)
    (hages : host.Ages host') (hn : n + 1 < 2 ^ 64) : host'.Clocked (n + 1) := by
  have hle := h.tick_le
  have htick : host.tick.toNat ≤ host'.tick.toNat ∧ host'.tick.toNat ≤ n + 1 := by
    rcases hages.tick with heq | heq
    · rw [heq]
      omega
    · have hadd : host'.tick.toNat = host.tick.toNat + 1 := by
        rw [heq, UInt64.toNat_add, UInt64.toNat_one]
        omega
      omega
  refine ⟨htick.2, fun a e he => ?_, fun a c hc => ?_⟩
  · rcases hages.handshakes a e he with hold | hnew
    · exact Nat.le_trans (h.handshakes a e hold) htick.1
    · rw [hnew]
  · rcases hages.established a c hc with hold | hnew
    · exact Nat.le_trans (h.established a c hold) htick.1
    · rw [hnew]

/-- Every operation ages the host. -/
lemma Host.Step.ages {s s' : Host C × World} {l : HostLabel} (h : s.1.WithinCapacity)
    (hstep : Host.Step s l s') : s.1.Ages s'.1 := by
  have hchanges := hstep.changes h
  refine ⟨hchanges.tick, fun a e he => ?_, fun a c hc => ?_⟩
  · exact (hchanges.handshake_of he).symm.imp_right fun hnew => hnew.2.1
  · exact (hchanges.established_of hc).symm.imp (fun hold => hold.2) fun hnew => hnew.2.2.1

/-- In a run that fits the clock no stamp is ahead of it. -/
lemma run_clocked {s s' : Host C × World} {l : List HostLabel} (hrun : Run Host.Step s l s')
    (hcap : s.1.WithinCapacity) (h : s.1.Clocked 0) (hl : l.length < 2 ^ 64) :
    s'.1.Clocked l.length := by
  induction hrun with
  | nil => exact h
  | snoc hrun hstep ih =>
      rw [List.length_append, List.length_singleton] at hl ⊢
      exact (ih (by omega)).ages (hstep.ages (run_withinCapacity hrun hcap)) hl

/-! ### Floods and sweeps -/

lemma exists_entry_of_ne_empty {V : Type} {map : BTreeMap UdpAddr V} (h : map ≠ ∅) :
    ∃ (a : UdpAddr) (v : V), map[a]? = some v := by
  by_contra hno
  refine h (ExtTreeMap.ext_getElem? fun a => ?_)
  rw [ExtTreeMap.getElem?_empty]
  cases hv : map[a]? with
  | none => rfl
  | some v => exact absurd ⟨a, v, hv⟩ hno

/-- The entry of an address that a moved clock gets swept. -/
lemma sweeps_differ {host host' : Host C} {n s : ℕ} {a : UdpAddr} (hpos : 0 < n)
    (hle : s ≤ host.tick.toNat) (hfit : host.tick.toNat + n < 2 ^ 64)
    (htick : host'.tick.toNat = host.tick.toNat + n)
    (hafter : ∀ m : UInt64, s < host'.tick.toNat - m.toNat → a ∈ (host'.evictIdle m).2)
    (hbefore : ∀ m : UInt64, a ∈ (host.evictIdle m).2 → s < host.tick.toNat - m.toNat) :
    ∃ m, (host'.evictIdle m).2 ≠ (host.evictIdle m).2 := by
  have hm : (UInt64.ofNat (host.tick.toNat + n - s - 1)).toNat = host.tick.toNat + n - s - 1 :=
    UInt64.toNat_ofNat_of_lt' (by simp only [UInt64.size]; omega)
  refine ⟨UInt64.ofNat (host.tick.toNat + n - s - 1), fun heq => ?_⟩
  have hin := hafter (UInt64.ofNat (host.tick.toNat + n - s - 1)) (by rw [hm, htick]; omega)
  rw [heq] at hin
  have hlt := hbefore _ hin
  rw [hm] at hlt
  omega

/-- A flood leaves every sweep of a host as it was if each of its datagrams comes from a
connection or is a challenge of a dialed peer, or if there is nothing to sweep; and in a run
that fits the clock, only then. -/
theorem flood_keeps_sweeps {socket : UdpTransport} {kp : StaticKeypair C}
    {identity : Ed25519Keypair C} {secret : Key} {capacity : Capacity} {host₀ : Host C}
    {w₀ : World} {l : List HostLabel} {s s' : Host C × World} {ds : List (UdpAddr × Bytes)}
    (hnew : Host.withCapacity socket kp identity secret capacity = .ok host₀)
    (hrun : Run Host.Step (host₀, w₀) l s) (hflood : Run Flood s ds s') :
    ((∀ d ∈ ds, s.1.Uncounted d) ∨ s.1.Bare →
      ∀ m, (s'.1.evictIdle m).2 = (s.1.evictIdle m).2) ∧
    (l.length + ds.length < 2 ^ 64 → (∀ m, (s'.1.evictIdle m).2 = (s.1.evictIdle m).2) →
      (∀ d ∈ ds, s.1.Uncounted d) ∨ s.1.Bare) := by
  have hcap₀ := Host.WithinCapacity.withCapacity hnew
  have hcap := run_withinCapacity hrun hcap₀
  obtain ⟨-, hh, he, n, hn, htick, hzero⟩ := flood_tables hcap hflood
  refine ⟨?_, fun hfit hsame => ?_⟩
  · rintro (hall | hbare) m
    · obtain rfl := hzero.mpr hall
      exact evictIdle_congr hh he (htick.trans (UInt64.add_zero _)) m
    · have hbare' : s'.1.Bare := ⟨hh.trans hbare.1, he.trans hbare.2⟩
      rw [hbare.evictIdle_eq, hbare'.evictIdle_eq]
  · by_contra hno
    rw [not_or, ← hzero] at hno
    have hclock₀ : host₀.Clocked 0 := by
      obtain ⟨hh, he, htick, -⟩ := Host.withCapacity_eq_ok hnew
      exact ⟨by simp [htick], by simp [hh], by simp [he]⟩
    have hclock := run_clocked hrun hcap₀ hclock₀ (by omega)
    have hle := hclock.tick_le
    have htick' : s'.1.tick.toNat = s.1.tick.toNat + n := by
      rw [htick, UInt64.toNat_add, UInt64.toNat_ofNat_of_lt' (by simp only [UInt64.size]; omega)]
      omega
    have hpos : 0 < n := Nat.pos_of_ne_zero hno.1
    -- some address has an entry, and in one of the tables only
    obtain ⟨m, hne⟩ : ∃ m, (s'.1.evictIdle m).2 ≠ (s.1.evictIdle m).2 := by
      by_cases hempty : s.1.handshakes = ∅
      · obtain ⟨a, c, hc⟩ := exists_entry_of_ne_empty fun hest => hno.2 ⟨hempty, hest⟩
        refine sweeps_differ (a := a) hpos (hclock.established a c hc) (by omega) htick'
          (fun m hlt => mem_evictIdle_iff.mpr (Or.inr ⟨c, he ▸ hc, hlt⟩)) fun m hm => ?_
        rcases mem_evictIdle_iff.mp hm with ⟨e', he', -⟩ | ⟨c', hc', hlt⟩
        · rw [hempty] at he'
          simp at he'
        · rw [hc] at hc'
          cases hc'
          exact hlt
      · obtain ⟨a, e, hentry⟩ := exists_entry_of_ne_empty hempty
        refine sweeps_differ (a := a) hpos (hclock.handshakes a e hentry) (by omega) htick'
          (fun m hlt => mem_evictIdle_iff.mpr (Or.inl ⟨e, hh ▸ hentry, hlt⟩)) fun m hm => ?_
        rcases mem_evictIdle_iff.mp hm with ⟨e', he', hlt⟩ | ⟨c', hc', -⟩
        · rw [hentry] at he'
          cases he'
          exact hlt
        · rcases hcap.disjoint a with hnone | hnone
          · rw [hentry] at hnone
            cases hnone
          · rw [hc'] at hnone
            cases hnone
    exact hne (hsame m)

/-- A world in which the sample peer completes a handshake, and then junk arrives. -/
def floodWorld (source : UdpAddr) : World where
  recvFrom k :=
    if k = 0 then .ok (sampleAddr, sampleMsg1WithCookie)
    else if k = 1 then .ok (sampleAddr, sampleMsg3)
    else .ok (source, [1, 2, 3])
  sendTo _ := .ok ()
  sent := []
  received := []

/-- The sample host in this world: after the handshake, and after one piece of junk. -/
def afterJunk (source : UdpAddr) :
    Option ((HostEvent × Host sampleCrypto × World) × (HostEvent × Host sampleCrypto × World) ×
      (HostEvent × Host sampleCrypto × World)) :=
  (Host.recvOutcome (sampleHost 2, floodWorld source) (.replicate 32 4)).bind fun r₁ =>
    (Host.recvOutcome r₁.2 (.replicate 32 5)).bind fun r₂ =>
      (Host.recvOutcome r₂.2 (.replicate 32 6)).map fun r₃ => (r₁, r₂, r₃)

lemma run_afterJunk {source : UdpAddr} {r₁ r₂ r₃ : HostEvent × Host sampleCrypto × World}
    (h : afterJunk source = some (r₁, r₂, r₃)) :
    Run Host.Step (sampleHost 2, floodWorld source)
        [.recvOne (.replicate 32 4) r₁.1, .recvOne (.replicate 32 5) r₂.1] r₂.2 ∧
      (r₂.2.1.recvOne (.replicate 32 6)).run r₂.2.2 = (.ok (r₃.2.1, r₃.1), r₃.2.2) := by
  obtain ⟨r₁', h₁, h⟩ := Option.bind_eq_some_iff.mp h
  obtain ⟨r₂', h₂, h⟩ := Option.bind_eq_some_iff.mp h
  obtain ⟨r₃', h₃, heq⟩ := Option.map_eq_some_iff.mp h
  cases heq
  refine ⟨(Run.single (Host.step_of_recvOutcome h₁)).snoc (Host.step_of_recvOutcome h₂), ?_⟩
  rw [Host.recvOutcome] at h₃
  split at h₃
  · rename_i hrun
    cases h₃
    exact hrun
  · cases h₃

lemma flood_afterJunk {source a : UdpAddr} {r₁ r₂ r₃ : HostEvent × Host sampleCrypto × World}
    {reason : String} (h : afterJunk source = some (r₁, r₂, r₃))
    (hnext : r₂.2.2.recvFrom 0 = .ok (source, [1, 2, 3]))
    (hbuf : 3 ≤ r₂.2.1.socket.recvBufSize) (hrej : r₃.1 = .rejected a reason) :
    Run Flood r₂.2 [(source, [1, 2, 3])] r₃.2 :=
  Run.single ⟨_, _, _, hnext, (List.take_of_length_le hbuf).symm, (run_afterJunk h).2,
    Or.inl ⟨a, reason, hrej⟩⟩

/-- Junk of the connected peer is refused and leaves the sweeps as they were. -/
theorem flood_keeps_sweeps_sample :
    ∃ (l : List HostLabel) (s s' : Host sampleCrypto × World),
      Run Host.Step (sampleHost 2, floodWorld sampleAddr) l s ∧
      Run Flood s [(sampleAddr, [1, 2, 3])] s' ∧ s.1.isEstablished sampleAddr = true ∧
      ∀ m, (s'.1.evictIdle m).2 = (s.1.evictIdle m).2 := by
  have hjunk : (afterJunk sampleAddr).map (fun r => (r.2.1.2.1.isEstablished sampleAddr,
      r.2.1.2.2.recvFrom 0, r.2.1.2.1.socket, r.2.2.1))
        = some (true, .ok (sampleAddr, [1, 2, 3]), ⟨DEFAULT_MAX_DATAGRAM, MAX_UDP_PAYLOAD⟩,
          .rejected sampleAddr ("transport decrypt failed: noise protocol violation: transport " ++
            "datagram too short: 3 bytes, need at least 24; datagram dropped, connection kept")) := by
    decide +kernel
  obtain ⟨⟨r₁, r₂, r₃⟩, hout, hchecks⟩ := Option.map_eq_some_iff.mp hjunk
  simp only [Prod.mk.injEq] at hchecks
  obtain ⟨hest, hnext, hsocket, hrej⟩ := hchecks
  have hflood := flood_afterJunk hout hnext (by rw [hsocket]; decide) hrej
  obtain ⟨hkeeps, -⟩ := flood_keeps_sweeps (sampleHost_eq 2) (run_afterJunk hout).1 hflood
  refine ⟨_, _, _, (run_afterJunk hout).1, hflood, hest, hkeeps (Or.inl fun d hd => ?_)⟩
  obtain rfl := List.mem_singleton.mp hd
  exact Or.inl hest

/-- The address of a stranger. -/
def strangerAddr : UdpAddr := .v4 ⟨.replicate 4 7, 9⟩

/-- One refused datagram of a stranger gets the connection of the sample peer swept, which
would have stayed without it. -/
theorem refused_junk_sweeps_connection :
    ∃ (l : List HostLabel) (s s' : Host sampleCrypto × World),
      Run Host.Step (sampleHost 2, floodWorld strangerAddr) l s ∧
      Run Flood s [(strangerAddr, [1, 2, 3])] s' ∧ (s.1.evictIdle 0).2 = [] ∧
      (s'.1.evictIdle 0).2 = [sampleAddr] ∧
      ¬ ∀ m, (s'.1.evictIdle m).2 = (s.1.evictIdle m).2 := by
  have hjunk : (afterJunk strangerAddr).map (fun r => (r.2.1.2.2.recvFrom 0, r.2.1.2.1.socket,
      r.2.2.1))
        = some (.ok (strangerAddr, [1, 2, 3]), ⟨DEFAULT_MAX_DATAGRAM, MAX_UDP_PAYLOAD⟩,
          .rejected strangerAddr ("datagram from new peer is neither a 32-byte bare msg1 nor a " ++
            "48-byte msg1-with-cookie: 3 bytes")) := by
    decide +kernel
  have hsweeps : (afterJunk strangerAddr).map (fun r => ((r.2.1.2.1.evictIdle 0).2,
      (r.2.2.2.1.evictIdle 0).2)) = some ([], [sampleAddr]) := by decide +kernel
  obtain ⟨⟨r₁, r₂, r₃⟩, hout, hchecks⟩ := Option.map_eq_some_iff.mp hjunk
  simp only [Prod.mk.injEq] at hchecks
  obtain ⟨hnext, hsocket, hrej⟩ := hchecks
  rw [hout] at hsweeps
  obtain ⟨hbefore, hafter⟩ := Prod.mk.inj (Option.some.inj hsweeps)
  have hflood := flood_afterJunk hout hnext (by rw [hsocket]; decide) hrej
  refine ⟨_, _, _, (run_afterJunk hout).1, hflood, hbefore, hafter, fun hsame => ?_⟩
  have hzero := hsame 0
  rw [hbefore, hafter] at hzero
  cases hzero

end Libp2pCat
