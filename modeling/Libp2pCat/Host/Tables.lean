import Libp2pCat.Host.VerifiedPeers

/-!
The two tables of a host over whole runs.

* `Host.WithinCapacity`: no address is in both tables, and neither table exceeds its cap.
* `Host.Step.withinCapacity`: every operation keeps this; `tables_within_capacity`: so it holds
  in every run of a fresh host, and no receive ends with one of the errors of an entry that
  vanished.
* `Inbound.tables_of_rejected`, `rejected_changes_no_connection`: a refused datagram leaves both
  tables as they were.
-/

namespace Libp2pCat

open ByteString Effect Std Trace

variable {C : Crypto}

/-- The tables are disjoint and within their caps. -/
structure Host.WithinCapacity (host : Host C) : Prop where
  disjoint : ∀ addr : UdpAddr, host.handshakes[addr]? = none ∨ host.established[addr]? = none
  handshakes_le : host.handshakes.size ≤ host.capacity.maxHandshakesInFlight
  established_le : host.established.size ≤ host.capacity.maxEstablished

namespace Host.WithinCapacity

variable {host : Host C}

/-- A host without connections is within its caps. -/
lemma withCapacity {socket : UdpTransport} {kp : StaticKeypair C} {identity : Ed25519Keypair C}
    {secret : Key} {capacity : Capacity}
    (h : Host.withCapacity socket kp identity secret capacity = .ok host) :
    host.WithinCapacity := by
  obtain ⟨hh, he, -⟩ := Host.withCapacity_eq_ok h
  exact ⟨fun addr => Or.inl (by simp [hh]), by simp [hh], by simp [he]⟩

/-- An entry that was taken out goes back in as it was. -/
lemma restore_eq (h : host.WithinCapacity) {addr : UdpAddr} {entry : InFlightHandshake C}
    (hentry : host.handshakes[addr]? = some entry) : host.restore addr entry = host.handshakes :=
  Lru.insertWithLru_erase hentry h.handshakes_le

/-- A handshake stored for an address that has no connection. -/
lemma insertHandshake (h : host.WithinCapacity) {addr : UdpAddr} (entry : InFlightHandshake C)
    (tick : UInt64) (hest : host.established[addr]? = none) :
    WithinCapacity { host with
      handshakes := insertHandshakeWithLru host.handshakes addr entry
        host.capacity.maxHandshakesInFlight
      tick := tick } := by
  refine ⟨fun a => ?_, Lru.size_insertWithLru_le host.capacity.handshakes_pos h.handshakes_le,
    h.established_le⟩
  by_cases ha : a = addr
  · subst ha
    exact Or.inr hest
  · refine (h.disjoint a).imp_left fun hnone => ?_
    cases hsome : (insertHandshakeWithLru host.handshakes addr entry
        host.capacity.maxHandshakesInFlight)[a]? with
    | none => rfl
    | some e =>
        rw [Lru.getElem?_of_insertWithLru ha hsome] at hnone
        cases hnone

/-- A handshake that completes leaves one table for the other. -/
lemma completed (h : host.WithinCapacity) (addr : UdpAddr) (transport : TransportState)
    (remoteStatic : StaticPublicKey) (remotePeerId : PeerId) :
    (host.completed addr transport remoteStatic remotePeerId).WithinCapacity := by
  refine ⟨fun a => ?_, Nat.le_trans ExtTreeMap.size_erase_le h.handshakes_le,
    Lru.size_insertWithLru_le host.capacity.established_pos h.established_le⟩
  by_cases ha : a = addr
  · subst ha
    exact Or.inl ExtTreeMap.getElem?_erase_self
  · rcases h.disjoint a with hnone | hnone
    · left
      rw [Host.completed, ExtTreeMap.getElem?_erase, hnone]
      split <;> rfl
    · right
      cases hsome : (host.completed addr transport remoteStatic remotePeerId).established[a]? with
      | none => rfl
      | some c =>
          rw [Lru.getElem?_of_insertWithLru ha hsome] at hnone
          cases hnone

/-- A connection replaced by another. -/
lemma insertEstablished (h : host.WithinCapacity) {addr : UdpAddr} {conn : EstablishedConnection}
    (hconn : host.established[addr]? = some conn) (conn' : EstablishedConnection)
    (tick : UInt64) :
    WithinCapacity { host with
      established := host.established.insert addr conn', tick := tick } := by
  have hmem : host.established.contains addr = true := by
    rw [ExtTreeMap.contains_eq_isSome_getElem?, hconn]
    rfl
  refine ⟨fun a => ?_, h.handshakes_le, ?_⟩
  · rcases h.disjoint a with hnone | hnone
    · exact Or.inl hnone
    · right
      rw [ExtTreeMap.getElem?_insert]
      split
      · rename_i heq
        rw [← LawfulEqOrd.eq_of_compare heq, hconn] at hnone
        cases hnone
      · exact hnone
  · rw [ExtTreeMap.size_insert, if_pos hmem]
    exact h.established_le

/-- Entries dropped from either table. -/
lemma mono (h : host.WithinCapacity) {host' : Host C} (hcap : host'.capacity = host.capacity)
    (hh : ∀ a : UdpAddr, host.handshakes[a]? = none → host'.handshakes[a]? = none)
    (he : ∀ a : UdpAddr, host.established[a]? = none → host'.established[a]? = none)
    (hhs : host'.handshakes.size ≤ host.handshakes.size)
    (hes : host'.established.size ≤ host.established.size) : host'.WithinCapacity := by
  refine ⟨fun a => (h.disjoint a).imp (hh a) (he a), ?_, ?_⟩
  · rw [hcap]
    exact Nat.le_trans hhs h.handshakes_le
  · rw [hcap]
    exact Nat.le_trans hes h.established_le

end Host.WithinCapacity

/-! ### Operations -/

/-- Every outcome of a datagram keeps the tables within their caps. -/
lemma Inbound.withinCapacity {host host' : Host C} {addr : UdpAddr} {datagram : Bytes}
    {seed : Key} {reply : Option Bytes} {event : HostEvent} (h : host.WithinCapacity)
    (hin : Inbound host addr datagram seed reply host' event) : host'.WithinCapacity := by
  cases hin with
  | delivered hconn _ => exact h.insertEstablished hconn _ _
  | undecryptable => exact h
  | challenged _ hentry _ =>
      rw [h.restore_eq hentry]
      exact h
  | initiatorCompleted => exact h.completed _ _ _ _
  | initiatorKept _ hentry _ _ =>
      rw [h.restore_eq hentry]
      exact ⟨h.disjoint, h.handshakes_le, h.established_le⟩
  | responderCompleted => exact h.completed _ _ _ _
  | responderKept _ hentry _ =>
      rw [h.restore_eq hentry]
      exact ⟨h.disjoint, h.handshakes_le, h.established_le⟩
  | validatedMsg1 hest => exact h.insertHandshake _ _ hest
  | _ => exact ⟨h.disjoint, h.handshakes_le, h.established_le⟩

lemma getElem?_sweep_eq_none {V : Type} {activity : V → ℕ} {map : BTreeMap UdpAddr V}
    {cutoff : ℕ} {a : UdpAddr} (h : map[a]? = none) :
    (Lru.sweep activity map cutoff).1[a]? = none := by
  cases hsome : (Lru.sweep activity map cutoff).1[a]? with
  | none => rfl
  | some v =>
      rw [Lru.getElem?_of_sweep hsome] at h
      cases h

/-- Every operation keeps the tables within their caps. -/
lemma Host.Step.withinCapacity {s s' : Host C × World} {l : HostLabel}
    (h : s.1.WithinCapacity) (hstep : Host.Step s l s') : s'.1.WithinCapacity := by
  cases hstep with
  | dial hrun =>
      obtain ⟨-, hest, rfl, -⟩ := dial_run_eq_ok hrun
      exact h.insertHandshake _ _ hest
  | send hrun =>
      obtain ⟨conn, transport, datagram, hconn, -, rfl, -⟩ := send_run_eq_ok hrun
      exact h.insertEstablished hconn _ _
  | sendRaw hrun =>
      obtain ⟨rfl, -⟩ := sendRaw_run_eq_ok hrun
      exact ⟨h.disjoint, h.handshakes_le, h.established_le⟩
  | recvOne hrun =>
      obtain ⟨_, _, _, -, hin, -⟩ := recvOne_run_eq_ok hrun
      exact hin.withinCapacity h
  | evict host w addr =>
      refine h.mono rfl (fun a hnone => ?_) (fun a hnone => ?_) ExtTreeMap.size_erase_le
        ExtTreeMap.size_erase_le
      · rw [Host.evict, ExtTreeMap.getElem?_erase, hnone]
        split <;> rfl
      · rw [Host.evict, ExtTreeMap.getElem?_erase, hnone]
        split <;> rfl
  | evictIdle host w m =>
      exact h.mono rfl (fun a => getElem?_sweep_eq_none) (fun a => getElem?_sweep_eq_none)
        (Lru.size_sweep_le _) (Lru.size_sweep_le _)

/-- The tables stay within their caps in every run. -/
lemma run_withinCapacity {s s' : Host C × World} {l : List HostLabel}
    (hrun : Run Host.Step s l s') (h : s.1.WithinCapacity) : s'.1.WithinCapacity :=
  hrun.invariant (fun _ _ _ hs hstep => hstep.withinCapacity hs) h

/-- A receive fails only with an error of the socket. -/
lemma recvOne_run_eq_error {host : Host C} {seed : Key} {w w' : World} {e : Error}
    (h : (host.recvOne seed).run w = (.error e, w')) :
    (∃ reason, e = .io reason) ∨ ∃ attempted maximum, e = .datagramTooLarge attempted maximum := by
  cases hnext : w.recvFrom 0 with
  | error reason =>
      have hrecv : host.socket.recv.run w
          = (.error (.io reason), { w with recvFrom := fun k => w.recvFrom (k + 1) }) := by
        rw [Io.run, UdpTransport.recv, hnext]
      rw [Host.recvOne, Io.run_flatMap_of_error hrecv] at h
      cases h
      exact Or.inl ⟨reason, rfl⟩
  | ok r =>
      obtain ⟨addr, datagram⟩ := r
      obtain ⟨reply, host', event, -, heq⟩ :=
        dispatchInbound_spec host addr (datagram.take host.socket.recvBufSize) seed
      rw [recvOne_run_of_recvFrom host seed hnext, heq] at h
      cases reply with
      | none => cases h
      | some payload =>
          have hsend := Io.map_run_eq_error.mp h
          rw [Io.run, UdpTransport.send] at hsend
          by_cases hlen : host.socket.maxSendPayload < payload.length
          · simp only [if_pos hlen] at hsend
            cases hsend
            exact Or.inr ⟨_, _, rfl⟩
          · simp only [if_neg hlen] at hsend
            split at hsend
            · cases hsend
            · cases hsend
              exact Or.inl ⟨_, rfl⟩

/-- In every run of a fresh host, with any caps, the tables are disjoint and within their caps,
and no receive finds an entry gone that it had just seen. -/
theorem tables_within_capacity {socket : UdpTransport} {kp : StaticKeypair C}
    {identity : Ed25519Keypair C} {secret : Key} {capacity : Capacity} {host₀ : Host C}
    {w₀ : World} {l : List HostLabel} {s : Host C × World}
    (hnew : Host.withCapacity socket kp identity secret capacity = .ok host₀)
    (hrun : Run Host.Step (host₀, w₀) l s) :
    (∀ addr : UdpAddr, s.1.handshakes[addr]? = none ∨ s.1.established[addr]? = none) ∧
      s.1.handshakes.size ≤ capacity.maxHandshakesInFlight ∧
      s.1.established.size ≤ capacity.maxEstablished ∧
      ∀ seed w e w', (s.1.recvOne seed).run w = (.error e, w') →
        e ≠ .hostState "established entry vanished mid-dispatch" ∧
          e ≠ .hostState "in-flight entry vanished mid-dispatch" := by
  have h := run_withinCapacity hrun (Host.WithinCapacity.withCapacity hnew)
  have hcap : s.1.capacity = capacity := by
    have hsame := hrun.invariant (P := fun t => t.1.capacity = host₀.capacity)
      (fun _ _ _ ht hstep => hstep.constants.2.1.trans ht) rfl
    exact hsame.trans (Host.withCapacity_eq_ok hnew).2.2.2.1
  refine ⟨h.disjoint, hcap ▸ h.handshakes_le, hcap ▸ h.established_le, ?_⟩
  intro seed w e w' herr
  rcases recvOne_run_eq_error herr with ⟨reason, rfl⟩ | ⟨attempted, maximum, rfl⟩
  · exact ⟨nofun, nofun⟩
  · exact ⟨nofun, nofun⟩

/-- The sample host answers the sample peer: one handshake of at most 256 is in flight, and the
address has no connection. -/
theorem tables_within_capacity_sample :
    ∃ s : Host sampleCrypto × World, Run Host.Step (sampleHost 2, sampleWorld)
        [.recvOne (.replicate 32 4) (.handshakeProgress sampleAddr)] s ∧
      s.1.handshakes.size = 1 ∧ s.1.handshakes.size ≤ 256 ∧ s.1.established.size ≤ 1024 ∧
      s.1.established[sampleAddr]? = none := by
  have hrecv : (Host.recvOutcome (sampleHost 2, sampleWorld) (.replicate 32 4)).map
      (fun r => (r.1, r.2.1.handshakes.size, r.2.1.handshakes.contains sampleAddr))
        = some (.handshakeProgress sampleAddr, 1, true) := by decide +kernel
  obtain ⟨⟨event, s⟩, hout, hev⟩ := Option.map_eq_some_iff.mp hrecv
  simp only [Prod.mk.injEq] at hev
  obtain ⟨rfl, hsize, hcontains⟩ := hev
  have hrun := Run.single (Host.step_of_recvOutcome hout)
  obtain ⟨hdisj, hh, he, -⟩ := tables_within_capacity (sampleHost_eq 2) hrun
  refine ⟨s, hrun, hsize, hh, he, (hdisj sampleAddr).resolve_left fun hnone => ?_⟩
  rw [ExtTreeMap.contains_eq_isSome_getElem?, hnone] at hcontains
  cases hcontains

/-! ### Refused datagrams -/

/-- A refused datagram leaves both tables as they were. -/
lemma Inbound.tables_of_rejected {host host' : Host C} {addr a : UdpAddr} {datagram : Bytes}
    {seed : Key} {reply : Option Bytes} {reason : String} (h : host.WithinCapacity)
    (hin : Inbound host addr datagram seed reply host' (.rejected a reason)) :
    host'.handshakes = host.handshakes ∧ host'.established = host.established := by
  cases hin with
  | initiatorKept _ hentry _ _ => exact ⟨h.restore_eq hentry, rfl⟩
  | responderKept _ hentry _ => exact ⟨h.restore_eq hentry, rfl⟩
  | _ => exact ⟨rfl, rfl⟩

/-- In every run of a fresh host, a receive that refuses its datagram leaves both tables as they
were: the same addresses with the same handshakes and connections, stamps included. -/
theorem rejected_changes_no_connection {socket : UdpTransport} {kp : StaticKeypair C}
    {identity : Ed25519Keypair C} {secret : Key} {capacity : Capacity} {host₀ : Host C}
    {w₀ : World} {l : List HostLabel} {s : Host C × World}
    (hnew : Host.withCapacity socket kp identity secret capacity = .ok host₀)
    (hrun : Run Host.Step (host₀, w₀) l s) (w : World) (seed : Key) {host' : Host C}
    {a : UdpAddr} {reason : String} {w' : World}
    (hrej : (s.1.recvOne seed).run w = (.ok (host', .rejected a reason), w')) :
    host'.handshakes = s.1.handshakes ∧ host'.established = s.1.established := by
  have h := run_withinCapacity hrun (Host.WithinCapacity.withCapacity hnew)
  obtain ⟨_, _, _, -, hin, -⟩ := recvOne_run_eq_ok hrej
  exact hin.tables_of_rejected h

/-- A world in which the sample peer keeps sending junk. -/
def junkWorld : World where
  recvFrom _ := .ok (sampleAddr, [1, 2, 3])
  sendTo _ := .ok ()
  sent := []
  received := []

/-- The sample host has a handshake with the sample peer in flight when junk arrives: it is
refused, and the handshake is there as it was. -/
theorem rejected_changes_no_connection_sample :
    ∃ (s : Host sampleCrypto × World) (host' : Host sampleCrypto) (reason : String) (w' : World),
      Run Host.Step (sampleHost 2, sampleWorld)
        [.recvOne (.replicate 32 4) (.handshakeProgress sampleAddr)] s ∧
      (s.1.recvOne (.replicate 32 5)).run junkWorld
        = (.ok (host', .rejected sampleAddr reason), w') ∧
      s.1.handshakes.contains sampleAddr = true ∧ host'.handshakes = s.1.handshakes ∧
      host'.established = s.1.established := by
  have hrecv : (Host.recvOutcome (sampleHost 2, sampleWorld) (.replicate 32 4)).map
      (fun r => (r.1, r.2.1.handshakes.contains sampleAddr,
        (Host.recvOutcome (r.2.1, junkWorld) (.replicate 32 5)).map Prod.fst))
        = some (.handshakeProgress sampleAddr, true, some (.rejected sampleAddr
          ("responder: failed to finalize on msg3: noise protocol violation: expected at least " ++
            "64-byte handshake message 3, got 3; handshake kept"))) := by decide +kernel
  obtain ⟨⟨event, s⟩, hout, hev⟩ := Option.map_eq_some_iff.mp hrecv
  simp only [Prod.mk.injEq] at hev
  obtain ⟨rfl, hcontains, hjunk⟩ := hev
  obtain ⟨⟨event, host', w'⟩, hout', rfl⟩ := Option.map_eq_some_iff.mp hjunk
  have hrun := Run.single (Host.step_of_recvOutcome hout)
  cases Host.step_of_recvOutcome hout' with
  | recvOne hrej =>
      obtain ⟨hh, he⟩ := rejected_changes_no_connection (sampleHost_eq 2) hrun junkWorld
        (.replicate 32 5) hrej
      exact ⟨s, host', _, w', hrun, hrej, hcontains, hh, he⟩

end Libp2pCat
