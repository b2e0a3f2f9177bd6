import Libp2pCat.Host.Inbound
import Libp2pCat.Lib.Run

/-!
The steps of a host, and what each of them leaves behind.

* `dial_run_eq_ok`, `send_run_eq_ok`, `sendRaw_run_eq_ok`: the successful outbound operations
  taken apart, beside `recvOne_run_eq_ok`.
* `HostLabel`, `Host.Step`: one successful operation on a host and the world of its socket;
  runs of a host are runs of this relation.
* `initiatorAdvance_eq_ok_iff`, `responderFinalize_eq_ok_iff`, `verifyBinding_eq_ok_iff`: what the
  completion of a handshake has checked.
-/

namespace Libp2pCat

open ByteString Effect Std

variable {C : Crypto}

/-! ### Completing a handshake -/

/-- A trailer passes exactly when it holds a binding of the static key. -/
lemma verifyBinding_eq_ok_iff {payload : Bytes} {remoteStatic : StaticPublicKey} {pid : PeerId} :
    verifyBinding C payload remoteStatic = .ok pid ↔
      ∃ s, SignedStaticKey.fromBytes payload = .ok s ∧ s.Binds C remoteStatic ∧
        pid = PeerId.fromEd25519 s.publicKey := by
  simp only [verifyBinding, Except.bind_eq_ok_iff, SignedStaticKey.verify_eq_ok_iff]
  refine ⟨?_, ?_⟩
  · rintro ⟨s, hs, _, ⟨hbind, rfl⟩, h⟩
    cases h
    exact ⟨s, hs, hbind, rfl⟩
  · rintro ⟨s, hs, hbind, rfl⟩
    exact ⟨s, hs, _, ⟨hbind, rfl⟩, rfl⟩

lemma initiatorAdvance_eq_ok_iff {identity : HostIdentity C} {afterE : InitiatorAfterE C}
    {datagram msg3 : Bytes} {transport : TransportState} {rs : StaticPublicKey} {pid : PeerId} :
    initiatorAdvance identity afterE datagram = .ok (transport, msg3, rs, pid) ↔
      ∃ afterResp payload, afterE.readResponse datagram = .ok (afterResp, payload) ∧
        verifyBinding C payload afterResp.remoteStatic = .ok pid ∧
        afterResp.writeS identity.signedStaticKey.toBytes = .ok (transport, msg3, rs) := by
  simp only [initiatorAdvance, Except.bind_eq_ok_iff, Prod.exists]
  refine ⟨?_, ?_⟩
  · rintro ⟨afterResp, payload, hread, pid', hbind, t, m, rs', hwrite, h⟩
    cases h
    exact ⟨afterResp, payload, hread, hbind, hwrite⟩
  · rintro ⟨afterResp, payload, hread, hbind, hwrite⟩
    exact ⟨afterResp, payload, hread, pid, hbind, transport, msg3, rs, hwrite, rfl⟩

lemma responderFinalize_eq_ok_iff {afterResp : ResponderAfterResponse} {datagram : Bytes}
    {transport : TransportState} {rs : StaticPublicKey} {pid : PeerId} :
    responderFinalize C afterResp datagram = .ok (transport, rs, pid) ↔
      ∃ payload, afterResp.readS C datagram = .ok (transport, rs, payload) ∧
        verifyBinding C payload rs = .ok pid := by
  simp only [responderFinalize, Except.bind_eq_ok_iff, Prod.exists]
  refine ⟨?_, ?_⟩
  · rintro ⟨t, rs', payload, hread, pid', hbind, h⟩
    cases h
    exact ⟨payload, hread, hbind⟩
  · rintro ⟨payload, hread, hbind⟩
    exact ⟨transport, rs, payload, hread, pid, hbind, rfl⟩

/-! ### Outbound operations -/

/-- A dial that succeeds found the address unknown, sent message 1 and stored the
handshake. -/
lemma dial_run_eq_ok {host host' : Host C} {addr : UdpAddr} {seed : Key} {w w' : World}
    (h : (host.dial addr seed).run w = (.ok host', w')) :
    host.handshakes[addr]? = none ∧ host.established[addr]? = none ∧
      host' = { host with
        handshakes := insertHandshakeWithLru host.handshakes addr
          ⟨.initiatorAwaitingResponse
            ⟨host.identity.staticKeypair, seed, symAfterE C (C.x25519Public seed)⟩
            (C.x25519Public seed).bytes, host.tick + 1⟩ host.capacity.maxHandshakesInFlight
        tick := host.tick + 1 } ∧
      w' = w.afterSend addr (C.x25519Public seed).bytes := by
  obtain ⟨prepared, w₁, hprep, hsend⟩ := Io.flatMap_run_eq_ok.mp h
  cases hknown : host.handshakes.contains addr || host.established.contains addr with
  | true =>
      simp only [Io.run_suspend, prepareDial, hknown, if_true] at hprep
      cases hprep
  | false =>
      simp only [Io.run_suspend, prepareDial, hknown, Bool.false_eq_true, if_false, writeE_eq,
        Except.ok_bind] at hprep
      cases hprep
      obtain ⟨socket, hs, rfl⟩ := Io.map_run_eq_ok.mp hsend
      obtain ⟨-, -, rfl, rfl⟩ := UdpTransport.send_run_eq_ok_iff.mp hs
      rw [Bool.or_eq_false_iff] at hknown
      refine ⟨?_, ?_, rfl, rfl⟩
      · exact ExtTreeMap.getElem?_eq_none_of_contains_eq_false hknown.1
      · exact ExtTreeMap.getElem?_eq_none_of_contains_eq_false hknown.2

/-- A send that succeeds encrypted under an established connection. -/
lemma send_run_eq_ok {host host' : Host C} {addr : UdpAddr} {plaintext : Bytes} {w w' : World}
    (h : (host.send addr plaintext).run w = (.ok host', w')) :
    ∃ conn transport datagram, host.established[addr]? = some conn ∧
      conn.transport.encrypt C plaintext = .ok (transport, datagram) ∧
      host' = { host with
        established := host.established.insert addr
          { conn with transport := transport, lastActivity := host.tick + 1 }
        tick := host.tick + 1 } ∧
      w' = w.afterSend addr datagram := by
  obtain ⟨prepared, w₁, hprep, hsend⟩ := Io.flatMap_run_eq_ok.mp h
  simp only [Io.run_suspend, Prod.mk.injEq] at hprep
  obtain ⟨hprep, rfl⟩ := hprep
  simp only [prepareSend, Except.bind_eq_ok_iff, okOr_eq_ok_iff, Prod.exists] at hprep
  obtain ⟨conn, hconn, transport, datagram, henc, hp⟩ := hprep
  cases hp
  obtain ⟨socket, hs, rfl⟩ := Io.map_run_eq_ok.mp hsend
  obtain ⟨-, -, rfl, rfl⟩ := UdpTransport.send_run_eq_ok_iff.mp hs
  refine ⟨conn, transport, datagram, hconn, henc, ?_, rfl⟩
  simp only [Lru.insert_erase]

lemma sendRaw_run_eq_ok {host host' : Host C} {addr : UdpAddr} {bytes : Bytes} {w w' : World}
    (h : (host.sendRaw addr bytes).run w = (.ok host', w')) :
    host' = { host with tick := host.tick + 1 } ∧ w' = w.afterSend addr bytes := by
  obtain ⟨socket, hs, rfl⟩ := Io.map_run_eq_ok.mp h
  obtain ⟨-, -, rfl, rfl⟩ := UdpTransport.send_run_eq_ok_iff.mp hs
  exact ⟨rfl, rfl⟩

/-! ### Steps and runs -/

/-- The operations of a host; a receive is labelled with the event it returned. -/
inductive HostLabel where
  | dial (addr : UdpAddr) (seed : Key)
  | send (addr : UdpAddr) (plaintext : Bytes)
  | sendRaw (addr : UdpAddr) (bytes : Bytes)
  | recvOne (seed : Key) (event : HostEvent)
  | evict (addr : UdpAddr)
  | evictIdle (maxIdleTicks : UInt64)

/-- One successful operation. -/
inductive Host.Step : Host C × World → HostLabel → Host C × World → Prop where
  | dial {host host' : Host C} {w w' : World} {addr : UdpAddr} {seed : Key} :
      (host.dial addr seed).run w = (.ok host', w') →
      Step (host, w) (.dial addr seed) (host', w')
  | send {host host' : Host C} {w w' : World} {addr : UdpAddr} {plaintext : Bytes} :
      (host.send addr plaintext).run w = (.ok host', w') →
      Step (host, w) (.send addr plaintext) (host', w')
  | sendRaw {host host' : Host C} {w w' : World} {addr : UdpAddr} {bytes : Bytes} :
      (host.sendRaw addr bytes).run w = (.ok host', w') →
      Step (host, w) (.sendRaw addr bytes) (host', w')
  | recvOne {host host' : Host C} {w w' : World} {seed : Key} {event : HostEvent} :
      (host.recvOne seed).run w = (.ok (host', event), w') →
      Step (host, w) (.recvOne seed event) (host', w')
  | evict (host : Host C) (w : World) (addr : UdpAddr) :
      Step (host, w) (.evict addr) (host.evict addr, w)
  | evictIdle (host : Host C) (w : World) (maxIdleTicks : UInt64) :
      Step (host, w) (.evictIdle maxIdleTicks) ((host.evictIdle maxIdleTicks).1, w)

/-- The event and the state a successful receive ends in, for evaluating a run. -/
def Host.recvOutcome (s : Host C × World) (seed : Key) : Option (HostEvent × (Host C × World)) :=
  match (s.1.recvOne seed).run s.2 with
  | (.ok (host', event), w') => some (event, (host', w'))
  | (.error _, _) => none

lemma Host.step_of_recvOutcome {s s' : Host C × World} {seed : Key} {event : HostEvent}
    (h : Host.recvOutcome s seed = some (event, s')) : Host.Step s (.recvOne seed event) s' := by
  rw [Host.recvOutcome] at h
  split at h
  · rename_i hrun
    cases h
    exact .recvOne hrun
  · cases h

/-- No operation changes the identity, the caps or the limits of a host. -/
lemma Inbound.constants {host host' : Host C} {addr : UdpAddr} {datagram : Bytes} {seed : Key}
    {reply : Option Bytes} {event : HostEvent}
    (h : Inbound host addr datagram seed reply host' event) :
    host'.identity = host.identity ∧ host'.capacity = host.capacity ∧
      host'.socket = host.socket := by
  cases h <;> exact ⟨rfl, rfl, rfl⟩

lemma Host.Step.constants {s s' : Host C × World} {l : HostLabel} (h : Host.Step s l s') :
    s'.1.identity = s.1.identity ∧ s'.1.capacity = s.1.capacity ∧ s'.1.socket = s.1.socket := by
  cases h with
  | dial h =>
      obtain ⟨-, -, rfl, -⟩ := dial_run_eq_ok h
      exact ⟨rfl, rfl, rfl⟩
  | send h =>
      obtain ⟨_, _, _, -, -, rfl, -⟩ := send_run_eq_ok h
      exact ⟨rfl, rfl, rfl⟩
  | sendRaw h =>
      obtain ⟨rfl, -⟩ := sendRaw_run_eq_ok h
      exact ⟨rfl, rfl, rfl⟩
  | recvOne h =>
      obtain ⟨_, _, _, -, hin, -⟩ := recvOne_run_eq_ok h
      exact hin.constants
  | evict => exact ⟨rfl, rfl, rfl⟩
  | evictIdle => exact ⟨rfl, rfl, rfl⟩

end Libp2pCat
