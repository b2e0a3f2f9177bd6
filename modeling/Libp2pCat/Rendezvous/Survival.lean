import Libp2pCat.Rendezvous.Node
import Libp2pCat.Host.Outcomes
import Libp2pCat.Host.VerifiedPeers

/-!
When a rendezvous node survives a datagram.

* `sendLen`: how many bytes the datagram has that a frame makes a node send.
* `Overflows`: a received datagram calls for one that exceeds the outbound limit, either from
  the host (a step of a handshake) or from the node (an answer, a forward or a punch).
* `recv_survives_iff`: with socket calls that succeed and send counters left, `recv_one`
  returns exactly when this is not so.
* `relayed_payload_kills_node`: a peer asks a node to relay a payload that was small enough to
  be received, but is too large to be sent on.
-/

namespace Libp2pCat.Rendezvous

open ByteString Effect Std

variable {C : Crypto}

/-- Bytes of an encoded address. -/
def addrLen : UdpAddr → ℕ
  | .v4 _ => 1 + Kad.ADDR_V4_BODY_LEN
  | .v6 _ => 1 + Kad.ADDR_V6_BODY_LEN

@[simp] lemma length_encodeAddr (addr : UdpAddr) : (encodeAddr addr).length = addrLen addr := by
  cases addr with
  | v4 s => simp [encodeAddr, Kad.encodeAddr, addrLen, Kad.ADDR_V4_BODY_LEN]
  | v6 s => simp [encodeAddr, Kad.encodeAddr, addrLen, Kad.ADDR_V6_BODY_LEN]

/-- Bytes of the datagram that a frame of an established source makes a node send. -/
def sendLen (host : Host C) (source : UdpAddr) : Frame → ℕ
  | .observeReq => 1 + addrLen source + TRANSPORT_OVERHEAD_LEN
  | .punchReq target =>
      if host.isEstablished target then 1 + addrLen source + TRANSPORT_OVERHEAD_LEN else 0
  | .punchForward _ => 1
  | .relayDataReq target payload =>
      if host.isEstablished target then
        1 + addrLen source + payload.length + TRANSPORT_OVERHEAD_LEN
      else 1 + addrLen target + (ofText (relayFailReason target)).length + TRANSPORT_OVERHEAD_LEN
  | _ => 0

/-- The datagram calls for one that is larger than the outbound limit. -/
def Overflows (host : Host C) (addr : UdpAddr) (datagram : Bytes) (seed : Key) : Prop :=
  host.socket.maxSendPayload < host.replyLen addr datagram seed ∨
    ∃ plaintext frame, host.opens addr datagram = some plaintext ∧ decode plaintext = .ok frame ∧
      host.socket.maxSendPayload < sendLen host addr frame

section

variable {host : Host C} {addr : UdpAddr} {w : World}

/-- Sending an encoded frame to an established address. -/
lemma send_encoded_succeeds_iff (hC : C.Seals) (hw : w.SendsOk) {frame : Frame} {bytes : Bytes}
    (henc : encode frame = .ok bytes) (hest : host.isEstablished addr = true)
    (hnonce : host.NonceLeft addr) {α : Type} (f : Host C → α) :
    ((Io.suspend (encode frame)).flatMap fun bytes =>
      (host.send addr (id bytes)).map f).Succeeds w ↔
      bytes.length + TRANSPORT_OVERHEAD_LEN ≤ host.socket.maxSendPayload := by
  rw [henc, Io.succeeds_flatMap_iff]
  simp only [Io.run_suspend, Prod.mk.injEq, Io.succeeds_map_iff, id]
  constructor
  · rintro ⟨_, _, ⟨h, rfl⟩, hsend⟩
    cases h
    exact ((Host.send_succeeds_iff hC hw).mp hsend).2.2
  · intro hfit
    exact ⟨bytes, w, ⟨rfl, rfl⟩, (Host.send_succeeds_iff hC hw).mpr ⟨hest, hnonce, hfit⟩⟩

/-- Reacting to a frame succeeds exactly when what it makes the node send fits. -/
lemma handleDatagram_succeeds_iff (hC : C.Seals) (hw : w.SendsOk)
    (hest : host.isEstablished addr = true) (hnonce : ∀ a, host.NonceLeft a) {plaintext : Bytes} :
    (handleDatagram host addr plaintext id).Succeeds w ↔
      ∀ frame, decode plaintext = .ok frame → sendLen host addr frame ≤ host.socket.maxSendPayload
    := by
  rw [handleDatagram]
  cases hdec : decode plaintext with
  | error e => simp
  | ok frame =>
      simp only [Except.ok.injEq, forall_eq']
      cases frame with
      | observeReq =>
          rw [autoReplyObserve, send_encoded_succeeds_iff hC hw rfl hest (hnonce addr), sendLen,
            List.length_cons, length_encodeAddr, Nat.add_comm 1]
      | punchReq target =>
          change (autoForwardPunch host addr target id).Succeeds w ↔ _
          rw [autoForwardPunch, sendLen]
          by_cases htarget : host.isEstablished target = true
          · rw [if_pos htarget, if_pos htarget,
              send_encoded_succeeds_iff hC hw rfl htarget (hnonce target), List.length_cons,
              length_encodeAddr, Nat.add_comm 1]
          · rw [if_neg htarget, if_neg htarget]
            simp
      | punchForward initiator =>
          change (autoSendPunch host addr initiator).Succeeds w ↔ _
          rw [autoSendPunch, Io.succeeds_map_iff, Host.sendRaw_succeeds_iff hw]
          rfl
      | relayDataReq target payload =>
          change (autoForwardRelay host addr target payload id).Succeeds w ↔ _
          rw [autoForwardRelay, sendLen]
          by_cases htarget : host.isEstablished target = true
          · rw [if_pos htarget, if_pos htarget,
              send_encoded_succeeds_iff hC hw rfl htarget (hnonce target), List.length_cons,
              List.length_append, length_encodeAddr]
            omega
          · rw [if_neg htarget, if_neg htarget,
              send_encoded_succeeds_iff hC hw rfl hest (hnonce addr), List.length_cons,
              List.length_append, length_encodeAddr]
            omega
      | _ => simp [sendLen]

end

/-- A node survives a datagram exactly when nothing it has to send on its account is larger
than the outbound limit. -/
theorem recv_survives_iff (hC : C.Seals) {node : RendezvousNode C} {seed : Key} {w : World}
    {addr : UdpAddr} {datagram : Bytes} (hw : w.SendsOk)
    (hnext : w.recvFrom 0 = .ok (addr, datagram)) (hnonce : ∀ a, node.host.NonceLeft a) :
    (node.recvOne seed).Succeeds w ↔
      ¬ Overflows node.host addr (datagram.take node.host.socket.recvBufSize) seed := by
  -- what is left after the receive of the host
  have hcont : ∀ {host' : Host C} {event : HostEvent} {w' : World},
      (node.host.recvOne seed).run w = (.ok (host', event), w') →
      ((handleHostEvent host' event).Succeeds w' ↔ ∀ plaintext,
        node.host.opens addr (datagram.take node.host.socket.recvBufSize) = some plaintext →
        ∀ frame, decode plaintext = .ok frame →
        sendLen node.host addr frame ≤ node.host.socket.maxSendPayload) := by
    intro host' event w' hrun
    obtain ⟨addr', datagram', reply, hnext', hin, rfl⟩ := recvOne_run_eq_ok hrun
    rw [hnext] at hnext'
    cases hnext'
    have hw' : World.SendsOk ((w.afterRecv addr
        (datagram.take node.host.socket.recvBufSize)).afterReply addr reply) := by
      cases reply with
      | none => exact hw
      | some b => exact World.SendsOk.afterSend hw addr b
    have hsocket := hin.constants.2.2
    rcases hin.of_opens with ⟨plaintext, hopen, rfl, hest, -, -⟩ | ⟨hopen, hother⟩
    · have hsame : ∀ frame, sendLen host' addr frame = sendLen node.host addr frame := by
        intro frame
        cases frame <;> simp only [sendLen, (hin.of_delivered _).1]
      rw [handleHostEvent, RendezvousNode.processPlaintext,
        RendezvousNode.processPlaintextWithWrap, handleDatagram_succeeds_iff hC hw' hest
          fun a => (hin.of_delivered a).2 (hnonce a), hopen, hsocket]
      simp only [hsame, Option.some.injEq, forall_eq']
    · rw [hopen]
      cases event with
      | datagramDelivered a plaintext => exact absurd rfl (hother a plaintext)
      | _ => simp [handleHostEvent]
  rw [RendezvousNode.recvOne, Io.succeeds_flatMap_iff, Overflows, not_or, Nat.not_lt,
    ← Host.reply_fits_iff hC, ← Host.recvOne_succeeds_iff hw hnext]
  constructor
  · rintro ⟨⟨host', event⟩, w', hrun, hrest⟩
    refine ⟨⟨_, _, hrun⟩, ?_⟩
    rintro ⟨plaintext, frame, hopen, hdec, hlt⟩
    exact Nat.not_lt.mpr ((hcont hrun).mp hrest plaintext hopen frame hdec) hlt
  · rintro ⟨⟨⟨host', event⟩, w', hrun⟩, hfits⟩
    refine ⟨_, _, hrun, (hcont hrun).mpr fun plaintext hopen frame hdec => ?_⟩
    exact Nat.not_lt.mp fun hlt => hfits ⟨plaintext, frame, hopen, hdec, hlt⟩

/-- The datagram in which the sample peer asks for `n` bytes to be relayed to itself. -/
def sampleRelayDatagram (n : ℕ) : Bytes :=
  beBytes 8 0 ++ ((Opcode.relayDataReq.toByte :: (encodeAddr sampleAddr ++ List.replicate n 7)) ++
    (List.replicate 12 0 ++ [78, 111, 105, 115]))

/-- A world in which this datagram is next. -/
def relayWorld (n : ℕ) : World where
  recvFrom _ := .ok (sampleAddr, sampleRelayDatagram n)
  sendTo _ := .ok ()
  sent := []
  received := []

/-- A fresh node after two receives, in which the sample peer completed a handshake. -/
def sampleServer : Option (RendezvousNode sampleCrypto) :=
  match ((RendezvousNode.mk (sampleHost 2)).recvOne (.replicate 32 4)).run sampleWorld with
  | (.ok (node, _), w) =>
      match (node.recvOne (.replicate 32 5)).run w with
      | (.ok (node', _), _) => some node'
      | _ => none
  | _ => none

/-- How it takes the request to relay `n` bytes: the error it ends with, if any. -/
def relayFailure (node : RendezvousNode sampleCrypto) (n : ℕ) : Option Error :=
  match (node.recvOne (.replicate 32 6)).run (relayWorld n) with
  | (.ok _, _) => none
  | (.error e, _) => some e

lemma succeeds_iff_relayFailure {node : RendezvousNode sampleCrypto} {n : ℕ} :
    (node.recvOne (.replicate 32 6)).Succeeds (relayWorld n) ↔ relayFailure node n = none := by
  rw [Io.Succeeds, relayFailure]
  rcases (node.recvOne (.replicate 32 6)).run (relayWorld n) with ⟨_ | _, _⟩ <;> simp

/-- Every connection has send nonces left. -/
def noncesLeft (host : Host C) : Bool :=
  host.established.toList.all fun p => decide (p.2.transport.sendNonce.toNat + 1 < 2 ^ 64)

lemma nonceLeft_of_noncesLeft {host : Host C} (h : noncesLeft host = true) (a : UdpAddr) :
    host.NonceLeft a := by
  intro conn hconn
  have hmem := ExtTreeMap.mem_toList_iff_getElem?_eq_some.mpr hconn
  exact of_decide_eq_true (List.all_eq_true.mp h _ hmem)

/-- One byte is relayed, and nothing overflows. -/
theorem recv_survives_sample :
    ∃ node, sampleServer = some node ∧
      (node.recvOne (.replicate 32 6)).Succeeds (relayWorld 1) ∧
      ¬ Overflows node.host sampleAddr
        ((sampleRelayDatagram 1).take node.host.socket.recvBufSize) (.replicate 32 6) := by
  have hserver : sampleServer.map (fun node => (noncesLeft node.host, relayFailure node 1))
      = some (true, none) := by decide +kernel
  obtain ⟨node, hnode, hchecks⟩ := Option.map_eq_some_iff.mp hserver
  obtain ⟨hnonces, hok⟩ := Prod.mk.inj hchecks
  have hsucc := succeeds_iff_relayFailure.mpr hok
  exact ⟨node, hnode, hsucc, (recv_survives_iff sampleCrypto_agrees.seals (fun _ => rfl) rfl
    (nonceLeft_of_noncesLeft hnonces)).mp hsucc⟩

/-- A request to relay 1176 bytes is received, but what it asks for exceeds the limit of 1200
bytes: the receive ends with an error, although every socket call succeeds and no send nonce
is exhausted. -/
theorem relayed_payload_kills_node :
    ∃ node, sampleServer = some node ∧ (∀ a, node.host.NonceLeft a) ∧
      (relayWorld 1176).Calm ∧ (sampleRelayDatagram 1176).length ≤ MAX_UDP_PAYLOAD ∧
      node.host.isEstablished sampleAddr = true ∧
      ¬ (node.recvOne (.replicate 32 6)).Succeeds (relayWorld 1176) ∧
      relayFailure node 1176 = some (.datagramTooLarge 1208 1200) := by
  have hserver : sampleServer.map (fun node => (noncesLeft node.host,
      node.host.isEstablished sampleAddr, relayFailure node 1176))
        = some (true, true, some (.datagramTooLarge 1208 1200)) := by decide +kernel
  obtain ⟨node, hnode, hchecks⟩ := Option.map_eq_some_iff.mp hserver
  simp only [Prod.mk.injEq] at hchecks
  obtain ⟨hnonces, hest, hfail⟩ := hchecks
  refine ⟨node, hnode, nonceLeft_of_noncesLeft hnonces, ⟨fun _ => rfl, fun _ => ⟨_, rfl⟩⟩,
    by decide +kernel, hest, ?_, hfail⟩
  rw [succeeds_iff_relayFailure, hfail]
  nofun

end Libp2pCat.Rendezvous
