import Libp2pCat.Types
import Libp2pCat.Lib.Effect

/-!
`libp2p-cat-udp/src/transport.rs`: the UDP socket as a linear effect.

* `World`: the operating system as one socket sees it, with the outcomes of the
  socket calls to come and the datagrams sent and received so far.
* `UdpTransport.send`, `UdpTransport.recv`: the two operations, with the outbound limit
  `maxSendPayload` and the inbound buffer `recvBufSize`.
* `UdpTransport.KeptBySends`: a property of the world that no send changes.
* `send_run_eq_ok_iff`, `recv_run_eq_ok_iff`: when they succeed and what they leave behind.
-/

namespace Libp2pCat

open ByteString Effect

/-- Default outbound payload ceiling. -/
abbrev DEFAULT_MAX_DATAGRAM : ℕ := 1200

/-- Hard ceiling on the receive buffer. -/
abbrev MAX_UDP_PAYLOAD : ℕ := 65507

/-- The operating system as one socket sees it: the outcome of the `k`-th coming call
to `recv_from` and `send_to`, and the datagrams that went through. -/
structure World where
  recvFrom : ℕ → Except String (UdpAddr × Bytes)
  sendTo : ℕ → Except String Unit
  sent : List (UdpAddr × Bytes)
  received : List (UdpAddr × Bytes)

namespace World

/-- The world after one datagram left. -/
def afterSend (w : World) (dst : UdpAddr) (payload : Bytes) : World :=
  { w with sendTo := fun k => w.sendTo (k + 1), sent := w.sent ++ [(dst, payload)] }

/-- The world after one datagram came in. -/
def afterRecv (w : World) (addr : UdpAddr) (payload : Bytes) : World :=
  { w with recvFrom := fun k => w.recvFrom (k + 1), received := w.received ++ [(addr, payload)] }

/-- No `send_to` call fails. -/
def SendsOk (w : World) : Prop := ∀ k, w.sendTo k = .ok ()

/-- No `recv_from` call fails. -/
def RecvsOk (w : World) : Prop := ∀ k, ∃ r, w.recvFrom k = .ok r

/-- No socket call fails. -/
def Calm (w : World) : Prop := w.SendsOk ∧ w.RecvsOk

/-- Nothing waits at the socket, and every send succeeds. -/
def quiet : World where
  recvFrom _ := .error "no datagram"
  sendTo _ := .ok ()
  sent := []
  received := []

lemma SendsOk.afterSend {w : World} (h : w.SendsOk) (dst : UdpAddr) (payload : Bytes) :
    (w.afterSend dst payload).SendsOk := fun k => h (k + 1)

lemma SendsOk.afterRecv {w : World} (h : w.SendsOk) (addr : UdpAddr) (payload : Bytes) :
    (w.afterRecv addr payload).SendsOk := h

end World

/-- A bound UDP socket: its two limits. -/
structure UdpTransport where
  maxSendPayload : ℕ
  recvBufSize : ℕ
  deriving DecidableEq

namespace UdpTransport

/-- Send one datagram. -/
def send (socket : UdpTransport) (dst : UdpAddr) (payload : Bytes) : Io World Error UdpTransport :=
  fun w =>
    let attempted := payload.length
    let maximum := socket.maxSendPayload
    if maximum < attempted then (.error (.datagramTooLarge attempted maximum), w)
    else
      match w.sendTo 0 with
      | .ok () => (.ok socket, w.afterSend dst payload)
      | .error e => (.error (.io e), { w with sendTo := fun k => w.sendTo (k + 1) })

/-- Receive one datagram; what does not fit the buffer is cut off. -/
def recv (socket : UdpTransport) : Io World Error ((UdpAddr × Bytes) × UdpTransport) :=
  fun w =>
    match w.recvFrom 0 with
    | .ok (addr, datagram) =>
        let payload := datagram.take socket.recvBufSize
        (.ok ((addr, payload), socket), w.afterRecv addr payload)
    | .error e => (.error (.io e), { w with recvFrom := fun k => w.recvFrom (k + 1) })

/-- A send succeeds exactly when the payload fits and the system takes it. -/
lemma send_run_eq_ok_iff {socket socket' : UdpTransport} {dst : UdpAddr} {payload : Bytes}
    {w w' : World} :
    (socket.send dst payload).run w = (.ok socket', w') ↔
      payload.length ≤ socket.maxSendPayload ∧ w.sendTo 0 = .ok () ∧ socket' = socket ∧
        w' = w.afterSend dst payload := by
  rw [Io.run, send]
  by_cases hlen : socket.maxSendPayload < payload.length
  · simp [hlen, not_le.mpr hlen]
  · have hle : payload.length ≤ socket.maxSendPayload := not_lt.mp hlen
    cases hs : w.sendTo 0 with
    | error e => simp [hlen]
    | ok u => simp [hlen, hle, eq_comm]

lemma recv_run_eq_ok_iff {socket socket' : UdpTransport} {addr : UdpAddr} {payload : Bytes}
    {w w' : World} :
    socket.recv.run w = (.ok ((addr, payload), socket'), w') ↔
      ∃ datagram, w.recvFrom 0 = .ok (addr, datagram) ∧ payload = datagram.take socket.recvBufSize ∧
        socket' = socket ∧ w' = w.afterRecv addr payload := by
  rw [Io.run, recv]
  cases hr : w.recvFrom 0 with
  | error e => simp
  | ok r =>
      obtain ⟨a, d⟩ := r
      refine ⟨fun h => ?_, ?_⟩
      · cases h
        exact ⟨d, rfl, rfl, rfl, rfl⟩
      · rintro ⟨d', hd, rfl, rfl, rfl⟩
        cases hd
        rfl

/-- No send changes whether the world has the property. -/
def KeptBySends (P : World → Prop) : Prop :=
  ∀ (socket : UdpTransport) (dst : UdpAddr) (payload : Bytes), (socket.send dst payload).Preserves P

/-- A send receives nothing. -/
lemma received_send (received : List (UdpAddr × Bytes)) :
    KeptBySends fun w => w.received = received := by
  intro socket dst payload w hw
  rw [Io.run, send]
  by_cases hlen : socket.maxSendPayload < payload.length
  · simp only [if_pos hlen]
    exact hw
  · simp only [if_neg hlen]
    cases w.sendTo 0 <;> exact hw

lemma calm_send : KeptBySends World.Calm := by
  intro socket dst payload w ⟨hs, hr⟩
  rw [Io.run, send]
  by_cases hlen : socket.maxSendPayload < payload.length
  · simp only [if_pos hlen]
    exact ⟨hs, hr⟩
  · simp only [if_neg hlen, hs 0]
    exact ⟨hs.afterSend dst payload, hr⟩

lemma calm_recv (socket : UdpTransport) : socket.recv.Preserves World.Calm := by
  intro w ⟨hs, hr⟩
  obtain ⟨⟨addr, datagram⟩, hnext⟩ := hr 0
  rw [Io.run, recv, hnext]
  exact ⟨hs, fun k => hr (k + 1)⟩

end UdpTransport

end Libp2pCat
