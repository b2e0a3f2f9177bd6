import Libp2pCat.Rendezvous.Codec
import Libp2pCat.Kad.RoundTrip

/-!
The rendezvous frames and their byte strings determine each other.

* `Frame.onWire`: what is left of a frame on the wire.
* `decodeAddrBody_eq_ok_iff`: a body that is one address and nothing behind it; in
  `decodeAddrAndPayload_eq_ok_iff` and `decodeRelayFail_eq_ok_iff` what stands behind the address
  is data.
* `decode_eq_ok_iff`: a string is read as a frame exactly when it is the encoding of this frame
  and the frame is one that the wire carries whole.
* `codec_round_trips`: encoding never fails, encoding and decoding undo each other, and decoding
  fails on the strings that encode no frame.
-/

namespace Libp2pCat.Rendezvous

open ByteString

/-- What is left of a frame on the wire. -/
def Frame.onWire : Frame → Frame
  | .observeReq => .observeReq
  | .observeResp observed => .observeResp observed.onWire
  | .punchReq target => .punchReq target.onWire
  | .punchForward initiator => .punchForward initiator.onWire
  | .relayDataReq target payload => .relayDataReq target.onWire payload
  | .relayDataDeliver originator payload => .relayDataDeliver originator.onWire payload
  | .relayFail peer reason => .relayFail peer.onWire reason

@[simp] lemma Frame.onWire_onWire (frame : Frame) : frame.onWire.onWire = frame.onWire := by
  cases frame <;> simp [Frame.onWire]

@[simp] lemma encode_onWire (frame : Frame) : encode frame.onWire = encode frame := by
  cases frame <;> simp [Frame.onWire, encode, encodeAddr]

lemma decodeAddr_readsExactly :
    ReadsExactly decodeAddr encodeAddr {addr | addr.onWire = addr} :=
  Kad.decodeAddr_readsExactly

/-! ### Bodies -/

lemma decodeObserveReq_eq_ok_iff {body : Bytes} {frame : Frame} :
    decodeObserveReq body = .ok frame ↔ frame = .observeReq ∧ body = [] := by
  rw [decodeObserveReq]
  split_ifs with hbody
  · simp [hbody, eq_comm]
  · simp [hbody]

lemma decodeAddrBody_eq_ok_iff {body : Bytes} {wrap : UdpAddr → Frame} {frame : Frame} :
    decodeAddrBody body wrap = .ok frame ↔
      ∃ addr : UdpAddr, frame = wrap addr ∧ addr.onWire = addr ∧ body = encodeAddr addr := by
  simp only [decodeAddrBody, Except.bind_eq_ok_iff, Prod.exists]
  constructor
  · rintro ⟨addr, n, hread, h⟩
    split_ifs at h with hrest
    · obtain ⟨hwire, hbody⟩ := decodeAddr_readsExactly.read_and_rest_iff.mp ⟨n, hread, hrest⟩
      exact ⟨addr, (Except.ok.inj h).symm, hwire, by rw [hbody, List.append_nil]⟩
  · rintro ⟨addr, rfl, hwire, rfl⟩
    obtain ⟨n, hread, hrest⟩ := decodeAddr_readsExactly.read_and_rest_iff.mpr
      ⟨hwire, (List.append_nil (encodeAddr addr)).symm⟩
    refine ⟨addr, n, hread, ?_⟩
    rw [if_pos hrest]
    rfl

lemma decodeAddrAndPayload_eq_ok_iff {body : Bytes} {wrap : UdpAddr → Bytes → Frame}
    {frame : Frame} :
    decodeAddrAndPayload body wrap = .ok frame ↔
      ∃ (addr : UdpAddr) (payload : Bytes), frame = wrap addr payload ∧ addr.onWire = addr ∧
        body = encodeAddr addr ++ payload := by
  simp only [decodeAddrAndPayload, Except.bind_eq_ok_iff, Prod.exists]
  constructor
  · rintro ⟨addr, n, hread, h⟩
    obtain ⟨hwire, hbody⟩ := decodeAddr_readsExactly.read_and_rest_iff.mp ⟨n, hread, rfl⟩
    exact ⟨addr, _, (Except.ok.inj h).symm, hwire, hbody⟩
  · rintro ⟨addr, payload, rfl, hbody⟩
    obtain ⟨n, hread, rfl⟩ := decodeAddr_readsExactly.read_and_rest_iff.mpr hbody
    exact ⟨addr, n, hread, rfl⟩

lemma decodeRelayFail_eq_ok_iff {body : Bytes} {frame : Frame} :
    decodeRelayFail body = .ok frame ↔
      ∃ (peer : UdpAddr) (reason : String), frame = .relayFail peer reason ∧
        peer.onWire = peer ∧ body = encodeAddr peer ++ ofText reason := by
  simp only [decodeRelayFail, Except.bind_eq_ok_iff, okOr_eq_ok_iff, textOf_eq_some_iff,
    Prod.exists]
  constructor
  · rintro ⟨peer, n, hread, reason, hreason, h⟩
    obtain ⟨hwire, hbody⟩ := decodeAddr_readsExactly.read_and_rest_iff.mp
      ⟨n, hread, hreason.symm⟩
    exact ⟨peer, reason, (Except.ok.inj h).symm, hwire, hbody⟩
  · rintro ⟨peer, reason, rfl, hbody⟩
    obtain ⟨n, hread, hreason⟩ := decodeAddr_readsExactly.read_and_rest_iff.mpr hbody
    exact ⟨peer, n, hread, reason, hreason.symm, rfl⟩

/-! ### Frames -/

lemma fromByte_eq_ok_iff {byte : UInt8} {opcode : Opcode} :
    Opcode.fromByte byte = .ok opcode ↔ byte = opcode.toByte := by
  constructor
  · intro h
    rw [Opcode.fromByte] at h
    split_ifs at h <;> cases h <;> assumption
  · rintro rfl
    cases opcode <;> rfl

lemma decode_eq_ok_iff_decodeBody {bytes : Bytes} {frame : Frame} :
    decode bytes = .ok frame ↔
      ∃ opcode body, bytes = opcode.toByte :: body ∧ decodeBody opcode body = .ok frame := by
  cases bytes with
  | nil => simp [decode, okOr]
  | cons byte body =>
      have hbody : (sliceFrom (byte :: body) 1).getD [] = body := by simp [sliceFrom]
      simp only [decode, List.head?_cons, okOr_some, Except.ok_bind, hbody, Except.bind_eq_ok_iff,
        fromByte_eq_ok_iff, List.cons.injEq]
      constructor
      · rintro ⟨opcode, rfl, h⟩
        exact ⟨opcode, body, ⟨rfl, rfl⟩, h⟩
      · rintro ⟨opcode, _, ⟨rfl, rfl⟩, h⟩
        exact ⟨opcode, rfl, h⟩

/-- A string is read as a frame exactly when it is the encoding of this frame and the frame is
one that the wire carries whole. -/
lemma decode_eq_ok_iff {bytes : Bytes} {frame : Frame} :
    decode bytes = .ok frame ↔ encode frame = .ok bytes ∧ frame.onWire = frame := by
  rw [decode_eq_ok_iff_decodeBody]
  constructor
  · rintro ⟨opcode, body, rfl, h⟩
    cases opcode with
    | observeReq =>
        obtain ⟨rfl, rfl⟩ := decodeObserveReq_eq_ok_iff.mp h
        exact ⟨rfl, rfl⟩
    | observeResp | punchReq | punchForward =>
        obtain ⟨addr, rfl, hwire, rfl⟩ := decodeAddrBody_eq_ok_iff.mp h
        exact ⟨rfl, by rw [Frame.onWire, hwire]⟩
    | relayDataReq | relayDataDeliver =>
        obtain ⟨addr, payload, rfl, hwire, rfl⟩ := decodeAddrAndPayload_eq_ok_iff.mp h
        exact ⟨rfl, by rw [Frame.onWire, hwire]⟩
    | relayFail =>
        obtain ⟨peer, reason, rfl, hwire, rfl⟩ := decodeRelayFail_eq_ok_iff.mp h
        exact ⟨rfl, by rw [Frame.onWire, hwire]⟩
  · rintro ⟨h, hwire⟩
    cases frame with
    | observeReq => exact ⟨.observeReq, [], (Except.ok.inj h).symm, rfl⟩
    | observeResp observed =>
        exact ⟨.observeResp, _, (Except.ok.inj h).symm, decodeAddrBody_eq_ok_iff.mpr
          ⟨observed, rfl, Frame.observeResp.inj hwire, rfl⟩⟩
    | punchReq target =>
        exact ⟨.punchReq, _, (Except.ok.inj h).symm, decodeAddrBody_eq_ok_iff.mpr
          ⟨target, rfl, Frame.punchReq.inj hwire, rfl⟩⟩
    | punchForward initiator =>
        exact ⟨.punchForward, _, (Except.ok.inj h).symm, decodeAddrBody_eq_ok_iff.mpr
          ⟨initiator, rfl, Frame.punchForward.inj hwire, rfl⟩⟩
    | relayDataReq target payload =>
        exact ⟨.relayDataReq, _, (Except.ok.inj h).symm, decodeAddrAndPayload_eq_ok_iff.mpr
          ⟨target, payload, rfl, (Frame.relayDataReq.inj hwire).1, rfl⟩⟩
    | relayDataDeliver originator payload =>
        exact ⟨.relayDataDeliver, _, (Except.ok.inj h).symm, decodeAddrAndPayload_eq_ok_iff.mpr
          ⟨originator, payload, rfl, (Frame.relayDataDeliver.inj hwire).1, rfl⟩⟩
    | relayFail peer reason =>
        exact ⟨.relayFail, _, (Except.ok.inj h).symm, decodeRelayFail_eq_ok_iff.mpr
          ⟨peer, reason, rfl, (Frame.relayFail.inj hwire).1, rfl⟩⟩

lemma decode_of_encode {frame : Frame} {bytes : Bytes} (h : encode frame = .ok bytes) :
    decode bytes = .ok frame.onWire := by
  refine decode_eq_ok_iff.mpr ⟨?_, Frame.onWire_onWire frame⟩
  rw [encode_onWire, h]

/-- Every frame has an encoding and comes back from it, less the flow labels and scopes of its
addresses; a string that is read as a frame is the encoding of this frame; and decoding fails on
exactly the strings that encode no frame. -/
theorem codec_round_trips :
    (∀ frame, ∃ bytes, encode frame = .ok bytes ∧ decode bytes = .ok frame.onWire) ∧
    (∀ bytes frame, decode bytes = .ok frame → encode frame = .ok bytes) ∧
    (∀ bytes, (∃ e, decode bytes = .error e) ↔ ∀ frame, encode frame ≠ .ok bytes) := by
  refine ⟨?_, ?_, ?_⟩
  · intro frame
    obtain ⟨bytes, hbytes⟩ : ∃ bytes, encode frame = .ok bytes := by
      cases frame <;> exact ⟨_, rfl⟩
    exact ⟨bytes, hbytes, decode_of_encode hbytes⟩
  · intro bytes frame h
    exact (decode_eq_ok_iff.mp h).1
  · intro bytes
    constructor
    · rintro ⟨e, he⟩ frame hframe
      rw [decode_of_encode hframe] at he
      cases he
    · intro hnone
      cases hdec : decode bytes with
      | error e => exact ⟨e, rfl⟩
      | ok frame => exact absurd (decode_eq_ok_iff.mp hdec).1 (hnone frame)

/-- A failed relay to a scoped IPv6 peer, with a reason that is not ASCII. -/
def scopedFail : Frame := .relayFail (.v6 ⟨Arr.replicate 16 0xfe, 4002, 1, 7⟩) "relais fermé"

theorem codec_round_trips_scoped :
    scopedFail.onWire ≠ scopedFail ∧
      (∃ bytes, encode scopedFail = .ok bytes ∧ decode bytes = .ok scopedFail.onWire ∧
        encode scopedFail.onWire = .ok bytes) ∧
      ∃ e, decode [6, 4] = .error e := by
  obtain ⟨bytes, henc, hdec⟩ := codec_round_trips.1 scopedFail
  refine ⟨by decide +kernel, ⟨bytes, henc, hdec, codec_round_trips.2.1 _ _ hdec⟩, ?_⟩
  exact ⟨.pubsubProtocol "V4 addr needs 4 IP bytes", by decide +kernel⟩

end Libp2pCat.Rendezvous
