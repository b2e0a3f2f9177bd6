import Libp2pCat.Kad.Codec
import Libp2pCat.Lib.Reader

/-!
The Kademlia frames and their byte strings determine each other.

* `UdpAddr.onWire`, `Frame.onWire`: what is left of an address and of a frame on the wire, which
  does not carry the flow label and the scope of an IPv6 address.
* `decodeAddr_readsExactly`, `decodeEntry_readsExactly`: the readers of the parts accept exactly
  what the writers write; `decodeEntries_eq_ok_iff` is the counted list of peers.
* `decode_eq_ok_iff`: a string is read as a frame exactly when it is the encoding of this frame
  and the frame is one that the wire carries whole.
* `codec_bijective`: encoding fails on the oversized answers only, and encoding and decoding
  undo each other.
-/

namespace Libp2pCat

open ByteString

/-- What is left of an address on the wire. -/
def UdpAddr.onWire : UdpAddr → UdpAddr
  | .v4 s => .v4 s
  | .v6 s => .v6 { s with flowinfo := 0, scopeId := 0 }

@[simp] lemma UdpAddr.onWire_onWire (addr : UdpAddr) : addr.onWire.onWire = addr.onWire := by
  cases addr <;> rfl

namespace Kad

/-- What is left of a frame on the wire. -/
def Frame.onWire : Frame → Frame
  | .findNodeResp peers => .findNodeResp (peers.map fun p => (p.1, p.2.onWire))
  | frame => frame

/-! ### Addresses -/

@[simp] lemma encodeAddr_onWire (addr : UdpAddr) : encodeAddr addr.onWire = encodeAddr addr := by
  cases addr <;> rfl

/-- Two bytes are a port, without wrapping. -/
lemma beBytes_port {bs : Bytes} (h : bs.length = 2) :
    beBytes 2 (UInt16.ofNat (ofBe bs)).toNat = bs := by
  have hlt := ofBe_lt bs
  rw [h, show 256 ^ 2 = 2 ^ 16 from by norm_num] at hlt
  rw [UInt16.toNat_ofNat_of_lt' hlt]
  nth_rewrite 1 [← h]
  exact beBytes_ofBe bs

lemma ofBe_port (port : UInt16) : UInt16.ofNat (ofBe (beBytes 2 port.toNat)) = port := by
  rw [ofBe_beBytes_of_lt port.toNat_lt, UInt16.ofNat_toNat]

lemma decodeAddrBody_eq_ok_iff {w : ℕ} {ver : String} {body : Bytes} {ip : Arr w}
    {port : UInt16} :
    decodeAddrBody w ver body = .ok (ip, port) ↔ ip.bytes ++ beBytes 2 port.toNat <+: body := by
  constructor
  · intro h
    simp only [decodeAddrBody, Except.bind_eq_ok_iff, okOr_eq_ok_iff, sliceTo_eq_some_iff,
      sliceRange_eq_some_iff, Arr.tryFrom_eq_some_iff] at h
    obtain ⟨-, ⟨hw, rfl⟩, -, ⟨⟨-, hlen⟩, rfl⟩, ip', hip, port', hport, hpair⟩ := h
    obtain ⟨rfl, rfl⟩ := Prod.mk.inj (Except.ok.inj hpair)
    rw [Nat.add_sub_cancel_left] at hport
    rw [beBytes_port port'.length_bytes, hip, hport, ← List.take_add]
    exact List.take_prefix _ _
  · rintro ⟨rest, rfl⟩
    have hport : Arr.tryFrom 2 (beBytes 2 port.toNat)
        = some (Arr.ofBytes (beBytes 2 port.toNat) (length_beBytes _ _)) :=
      Arr.tryFrom_eq_some_iff.mpr (Arr.bytes_ofBytes _ _)
    rw [decodeAddrBody, List.append_assoc, sliceTo_append ip.length_bytes,
      sliceRange_append ip.length_bytes (by rw [length_beBytes])]
    simp only [okOr_some, Except.ok_bind, Arr.tryFrom_bytes, hport, Arr.bytes_ofBytes, ofBe_port]
    rfl

lemma decodeAddrV4_eq_ok_iff {body : Bytes} {addr : UdpAddr} :
    decodeAddrV4 body = .ok addr ↔
      ∃ s : SocketAddrV4, addr = .v4 s ∧ s.ip.bytes ++ beBytes 2 s.port.toNat <+: body := by
  simp only [decodeAddrV4, Except.bind_eq_ok_iff, Prod.exists, decodeAddrBody_eq_ok_iff]
  constructor
  · rintro ⟨ip, port, hpre, hout⟩
    exact ⟨⟨ip, port⟩, (Except.ok.inj hout).symm, hpre⟩
  · rintro ⟨s, rfl, hpre⟩
    exact ⟨s.ip, s.port, hpre, rfl⟩

lemma decodeAddrV6_eq_ok_iff {body : Bytes} {addr : UdpAddr} :
    decodeAddrV6 body = .ok addr ↔
      ∃ s : SocketAddrV6, addr = .v6 { s with flowinfo := 0, scopeId := 0 } ∧
        s.ip.bytes ++ beBytes 2 s.port.toNat <+: body := by
  simp only [decodeAddrV6, Except.bind_eq_ok_iff, Prod.exists, decodeAddrBody_eq_ok_iff]
  constructor
  · rintro ⟨ip, port, hpre, hout⟩
    exact ⟨⟨ip, port, 0, 0⟩, (Except.ok.inj hout).symm, hpre⟩
  · rintro ⟨s, rfl, hpre⟩
    exact ⟨s.ip, s.port, hpre, rfl⟩

@[simp] lemma length_encodeAddr_v4 (s : SocketAddrV4) :
    (encodeAddr (.v4 s)).length = 1 + ADDR_V4_BODY_LEN := by
  simp [encodeAddr, ADDR_V4_BODY_LEN]

@[simp] lemma length_encodeAddr_v6 (s : SocketAddrV6) :
    (encodeAddr (.v6 s)).length = 1 + ADDR_V6_BODY_LEN := by
  simp [encodeAddr, ADDR_V6_BODY_LEN]

/-- The address reader accepts exactly the written addresses. -/
lemma decodeAddr_readsExactly :
    ReadsExactly decodeAddr encodeAddr {addr | addr.onWire = addr} := by
  intro buf addr n
  cases buf with
  | nil => cases addr <;> simp [decodeAddr, okOr, encodeAddr]
  | cons kind body =>
      have hbody : (sliceFrom (kind :: body) 1).getD [] = body := by simp [sliceFrom]
      simp only [decodeAddr, List.head?_cons, okOr_some, Except.ok_bind, hbody]
      split_ifs with h4 h6
      · subst h4
        simp only [Except.bind_eq_ok_iff, decodeAddrV4_eq_ok_iff]
        constructor
        · rintro ⟨_, ⟨s, rfl, hpre⟩, hout⟩
          obtain ⟨rfl, rfl⟩ := Prod.mk.inj (Except.ok.inj hout)
          exact ⟨rfl, by simp, (List.prefix_cons_inj _).mpr hpre⟩
        · rintro ⟨-, rfl, hpre⟩
          cases addr with
          | v4 s =>
              refine ⟨_, ⟨s, rfl, (List.prefix_cons_inj _).mp hpre⟩, ?_⟩
              rw [length_encodeAddr_v4]
              rfl
          | v6 s => exact absurd (List.cons_prefix_cons.mp hpre).1 (by decide)
      · subst h6
        simp only [Except.bind_eq_ok_iff, decodeAddrV6_eq_ok_iff]
        constructor
        · rintro ⟨_, ⟨s, rfl, hpre⟩, hout⟩
          obtain ⟨rfl, rfl⟩ := Prod.mk.inj (Except.ok.inj hout)
          exact ⟨rfl, by simp, (List.prefix_cons_inj _).mpr hpre⟩
        · rintro ⟨hwire, rfl, hpre⟩
          cases addr with
          | v4 s => exact absurd (List.cons_prefix_cons.mp hpre).1 (by decide)
          | v6 s =>
              refine ⟨_, ⟨s, hwire.symm, (List.prefix_cons_inj _).mp hpre⟩, ?_⟩
              rw [length_encodeAddr_v6]
              rfl
      · constructor
        · intro h
          cases h
        · rintro ⟨-, -, hpre⟩
          cases addr with
          | v4 s => exact absurd (List.cons_prefix_cons.mp hpre).1.symm h4
          | v6 s => exact absurd (List.cons_prefix_cons.mp hpre).1.symm h6

/-! ### Peers -/

/-- The peer reader accepts exactly the written peers. -/
lemma decodeEntry_readsExactly :
    ReadsExactly decodeEntry encodeEntry {entry | entry.2.onWire = entry.2} := by
  intro buf entry n
  obtain ⟨id, addr⟩ := entry
  constructor
  · intro h
    simp only [decodeEntry, Except.bind_eq_ok_iff, okOr_eq_ok_iff, sliceTo_eq_some_iff,
      Arr.tryFrom_eq_some_iff, Prod.exists] at h
    obtain ⟨-, ⟨hlen, rfl⟩, idArr, hid, addr', m, haddr, hout⟩ := h
    obtain ⟨hentry, rfl⟩ := Prod.mk.inj (Except.ok.inj hout)
    obtain ⟨rfl, rfl⟩ := Prod.mk.inj hentry
    obtain ⟨hwire, rfl, hpre⟩ := (decodeAddr_readsExactly _ _ _).mp haddr
    have hpre_id : idArr.bytes <+: buf := hid ▸ List.take_prefix _ _
    refine ⟨hwire, by simp [encodeEntry], (append_prefix_iff hpre_id).mpr ?_⟩
    rwa [idArr.length_bytes]
  · rintro ⟨hwire, rfl, rest, rfl⟩
    have haddr : decodeAddr (encodeAddr addr ++ rest) = .ok (addr, (encodeAddr addr).length) :=
      (decodeAddr_readsExactly _ _ _).mpr ⟨hwire, rfl, List.prefix_append _ _⟩
    rw [decodeEntry, encodeEntry, List.append_assoc, sliceTo_append id.asBytes.length_bytes,
      sliceFrom_append id.asBytes.length_bytes]
    simp only [okOr_some, Except.ok_bind, Arr.tryFrom_bytes, Option.getD_some, haddr,
      List.length_append, Arr.length_bytes]
    rfl

/-- The counted loop over the peers reads exactly the lists of that length. -/
lemma decodeEntries_eq_ok_iff {buf : Bytes} {count n : ℕ} {peers : List (NodeId × UdpAddr)} :
    decodeEntries buf count = .ok (peers, n) ↔
      (∀ p ∈ peers, p.2.onWire = p.2) ∧ n = (peers.flatMap encodeEntry).length ∧
        peers.flatMap encodeEntry <+: buf ∧ peers.length = count :=
  decodeEntry_readsExactly.readMany_eq_ok_iff
    (fun idx e => protocolError s!"FindNodeResp entry {idx} decode failed: {e.display}")
    buf count peers n

/-! ### Frames -/

lemma decodeNoBody_eq_ok_iff {opcode : Opcode} {body : Bytes} {frame : Frame} :
    decodeNoBody opcode body = .ok frame ↔
      body = [] ∧ (opcode = .pingReq ∧ frame = .pingReq ∨
        opcode = .pingResp ∧ frame = .pingResp) := by
  by_cases hbody : body = []
  · cases opcode <;> simp [decodeNoBody, hbody, eq_comm]
  · simp [decodeNoBody, hbody]

lemma decodeFindNodeReq_eq_ok_iff {body : Bytes} {frame : Frame} :
    decodeFindNodeReq body = .ok frame ↔
      ∃ target, frame = .findNodeReq target ∧ body = target.asBytes.bytes := by
  simp only [decodeFindNodeReq, Except.bind_eq_ok_iff, okOr_eq_ok_iff, sliceTo_eq_some_iff]
  constructor
  · rintro ⟨-, ⟨hlen, rfl⟩, h⟩
    rw [sliceFrom_of_le hlen, Option.getD_some] at h
    split_ifs at h with hrest
    · simp only [Except.bind_eq_ok_iff, okOr_eq_ok_iff, Arr.tryFrom_eq_some_iff] at h
      obtain ⟨arr, harr, hout⟩ := h
      refine ⟨⟨arr⟩, (Except.ok.inj hout).symm, ?_⟩
      rw [harr, ← List.take_append_drop NODE_ID_LEN body, hrest, List.append_nil,
        List.take_take, Nat.min_self]
  · rintro ⟨target, rfl, rfl⟩
    have hlen : target.asBytes.bytes.length = NODE_ID_LEN := target.asBytes.length_bytes
    refine ⟨_, ⟨hlen.ge, rfl⟩, ?_⟩
    rw [sliceFrom_of_le hlen.ge, Option.getD_some, List.drop_eq_nil_of_le hlen.le, if_pos rfl,
      List.take_of_length_le hlen.le, Arr.tryFrom_bytes]
    rfl

lemma decodeFindNodeResp_eq_ok_iff {body : Bytes} {frame : Frame} :
    decodeFindNodeResp body = .ok frame ↔
      ∃ peers : List (NodeId × UdpAddr), frame = .findNodeResp peers ∧
        (∀ p ∈ peers, p.2.onWire = p.2) ∧ peers.length ≤ MAX_PEERS_PER_RESP ∧
        body = UInt8.ofNat peers.length :: peers.flatMap encodeEntry := by
  cases body with
  | nil => simp [decodeFindNodeResp, okOr]
  | cons count entries =>
      have hentries : (sliceFrom (count :: entries) 1).getD [] = entries := by simp [sliceFrom]
      simp only [decodeFindNodeResp, List.head?_cons, okOr_some, Except.ok_bind, hentries,
        Except.bind_eq_ok_iff, Prod.exists, decodeEntries_eq_ok_iff]
      constructor
      · rintro ⟨peers, n, ⟨hwire, rfl, hpre, hlen⟩, h⟩
        split_ifs at h with hrest
        · refine ⟨peers, (Except.ok.inj h).symm, hwire, ?_, ?_⟩
          · rw [hlen]
            exact Nat.le_of_lt_succ count.toNat_lt
          · rw [hlen, UInt8.ofNat_toNat, (rest_eq_nil_iff hpre).mp hrest]
      · rintro ⟨peers, rfl, hwire, hlen, hbody⟩
        obtain ⟨rfl, rfl⟩ := List.cons.inj hbody
        refine ⟨peers, _, ⟨hwire, rfl, List.prefix_rfl, ?_⟩, ?_⟩
        · exact (UInt8.toNat_ofNat_of_lt' (Nat.lt_succ_of_le hlen)).symm
        · rw [if_pos ((rest_eq_nil_iff List.prefix_rfl).mpr rfl)]
          rfl

lemma fromByte_toByte (opcode : Opcode) : Opcode.fromByte opcode.toByte = .ok opcode := by
  cases opcode <;> rfl

lemma fromByte_eq_ok_iff {byte : UInt8} {opcode : Opcode} :
    Opcode.fromByte byte = .ok opcode ↔ byte = opcode.toByte := by
  constructor
  · intro h
    rw [Opcode.fromByte] at h
    split_ifs at h with h0 h1 h2 h3 <;> cases h <;> assumption
  · rintro rfl
    exact fromByte_toByte opcode

lemma findNodeResp_onWire_eq_iff {peers : List (NodeId × UdpAddr)} :
    (Frame.findNodeResp peers).onWire = .findNodeResp peers ↔
      ∀ p ∈ peers, p.2.onWire = p.2 := by
  rw [Frame.onWire, Frame.findNodeResp.injEq]
  induction peers with
  | nil => simp
  | cons p peers ih =>
      rw [List.map_cons, List.cons.injEq, ih, List.forall_mem_cons, Prod.ext_iff]
      simp only [true_and]

lemma encode_findNodeResp_eq_ok_iff {peers : List (NodeId × UdpAddr)} {bytes : Bytes} :
    encode (.findNodeResp peers) = .ok bytes ↔ peers.length ≤ MAX_PEERS_PER_RESP ∧
      bytes = Opcode.findNodeResp.toByte :: UInt8.ofNat peers.length ::
        peers.flatMap encodeEntry := by
  rw [encode, encodeFindNodeResp]
  by_cases h : peers.length ≤ 255
  · simp [h, eq_comm]
  · simp [h]

lemma decode_eq_ok_iff_decodeBody {bytes : Bytes} {frame : Frame} :
    decode bytes = .ok frame ↔
      ∃ opcode body, bytes = opcode.toByte :: body ∧ decodeBody opcode body = .ok frame := by
  cases bytes with
  | nil => simp [decode, okOr]
  | cons byte body =>
      have hbody : (sliceFrom (byte :: body) 1).getD [] = body := by simp [sliceFrom]
      simp only [decode, List.head?_cons, okOr_some, Except.ok_bind, hbody, Except.bind_eq_ok_iff,
        fromByte_eq_ok_iff, List.cons.injEq]
      constructor
      · rintro ⟨opcode, rfl, h⟩
        exact ⟨opcode, body, ⟨rfl, rfl⟩, h⟩
      · rintro ⟨opcode, _, ⟨rfl, rfl⟩, h⟩
        exact ⟨opcode, rfl, h⟩

/-- A string is read as a frame exactly when it is the encoding of this frame and the frame is
one that the wire carries whole. -/
lemma decode_eq_ok_iff {bytes : Bytes} {frame : Frame} :
    decode bytes = .ok frame ↔ encode frame = .ok bytes ∧ frame.onWire = frame := by
  rw [decode_eq_ok_iff_decodeBody]
  constructor
  · rintro ⟨opcode, body, rfl, h⟩
    cases opcode with
    | pingReq =>
        obtain ⟨rfl, ⟨-, rfl⟩ | ⟨hop, -⟩⟩ := decodeNoBody_eq_ok_iff.mp h
        · exact ⟨rfl, rfl⟩
        · cases hop
    | pingResp =>
        obtain ⟨rfl, ⟨hop, -⟩ | ⟨-, rfl⟩⟩ := decodeNoBody_eq_ok_iff.mp h
        · cases hop
        · exact ⟨rfl, rfl⟩
    | findNodeReq =>
        obtain ⟨target, rfl, rfl⟩ := decodeFindNodeReq_eq_ok_iff.mp h
        exact ⟨rfl, rfl⟩
    | findNodeResp =>
        obtain ⟨peers, rfl, hwire, hlen, rfl⟩ := decodeFindNodeResp_eq_ok_iff.mp h
        exact ⟨encode_findNodeResp_eq_ok_iff.mpr ⟨hlen, rfl⟩,
          findNodeResp_onWire_eq_iff.mpr hwire⟩
  · rintro ⟨h, hwire⟩
    cases frame with
    | pingReq => exact ⟨.pingReq, [], (Except.ok.inj h).symm, rfl⟩
    | pingResp => exact ⟨.pingResp, [], (Except.ok.inj h).symm, rfl⟩
    | findNodeReq target =>
        exact ⟨.findNodeReq, _, (Except.ok.inj h).symm,
          decodeFindNodeReq_eq_ok_iff.mpr ⟨target, rfl, rfl⟩⟩
    | findNodeResp peers =>
        obtain ⟨hlen, rfl⟩ := encode_findNodeResp_eq_ok_iff.mp h
        exact ⟨.findNodeResp, _, rfl, decodeFindNodeResp_eq_ok_iff.mpr
          ⟨peers, rfl, findNodeResp_onWire_eq_iff.mp hwire, hlen, rfl⟩⟩

/-! ### The wire loses nothing else -/

@[simp] lemma Frame.onWire_onWire (frame : Frame) : frame.onWire.onWire = frame.onWire := by
  cases frame with
  | findNodeResp peers => simp [Frame.onWire, Function.comp_def]
  | _ => rfl

@[simp] lemma encode_onWire (frame : Frame) : encode frame.onWire = encode frame := by
  cases frame with
  | findNodeResp peers =>
      have hentries : (peers.map fun p => (p.1, p.2.onWire)).flatMap encodeEntry
          = peers.flatMap encodeEntry := by
        rw [List.flatMap_map]
        exact List.flatMap_congr fun p _ => by rw [encodeEntry, encodeAddr_onWire, encodeEntry]
      simp only [Frame.onWire, encode, encodeFindNodeResp, List.length_map, hentries]
  | _ => rfl

lemma encode_fails_iff (frame : Frame) :
    (∃ e, encode frame = .error e) ↔
      ∃ peers, frame = .findNodeResp peers ∧ MAX_PEERS_PER_RESP < peers.length := by
  have hok := encode_isOk_iff frame
  have hcases : (∃ e, encode frame = .error e) ↔ ¬ ∃ bytes, encode frame = .ok bytes := by
    cases encode frame <;> simp
  rw [hcases, hok]
  cases frame <;> simp [Frame.Encodable]

/-- No accepted string is a proper part of the front of another one: nothing may follow a frame
and nothing of it may be missing. -/
lemma eq_nil_of_decode_append {bytes tail : Bytes} {frame frame' : Frame}
    (h : decode bytes = .ok frame) (h' : decode (bytes ++ tail) = .ok frame') : tail = [] := by
  obtain ⟨opcode, body, rfl, hbody⟩ := decode_eq_ok_iff_decodeBody.mp h
  obtain ⟨opcode', body', happ, hbody'⟩ := decode_eq_ok_iff_decodeBody.mp h'
  rw [List.cons_append] at happ
  obtain ⟨hop, rfl⟩ := List.cons.inj happ
  obtain rfl : opcode = opcode' := by
    have hfrom := fromByte_toByte opcode
    rw [hop, fromByte_toByte] at hfrom
    exact (Except.ok.inj hfrom).symm
  cases opcode with
  | pingReq => exact (List.append_eq_nil_iff.mp (decodeNoBody_eq_ok_iff.mp hbody').1).2
  | pingResp => exact (List.append_eq_nil_iff.mp (decodeNoBody_eq_ok_iff.mp hbody').1).2
  | findNodeReq =>
      obtain ⟨target, -, hlen⟩ := decodeFindNodeReq_eq_ok_iff.mp hbody
      obtain ⟨target', -, hlen'⟩ := decodeFindNodeReq_eq_ok_iff.mp hbody'
      replace hlen := congrArg List.length hlen
      replace hlen' := congrArg List.length hlen'
      rw [List.length_append, Arr.length_bytes] at hlen'
      rw [Arr.length_bytes] at hlen
      exact List.eq_nil_of_length_eq_zero (by omega)
  | findNodeResp =>
      obtain ⟨peers, -, hwire, hlen, rfl⟩ := decodeFindNodeResp_eq_ok_iff.mp hbody
      obtain ⟨peers', -, hwire', hlen', happ'⟩ := decodeFindNodeResp_eq_ok_iff.mp hbody'
      rw [List.cons_append] at happ'
      obtain ⟨hcount, hentries⟩ := List.cons.inj happ'
      have hcount' : peers.length = peers'.length := by
        have hnat := congrArg UInt8.toNat hcount
        rwa [UInt8.toNat_ofNat_of_lt' (Nat.lt_succ_of_le hlen),
          UInt8.toNat_ofNat_of_lt' (Nat.lt_succ_of_le hlen')] at hnat
      -- both lists are what the counted loop reads off the longer string
      have hread := decodeEntries_eq_ok_iff.mpr
        ⟨hwire, rfl, List.prefix_append (peers.flatMap encodeEntry) tail, rfl⟩
      have hread' := decodeEntries_eq_ok_iff.mpr
        ⟨hwire', rfl, List.prefix_rfl (l := peers'.flatMap encodeEntry), hcount'.symm⟩
      rw [← hentries, hread] at hread'
      have hwidth := (Prod.mk.inj (Except.ok.inj hread')).2
      rw [List.length_append] at hwidth
      exact List.eq_nil_of_length_eq_zero (by omega)

/-- Encoding fails on the answers with more than 255 peers and on no other frame; every other
frame comes back from its bytes, less the flow labels and scopes of its addresses; and a string
that is read as a frame is the encoding of this frame.  So no frame is read from two strings, and
no accepted string can be extended or cut short to another one. -/
theorem codec_bijective :
    (∀ frame, (∃ e, encode frame = .error e) ↔
      ∃ peers, frame = .findNodeResp peers ∧ 255 < peers.length) ∧
    (∀ frame bytes, encode frame = .ok bytes → decode bytes = .ok frame.onWire) ∧
    (∀ bytes frame, decode bytes = .ok frame → encode frame = .ok bytes) ∧
    (∀ bytes bytes' frame, decode bytes = .ok frame → decode bytes' = .ok frame →
      bytes = bytes') ∧
    (∀ bytes tail frame frame', decode bytes = .ok frame → decode (bytes ++ tail) = .ok frame' →
      tail = []) := by
  refine ⟨encode_fails_iff, ?_, ?_, ?_, ?_⟩
  · intro frame bytes h
    refine decode_eq_ok_iff.mpr ⟨?_, Frame.onWire_onWire frame⟩
    rw [encode_onWire, h]
  · intro bytes frame h
    exact (decode_eq_ok_iff.mp h).1
  · intro bytes bytes' frame h h'
    have hbytes := (decode_eq_ok_iff.mp h).1
    rw [(decode_eq_ok_iff.mp h').1] at hbytes
    exact (Except.ok.inj hbytes).symm
  · intro bytes tail frame frame' h h'
    exact eq_nil_of_decode_append h h'

/-- An answer with a peer of each address family, the second with a scope. -/
def mixedResp : Frame :=
  .findNodeResp [(⟨Arr.replicate 32 1⟩, .v4 ⟨Arr.replicate 4 10, 4001⟩),
    (⟨Arr.replicate 32 2⟩, .v6 ⟨Arr.replicate 16 0xfe, 4002, 0, 7⟩)]

/-- The bytes of `mixedResp`. -/
def mixedRespBytes : Bytes :=
  [3, 2] ++ List.replicate 32 1 ++ [4, 10, 10, 10, 10, 0x0f, 0xa1] ++ List.replicate 32 2 ++
    [6] ++ List.replicate 16 0xfe ++ [0x0f, 0xa2]

theorem codec_bijective_mixed :
    encode mixedResp = .ok mixedRespBytes ∧ mixedResp.onWire ≠ mixedResp ∧
      decode mixedRespBytes = .ok mixedResp.onWire ∧
      encode mixedResp.onWire = .ok mixedRespBytes := by
  have henc : encode mixedResp = .ok mixedRespBytes := by decide +kernel
  have hdec := codec_bijective.2.1 mixedResp mixedRespBytes henc
  exact ⟨henc, by decide +kernel, hdec, codec_bijective.2.2.1 _ _ hdec⟩

end Kad

end Libp2pCat
