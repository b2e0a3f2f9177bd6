import Libp2pCat.Pubsub.Auth

/-!
What the pubsub wire format guarantees, for each stock authenticator.

* `decode_eq_ok_iff`: the reader accepts exactly the written frames whose dimensions and tag fit
  their fields and whose piece bytes the coder parses with the announced piece count.
* `frames_round_trip`: a piece of the announced dimensions comes back from its frame.
* `decode_conforms_iff`: the reader hands out a piece of exactly the announced dimensions when the
  string has the length its fields announce; `decode_short_piece`: the piece byte length is
  not compared with what follows.
-/

namespace Libp2pCat.Pubsub

open ByteString

/-! ### The layout -/

/-- A frame with its commitment and tag, field by field. -/
def layout (A : PubsubAuth) (frame : PubsubFrame) (commitment : A.Commitment) (tag : A.Tag) :
    Bytes :=
  UInt8.ofNat frame.topic.asBytes.length :: (frame.topic.asBytes ++ (beBytes 4 frame.pieceCount ++
    (beBytes 4 frame.pieceByteLen ++ (A.commitmentToVec commitment ++
      (A.tagToVec tag ++ frame.pieceBytes)))))

variable {R : Rlnc} {A : PubsubAuth} {fits : Set A.Tag}

lemma Topic.length_asBytes_lt (topic : Topic) : topic.asBytes.length < 256 :=
  Nat.lt_succ_of_le topic.short

lemma Topic.new_eq_ok_iff {name : String} {topic : Topic} :
    Topic.new name = .ok topic ↔ topic.asStr = name := by
  constructor
  · intro h
    rw [Topic.new] at h
    split at h
    · obtain rfl := Except.ok.inj h
      rfl
    · cases h
  · rintro rfl
    exact Topic.new_asStr topic

lemma parse4_eq_ok_iff {bs : Bytes} {n : ℕ} :
    parse4 bs = .ok n ↔ n < 2 ^ 32 ∧ bs = beBytes 4 n := by
  simp only [parse4, Except.bind_eq_ok_iff, okOr_eq_ok_iff, Arr.tryFrom_eq_some_iff]
  constructor
  · rintro ⟨arr, rfl, h⟩
    obtain rfl := Except.ok.inj h
    have hlt := ofBe_lt arr.bytes
    have hback := beBytes_ofBe arr.bytes
    rw [arr.length_bytes] at hlt hback
    exact ⟨hlt, hback.symm⟩
  · rintro ⟨hn, rfl⟩
    exact ⟨Arr.ofBytes _ (length_beBytes 4 n), rfl, congrArg Except.ok (ofBe_beBytes_of_lt hn)⟩

/-- A frame is written field by field when its dimensions fit. -/
lemma encode_eq_ok_iff {topic : Topic} {k b : ℕ} {wp : WirePiece A} {bytes : Bytes} :
    encode R A topic k b wp = .ok bytes ↔ k < 2 ^ 32 ∧ b < 2 ^ 32 ∧
      bytes = layout A ⟨topic, k, b, R.pieceToBytes wp.piece⟩ wp.commitment wp.tag := by
  have htopic : ¬256 ≤ topic.asBytes.length := Nat.not_le.mpr topic.length_asBytes_lt
  simp only [encode, if_neg htopic]
  by_cases hk : 2 ^ 32 ≤ k
  · rw [if_pos hk]
    exact ⟨fun h => (nomatch h), fun h => absurd h.1 (Nat.not_lt.mpr hk)⟩
  · by_cases hb : 2 ^ 32 ≤ b
    · rw [if_neg hk, if_pos hb]
      exact ⟨fun h => (nomatch h), fun h => absurd h.2.1 (Nat.not_lt.mpr hb)⟩
    · rw [if_neg hk, if_neg hb]
      simp only [Except.ok.injEq, Nat.not_le.mp hk, Nat.not_le.mp hb, true_and]
      exact eq_comm

/-- A string cut where the reader of a frame cuts it. -/
lemma header_cut {s : Bytes} {c : UInt8} {n : ℕ} (hc : s.head? = some c) :
    s = c :: ((s.drop 1).take n ++ ((s.drop (1 + n)).take 4 ++ ((s.drop (1 + n + 4)).take 4 ++
      s.drop (1 + n + 8)))) := by
  obtain ⟨rest, rfl⟩ := List.head?_eq_some_iff.mp hc
  have hcut (m : ℕ) : (c :: rest).drop (1 + m) = rest.drop m := by
    rw [Nat.add_comm, List.drop_succ_cons]
  rw [Nat.add_assoc, Nat.add_assoc, hcut, hcut, hcut, List.drop_one, List.tail_cons]
  conv_lhs => rw [← List.take_append_drop n rest, ← List.take_append_drop 4 (rest.drop n),
    ← List.take_append_drop 4 ((rest.drop n).drop 4)]
  simp only [List.drop_drop]

/-- A written frame is read back. -/
lemma decode_layout (hA : A.ReadsBack fits) {frame : PubsubFrame} {wp : WirePiece A}
    (hk : frame.pieceCount < 2 ^ 32) (hb : frame.pieceByteLen < 2 ^ 32) (hfits : wp.tag ∈ fits)
    (hpiece : R.pieceFromBytes frame.pieceBytes frame.pieceCount = .ok wp.piece) :
    decode R A (layout A frame wp.commitment wp.tag) = .ok (frame, wp) := by
  have hn : (UInt8.ofNat frame.topic.asBytes.length).toNat = frame.topic.asBytes.length :=
    UInt8.toNat_ofNat_of_lt' frame.topic.length_asBytes_lt
  have htopic : textOf frame.topic.asBytes = some frame.topic.asStr :=
    textOf_eq_some_iff.mpr rfl
  rw [layout]
  set c := UInt8.ofNat frame.topic.asBytes.length
  set t := frame.topic.asBytes
  set auth := A.commitmentToVec wp.commitment ++ (A.tagToVec wp.tag ++ frame.pieceBytes)
  set kb := beBytes 4 frame.pieceCount
  set bb := beBytes 4 frame.pieceByteLen
  have hkb : kb.length = 4 := length_beBytes _ _
  have hbb : bb.length = 4 := length_beBytes _ _
  have hslice : sliceRange (c :: (t ++ (kb ++ (bb ++ auth)))) 1 (1 + t.length) = some t :=
    sliceRange_append (s := [c]) rfl rfl
  have hkSlice : sliceRange (c :: (t ++ (kb ++ (bb ++ auth)))) (1 + t.length) (1 + t.length + 4)
      = some kb :=
    sliceRange_append (s := c :: t) (by rw [List.length_cons, Nat.add_comm]) (by rw [hkb])
  have hbSlice : sliceRange (c :: (t ++ (kb ++ (bb ++ auth)))) (1 + t.length + 4)
      (1 + t.length + 8) = some bb := by
    have hcut : c :: (t ++ (kb ++ (bb ++ auth))) = (c :: (t ++ kb)) ++ (bb ++ auth) := by simp
    rw [hcut]
    refine sliceRange_append ?_ ?_
    · rw [List.length_cons, List.length_append]
      omega
    · omega
  have hauth : sliceFrom (c :: (t ++ (kb ++ (bb ++ auth)))) (1 + t.length + KB_LEN)
      = some auth := by
    have hcut : c :: (t ++ (kb ++ (bb ++ auth))) = (c :: (t ++ (kb ++ bb))) ++ auth := by simp
    rw [hcut]
    refine sliceFrom_append ?_
    rw [List.length_cons, List.length_append, List.length_append, KB_LEN]
    omega
  have hparseK : parse4 kb = .ok frame.pieceCount := parse4_eq_ok_iff.mpr ⟨hk, rfl⟩
  have hparseB : parse4 bb = .ok frame.pieceByteLen := parse4_eq_ok_iff.mpr ⟨hb, rfl⟩
  have hcommit := hA.commitment.read_append (Set.mem_univ wp.commitment)
    (A.tagToVec wp.tag ++ frame.pieceBytes)
  have hlen : ¬(c :: (t ++ (kb ++ (bb ++ auth)))).length < 1 + t.length + KB_LEN := by
    have hle := (sliceFrom_eq_some_iff.mp hauth).1
    omega
  simp only [decode, List.head?_cons, okOr_some, Except.ok_bind, hn, if_neg hlen, hslice, hkSlice,
    hbSlice, hauth, htopic, Topic.new_asStr, hparseK, hparseB, hcommit, auth, sliceFrom_append rfl,
    hA.tag.read_append hfits, hpiece]
  rfl

/-- The reader accepts exactly the written frames whose dimensions and tag fit their fields and
whose piece bytes the coder parses with the announced piece count. -/
lemma decode_eq_ok_iff (hA : A.ReadsBack fits) {s : Bytes} {frame : PubsubFrame}
    {wp : WirePiece A} :
    decode R A s = .ok (frame, wp) ↔ frame.pieceCount < 2 ^ 32 ∧ frame.pieceByteLen < 2 ^ 32 ∧
      wp.tag ∈ fits ∧ s = layout A frame wp.commitment wp.tag ∧
      R.pieceFromBytes frame.pieceBytes frame.pieceCount = .ok wp.piece := by
  constructor
  · intro h
    simp only [decode, Except.bind_eq_ok_iff, okOr_eq_ok_iff] at h
    obtain ⟨c, hc, h⟩ := h
    split at h
    · cases h
    · simp only [Except.bind_eq_ok_iff, okOr_eq_ok_iff, sliceRange_eq_some_iff,
        sliceFrom_eq_some_iff, textOf_eq_some_iff, Topic.new_eq_ok_iff, parse4_eq_ok_iff,
        Except.mapError_eq_ok_iff, Nat.add_sub_cancel_left] at h
      obtain ⟨_, ⟨⟨-, hlen⟩, rfl⟩, _, hname, topic, rfl, _, ⟨-, rfl⟩, _, ⟨-, rfl⟩, k, ⟨hk, hkb⟩, b,
        ⟨hb, hbb⟩, _, ⟨-, rfl⟩, ⟨commitment, n⟩, hcommit, _, ⟨-, rfl⟩, ⟨tag, m⟩, htag, _, ⟨-, rfl⟩,
        piece, hpiece, hout⟩ := h
      obtain ⟨rfl, rfl⟩ := Prod.mk.inj (Except.ok.inj hout)
      have hn : topic.asBytes.length = c.toNat := by
        rw [Topic.asBytes, hname, List.length_take, List.length_drop]
        omega
      obtain ⟨-, hafter⟩ := hA.commitment.eq_append_drop hcommit
      obtain ⟨hfits, hrest⟩ := hA.tag.eq_append_drop htag
      refine ⟨hk, hb, hfits, ?_, hpiece⟩
      conv_lhs => rw [header_cut (n := c.toNat) hc]
      rw [layout, hn, UInt8.ofNat_toNat, Topic.asBytes, hname, ← hkb, ← hbb, ← hrest, ← hafter,
        show 1 + c.toNat + 8 - (1 + c.toNat + 4) = 4 from by omega]
  · rintro ⟨hk, hb, hfits, rfl, hpiece⟩
    exact decode_layout hA hk hb hfits hpiece

/-! ### Round trips -/

/-- What the round trip of a frame needs of the coder: a piece is written as its coefficients and
its data, and comes back when it is read with its number of coefficients. -/
structure Rlnc.ReadsPiecesBack (R : Rlnc) : Prop where
  pieceToBytes : ∀ p, R.pieceToBytes p = p.codingVector ++ p.data
  pieceFromBytes : ∀ p, R.pieceFromBytes (R.pieceToBytes p) p.codingVector.length = .ok p

/-- The frame of a piece exists, and everything in it comes back from it. -/
def RoundTrips (R : Rlnc) (A : PubsubAuth) (topic : Topic) (k b : ℕ) (wp : WirePiece A) : Prop :=
  ∃ bytes, encode R A topic k b wp = .ok bytes ∧
    decode R A bytes = .ok (⟨topic, k, b, R.pieceToBytes wp.piece⟩, wp)

lemma roundTrips_of_readsBack (hR : R.ReadsPiecesBack) (hA : A.ReadsBack fits) {topic : Topic}
    {k b : ℕ} {wp : WirePiece A} (hk : k < 2 ^ 32) (hb : b < 2 ^ 32)
    (hcount : wp.piece.codingVector.length = k) (hfits : wp.tag ∈ fits) :
    RoundTrips R A topic k b wp := by
  refine ⟨_, encode_eq_ok_iff.mpr ⟨hk, hb, rfl⟩, decode_layout hA hk hb hfits ?_⟩
  rw [← hcount]
  exact hR.pieceFromBytes wp.piece

/-- With each stock authenticator, a piece of the announced piece count has a frame, and topic,
dimensions, piece bytes, commitment, tag and piece come back from it; with lattice signatures,
when the number of entries fits its prefix. -/
theorem frames_round_trip (hR : R.ReadsPiecesBack) (topic : Topic) (k b : ℕ) (hk : k < 2 ^ 32)
    (hb : b < 2 ^ 32) (piece : CodedPiece) (hcount : piece.codingVector.length = k) :
    RoundTrips R nullAuthenticator topic k b ⟨(), piece, ()⟩ ∧
    (∀ verify tagOf commitment tag,
      RoundTrips R (keyedHashAuthenticator verify tagOf) topic k b ⟨commitment, piece, tag⟩) ∧
    (∀ verify tagOf commitment (tag : LhsSignature), tag.sigma.length ≤ 2 ^ 32 - 1 →
      RoundTrips R (latticeHomomorphicAuthenticator verify tagOf) topic k b
        ⟨commitment, piece, tag⟩) := by
  refine ⟨?_, ?_, ?_⟩
  · exact roundTrips_of_readsBack hR nullAuthenticator_readsBack hk hb hcount (Set.mem_univ _)
  · intro verify tagOf commitment tag
    exact roundTrips_of_readsBack hR keyedHashAuthenticator_readsBack hk hb hcount (Set.mem_univ _)
  · intro verify tagOf commitment tag htag
    refine roundTrips_of_readsBack hR latticeHomomorphicAuthenticator_readsBack hk hb hcount ?_
    exact Nat.lt_of_le_pred (by norm_num) htag

lemma sampleRlnc_readsPiecesBack : sampleRlnc.ReadsPiecesBack where
  pieceToBytes _ := rfl
  pieceFromBytes p := by
    have hlen : ¬(p.codingVector ++ p.data).length < p.codingVector.length := by
      rw [List.length_append]
      omega
    simp only [sampleRlnc, if_neg hlen, List.take_left, List.drop_left]

/-- A topic for runs. -/
def chatTopic : Topic := ⟨"chat", by decide, by decide, by decide⟩

/-- A piece of one coefficient and two bytes, with a signature of three entries. -/
theorem frames_round_trip_chat :
    sampleRlnc.ReadsPiecesBack ∧ (3 : ℕ) ≤ 2 ^ 32 - 1 ∧
      RoundTrips sampleRlnc
        (latticeHomomorphicAuthenticator (fun _ _ _ => .ok ()) fun _ _ => ⟨[]⟩) chatTopic 1 2
        ⟨Arr.replicate 32 7, ⟨[3], [4, 5]⟩, ⟨[1, -1, 256]⟩⟩ := by
  refine ⟨sampleRlnc_readsPiecesBack, by norm_num, ?_⟩
  have hall := frames_round_trip sampleRlnc_readsPiecesBack chatTopic 1 2 (by norm_num)
    (by norm_num) ⟨[3], [4, 5]⟩ rfl
  exact hall.2.2 _ _ _ _ (by norm_num)

/-! ### What is accepted -/

/-- What the reader of a frame relies on in the coder: a piece is written as its coefficients and
its data, and a piece that is read has the announced number of coefficients and the rest as data. -/
structure Rlnc.SplitsPieces (R : Rlnc) : Prop where
  pieceToBytes : ∀ p, R.pieceToBytes p = p.codingVector ++ p.data
  pieceFromBytes : ∀ {bytes k p}, R.pieceFromBytes bytes k = .ok p →
    k ≤ bytes.length ∧ p = ⟨bytes.take k, bytes.drop k⟩

/-- A string is a frame as documented: the fields in their order, a printable topic of 1 to 255
bytes, a piece of the announced dimensions, and the encoding of what was read off it. -/
structure Conforms (R : Rlnc) (A : PubsubAuth) (s : Bytes) (frame : PubsubFrame)
    (wp : WirePiece A) : Prop where
  fields : s = layout A frame wp.commitment wp.tag
  topicLen : 1 ≤ frame.topic.asBytes.length ∧ frame.topic.asBytes.length ≤ MAX_TOPIC_LEN
  topicAscii : ∀ c ∈ frame.topic.asBytes, printable c = true
  pieceLen : frame.pieceBytes.length = frame.pieceCount + frame.pieceByteLen
  pieceCount : wp.piece.codingVector.length = frame.pieceCount
  pieceByteLen : wp.piece.data.length = frame.pieceByteLen
  encoded : encode R A frame.topic frame.pieceCount frame.pieceByteLen wp = .ok s

/-- The length a string announces in its fields: the header, the authenticator's block and a piece
of the two dimensions. -/
def announcedLength (authWidth : Bytes → ℕ) (s : Bytes) : ℕ :=
  let topicLen := (s.headD 0).toNat
  let kSlice := (s.drop (1 + topicLen)).take 4
  let bSlice := (s.drop (1 + topicLen + 4)).take 4
  1 + topicLen + KB_LEN + authWidth (s.drop (1 + topicLen + KB_LEN)) + ofBe kSlice + ofBe bSlice

/-- The commitment and the tag of the keyed hash. -/
def keyedHashWidth (_ : Bytes) : ℕ := BLAKE3_FINGERPRINT_LEN + KEYED_HASH_TAG_LEN

/-- The commitment, the length prefix and the announced number of entries. -/
def latticeWidth (auth : Bytes) : ℕ :=
  BLAKE3_FINGERPRINT_LEN + LHS_TAG_LEN_PREFIX + LHS_TAG_ENTRY_LEN *
    ofBe ((auth.drop BLAKE3_FINGERPRINT_LEN).take LHS_TAG_LEN_PREFIX)

/-- A written frame announces its own length, but for the piece: that is announced by the two
dimensions. -/
lemma announcedLength_layout {authWidth : Bytes → ℕ} {frame : PubsubFrame}
    {commitment : A.Commitment} {tag : A.Tag} (hk : frame.pieceCount < 2 ^ 32)
    (hb : frame.pieceByteLen < 2 ^ 32)
    (hwidth : authWidth (A.commitmentToVec commitment ++ (A.tagToVec tag ++ frame.pieceBytes))
      = (A.commitmentToVec commitment).length + (A.tagToVec tag).length) :
    announcedLength authWidth (layout A frame commitment tag) + frame.pieceBytes.length
      = (layout A frame commitment tag).length + (frame.pieceCount + frame.pieceByteLen) := by
  have hn : (UInt8.ofNat frame.topic.asBytes.length).toNat = frame.topic.asBytes.length :=
    UInt8.toNat_ofNat_of_lt' frame.topic.length_asBytes_lt
  have hdrop (c : UInt8) (m : ℕ) (rest : Bytes) :
      (c :: (frame.topic.asBytes ++ rest)).drop (1 + frame.topic.asBytes.length + m)
        = rest.drop m := by
    rw [Nat.add_assoc, Nat.add_comm, List.drop_succ_cons, List.drop_length_add_append]
  have hkSlice := hdrop (UInt8.ofNat frame.topic.asBytes.length) 0
  rw [Nat.add_zero] at hkSlice
  have hauth (rest : Bytes) : (beBytes 4 frame.pieceCount ++
      (beBytes 4 frame.pieceByteLen ++ rest)).drop KB_LEN = rest := by
    rw [← List.append_assoc]
    exact List.drop_left' rfl
  have hkOf : ofBe (beBytes 4 frame.pieceCount) = frame.pieceCount := ofBe_beBytes_of_lt hk
  have hbOf : ofBe (beBytes 4 frame.pieceByteLen) = frame.pieceByteLen := ofBe_beBytes_of_lt hb
  rw [layout, announcedLength, List.headD_cons, hn]
  simp only [hkSlice, hdrop, List.drop_zero, List.take_left' (length_beBytes 4 _),
    List.drop_left' (length_beBytes 4 _), hauth, hkOf, hbOf, hwidth, List.length_cons,
    List.length_append, length_beBytes, KB_LEN]
  omega

/-- With an authenticator whose block announces its width, the reader hands out a conforming frame
exactly when the string has the length it announces. -/
lemma conforms_iff_length_eq (hR : R.SplitsPieces) (hA : A.ReadsBack fits)
    {authWidth : Bytes → ℕ} (hwidth : ∀ commitment, ∀ tag ∈ fits, ∀ rest,
      authWidth (A.commitmentToVec commitment ++ (A.tagToVec tag ++ rest))
        = (A.commitmentToVec commitment).length + (A.tagToVec tag).length)
    {s : Bytes} {frame : PubsubFrame} {wp : WirePiece A} (h : decode R A s = .ok (frame, wp)) :
    Conforms R A s frame wp ↔ s.length = announcedLength authWidth s := by
  obtain ⟨hk, hb, hfits, rfl, hpiece⟩ := (decode_eq_ok_iff hA).mp h
  obtain ⟨hle, hsplit⟩ := hR.pieceFromBytes hpiece
  have hannounced := announcedLength_layout hk hb (hwidth wp.commitment wp.tag hfits
    frame.pieceBytes)
  constructor
  · intro hconf
    have hlen := hconf.pieceLen
    omega
  · intro hlen
    have hpieceLen : frame.pieceBytes.length = frame.pieceCount + frame.pieceByteLen := by
      omega
    refine ⟨rfl, ⟨List.length_pos_iff.mpr frame.topic.nonempty, frame.topic.short⟩,
      List.all_eq_true.mp frame.topic.ascii, hpieceLen, ?_, ?_, ?_⟩
    · rw [hsplit, List.length_take, Nat.min_eq_left hle]
    · rw [hsplit, List.length_drop]
      omega
    · refine encode_eq_ok_iff.mpr ⟨hk, hb, ?_⟩
      rw [hR.pieceToBytes, hsplit, List.take_append_drop]

lemma latticeWidth_append {commitment : Arr BLAKE3_FINGERPRINT_LEN} {tag : LhsSignature}
    (h : tag.sigma.length < 2 ^ 32) (rest : Bytes) :
    latticeWidth (commitment.bytes ++ (lhsTagToVec tag ++ rest))
      = commitment.bytes.length + (lhsTagToVec tag).length := by
  have hcount : ofBe (beBytes LHS_TAG_LEN_PREFIX tag.sigma.length) = tag.sigma.length :=
    ofBe_beBytes_of_lt h
  rw [latticeWidth, List.drop_left' commitment.length_bytes, length_lhsTagToVec h,
    lhsTagToVec_of_lt h, List.append_assoc, List.take_left' (length_beBytes _ _), hcount,
    commitment.length_bytes]
  ring

/-- With each stock authenticator, a string the reader accepts is a frame as documented exactly
when it has the length its fields announce: the piece byte length is read and handed on, but
nothing compares it with the data of the piece. -/
theorem decode_conforms_iff (hR : R.SplitsPieces) :
    (∀ s frame wp, decode R nullAuthenticator s = .ok (frame, wp) →
      (Conforms R nullAuthenticator s frame wp ↔ s.length = announcedLength (fun _ => 0) s)) ∧
    (∀ verify tagOf s frame wp,
      decode R (keyedHashAuthenticator verify tagOf) s = .ok (frame, wp) →
      (Conforms R (keyedHashAuthenticator verify tagOf) s frame wp ↔
        s.length = announcedLength keyedHashWidth s)) ∧
    (∀ verify tagOf s frame wp,
      decode R (latticeHomomorphicAuthenticator verify tagOf) s = .ok (frame, wp) →
      (Conforms R (latticeHomomorphicAuthenticator verify tagOf) s frame wp ↔
        s.length = announcedLength latticeWidth s)) := by
  refine ⟨?_, ?_, ?_⟩
  · intro s frame wp h
    exact conforms_iff_length_eq hR nullAuthenticator_readsBack (fun _ _ _ _ => rfl) h
  · intro verify tagOf s frame wp h
    refine conforms_iff_length_eq hR keyedHashAuthenticator_readsBack ?_ h
    intro commitment tag _ rest
    exact (congrArg₂ _ commitment.length_bytes tag.length_bytes).symm
  · intro verify tagOf s frame wp h
    refine conforms_iff_length_eq hR latticeHomomorphicAuthenticator_readsBack ?_ h
    intro commitment tag htag rest
    exact latticeWidth_append htag rest

lemma sampleRlnc_splitsPieces : sampleRlnc.SplitsPieces where
  pieceToBytes _ := rfl
  pieceFromBytes {bytes k p} h := by
    simp only [sampleRlnc] at h
    split at h
    · cases h
    · rename_i hlen
      exact ⟨Nat.not_lt.mp hlen, (Except.ok.inj h).symm⟩

/-- The topic `"t"`, a piece count of 1 and the given piece byte length, followed by two bytes. -/
def twoByteFrame (b : UInt8) : Bytes := [1, 0x74, 0, 0, 0, 1, 0, 0, 0, b, 5, 6]

/-- The frame read off these bytes. -/
def twoByteRead (b : ℕ) : PubsubFrame × WirePiece nullAuthenticator :=
  (⟨sampleTopic, 1, b, [5, 6]⟩, ⟨(), ⟨[5], [6]⟩, ()⟩)

theorem decode_conforms_iff_two :
    sampleRlnc.SplitsPieces ∧
      decode sampleRlnc nullAuthenticator (twoByteFrame 1) = .ok (twoByteRead 1) ∧
      Conforms sampleRlnc nullAuthenticator (twoByteFrame 1) (twoByteRead 1).1
        (twoByteRead 1).2 := by
  have hdec : decode sampleRlnc nullAuthenticator (twoByteFrame 1) = .ok (twoByteRead 1) := rfl
  refine ⟨sampleRlnc_splitsPieces, hdec, ?_⟩
  exact ((decode_conforms_iff sampleRlnc_splitsPieces).1 _ _ _ hdec).mpr rfl

/-- A frame is accepted whose piece is eight bytes shorter than announced. -/
theorem decode_short_piece :
    ¬∀ s frame wp, decode sampleRlnc nullAuthenticator s = .ok (frame, wp) →
      Conforms sampleRlnc nullAuthenticator s frame wp := by
  intro hall
  have hdec : decode sampleRlnc nullAuthenticator (twoByteFrame 9) = .ok (twoByteRead 9) := rfl
  have hlen := (hall _ _ _ hdec).pieceLen
  exact absurd hlen (by decide)

end Libp2pCat.Pubsub
