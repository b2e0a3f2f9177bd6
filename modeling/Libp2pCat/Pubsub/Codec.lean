import Libp2pCat.Types
import Libp2pCat.Lib.Effect

/-!
`libp2p-cat-pubsub`: topics, authenticators and the wire format of the pubsub frames
(`topic.rs`, `auth.rs`, `codec.rs`).

* `Topic`: a topic name carries the proof that it is 1 to 255 printable ASCII bytes.
* `Rlnc`: the functions of `rlnc-cat-rs` the crate calls, left as parameters; `sampleRlnc` can
  be run.
* `PubsubAuth`: an authenticator; `nullAuthenticator` is the one without tags.
* `encode`, `decode`: the format, with every error text.
-/

namespace Libp2pCat.Pubsub

open ByteString

/-! ### Topics -/

/-- The most bytes a topic name may have. -/
abbrev MAX_TOPIC_LEN : ℕ := 255

/-- A byte of printable ASCII. -/
def printable (b : UInt8) : Bool := 0x21 ≤ b && b ≤ 0x7E

/-- A validated topic name. -/
structure Topic where
  asStr : String
  nonempty : ofText asStr ≠ []
  short : (ofText asStr).length ≤ MAX_TOPIC_LEN
  ascii : (ofText asStr).all printable = true

namespace Topic

/-- The bytes of the name. -/
def asBytes (topic : Topic) : Bytes := ofText topic.asStr

/-- The topic with a name. -/
def new (name : String) : Except Error Topic :=
  if h : ofText name ≠ [] ∧ (ofText name).length ≤ MAX_TOPIC_LEN ∧
      (ofText name).all printable = true then
    .ok ⟨name, h.1, h.2.1, h.2.2⟩
  else
    .error (.pubsubProtocol
      s!"topic must be 1..={MAX_TOPIC_LEN} printable ASCII bytes, got {(ofText name).length}")

@[simp] lemma new_asStr (topic : Topic) : new topic.asStr = .ok topic := by
  rw [new, dif_pos ⟨topic.nonempty, topic.short, topic.ascii⟩]

lemma asBytes_injective : Function.Injective asBytes := by
  intro a b h
  have hstr : a.asStr = b.asStr := ofText_injective h
  cases a
  cases b
  simp_all

instance : DecidableEq Topic := fun a b =>
  decidable_of_iff (a.asBytes = b.asBytes) asBytes_injective.eq_iff

/-- Topics are ordered as their bytes are. -/
instance : Ord Topic := ⟨compareOn asBytes⟩

instance : Std.TransOrd Topic := inferInstanceAs (Std.TransCmp (compareOn asBytes))

instance : Std.LawfulEqOrd Topic where
  eq_of_compare h := asBytes_injective (Std.LawfulEqOrd.eq_of_compare h)

end Topic

/-- A topic. -/
def sampleTopic : Topic := ⟨"t", by decide, by decide, by decide⟩

/-! ### Pieces and authenticators -/

/-- An RLNC-coded piece: its coefficients and its data, as bytes of GF(2^8). -/
structure CodedPiece where
  codingVector : Bytes
  data : Bytes
  deriving DecidableEq

/-- The functions of `rlnc-cat-rs`; errors are given by the text they print. -/
structure Rlnc where
  DecoderState : Type
  /-- `DecoderState::new(piece_count, piece_byte_len)`. -/
  newDecoder : ℕ → ℕ → DecoderState
  absorb : DecoderState → CodedPiece → Except String DecoderState
  isComplete : DecoderState → Bool
  usefulCount : DecoderState → ℕ
  decode : DecoderState → Except String Bytes
  Recoder : Type
  /-- `Recoder::new(piece_count, piece_byte_len)`. -/
  newRecoder : ℕ → ℕ → Recoder
  addPiece : Recoder → CodedPiece → Except String Recoder
  /-- A random combination of the buffered pieces. -/
  recodeOne : Recoder → (ℕ → Except String Bytes) → Except String CodedPiece
  /-- The number of pieces a recoder holds. -/
  buffered : Recoder → ℕ
  /-- `CodedPiece::to_bytes`. -/
  pieceToBytes : CodedPiece → Bytes
  /-- `CodedPiece::from_bytes(bytes, piece_count)`. -/
  pieceFromBytes : Bytes → ℕ → Except String CodedPiece

/-- A decoder of the given dimensions, with pieces absorbed. -/
inductive Rlnc.Absorbed (R : Rlnc) (k b : ℕ) : R.DecoderState → Prop where
  | new : Absorbed R k b (R.newDecoder k b)
  | absorb {d d' : R.DecoderState} {p : CodedPiece} :
      Absorbed R k b d → R.absorb d p = .ok d' → Absorbed R k b d'

/-- A recoder of the given dimensions, with pieces added. -/
inductive Rlnc.Collected (R : Rlnc) (k b : ℕ) : R.Recoder → Prop where
  | new : Collected R k b (R.newRecoder k b)
  | addPiece {r r' : R.Recoder} {p : CodedPiece} :
      Collected R k b r → R.addPiece r p = .ok r' → Collected R k b r'

/-- Decoders and recoders refuse pieces of other dimensions than their own. -/
structure Rlnc.ChecksDimensions (R : Rlnc) : Prop where
  absorb : ∀ {k b d p}, R.Absorbed k b d → p.codingVector.length ≠ k ∨ p.data.length ≠ b →
    ∃ e, R.absorb d p = .error e
  addPiece : ∀ {k b r p}, R.Collected k b r → p.codingVector.length ≠ k ∨ p.data.length ≠ b →
    ∃ e, R.addPiece r p = .error e

/-- A decoder of the sample coder: its dimensions and the pieces that raised the rank. -/
structure SampleDecoder where
  pieceCount : ℕ
  pieceByteLen : ℕ
  pieces : List CodedPiece
  deriving DecidableEq

/-- The piece has a coefficient where no stored piece has one. -/
def SampleDecoder.useful (d : SampleDecoder) (p : CodedPiece) : Bool :=
  decide (d.pieces.length < d.pieceCount) && (List.range d.pieceCount).any fun i =>
    (p.codingVector.getD i 0 != 0) && d.pieces.all fun q => q.codingVector.getD i 0 == 0

/-- Add a piece of the right dimensions if it is of use. -/
def SampleDecoder.absorb (d : SampleDecoder) (p : CodedPiece) : Except String SampleDecoder :=
  if p.codingVector.length ≠ d.pieceCount ∨ p.data.length ≠ d.pieceByteLen then
    .error "dimension mismatch"
  else .ok (if d.useful p then { d with pieces := d.pieces ++ [p] } else d)

/-- A coder that can be run: pieces of different coordinates are independent, and the random
combination is the piece stored last. -/
def sampleRlnc : Rlnc where
  DecoderState := SampleDecoder
  newDecoder k b := ⟨k, b, []⟩
  absorb := SampleDecoder.absorb
  isComplete d := decide (d.pieces.length = d.pieceCount)
  usefulCount d := d.pieces.length
  decode d := .ok (d.pieces.flatMap CodedPiece.data)
  Recoder := SampleDecoder
  newRecoder k b := ⟨k, b, []⟩
  addPiece d p :=
    if p.codingVector.length ≠ d.pieceCount ∨ p.data.length ≠ d.pieceByteLen then
      .error "dimension mismatch"
    else .ok { d with pieces := d.pieces ++ [p] }
  recodeOne d rng := do
    let _ ← rng d.pieces.length
    match d.pieces.getLast? with
    | some p => .ok p
    | none => .error "no pieces buffered"
  buffered d := d.pieces.length
  pieceToBytes p := p.codingVector ++ p.data
  pieceFromBytes bytes k :=
    if bytes.length < k then .error "piece bytes shorter than the coding vector"
    else .ok ⟨bytes.take k, bytes.drop k⟩

lemma sampleRlnc_absorb_eq_ok {d d' : SampleDecoder} {p : CodedPiece}
    (h : sampleRlnc.absorb d p = .ok d') :
    d'.pieceCount = d.pieceCount ∧ d'.pieceByteLen = d.pieceByteLen ∧
      (d' = d ∨ (d.pieces.length < d.pieceCount ∧ d'.pieces = d.pieces ++ [p])) := by
  simp only [sampleRlnc, SampleDecoder.absorb] at h
  split at h
  · cases h
  · split at h
    · rename_i huse
      cases h
      simp only [SampleDecoder.useful, Bool.and_eq_true, decide_eq_true_eq] at huse
      exact ⟨rfl, rfl, Or.inr ⟨huse.1, rfl⟩⟩
    · cases h
      exact ⟨rfl, rfl, Or.inl rfl⟩

lemma sampleRlnc_absorbed {k b : ℕ} {d : sampleRlnc.DecoderState}
    (h : sampleRlnc.Absorbed k b d) :
    SampleDecoder.pieceCount d = k ∧ SampleDecoder.pieceByteLen d = b ∧
      (SampleDecoder.pieces d).length ≤ k := by
  induction h with
  | new => exact ⟨rfl, rfl, Nat.zero_le _⟩
  | absorb _ habsorb ih =>
      obtain ⟨hk, hb, rfl | ⟨hlt, hpieces⟩⟩ := sampleRlnc_absorb_eq_ok habsorb
      · exact ih
      · refine ⟨hk.trans ih.1, hb.trans ih.2.1, ?_⟩
        rw [hpieces, List.length_append, List.length_singleton, ← ih.1]
        exact hlt

lemma sampleRlnc_collected {k b : ℕ} {r : sampleRlnc.Recoder} (h : sampleRlnc.Collected k b r) :
    SampleDecoder.pieceCount r = k ∧ SampleDecoder.pieceByteLen r = b := by
  induction h with
  | new => exact ⟨rfl, rfl⟩
  | addPiece _ hadd ih =>
      simp only [sampleRlnc] at hadd
      split at hadd
      · cases hadd
      · cases hadd
        exact ih

lemma sampleRlnc_checksDimensions : sampleRlnc.ChecksDimensions where
  absorb {k b d p} hd hdim := by
    obtain ⟨rfl, rfl, -⟩ := sampleRlnc_absorbed hd
    exact ⟨_, if_pos hdim⟩
  addPiece {k b r p} hr hdim := by
    obtain ⟨rfl, rfl⟩ := sampleRlnc_collected hr
    exact ⟨_, if_pos hdim⟩

/-- An authenticator with its keys, and the wire form of its commitments and tags; the readers
tell how many bytes they took. -/
structure PubsubAuth where
  Commitment : Type
  Tag : Type
  verify : Commitment → CodedPiece → Tag → Except String Unit
  tag : Commitment → CodedPiece → Tag
  commitmentToVec : Commitment → Bytes
  commitmentFromBytes : Bytes → Except Error (Commitment × ℕ)
  tagToVec : Tag → Bytes
  tagFromBytes : Bytes → Except Error (Tag × ℕ)

/-- The authenticator that accepts everything and takes no bytes. -/
def nullAuthenticator : PubsubAuth where
  Commitment := Unit
  Tag := Unit
  verify _ _ _ := .ok ()
  tag _ _ := ()
  commitmentToVec _ := []
  commitmentFromBytes _ := .ok ((), 0)
  tagToVec _ := []
  tagFromBytes _ := .ok ((), 0)

/-- A piece with its commitment and tag. -/
structure WirePiece (A : PubsubAuth) where
  commitment : A.Commitment
  piece : CodedPiece
  tag : A.Tag

/-! ### Frames -/

/-- Bytes of the two dimensions. -/
abbrev KB_LEN : ℕ := 8

/-- A parsed frame. -/
structure PubsubFrame where
  topic : Topic
  pieceCount : ℕ
  pieceByteLen : ℕ
  pieceBytes : Bytes

variable (R : Rlnc) (A : PubsubAuth)

/-- The bytes of a frame. -/
def encode (topic : Topic) (pieceCount pieceByteLen : ℕ) (wirePiece : WirePiece A) :
    Except Error Bytes :=
  let topicBytes := topic.asBytes
  if 256 ≤ topicBytes.length then
    .error (.pubsubProtocol s!"topic length {topicBytes.length} exceeds u8 range")
  else if 2 ^ 32 ≤ pieceCount then
    .error (.pubsubProtocol s!"piece_count {pieceCount} exceeds u32 range")
  else if 2 ^ 32 ≤ pieceByteLen then
    .error (.pubsubProtocol s!"piece_byte_len {pieceByteLen} exceeds u32 range")
  else
    .ok (UInt8.ofNat topicBytes.length :: (topicBytes ++ (beBytes 4 pieceCount ++
      (beBytes 4 pieceByteLen ++ (A.commitmentToVec wirePiece.commitment ++
        (A.tagToVec wirePiece.tag ++ R.pieceToBytes wirePiece.piece))))))

/-- Four bytes as a number. -/
def parse4 (slice : Bytes) : Except Error ℕ := do
  let arr ← okOr (Arr.tryFrom 4 slice) (.pubsubProtocol s!"expected 4 bytes, got {slice.length}")
  pure (ofBe arr.bytes)

/-- Parse a frame. -/
def decode (bytes : Bytes) : Except Error (PubsubFrame × WirePiece A) := do
  let topicLenByte ← okOr bytes.head? (.pubsubProtocol "frame missing topic length byte")
  let topicLen := topicLenByte.toNat
  let fixedHeaderEnd := 1 + topicLen + KB_LEN
  if bytes.length < fixedHeaderEnd then
    .error (.pubsubProtocol
      s!"frame too short for fixed header: {bytes.length} bytes, need {fixedHeaderEnd}")
  else do
    let topicSlice ← okOr (sliceRange bytes 1 (1 + topicLen))
      (.pubsubProtocol "frame topic slice unreadable")
    let topicString ← okOr (textOf topicSlice) (.pubsubProtocol "topic slice is not valid UTF-8")
    let topic ← Topic.new topicString
    let kSlice ← okOr (sliceRange bytes (1 + topicLen) (1 + topicLen + 4))
      (.pubsubProtocol "frame missing piece-count field")
    let bSlice ← okOr (sliceRange bytes (1 + topicLen + 4) (1 + topicLen + 8))
      (.pubsubProtocol "frame missing piece-byte-len field")
    let pieceCount ← parse4 kSlice
    let pieceByteLen ← parse4 bSlice
    let authBuffer ← okOr (sliceFrom bytes fixedHeaderEnd)
      (.pubsubProtocol "frame missing auth block")
    let (commitment, commitmentConsumed) ← A.commitmentFromBytes authBuffer
    let afterCommitment ← okOr (sliceFrom authBuffer commitmentConsumed)
      (.pubsubProtocol "frame missing tag block after commitment")
    let (tag, tagConsumed) ← A.tagFromBytes afterCommitment
    let pieceBytes ← okOr (sliceFrom afterCommitment tagConsumed)
      (.pubsubProtocol "frame missing piece body")
    let coded ← (R.pieceFromBytes pieceBytes pieceCount).mapError Error.rlncLayer
    pure (⟨topic, pieceCount, pieceByteLen, pieceBytes⟩, ⟨commitment, coded, tag⟩)

end Libp2pCat.Pubsub
