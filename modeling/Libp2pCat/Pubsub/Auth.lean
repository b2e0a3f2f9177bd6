import Libp2pCat.Pubsub.Codec
import Libp2pCat.Lib.Reader

/-!
`libp2p-cat-pubsub/src/auth.rs`: the wire form of the stock authenticators.

* `keyedHashAuthenticator`, `latticeHomomorphicAuthenticator`, beside `nullAuthenticator`; what
  their keys tag and verify is left as parameters.
* `PubsubAuth.ReadsBack`: the readers of an authenticator accept exactly the written commitments
  and tags; `nullAuthenticator_readsBack`, `keyedHashAuthenticator_readsBack` and
  `latticeHomomorphicAuthenticator_readsBack`: so do the stock ones, the last for signatures whose
  length fits its prefix.
* `lhsTagFromBytes_isOk_iff`, `lhs_tag_cursor`: the signature reader fails exactly on strings too
  short for what they announce.
-/

namespace Libp2pCat.Pubsub

open ByteString

/-! ### The authenticators -/

/-- Width of a BLAKE3 fingerprint. -/
abbrev BLAKE3_FINGERPRINT_LEN : ℕ := 32

/-- Width of a keyed-BLAKE3 tag. -/
abbrev KEYED_HASH_TAG_LEN : ℕ := 32

/-- Width of the length prefix of a lattice signature. -/
abbrev LHS_TAG_LEN_PREFIX : ℕ := 4

/-- Width of one entry of a lattice signature. -/
abbrev LHS_TAG_ENTRY_LEN : ℕ := 8

/-- A number that fits in `usize`. -/
def checkedUsize (n : ℕ) : Option ℕ := if n < 2 ^ 64 then some n else none

/-- A block of `n` bytes; `what` names it in the errors. -/
def blockFromBytes (n : ℕ) (what : String) (bytes : Bytes) : Except Error (Arr n × ℕ) := do
  let head ← okOr (sliceTo bytes n)
    (.pubsubProtocol s!"{what} needs {n} bytes, got {bytes.length}")
  let arr ← okOr (Arr.tryFrom n head) (.pubsubProtocol s!"{what} slice not {n} bytes wide")
  pure (arr, n)

/-- The authenticator that shares a key: commitments and tags are 32 bytes each. -/
def keyedHashAuthenticator
    (verify : Arr BLAKE3_FINGERPRINT_LEN → CodedPiece → Arr KEYED_HASH_TAG_LEN → Except String Unit)
    (tag : Arr BLAKE3_FINGERPRINT_LEN → CodedPiece → Arr KEYED_HASH_TAG_LEN) : PubsubAuth where
  Commitment := Arr BLAKE3_FINGERPRINT_LEN
  Tag := Arr KEYED_HASH_TAG_LEN
  verify := verify
  tag := tag
  commitmentToVec commitment := commitment.bytes
  commitmentFromBytes :=
    blockFromBytes BLAKE3_FINGERPRINT_LEN "KeyedHashAuthenticator commitment"
  tagToVec tag := tag.bytes
  tagFromBytes := blockFromBytes KEYED_HASH_TAG_LEN "KeyedHashAuthenticator tag"

/-- A lattice signature: the entries of its integer vector. -/
structure LhsSignature where
  sigma : List Int64
  deriving DecidableEq

/-- The eight bytes of an entry, least significant first. -/
def entryToBytes (e : Int64) : Bytes := leBytes LHS_TAG_ENTRY_LEN e.toUInt64.toNat

/-- The entry with the given bytes. -/
def entryOfBytes (bs : Bytes) : Int64 := (UInt64.ofNat (ofLe bs)).toInt64

/-- The number of entries and the entries; a number that does not fit its prefix is cut down. -/
def lhsTagToVec (tag : LhsSignature) : Bytes :=
  let lenPrefix := if tag.sigma.length < 2 ^ 32 then tag.sigma.length else 2 ^ 32 - 1
  beBytes LHS_TAG_LEN_PREFIX lenPrefix ++ tag.sigma.flatMap entryToBytes

/-- Read a lattice signature. -/
def lhsTagFromBytes (bytes : Bytes) : Except Error (LhsSignature × ℕ) := do
  let lenSlice ← okOr (sliceTo bytes LHS_TAG_LEN_PREFIX) (.pubsubProtocol
    s!"LHS tag needs {LHS_TAG_LEN_PREFIX}-byte length prefix, got {bytes.length}")
  let lenArr ← okOr (Arr.tryFrom LHS_TAG_LEN_PREFIX lenSlice) (.pubsubProtocol
    s!"LHS tag length-prefix slice not {LHS_TAG_LEN_PREFIX} bytes wide")
  let entryCountU32 := ofBe lenArr.bytes
  let entryCount ← okOr (checkedUsize entryCountU32) (.pubsubProtocol
    s!"LHS tag entry count {entryCountU32} does not fit usize")
  let bodyLen ← okOr (checkedUsize (entryCount * LHS_TAG_ENTRY_LEN)) (.pubsubProtocol
    s!"LHS tag entry count {entryCount} overflows when scaled by {LHS_TAG_ENTRY_LEN}")
  let bodyEnd ← okOr (checkedUsize (LHS_TAG_LEN_PREFIX + bodyLen)) (.pubsubProtocol
    s!"LHS tag body end overflows: {LHS_TAG_LEN_PREFIX} + {bodyLen}")
  let got := bytes.length - LHS_TAG_LEN_PREFIX
  let body ← okOr (sliceRange bytes LHS_TAG_LEN_PREFIX bodyEnd) (.pubsubProtocol
    s!"LHS tag body needs {bodyLen} bytes after length prefix, got {got}")
  let entries ← (chunksExact LHS_TAG_ENTRY_LEN body).mapM fun chunk => do
    let arr ← okOr (Arr.tryFrom LHS_TAG_ENTRY_LEN chunk) (.pubsubProtocol
      s!"LHS tag entry chunk not {LHS_TAG_ENTRY_LEN} bytes wide (unreachable)")
    pure (entryOfBytes arr.bytes)
  pure (⟨entries⟩, bodyEnd)

/-- The authenticator with homomorphic lattice signatures. -/
def latticeHomomorphicAuthenticator
    (verify : Arr BLAKE3_FINGERPRINT_LEN → CodedPiece → LhsSignature → Except String Unit)
    (tag : Arr BLAKE3_FINGERPRINT_LEN → CodedPiece → LhsSignature) : PubsubAuth where
  Commitment := Arr BLAKE3_FINGERPRINT_LEN
  Tag := LhsSignature
  verify := verify
  tag := tag
  commitmentToVec commitment := commitment.bytes
  commitmentFromBytes := blockFromBytes BLAKE3_FINGERPRINT_LEN "LHS commitment"
  tagToVec := lhsTagToVec
  tagFromBytes := lhsTagFromBytes

/-! ### Their readers -/

/-- The readers of an authenticator accept exactly the written commitments, and exactly the
written tags of a set. -/
structure PubsubAuth.ReadsBack (A : PubsubAuth) (fits : Set A.Tag) : Prop where
  commitment : ReadsExactly A.commitmentFromBytes A.commitmentToVec Set.univ
  tag : ReadsExactly A.tagFromBytes A.tagToVec fits

lemma nullAuthenticator_readsBack : nullAuthenticator.ReadsBack Set.univ := by
  have hunit : ReadsExactly (fun _ => (.ok ((), 0) : Except Error (Unit × ℕ))) (fun _ => [])
      Set.univ := by
    intro buf v n
    simp [eq_comm]
  exact ⟨hunit, hunit⟩

/-- A block of a fixed width is read back. -/
lemma blockFromBytes_readsExactly (n : ℕ) (what : String) :
    ReadsExactly (blockFromBytes n what) Arr.bytes Set.univ := by
  intro buf v m
  simp only [blockFromBytes, Except.bind_eq_ok_iff, okOr_eq_ok_iff, sliceTo_eq_some_iff,
    Arr.tryFrom_eq_some_iff, Set.mem_univ, Arr.length_bytes, true_and]
  constructor
  · rintro ⟨_, ⟨hlen, rfl⟩, arr, harr, hout⟩
    obtain ⟨rfl, rfl⟩ := Prod.mk.inj (Except.ok.inj hout)
    exact ⟨rfl, harr ▸ List.take_prefix _ _⟩
  · rintro ⟨rfl, rest, rfl⟩
    refine ⟨v.bytes, ⟨?_, List.take_left' v.length_bytes⟩, v, rfl, rfl⟩
    rw [List.length_append, v.length_bytes]
    exact Nat.le_add_right _ _

lemma keyedHashAuthenticator_readsBack
    {verify : Arr BLAKE3_FINGERPRINT_LEN → CodedPiece → Arr KEYED_HASH_TAG_LEN → Except String Unit}
    {tag : Arr BLAKE3_FINGERPRINT_LEN → CodedPiece → Arr KEYED_HASH_TAG_LEN} :
    (keyedHashAuthenticator verify tag).ReadsBack Set.univ :=
  ⟨blockFromBytes_readsExactly _ _, blockFromBytes_readsExactly _ _⟩

/-! ### Lattice signatures -/

@[simp] lemma length_entryToBytes (e : Int64) : (entryToBytes e).length = LHS_TAG_ENTRY_LEN :=
  length_leBytes _ _

lemma entryOfBytes_entryToBytes (e : Int64) : entryOfBytes (entryToBytes e) = e := by
  have hlt := e.toUInt64.toNat_lt
  rw [show 2 ^ 64 = 256 ^ LHS_TAG_ENTRY_LEN from by norm_num] at hlt
  rw [entryOfBytes, entryToBytes, ofLe_leBytes_of_lt hlt, UInt64.ofNat_toNat]
  rfl

lemma entryToBytes_entryOfBytes {bs : Bytes} (h : bs.length = LHS_TAG_ENTRY_LEN) :
    entryToBytes (entryOfBytes bs) = bs := by
  have hlt := ofLe_lt bs
  rw [h, show 256 ^ LHS_TAG_ENTRY_LEN = 2 ^ 64 from by norm_num] at hlt
  have hback : (UInt64.ofNat (ofLe bs)).toInt64.toUInt64.toNat = ofLe bs :=
    UInt64.toNat_ofNat_of_lt' hlt
  have hle := leBytes_ofLe bs
  rw [h] at hle
  rw [entryToBytes, entryOfBytes, hback, hle]

lemma checkedUsize_eq_some_iff {n m : ℕ} : checkedUsize n = some m ↔ n < 2 ^ 64 ∧ n = m := by
  rw [checkedUsize]
  split <;> simp_all

/-- The entries of a body of the right length are read off its chunks. -/
lemma mapM_entries {body : Bytes} {count : ℕ} (h : body.length = count * LHS_TAG_ENTRY_LEN)
    (e : Error) :
    ((chunksExact LHS_TAG_ENTRY_LEN body).mapM fun chunk => do
      let arr ← okOr (Arr.tryFrom LHS_TAG_ENTRY_LEN chunk) e
      pure (entryOfBytes arr.bytes))
      = .ok ((chunks LHS_TAG_ENTRY_LEN count body).map entryOfBytes) := by
  obtain ⟨-, hlen⟩ := flatten_chunks h
  rw [chunksExact, h, Nat.mul_div_cancel _ (by norm_num)]
  refine Except.mapM_eq_ok_map fun chunk hchunk => ?_
  have harr : Arr.tryFrom LHS_TAG_ENTRY_LEN chunk = some (Arr.ofBytes chunk (hlen chunk hchunk)) :=
    Arr.tryFrom_eq_some_iff.mpr rfl
  rw [harr]
  rfl

/-- What is written of the entries read off a body is the body. -/
lemma flatMap_entryToBytes {body : Bytes} {count : ℕ} (h : body.length = count * LHS_TAG_ENTRY_LEN) :
    ((chunks LHS_TAG_ENTRY_LEN count body).map entryOfBytes).flatMap entryToBytes = body := by
  obtain ⟨hflat, hlen⟩ := flatten_chunks h
  have hsame : (chunks LHS_TAG_ENTRY_LEN count body).map (entryToBytes ∘ entryOfBytes)
      = (chunks LHS_TAG_ENTRY_LEN count body).map id :=
    List.map_congr_left fun c hc => entryToBytes_entryOfBytes (hlen c hc)
  rw [List.flatMap_def, List.map_map, hsame, List.map_id, hflat]

/-- The entries of a written body are read back. -/
lemma map_entryOfBytes_chunks (sigma : List Int64) :
    (chunks LHS_TAG_ENTRY_LEN sigma.length (sigma.flatMap entryToBytes)).map entryOfBytes
      = sigma := by
  have hwidth : ∀ c ∈ sigma.map entryToBytes, c.length = LHS_TAG_ENTRY_LEN := by simp
  have hchunks := chunks_flatten hwidth
  rw [List.length_map] at hchunks
  have hsame : sigma.map (entryOfBytes ∘ entryToBytes) = sigma.map id :=
    List.map_congr_left fun e _ => entryOfBytes_entryToBytes e
  rw [List.flatMap_def, hchunks, List.map_map, hsame, List.map_id]

lemma length_flatMap_entryToBytes (sigma : List Int64) :
    (sigma.flatMap entryToBytes).length = sigma.length * LHS_TAG_ENTRY_LEN :=
  length_flatMap_eq fun e _ => length_entryToBytes e

lemma lhsTagToVec_of_lt {tag : LhsSignature} (h : tag.sigma.length < 2 ^ 32) :
    lhsTagToVec tag
      = beBytes LHS_TAG_LEN_PREFIX tag.sigma.length ++ tag.sigma.flatMap entryToBytes := by
  rw [lhsTagToVec, if_pos h]

lemma length_lhsTagToVec {tag : LhsSignature} (h : tag.sigma.length < 2 ^ 32) :
    (lhsTagToVec tag).length = LHS_TAG_LEN_PREFIX + tag.sigma.length * LHS_TAG_ENTRY_LEN := by
  rw [lhsTagToVec_of_lt h, List.length_append, length_beBytes, length_flatMap_entryToBytes]

/-- The signature reader accepts exactly the written signatures whose length fits its prefix. -/
lemma lhsTagFromBytes_readsExactly :
    ReadsExactly lhsTagFromBytes lhsTagToVec {tag | tag.sigma.length < 2 ^ 32} := by
  intro buf tag n
  simp only [lhsTagFromBytes, Except.bind_eq_ok_iff, okOr_eq_ok_iff, sliceTo_eq_some_iff,
    Arr.tryFrom_eq_some_iff, sliceRange_eq_some_iff, checkedUsize_eq_some_iff]
  constructor
  · rintro ⟨_, ⟨hlen, rfl⟩, arr, harr, _, ⟨-, rfl⟩, _, ⟨-, rfl⟩, _, ⟨-, rfl⟩, body,
      ⟨⟨-, hend⟩, hbody⟩, entries, hentries, hout⟩
    obtain ⟨rfl, rfl⟩ := Prod.mk.inj (Except.ok.inj hout)
    have hcount : ofBe arr.bytes < 2 ^ 32 := by
      have hlt := ofBe_lt arr.bytes
      rwa [arr.length_bytes] at hlt
    have hbodyLen : body.length = ofBe arr.bytes * LHS_TAG_ENTRY_LEN := by
      rw [← hbody, List.length_take, List.length_drop]
      omega
    rw [mapM_entries hbodyLen] at hentries
    obtain rfl := Except.ok.inj hentries
    have hsigma : ((chunks LHS_TAG_ENTRY_LEN (ofBe arr.bytes) body).map entryOfBytes).length
        = ofBe arr.bytes := by
      rw [List.length_map, length_chunks]
    have hfit : ((chunks LHS_TAG_ENTRY_LEN (ofBe arr.bytes) body).map entryOfBytes).length
        < 2 ^ 32 := hsigma.trans_lt hcount
    have hwidth := beBytes_ofBe arr.bytes
    rw [arr.length_bytes] at hwidth
    refine ⟨hfit, ?_, ?_⟩
    · rw [length_lhsTagToVec hfit, hsigma]
    · rw [lhsTagToVec_of_lt hfit, hsigma, flatMap_entryToBytes hbodyLen, hwidth, harr, ← hbody,
        Nat.add_sub_cancel_left, ← List.take_add]
      exact List.take_prefix _ _
  · rintro ⟨hfit, rfl, rest, rfl⟩
    have hbe : ofBe (beBytes LHS_TAG_LEN_PREFIX tag.sigma.length) = tag.sigma.length :=
      ofBe_beBytes_of_lt hfit
    have hbody := length_flatMap_entryToBytes tag.sigma
    -- the sizes of a signature that fits its prefix are far below those of a `usize`
    have hsmall : tag.sigma.length < 2 ^ 64 ∧ tag.sigma.length * LHS_TAG_ENTRY_LEN < 2 ^ 64 ∧
        LHS_TAG_LEN_PREFIX + tag.sigma.length * LHS_TAG_ENTRY_LEN < 2 ^ 64 := by
      have hlt : tag.sigma.length < 2 ^ 32 := hfit
      simp only [LHS_TAG_ENTRY_LEN, LHS_TAG_LEN_PREFIX]
      omega
    rw [length_lhsTagToVec hfit, lhsTagToVec_of_lt hfit, List.append_assoc]
    refine ⟨_, ⟨?_, List.take_left' (length_beBytes _ _)⟩,
      Arr.ofBytes _ (length_beBytes LHS_TAG_LEN_PREFIX tag.sigma.length), rfl,
      tag.sigma.length, ⟨?_, hbe⟩, _, ⟨?_, rfl⟩, _, ⟨?_, rfl⟩, tag.sigma.flatMap entryToBytes,
      ⟨⟨?_, ?_⟩, ?_⟩, tag.sigma, ?_, rfl⟩
    · rw [List.length_append, length_beBytes]
      exact Nat.le_add_right _ _
    · rw [Arr.bytes_ofBytes, hbe]
      exact hsmall.1
    · exact hsmall.2.1
    · exact hsmall.2.2
    · exact Nat.le_add_right _ _
    · rw [List.length_append, List.length_append, length_beBytes, hbody]
      omega
    · rw [List.drop_left' (length_beBytes _ _), Nat.add_sub_cancel_left, List.take_left' hbody]
    · rw [mapM_entries hbody, map_entryOfBytes_chunks]

lemma latticeHomomorphicAuthenticator_readsBack
    {verify : Arr BLAKE3_FINGERPRINT_LEN → CodedPiece → LhsSignature → Except String Unit}
    {tag : Arr BLAKE3_FINGERPRINT_LEN → CodedPiece → LhsSignature} :
    (latticeHomomorphicAuthenticator verify tag).ReadsBack {tag | tag.sigma.length < 2 ^ 32} :=
  ⟨blockFromBytes_readsExactly _ _, lhsTagFromBytes_readsExactly⟩

/-! ### The cursor of the signature reader -/

/-- The number of entries a tag announces in its first bytes. -/
def announced (bytes : Bytes) : ℕ := ofBe (bytes.take LHS_TAG_LEN_PREFIX)

lemma announced_lt (bytes : Bytes) : announced bytes < 2 ^ 32 := by
  have hlt := ofBe_lt (bytes.take LHS_TAG_LEN_PREFIX)
  have hlen : (bytes.take LHS_TAG_LEN_PREFIX).length ≤ LHS_TAG_LEN_PREFIX := List.length_take_le _ _
  calc announced bytes < 256 ^ (bytes.take LHS_TAG_LEN_PREFIX).length := hlt
    _ ≤ 256 ^ LHS_TAG_LEN_PREFIX := Nat.pow_le_pow_right (by norm_num) hlen
    _ = 2 ^ 32 := by norm_num

/-- Whatever a tag announces, its size is a `usize`. -/
lemma checkedUsize_announced (bytes : Bytes) :
    checkedUsize (announced bytes) = some (announced bytes) ∧
      checkedUsize (announced bytes * LHS_TAG_ENTRY_LEN)
        = some (announced bytes * LHS_TAG_ENTRY_LEN) ∧
      checkedUsize (LHS_TAG_LEN_PREFIX + announced bytes * LHS_TAG_ENTRY_LEN)
        = some (LHS_TAG_LEN_PREFIX + announced bytes * LHS_TAG_ENTRY_LEN) := by
  have hlt := announced_lt bytes
  simp only [LHS_TAG_ENTRY_LEN, LHS_TAG_LEN_PREFIX]
  refine ⟨if_pos ?_, if_pos ?_, if_pos ?_⟩ <;> omega

/-- A tag is read exactly if the string holds the prefix and everything it announces. -/
lemma lhsTagFromBytes_isOk_iff (bytes : Bytes) :
    (∃ r, lhsTagFromBytes bytes = .ok r) ↔ LHS_TAG_LEN_PREFIX ≤ bytes.length ∧
      LHS_TAG_LEN_PREFIX + LHS_TAG_ENTRY_LEN * announced bytes ≤ bytes.length := by
  constructor
  · rintro ⟨⟨tag, n⟩, hread⟩
    obtain ⟨hfit, rfl, rest, rfl⟩ := (lhsTagFromBytes_readsExactly _ _ _).mp hread
    have hcount : announced (lhsTagToVec tag ++ rest) = tag.sigma.length := by
      rw [announced, lhsTagToVec_of_lt hfit, List.append_assoc,
        List.take_left' (length_beBytes _ _)]
      exact ofBe_beBytes_of_lt hfit
    rw [hcount, List.length_append, length_lhsTagToVec hfit]
    constructor <;> ring_nf <;> omega
  · rintro ⟨hinitial, hbody⟩
    obtain ⟨hcount, hbodyLen, hend⟩ := checkedUsize_announced bytes
    have hlen : (bytes.take LHS_TAG_LEN_PREFIX).length = LHS_TAG_LEN_PREFIX :=
      List.length_take_of_le hinitial
    have harr : Arr.tryFrom LHS_TAG_LEN_PREFIX (bytes.take LHS_TAG_LEN_PREFIX)
        = some (Arr.ofBytes _ hlen) := Arr.tryFrom_eq_some_iff.mpr rfl
    have hannounced : ofBe (Arr.ofBytes _ hlen).bytes = announced bytes := rfl
    have hslice : sliceRange bytes LHS_TAG_LEN_PREFIX
        (LHS_TAG_LEN_PREFIX + announced bytes * LHS_TAG_ENTRY_LEN)
          = some ((bytes.drop LHS_TAG_LEN_PREFIX).take (announced bytes * LHS_TAG_ENTRY_LEN)) := by
      rw [sliceRange_of_le (Nat.le_add_right _ _) (by rwa [Nat.mul_comm]), Nat.add_sub_cancel_left]
    have hwidth : ((bytes.drop LHS_TAG_LEN_PREFIX).take
        (announced bytes * LHS_TAG_ENTRY_LEN)).length = announced bytes * LHS_TAG_ENTRY_LEN := by
      refine List.length_take_of_le ?_
      rw [List.length_drop, Nat.mul_comm]
      exact Nat.le_sub_of_add_le' hbody
    simp only [lhsTagFromBytes, sliceTo_of_le hinitial, okOr_some, Except.ok_bind, harr, hannounced,
      hcount, hbodyLen, hend, hslice, mapM_entries hwidth]
    exact ⟨_, rfl⟩

/-- The cursor of the signature reader.  A written signature of at most `u32::MAX` entries is read
back whatever follows it, with its width; what is read is what stands in front of the rest; and
reading fails exactly on strings too short for the prefix or for what it announces, never because
a size overflows. -/
theorem lhs_tag_cursor :
    (∀ t : LhsSignature, t.sigma.length ≤ 2 ^ 32 - 1 → ∀ rest : Bytes,
      lhsTagFromBytes (lhsTagToVec t ++ rest) = .ok (t, (lhsTagToVec t).length)) ∧
    (∀ (s : Bytes) (t : LhsSignature) (n : ℕ), lhsTagFromBytes s = .ok (t, n) →
      n ≤ s.length ∧ lhsTagToVec t = s.take n) ∧
    (∀ s : Bytes, (∃ e, lhsTagFromBytes s = .error e) ↔ s.length < LHS_TAG_LEN_PREFIX ∨
      s.length < LHS_TAG_LEN_PREFIX + LHS_TAG_ENTRY_LEN * announced s) ∧
    ∀ s : Bytes, checkedUsize (announced s) = some (announced s) ∧
      checkedUsize (announced s * LHS_TAG_ENTRY_LEN) = some (announced s * LHS_TAG_ENTRY_LEN) ∧
      checkedUsize (LHS_TAG_LEN_PREFIX + announced s * LHS_TAG_ENTRY_LEN)
        = some (LHS_TAG_LEN_PREFIX + announced s * LHS_TAG_ENTRY_LEN) := by
  refine ⟨fun t ht rest => ?_, fun s t n hread => ?_, fun s => ?_, checkedUsize_announced⟩
  · have hfit : t.sigma.length < 2 ^ 32 := by omega
    exact lhsTagFromBytes_readsExactly.read_append hfit rest
  · obtain ⟨-, rfl, hinitial⟩ := (lhsTagFromBytes_readsExactly s t n).mp hread
    exact ⟨hinitial.length_le, List.prefix_iff_eq_take.mp hinitial⟩
  · have hok := lhsTagFromBytes_isOk_iff s
    cases hread : lhsTagFromBytes s with
    | error e =>
        rw [hread] at hok
        simp only [reduceCtorEq, exists_false, false_iff, not_and_or, not_le] at hok
        simpa using hok
    | ok r =>
        rw [hread] at hok
        simp only [Except.ok.injEq, exists_eq', true_iff] at hok
        simpa using hok

end Libp2pCat.Pubsub
