import Libp2pCat.Kad.Closest
import Mathlib.Data.Nat.Bitwise

/-!
The distance as a number, and the bucket of a distance as its logarithm.

* `NodeId.toNat`, `NodeId.toNat_distance`: the distance of two identifiers is the exclusive or of
  their numbers.
* `Distance.leadingZeros_add_log2`: the scan of the bytes stops at the highest bit that is set.
* `bucket_index_log2`: the order of the distances, the bucket of a distance, the triangle
  inequality, and the order of the buckets of a table.
-/

namespace Libp2pCat

open ByteString

/-! ### Numbers -/

/-- The identifier as a 256-bit number, most significant byte first. -/
def NodeId.toNat (id : NodeId) : ℕ := ofBe id.asBytes.bytes

lemma NodeId.toNat_distance (a b : NodeId) : (a.distance b).toNat = a.toNat ^^^ b.toNat :=
  ofBe_zipWith_xor (by simp)

lemma xor_le_add (a b : ℕ) : a ^^^ b ≤ a + b := by
  induction a using Nat.strong_induction_on generalizing b with
  | _ a ih =>
      rcases Nat.eq_zero_or_pos a with rfl | hpos
      · rw [Nat.zero_xor, Nat.zero_add]
      · have hhalf := ih (a / 2) (by omega) (b / 2)
        have hdiv : (a ^^^ b) / 2 = a / 2 ^^^ b / 2 := Nat.xor_div_two
        have hmod : (a ^^^ b) % 2 = (a + b) % 2 := Nat.xor_mod_two_eq
        omega

/-! ### The highest bit -/

/-- The scan for the first byte that is not zero. -/
lemma exists_find?_ne_zero {bs : Bytes} (h : ∃ b ∈ bs, b ≠ 0) (start : ℕ) :
    ∃ n b rest, bs = List.replicate n 0 ++ b :: rest ∧ b ≠ 0 ∧
      (bs.zipIdx start).find? (fun p => p.1 != 0) = some (b, start + n) := by
  induction bs generalizing start with
  | nil => simp at h
  | cons x bs ih =>
      by_cases hx : x = 0
      · subst hx
        have hrest : ∃ b ∈ bs, b ≠ 0 := by
          obtain ⟨b, hb, hne⟩ := h
          exact ⟨b, (List.mem_cons.mp hb).resolve_left hne, hne⟩
        obtain ⟨n, b, rest, hbs, hb, hfind⟩ := ih hrest (start + 1)
        refine ⟨n + 1, b, rest, by rw [hbs]; rfl, hb, ?_⟩
        rw [List.zipIdx_cons, List.find?_cons_of_neg (by simp), hfind]
        congr 2
        omega
      · refine ⟨0, x, bs, rfl, hx, ?_⟩
        rw [List.zipIdx_cons, List.find?_cons_of_pos (by simpa using hx)]
        rfl

/-- The logarithm of a number is decided by its first byte. -/
lemma log2_mul_pow_add {b x r : ℕ} (hb : b ≠ 0) (hx : x < 2 ^ (8 * r)) :
    Nat.log2 (b * 2 ^ (8 * r) + x) = 8 * r + Nat.log2 b := by
  have hlow := Nat.log2_self_le hb
  have hhigh := Nat.lt_log2_self (n := b)
  refine (Nat.log2_eq_iff (by positivity)).mpr ⟨?_, ?_⟩
  · calc 2 ^ (8 * r + Nat.log2 b)
        = 2 ^ Nat.log2 b * 2 ^ (8 * r) := by rw [Nat.add_comm, pow_add]
      _ ≤ b * 2 ^ (8 * r) := Nat.mul_le_mul_right _ hlow
      _ ≤ b * 2 ^ (8 * r) + x := Nat.le_add_right _ _
  · calc b * 2 ^ (8 * r) + x
        < b * 2 ^ (8 * r) + 2 ^ (8 * r) := by omega
      _ = (b + 1) * 2 ^ (8 * r) := by ring
      _ ≤ 2 ^ (Nat.log2 b + 1) * 2 ^ (8 * r) := Nat.mul_le_mul_right _ hhigh
      _ = 2 ^ (8 * r + Nat.log2 b + 1) := by
          rw [← pow_add]
          congr 1
          omega

namespace Distance

lemma isZero_iff_toNat (d : Distance) : d.isZero = true ↔ d.toNat = 0 := by
  rw [isZero, List.all_eq_true]
  simp only [beq_iff_eq]
  constructor
  · intro h
    have hrep : d.asBytes.bytes = List.replicate d.asBytes.bytes.length 0 :=
      List.eq_replicate_of_mem h
    rw [toNat, hrep, ← List.append_nil (List.replicate _ _), ofBe_replicate_zero_append]
    rfl
  · intro h b hb
    by_contra hne
    obtain ⟨n, b', rest, hbs, hb', -⟩ := exists_find?_ne_zero ⟨b, hb, hne⟩ 0
    rw [toNat, hbs, ofBe_replicate_zero_append, ofBe] at h
    have hpos : 0 < b'.toNat * 256 ^ rest.length :=
      Nat.mul_pos (Nat.pos_of_ne_zero fun h0 => hb' (UInt8.toNat_inj.mp h0)) (by positivity)
    omega

/-- The leading zeros of a distance that is not zero end at its highest bit. -/
lemma leadingZeros_add_log2 {d : Distance} (h : d.toNat ≠ 0) :
    Nat.log2 d.toNat + d.leadingZeros + 1 = NODE_ID_BITS := by
  have hne : ∃ b ∈ d.asBytes.bytes, b ≠ 0 := by
    by_contra hall
    refine h ((isZero_iff_toNat d).mp (List.all_eq_true.mpr fun b hb => ?_))
    exact beq_iff_eq.mpr (by_contra fun hb0 => hall ⟨b, hb, hb0⟩)
  obtain ⟨n, b, rest, hbs, hb, hfind⟩ := exists_find?_ne_zero hne 0
  have hlen : n + (1 + rest.length) = NODE_ID_LEN := by
    have hwidth := d.asBytes.length_bytes
    rw [hbs, List.length_append, List.length_replicate, List.length_cons] at hwidth
    omega
  have hb0 : b.toNat ≠ 0 := fun h0 => hb (UInt8.toNat_inj.mp h0)
  have hlog : Nat.log2 d.toNat = 8 * rest.length + Nat.log2 b.toNat := by
    have hrest := ofBe_lt rest
    rw [pow_256_eq] at hrest
    rw [toNat, hbs, ofBe_replicate_zero_append, ofBe, pow_256_eq, log2_mul_pow_add hb0 hrest]
  have hb7 : Nat.log2 b.toNat < 8 := (Nat.log2_lt hb0).mpr b.toNat_lt
  simp only [leadingZeros, hfind, hlog, byteLeadingZeros, if_neg hb]
  simp only [NODE_ID_BITS, NODE_ID_LEN] at *
  omega

/-- The bucket of a distance that is not zero is its logarithm. -/
lemma bucketIndex_eq_log2 {d : Distance} (h : d.toNat ≠ 0) :
    d.bucketIndex = some (Nat.log2 d.toNat) := by
  have hscan := leadingZeros_add_log2 h
  rw [bucketIndex, if_neg (mt (isZero_iff_toNat d).mp h)]
  congr 1
  omega

lemma bucketIndex_eq_some_iff {d : Distance} {i : ℕ} :
    d.bucketIndex = some i ↔ 2 ^ i ≤ d.toNat ∧ d.toNat < 2 ^ (i + 1) := by
  by_cases h : d.toNat = 0
  · rw [bucketIndex, if_pos ((isZero_iff_toNat d).mpr h), h]
    have hpos : 0 < 2 ^ i := by positivity
    simp
  · rw [bucketIndex_eq_log2 h, Option.some.injEq, Nat.log2_eq_iff h]

lemma compare_eq_compare_toNat (d e : Distance) : compare d e = compare d.toNat e.toNat :=
  compare_eq_compare_ofBe (by simp)

end Distance

/-! ### Distances and buckets -/

open RoutingTable in
/-- Distances are ordered as the 256-bit numbers they stand for, which are the exclusive ors of
those of the identifiers.  Only an identifier itself has no bucket; otherwise the bucket is the
position of the highest bit of the distance, below 256, with the leading zeros above it.  The
triangle inequality holds, and of two peers of a table the one in the lower bucket is closer to
the own identifier. -/
theorem bucket_index_log2 :
    (∀ d e : Distance, compare d e = compare d.toNat e.toNat) ∧
    (∀ a b : NodeId, (a.distance b).toNat = a.toNat ^^^ b.toNat) ∧
    (∀ a b : NodeId, (a.distance b).bucketIndex = none ↔ a = b) ∧
    (∀ a b : NodeId, a ≠ b → ∃ i, (a.distance b).bucketIndex = some i ∧ i < NODE_ID_BITS ∧
      i + (a.distance b).leadingZeros + 1 = NODE_ID_BITS ∧
      2 ^ i ≤ a.toNat ^^^ b.toNat ∧ a.toNat ^^^ b.toNat < 2 ^ (i + 1)) ∧
    (∀ a b c : NodeId, (a.distance c).toNat ≤ (a.distance b).toNat + (b.distance c).toNat) ∧
    ∀ (selfId : NodeId) (k : ℕ) (ops : List Op) (i j : ℕ) (b c : Bucket) (p q : NodeId × UdpAddr),
      (ops.foldl apply (new selfId k)).buckets[i]? = some b →
      (ops.foldl apply (new selfId k)).buckets[j]? = some c →
      p ∈ b.entries → q ∈ c.entries → i < j →
      compare (selfId.distance p.1) (selfId.distance q.1) = .lt := by
  refine ⟨Distance.compare_eq_compare_toNat, NodeId.toNat_distance, NodeId.bucketIndex_eq_none_iff,
    ?_, ?_, ?_⟩
  · intro a b hab
    have hne : (a.distance b).toNat ≠ 0 := fun h0 =>
      hab ((NodeId.isZero_distance_iff a b).mp ((Distance.isZero_iff_toNat _).mpr h0))
    have hscan := Distance.leadingZeros_add_log2 hne
    have hidx := Distance.bucketIndex_eq_log2 hne
    obtain ⟨hlow, hhigh⟩ := Distance.bucketIndex_eq_some_iff.mp hidx
    rw [NodeId.toNat_distance] at hlow hhigh
    exact ⟨_, hidx, by omega, hscan, by rwa [NodeId.toNat_distance], by rwa [NodeId.toNat_distance]⟩
  · intro a b c
    have hcancel : a.toNat ^^^ c.toNat = (a.toNat ^^^ b.toNat) ^^^ (b.toNat ^^^ c.toNat) := by
      rw [Nat.xor_assoc, ← Nat.xor_assoc b.toNat, Nat.xor_self, Nat.zero_xor]
    rw [NodeId.toNat_distance, NodeId.toNat_distance, NodeId.toNat_distance, hcancel]
    exact xor_le_add _ _
  · intro selfId k ops i j b c p q hb hc hp hq hij
    have h : (ops.foldl apply (new selfId k)).WellFormed selfId k := (wellFormed_new selfId k).run ops
    obtain ⟨-, hhigh⟩ := Distance.bucketIndex_eq_some_iff.mp (h.placed i b hb p hp)
    obtain ⟨hlow, -⟩ := Distance.bucketIndex_eq_some_iff.mp (h.placed j c hc q hq)
    rw [Distance.compare_eq_lt_iff]
    calc (selfId.distance p.1).toNat < 2 ^ (i + 1) := hhigh
      _ ≤ 2 ^ j := Nat.pow_le_pow_right (by norm_num) hij
      _ ≤ (selfId.distance q.1).toNat := hlow

end Libp2pCat
