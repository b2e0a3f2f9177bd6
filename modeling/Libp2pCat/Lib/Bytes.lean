import Mathlib.Tactic

/-!
Byte strings as a wire format sees them: slices that may fall outside the
string, arrays of a fixed width, and the fixed-width integer encodings.

* `Bytes`, `Arr n`: a byte string, and a byte string of exactly `n` bytes (the
  width is carried by the type, so a key of the wrong width cannot be built).
* `ofText`, `textOf`: a text as its UTF-8 bytes and back; `utf8Error` is where and how a byte
  string fails to be UTF-8, and `utf8ErrorText` what that is printed as.
* `sliceTo`, `sliceFrom`, `sliceRange`: checked slicing; a slice that does not
  fit is `none`.  `sliceTo_append`, `sliceFrom_append` and
  `sliceRange_append` read the parts of a concatenation back.
* `beBytes`, `ofBe`: the `w`-byte big-endian encoding and its inverse
  (`ofBe_beBytes`, `beBytes_ofBe`); the little-endian one is its reversal.
* `compare_eq_compare_ofBe`: byte strings of one width are ordered as these numbers;
  `ofBe_zipWith_xor`: their exclusive or is that of the numbers.
* `length_flatMap_le`, `length_flatMap_eq`: the length of a string made of parts of bounded or of
  one width.
* `chunksExact`: a string cut into chunks of one width.
-/

namespace ByteString

/-- A byte string. -/
abbrev Bytes := List UInt8

/-- A byte string of exactly `n` bytes. -/
def Arr (n : ℕ) := {bs : Bytes // bs.length = n}

instance (n : ℕ) : DecidableEq (Arr n) := inferInstanceAs (DecidableEq {bs : Bytes // bs.length = n})

namespace Arr

variable {n : ℕ}

/-- The bytes of an array. -/
def bytes (a : Arr n) : Bytes := a.val

@[simp] lemma length_bytes (a : Arr n) : a.bytes.length = n := a.property

lemma bytes_injective : Function.Injective (bytes : Arr n → Bytes) := Subtype.val_injective

@[simp] lemma bytes_inj {a b : Arr n} : a.bytes = b.bytes ↔ a = b := bytes_injective.eq_iff

/-- A byte string of the right width, as an array. -/
def ofBytes (bs : Bytes) (h : bs.length = n) : Arr n := ⟨bs, h⟩

@[simp] lemma bytes_ofBytes (bs : Bytes) (h : bs.length = n) : (ofBytes bs h).bytes = bs := rfl

/-- The checked conversion of a slice to an array. -/
def tryFrom (n : ℕ) (bs : Bytes) : Option (Arr n) :=
  if h : bs.length = n then some (ofBytes bs h) else none

lemma tryFrom_eq_some_iff {bs : Bytes} {a : Arr n} : tryFrom n bs = some a ↔ a.bytes = bs := by
  unfold tryFrom
  split
  · rename_i h
    constructor
    · rintro ⟨⟩
      rfl
    · intro hab
      exact congrArg some (bytes_injective hab.symm)
  · rename_i h
    constructor
    · intro h'
      cases h'
    · intro hab
      exact absurd (hab ▸ a.length_bytes) h

@[simp] lemma tryFrom_bytes (a : Arr n) : tryFrom n a.bytes = some a :=
  tryFrom_eq_some_iff.mpr rfl

lemma tryFrom_eq_none_iff {bs : Bytes} : tryFrom n bs = none ↔ bs.length ≠ n := by
  unfold tryFrom
  split <;> simp_all

/-- The array with one byte repeated. -/
def replicate (n : ℕ) (b : UInt8) : Arr n := ⟨List.replicate n b, List.length_replicate⟩

/-- The first `k` bytes of a longer array. -/
def front {m : ℕ} (k : ℕ) (a : Arr (k + m)) : Arr k :=
  ⟨a.val.take k, by rw [List.length_take, a.property]; omega⟩

/-- The bytes of a longer array past the first `k`. -/
def back {m : ℕ} (k : ℕ) (a : Arr (k + m)) : Arr m :=
  ⟨a.val.drop k, by rw [List.length_drop, a.property]; omega⟩

end Arr

/-- The UTF-8 bytes of a text. -/
def ofText (s : String) : Bytes := s.toByteArray.data.toList

lemma ofText_injective : Function.Injective ofText := fun _ _ h =>
  String.toByteArray_inj.mp (ByteArray.ext (Array.toList_inj.mp h))

/-- The text a byte string is the UTF-8 form of. -/
def textOf (bs : Bytes) : Option String := String.fromUTF8? ⟨bs.toArray⟩

lemma textOf_eq_some_iff {bs : Bytes} {s : String} : textOf bs = some s ↔ ofText s = bs := by
  have hback : ∀ t : String, textOf (ofText t) = some t := by
    intro t
    rw [textOf, String.fromUTF8?, dif_pos (by simpa [ofText] using t.isValidUTF8)]
    refine congrArg some (String.toByteArray_inj.mp ?_)
    simp [String.fromUTF8, ofText]
  constructor
  · intro h
    rw [textOf, String.fromUTF8?] at h
    split at h
    · cases h
      simp [String.fromUTF8, ofText]
    · cases h
  · rintro rfl
    exact hback s

/-- The number of bytes of the character a byte starts, 0 if it starts none. -/
def utf8CharWidth (b : UInt8) : ℕ :=
  if b < 0x80 then 1
  else if 0xC2 ≤ b ∧ b ≤ 0xDF then 2
  else if 0xE0 ≤ b ∧ b ≤ 0xEF then 3
  else if 0xF0 ≤ b ∧ b ≤ 0xF4 then 4
  else 0

/-- Whether `b` may follow `first` at offset `i + 1` of a character. -/
def utf8Continues (first : UInt8) (i : ℕ) (b : UInt8) : Bool :=
  0x80 ≤ b && b ≤ 0xBF &&
    -- overlong forms, surrogates and code points past the last one show in the second byte
    (i != 0 || ((first != 0xE0 || 0xA0 ≤ b) && (first != 0xED || b ≤ 0x9F) &&
      (first != 0xF0 || 0x90 ≤ b) && (first != 0xF4 || b ≤ 0x8F)))

/-- What is wrong with the character that starts with `first`: the number of bytes to blame,
or none where the string ends too early. -/
def utf8BadChar (first : UInt8) (rest : Bytes) : Option (Option ℕ) :=
  if utf8CharWidth first = 0 then some (some 1)
  else (List.range (utf8CharWidth first - 1)).findSome? fun i =>
    match rest[i]? with
    | none => some none
    | some b => if utf8Continues first i b then none else some (some (i + 1))

/-- The first bad character past `pos`, reading at most `fuel` characters. -/
def utf8ErrorFrom : ℕ → ℕ → Bytes → Option (ℕ × Option ℕ)
  | 0, _, _ => none
  | _ + 1, _, [] => none
  | fuel + 1, pos, first :: rest =>
      match utf8BadChar first rest with
      | some len => some (pos, len)
      | none => utf8ErrorFrom fuel (pos + utf8CharWidth first)
          (rest.drop (utf8CharWidth first - 1))

/-- Where a byte string stops being UTF-8, and how many bytes are to blame. -/
def utf8Error (bs : Bytes) : Option (ℕ × Option ℕ) := utf8ErrorFrom bs.length 0 bs

/-- The text of this error. -/
def utf8ErrorText (bs : Bytes) : String :=
  match utf8Error bs with
  | some (validUpTo, some len) =>
      s!"invalid utf-8 sequence of {len} bytes from index {validUpTo}"
  | some (validUpTo, none) => s!"incomplete utf-8 byte sequence from index {validUpTo}"
  | none => ""

/-! ### Checked slices -/

/-- The slice `s[..b]`. -/
def sliceTo (s : Bytes) (b : ℕ) : Option Bytes :=
  if b ≤ s.length then some (s.take b) else none

/-- The slice `s[a..]`. -/
def sliceFrom (s : Bytes) (a : ℕ) : Option Bytes :=
  if a ≤ s.length then some (s.drop a) else none

/-- The slice `s[a..b]`. -/
def sliceRange (s : Bytes) (a b : ℕ) : Option Bytes :=
  if a ≤ b ∧ b ≤ s.length then some ((s.drop a).take (b - a)) else none

lemma sliceTo_of_le {s : Bytes} {b : ℕ} (h : b ≤ s.length) : sliceTo s b = some (s.take b) :=
  if_pos h

lemma sliceFrom_of_le {s : Bytes} {a : ℕ} (h : a ≤ s.length) :
    sliceFrom s a = some (s.drop a) :=
  if_pos h

lemma sliceRange_of_le {s : Bytes} {a b : ℕ} (hab : a ≤ b) (h : b ≤ s.length) :
    sliceRange s a b = some ((s.drop a).take (b - a)) :=
  if_pos ⟨hab, h⟩

lemma sliceTo_eq_some_iff {s t : Bytes} {b : ℕ} :
    sliceTo s b = some t ↔ b ≤ s.length ∧ s.take b = t := by
  unfold sliceTo
  split <;> simp_all

lemma sliceFrom_eq_some_iff {s t : Bytes} {a : ℕ} :
    sliceFrom s a = some t ↔ a ≤ s.length ∧ s.drop a = t := by
  unfold sliceFrom
  split <;> simp_all

lemma sliceRange_eq_some_iff {s t : Bytes} {a b : ℕ} :
    sliceRange s a b = some t ↔ (a ≤ b ∧ b ≤ s.length) ∧ (s.drop a).take (b - a) = t := by
  unfold sliceRange
  split <;> simp_all

/-- The front part of a concatenation. -/
lemma sliceTo_append {s t : Bytes} {b : ℕ} (h : s.length = b) : sliceTo (s ++ t) b = some s := by
  subst h
  rw [sliceTo_of_le (by simp), List.take_left]

/-- The rest of a concatenation. -/
lemma sliceFrom_append {s t : Bytes} {a : ℕ} (h : s.length = a) :
    sliceFrom (s ++ t) a = some t := by
  subst h
  rw [sliceFrom_of_le (by simp), List.drop_left]

/-- The middle part of a concatenation. -/
lemma sliceRange_append {s t u : Bytes} {a b : ℕ} (ha : s.length = a) (hb : a + t.length = b) :
    sliceRange (s ++ (t ++ u)) a b = some t := by
  subst ha hb
  rw [sliceRange_of_le (by omega) (by simp), List.drop_left, Nat.add_sub_cancel_left,
    List.take_left]

/-! ### Fixed-width integers -/

/-- The `w`-byte big-endian encoding of `n`, most significant byte first. -/
def beBytes : ℕ → ℕ → Bytes
  | 0, _ => []
  | w + 1, n => UInt8.ofNat (n / 256 ^ w) :: beBytes w n

/-- The number a big-endian byte string stands for. -/
def ofBe : Bytes → ℕ
  | [] => 0
  | b :: bs => b.toNat * 256 ^ bs.length + ofBe bs

@[simp] lemma length_beBytes (w n : ℕ) : (beBytes w n).length = w := by
  induction w with
  | zero => rfl
  | succ w ih => simp [beBytes, ih]

lemma ofBe_lt (bs : Bytes) : ofBe bs < 256 ^ bs.length := by
  induction bs with
  | nil => simp [ofBe]
  | cons b bs ih =>
      have hb : b.toNat ≤ 255 := Nat.le_of_lt_succ b.toNat_lt
      calc ofBe (b :: bs) = b.toNat * 256 ^ bs.length + ofBe bs := rfl
        _ < b.toNat * 256 ^ bs.length + 256 ^ bs.length := by omega
        _ = (b.toNat + 1) * 256 ^ bs.length := by ring
        _ ≤ 256 * 256 ^ bs.length := Nat.mul_le_mul_right _ (by omega)
        _ = 256 ^ (b :: bs).length := by rw [List.length_cons, pow_succ]; ring

/-- The big-endian encoding is exact on numbers of the given width. -/
lemma ofBe_beBytes (w n : ℕ) : ofBe (beBytes w n) = n % 256 ^ w := by
  induction w with
  | zero => simp [beBytes, ofBe, Nat.mod_one]
  | succ w ih =>
      have hsplit : n % 256 ^ (w + 1) = n % 256 ^ w + 256 ^ w * (n / 256 ^ w % 256) :=
        Nat.mod_mul
      rw [beBytes, ofBe, length_beBytes, ih, UInt8.toNat_ofNat', hsplit]
      norm_num
      ring

lemma ofBe_beBytes_of_lt {w n : ℕ} (h : n < 256 ^ w) : ofBe (beBytes w n) = n := by
  rw [ofBe_beBytes, Nat.mod_eq_of_lt h]

/-- Every byte string is the encoding of the number it stands for. -/
lemma beBytes_ofBe (bs : Bytes) : beBytes bs.length (ofBe bs) = bs := by
  have key : ∀ (bs : Bytes) (m : ℕ), beBytes bs.length (m * 256 ^ bs.length + ofBe bs) = bs := by
    intro bs
    induction bs with
    | nil => intro m; rfl
    | cons b bs ih =>
        intro m
        have hlt := ofBe_lt bs
        have hdiv : (m * 256 ^ (b :: bs).length + ofBe (b :: bs)) / 256 ^ bs.length
            = m * 256 + b.toNat := by
          have h : m * 256 ^ (b :: bs).length + ofBe (b :: bs)
              = ofBe bs + 256 ^ bs.length * (m * 256 + b.toNat) := by
            rw [List.length_cons, pow_succ, ofBe]; ring
          rw [h, Nat.add_mul_div_left _ _ (by positivity), Nat.div_eq_of_lt hlt, Nat.zero_add]
        have hsplit : m * 256 ^ (b :: bs).length + ofBe (b :: bs)
            = (m * 256 + b.toNat) * 256 ^ bs.length + ofBe bs := by
          rw [List.length_cons, pow_succ, ofBe]; ring
        rw [List.length_cons, beBytes, ← List.length_cons (a := b), hdiv, hsplit, ih]
        congr 1
        apply UInt8.toNat_inj.mp
        rw [UInt8.toNat_ofNat', Nat.mul_add_mod_self_right]
        exact Nat.mod_eq_of_lt b.toNat_lt
  simpa using key bs 0

/-- The encoding of a fixed width is injective on numbers of that width. -/
lemma beBytes_inj {w m n : ℕ} (hm : m < 256 ^ w) (hn : n < 256 ^ w)
    (h : beBytes w m = beBytes w n) : m = n := by
  rw [← ofBe_beBytes_of_lt hm, ← ofBe_beBytes_of_lt hn, h]

/-- Byte strings of one width are ordered as the numbers they stand for. -/
lemma compare_eq_compare_ofBe {as bs : Bytes} (h : as.length = bs.length) :
    compare as bs = compare (ofBe as) (ofBe bs) := by
  induction as generalizing bs with
  | nil =>
      obtain rfl : bs = [] := List.length_eq_zero_iff.mp h.symm
      rfl
  | cons a as ih =>
      cases bs with
      | nil => cases h
      | cons b bs =>
          have hlen : as.length = bs.length := Nat.succ_injective h
          have has := ofBe_lt as
          have hbs := ofBe_lt bs
          have hlex : compare (a :: as) (b :: bs) = (compare a b).then (compare as bs) :=
            List.compareLex_cons_cons
          rw [hlex, ih hlen, ofBe, ofBe, hlen]
          rw [hlen] at has
          rcases lt_trichotomy a.toNat b.toNat with hab | hab | hab
          · -- the first byte decides
            have hmul : (a.toNat + 1) * 256 ^ bs.length ≤ b.toNat * 256 ^ bs.length :=
              Nat.mul_le_mul_right _ hab
            rw [Nat.add_mul, Nat.one_mul] at hmul
            have hcmp : compare a b = .lt := Std.compare_eq_lt.mpr (UInt8.lt_iff_toNat_lt.mpr hab)
            rw [hcmp, Ordering.lt_then, eq_comm, Nat.compare_eq_lt]
            omega
          · rw [UInt8.toNat_inj.mp hab, Std.ReflOrd.compare_self, Ordering.eq_then]
            simp only [Nat.compare_eq_ite_lt, Nat.add_lt_add_iff_left]
          · have hmul : (b.toNat + 1) * 256 ^ bs.length ≤ a.toNat * 256 ^ bs.length :=
              Nat.mul_le_mul_right _ hab
            rw [Nat.add_mul, Nat.one_mul] at hmul
            have hcmp : compare a b = .gt := Std.compare_eq_gt.mpr (UInt8.lt_iff_toNat_lt.mpr hab)
            rw [hcmp, Ordering.gt_then, eq_comm, Nat.compare_eq_gt]
            omega

/-- Digits of different places do not meet in an exclusive or. -/
lemma xor_mul_two_pow_add {a b x y m : ℕ} (hx : x < 2 ^ m) (hy : y < 2 ^ m) :
    (a * 2 ^ m + x) ^^^ (b * 2 ^ m + y) = (a ^^^ b) * 2 ^ m + (x ^^^ y) := by
  have hxy : x ^^^ y < 2 ^ m := Nat.xor_lt_two_pow hx hy
  refine Nat.eq_of_testBit_eq fun i => ?_
  rw [Nat.testBit_xor, Nat.mul_comm a, Nat.mul_comm b, Nat.mul_comm (a ^^^ b),
    Nat.testBit_two_pow_mul_add _ hx, Nat.testBit_two_pow_mul_add _ hy,
    Nat.testBit_two_pow_mul_add _ hxy]
  split <;> rw [Nat.testBit_xor]

/-- A power of 256 as a power of 2. -/
lemma pow_256_eq (n : ℕ) : 256 ^ n = 2 ^ (8 * n) := by
  rw [pow_mul]
  norm_num

/-- The exclusive or of two byte strings of one width stands for that of their numbers. -/
lemma ofBe_zipWith_xor {as bs : Bytes} (h : as.length = bs.length) :
    ofBe (List.zipWith (· ^^^ ·) as bs) = ofBe as ^^^ ofBe bs := by
  induction as generalizing bs with
  | nil =>
      obtain rfl : bs = [] := List.length_eq_zero_iff.mp h.symm
      rfl
  | cons a as ih =>
      cases bs with
      | nil => cases h
      | cons b bs =>
          have hlen : as.length = bs.length := Nat.succ_injective h
          have has := ofBe_lt as
          have hbs := ofBe_lt bs
          rw [hlen, pow_256_eq] at has
          rw [pow_256_eq] at hbs
          rw [List.zipWith_cons_cons, ofBe, ofBe, ofBe, ih hlen, List.length_zipWith, hlen,
            Nat.min_self, pow_256_eq, xor_mul_two_pow_add has hbs, UInt8.toNat_xor]

/-- Zero bytes in front do not count. -/
lemma ofBe_replicate_zero_append (n : ℕ) (bs : Bytes) :
    ofBe (List.replicate n 0 ++ bs) = ofBe bs := by
  induction n with
  | zero => rfl
  | succ n ih => rw [List.replicate_succ, List.cons_append, ofBe, ih, UInt8.toNat_zero, Nat.zero_mul,
      Nat.zero_add]

/-- Eight bytes are a 64-bit number, without wrapping. -/
lemma toNat_ofNat_ofBe {bs : Bytes} (h : bs.length = 8) :
    (UInt64.ofNat (ofBe bs)).toNat = ofBe bs := by
  have hlt := ofBe_lt bs
  rw [h, show 256 ^ 8 = 2 ^ 64 from by norm_num] at hlt
  exact UInt64.toNat_ofNat_of_lt' hlt

/-- A 64-bit number comes back from its eight bytes. -/
lemma ofBe_beBytes_toNat (n : UInt64) : ofBe (beBytes 8 n.toNat) = n.toNat := by
  have hlt := n.toNat_lt
  rw [show 2 ^ 64 = 256 ^ 8 from by norm_num] at hlt
  exact ofBe_beBytes_of_lt hlt

/-- The `w`-byte little-endian encoding. -/
def leBytes (w n : ℕ) : Bytes := (beBytes w n).reverse

/-- The number a little-endian byte string stands for. -/
def ofLe (bs : Bytes) : ℕ := ofBe bs.reverse

@[simp] lemma length_leBytes (w n : ℕ) : (leBytes w n).length = w := by
  rw [leBytes, List.length_reverse, length_beBytes]

lemma ofLe_leBytes_of_lt {w n : ℕ} (h : n < 256 ^ w) : ofLe (leBytes w n) = n := by
  rw [ofLe, leBytes, List.reverse_reverse, ofBe_beBytes_of_lt h]

lemma leBytes_ofLe (bs : Bytes) : leBytes bs.length (ofLe bs) = bs := by
  have hbe := beBytes_ofBe bs.reverse
  rw [List.length_reverse] at hbe
  rw [leBytes, ofLe, hbe, List.reverse_reverse]

lemma ofLe_lt (bs : Bytes) : ofLe bs < 256 ^ bs.length := by
  have hlt := ofBe_lt bs.reverse
  rwa [List.length_reverse] at hlt

/-! ### Parts and chunks -/

section

variable {α : Type*} {f : α → Bytes} {l : List α} {n : ℕ}

/-- Parts of at most `n` bytes each. -/
lemma length_flatMap_le (h : ∀ a ∈ l, (f a).length ≤ n) : (l.flatMap f).length ≤ l.length * n := by
  have hparts : ∀ m ∈ l.map fun a => (f a).length, m ≤ n := by
    intro m hm
    obtain ⟨a, ha, rfl⟩ := List.mem_map.mp hm
    exact h a ha
  have hsum := List.sum_le_card_nsmul _ n hparts
  rwa [List.length_map, smul_eq_mul, ← List.length_flatMap] at hsum

/-- Parts of `n` bytes each. -/
lemma length_flatMap_eq (h : ∀ a ∈ l, (f a).length = n) : (l.flatMap f).length = l.length * n := by
  have hparts : ∀ m ∈ l.map fun a => (f a).length, m = n := by
    intro m hm
    obtain ⟨a, ha, rfl⟩ := List.mem_map.mp hm
    exact h a ha
  have hsum := List.sum_eq_card_nsmul _ n hparts
  rwa [List.length_map, smul_eq_mul, ← List.length_flatMap] at hsum

end

/-- The first `count` chunks of `n` bytes. -/
def chunks (n : ℕ) : ℕ → Bytes → List Bytes
  | 0, _ => []
  | count + 1, bs => bs.take n :: chunks n count (bs.drop n)

/-- The chunks of exactly `n` bytes, without what is left behind the last one. -/
def chunksExact (n : ℕ) (bs : Bytes) : List Bytes := chunks n (bs.length / n) bs

lemma length_chunks (n count : ℕ) (bs : Bytes) : (chunks n count bs).length = count := by
  induction count generalizing bs with
  | zero => rfl
  | succ count ih => rw [chunks, List.length_cons, ih]

/-- The chunks of a string of their total length are its parts. -/
lemma flatten_chunks {n count : ℕ} {bs : Bytes} (h : bs.length = count * n) :
    (chunks n count bs).flatten = bs ∧ ∀ c ∈ chunks n count bs, c.length = n := by
  induction count generalizing bs with
  | zero =>
      rw [Nat.zero_mul] at h
      simp [chunks, List.length_eq_zero_iff.mp h]
  | succ count ih =>
      rw [Nat.add_mul, Nat.one_mul] at h
      have hrest : (bs.drop n).length = count * n := by
        rw [List.length_drop]
        omega
      obtain ⟨hflat, hlen⟩ := ih hrest
      refine ⟨by rw [chunks, List.flatten_cons, hflat, List.take_append_drop], ?_⟩
      intro c hc
      rcases List.mem_cons.mp hc with rfl | hc
      · rw [List.length_take]
        omega
      · exact hlen c hc

/-- The chunks of a concatenation of parts of one width are the parts. -/
lemma chunks_flatten {n : ℕ} {parts : List Bytes} (h : ∀ c ∈ parts, c.length = n) :
    chunks n parts.length parts.flatten = parts := by
  induction parts with
  | nil => rfl
  | cons c parts ih =>
      have hc : c.length = n := h c List.mem_cons_self
      rw [List.flatten_cons, List.length_cons, chunks, List.take_left' hc, List.drop_left' hc,
        ih fun d hd => h d (List.mem_cons_of_mem _ hd)]

end ByteString
