import Libp2pCat.Lib.Bytes
import Libp2pCat.Lib.Effect

/-!
Readers of a byte string: a reader takes a value off the front of a string and says how many
bytes it took.

* `ReadsExactly`: the reader accepts exactly the strings that start with the written form of a
  value of a given set, and returns that value and the width of its form.
* `readNext`, `ReadsExactly.readMany_eq_ok_iff`: a counted loop of an exact reader, with the offset threaded
  through, is an exact reader of lists of that length.
* `ReadsExactly.read_and_rest_iff`: a value and the open end behind it.
* `rest_eq_nil_iff`: what is left behind a written form is empty exactly when the string is that
  form.
-/

namespace ByteString

variable {ε α : Type}

/-- `read` succeeds exactly on the strings that start with what `write` writes of a value of
`canon`, and returns this value and the number of bytes written. -/
def ReadsExactly (read : Bytes → Except ε (α × ℕ)) (write : α → Bytes) (canon : Set α) : Prop :=
  ∀ buf v n, read buf = .ok (v, n) ↔ v ∈ canon ∧ n = (write v).length ∧ write v <+: buf

/-- What follows a written form in a string. -/
lemma getD_sliceFrom_of_append {s t : Bytes} : (sliceFrom (s ++ t) s.length).getD [] = t := by
  rw [sliceFrom_append rfl, Option.getD_some]

lemma rest_eq_nil_iff {s buf : Bytes} (h : s <+: buf) :
    (sliceFrom buf s.length).getD [] = [] ↔ buf = s := by
  obtain ⟨t, rfl⟩ := h
  rw [getD_sliceFrom_of_append, List.append_right_eq_self]

lemma append_prefix_iff {s t buf : Bytes} (h : s <+: buf) :
    s ++ t <+: buf ↔ t <+: (sliceFrom buf s.length).getD [] := by
  obtain ⟨r, rfl⟩ := h
  rw [getD_sliceFrom_of_append, List.prefix_append_right_inj]

/-- One step of a counted loop: the values read so far and the offset behind them.  The error
of the reader is wrapped with the index of the value. -/
def readNext (read : Bytes → Except ε (α × ℕ)) (wrap : ℕ → ε → ε) (buf : Bytes)
    (acc : List α × ℕ) (idx : ℕ) : Except ε (List α × ℕ) := do
  let chunk := (sliceFrom buf acc.2).getD []
  let (v, consumed) ← (read chunk).mapError (wrap idx)
  pure (acc.1 ++ [v], acc.2 + consumed)

namespace ReadsExactly

variable {read : Bytes → Except ε (α × ℕ)} {write : α → Bytes} {canon : Set α}

/-- A value read off a string is in front of what follows it. -/
lemma eq_append_drop (h : ReadsExactly read write canon) {buf : Bytes} {v : α} {n : ℕ}
    (hread : read buf = .ok (v, n)) : v ∈ canon ∧ buf = write v ++ buf.drop n := by
  obtain ⟨hv, rfl, rest, rfl⟩ := (h buf v n).mp hread
  exact ⟨hv, by rw [List.drop_left]⟩

/-- A written value is read back, with its width. -/
lemma read_append (h : ReadsExactly read write canon) {v : α} (hv : v ∈ canon) (rest : Bytes) :
    read (write v ++ rest) = .ok (v, (write v).length) :=
  (h _ v _).mpr ⟨hv, rfl, List.prefix_append _ _⟩

/-- A value and what follows it are read off exactly the strings that are its written form with
that behind it. -/
lemma read_and_rest_iff (h : ReadsExactly read write canon) {buf rest : Bytes} {v : α} :
    (∃ n, read buf = .ok (v, n) ∧ (sliceFrom buf n).getD [] = rest) ↔
      v ∈ canon ∧ buf = write v ++ rest := by
  constructor
  · rintro ⟨n, hread, rfl⟩
    obtain ⟨hv, rfl, t, rfl⟩ := (h buf v n).mp hread
    exact ⟨hv, by rw [getD_sliceFrom_of_append]⟩
  · rintro ⟨hv, rfl⟩
    exact ⟨_, h.read_append hv rest, getD_sliceFrom_of_append⟩

lemma readNext_eq_ok_iff (h : ReadsExactly read write canon) {wrap : ℕ → ε → ε} {buf : Bytes}
    {us : List α} {idx : ℕ} {out : List α × ℕ} (hus : us.flatMap write <+: buf) :
    readNext read wrap buf (us, (us.flatMap write).length) idx = .ok out ↔
      ∃ v ∈ canon, out = (us ++ [v], ((us ++ [v]).flatMap write).length) ∧
        (us ++ [v]).flatMap write <+: buf := by
  have happ : ∀ v, (us ++ [v]).flatMap write = us.flatMap write ++ write v := by
    intro v
    simp
  simp only [readNext, Except.bind_eq_ok_iff, Except.mapError_eq_ok_iff, Prod.exists,
    happ, List.length_append]
  constructor
  · rintro ⟨v, m, hread, hout⟩
    obtain ⟨hv, rfl, hpre⟩ := (h _ v m).mp hread
    exact ⟨v, hv, (Except.ok.inj hout).symm, (append_prefix_iff hus).mpr hpre⟩
  · rintro ⟨v, hv, rfl, hpre⟩
    exact ⟨v, (write v).length, (h _ v _).mpr ⟨hv, rfl, (append_prefix_iff hus).mp hpre⟩, rfl⟩

/-- A counted loop of an exact reader reads exactly the lists of that length. -/
lemma readMany_eq_ok_iff (h : ReadsExactly read write canon) (wrap : ℕ → ε → ε) (buf : Bytes)
    (count : ℕ) : ∀ vs n,
    (List.range count).foldlM (readNext read wrap buf) ([], 0) = .ok (vs, n) ↔
      (∀ v ∈ vs, v ∈ canon) ∧ n = (vs.flatMap write).length ∧ vs.flatMap write <+: buf ∧
        vs.length = count := by
  -- induction on the count: the last step reads behind everything read before it
  induction count with
  | zero =>
      intro vs n
      constructor
      · intro hrun
        obtain ⟨rfl, rfl⟩ := Prod.mk.inj (Except.ok.inj hrun)
        simp
      · rintro ⟨-, rfl, -, hlen⟩
        rw [List.length_eq_zero_iff.mp hlen]
        rfl
  | succ count ih =>
      intro vs n
      rw [List.range_succ, List.foldlM_append, Except.bind_eq_ok_iff]
      constructor
      · rintro ⟨⟨us, m⟩, hrun, hlast⟩
        obtain ⟨hus, rfl, hpre, rfl⟩ := (ih us m).mp hrun
        rw [List.foldlM_cons, Except.bind_eq_ok_iff] at hlast
        obtain ⟨out, hnext, hend⟩ := hlast
        obtain ⟨v, hv, rfl, hpre'⟩ := (h.readNext_eq_ok_iff hpre).mp hnext
        obtain ⟨rfl, rfl⟩ := Prod.mk.inj (Except.ok.inj hend)
        refine ⟨?_, rfl, hpre', by simp⟩
        intro u hu
        rcases List.mem_append.mp hu with hu | hu
        · exact hus u hu
        · rwa [List.mem_singleton.mp hu]
      · rintro ⟨hvs, rfl, hpre, hlen⟩
        obtain ⟨us, v, rfl⟩ : ∃ us v, vs = us ++ [v] := by
          refine ⟨vs.dropLast, vs.getLast ?_, (List.dropLast_append_getLast _).symm⟩
          rintro rfl
          simp at hlen
        have hus : us.flatMap write <+: buf := by
          rw [List.flatMap_append] at hpre
          exact (List.prefix_append _ _).trans hpre
        refine ⟨(us, (us.flatMap write).length), (ih us _).mpr ⟨?_, rfl, hus, ?_⟩, ?_⟩
        · intro u hu
          exact hvs u (List.mem_append_left _ hu)
        · simpa using hlen
        · rw [List.foldlM_cons, Except.bind_eq_ok_iff]
          exact ⟨_, (h.readNext_eq_ok_iff hus).mpr ⟨v, hvs v (by simp), rfl, hpre⟩, rfl⟩

end ReadsExactly

end ByteString
