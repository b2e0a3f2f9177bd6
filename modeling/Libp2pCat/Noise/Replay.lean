import Libp2pCat.Noise.Transport

/-!
The replay window over whole sequences of nonces.

* `Replay.offer`: one nonce offered to a window, recorded if it passes; `Replay.accepted` are the
  nonces that passed.
* `subOrPanic`, `shlOrPanic`, `nonceAcceptableOrPanic`, `advanceWindowOrPanic`: the two functions
  with the arithmetic checked as the language checks it, where a subtraction below zero and a
  shift by the width of its operand are panics.
* `replay_window_exact`: after any sequence the window is the record of the accepted nonces, the
  test is exact, and no panic is reached.
-/

namespace Libp2pCat

/-! ### Checked arithmetic -/

/-- A subtraction that panics below zero. -/
def subOrPanic (a b : UInt64) : Option UInt64 := if b ≤ a then some (a - b) else none

/-- A shift that panics when it is as wide as its operand. -/
def shlOrPanic (a s : UInt64) : Option UInt64 := if s.toNat < 64 then some (a <<< s) else none

/-- `nonceAcceptable` with its panics. -/
def nonceAcceptableOrPanic (window maxNonce incoming : UInt64) : Option (Except Error Unit) :=
  if maxNonce < incoming then some (.ok ())
  else do
    let distance ← subOrPanic maxNonce incoming
    if REPLAY_WINDOW_BITS ≤ distance.toNat then some (.error (.noiseReplay incoming))
    else do
      let bit ← shlOrPanic 1 distance
      if window &&& bit ≠ 0 then some (.error (.noiseReplay incoming)) else some (.ok ())

/-- `advanceWindow` with its panics. -/
def advanceWindowOrPanic (window maxNonce incoming : UInt64) : Option (UInt64 × UInt64) :=
  if maxNonce < incoming then do
    let shift ← subOrPanic incoming maxNonce
    let newWindow ←
      if REPLAY_WINDOW_BITS ≤ shift.toNat then some 1
      else (shlOrPanic window shift).map fun shifted => shifted ||| 1
    some (newWindow, incoming)
  else do
    let distance ← subOrPanic maxNonce incoming
    let bit ← shlOrPanic 1 distance
    some (window ||| bit, maxNonce)

lemma subOrPanic_of_le {a b : UInt64} (h : b ≤ a) : subOrPanic a b = some (a - b) := if_pos h

lemma shlOrPanic_of_lt {s : UInt64} (a : UInt64) (h : s.toNat < 64) :
    shlOrPanic a s = some (a <<< s) := if_pos h

/-- The test never panics. -/
lemma nonceAcceptableOrPanic_eq (window maxNonce incoming : UInt64) :
    nonceAcceptableOrPanic window maxNonce incoming
      = some (nonceAcceptable window maxNonce incoming) := by
  rw [nonceAcceptableOrPanic, nonceAcceptable]
  by_cases hlt : maxNonce < incoming
  · rw [if_pos hlt, if_pos hlt]
  · have hle : incoming ≤ maxNonce := UInt64.not_lt.mp hlt
    simp only [if_neg hlt, subOrPanic_of_le hle, Option.bind_eq_bind, Option.bind_some]
    by_cases hold : REPLAY_WINDOW_BITS ≤ (maxNonce - incoming).toNat
    · rw [if_pos hold, if_pos hold]
    · simp only [if_neg hold, shlOrPanic_of_lt 1 (not_le.mp hold), Option.bind_some]
      split <;> rfl

/-- Recording a nonce that passed the test does not panic. -/
lemma advanceWindowOrPanic_eq {window maxNonce incoming : UInt64}
    (hacc : nonceAcceptable window maxNonce incoming = .ok ()) :
    advanceWindowOrPanic window maxNonce incoming
      = some (advanceWindow window maxNonce incoming) := by
  rw [advanceWindowOrPanic, advanceWindow]
  by_cases hlt : maxNonce < incoming
  · simp only [if_pos hlt, subOrPanic_of_le (UInt64.le_of_lt hlt), Option.bind_eq_bind,
      Option.bind_some]
    by_cases hfar : REPLAY_WINDOW_BITS ≤ (incoming - maxNonce).toNat
    · rw [if_pos hfar, if_pos hfar]
    · rw [if_neg hfar, if_neg hfar, shlOrPanic_of_lt window (not_le.mp hfar)]
      rfl
  · have hle : incoming ≤ maxNonce := UInt64.not_lt.mp hlt
    -- the test has seen that the distance is inside the window
    have hd : (maxNonce - incoming).toNat < 64 := by
      rw [nonceAcceptable, if_neg hlt] at hacc
      by_contra hold
      rw [if_pos (not_lt.mp hold)] at hacc
      cases hacc
    simp only [if_neg hlt, subOrPanic_of_le hle, shlOrPanic_of_lt 1 hd, Option.bind_eq_bind,
      Option.bind_some]

/-! ### Sequences of nonces -/

/-- A replay window and the nonces it has accepted, the latest first. -/
structure Replay where
  window : UInt64
  maxNonce : UInt64
  accepted : List UInt64

namespace Replay

/-- The window of a connection nobody has used yet. -/
def fresh : Replay := ⟨0, 0, []⟩

/-- Offer a nonce: it is recorded if it passes the test. -/
def offer (s : Replay) (incoming : UInt64) : Replay :=
  match nonceAcceptable s.window s.maxNonce incoming with
  | .ok () =>
      let (window, maxNonce) := advanceWindow s.window s.maxNonce incoming
      ⟨window, maxNonce, incoming :: s.accepted⟩
  | .error _ => s

/-- A fresh window after a sequence of nonces. -/
def after (nonces : List UInt64) : Replay := nonces.foldl offer fresh

/-- The set of the accepted nonces, as numbers. -/
def record (s : Replay) : Set ℕ := {n | ∃ nonce ∈ s.accepted, nonce.toNat = n}

/-- The window is the record of the accepted nonces. -/
def Exact (s : Replay) : Prop := (windowOf s.window s.maxNonce).Represents 64 s.record

lemma toNat_mem_record_iff {s : Replay} {nonce : UInt64} :
    nonce.toNat ∈ s.record ↔ nonce ∈ s.accepted := by
  constructor
  · rintro ⟨n, hn, heq⟩
    rwa [← UInt64.toNat_inj.mp heq]
  · intro h
    exact ⟨nonce, h, rfl⟩

lemma exact_fresh : fresh.Exact := by
  have hempty : fresh.record = ∅ := by simp [record, fresh]
  rw [Exact, hempty]
  refine (Window.represents_empty 64).congr rfl fun i _ => ?_
  simp [windowOf, fresh, Window.empty]

/-- One more nonce keeps the record true. -/
lemma Exact.offer {s : Replay} (h : s.Exact) (incoming : UInt64) : (s.offer incoming).Exact := by
  rw [Replay.offer]
  cases hacc : nonceAcceptable s.window s.maxNonce incoming with
  | error e => exact h
  | ok u =>
      have hrecord : insert incoming.toNat s.record
          = record ⟨(advanceWindow s.window s.maxNonce incoming).1,
              (advanceWindow s.window s.maxNonce incoming).2, incoming :: s.accepted⟩ := by
        ext n
        simp [record, eq_comm]
      have hadv := windowOf_advanceWindow h hacc
      rw [hrecord] at hadv
      exact hadv

/-- The record stays true over any sequence of nonces. -/
lemma Exact.run {s : Replay} (h : s.Exact) (nonces : List UInt64) :
    (nonces.foldl Replay.offer s).Exact := by
  induction nonces generalizing s with
  | nil => exact h
  | cons n nonces ih => exact ih (h.offer n)

/-- The greatest nonce of the window is the greatest one accepted. -/
lemma Exact.isGreatest {s : Replay} (h : s.Exact) :
    (s.accepted = [] ∧ s.maxNonce = 0) ∨ IsGreatest {n | n ∈ s.accepted} s.maxNonce := by
  cases hacc : s.accepted with
  | nil =>
      left
      have hzero := h.max_empty (by simp [record, hacc])
      exact ⟨rfl, UInt64.toNat_inj.mp hzero⟩
  | cons n accepted =>
      right
      rw [← hacc]
      have hn : n ∈ s.accepted := by rw [hacc]; exact List.mem_cons_self
      refine ⟨toNat_mem_record_iff.mp (h.max_mem ⟨_, toNat_mem_record_iff.mpr hn⟩), ?_⟩
      intro m hm
      exact UInt64.le_iff_toNat_le.mpr (h.le_max _ (toNat_mem_record_iff.mpr hm))

end Replay

/-- After any sequence of nonces offered to a fresh window: the greatest nonce is the greatest one
accepted (0 if there is none), bit `i` is set exactly when the nonce `i` below it was accepted, a
nonce passes exactly when it was never accepted and is above the window or inside it, and neither
the test of a nonce nor the recording of one that passes reaches a panic. -/
theorem replay_window_exact (nonces : List UInt64) :
    (((Replay.after nonces).accepted = [] ∧ (Replay.after nonces).maxNonce = 0) ∨
      IsGreatest {n | n ∈ (Replay.after nonces).accepted} (Replay.after nonces).maxNonce) ∧
    (∀ i < 64, i ≤ (Replay.after nonces).maxNonce.toNat →
      ((Replay.after nonces).window.toNat.testBit i = true ↔
        ∃ n ∈ (Replay.after nonces).accepted, n.toNat = (Replay.after nonces).maxNonce.toNat - i)) ∧
    (∀ n, nonceAcceptable (Replay.after nonces).window (Replay.after nonces).maxNonce n = .ok () ↔
      n ∉ (Replay.after nonces).accepted ∧
        ((Replay.after nonces).maxNonce < n ∨ (Replay.after nonces).maxNonce.toNat - n.toNat < 64)) ∧
    (∀ n, nonceAcceptableOrPanic (Replay.after nonces).window (Replay.after nonces).maxNonce n
      = some (nonceAcceptable (Replay.after nonces).window (Replay.after nonces).maxNonce n)) ∧
    ∀ n, nonceAcceptable (Replay.after nonces).window (Replay.after nonces).maxNonce n = .ok () →
      advanceWindowOrPanic (Replay.after nonces).window (Replay.after nonces).maxNonce n
        = some (advanceWindow (Replay.after nonces).window (Replay.after nonces).maxNonce n) := by
  have h : (Replay.after nonces).Exact := Replay.exact_fresh.run nonces
  refine ⟨h.isGreatest, fun i hi hle => h.bit_iff i hi hle, fun n => ?_,
    fun n => nonceAcceptableOrPanic_eq _ _ n, fun n => advanceWindowOrPanic_eq⟩
  rw [nonceAcceptable_iff, h.accepts_iff, Replay.toNat_mem_record_iff, UInt64.lt_iff_toNat_lt]
  rfl

end Libp2pCat
