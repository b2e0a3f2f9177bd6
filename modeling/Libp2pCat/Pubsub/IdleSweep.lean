import Libp2pCat.Pubsub.Lifecycle

/-!
Idle sweeps of the topics, over whole runs.

* `PubsubLabel.stamps`: the role of a topic that an operation registers or that its frame
  refreshes; `PubsubState.stampOf`: the stamp of a role.
* `Stamping`: what an operation does to the stamps, said once; `PubsubMux.Step.stamping`.
* `PubsubMux.Counts`, `clockMoves`: operations that record whether they moved the clock.
  `OnTime`: the clock shows the number of moves and no stamp is ahead of it.
* `idle_sweep_exact`: a role has the time right after the last operation that stamped it, and
  sweeps go by these stamps.
-/

namespace Libp2pCat.Pubsub

open ByteString Effect Std Trace

variable {C : Crypto} {R : Rlnc} {A : PubsubAuth}

/-! ### Stamps -/

/-- The role of a topic that the answer to a frame refreshes. -/
def MuxEvent.refreshes : MuxEvent → Option (Topic × Role)
  | .pubsubAbsorbed _ topic => some (topic, .decoder)
  | .pubsubRelayed _ topic _ | .pubsubRedundant _ topic => some (topic, .relay)
  | _ => none

/-- The role of a topic that an operation registers, or that its frame refreshes. -/
def PubsubLabel.stamps (l : PubsubLabel A) : Option (Topic × Role) :=
  match l.event? with
  | some event => event.refreshes
  | none => l.registration

/-- The stamp of a role of a topic. -/
def PubsubState.stampOf (state : PubsubState R A) (topic : Topic) : Role → Option UInt64
  | .decoder => state.decoders[topic]?.map DecoderEntry.lastActivity
  | .relay => state.recoders[topic]?.map RecoderEntry.lastActivity

/-- What an operation does to the stamps: it stamps one role with the time after it, or it drops
roles at most. -/
inductive Stamping (state : PubsubState R A) :
    Option (Topic × Role) → PubsubState R A → Prop where
  | decoder {topic : Topic} {entry : DecoderEntry R A}
      (hstamp : entry.lastActivity = state.tick + 1) :
      Stamping state (some (topic, .decoder))
        { state with decoders := state.decoders.insert topic entry, tick := state.tick + 1 }
  | relay {topic : Topic} {entry : RecoderEntry R A}
      (hstamp : entry.lastActivity = state.tick + 1) :
      Stamping state (some (topic, .relay))
        { state with recoders := state.recoders.insert topic entry, tick := state.tick + 1 }
  | drops {state' : PubsubState R A}
      (hdecoders : ∀ (topic : Topic) entry, state'.decoders[topic]? = some entry →
        state.decoders[topic]? = some entry)
      (hrecoders : ∀ (topic : Topic) entry, state'.recoders[topic]? = some entry →
        state.recoders[topic]? = some entry)
      (htick : state'.tick = state.tick ∨ state'.tick = state.tick + 1) :
      Stamping state none state'

/-- An unchanged state. -/
lemma Stamping.refl (state : PubsubState R A) : Stamping state none state :=
  .drops (fun _ _ h => h) (fun _ _ h => h) (Or.inl rfl)

/-- A plaintext stamps the role that its answer refreshes. -/
lemma Reaction.stamping {state state' : PubsubState R A} {addr : UdpAddr} {plaintext : Bytes}
    {event : MuxEvent} (h : Reaction state addr plaintext state' event) :
    Stamping state event.refreshes state' := by
  cases h with
  | relayRedundant | relayed => exact .relay rfl
  | decoder _ _ _ houtcome =>
      cases houtcome with
      | unverified => exact .refl state
      | absorbed => exact .decoder rfl
      | unabsorbed =>
          exact .drops (fun _ _ => ExtTreeMap.getElem?_of_erase) (fun _ _ h => h) (Or.inl rfl)
      | delivered | undecodable =>
          exact .drops (fun _ _ => ExtTreeMap.getElem?_of_erase) (fun _ _ h => h) (Or.inr rfl)
  | _ => exact .refl state

/-- An operation stamps what it registers or what its frame refreshes. -/
lemma PubsubMux.Step.stamping {mux mux' : PubsubMux C R A} {l : PubsubLabel A}
    (h : Step mux l mux') : Stamping mux.state l.stamps mux'.state := by
  obtain ⟨plaintext, hreads⟩ := h.reads
  cases plaintext with
  | some plaintext =>
      obtain ⟨addr, event, hreact, hevent⟩ := hreads.reaction
      rw [PubsubLabel.stamps, hevent]
      exact hreact.stamping
  | none =>
      cases hreads with
      | @passedOn _ host seed hostEvent rng event w w₁ w' hrecv hnot hproc =>
          cases hostEvent with
          | datagramDelivered addr plaintext => exact absurd rfl (hnot addr plaintext)
          | _ =>
              cases hproc
              exact .refl mux.state
      | other hstep hevent =>
          rw [PubsubLabel.stamps, hevent]
          cases hstep with
          | registerTopic => exact .decoder rfl
          | registerRelay => exact .relay rfl
          | unregisterTopic =>
              exact .drops (fun _ _ => ExtTreeMap.getElem?_of_erase) (fun _ _ h => h) (Or.inr rfl)
          | unregisterRelay =>
              exact .drops (fun _ _ h => h) (fun _ _ => ExtTreeMap.getElem?_of_erase) (Or.inr rfl)
          | evictIdleTopics =>
              exact .drops (fun _ _ => Lru.getElem?_of_sweep) (fun _ _ h => h) (Or.inr rfl)
          | evictIdleRelays =>
              exact .drops (fun _ _ h => h) (fun _ _ => Lru.getElem?_of_sweep) (Or.inr rfl)
          | dial hrun =>
              obtain ⟨host, -, rfl⟩ := Io.map_run_eq_ok.mp hrun
              exact .refl mux.state
          | sendApp hrun =>
              obtain ⟨host, -, rfl⟩ := Io.map_run_eq_ok.mp hrun
              exact .refl mux.state
          | broadcast hrun =>
              obtain ⟨pieces, w₁, -, hrun⟩ := Io.flatMap_run_eq_ok.mp hrun
              obtain ⟨frames, w₂, -, hrun⟩ := Io.flatMap_run_eq_ok.mp hrun
              have hsame := fanOutAll_state hrun
              rw [hsame]
              exact .refl mux.state
          | processPlaintext | recvOne => cases hevent

/-- A stamp in a table with one entry inserted. -/
lemma activity_of_insert {V : Type} {activity : V → UInt64} {map : BTreeMap Topic V}
    {topic topic' : Topic} {entry : V} {stamp : UInt64}
    (h : (map.insert topic' entry)[topic]?.map activity = some stamp) :
    (topic' = topic ∧ stamp = activity entry) ∨
      (topic' ≠ topic ∧ map[topic]?.map activity = some stamp) := by
  by_cases ht : topic' = topic
  · subst ht
    rw [ExtTreeMap.getElem?_insert_self] at h
    exact Or.inl ⟨rfl, (Option.some.inj h).symm⟩
  · rw [ExtTreeMap.getElem?_insert_of_ne ht] at h
    exact Or.inr ⟨ht, h⟩

/-- A stamp is the time after an operation that stamps its role, or it was there before. -/
lemma Stamping.stampOf {state state' : PubsubState R A} {r : Option (Topic × Role)}
    (h : Stamping state r state') {topic : Topic} {role : Role} {stamp : UInt64}
    (hstamp : state'.stampOf topic role = some stamp) :
    (r = some (topic, role) ∧ stamp = state'.tick) ∨
      (r ≠ some (topic, role) ∧ state.stampOf topic role = some stamp) := by
  cases h with
  | decoder hnew =>
      cases role with
      | relay => exact Or.inr ⟨by simp, hstamp⟩
      | decoder =>
          rcases activity_of_insert hstamp with ⟨rfl, hset⟩ | ⟨ht, hold⟩
          · exact Or.inl ⟨rfl, hset.trans hnew⟩
          · exact Or.inr ⟨by simpa using ht, hold⟩
  | relay hnew =>
      cases role with
      | decoder => exact Or.inr ⟨by simp, hstamp⟩
      | relay =>
          rcases activity_of_insert hstamp with ⟨rfl, hset⟩ | ⟨ht, hold⟩
          · exact Or.inl ⟨rfl, hset.trans hnew⟩
          · exact Or.inr ⟨by simpa using ht, hold⟩
  | drops hdecoders hrecoders htick =>
      refine Or.inr ⟨nofun, ?_⟩
      cases role with
      | decoder =>
          obtain ⟨e, he, rfl⟩ := Option.map_eq_some_iff.mp hstamp
          exact Option.map_eq_some_iff.mpr ⟨e, hdecoders topic e he, rfl⟩
      | relay =>
          obtain ⟨e, he, rfl⟩ := Option.map_eq_some_iff.mp hstamp
          exact Option.map_eq_some_iff.mpr ⟨e, hrecoders topic e he, rfl⟩

lemma Stamping.tick {state state' : PubsubState R A} {r : Option (Topic × Role)}
    (h : Stamping state r state') : state'.tick = state.tick ∨ state'.tick = state.tick + 1 := by
  cases h with
  | drops _ _ htick => exact htick
  | _ => exact Or.inr rfl

/-! ### Counted runs -/

/-- An operation, and whether it moved the clock. -/
def PubsubMux.Counts (mux : PubsubMux C R A) (x : PubsubLabel A × Bool) (mux' : PubsubMux C R A) :
    Prop :=
  PubsubMux.Step mux x.1 mux' ∧ x.2 = decide (mux'.state.tick ≠ mux.state.tick)

/-- Every operation is counted. -/
lemma PubsubMux.Step.counts {mux mux' : PubsubMux C R A} {l : PubsubLabel A}
    (h : PubsubMux.Step mux l mux') :
    PubsubMux.Counts mux (l, decide (mux'.state.tick ≠ mux.state.tick)) mux' :=
  ⟨h, rfl⟩

/-- How often the clock moved. -/
def clockMoves (l : List (PubsubLabel A × Bool)) : ℕ := l.countP Prod.snd

/-- The clock shows how often it moved, and no stamp is ahead of it. -/
structure OnTime (n : ℕ) (state : PubsubState R A) : Prop where
  tick : state.tick.toNat = n
  behind : ∀ {topic role stamp}, state.stampOf topic role = some stamp → stamp.toNat ≤ n

lemma onTime_new : OnTime 0 (PubsubState.new : PubsubState R A) := by
  refine ⟨rfl, fun {topic role stamp} h => ?_⟩
  cases role <;> simp [PubsubState.stampOf, PubsubState.new] at h

lemma clockMoves_append (l : List (PubsubLabel A × Bool)) (x : PubsubLabel A × Bool) :
    clockMoves (l ++ [x]) = clockMoves l + if x.2 then 1 else 0 := by
  rw [clockMoves, List.countP_append, List.countP_singleton]
  rfl

/-- A clock that does not wrap counts its moves. -/
lemma OnTime.step {n : ℕ} {mux mux' : PubsubMux C R A} {x : PubsubLabel A × Bool}
    (h : OnTime n mux.state) (hstep : PubsubMux.Counts mux x mux')
    (hfew : n + (if x.2 then 1 else 0) < 2 ^ 64) :
    OnTime (n + if x.2 then 1 else 0) mux'.state := by
  obtain ⟨hop, hcount⟩ := hstep
  have hstamping := hop.stamping
  have htick : mux'.state.tick.toNat = n + if x.2 then 1 else 0 := by
    rw [hcount] at hfew ⊢
    exact Lru.toNat_of_moved hstamping.tick h.tick hfew
  refine ⟨htick, fun {topic role stamp} hstamp => ?_⟩
  rcases hstamping.stampOf hstamp with ⟨-, rfl⟩ | ⟨-, hold⟩
  · exact htick.le
  · exact (h.behind hold).trans (Nat.le_add_right _ _)

lemma onTime_run {host : Host C} {l : List (PubsubLabel A × Bool)} {mux : PubsubMux C R A}
    (hrun : Run PubsubMux.Counts (.new host) l mux) (hfew : clockMoves l < 2 ^ 64) :
    OnTime (clockMoves l) mux.state := by
  induction hrun with
  | nil => exact onTime_new
  | snoc _ hstep ih =>
      rw [clockMoves_append] at hfew ⊢
      exact (ih (by omega)).step hstep hfew

/-! ### Sweeps -/

/-- A sweep of the topics, or of the relays, takes exactly what was idle for more than `m` ticks,
and leaves the other table alone. -/
structure PubsubState.SweepsExactly (state : PubsubState R A) (m : UInt64) : Prop where
  topics : Lru.Swept (fun entry => entry.lastActivity.toNat) state.tick.toNat m.toNat
    state.decoders (state.evictIdleTopics m).1.decoders (state.evictIdleTopics m).2
  topics_recoders : (state.evictIdleTopics m).1.recoders = state.recoders
  relays : Lru.Swept (fun entry => entry.lastActivity.toNat) state.tick.toNat m.toNat
    state.recoders (state.evictIdleRelays m).1.recoders (state.evictIdleRelays m).2
  relays_decoders : (state.evictIdleRelays m).1.decoders = state.decoders

lemma PubsubState.sweepsExactly (state : PubsubState R A) (m : UInt64) :
    state.SweepsExactly m where
  topics := Lru.swept_sweep _ _ _ _
  topics_recoders := rfl
  relays := Lru.swept_sweep _ _ _ _
  relays_decoders := rfl

/-- The idle sweeps are exact.  In every run of a fresh node whose clock moves less than `2 ^ 64`
times: no stamp of a decoder or a recoder is ahead of the clock, and it is the time right after the
last operation that registered its role or whose frame refreshed it; a refused frame refreshes
nothing; and every sweep takes exactly what was idle for too long. -/
theorem idle_sweep_exact {host : Host C} {l : List (PubsubLabel A × Bool)}
    {mux : PubsubMux C R A} (hrun : Run PubsubMux.Counts (.new host) l mux)
    (hfew : clockMoves l < 2 ^ 64) :
    (∀ topic role stamp, mux.state.stampOf topic role = some stamp →
      stamp.toNat ≤ mux.state.tick.toNat ∧
      ∃ l₁ x l₂ t t', l = l₁ ++ x :: l₂ ∧ Run PubsubMux.Counts (.new host) l₁ t ∧
        PubsubMux.Counts t x t' ∧ x.1.stamps = some (topic, role) ∧ stamp = t'.state.tick ∧
        (∀ y ∈ l₂, y.1.stamps ≠ some (topic, role)) ∧
        Run (Run.within (fun u => u.state.stampOf topic role = some stamp) PubsubMux.Counts) t' l₂
          mux) ∧
    (∀ x mux' addr reason topic role stamp, PubsubMux.Counts mux x mux' →
      x.1.event? = some (.rejected addr reason) → mux'.state.stampOf topic role = some stamp →
      mux.state.stampOf topic role = some stamp) ∧
    ∀ m, mux.state.SweepsExactly m := by
  have htime := onTime_run hrun hfew
  refine ⟨fun topic role stamp hstamp => ⟨?_, ?_⟩, ?_, mux.state.sweepsExactly⟩
  · rw [htime.tick]
    exact htime.behind hstamp
  · refine hrun.exists_last_touch (T := fun x => x.1.stamps = some (topic, role))
      (f := fun u => u.state.stampOf topic role) (g := fun u => u.state.tick)
      (fun _ u x u' _ hstep hafter => ?_) ?_ hstamp
    · exact hstep.1.stamping.stampOf hafter
    · cases role <;> simp [PubsubState.stampOf, PubsubMux.new, PubsubState.new]
  · intro x mux' addr reason topic role stamp hstep hrefused hstamp
    have hnone : x.1.stamps = none := by
      rw [PubsubLabel.stamps, hrefused]
      rfl
    rcases hstep.1.stamping.stampOf hstamp with ⟨htouch, -⟩ | ⟨-, hold⟩
    · rw [hnone] at htouch
      cases htouch
    · exact hold

/-- A relay is registered, relays a piece and sees the clock move once more: its stamp is the time
of the piece, and only a sweep of what was idle at all takes it. -/
theorem idle_sweep_exact_sample :
    ∃ (l : List (PubsubLabel nullAuthenticator × Bool))
      (mux : PubsubMux sampleCrypto sampleRlnc nullAuthenticator),
      Run PubsubMux.Counts (.new (sampleHost 1)) l mux ∧
      mux.state.stampOf sampleTopic .relay = some 2 ∧ mux.state.tick = 3 ∧
      (mux.state.evictIdleRelays 0).2 = [sampleTopic] ∧ (mux.state.evictIdleRelays 1).2 = [] ∧
      mux.state.SweepsExactly 0 ∧
      ∃ x l₂, x ∈ l ∧ x.1.stamps = some (sampleTopic, .relay) ∧ l₂ <:+ l ∧
        ∀ y ∈ l₂, y.1.stamps ≠ some (sampleTopic, .relay) := by
  have hchecks : (processed sampleRelay sampleFrame).map (fun r =>
      let state := r.1.state.unregisterTopic sampleTopic
      (state.stampOf sampleTopic .relay, state.tick, (state.evictIdleRelays 0).2,
        (state.evictIdleRelays 1).2))
      = some (some 2, 3, [sampleTopic], []) := by decide +kernel
  obtain ⟨⟨mux, event⟩, hproc, hvalues⟩ := Option.map_eq_some_iff.mp hchecks
  simp only [Prod.mk.injEq] at hvalues
  obtain ⟨hstamp, htick, htaken, hkept⟩ := hvalues
  rw [processed] at hproc
  split at hproc
  · rename_i r w' hrun
    cases hproc
    have hregister : PubsubMux.Step (.new (sampleHost 1)) (.registerRelay sampleTopic 2 2 ())
        sampleRelay := .registerRelay _ _ _ _ _
    have hpiece : PubsubMux.Step sampleRelay (.processPlaintext event) mux := .processPlaintext hrun
    have hcounts := ((Run.single hregister.counts).snoc hpiece.counts).snoc
      (PubsubMux.Step.unregisterTopic mux sampleTopic).counts
    obtain ⟨hstamps, -, hsweeps⟩ := idle_sweep_exact hcounts
      (Nat.lt_of_le_of_lt List.countP_le_length (by norm_num))
    obtain ⟨-, l₁, x, l₂, t, t', hl, -, -, htouch, -, hquiet, -⟩ := hstamps _ _ _ hstamp
    refine ⟨_, _, hcounts, hstamp, htick, htaken, hkept, hsweeps 0, x, l₂, ?_, htouch, ?_, hquiet⟩
    · rw [hl]
      exact List.mem_append_right _ List.mem_cons_self
    · rw [hl]
      exact ⟨l₁ ++ [x], by simp⟩
  · cases hproc

end Libp2pCat.Pubsub
