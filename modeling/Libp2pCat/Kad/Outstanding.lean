import Libp2pCat.Kad.Survival
import Libp2pCat.Kad.Bounds

/-!
What a lookup waits for, and what its shortlist says about it.

* `Lookup.Accounted`: the shortlist shows a query or a dial exactly for the peers the lookup
  waits for; `Lookup.Idle`: it shows none; `Phase.Orderly`: it shows none between rounds.
* `Lookup.pending`: queries and dials are treated alike; `Lookup.Tracked`: what is shown is
  waited for.  Marking, events and the end of a round keep it or restore it, unless a round acts
  twice on one address (`Lookup.tracked_markActions`, `Lookup.Tracked.nodup_slot`).
* `orderly_iff`: a lookup leaves nobody hanging exactly when no round picks an address twice;
  `shared_address_left_in_flight`: a round that does.
-/

namespace Libp2pCat.Kad

open ByteString Effect Trace Std

variable {C : Crypto} {N : Type}

namespace Lookup

/-- The shortlist shows what the lookup waits for. -/
structure Accounted (lookup : Lookup) : Prop where
  inFlight_iff : ∀ (d : Distance) (e : LookupEntry), lookup.entries[d]? = some e →
    (e.status = .inFlight ↔ lookup.pendingQueries[e.addr]? = some e.nodeId)
  dialing_iff : ∀ (d : Distance) (e : LookupEntry), lookup.entries[d]? = some e →
    (e.status = .dialing ↔ lookup.pendingDials[e.addr]? = some e.nodeId)

/-- The shortlist shows no query and no dial. -/
def Idle (lookup : Lookup) : Prop :=
  ∀ (d : Distance) (e : LookupEntry), lookup.entries[d]? = some e →
    e.status ≠ .inFlight ∧ e.status ≠ .dialing

end Lookup

/-- The shortlist shows what is waited for, and between rounds that is nobody. -/
structure Phase.Orderly (p : Phase) : Prop where
  accounted : p.lookup.Accounted
  idle : ∀ (lookup : Lookup) (roundsLeft : ℕ), p = .head lookup roundsLeft → lookup.Idle

/-! ### Queries and dials alike -/

/-- A query or a dial is under way. -/
def LookupStatus.Open (s : LookupStatus) : Prop := s = .inFlight ∨ s = .dialing

lemma LookupStatus.Open.ne_done {s : LookupStatus} (h : s.Open) : s ≠ .done := by
  rcases h with rfl | rfl <;> nofun

lemma LookupStatus.Open.ne_unqueried {s : LookupStatus} (h : s.Open) : s ≠ .unqueried := by
  rcases h with rfl | rfl <;> nofun

/-- What an action is noted under. -/
def RoundAction.slot (action : RoundAction) : UdpAddr × LookupStatus :=
  (action.addr, action.status)

namespace Lookup

variable {lookup : Lookup} {id id' : NodeId} {addr a : UdpAddr} {s : LookupStatus}
  {action : RoundAction} {actions : List (NodeId × RoundAction)}

/-- The peers that a status is waited for from. -/
def pending (lookup : Lookup) : LookupStatus → BTreeMap UdpAddr NodeId
  | .inFlight => lookup.pendingQueries
  | .dialing => lookup.pendingDials
  | _ => ∅

/-- What the shortlist shows is waited for. -/
def Tracked (lookup : Lookup) : Prop :=
  ∀ (a : UdpAddr) (id : NodeId) (s : LookupStatus), s.Open → lookup.Has id a s →
    (lookup.pending s)[a]? = some id

lemma Sound.has_of_pending (h : lookup.Sound) (hp : (lookup.pending s)[a]? = some id) :
    lookup.Has id a s := by
  cases s with
  | inFlight => exact h.queried a id hp
  | dialing => exact h.dialed a id hp
  | _ => simp [pending] at hp

lemma Sound.has_of_entry (h : lookup.Sound) {d : Distance} {e : LookupEntry}
    (he : lookup.entries[d]? = some e) : lookup.Has e.nodeId e.addr e.status := by
  rw [Has, h.keyed d e he]
  exact he

lemma Sound.status_eq_iff (h : lookup.Sound) (htracked : lookup.Tracked) (hs : s.Open)
    {d : Distance} {e : LookupEntry} (he : lookup.entries[d]? = some e) :
    e.status = s ↔ (lookup.pending s)[e.addr]? = some e.nodeId := by
  have hhas := h.has_of_entry he
  constructor
  · rintro rfl
    exact htracked _ _ _ hs hhas
  · intro hp
    have hwaited := h.has_of_pending hp
    rw [Has, hhas] at hwaited
    exact congrArg LookupEntry.status (Option.some.inj hwaited)

/-- In a sound lookup the shortlist shows everything that is waited for. -/
lemma Sound.accounted_iff (h : lookup.Sound) : lookup.Accounted ↔ lookup.Tracked := by
  constructor
  · rintro hacc a id s (rfl | rfl) hhas
    · exact (hacc.inFlight_iff _ _ hhas).mp rfl
    · exact (hacc.dialing_iff _ _ hhas).mp rfl
  · intro htracked
    exact ⟨fun d e => h.status_eq_iff htracked (Or.inl rfl),
      fun d e => h.status_eq_iff htracked (Or.inr rfl)⟩

lemma Idle.tracked (h : lookup.Idle) : lookup.Tracked := by
  rintro a id s (rfl | rfl) hhas
  · exact absurd rfl (h _ _ hhas).1
  · exact absurd rfl (h _ _ hhas).2

/-- An idle lookup waits for nobody. -/
lemma Idle.pending_eq_none (h : lookup.Idle) (hsound : lookup.Sound) (hs : s.Open) (a : UdpAddr) :
    (lookup.pending s)[a]? = none := by
  rw [Option.eq_none_iff_forall_ne_some]
  intro id hp
  have hhas := hsound.has_of_pending hp
  rcases hs with rfl | rfl
  · exact (h _ _ hhas).1 rfl
  · exact (h _ _ hhas).2 rfl

lemma idle_new (selfId target : NodeId) (config : LookupConfig)
    (peers : List (NodeId × UdpAddr)) : (new selfId target config peers).Idle := by
  intro d e he
  obtain ⟨p, -, -, rfl⟩ := getElem?_new he
  exact ⟨nofun, nofun⟩

/-! ### Marking the peers of a round -/

lemma open_status (action : RoundAction) : action.status.Open := by
  cases action with
  | query addr => exact Or.inl rfl
  | dial addr seed => exact Or.inr rfl

lemma pending_mark (lookup : Lookup) (id : NodeId) (action : RoundAction) (s : LookupStatus) :
    (lookup.mark id action).pending s
      = if action.status = s then (lookup.pending s).insert action.addr id
        else lookup.pending s := by
  cases action <;> cases s <;> rfl

lemma getElem?_pending_mark (lookup : Lookup) (id : NodeId) (action : RoundAction)
    (a : UdpAddr) (s : LookupStatus) :
    ((lookup.mark id action).pending s)[a]?
      = if action.slot = (a, s) then some id else (lookup.pending s)[a]? := by
  rw [pending_mark]
  by_cases hs : action.status = s
  · subst hs
    simp only [if_true, RoundAction.slot, Prod.mk.injEq, and_true, ExtTreeMap.getElem?_insert,
      LawfulEqOrd.compare_eq_iff_eq]
  · have hslot : action.slot ≠ (a, s) := fun h => hs (Prod.mk.inj h).2
    rw [if_neg hs, if_neg hslot]

/-- Who is shown after marking is the marked peer or was shown before. -/
lemma has_of_has_mark (h : (lookup.mark id action).Has id' a s)
    (hhas : lookup.Has id action.addr .unqueried) :
    (id = id' ∧ action.slot = (a, s)) ∨ (id ≠ id' ∧ lookup.Has id' a s) := by
  by_cases hid : id = id'
  · subst hid
    have hself : (lookup.mark id action).Has id action.addr action.status := has_mark_self hhas
    rw [Has, h] at hself
    cases hself
    exact Or.inl ⟨rfl, rfl⟩
  · refine Or.inr ⟨hid, ?_⟩
    rw [Has, (sameParams_mark lookup id action).1, entries_mark,
      getElem?_setStatus_of_ne _ _ hid] at h
    exact h

/-- Marking a peer under a free slot. -/
lemma Tracked.mark (h : lookup.Tracked) (hhas : lookup.Has id action.addr .unqueried)
    (hfree : (lookup.pending action.status)[action.addr]? = none) :
    (lookup.mark id action).Tracked := by
  intro a id' s hs hshown
  rw [getElem?_pending_mark]
  rcases has_of_has_mark hshown hhas with ⟨rfl, hslot⟩ | ⟨hid, hshown⟩
  · rw [if_pos hslot]
  · have hp := h a id' s hs hshown
    rw [if_neg, hp]
    intro hslot
    obtain ⟨rfl, rfl⟩ := Prod.mk.inj hslot
    rw [hfree] at hp
    cases hp

/-- Marking peers under different free slots. -/
lemma Tracked.markActions (h : lookup.Tracked) (hpicks : lookup.Picks actions)
    (hslots : (actions.map fun p => p.2.slot).Nodup)
    (hfree : ∀ p ∈ actions, (lookup.pending p.2.status)[p.2.addr]? = none) :
    (markActions lookup actions).Tracked := by
  induction actions generalizing lookup with
  | nil => exact h
  | cons p rest ih =>
      obtain ⟨id, action⟩ := p
      have hhas : lookup.Has id action.addr .unqueried := hpicks.2 _ List.mem_cons_self
      obtain ⟨hnot, hslots⟩ := List.nodup_cons.mp hslots
      rw [markActions_cons]
      refine ih (h.mark hhas (hfree _ List.mem_cons_self)) hpicks.mark hslots ?_
      intro q hq
      rw [getElem?_pending_mark, if_neg]
      · exact hfree q (List.mem_cons_of_mem _ hq)
      · intro hslot
        exact hnot (List.mem_map.mpr ⟨q, hq, hslot.symm⟩)

/-- After a round has marked its peers, all that is shown is waited for exactly when the peers
have different slots. -/
lemma Sound.tracked_markActions_iff (h : lookup.Sound) (hidle : lookup.Idle)
    (hpicks : lookup.Picks actions) :
    (Kad.markActions lookup actions).Tracked ↔ (actions.map fun p => p.2.slot).Nodup := by
  obtain ⟨-, -, hmarked⟩ := h.markActions hpicks
  constructor
  · -- two peers in one slot are one peer, since only one of them is waited for
    intro htracked
    have hwaited : ∀ p ∈ actions,
        ((Kad.markActions lookup actions).pending p.2.status)[p.2.addr]? = some p.1 :=
      fun p hp => htracked _ _ _ (open_status p.2) (hmarked p hp)
    refine (List.nodup_map_iff_inj_on hpicks.1.of_map).mpr fun p hp q hq hslot => ?_
    obtain ⟨haddr, hstatus⟩ := Prod.mk.inj hslot
    have hsame : some p.1 = some q.1 := by
      rw [← hwaited p hp, ← hwaited q hq, haddr, hstatus]
    exact List.inj_on_of_nodup_map hpicks.1 hp hq (Option.some.inj hsame)
  · intro hslots
    exact hidle.tracked.markActions hpicks hslots fun p hp =>
      hidle.pending_eq_none h (open_status p.2) _

/-! ### Events and the end of a round -/

/-- One slot is cleared, nobody new is shown, and its peer is shown no longer. -/
lemma Tracked.clear (h : lookup.Tracked) {lookup' : Lookup} {s₀ : LookupStatus}
    (hpending : ∀ a s, (lookup'.pending s)[a]?
      = if (addr, s₀) = (a, s) then none else (lookup.pending s)[a]?)
    (hshown : ∀ a id s, s.Open → lookup'.Has id a s →
      lookup.Has id a s ∧ (lookup.pending s₀)[addr]? ≠ some id) :
    lookup'.Tracked := by
  intro a id s hs hhas
  obtain ⟨hbefore, hother⟩ := hshown a id s hs hhas
  have hp := h a id s hs hbefore
  rw [hpending, if_neg, hp]
  intro hslot
  obtain ⟨rfl, rfl⟩ := Prod.mk.inj hslot
  exact hother hp

/-- Who is shown with another status than the one just given was shown before, and is not the
peer it was given to. -/
lemma of_getElem?_setStatus {E : BTreeMap Distance LookupEntry} {target : NodeId}
    {s₀ : LookupStatus} (hs : s ≠ s₀)
    (h : (setStatus E (id.distance target) s₀)[id'.distance target]? = some ⟨id', a, s⟩) :
    E[id'.distance target]? = some ⟨id', a, s⟩ ∧ id ≠ id' := by
  have hid : id ≠ id' := by
    rintro rfl
    rw [getElem?_setStatus] at h
    obtain ⟨e, -, he⟩ := Option.map_eq_some_iff.mp h
    rw [if_pos rfl] at he
    exact hs (congrArg LookupEntry.status he).symm
  rw [getElem?_setStatus_of_ne _ _ hid] at h
  exact ⟨h, hid⟩

lemma Tracked.recordResponse (h : lookup.Tracked) (addr : UdpAddr)
    (peers : List (NodeId × UdpAddr)) : (lookup.recordResponse addr peers).1.Tracked := by
  -- a merged peer is unqueried, so who is shown was on the shortlist
  have hmerged : ∀ {a : UdpAddr} {id : NodeId} {s : LookupStatus}, s.Open →
      (merge lookup.selfId lookup.target peers lookup.entries)[id.distance lookup.target]?
        = some ⟨id, a, s⟩ → lookup.Has id a s := by
    intro a id s hs hhas
    rw [getElem?_merge] at hhas
    rcases Option.or_eq_some_iff.mp hhas with hbefore | ⟨-, hnew⟩
    · exact hbefore
    · obtain ⟨p, -, hp⟩ := Option.map_eq_some_iff.mp hnew
      cases hp
      exact absurd rfl hs.ne_unqueried
  have hpending : ∀ a s, ((lookup.recordResponse addr peers).1.pending s)[a]?
      = if (addr, .inFlight) = (a, s) then none else (lookup.pending s)[a]? := by
    intro a s
    cases s <;> simp [pending, Lookup.recordResponse, ExtTreeMap.getElem?_erase]
  refine h.clear hpending fun a id s hs hhas => ?_
  rw [Has, entries_recordResponse] at hhas
  change _ ∧ lookup.pendingQueries[addr]? ≠ some id
  cases hq : lookup.pendingQueries[addr]? with
  | none =>
      rw [hq] at hhas
      exact ⟨hmerged hs hhas, (Option.some_ne_none id).symm⟩
  | some id₀ =>
      rw [hq] at hhas
      obtain ⟨hbefore, hid⟩ := of_getElem?_setStatus hs.ne_done hhas
      exact ⟨hmerged hs hbefore, fun heq => hid (Option.some.inj heq)⟩

lemma Tracked.completeDial (h : lookup.Tracked) (addr : UdpAddr) :
    (lookup.completeDial addr).Tracked := by
  have hpending : ∀ a s, ((lookup.completeDial addr).pending s)[a]?
      = if (addr, .dialing) = (a, s) then none else (lookup.pending s)[a]? := by
    intro a s
    cases s <;> simp [pending, Lookup.completeDial, ExtTreeMap.getElem?_erase]
  refine h.clear hpending fun a id s hs hhas => ?_
  rw [Has, Lookup.completeDial] at hhas
  change _ ∧ lookup.pendingDials[addr]? ≠ some id
  cases hd : lookup.pendingDials[addr]? with
  | none =>
      rw [hd] at hhas
      exact ⟨hhas, (Option.some_ne_none id).symm⟩
  | some id₀ =>
      rw [hd] at hhas
      obtain ⟨hbefore, hid⟩ := of_getElem?_setStatus hs.ne_unqueried hhas
      exact ⟨hbefore, fun heq => hid (Option.some.inj heq)⟩

lemma Tracked.onEvent (h : lookup.Tracked) (event : KadEvent) : (lookup.onEvent event).Tracked := by
  cases event with
  | findNodeResponseReceived addr peers => exact h.recordResponse addr peers
  | handshakeComplete addr _ _ _ =>
      rw [Lookup.onEvent]
      split_ifs
      · exact h.completeDial addr
      · exact h
  | _ => exact h

/-- At the end of a round nobody is shown, if everybody who was shown was waited for. -/
lemma Tracked.close (h : lookup.Tracked) (hsound : lookup.Sound) :
    lookup.skipPendingQueries.skipPendingDials.Idle := by
  intro d e he
  change (skip lookup.target lookup.pendingDials
    (skip lookup.target lookup.pendingQueries lookup.entries))[d]? = some e at he
  rw [getElem?_skip, getElem?_skip, Option.map_map] at he
  obtain ⟨e₀, he₀, rfl⟩ := Option.map_eq_some_iff.mp he
  have hgiven : ∀ {s : LookupStatus}, s.Open → e₀.status = s →
      ∃ id ∈ (lookup.pending s).values, id.distance lookup.target = d := by
    rintro s hs rfl
    have hp := h _ _ _ hs (hsound.has_of_entry he₀)
    exact ⟨e₀.nodeId, ExtTreeMap.mem_values_iff.mpr ⟨e₀.addr, hp⟩, hsound.keyed d e₀ he₀⟩
  rw [Function.comp_apply]
  by_cases hqueried : ∃ id ∈ lookup.pendingQueries.values, id.distance lookup.target = d
  · rw [if_pos hqueried]
    split_ifs <;> exact ⟨by rintro ⟨⟩, by rintro ⟨⟩⟩
  · rw [if_neg hqueried]
    split_ifs with hdialed
    · exact ⟨by rintro ⟨⟩, by rintro ⟨⟩⟩
    · exact ⟨fun hs => hqueried (hgiven (Or.inl rfl) hs),
        fun hs => hdialed (hgiven (Or.inr rfl) hs)⟩

end Lookup

/-! ### Steps and runs -/

/-- A step that picks no round keeps a lookup orderly. -/
lemma PhaseStep.orderly {p p' : Phase} {label : Label} (h : PhaseStep p label p')
    (hsound : p.lookup.Sound) (hp : p.Orderly) (hlabel : ∀ actions, label ≠ .picked actions) :
    p'.Orderly := by
  have hsound' := (h.sound hsound).1
  have htracked := hsound.accounted_iff.mp hp.accounted
  cases h with
  | pick hactions => exact absurd rfl (hlabel _)
  | recv hpending => exact ⟨hsound'.accounted_iff.mpr (htracked.onEvent _), nofun⟩
  | close hstop =>
      have hidle := htracked.close hsound
      refine ⟨hsound'.accounted_iff.mpr hidle.tracked, ?_⟩
      rintro lookup roundsLeft hhead
      cases hhead
      exact hidle
  | _ => exact ⟨hp.accounted, nofun⟩

/-- Addresses that are established are queried, and the others are dialed. -/
lemma slot_decideActions (host : Host C) (picks : List (NodeId × UdpAddr)) (seeds : ℕ → Key) :
    (decideActions host picks seeds).1.map (fun p => p.2.slot) = (picks.map Prod.snd).map
      fun addr => (addr, if host.isEstablished addr then .inFlight else .dialing) := by
  induction picks generalizing seeds with
  | nil => rfl
  | cons p rest ih =>
      obtain ⟨id, addr⟩ := p
      rw [decideActions]
      split
      · rename_i hest
        rw [List.map_cons, ih]
        simp [RoundAction.slot, RoundAction.addr, RoundAction.status, hest]
      · rename_i hest
        rw [List.map_cons, ih]
        simp [RoundAction.slot, RoundAction.addr, RoundAction.status, hest]

/-- So a round acts once on every slot when it picks every address once. -/
lemma nodup_slot_decideActions (host : Host C) (picks : List (NodeId × UdpAddr))
    (seeds : ℕ → Key) :
    ((decideActions host picks seeds).1.map fun p => p.2.slot).Nodup
      ↔ (picks.map Prod.snd).Nodup := by
  rw [slot_decideActions]
  exact List.nodup_map_iff fun _ _ h => (Prod.mk.inj h).1

namespace Party

variable (P : Party C N)

/-- In every state of the run, the shortlist shows what is waited for, and between rounds that is
nobody. -/
def LeavesNobody (s₀ : Driven N) (labels : List Label) (s : Driven N) : Prop :=
  ∀ l₁ l₂ t, labels = l₁ ++ l₂ → Run P.Move s₀ l₁ t → Run P.Move t l₂ s → t.phase.Orderly

/-- No round of the run picks two peers at one address. -/
def PicksApart (s₀ : Driven N) (labels : List Label) (s : Driven N) : Prop :=
  ∀ t actions t', Run.Takes P.Move s₀ labels s t (.picked actions) t' →
    (t.phase.lookup.pickNextAlpha.map Prod.snd).Nodup

variable {P} {node : N} {target : NodeId} {config : LookupConfig} {seeds : ℕ → Key} {w : World}
  {labels : List Label} {s : Driven N}

lemma orderly_start : (P.start node target config seeds w).phase.Orderly := by
  have hidle := Lookup.idle_new (P.table node).selfId target config
    ((P.table node).closestTo target config.k)
  refine ⟨(Lookup.sound_new _ _ _ _).accounted_iff.mpr hidle.tracked, ?_⟩
  rintro lookup roundsLeft hhead
  cases hhead
  exact hidle

/-- A picked round leaves the lookup orderly exactly when its addresses are different. -/
lemma Move.orderly_pick_iff {t t' : Driven N} {actions : List (NodeId × RoundAction)}
    (h : P.Move t (.picked actions) t') (hsound : t.phase.lookup.Sound) (ht : t.phase.Orderly) :
    t'.phase.Orderly ↔ (t.phase.lookup.pickNextAlpha.map Prod.snd).Nodup := by
  have hsound' := (h.phaseStep.sound hsound).1
  cases h with
  | @pick node seeds lookup roundsLeft w hdone hpick =>
      have htracked := hsound.tracked_markActions_iff (ht.idle _ _ rfl)
        (hsound.picks (decideActions_targets (P.host node) lookup.pickNextAlpha seeds))
      rw [nodup_slot_decideActions] at htracked
      constructor
      · intro hafter
        exact htracked.mp (hsound'.accounted_iff.mp hafter.accounted)
      · intro hnodup
        exact ⟨hsound'.accounted_iff.mpr (htracked.mpr hnodup), nofun⟩

/-- A move keeps the lookup orderly, if a round that is picked has different addresses. -/
lemma Move.orderly {t t' : Driven N} {label : Label} (h : P.Move t label t')
    (hsound : t.phase.lookup.Sound) (ht : t.phase.Orderly)
    (hapart : ∀ actions, label = .picked actions →
      (t.phase.lookup.pickNextAlpha.map Prod.snd).Nodup) : t'.phase.Orderly := by
  cases label with
  | picked actions => exact (h.orderly_pick_iff hsound ht).mpr (hapart actions rfl)
  | _ => exact h.phaseStep.orderly hsound ht nofun

lemma leavesNobody_iff (hrun : Run P.Move (P.start node target config seeds w) labels s) :
    P.LeavesNobody (P.start node target config seeds w) labels s ↔
      P.PicksApart (P.start node target config seeds w) labels s := by
  constructor
  · rintro horderly t actions t' ⟨l₁, l₂, rfl, h₁, hmove, h₂⟩
    have hbefore := horderly l₁ (.picked actions :: l₂) t rfl h₁ (h₂.cons hmove)
    have hafter := horderly (l₁ ++ [.picked actions]) l₂ t' (by simp) (h₁.snoc hmove) h₂
    exact (hmove.orderly_pick_iff (sound_of_run h₁).1 hbefore).mp hafter
  · rintro hapart l₁ l₂ t rfl h₁ h₂
    -- along the run to this state
    clear hrun
    induction h₁ generalizing l₂ with
    | nil => exact orderly_start
    | @snoc t t' l label h₁ hmove ih =>
        rw [List.append_assoc] at hapart
        have hbefore := ih (label :: l₂) hapart (h₂.cons hmove)
        refine hmove.orderly (sound_of_run h₁).1 hbefore ?_
        rintro actions rfl
        exact hapart t actions t' ⟨l, l₂, rfl, h₁, hmove, h₂⟩

end Party

/-- In every run of the driver, the shortlist shows a query or a dial exactly for the peers that
are waited for, and none between rounds, exactly when no round picks two peers at one address. -/
theorem outstanding_iff {node : KademliaNode C} {target : NodeId} {config : LookupConfig}
    {seeds : ℕ → Key} {w : World} {labels : List Label} {s : Driven (KademliaNode C)}
    (hrun : Run kadParty.Move (kadParty.start node target config seeds w) labels s) :
    kadParty.LeavesNobody (kadParty.start node target config seeds w) labels s ↔
      kadParty.PicksApart (kadParty.start node target config seeds w) labels s :=
  Party.leavesNobody_iff hrun

/-- The shortlist between two rounds. -/
def shortlistAtHead (s : Driven (KademliaNode sampleCrypto)) :
    Option (List (NodeId × LookupStatus)) :=
  match s.phase with
  | .head lookup _ => some (lookup.entries.values.map fun e => (e.nodeId, e.status))
  | _ => none

/-- A round picks different addresses. -/
def pickedApart (s : Driven (KademliaNode sampleCrypto)) : Label → Bool
  | .picked _ => decide (s.phase.lookup.pickNextAlpha.map Prod.snd).Nodup
  | _ => true

/-- Two peers at two addresses: one is queried and answers, the other is given up. -/
theorem outstanding_sample :
    ∃ (node : KademliaNode sampleCrypto) (labels : List Label)
      (s : Driven (KademliaNode sampleCrypto)),
      connectedNode = some node ∧
      Run kadParty.Move (advertisedStart ⟨2, DEFAULT_K, 1, 1⟩ node) labels s ∧
      shortlistAtHead s = some [(⟨.replicate 32 5⟩, .skipped), (⟨.replicate 32 4⟩, .unqueried),
        (⟨.replicate 32 6⟩, .done)] ∧
      kadParty.LeavesNobody (advertisedStart ⟨2, DEFAULT_K, 1, 1⟩ node) labels s := by
  have hchecks : connectedNode.map (fun node =>
      (kadParty.passesWithin pickedApart 9 (advertisedStart ⟨2, DEFAULT_K, 1, 1⟩ node),
        shortlistAtHead (kadParty.walk 9 (advertisedStart ⟨2, DEFAULT_K, 1, 1⟩ node)).2))
        = some (true, some [(⟨.replicate 32 5⟩, .skipped), (⟨.replicate 32 4⟩, .unqueried),
          (⟨.replicate 32 6⟩, .done)]) := by decide +kernel
  obtain ⟨node, hnode, hvalues⟩ := Option.map_eq_some_iff.mp hchecks
  obtain ⟨hapart, hlist⟩ := Prod.mk.inj hvalues
  have hrun := kadParty.run_walk 9 (advertisedStart ⟨2, DEFAULT_K, 1, 1⟩ node)
  refine ⟨node, _, _, hnode, hrun, hlist, (outstanding_iff hrun).mpr ?_⟩
  rintro t actions t' ⟨l₁, l₂, -, h₁, hmove, -⟩
  exact of_decide_eq_true (Party.check_of_passesWithin hapart h₁ hmove)

/-- The connected sample host as a node that knows two peers at the address of its connection. -/
def crowdedNode : Option (KademliaNode sampleCrypto) :=
  connectedHost.map fun host =>
    let table := RoutingTable.new (.fromPeerId sampleCrypto host.identity.peerId) DEFAULT_K
    ⟨host, ((table.insert ⟨.replicate 32 6⟩ sampleAddr).1.insert ⟨.replicate 32 5⟩ sampleAddr).1⟩

/-- Two peers at one address are queried in one round, and the address answers: the answer counts
for one of them, and the other is left in flight between rounds. -/
theorem shared_address_left_in_flight :
    ∃ (node : KademliaNode sampleCrypto) (labels : List Label)
      (s : Driven (KademliaNode sampleCrypto)),
      crowdedNode = some node ∧
      Run kadParty.Move (advertisedStart ⟨2, DEFAULT_K, 1, 1⟩ node) labels s ∧
      shortlistAtHead s = some [(⟨.replicate 32 5⟩, .inFlight), (⟨.replicate 32 4⟩, .unqueried),
        (⟨.replicate 32 6⟩, .done)] ∧
      ¬ kadParty.LeavesNobody (advertisedStart ⟨2, DEFAULT_K, 1, 1⟩ node) labels s := by
  have hchecks : crowdedNode.map (fun node =>
      shortlistAtHead (kadParty.walk 9 (advertisedStart ⟨2, DEFAULT_K, 1, 1⟩ node)).2)
        = some (some [(⟨.replicate 32 5⟩, .inFlight), (⟨.replicate 32 4⟩, .unqueried),
          (⟨.replicate 32 6⟩, .done)]) := by decide +kernel
  obtain ⟨node, hnode, hlist⟩ := Option.map_eq_some_iff.mp hchecks
  have hrun := kadParty.run_walk 9 (advertisedStart ⟨2, DEFAULT_K, 1, 1⟩ node)
  refine ⟨node, _, _, hnode, hrun, hlist, fun hnobody => ?_⟩
  have horderly := hnobody _ [] _ (List.append_nil _).symm hrun (.nil _)
  rw [shortlistAtHead] at hlist
  split at hlist
  · rename_i lookup roundsLeft hphase
    have hmem : ((⟨.replicate 32 5⟩, .inFlight) : NodeId × LookupStatus) ∈
        lookup.entries.values.map fun e => (e.nodeId, e.status) := by
      rw [Option.some.inj hlist]
      exact List.mem_cons_self
    obtain ⟨e, he, hshown⟩ := List.mem_map.mp hmem
    obtain ⟨d, hd⟩ := ExtTreeMap.mem_values_iff.mp he
    exact (horderly.idle _ _ hphase d e hd).1 (Prod.mk.inj hshown).2
  · cases hlist

end Libp2pCat.Kad
