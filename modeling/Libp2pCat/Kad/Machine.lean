import Libp2pCat.Kad.Lookup
import Libp2pCat.Kad.TableInvariant
import Libp2pCat.Lib.OrderedMap
import Libp2pCat.Lib.Run

/-!
The lookup as a machine of its own: what a lookup does, whoever runs it and whatever is received.

* `Phase`, `Label`, `PhaseStep`: at the head of a round, with actions left to take, reading
  answers, or failed; what happens between two phases.
* `Lookup.Sound`: a peer with a query or a dial under way is on the shortlist at that address,
  with that status.  `PhaseStep.sound`: every step keeps it.
* `Keeps`: a peer stays on the shortlist, `Done` and `Skipped` are final and a peer once queried
  is never to be queried again.  Every step does so, and so does every run (`sound_run`).
-/

namespace Libp2pCat.Kad

open ByteString Std

/-! ### Phases -/

/-- The address an action goes to. -/
def RoundAction.addr : RoundAction → UdpAddr
  | .query addr => addr
  | .dial addr _ => addr

/-- Where a lookup is. -/
inductive Phase where
  | head (lookup : Lookup) (roundsLeft : ℕ)
  | sending (actions : List (NodeId × RoundAction)) (lookup : Lookup) (roundsLeft : ℕ)
  | draining (lookup : Lookup) (budget roundsLeft : ℕ)
  | failed (lookup : Lookup)

def Phase.lookup : Phase → Lookup
  | .head lookup _ => lookup
  | .sending _ lookup _ => lookup
  | .draining lookup _ _ => lookup
  | .failed lookup => lookup

/-- What happens between two phases; a receive that fails has no event. -/
inductive Label where
  | picked (actions : List (NodeId × RoundAction))
  | acted (id : NodeId) (action : RoundAction)
  | listened
  | received (event : Option KadEvent)
  | closed
  deriving DecidableEq

/-- One operation of a lookup. -/
inductive PhaseStep : Phase → Label → Phase → Prop where
  /-- A round picks its peers. -/
  | pick {lookup : Lookup} {roundsLeft : ℕ} {actions : List (NodeId × RoundAction)}
      (hactions : actions.map (fun p => (p.1, p.2.addr)) = lookup.pickNextAlpha) :
      PhaseStep (.head lookup (roundsLeft + 1)) (.picked actions)
        (.sending actions (markActions lookup actions) roundsLeft)
  /-- It acts on one of them. -/
  | act {id : NodeId} {action : RoundAction} {rest : List (NodeId × RoundAction)}
      {lookup : Lookup} {roundsLeft : ℕ} :
      PhaseStep (.sending ((id, action) :: rest) lookup roundsLeft) (.acted id action)
        (.sending rest lookup roundsLeft)
  | actFails {id : NodeId} {action : RoundAction} {rest : List (NodeId × RoundAction)}
      {lookup : Lookup} {roundsLeft : ℕ} :
      PhaseStep (.sending ((id, action) :: rest) lookup roundsLeft) (.acted id action)
        (.failed lookup)
  /-- It starts to read. -/
  | listen {lookup : Lookup} {roundsLeft : ℕ} :
      PhaseStep (.sending [] lookup roundsLeft) .listened
        (.draining lookup lookup.config.maxRecvPerRound roundsLeft)
  /-- It reads one datagram. -/
  | recv {lookup : Lookup} {budget roundsLeft : ℕ} {event : KadEvent}
      (hpending : lookup.hasPending = true) :
      PhaseStep (.draining lookup (budget + 1) roundsLeft) (.received (some event))
        (.draining (lookup.onEvent event) budget roundsLeft)
  | recvFails {lookup : Lookup} {budget roundsLeft : ℕ} (hpending : lookup.hasPending = true) :
      PhaseStep (.draining lookup (budget + 1) roundsLeft) (.received none) (.failed lookup)
  /-- It stops reading. -/
  | close {lookup : Lookup} {budget roundsLeft : ℕ}
      (hstop : budget = 0 ∨ lookup.hasPending = false) :
      PhaseStep (.draining lookup budget roundsLeft) .closed
        (.head lookup.skipPendingQueries.skipPendingDials roundsLeft)

/-! ### The shortlist -/

/-- The status is final. -/
def LookupStatus.Settled (s : LookupStatus) : Prop := s = .done ∨ s = .skipped

/-- The peer has been queried or given up. -/
def LookupStatus.Spent (s : LookupStatus) : Prop := s = .inFlight ∨ s.Settled

/-- Peers stay where they are, a final status stays as it is, and a peer that was queried or
given up is never unqueried again. -/
def Keeps (E E' : BTreeMap Distance LookupEntry) : Prop :=
  ∀ (d : Distance) (e : LookupEntry), E[d]? = some e → ∃ s, E'[d]? = some { e with status := s } ∧
    (e.status.Settled → s = e.status) ∧ (e.status.Spent → s.Spent)

lemma Keeps.refl (E : BTreeMap Distance LookupEntry) : Keeps E E := by
  intro d e he
  exact ⟨e.status, he, fun _ => rfl, id⟩

lemma Keeps.trans {E E' E'' : BTreeMap Distance LookupEntry} (h : Keeps E E')
    (h' : Keeps E' E'') : Keeps E E'' := by
  intro d e he
  obtain ⟨s, hs, hsettled, hspent⟩ := h d e he
  obtain ⟨s', hs', hsettled', hspent'⟩ := h' d _ hs
  refine ⟨s', hs', ?_, fun hsp => hspent' (hspent hsp)⟩
  intro hset
  have hsame := hsettled hset
  rw [hsettled' (hsame ▸ hset), hsame]

lemma getElem?_setStatus (E : BTreeMap Distance LookupEntry) (d : Distance) (s : LookupStatus)
    (d' : Distance) :
    (Lookup.setStatus E d s)[d']?
      = E[d']?.map fun e => if d = d' then { e with status := s } else e := by
  rw [Lookup.setStatus]
  split
  · rename_i entry hentry
    rw [ExtTreeMap.getElem?_insert]
    by_cases hd : d = d'
    · subst hd
      simp [hentry]
    · simp [hd]
  · rename_i hnone
    by_cases hd : d = d'
    · subst hd
      simp [hnone]
    · simp [hd]

/-- A peer is given a status that its own allows. -/
lemma keeps_setStatus {E : BTreeMap Distance LookupEntry} {d : Distance} {s : LookupStatus}
    (h : ∀ e : LookupEntry, E[d]? = some e →
      (e.status.Settled → s = e.status) ∧ (e.status.Spent → s.Spent)) :
    Keeps E (Lookup.setStatus E d s) := by
  intro d' e he
  rw [getElem?_setStatus, he, Option.map_some]
  by_cases hd : d = d'
  · subst hd
    rw [if_pos rfl]
    exact ⟨s, rfl, h e he⟩
  · rw [if_neg hd]
    exact ⟨e.status, rfl, fun _ => rfl, id⟩

/-- The entries after the peers of an answer were merged. -/
def merge (selfId target : NodeId) (peers : List (NodeId × UdpAddr))
    (E : BTreeMap Distance LookupEntry) : BTreeMap Distance LookupEntry :=
  (peers.filter fun p => p.1 ≠ selfId).foldl
    (fun acc p => acc.insertIfNew (p.1.distance target) (⟨p.1, p.2, .unqueried⟩ : LookupEntry)) E

/-- What was on the shortlist stays, and a gap is filled by the first peer advertised for it. -/
lemma getElem?_merge {selfId target : NodeId} {peers : List (NodeId × UdpAddr)}
    {E : BTreeMap Distance LookupEntry} (d : Distance) :
    (merge selfId target peers E)[d]? = E[d]?.or
      ((peers.find? fun p => p.1 ≠ selfId ∧ p.1.distance target = d).map
        fun p => ⟨p.1, p.2, .unqueried⟩) := by
  induction peers generalizing E with
  | nil => simp [merge]
  | cons p peers ih =>
      by_cases hself : p.1 = selfId
      · have hskip : merge selfId target (p :: peers) E = merge selfId target peers E := by
          simp [merge, hself]
        rw [hskip, ih, List.find?_cons_of_neg (by simp [hself])]
      · have hstep : merge selfId target (p :: peers) E = merge selfId target peers
            (E.insertIfNew (p.1.distance target) ⟨p.1, p.2, .unqueried⟩) := by
          simp [merge, hself]
        rw [hstep, ih, ExtTreeMap.getElem?_insertIfNew]
        by_cases hd : p.1.distance target = d
        · subst hd
          rw [List.find?_cons_of_pos (by simp [hself])]
          cases hE : E[p.1.distance target]? with
          | none =>
              have hnot : p.1.distance target ∉ E := by
                rw [← ExtTreeMap.contains_iff_mem, ExtTreeMap.contains_eq_isSome_getElem?, hE]
                simp
              simp [hnot]
          | some e =>
              have hmem : p.1.distance target ∈ E := by
                rw [← ExtTreeMap.contains_iff_mem, ExtTreeMap.contains_eq_isSome_getElem?, hE]
                rfl
              simp [hmem]
        · rw [List.find?_cons_of_neg (by simp [hd])]
          simp [hd]

lemma keeps_merge (selfId target : NodeId) (peers : List (NodeId × UdpAddr))
    (E : BTreeMap Distance LookupEntry) : Keeps E (merge selfId target peers E) := by
  intro d e he
  refine ⟨e.status, ?_, fun _ => rfl, id⟩
  rw [getElem?_merge, he, Option.some_or]

/-- Giving peers up changes the status of these peers and nothing else. -/
lemma getElem?_skip (target : NodeId) (pending : BTreeMap UdpAddr NodeId)
    (E : BTreeMap Distance LookupEntry) (d : Distance) :
    (Lookup.skip target pending E)[d]? = E[d]?.map fun e =>
      if ∃ id ∈ pending.values, id.distance target = d then { e with status := .skipped } else e := by
  rw [Lookup.skip]
  induction pending.values generalizing E with
  | nil => simp
  | cons id ids ih =>
      rw [List.foldl_cons, ih, getElem?_setStatus, Option.map_map]
      congr 1
      funext e
      by_cases hd : id.distance target = d
      · simp [hd]
      · simp [hd]

lemma keeps_skip {target : NodeId} {pending : BTreeMap UdpAddr NodeId}
    {E : BTreeMap Distance LookupEntry}
    (h : ∀ (a : UdpAddr) (id : NodeId), pending[a]? = some id →
      ∀ e : LookupEntry, E[id.distance target]? = some e → e.status ≠ .done) :
    Keeps E (Lookup.skip target pending E) := by
  intro d e he
  rw [getElem?_skip, he, Option.map_some]
  split_ifs with hskip
  · obtain ⟨id, hid, rfl⟩ := hskip
    obtain ⟨a, ha⟩ := ExtTreeMap.mem_values_iff.mp hid
    refine ⟨.skipped, rfl, ?_, fun _ => Or.inr (Or.inr rfl)⟩
    rintro (hdone | hskipped)
    · exact absurd hdone (h a id ha e he)
    · exact hskipped.symm
  · exact ⟨e.status, rfl, fun _ => rfl, id⟩

/-! ### Sound lookups -/

namespace Lookup

/-- The shortlist has the peer at this address with this status. -/
def Has (lookup : Lookup) (id : NodeId) (addr : UdpAddr) (s : LookupStatus) : Prop :=
  lookup.entries[id.distance lookup.target]? = some ⟨id, addr, s⟩

/-- Entries are filed under the distance of their peer, and a peer with a query or a dial under
way is on the shortlist at that address with that status. -/
structure Sound (lookup : Lookup) : Prop where
  keyed : ∀ (d : Distance) (e : LookupEntry), lookup.entries[d]? = some e →
    e.nodeId.distance lookup.target = d
  queried : ∀ (a : UdpAddr) (id : NodeId), lookup.pendingQueries[a]? = some id →
    lookup.Has id a .inFlight
  dialed : ∀ (a : UdpAddr) (id : NodeId), lookup.pendingDials[a]? = some id →
    lookup.Has id a .dialing

/-- The lookups have the same target, limits and own identifier. -/
def SameParams (lookup lookup' : Lookup) : Prop :=
  lookup'.target = lookup.target ∧ lookup'.config = lookup.config ∧ lookup'.selfId = lookup.selfId

variable {lookup : Lookup} {id id' : NodeId} {addr : UdpAddr} {s : LookupStatus}

lemma getElem?_setStatus_of_ne (E : BTreeMap Distance LookupEntry) (target : NodeId)
    (h : id ≠ id') (s : LookupStatus) :
    (setStatus E (id.distance target) s)[id'.distance target]? = E[id'.distance target]? := by
  have hne : id.distance target ≠ id'.distance target := fun heq =>
    h (NodeId.distance_injective target heq)
  rw [getElem?_setStatus]
  simp [hne]

lemma keyed_setStatus {E : BTreeMap Distance LookupEntry} {target : NodeId} {d : Distance}
    (h : ∀ (d : Distance) (e : LookupEntry), E[d]? = some e → e.nodeId.distance target = d)
    (d' : Distance) (e : LookupEntry) (he : (setStatus E d s)[d']? = some e) :
    e.nodeId.distance target = d' := by
  rw [getElem?_setStatus] at he
  obtain ⟨e₀, he₀, rfl⟩ := Option.map_eq_some_iff.mp he
  have hkey := h d' e₀ he₀
  split_ifs
  · exact hkey
  · exact hkey

lemma keyed_merge {E : BTreeMap Distance LookupEntry} {selfId target : NodeId}
    {peers : List (NodeId × UdpAddr)}
    (h : ∀ (d : Distance) (e : LookupEntry), E[d]? = some e → e.nodeId.distance target = d)
    (d : Distance) (e : LookupEntry) (he : (merge selfId target peers E)[d]? = some e) :
    e.nodeId.distance target = d := by
  rw [getElem?_merge] at he
  rcases Option.or_eq_some_iff.mp he with he | ⟨-, he⟩
  · exact h d e he
  · obtain ⟨p, hp, rfl⟩ := Option.map_eq_some_iff.mp he
    have hfound := List.find?_some hp
    simp only [decide_eq_true_eq] at hfound
    exact hfound.2

lemma keyed_skip {E : BTreeMap Distance LookupEntry} {target : NodeId}
    {pending : BTreeMap UdpAddr NodeId}
    (h : ∀ (d : Distance) (e : LookupEntry), E[d]? = some e → e.nodeId.distance target = d)
    (d : Distance) (e : LookupEntry) (he : (skip target pending E)[d]? = some e) :
    e.nodeId.distance target = d := by
  rw [getElem?_skip] at he
  obtain ⟨e₀, he₀, rfl⟩ := Option.map_eq_some_iff.mp he
  have hkey := h d e₀ he₀
  split_ifs
  · exact hkey
  · exact hkey

/-! ### Marking the peers of a round -/

/-- Note in the lookup what is about to be done with a peer. -/
def mark (lookup : Lookup) (id : NodeId) : RoundAction → Lookup
  | .query addr => lookup.markInFlight id addr
  | .dial addr _ => lookup.markDialing id addr

end Lookup

/-- The status of a peer that is acted on. -/
def RoundAction.status : RoundAction → LookupStatus
  | .query _ => .inFlight
  | .dial _ _ => .dialing

lemma markActions_cons (lookup : Lookup) (id : NodeId) (action : RoundAction)
    (rest : List (NodeId × RoundAction)) :
    markActions lookup ((id, action) :: rest) = markActions (lookup.mark id action) rest := by
  cases action <;> rfl

namespace Lookup

variable {lookup : Lookup} {id id' : NodeId} {addr : UdpAddr} {s : LookupStatus}
  {action : RoundAction}

lemma sameParams_mark (lookup : Lookup) (id : NodeId) (action : RoundAction) :
    lookup.SameParams (lookup.mark id action) := by
  cases action <;> exact ⟨rfl, rfl, rfl⟩

lemma entries_mark (lookup : Lookup) (id : NodeId) (action : RoundAction) :
    (lookup.mark id action).entries
      = setStatus lookup.entries (id.distance lookup.target) action.status := by
  cases action <;> rfl

lemma has_mark_of_ne (h : id ≠ id') (hhas : lookup.Has id' addr s) :
    (lookup.mark id action).Has id' addr s := by
  rw [Has, (sameParams_mark lookup id action).1, entries_mark, getElem?_setStatus_of_ne _ _ h]
  exact hhas

lemma has_mark_self (hhas : lookup.Has id addr s) :
    (lookup.mark id action).Has id addr action.status := by
  rw [Has, (sameParams_mark lookup id action).1, entries_mark, getElem?_setStatus, hhas]
  simp

lemma keeps_mark (hhas : lookup.Has id addr .unqueried) :
    Keeps lookup.entries (lookup.mark id action).entries := by
  rw [entries_mark]
  refine keeps_setStatus fun e he => ?_
  rw [hhas] at he
  cases he
  refine ⟨?_, ?_⟩
  · rintro (h | h) <;> cases h
  · rintro (h | h | h) <;> cases h

/-- Marking a peer that is to be queried or dialed keeps the lookup sound. -/
lemma Sound.mark (h : lookup.Sound) (hhas : lookup.Has id action.addr .unqueried) :
    (lookup.mark id action).Sound := by
  -- a peer with another action under way is another peer
  have hother : ∀ {id' : NodeId} {a : UdpAddr} {s : LookupStatus}, s ≠ .unqueried →
      lookup.Has id' a s → (lookup.mark id action).Has id' a s := by
    intro id' a s hs hhas'
    refine has_mark_of_ne ?_ hhas'
    rintro rfl
    rw [Has, hhas] at hhas'
    cases hhas'
    exact hs rfl
  refine ⟨?_, ?_, ?_⟩
  · rw [entries_mark, (sameParams_mark lookup id action).1]
    exact keyed_setStatus h.keyed
  · intro a id' ha
    cases action with
    | query addr =>
        simp only [Lookup.mark, markInFlight, ExtTreeMap.getElem?_insert] at ha
        split_ifs at ha with haddr
        · cases ha
          rw [← LawfulEqOrd.eq_of_compare haddr]
          exact has_mark_self hhas
        · exact hother nofun (h.queried a id' ha)
    | dial addr seed => exact hother nofun (h.queried a id' ha)
  · intro a id' ha
    cases action with
    | query addr => exact hother nofun (h.dialed a id' ha)
    | dial addr seed =>
        simp only [Lookup.mark, markDialing, ExtTreeMap.getElem?_insert] at ha
        split_ifs at ha with haddr
        · cases ha
          rw [← LawfulEqOrd.eq_of_compare haddr]
          exact has_mark_self hhas
        · exact hother nofun (h.dialed a id' ha)

lemma SameParams.trans {l₁ l₂ l₃ : Lookup} (h : l₁.SameParams l₂) (h' : l₂.SameParams l₃) :
    l₁.SameParams l₃ :=
  ⟨h'.1.trans h.1, h'.2.1.trans h.2.1, h'.2.2.trans h.2.2⟩

lemma sameParams_markActions (lookup : Lookup) (actions : List (NodeId × RoundAction)) :
    lookup.SameParams (markActions lookup actions) := by
  induction actions generalizing lookup with
  | nil => exact ⟨rfl, rfl, rfl⟩
  | cons p rest ih =>
      obtain ⟨id, action⟩ := p
      rw [markActions_cons]
      exact (sameParams_mark lookup id action).trans (ih _)

/-- The actions are for different peers of the shortlist that are to be queried or dialed. -/
def Picks (lookup : Lookup) (actions : List (NodeId × RoundAction)) : Prop :=
  (actions.map Prod.fst).Nodup ∧ ∀ p ∈ actions, lookup.Has p.1 p.2.addr .unqueried

lemma Picks.mark {rest : List (NodeId × RoundAction)}
    (h : lookup.Picks ((id, action) :: rest)) : (lookup.mark id action).Picks rest := by
  obtain ⟨hnot, hnodup⟩ := List.nodup_cons.mp h.1
  refine ⟨hnodup, fun p hp => has_mark_of_ne ?_ (h.2 p (List.mem_cons_of_mem _ hp))⟩
  rintro rfl
  exact hnot (List.mem_map.mpr ⟨p, hp, rfl⟩)

lemma has_markActions_of_notMem {actions : List (NodeId × RoundAction)}
    (hid : id ∉ actions.map Prod.fst) (hhas : lookup.Has id addr s) :
    (markActions lookup actions).Has id addr s := by
  induction actions generalizing lookup with
  | nil => exact hhas
  | cons p rest ih =>
      obtain ⟨id', action⟩ := p
      rw [List.map_cons, List.mem_cons, not_or] at hid
      rw [markActions_cons]
      exact ih hid.2 (has_mark_of_ne (Ne.symm hid.1) hhas)

/-- Marking the peers of a round: the lookup stays sound, and each peer has the status of its
action. -/
lemma Sound.markActions (h : lookup.Sound) {actions : List (NodeId × RoundAction)}
    (hpicks : lookup.Picks actions) :
    (markActions lookup actions).Sound ∧ Keeps lookup.entries (markActions lookup actions).entries ∧
      ∀ p ∈ actions, (Kad.markActions lookup actions).Has p.1 p.2.addr p.2.status := by
  induction actions generalizing lookup with
  | nil => exact ⟨h, Keeps.refl _, nofun⟩
  | cons p rest ih =>
      obtain ⟨id, action⟩ := p
      have hhas : lookup.Has id action.addr .unqueried := hpicks.2 _ List.mem_cons_self
      rw [markActions_cons]
      obtain ⟨hsound, hkeeps, hstatus⟩ := ih (h.mark hhas) hpicks.mark
      refine ⟨hsound, (keeps_mark hhas).trans hkeeps, ?_⟩
      intro q hq
      rcases List.mem_cons.mp hq with rfl | hq
      · exact has_markActions_of_notMem (List.nodup_cons.mp hpicks.1).1 (has_mark_self hhas)
      · exact hstatus q hq

/-- The peers a round picks are on the shortlist, each once, and are to be queried or dialed. -/
lemma Sound.picks (h : lookup.Sound) {actions : List (NodeId × RoundAction)}
    (hactions : actions.map (fun p => (p.1, p.2.addr)) = lookup.pickNextAlpha) :
    lookup.Picks actions := by
  have hentries : ∀ entry ∈ lookup.entries.values,
      lookup.Has entry.nodeId entry.addr entry.status := by
    intro entry hentry
    obtain ⟨d, hd⟩ := ExtTreeMap.mem_values_iff.mp hentry
    rw [Has, h.keyed d entry hd]
    exact hd
  refine ⟨?_, ?_⟩
  · have hfst : actions.map Prod.fst = lookup.pickNextAlpha.map Prod.fst := by
      rw [← hactions, List.map_map]
      rfl
    have hnodup : (lookup.entries.values.map LookupEntry.nodeId).Nodup :=
      ExtTreeMap.nodup_map_values (g := fun id => id.distance lookup.target) h.keyed
    rw [hfst, pickNextAlpha, List.map_map]
    refine hnodup.sublist (List.Sublist.map _ ?_)
    exact (List.take_sublist _ _).trans (List.filter_sublist.trans (List.take_sublist _ _))
  · intro p hp
    have hmem : (p.1, p.2.addr) ∈ lookup.pickNextAlpha := hactions ▸ List.mem_map_of_mem hp
    obtain ⟨entry, hentry, hpair⟩ := List.mem_map.mp hmem
    obtain ⟨htop, hstatus⟩ := List.mem_filter.mp (List.mem_of_mem_take hentry)
    have hhas := hentries entry (List.mem_of_mem_take htop)
    obtain ⟨hid, haddr⟩ := Prod.mk.inj hpair
    rw [← hid, ← haddr, ← of_decide_eq_true hstatus]
    exact hhas

/-! ### Events and the end of a round -/

lemma sameParams_onEvent (lookup : Lookup) (event : KadEvent) :
    lookup.SameParams (lookup.onEvent event) := by
  cases event with
  | handshakeComplete addr _ _ _ =>
      rw [onEvent]
      split <;> exact ⟨rfl, rfl, rfl⟩
  | _ => exact ⟨rfl, rfl, rfl⟩

/-- The peer whose query was answered, if any. -/
lemma entries_recordResponse (lookup : Lookup) (addr : UdpAddr) (peers : List (NodeId × UdpAddr)) :
    (lookup.recordResponse addr peers).1.entries = match lookup.pendingQueries[addr]? with
      | some id => setStatus (merge lookup.selfId lookup.target peers lookup.entries)
          (id.distance lookup.target) .done
      | none => merge lookup.selfId lookup.target peers lookup.entries := rfl

lemma Has.merge (h : lookup.Has id addr s) (peers : List (NodeId × UdpAddr)) :
    (merge lookup.selfId lookup.target peers lookup.entries)[id.distance lookup.target]?
      = some ⟨id, addr, s⟩ := by
  rw [getElem?_merge, h, Option.some_or]

lemma Sound.recordResponse (h : lookup.Sound) (addr : UdpAddr) (peers : List (NodeId × UdpAddr)) :
    (lookup.recordResponse addr peers).1.Sound ∧
      Keeps lookup.entries (lookup.recordResponse addr peers).1.entries := by
  have hkeep := keeps_merge lookup.selfId lookup.target peers lookup.entries
  -- no other pending peer is the one that answered
  have hother : ∀ {id' : NodeId} {a : UdpAddr} {s : LookupStatus}, (a, s) ≠ (addr, .inFlight) →
      lookup.Has id' a s → (lookup.recordResponse addr peers).1.Has id' a s := by
    intro id' a s hne hhas
    rw [Has, entries_recordResponse]
    cases hq : lookup.pendingQueries[addr]? with
    | none => exact hhas.merge peers
    | some id =>
        have hid : id ≠ id' := by
          rintro rfl
          have hsame := h.queried addr id hq
          rw [Has, hhas] at hsame
          cases hsame
          exact hne rfl
        exact (getElem?_setStatus_of_ne _ _ hid _).trans (hhas.merge peers)
  refine ⟨⟨?_, ?_, ?_⟩, ?_⟩
  · rw [entries_recordResponse]
    cases lookup.pendingQueries[addr]? with
    | none => exact keyed_merge h.keyed
    | some id => exact keyed_setStatus (keyed_merge h.keyed)
  · intro a id' ha
    simp only [Lookup.recordResponse, ExtTreeMap.getElem?_erase] at ha
    split_ifs at ha with haddr
    · refine hother ?_ (h.queried a id' ha)
      rintro heq
      cases heq
      exact haddr compare_self
  · intro a id' ha
    exact hother nofun (h.dialed a id' ha)
  · rw [entries_recordResponse]
    cases hq : lookup.pendingQueries[addr]? with
    | none => exact hkeep
    | some id =>
        refine hkeep.trans (keeps_setStatus fun e he => ?_)
        rw [(h.queried addr id hq).merge peers] at he
        cases he
        refine ⟨?_, fun _ => Or.inr (Or.inl rfl)⟩
        rintro (h | h) <;> cases h

lemma Sound.completeDial (h : lookup.Sound) (addr : UdpAddr) :
    (lookup.completeDial addr).Sound ∧
      Keeps lookup.entries (lookup.completeDial addr).entries := by
  have hother : ∀ {id' : NodeId} {a : UdpAddr} {s : LookupStatus}, (a, s) ≠ (addr, .dialing) →
      lookup.Has id' a s → (lookup.completeDial addr).Has id' a s := by
    intro id' a s hne hhas
    rw [Has, Lookup.completeDial]
    cases hd : lookup.pendingDials[addr]? with
    | none => exact hhas
    | some id =>
        have hid : id ≠ id' := by
          rintro rfl
          have hsame := h.dialed addr id hd
          rw [Has, hhas] at hsame
          cases hsame
          exact hne rfl
        exact (getElem?_setStatus_of_ne _ _ hid _).trans hhas
  refine ⟨⟨?_, ?_, ?_⟩, ?_⟩
  · rw [Lookup.completeDial]
    cases lookup.pendingDials[addr]? with
    | none => exact h.keyed
    | some id => exact keyed_setStatus h.keyed
  · intro a id' ha
    exact hother nofun (h.queried a id' ha)
  · intro a id' ha
    simp only [Lookup.completeDial, ExtTreeMap.getElem?_erase] at ha
    split_ifs at ha with haddr
    · refine hother ?_ (h.dialed a id' ha)
      rintro heq
      cases heq
      exact haddr compare_self
  · rw [Lookup.completeDial]
    cases hd : lookup.pendingDials[addr]? with
    | none => exact Keeps.refl _
    | some id =>
        refine keeps_setStatus fun e he => ?_
        rw [h.dialed addr id hd] at he
        cases he
        refine ⟨?_, ?_⟩
        · rintro (h | h) <;> cases h
        · rintro (h | h | h) <;> cases h

lemma Sound.onEvent (h : lookup.Sound) (event : KadEvent) :
    (lookup.onEvent event).Sound ∧ Keeps lookup.entries (lookup.onEvent event).entries := by
  cases event with
  | findNodeResponseReceived addr peers => exact h.recordResponse addr peers
  | handshakeComplete addr _ _ _ =>
      rw [Lookup.onEvent]
      split_ifs
      · exact h.completeDial addr
      · exact ⟨h, Keeps.refl _⟩
  | _ => exact ⟨h, Keeps.refl _⟩

/-- At the end of a round what is still under way is given up. -/
lemma Sound.close (h : lookup.Sound) :
    lookup.skipPendingQueries.skipPendingDials.Sound ∧
      Keeps lookup.entries lookup.skipPendingQueries.skipPendingDials.entries := by
  refine ⟨⟨keyed_skip (keyed_skip h.keyed), ?_, ?_⟩, ?_⟩
  · intro a id ha
    simp [skipPendingQueries, skipPendingDials] at ha
  · intro a id ha
    simp [skipPendingDials] at ha
  · refine (keeps_skip fun a id ha e he => ?_).trans (keeps_skip fun a id ha e he => ?_)
    · rw [h.queried a id ha] at he
      cases he
      nofun
    · have hhas : lookup.entries[id.distance lookup.skipPendingQueries.target]?
          = some ⟨id, a, .dialing⟩ := h.dialed a id ha
      rw [getElem?_skip, hhas, Option.map_some] at he
      cases he
      split_ifs <;> nofun

end Lookup

/-! ### The start and the steps of the machine -/

/-- Every peer of a fresh shortlist is one of the given ones, unqueried. -/
lemma Lookup.getElem?_new {selfId target : NodeId} {config : LookupConfig}
    {peers : List (NodeId × UdpAddr)} {d : Distance} {e : LookupEntry}
    (he : (Lookup.new selfId target config peers).entries[d]? = some e) :
    ∃ p ∈ peers, p.1.distance target = d ∧ e = ⟨p.1, p.2, .unqueried⟩ := by
  have hfold : ∀ (ps : List (NodeId × UdpAddr)) (E : BTreeMap Distance LookupEntry),
      (ps.foldl (fun acc p => acc.insert (p.1.distance target)
        (⟨p.1, p.2, .unqueried⟩ : LookupEntry)) E)[d]? = some e →
      E[d]? = some e ∨ ∃ p ∈ ps, p.1.distance target = d ∧ e = ⟨p.1, p.2, .unqueried⟩ := by
    intro ps
    induction ps with
    | nil => exact fun E hE => Or.inl hE
    | cons p ps ih =>
        intro E hE
        rcases ih _ hE with hE | ⟨q, hq, hrest⟩
        · rw [ExtTreeMap.getElem?_insert] at hE
          split_ifs at hE with hd
          · exact Or.inr ⟨p, List.mem_cons_self, LawfulEqOrd.eq_of_compare hd,
              (Option.some.inj hE).symm⟩
          · exact Or.inl hE
        · exact Or.inr ⟨q, List.mem_cons_of_mem _ hq, hrest⟩
  rcases hfold _ _ he with hnone | ⟨p, hp, hrest⟩
  · simp at hnone
  · exact ⟨p, (List.mem_filter.mp hp).1, hrest⟩

lemma Lookup.sound_new (selfId target : NodeId) (config : LookupConfig)
    (peers : List (NodeId × UdpAddr)) : (Lookup.new selfId target config peers).Sound := by
  refine ⟨fun d e he => ?_, fun a id ha => ?_, fun a id ha => ?_⟩
  · obtain ⟨p, -, hd, rfl⟩ := Lookup.getElem?_new he
    exact hd
  · simp [Lookup.new] at ha
  · simp [Lookup.new] at ha

lemma PhaseStep.sameParams {p p' : Phase} {label : Label} (h : PhaseStep p label p') :
    p.lookup.SameParams p'.lookup := by
  cases h with
  | pick hactions => exact Lookup.sameParams_markActions _ _
  | recv hpending => exact Lookup.sameParams_onEvent _ _
  | _ => exact ⟨rfl, rfl, rfl⟩

/-- Every step keeps the lookup sound, and what is final stays final. -/
lemma PhaseStep.sound {p p' : Phase} {label : Label} (h : PhaseStep p label p')
    (hp : p.lookup.Sound) : p'.lookup.Sound ∧ Keeps p.lookup.entries p'.lookup.entries := by
  cases h with
  | pick hactions =>
      obtain ⟨hsound, hkeeps, -⟩ := Lookup.Sound.markActions hp (hp.picks hactions)
      exact ⟨hsound, hkeeps⟩
  | recv hpending => exact hp.onEvent _
  | close hstop => exact hp.close
  | _ => exact ⟨hp, Keeps.refl _⟩

/-- Every run keeps the lookup sound, and what is final stays final. -/
lemma sound_run {p₀ p : Phase} {labels : List Label} (h : Trace.Run PhaseStep p₀ labels p)
    (hsound : p₀.lookup.Sound) :
    p.lookup.Sound ∧ Keeps p₀.lookup.entries p.lookup.entries := by
  induction h with
  | nil => exact ⟨hsound, Keeps.refl _⟩
  | snoc _ hstep ih =>
      obtain ⟨hsound', hkeeps'⟩ := hstep.sound ih.1
      exact ⟨hsound', ih.2.trans hkeeps'⟩

end Libp2pCat.Kad
