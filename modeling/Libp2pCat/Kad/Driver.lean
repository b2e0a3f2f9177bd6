import Libp2pCat.Kad.Machine
import Libp2pCat.Host.Outcomes

/-!
The lookup driver, over whatever node runs it.

* `Party`: what a lookup needs of its node; `kadParty` is the standalone node.
* `Party.lookup`, `Party.drive`, `Party.drain`: the driver over a party;
  `KademliaNode.lookupNode_eq_lookup` says that the driver of the standalone node is one.
* `Driven`, `Party.Move`: the driver one operation at a time, failures included; it is
  deterministic (`Party.move_iff_next`).  Forgetting the node, a move is a step of the machine
  (`Party.Move.phaseStep`), and every execution of the driver is a run of moves
  (`Party.lookup_run`), which returns if no run fails (`Party.lookup_succeeds_iff`).
-/

namespace Libp2pCat.Kad

open ByteString Effect Trace

variable {C : Crypto} {N : Type}

/-! ### What the operations of a node keep of the world -/

section Preserves

variable {Q : World → Prop} (hQ : UdpTransport.KeptBySends Q)

include hQ

lemma RoundAction.preserves_act (action : RoundAction) (target : NodeId) (node : KademliaNode C) :
    (action.act target node).Preserves Q := by
  cases action with
  | query addr => exact (Io.preserves_suspend _).flatMap fun _ => (Host.preserves_send _ hQ _ _).map
  | dial addr seed => exact (node.host.preserves_dial hQ addr seed).map

lemma preserves_dispatchFrame (host : Host C) (table : RoutingTable) (addr : UdpAddr)
    (frame : Frame) (wrap : Bytes → Bytes) :
    (dispatchFrame host table addr frame wrap).Preserves Q := by
  cases frame with
  | pingReq => exact (Io.preserves_suspend _).flatMap fun _ => (Host.preserves_send _ hQ _ _).map
  | findNodeReq target =>
      exact (Io.preserves_suspend _).flatMap fun _ => (Host.preserves_send _ hQ _ _).map
  | _ => exact Io.preserves_pure _

lemma preserves_handleDatagram (host : Host C) (table : RoutingTable) (addr : UdpAddr)
    (plaintext : Bytes) (wrap : Bytes → Bytes) :
    (handleDatagram host table addr plaintext wrap).Preserves Q := by
  rw [handleDatagram]
  split
  · exact Io.preserves_pure _
  · exact preserves_dispatchFrame hQ _ _ _ _ _

lemma preserves_handleHostEvent (host : Host C) (table : RoutingTable) (event : HostEvent) :
    (KademliaNode.handleHostEvent host table event).Preserves Q := by
  cases event with
  | datagramDelivered addr plaintext => exact preserves_handleDatagram hQ _ _ _ _ _
  | _ => exact Io.preserves_pure _

end Preserves

/-! ### The driver -/

variable (C N) in
/-- What a lookup needs of the node that runs it. -/
structure Party where
  host : N → Host C
  table : N → RoutingTable
  act : RoundAction → NodeId → N → Io World Error N
  recvOne : N → Key → Io World Error (N × KadEvent)

namespace Party

/-- Read datagrams until nothing is under way or the budget is spent. -/
def drain (P : Party C N) (node : N) (lookup : Lookup) (seeds : ℕ → Key) :
    ℕ → Io World Error (N × Lookup × (ℕ → Key))
  | 0 => Io.pure (node, lookup, seeds)
  | budget + 1 =>
      if lookup.hasPending = true then
        (P.recvOne node (seeds 0)).flatMap fun r =>
          P.drain r.1 (lookup.onEvent r.2) (fun i => seeds (i + 1)) budget
      else Io.pure (node, lookup, seeds)

/-- Run the rounds that are left. -/
def drive (P : Party C N) (node : N) (lookup : Lookup) (seeds : ℕ → Key) :
    ℕ → Io World Error (N × Lookup)
  | 0 => Io.pure (node, lookup)
  | roundsLeft + 1 =>
      if lookup.isDone ∨ lookup.pickNextAlpha = [] then Io.pure (node, lookup)
      else
        let (actions, seeds) := decideActions (P.host node) lookup.pickNextAlpha seeds
        let lookup := markActions lookup actions
        (Io.chain (fun p => P.act p.2 lookup.target) actions node).flatMap fun node =>
          (P.drain node lookup seeds lookup.config.maxRecvPerRound).flatMap fun r =>
            P.drive r.1 r.2.1.skipPendingQueries.skipPendingDials r.2.2 roundsLeft

/-- Look the peers closest to a target up. -/
def lookup (P : Party C N) (node : N) (target : NodeId) (config : LookupConfig) (seeds : ℕ → Key) :
    Io World Error (N × List (NodeId × UdpAddr)) :=
  (P.drive node (.new (P.table node).selfId target config ((P.table node).closestTo target config.k))
    seeds config.maxRounds).map fun r => (r.1, r.2.topKResults)

end Party

/-- The standalone node. -/
def kadParty : Party C (KademliaNode C) where
  host := KademliaNode.host
  table := KademliaNode.table
  act action target node := action.act target node
  recvOne := KademliaNode.recvOne

lemma drainResponses_eq_drain (node : KademliaNode C) (lookup : Lookup) (seeds : ℕ → Key)
    (budget : ℕ) : drainResponses node lookup seeds budget
      = kadParty.drain node lookup seeds budget := by
  induction budget generalizing node lookup seeds with
  | zero => rfl
  | succ budget ih =>
      rw [drainResponses_succ, Party.drain]
      simp only [ih]
      rfl

/-- The driver of the standalone node. -/
lemma driveRounds_eq_drive (node : KademliaNode C) (lookup : Lookup) (seeds : ℕ → Key)
    (roundsLeft : ℕ) :
    driveRounds node lookup seeds roundsLeft = kadParty.drive node lookup seeds roundsLeft := by
  induction roundsLeft generalizing node lookup seeds with
  | zero => rfl
  | succ roundsLeft ih =>
      rw [driveRounds, Party.drive]
      by_cases hdone : lookup.isDone = true
      · rw [if_pos hdone, if_pos (Or.inl hdone)]
      · by_cases hpick : lookup.pickNextAlpha = []
        · rw [if_neg hdone, if_pos (Or.inr hpick)]
          simp only [hpick, if_true]
        · have hgo : ¬ (lookup.isDone = true ∨ lookup.pickNextAlpha = []) :=
            not_or.mpr ⟨hdone, hpick⟩
          rw [if_neg hdone, if_neg hgo]
          simp only [if_neg hpick, sendChain_eq_chain, drainResponses_eq_drain, ih]
          rfl

lemma KademliaNode.lookupNode_eq_lookup (node : KademliaNode C) (target : NodeId)
    (config : LookupConfig) (seeds : ℕ → Key) :
    node.lookupNode target config seeds = kadParty.lookup node target config seeds := by
  rw [KademliaNode.lookupNode, driveRounds_eq_drive]
  rfl

/-! ### One operation at a time -/

/-- A lookup under way on a node, in a world. -/
structure Driven (N : Type) where
  node : N
  seeds : ℕ → Key
  phase : Phase
  world : World

namespace Party

variable {P : Party C N}

/-- One operation of the driver. -/
inductive Move (P : Party C N) : Driven N → Label → Driven N → Prop where
  | pick {node : N} {seeds : ℕ → Key} {lookup : Lookup} {roundsLeft : ℕ} {w : World}
      (hdone : lookup.isDone = false) (hpick : lookup.pickNextAlpha ≠ []) :
      Move P ⟨node, seeds, .head lookup (roundsLeft + 1), w⟩
        (.picked (decideActions (P.host node) lookup.pickNextAlpha seeds).1)
        ⟨node, (decideActions (P.host node) lookup.pickNextAlpha seeds).2,
          .sending (decideActions (P.host node) lookup.pickNextAlpha seeds).1
            (markActions lookup (decideActions (P.host node) lookup.pickNextAlpha seeds).1)
            roundsLeft, w⟩
  | act {node node' : N} {seeds : ℕ → Key} {id : NodeId} {action : RoundAction}
      {rest : List (NodeId × RoundAction)} {lookup : Lookup} {roundsLeft : ℕ} {w w' : World}
      (hact : (P.act action lookup.target node).run w = (.ok node', w')) :
      Move P ⟨node, seeds, .sending ((id, action) :: rest) lookup roundsLeft, w⟩
        (.acted id action) ⟨node', seeds, .sending rest lookup roundsLeft, w'⟩
  | actFails {node : N} {seeds : ℕ → Key} {id : NodeId} {action : RoundAction}
      {rest : List (NodeId × RoundAction)} {lookup : Lookup} {roundsLeft : ℕ} {w w' : World}
      {e : Error} (hact : (P.act action lookup.target node).run w = (.error e, w')) :
      Move P ⟨node, seeds, .sending ((id, action) :: rest) lookup roundsLeft, w⟩
        (.acted id action) ⟨node, seeds, .failed lookup, w'⟩
  | listen {node : N} {seeds : ℕ → Key} {lookup : Lookup} {roundsLeft : ℕ} {w : World} :
      Move P ⟨node, seeds, .sending [] lookup roundsLeft, w⟩ .listened
        ⟨node, seeds, .draining lookup lookup.config.maxRecvPerRound roundsLeft, w⟩
  | recv {node node' : N} {seeds : ℕ → Key} {lookup : Lookup} {budget roundsLeft : ℕ}
      {event : KadEvent} {w w' : World} (hpending : lookup.hasPending = true)
      (hrecv : (P.recvOne node (seeds 0)).run w = (.ok (node', event), w')) :
      Move P ⟨node, seeds, .draining lookup (budget + 1) roundsLeft, w⟩ (.received (some event))
        ⟨node', fun i => seeds (i + 1), .draining (lookup.onEvent event) budget roundsLeft, w'⟩
  | recvFails {node : N} {seeds : ℕ → Key} {lookup : Lookup} {budget roundsLeft : ℕ} {e : Error}
      {w w' : World} (hpending : lookup.hasPending = true)
      (hrecv : (P.recvOne node (seeds 0)).run w = (.error e, w')) :
      Move P ⟨node, seeds, .draining lookup (budget + 1) roundsLeft, w⟩ (.received none)
        ⟨node, seeds, .failed lookup, w'⟩
  | close {node : N} {seeds : ℕ → Key} {lookup : Lookup} {budget roundsLeft : ℕ} {w : World}
      (hstop : budget = 0 ∨ lookup.hasPending = false) :
      Move P ⟨node, seeds, .draining lookup budget roundsLeft, w⟩ .closed
        ⟨node, seeds, .head lookup.skipPendingQueries.skipPendingDials roundsLeft, w⟩

/-- The point a lookup starts at. -/
def start (P : Party C N) (node : N) (target : NodeId) (config : LookupConfig) (seeds : ℕ → Key)
    (w : World) : Driven N :=
  ⟨node, seeds, .head (.new (P.table node).selfId target config
    ((P.table node).closestTo target config.k)) config.maxRounds, w⟩

end Party

/-- Each picked peer has one action, at its address. -/
lemma decideActions_targets (host : Host C) (picks : List (NodeId × UdpAddr)) (seeds : ℕ → Key) :
    (decideActions host picks seeds).1.map (fun p => (p.1, p.2.addr)) = picks := by
  induction picks generalizing seeds with
  | nil => rfl
  | cons p rest ih =>
      obtain ⟨id, addr⟩ := p
      rw [decideActions]
      split
      · rw [List.map_cons, ih]
        rfl
      · rw [List.map_cons, ih]
        rfl

namespace Party

variable {P : Party C N} {node node' : N} {lookup lookup' : Lookup} {seeds seeds' : ℕ → Key}
  {w w' : World}

/-- Whatever the node, a move is a step of the machine. -/
lemma Move.phaseStep {s s' : Driven N} {label : Label} (h : P.Move s label s') :
    PhaseStep s.phase label s'.phase := by
  cases h with
  | pick hdone hpick => exact .pick (decideActions_targets _ _ _)
  | act hact => exact .act
  | actFails hact => exact .actFails
  | listen => exact .listen
  | recv hpending hrecv => exact .recv hpending
  | recvFails hpending hrecv => exact .recvFails hpending
  | close hstop => exact .close hstop

/-- The operation that comes next, if there is one. -/
def next (P : Party C N) (s : Driven N) : Option (Label × Driven N) :=
  match s.phase with
  | .head _ 0 => none
  | .head lookup (roundsLeft + 1) =>
      if lookup.isDone = true ∨ lookup.pickNextAlpha = [] then none
      else
        let (actions, seeds) := decideActions (P.host s.node) lookup.pickNextAlpha s.seeds
        some (.picked actions,
          ⟨s.node, seeds, .sending actions (markActions lookup actions) roundsLeft, s.world⟩)
  | .sending [] lookup roundsLeft =>
      some (.listened, { s with phase := .draining lookup lookup.config.maxRecvPerRound roundsLeft })
  | .sending ((id, action) :: rest) lookup roundsLeft =>
      match (P.act action lookup.target s.node).run s.world with
      | (.ok node, w) =>
          some (.acted id action, ⟨node, s.seeds, .sending rest lookup roundsLeft, w⟩)
      | (.error _, w) => some (.acted id action, ⟨s.node, s.seeds, .failed lookup, w⟩)
  | .draining lookup 0 roundsLeft =>
      some (.closed, { s with phase := .head lookup.skipPendingQueries.skipPendingDials roundsLeft })
  | .draining lookup (budget + 1) roundsLeft =>
      if lookup.hasPending = true then
        match (P.recvOne s.node (s.seeds 0)).run s.world with
        | (.ok (node, event), w) => some (.received (some event),
            ⟨node, fun i => s.seeds (i + 1), .draining (lookup.onEvent event) budget roundsLeft, w⟩)
        | (.error _, w) => some (.received none, ⟨s.node, s.seeds, .failed lookup, w⟩)
      else
        some (.closed,
          { s with phase := .head lookup.skipPendingQueries.skipPendingDials roundsLeft })
  | .failed _ => none

/-- The driver is deterministic. -/
lemma move_iff_next {s s' : Driven N} {label : Label} :
    P.Move s label s' ↔ P.next s = some (label, s') := by
  constructor
  · intro h
    cases h with
    | pick hdone hpick => simp [next, hdone, hpick]
    | act hact => simp [next, hact]
    | actFails hact => simp [next, hact]
    | listen => rfl
    | recv hpending hrecv => simp [next, hpending, hrecv]
    | recvFails hpending hrecv => simp [next, hpending, hrecv]
    | @close node seeds lookup budget roundsLeft w hstop =>
        cases budget with
        | zero => rfl
        | succ budget => simp [next, hstop.resolve_left (Nat.succ_ne_zero _)]
  · intro h
    obtain ⟨node, seeds, phase, w⟩ := s
    rw [next] at h
    split at h
    · cases h
    · rename_i lookup roundsLeft hphase
      subst hphase
      split_ifs at h with hstop
      cases h
      obtain ⟨hdone, hpick⟩ := not_or.mp hstop
      exact .pick (by simpa using hdone) hpick
    · rename_i hphase
      subst hphase
      cases h
      exact .listen
    · rename_i hphase
      subst hphase
      split at h
      · rename_i hact
        cases h
        exact .act hact
      · rename_i hact
        cases h
        exact .actFails hact
    · rename_i hphase
      subst hphase
      cases h
      exact .close (Or.inl rfl)
    · rename_i hphase
      subst hphase
      split_ifs at h with hpending
      · split at h
        · rename_i hrecv
          cases h
          exact .recv hpending hrecv
        · rename_i hrecv
          cases h
          exact .recvFails hpending hrecv
      · cases h
        exact .close (Or.inr (by simpa using hpending))
    · cases h

/-- The labels of the next operations, at most `n` of them, and the point they lead to. -/
def walk (P : Party C N) : ℕ → Driven N → List Label × Driven N
  | 0, s => ([], s)
  | n + 1, s =>
      match P.next s with
      | none => ([], s)
      | some (label, s') => let (labels, s'') := P.walk n s'; (label :: labels, s'')

lemma run_walk (n : ℕ) (s : Driven N) : Run P.Move s (P.walk n s).1 (P.walk n s).2 := by
  induction n generalizing s with
  | zero => exact .nil s
  | succ n ih =>
      rw [walk]
      cases hnext : P.next s with
      | none => exact .nil s
      | some r => exact (ih r.2).cons (move_iff_next.mpr hnext)

/-- The driver stops within `n` operations, and each of them passes the check where it is made. -/
def passesWithin (P : Party C N) (check : Driven N → Label → Bool) : ℕ → Driven N → Bool
  | 0, s => (P.next s).isNone
  | n + 1, s =>
      match P.next s with
      | none => true
      | some (label, s') => check s label && P.passesWithin check n s'

/-- Then every operation of every run passes it. -/
lemma check_of_passesWithin {check : Driven N → Label → Bool} {n : ℕ} {s₀ s s' : Driven N}
    {labels : List Label} {label : Label} (h : P.passesWithin check n s₀ = true)
    (hrun : Run P.Move s₀ labels s) (hmove : P.Move s label s') : check s label = true := by
  induction n generalizing s₀ labels with
  | zero =>
      have hstop : P.next s₀ = none := Option.isNone_iff_eq_none.mp h
      cases labels with
      | nil =>
          rw [hrun.eq_of_nil, move_iff_next, hstop] at hmove
          cases hmove
      | cons first labels =>
          obtain ⟨s₁, hfirst, -⟩ := hrun.exists_of_cons
          rw [move_iff_next, hstop] at hfirst
          cases hfirst
  | succ n ih =>
      rw [passesWithin] at h
      cases labels with
      | nil =>
          obtain rfl := hrun.eq_of_nil
          rw [move_iff_next.mp hmove] at h
          exact ((Bool.and_eq_true _ _).mp h).1
      | cons first labels =>
          obtain ⟨s₁, hfirst, hrest⟩ := hrun.exists_of_cons
          rw [move_iff_next.mp hfirst] at h
          exact ih ((Bool.and_eq_true _ _).mp h).2 hrest

/-- A run of moves is a run of the machine. -/
lemma phase_run {s s' : Driven N} {labels : List Label} (h : Run P.Move s labels s') :
    Run PhaseStep s.phase labels s'.phase :=
  h.map Driven.phase fun _ _ _ hmove => hmove.phaseStep

/-- The lookup of a run keeps its own peer and stays sound. -/
lemma sound_of_run {node : N} {target : NodeId} {config : LookupConfig} {seeds : ℕ → Key}
    {w : World} {labels : List Label} {s : Driven N}
    (h : Run P.Move (P.start node target config seeds w) labels s) :
    s.phase.lookup.Sound ∧ s.phase.lookup.selfId = (P.table node).selfId := by
  refine ⟨(sound_run (phase_run h) (Lookup.sound_new _ _ _ _)).1, ?_⟩
  exact h.invariant (P := fun s => s.phase.lookup.selfId = (P.table node).selfId)
    (fun s _ s' hs hmove => hmove.phaseStep.sameParams.2.2.trans hs) rfl

/-! ### Every execution is a run -/

lemma chain_run_ok {actions : List (NodeId × RoundAction)} (seeds : ℕ → Key) (roundsLeft : ℕ)
    (h : (Io.chain (fun p => P.act p.2 lookup.target) actions node).run w = (.ok node', w')) :
    ∃ labels, Run P.Move ⟨node, seeds, .sending actions lookup roundsLeft, w⟩ labels
      ⟨node', seeds, .sending [] lookup roundsLeft, w'⟩ := by
  induction actions generalizing node w with
  | nil =>
      obtain ⟨hnode, rfl⟩ := Prod.mk.inj h
      cases hnode
      exact ⟨[], .nil _⟩
  | cons p rest ih =>
      obtain ⟨id, action⟩ := p
      obtain ⟨node₁, w₁, hact, hrest⟩ := Io.flatMap_run_eq_ok.mp h
      obtain ⟨labels, hrun⟩ := ih hrest
      exact ⟨_, hrun.cons (.act hact)⟩

lemma chain_run_error {actions : List (NodeId × RoundAction)} (seeds : ℕ → Key) (roundsLeft : ℕ)
    {e : Error}
    (h : (Io.chain (fun p => P.act p.2 lookup.target) actions node).run w = (.error e, w')) :
    ∃ labels s, Run P.Move ⟨node, seeds, .sending actions lookup roundsLeft, w⟩ labels s ∧
      s.world = w' ∧ s.phase = .failed lookup := by
  induction actions generalizing node w with
  | nil => cases (Prod.mk.inj h).1
  | cons p rest ih =>
      obtain ⟨id, action⟩ := p
      rcases Io.flatMap_run_eq_error.mp h with hact | ⟨node₁, w₁, hact, hrest⟩
      · exact ⟨_, _, .single (.actFails hact), rfl, rfl⟩
      · obtain ⟨labels, s, hrun, hs⟩ := ih hrest
        exact ⟨_, s, hrun.cons (.act hact), hs⟩

lemma drain_run_ok {budget : ℕ} (roundsLeft : ℕ)
    (h : (P.drain node lookup seeds budget).run w = (.ok (node', lookup', seeds'), w')) :
    ∃ labels budget', Run P.Move ⟨node, seeds, .draining lookup budget roundsLeft, w⟩ labels
      ⟨node', seeds', .draining lookup' budget' roundsLeft, w'⟩ ∧
        (budget' = 0 ∨ lookup'.hasPending = false) := by
  induction budget generalizing node lookup seeds w with
  | zero =>
      obtain ⟨hend, rfl⟩ := Prod.mk.inj h
      cases hend
      exact ⟨[], 0, .nil _, Or.inl rfl⟩
  | succ budget ih =>
      rw [drain] at h
      split_ifs at h with hpending
      · obtain ⟨⟨node₁, event⟩, w₁, hrecv, hrest⟩ := Io.flatMap_run_eq_ok.mp h
        obtain ⟨labels, budget', hrun, hstop⟩ := ih hrest
        exact ⟨_, budget', hrun.cons (.recv hpending hrecv), hstop⟩
      · obtain ⟨hend, rfl⟩ := Prod.mk.inj h
        cases hend
        exact ⟨[], budget + 1, .nil _, Or.inr (by simpa using hpending)⟩

lemma drain_run_error {budget : ℕ} (roundsLeft : ℕ) {e : Error}
    (h : (P.drain node lookup seeds budget).run w = (.error e, w')) :
    ∃ labels s l, Run P.Move ⟨node, seeds, .draining lookup budget roundsLeft, w⟩ labels s ∧
      s.world = w' ∧ s.phase = .failed l := by
  induction budget generalizing node lookup seeds w with
  | zero => cases (Prod.mk.inj h).1
  | succ budget ih =>
      rw [drain] at h
      split_ifs at h with hpending
      · rcases Io.flatMap_run_eq_error.mp h with hrecv | ⟨⟨node₁, event⟩, w₁, hrecv, hrest⟩
        · exact ⟨_, _, _, .single (.recvFails hpending hrecv), rfl, rfl⟩
        · obtain ⟨labels, s, l, hrun, hs⟩ := ih hrest
          exact ⟨_, s, l, hrun.cons (.recv hpending hrecv), hs⟩
      · cases (Prod.mk.inj h).1

/-- The driver that returns is a run to the head of a round, where it ends. -/
lemma drive_run_ok {roundsLeft : ℕ}
    (h : (P.drive node lookup seeds roundsLeft).run w = (.ok (node', lookup'), w')) :
    ∃ labels seeds' left, Run P.Move ⟨node, seeds, .head lookup roundsLeft, w⟩ labels
      ⟨node', seeds', .head lookup' left, w'⟩ ∧
        P.next ⟨node', seeds', .head lookup' left, w'⟩ = none := by
  induction roundsLeft generalizing node lookup seeds w with
  | zero =>
      obtain ⟨hend, rfl⟩ := Prod.mk.inj h
      cases hend
      exact ⟨[], seeds, 0, .nil _, rfl⟩
  | succ roundsLeft ih =>
      rw [drive] at h
      split_ifs at h with hstop
      · obtain ⟨hend, rfl⟩ := Prod.mk.inj h
        cases hend
        exact ⟨[], seeds, roundsLeft + 1, .nil _, if_pos hstop⟩
      · obtain ⟨hdone, hpick⟩ := not_or.mp hstop
        obtain ⟨node₁, w₁, hchain, hafter⟩ := Io.flatMap_run_eq_ok.mp h
        obtain ⟨⟨node₂, lookup₂, seeds₂⟩, w₂, hdrain, hrest⟩ := Io.flatMap_run_eq_ok.mp hafter
        obtain ⟨l₁, hrun₁⟩ := chain_run_ok _ roundsLeft hchain
        obtain ⟨l₂, budget', hrun₂, hend⟩ := drain_run_ok roundsLeft hdrain
        obtain ⟨l₃, seeds', left, hrun₃, hnext⟩ := ih hrest
        have hfirst : Run P.Move ⟨node, seeds, .head lookup (roundsLeft + 1), w⟩ _ _ :=
          .single (.pick (by simpa using hdone) hpick)
        have hsecond := (hfirst.append hrun₁).snoc .listen
        exact ⟨_, seeds', left, hsecond.append ((hrun₂.snoc (.close hend)).append hrun₃), hnext⟩

/-- The driver that fails is a run to a failure. -/
lemma drive_run_error {roundsLeft : ℕ} {e : Error}
    (h : (P.drive node lookup seeds roundsLeft).run w = (.error e, w')) :
    ∃ labels s l, Run P.Move ⟨node, seeds, .head lookup roundsLeft, w⟩ labels s ∧
      s.world = w' ∧ s.phase = .failed l := by
  induction roundsLeft generalizing node lookup seeds w with
  | zero => cases (Prod.mk.inj h).1
  | succ roundsLeft ih =>
      rw [drive] at h
      split_ifs at h with hstop
      · cases (Prod.mk.inj h).1
      · obtain ⟨hdone, hpick⟩ := not_or.mp hstop
        have hfirst : Run P.Move ⟨node, seeds, .head lookup (roundsLeft + 1), w⟩ _ _ :=
          .single (.pick (by simpa using hdone) hpick)
        rcases Io.flatMap_run_eq_error.mp h with hchain | ⟨node₁, w₁, hchain, hafter⟩
        · obtain ⟨l₁, s, hrun, hs⟩ := chain_run_error _ roundsLeft hchain
          exact ⟨_, s, _, hfirst.append hrun, hs⟩
        · obtain ⟨l₁, hrun₁⟩ := chain_run_ok _ roundsLeft hchain
          have hsecond := (hfirst.append hrun₁).snoc .listen
          rcases Io.flatMap_run_eq_error.mp hafter with
            hdrain | ⟨⟨node₂, lookup₂, seeds₂⟩, w₂, hdrain, hrest⟩
          · obtain ⟨l₂, s, l, hrun, hs⟩ := drain_run_error roundsLeft hdrain
            exact ⟨_, s, l, hsecond.append hrun, hs⟩
          · obtain ⟨l₂, budget', hrun₂, hend⟩ := drain_run_ok roundsLeft hdrain
            obtain ⟨l₃, s, l, hrun₃, hs⟩ := ih hrest
            exact ⟨_, s, l, hsecond.append ((hrun₂.snoc (.close hend)).append hrun₃), hs⟩

/-- Every lookup is a run of moves from its start, and returns the closest peers of the shortlist
it ends with. -/
lemma lookup_run {target : NodeId} {config : LookupConfig}
    {r : Except Error (N × List (NodeId × UdpAddr))}
    (h : (P.lookup node target config seeds).run w = (r, w')) :
    ∃ labels s, Run P.Move (P.start node target config seeds w) labels s ∧ s.world = w' ∧
      ∀ node' peers, r = .ok (node', peers) →
        s.node = node' ∧ s.phase.lookup.topKResults = peers := by
  rw [lookup] at h
  cases r with
  | error e =>
      obtain ⟨labels, s, l, hrun, hw, -⟩ := drive_run_error (Io.map_run_eq_error.mp h)
      exact ⟨labels, s, hrun, hw, nofun⟩
  | ok out =>
      obtain ⟨⟨node', lookup'⟩, hdrive, rfl⟩ := Io.map_run_eq_ok.mp h
      obtain ⟨labels, seeds', left, hrun, -⟩ := drive_run_ok hdrive
      refine ⟨labels, _, hrun, rfl, ?_⟩
      rintro node'' peers hout
      cases hout
      exact ⟨rfl, rfl⟩

/-- A lookup returns exactly if no run of moves from its start fails. -/
lemma lookup_succeeds_iff {target : NodeId} {config : LookupConfig} :
    (P.lookup node target config seeds).Succeeds w ↔
      ∀ labels s l, Run P.Move (P.start node target config seeds w) labels s →
        s.phase ≠ .failed l := by
  have hdet : ∀ (s : Driven N) i s₁ j s₂, P.Move s i s₁ → P.Move s j s₂ → s₁ = s₂ := by
    intro s i s₁ j s₂ h h'
    rw [move_iff_next] at h h'
    exact (Prod.mk.inj (Option.some.inj (h.symm.trans h'))).2
  rw [lookup, Io.succeeds_map_iff]
  constructor
  · rintro ⟨⟨node', lookup'⟩, w', hdrive⟩ labels ⟨n, sd, _, v⟩ l hrun rfl
    obtain ⟨labels', seeds', left, hend, hnext⟩ := drive_run_ok hdrive
    have hfinal : ∀ label s', ¬P.Move ⟨node', seeds', .head lookup' left, w'⟩ label s' := by
      intro label s' hmove
      rw [move_iff_next, hnext] at hmove
      cases hmove
    obtain ⟨rest, hrest⟩ := hend.exists_rest hrun hdet hfinal
    -- nothing comes after a failure
    cases rest with
    | nil => cases hrest.eq_of_nil
    | cons label rest =>
        obtain ⟨_, hmove, -⟩ := hrest.exists_of_cons
        cases hmove
  · intro hnever
    rcases hdrive : (P.drive node (.new (P.table node).selfId target config
      ((P.table node).closestTo target config.k)) seeds config.maxRounds).run w with ⟨e | r, w'⟩
    · obtain ⟨labels, s, l, hrun, -, hphase⟩ := drive_run_error hdrive
      exact absurd hphase (hnever labels s l hrun)
    · exact ⟨r, w', hdrive⟩

end Party

end Libp2pCat.Kad
