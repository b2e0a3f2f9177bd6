import Libp2pCat.Kad.Node

/-!
`libp2p-cat-kad/src/lookup.rs`: the iterative `FIND_NODE` lookup.

* `Lookup`: the shortlist, keyed by the distance to the target, and the peers with a query or
  a dial under way.
* `driveRounds`, `drainResponses`: the rounds; each picks peers, dials or queries them and
  reads the answers. `seeds` are the values of the coming calls of the seed factory.
-/

namespace Libp2pCat.Kad

open ByteString Effect

variable {C : Crypto}

/-- The limits of a lookup. -/
structure LookupConfig where
  alpha : ℕ
  k : ℕ
  maxRounds : ℕ
  maxRecvPerRound : ℕ
  deriving DecidableEq

def LookupConfig.default : LookupConfig := ⟨3, DEFAULT_K, 32, 24⟩

/-- Where a lookup is with a peer. -/
inductive LookupStatus where
  | unqueried
  | dialing
  | inFlight
  | done
  | skipped
  deriving DecidableEq

/-- A peer of the shortlist. -/
structure LookupEntry where
  nodeId : NodeId
  addr : UdpAddr
  status : LookupStatus
  deriving DecidableEq

/-- A lookup under way. -/
structure Lookup where
  selfId : NodeId
  target : NodeId
  config : LookupConfig
  entries : BTreeMap Distance LookupEntry
  pendingQueries : BTreeMap UdpAddr NodeId
  pendingDials : BTreeMap UdpAddr NodeId

namespace Lookup

/-- A lookup that knows the given peers, all of them unqueried. -/
def new (selfId target : NodeId) (config : LookupConfig) (initialPeers : List (NodeId × UdpAddr)) :
    Lookup where
  selfId := selfId
  target := target
  config := config
  entries := (initialPeers.filter fun p => p.1 ≠ selfId).foldl
    (fun acc p => acc.insert (p.1.distance target) ⟨p.1, p.2, .unqueried⟩) ∅
  pendingQueries := ∅
  pendingDials := ∅

/-- A query or a dial is under way. -/
def hasPending (lookup : Lookup) : Bool :=
  !lookup.pendingQueries.isEmpty || !lookup.pendingDials.isEmpty

/-- The closest peers of the shortlist. -/
def topKResults (lookup : Lookup) : List (NodeId × UdpAddr) :=
  (lookup.entries.values.take lookup.config.k).map fun entry => (entry.nodeId, entry.addr)

/-- Nothing is under way and no close peer is left to query. -/
def isDone (lookup : Lookup) : Bool :=
  (lookup.pendingQueries.isEmpty && lookup.pendingDials.isEmpty) &&
    (lookup.entries.values.take lookup.config.k).all fun entry => entry.status ≠ .unqueried

/-- The peers to act on next. -/
def pickNextAlpha (lookup : Lookup) : List (NodeId × UdpAddr) :=
  (((lookup.entries.values.take lookup.config.k).filter fun entry =>
    entry.status = .unqueried).take lookup.config.alpha).map fun entry => (entry.nodeId, entry.addr)

/-- Set the status of a peer, if the shortlist has it. -/
def setStatus (entries : BTreeMap Distance LookupEntry) (dist : Distance) (status : LookupStatus) :
    BTreeMap Distance LookupEntry :=
  match entries[dist]? with
  | some entry => entries.insert dist { entry with status := status }
  | none => entries

def markInFlight (lookup : Lookup) (peer : NodeId) (addr : UdpAddr) : Lookup :=
  { lookup with
    entries := setStatus lookup.entries (peer.distance lookup.target) .inFlight
    pendingQueries := lookup.pendingQueries.insert addr peer }

def markDialing (lookup : Lookup) (peer : NodeId) (addr : UdpAddr) : Lookup :=
  { lookup with
    entries := setStatus lookup.entries (peer.distance lookup.target) .dialing
    pendingDials := lookup.pendingDials.insert addr peer }

def isPendingDial (lookup : Lookup) (addr : UdpAddr) : Bool := lookup.pendingDials.contains addr

/-- A dialed peer is established: it is to be queried. -/
def completeDial (lookup : Lookup) (addr : UdpAddr) : Lookup :=
  { lookup with
    entries := match lookup.pendingDials[addr]? with
      | some nodeId => setStatus lookup.entries (nodeId.distance lookup.target) .unqueried
      | none => lookup.entries
    pendingDials := lookup.pendingDials.erase addr }

/-- Merge the peers of an answer, and mark the peer that was waited for. -/
def recordResponse (lookup : Lookup) (addr : UdpAddr) (peers : List (NodeId × UdpAddr)) :
    Lookup × Bool :=
  let merged := (peers.filter fun p => p.1 ≠ lookup.selfId).foldl
    (fun acc p =>
      acc.insertIfNew (p.1.distance lookup.target) (⟨p.1, p.2, .unqueried⟩ : LookupEntry))
    lookup.entries
  let matched := lookup.pendingQueries[addr]?
  ({ lookup with
     entries := match matched with
      | some nodeId => setStatus merged (nodeId.distance lookup.target) .done
      | none => merged
     pendingQueries := lookup.pendingQueries.erase addr },
   matched.isSome)

/-- Give the peers of a table up. -/
def skip (target : NodeId) (pending : BTreeMap UdpAddr NodeId)
    (entries : BTreeMap Distance LookupEntry) : BTreeMap Distance LookupEntry :=
  pending.values.foldl (fun acc nodeId => setStatus acc (nodeId.distance target) .skipped) entries

def skipPendingQueries (lookup : Lookup) : Lookup :=
  { lookup with
    entries := skip lookup.target lookup.pendingQueries lookup.entries
    pendingQueries := ∅ }

def skipPendingDials (lookup : Lookup) : Lookup :=
  { lookup with
    entries := skip lookup.target lookup.pendingDials lookup.entries
    pendingDials := ∅ }

/-- What an event means to the lookup. -/
def onEvent (lookup : Lookup) : KadEvent → Lookup
  | .findNodeResponseReceived addr peers => (lookup.recordResponse addr peers).1
  | .handshakeComplete addr _ _ _ =>
      if lookup.isPendingDial addr then lookup.completeDial addr else lookup
  | _ => lookup

end Lookup

/-! ### The rounds -/

/-- What a round does with a peer. -/
inductive RoundAction where
  | query (addr : UdpAddr)
  | dial (addr : UdpAddr) (seed : Key)
  deriving DecidableEq

/-- Established peers are queried, the others dialed, each with its own seed. -/
def decideActions (host : Host C) : List (NodeId × UdpAddr) → (ℕ → Key) →
    List (NodeId × RoundAction) × (ℕ → Key)
  | [], seeds => ([], seeds)
  | (id, addr) :: rest, seeds =>
      if host.isEstablished addr then
        let (actions, seeds) := decideActions host rest seeds
        ((id, .query addr) :: actions, seeds)
      else
        let (actions, seeds') := decideActions host rest fun i => seeds (i + 1)
        ((id, .dial addr (seeds 0)) :: actions, seeds')

/-- Note in the lookup what a round is about to do. -/
def markActions (lookup : Lookup) (actions : List (NodeId × RoundAction)) : Lookup :=
  actions.foldl
    (fun acc p => match p.2 with
      | .query addr => acc.markInFlight p.1 addr
      | .dial addr _ => acc.markDialing p.1 addr)
    lookup

/-- Act on one peer. -/
def RoundAction.act (action : RoundAction) (target : NodeId) (node : KademliaNode C) :
    Io World Error (KademliaNode C) :=
  match action with
  | .query addr => node.findNode addr target
  | .dial addr seed => node.dial addr seed

/-- Act on the peers of a round, one after the other. -/
def sendChain (target : NodeId) (actions : List (NodeId × RoundAction)) (node : KademliaNode C) :
    Io World Error (KademliaNode C) :=
  actions.foldl (fun acc p => acc.flatMap fun n => p.2.act target n) (Io.pure node)

lemma sendChain_eq_chain (target : NodeId) (actions : List (NodeId × RoundAction))
    (node : KademliaNode C) :
    sendChain target actions node = Io.chain (fun p n => p.2.act target n) actions node :=
  Io.foldl_flatMap_eq_chain _ actions (Io.pure node)

/-- Read datagrams until nothing is under way or the budget is spent. -/
def drainResponses (node : KademliaNode C) (lookup : Lookup) (seeds : ℕ → Key) :
    ℕ → Io World Error (KademliaNode C × Lookup × (ℕ → Key))
  | 0 => Io.pure (node, lookup, seeds)
  | budget + 1 =>
      if lookup.pendingQueries.isEmpty && lookup.pendingDials.isEmpty then
        Io.pure (node, lookup, seeds)
      else
        (node.recvOne (seeds 0)).flatMap fun r =>
          drainResponses r.1 (lookup.onEvent r.2) (fun i => seeds (i + 1)) budget

lemma drainResponses_succ (node : KademliaNode C) (lookup : Lookup) (seeds : ℕ → Key)
    (budget : ℕ) :
    drainResponses node lookup seeds (budget + 1) =
      if lookup.hasPending = true then
        (node.recvOne (seeds 0)).flatMap fun r =>
          drainResponses r.1 (lookup.onEvent r.2) (fun i => seeds (i + 1)) budget
      else Io.pure (node, lookup, seeds) := by
  rw [drainResponses, Lookup.hasPending]
  cases lookup.pendingQueries.isEmpty <;> cases lookup.pendingDials.isEmpty <;> rfl

/-- Run the rounds that are left. -/
def driveRounds (node : KademliaNode C) (lookup : Lookup) (seeds : ℕ → Key) :
    ℕ → Io World Error (KademliaNode C × Lookup)
  | 0 => Io.pure (node, lookup)
  | roundsLeft + 1 =>
      if lookup.isDone then Io.pure (node, lookup)
      else
        let toAct := lookup.pickNextAlpha
        if toAct = [] then Io.pure (node, lookup)
        else
          let (actions, seeds) := decideActions node.host toAct seeds
          let lookup := markActions lookup actions
          (sendChain lookup.target actions node).flatMap fun node =>
            (drainResponses node lookup seeds lookup.config.maxRecvPerRound).flatMap fun r =>
              driveRounds r.1 r.2.1.skipPendingQueries.skipPendingDials r.2.2 roundsLeft

/-- Look the peers closest to a target up. -/
def KademliaNode.lookupNode (node : KademliaNode C) (target : NodeId) (config : LookupConfig)
    (seeds : ℕ → Key) : Io World Error (KademliaNode C × List (NodeId × UdpAddr)) :=
  let initial := node.table.closestTo target config.k
  let lookup := Lookup.new node.table.selfId target config initial
  (driveRounds node lookup seeds config.maxRounds).map fun r => (r.1, r.2.topKResults)

end Libp2pCat.Kad
