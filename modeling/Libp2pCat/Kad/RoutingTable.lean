import Libp2pCat.Noise.Primitives

/-!
`libp2p-cat-kad`: Kademlia identifiers, the XOR distance, k-buckets and the routing table
(`node_id.rs`, `distance.rs`, `bucket.rs`, `routing_table.rs`).

* `NodeId`, `NodeId.distance`, `Distance.bucketIndex`: identifiers, their distance as a
  256-bit big-endian number, and the bucket a distance belongs to.
* `Bucket.insert`: most recently seen first; a full bucket refuses and names its oldest peer.
* `RoutingTable.insert`, `RoutingTable.closestTo`: 256 buckets, and the known peers in the
  order of their distance to a target.
-/

namespace Libp2pCat

open ByteString

/-! ### Identifiers and distances -/

/-- Width of an identifier in bytes. -/
abbrev NODE_ID_LEN : ℕ := 32

/-- Width of an identifier in bits, which is the number of buckets. -/
abbrev NODE_ID_BITS : ℕ := NODE_ID_LEN * 8

/-- A 256-bit Kademlia identifier. -/
structure NodeId where
  asBytes : Arr NODE_ID_LEN
  deriving DecidableEq

/-- The XOR distance between two identifiers, most significant byte first. -/
structure Distance where
  asBytes : Arr NODE_ID_LEN
  deriving DecidableEq

/-- The identifier of a peer. -/
def NodeId.fromPeerId (C : Crypto) (peerId : PeerId) : NodeId := ⟨C.blake3 peerId.asBytes⟩

/-- The distance to another identifier. -/
def NodeId.distance (id other : NodeId) : Distance :=
  ⟨⟨List.zipWith (· ^^^ ·) id.asBytes.bytes other.asBytes.bytes, by simp⟩⟩

namespace Distance

/-- Distances are compared as big-endian numbers, which is the order of their bytes. -/
instance : Ord Distance := ⟨compareOn fun d => d.asBytes.bytes⟩

instance : Std.TransOrd Distance :=
  inferInstanceAs (Std.TransCmp (compareOn fun d : Distance => d.asBytes.bytes))

instance : Std.LawfulEqOrd Distance where
  eq_of_compare {a b} h := by
    have hbytes : a.asBytes.bytes = b.asBytes.bytes := Std.LawfulEqOrd.eq_of_compare h
    cases a
    cases b
    simpa using hbytes

/-- The two identifiers were equal. -/
def isZero (d : Distance) : Bool := d.asBytes.bytes.all (· == 0)

/-- Leading zero bits of a byte. -/
def byteLeadingZeros (b : UInt8) : ℕ := if b = 0 then 8 else 7 - Nat.log2 b.toNat

/-- Leading zero bits of a distance, all of them for the zero distance. -/
def leadingZeros (d : Distance) : ℕ :=
  match d.asBytes.bytes.zipIdx.find? (fun p => p.1 != 0) with
  | some (byte, byteIdx) => byteIdx * 8 + byteLeadingZeros byte
  | none => NODE_ID_BITS

/-- The bucket of a peer at this distance: the position of the highest bit that is set. -/
def bucketIndex (d : Distance) : Option ℕ :=
  if d.isZero then none else some (NODE_ID_BITS - 1 - d.leadingZeros)

end Distance

/-! ### Buckets -/

/-- The recommended replication factor. -/
abbrev DEFAULT_K : ℕ := 20

/-- What came of offering a peer to a bucket. -/
inductive InsertOutcome where
  | added
  | updated
  | bucketFull (lruCandidate : NodeId)
  deriving DecidableEq

/-- A bucket: at most `capacity` peers, the most recently seen first. -/
structure Bucket where
  capacity : ℕ
  entries : List (NodeId × UdpAddr)
  deriving DecidableEq

namespace Bucket

def new (capacity : ℕ) : Bucket := ⟨capacity, []⟩

/-- Number of peers. -/
def len (bucket : Bucket) : ℕ := bucket.entries.length

def contains (bucket : Bucket) (node : NodeId) : Bool := bucket.entries.any fun p => p.1 == node

/-- Offer a peer: a known one moves to the front with its new address, a new one enters at
the front if there is room. -/
def insert (bucket : Bucket) (node : NodeId) (addr : UdpAddr) : Bucket × InsertOutcome :=
  let entries := bucket.entries
  match entries.findIdx? (fun p => p.1 == node) with
  | some idx =>
      let removedId := (entries[idx]?.map Prod.fst).getD node
      ({ bucket with entries := (removedId, addr) :: entries.eraseIdx idx }, .updated)
  | none =>
      if entries.length < bucket.capacity then
        ({ bucket with entries := (node, addr) :: entries }, .added)
      else
        let lru := (entries.getLast?.map Prod.fst).getD ⟨.replicate NODE_ID_LEN 0⟩
        (bucket, .bucketFull lru)

/-- Drop a peer. -/
def remove (bucket : Bucket) (node : NodeId) : Bucket :=
  { bucket with entries := bucket.entries.filter fun p => p.1 != node }

end Bucket

/-! ### The routing table -/

/-- A routing table: the own identifier, the bucket size and the buckets. -/
structure RoutingTable where
  selfId : NodeId
  k : ℕ
  buckets : List Bucket
  deriving DecidableEq

namespace RoutingTable

def new (selfId : NodeId) (k : ℕ) : RoutingTable :=
  ⟨selfId, k, (List.range NODE_ID_BITS).map fun _ => Bucket.new k⟩

/-- Number of peers across all buckets. -/
def len (table : RoutingTable) : ℕ := (table.buckets.map Bucket.len).sum

/-- Some bucket holds the peer. -/
def contains (table : RoutingTable) (peer : NodeId) : Bool :=
  table.buckets.any fun b => b.contains peer

/-- Offer a peer to the bucket at an index. -/
def insertIntoBucket (selfId : NodeId) (k : ℕ) (buckets : List Bucket) (idx : ℕ) (peer : NodeId)
    (addr : UdpAddr) : RoutingTable × InsertOutcome :=
  let (nextBuckets, outcome) := buckets.zipIdx.foldl
    (fun (acc : List Bucket × Option InsertOutcome) (p : Bucket × ℕ) =>
      if p.2 = idx then
        let (updated, outcome) := p.1.insert peer addr
        (acc.1 ++ [updated], some outcome)
      else (acc.1 ++ [p.1], acc.2))
    ([], none)
  (⟨selfId, k, nextBuckets⟩, outcome.getD .updated)

/-- Offer a peer to its bucket; the own identifier has none. -/
def insert (table : RoutingTable) (peer : NodeId) (addr : UdpAddr) :
    RoutingTable × InsertOutcome :=
  match (table.selfId.distance peer).bucketIndex with
  | none => (table, .updated)
  | some idx => insertIntoBucket table.selfId table.k table.buckets idx peer addr

/-- Drop a peer. -/
def remove (table : RoutingTable) (peer : NodeId) : RoutingTable :=
  match (table.selfId.distance peer).bucketIndex with
  | none => table
  | some idx =>
      { table with
        buckets := table.buckets.zipIdx.map fun p => if p.2 = idx then p.1.remove peer else p.1 }

/-- The known peers in the order of their distance to a target, at most `maxCount`. -/
def closestTo (table : RoutingTable) (target : NodeId) (maxCount : ℕ) : List (NodeId × UdpAddr) :=
  let all := (table.buckets.flatMap Bucket.entries).map fun p => (p.1.distance target, p.1, p.2)
  let sorted := all.insertionSort fun a b => (compare a.1 b.1).isLE = true
  (sorted.take maxCount).map fun p => (p.2.1, p.2.2)

end RoutingTable

end Libp2pCat
