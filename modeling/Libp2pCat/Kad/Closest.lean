import Libp2pCat.Kad.TableInvariant
import Libp2pCat.Lib.Nearest

/-!
The peers a routing table returns for a target are the nearest ones it has.

* `Distance.toNat`: a distance as a 256-bit number; `Distance.isLE_compare_iff`: the order of the
  bytes is the order of the numbers.
* `RoutingTable.away`, `RoutingTable.closestTo_eq_nearest`: `closest_to` takes the stored peers
  with the least distances.
* `closest_to_nearest`: what it returns after any sequence of insertions and removals.
-/

namespace Libp2pCat

open ByteString
open scoped List

namespace Distance

/-- The distance as a 256-bit number, most significant byte first. -/
def toNat (d : Distance) : ℕ := ofBe d.asBytes.bytes

lemma isLE_compare_iff (a b : Distance) : (compare a b).isLE = true ↔ a.toNat ≤ b.toNat := by
  have hcmp : compare a b = compare a.toNat b.toNat := compare_eq_compare_ofBe (by simp)
  rw [hcmp, Nat.isLE_compare]

lemma compare_eq_lt_iff {a b : Distance} : compare a b = .lt ↔ a.toNat < b.toNat := by
  have hcmp : compare a b = compare a.toNat b.toNat := compare_eq_compare_ofBe (by simp)
  rw [hcmp, Nat.compare_eq_lt]

lemma toNat_injective : Function.Injective toNat := by
  intro a b h
  have hbytes : a.asBytes.bytes = b.asBytes.bytes := by
    have ha := beBytes_ofBe a.asBytes.bytes
    have hb := beBytes_ofBe b.asBytes.bytes
    rw [Arr.length_bytes] at ha hb
    rw [← ha, ← hb]
    exact congrArg _ h
  obtain ⟨a⟩ := a
  obtain ⟨b⟩ := b
  exact congrArg Distance.mk (Arr.bytes_inj.mp hbytes)

end Distance

namespace RoutingTable

/-- How far a stored peer is from a target. -/
def away (target : NodeId) (p : NodeId × UdpAddr) : ℕ := (p.1.distance target).toNat

/-- The peers returned are the stored ones with the least distances. -/
lemma closestTo_eq_nearest (table : RoutingTable) (target : NodeId) (n : ℕ) :
    table.closestTo target n = List.nearest (away target) n table.stored := by
  rw [closestTo, List.map_take, List.nearest]
  have hsort := List.map_insertionSort
    (fun a b : Distance × NodeId × UdpAddr => (compare a.1 b.1).isLE = true)
    (fun p q : NodeId × UdpAddr => away target p ≤ away target q) (fun p => (p.2.1, p.2.2))
    (table.stored.map fun p => (p.1.distance target, p.1, p.2)) (by
      intro a ha b hb
      obtain ⟨p, -, rfl⟩ := List.mem_map.mp ha
      obtain ⟨q, -, rfl⟩ := List.mem_map.mp hb
      exact Distance.isLE_compare_iff _ _)
  rw [List.map_map] at hsort
  have hback : ((fun p : Distance × NodeId × UdpAddr => (p.2.1, p.2.2)) ∘
      fun p : NodeId × UdpAddr => (p.1.distance target, p.1, p.2)) = id := rfl
  rw [hback, List.map_id] at hsort
  exact congrArg (List.take n) hsort

/-- No two stored peers are at the same distance. -/
lemma WellFormed.nodup_away {table : RoutingTable} {selfId : NodeId} {k : ℕ}
    (h : table.WellFormed selfId k) (target : NodeId) : (table.stored.map (away target)).Nodup := by
  have hfar : Function.Injective fun id : NodeId => (id.distance target).toNat :=
    Distance.toNat_injective.comp (NodeId.distance_injective target)
  have hids := h.nodup.map hfar
  rw [List.map_map] at hids
  exact hids

/-- After any insertions and removals `closest_to` returns `max_count` peers, or all there are,
as the table stores them, in strictly increasing distance and no identifier twice; everything
stored and not returned is strictly farther away than everything returned.  So fewer peers are an
initial part of more, and another table that stores the same pairs returns the same peers. -/
theorem closest_to_nearest (selfId : NodeId) (k : ℕ) (ops : List Op) (target : NodeId) (n : ℕ) :
    let table := ops.foldl apply (new selfId k)
    let closest := table.closestTo target n
    closest.length = min n table.len ∧ (∀ p ∈ closest, p ∈ table.stored) ∧
      closest.Pairwise (fun p q => away target p < away target q) ∧
      (closest.map Prod.fst).Nodup ∧
      (∀ p ∈ table.stored, p ∉ closest → ∀ q ∈ closest, away target q < away target p) ∧
      (∀ m ≤ n, table.closestTo target m <+: closest) ∧
      ∀ selfId' k' ops', let table' := List.foldl apply (new selfId' k') ops'
        (∀ p, p ∈ table'.stored ↔ p ∈ table.stored) → table'.closestTo target n = closest := by
  intro table closest
  have h : table.WellFormed selfId k := (wellFormed_new selfId k).run ops
  have hkeys := h.nodup_away target
  have hclosest : closest = List.nearest (away target) n table.stored :=
    table.closestTo_eq_nearest target n
  have hstrict : closest.Pairwise fun p q => away target p < away target q :=
    hclosest ▸ List.pairwise_lt_nearest hkeys
  refine ⟨?_, ?_, hstrict, ?_, ?_, ?_, ?_⟩
  · rw [hclosest, List.length_nearest, len_eq_length_stored]
  · intro p hp
    rw [hclosest] at hp
    exact List.mem_of_mem_nearest hp
  · rw [List.Nodup, List.pairwise_map]
    refine hstrict.imp fun {p q} hlt heq => ?_
    rw [away, away, heq] at hlt
    exact lt_irrefl _ hlt
  · intro p hp hout q hq
    rw [hclosest] at hout hq
    exact List.lt_of_notMem_nearest hkeys hp hout hq
  · intro m hm
    rw [hclosest, closestTo_eq_nearest]
    exact List.nearest_prefix hm
  · intro selfId' k' ops' table' hsame
    have h' : table'.WellFormed selfId' k' := (wellFormed_new selfId' k').run ops'
    rw [hclosest, closestTo_eq_nearest]
    exact List.nearest_congr hkeys (h'.nodup_away target) hsame

end RoutingTable

end Libp2pCat
