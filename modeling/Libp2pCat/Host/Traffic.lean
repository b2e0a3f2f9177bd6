import Libp2pCat.Host.Steps
import Libp2pCat.Lib.Follows

/-!
The operations of a host as computations that follow its steps, and what a run of sends puts on
the wire.

* `Host.establishedAddrs_of_send`: a send adds and drops no peer.
* `Host.follows_dial`, `Host.follows_send`, `Host.follows_sendRaw`, `Host.follows_recvOne`: each
  operation is one step, whose label says what was asked of the host.
* `exists_sent_of_sends`: a run of sends of one plaintext leaves one datagram for each address.
-/

namespace Libp2pCat

open ByteString Effect Std Trace

variable {C : Crypto}

namespace Host

/-- Writing over an entry of a table keeps its keys and their order. -/
lemma keys_insert_of_mem {V : Type} {map : BTreeMap UdpAddr V} {addr : UdpAddr} {v : V}
    (h : addr ∈ map) : (map.insert addr v).keys = map.keys := by
  have hsorted : ∀ m : BTreeMap UdpAddr V, m.keys.Pairwise fun a b => compare a b = .lt :=
    fun m => ExtTreeMap.ordered_keys
  refine List.Perm.eq_of_pairwise ?_ (hsorted _) (hsorted _) ?_
  · intro a b _ _ hab hba
    exact absurd hba (OrientedCmp.not_lt_of_lt hab)
  · refine (List.perm_ext_iff_of_nodup ExtTreeMap.nodup_keys ExtTreeMap.nodup_keys).mpr fun a => ?_
    rw [ExtTreeMap.mem_keys, ExtTreeMap.mem_keys, ExtTreeMap.mem_insert]
    refine ⟨?_, Or.inr⟩
    rintro (heq | hmem)
    · rwa [← LawfulEqOrd.eq_of_compare heq]
    · exact hmem

lemma establishedAddrs_of_send {s s' : Host C × World} {addr : UdpAddr} {plaintext : Bytes}
    (h : Host.Step s (.send addr plaintext) s') :
    s'.1.establishedAddrs = s.1.establishedAddrs := by
  cases h with
  | send hrun =>
      obtain ⟨conn, transport, datagram, hconn, -, rfl, -⟩ := send_run_eq_ok hrun
      refine keys_insert_of_mem ?_
      rw [ExtTreeMap.mem_iff_isSome_getElem?, hconn]
      rfl

lemma follows_dial (host : Host C) (addr : UdpAddr) (seed : Key) :
    Io.Follows Host.Step host (host.dial addr seed)
      fun host' l s => s = host' ∧ l = [.dial addr seed] :=
  Io.follows_single fun _ _ _ h => ⟨_, _, .dial h, rfl, rfl⟩

lemma follows_send (host : Host C) (addr : UdpAddr) (plaintext : Bytes) :
    Io.Follows Host.Step host (host.send addr plaintext)
      fun host' l s => s = host' ∧ l = [.send addr plaintext] ∧
        host'.establishedAddrs = host.establishedAddrs :=
  Io.follows_single fun _ _ _ h =>
    ⟨_, _, .send h, rfl, rfl, establishedAddrs_of_send (.send h)⟩

lemma follows_sendRaw (host : Host C) (addr : UdpAddr) (bytes : Bytes) :
    Io.Follows Host.Step host (host.sendRaw addr bytes)
      fun host' l s => s = host' ∧ l = [.sendRaw addr bytes] :=
  Io.follows_single fun _ _ _ h => ⟨_, _, .sendRaw h, rfl, rfl⟩

lemma follows_recvOne (host : Host C) (seed : Key) :
    Io.Follows Host.Step host (host.recvOne seed)
      fun r l s => s = r.1 ∧ l = [.recvOne seed r.2] :=
  Io.follows_single fun _ _ _ h => ⟨_, _, .recvOne h, rfl, rfl⟩

end Host

/-- A run of sends of one plaintext leaves one datagram for each address, in their order, and
changes no peer. -/
lemma exists_sent_of_sends {addrs : List UdpAddr} {plaintext : Bytes} {s s' : Host C × World}
    (h : Run Host.Step s (addrs.map fun a => .send a plaintext) s') :
    s'.1.establishedAddrs = s.1.establishedAddrs ∧
      ∃ out, s'.2.sent = s.2.sent ++ out ∧ out.map Prod.fst = addrs := by
  induction addrs generalizing s with
  | nil =>
      rw [h.eq_of_nil]
      exact ⟨rfl, [], (List.append_nil _).symm, rfl⟩
  | cons addr addrs ih =>
      obtain ⟨t, hstep, hrest⟩ := h.exists_of_cons
      obtain ⟨hpeers, out, hsent, haddrs⟩ := ih hrest
      have hsame := Host.establishedAddrs_of_send hstep
      cases hstep with
      | send hrun =>
          obtain ⟨_, _, datagram, -, -, -, rfl⟩ := send_run_eq_ok hrun
          refine ⟨hpeers.trans hsame, (addr, datagram) :: out, ?_, by rw [List.map_cons, haddrs]⟩
          rw [hsent, World.afterSend, List.append_assoc]
          rfl

end Libp2pCat
