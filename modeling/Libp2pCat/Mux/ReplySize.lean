import Libp2pCat.Mux.Agreement
import Libp2pCat.Mux.Hearsay
import Libp2pCat.Kad.Closest
import Libp2pCat.Kad.RoundTrip

/-!
How large the answers to `FIND_NODE` get.

* `ReplyFits`: an answer has an encoding, and its datagram in the multiplexer is within the
  default limit; `RepliesFit`: so is every answer of every table of a bucket size.
* `replyFits_of_length_le`, `not_replyFits`: 23 peers fit, and 24 with IPv6 addresses do not.
* `stored_fill`: a table takes as many peers as its bucket size, whoever they are.
* `Oversized`: the errors of an answer with too many peers or too many bytes; `Receives`: what the
  next datagram decrypts to.
* `find_node_replies_fit`: the answers fit exactly up to bucket size 23, and then no request costs
  a node such an error.
-/

namespace Libp2pCat.Mux

open ByteString Effect Trace Std Kad RoutingTable
open scoped List

variable {C : Crypto} {R : Pubsub.Rlnc} {A : Pubsub.PubsubAuth}

/-! ### The size of an answer -/

/-- The answer has an encoding, and its datagram with the kind byte is within the default limit. -/
def ReplyFits (peers : List (NodeId × UdpAddr)) : Prop :=
  ∃ bytes, Kad.encode (.findNodeResp peers) = .ok bytes ∧
    (kindWrap KIND_KAD bytes).length + TRANSPORT_OVERHEAD_LEN ≤ DEFAULT_MAX_DATAGRAM

/-- Every answer of every table of this bucket size fits. -/
def RepliesFit (k : ℕ) : Prop :=
  ∀ (selfId : NodeId) (ops : List Op) (target : NodeId),
    ReplyFits ((ops.foldl apply (new selfId k)).closestTo target k)

lemma length_encodeEntry_le (p : NodeId × UdpAddr) : (encodeEntry p).length ≤ 51 := by
  obtain ⟨id, s | s⟩ := p
  · rw [encodeEntry, List.length_append, Arr.length_bytes, length_encodeAddr_v4]
    decide
  · rw [encodeEntry, List.length_append, Arr.length_bytes, length_encodeAddr_v6]
    decide

/-- Entries with IPv6 addresses are the longest. -/
lemma length_encodeEntry_v6 {p : NodeId × UdpAddr} (h : ∃ s, p.2 = .v6 s) :
    (encodeEntry p).length = 51 := by
  obtain ⟨s, hs⟩ := h
  rw [encodeEntry, List.length_append, Arr.length_bytes, hs, length_encodeAddr_v6]
  rfl

/-- Up to 23 peers fit, whatever their addresses. -/
lemma replyFits_of_length_le {peers : List (NodeId × UdpAddr)} (h : peers.length ≤ 23) :
    ReplyFits peers := by
  refine ⟨_, encode_findNodeResp_eq_ok_iff.mpr ⟨h.trans (by decide), rfl⟩, ?_⟩
  have hlen := length_flatMap_le fun p (_ : p ∈ peers) => length_encodeEntry_le p
  rw [kindWrap, List.length_cons, List.length_cons, List.length_cons]
  simp only [TRANSPORT_OVERHEAD_LEN, AEAD_TAG_LEN, DEFAULT_MAX_DATAGRAM]
  omega

/-- More than 23 with IPv6 addresses do not. -/
lemma not_replyFits {peers : List (NodeId × UdpAddr)} (hlong : 24 ≤ peers.length)
    (hv6 : ∀ p ∈ peers, ∃ s, p.2 = .v6 s) : ¬ReplyFits peers := by
  rintro ⟨bytes, henc, hfit⟩
  obtain ⟨-, rfl⟩ := encode_findNodeResp_eq_ok_iff.mp henc
  rw [kindWrap, List.length_cons, List.length_cons, List.length_cons,
    length_flatMap_eq fun p hp => length_encodeEntry_v6 (hv6 p hp)] at hfit
  simp only [TRANSPORT_OVERHEAD_LEN, AEAD_TAG_LEN, DEFAULT_MAX_DATAGRAM] at hfit
  omega

/-! ### Tables that hold many peers -/

/-- A table takes as many new peers as its bucket size, whichever buckets they belong to. -/
lemma stored_fill {table : RoutingTable} {selfId : NodeId} {k : ℕ}
    (h : table.WellFormed selfId k) {peers : List (NodeId × UdpAddr)}
    (hself : selfId ∉ peers.map Prod.fst)
    (hall : ((peers ++ table.stored).map Prod.fst).Nodup)
    (hroom : peers.length + table.stored.length ≤ k) :
    ((peers.map fun p => Op.insert p.1 p.2).foldl apply table).stored ~ peers ++ table.stored := by
  induction peers generalizing table with
  | nil => exact .refl _
  | cons p peers ih =>
      rw [List.map_cons, List.mem_cons, not_or] at hself
      have hnew : p.1 ∉ (peers ++ table.stored).map Prod.fst := (List.nodup_cons.mp hall).1
      rw [List.map_append, List.mem_append, not_or] at hnew
      rw [List.length_cons] at hroom
      have hstored := h.stored_insert p.2 (Ne.symm hself.1) hnew.2 (by omega)
      have hmiddle : peers ++ (table.insert p.1 p.2).1.stored ~ (p :: peers) ++ table.stored :=
        (hstored.append_left peers).trans List.perm_middle
      rw [List.map_cons, List.foldl_cons]
      refine (ih (h.insert p.1 p.2) hself.2 ?_ ?_).trans hmiddle
      · exact (hmiddle.map Prod.fst).nodup_iff.mpr hall
      · rw [hstored.length_eq, List.length_cons]
        omega

/-- Twenty-four peers with IPv6 addresses. -/
def crowd : List (NodeId × UdpAddr) :=
  (List.range 24).map fun i =>
    (⟨.replicate 32 (UInt8.ofNat (i + 1))⟩, .v6 ⟨.replicate 16 1, 9, 0, 0⟩)

/-- Every answer fits exactly up to bucket size 23. -/
lemma repliesFit_iff (k : ℕ) : RepliesFit k ↔ k ≤ 23 := by
  constructor
  · intro hfit
    by_contra hk
    let selfId : NodeId := ⟨.replicate 32 0⟩
    let ops := crowd.map fun p => Op.insert p.1 p.2
    have hstored : (ops.foldl apply (new selfId k)).stored ~ crowd := by
      have hself : selfId ∉ crowd.map Prod.fst := by decide +kernel
      have hall : (crowd.map Prod.fst).Nodup := by decide +kernel
      have hlen : crowd.length = 24 := by decide
      have hfill := stored_fill (wellFormed_new selfId k) hself
      rw [stored_new, List.append_nil] at hfill
      refine hfill hall ?_
      rw [hlen, List.length_nil]
      omega
    obtain ⟨hlen, hmem, -⟩ := closest_to_nearest selfId k ops selfId k
    refine not_replyFits ?_ ?_ (hfit selfId ops selfId)
    · rw [hlen, len_eq_length_stored, hstored.length_eq]
      exact le_min (by omega) (by decide)
    · intro p hp
      obtain ⟨i, -, rfl⟩ := List.mem_map.mp (hstored.mem_iff.mp (hmem p hp))
      exact ⟨_, rfl⟩
  · intro hk selfId ops target
    refine replyFits_of_length_le ?_
    rw [(closest_to_nearest selfId k ops target k).1]
    exact (min_le_left _ _).trans hk

/-! ### Errors of the answering node -/

/-- The errors of an answer with too many peers or too many bytes. -/
def Oversized (e : Error) : Prop :=
  TooLarge e ∨ ∃ peers, Kad.encode (.findNodeResp peers) = .error e

lemma not_oversized {e : Error}
    (hsize : ∀ attempted maximum, e ≠ .datagramTooLarge attempted maximum)
    (hcount : ∀ reason, e ≠ .pubsubProtocol reason) : ¬Oversized e := by
  rintro (⟨attempted, maximum, h⟩ | ⟨peers, h⟩)
  · exact hsize _ _ h
  · rw [encode, encodeFindNodeResp] at h
    split_ifs at h
    exact hcount _ (Except.error.inj h).symm

/-- A datagram within the limit is refused by the system only. -/
lemma not_oversized_socketSend {socket : UdpTransport} {dst : UdpAddr} {payload : Bytes}
    {w w' : World} {e : Error} (hfits : payload.length ≤ socket.maxSendPayload)
    (h : (socket.send dst payload).run w = (.error e, w')) : ¬Oversized e := by
  simp only [Io.run, UdpTransport.send, if_neg (Nat.not_lt.mpr hfits)] at h
  split at h
  · cases h
  · cases h
    exact not_oversized (by rintro _ _ ⟨⟩) (by rintro _ ⟨⟩)

/-- A plaintext that fits with its overhead is not too large to send. -/
lemma not_oversized_send (hC : C.Seals) {host : Host C} {addr : UdpAddr} {plaintext : Bytes}
    {w w' : World} {e : Error}
    (hfits : plaintext.length + TRANSPORT_OVERHEAD_LEN ≤ host.socket.maxSendPayload)
    (h : (host.send addr plaintext).run w = (.error e, w')) : ¬Oversized e := by
  rw [Host.send, prepareSend] at h
  cases hconn : host.established[addr]? with
  | none =>
      rw [hconn] at h
      cases h
      exact not_oversized (by rintro _ _ ⟨⟩) (by rintro _ ⟨⟩)
  | some conn =>
      obtain ⟨c, hc, henc⟩ := encrypt_of_seals hC conn.transport plaintext
      simp only [hconn, okOr_some, Except.ok_bind, henc] at h
      cases hnonce : checkedSucc conn.transport.sendNonce with
      | none =>
          rw [hnonce] at h
          cases h
          exact not_oversized (by rintro _ _ ⟨⟩) (by rintro _ ⟨⟩)
      | some n =>
          rw [hnonce] at h henc
          refine not_oversized_socketSend ?_ (Io.map_run_eq_error.mp h)
          exact (TransportState.length_encrypt hC henc).trans_le hfits

/-- The answer of a well formed table fits, with the kind byte or without. -/
lemma not_oversized_autoReply (hC : C.Seals) {host : Host C} {table : RoutingTable}
    {selfId target : NodeId} {k : ℕ} {addr : UdpAddr} {wrap : Bytes → Bytes} {w w' : World}
    {e : Error} (htable : table.WellFormed selfId k) (hk : k ≤ 23)
    (hsocket : host.socket.maxSendPayload = DEFAULT_MAX_DATAGRAM)
    (hwrap : ∀ bytes, (wrap bytes).length ≤ (kindWrap KIND_KAD bytes).length)
    (h : (autoReplyFindNode host table addr target wrap).run w = (.error e, w')) :
    ¬Oversized e := by
  have hlen : (table.closestTo target table.k).length ≤ 23 := by
    rw [closestTo_eq_nearest, List.length_nearest, htable.k_eq]
    exact (min_le_left _ _).trans hk
  obtain ⟨bytes, henc, hfits⟩ := replyFits_of_length_le hlen
  rw [autoReplyFindNode, henc, Io.run_suspend_ok_flatMap] at h
  refine not_oversized_send hC ?_ (Io.map_run_eq_error.mp h)
  rw [hsocket]
  exact (Nat.add_le_add_right (hwrap bytes) _).trans hfits

/-- The next datagram of a socket decrypts, with the connection to its source, to this
plaintext. -/
def Receives (host : Host C) (w : World) (plaintext : Bytes) : Prop :=
  ∃ addr datagram, w.recvFrom 0 = .ok (addr, datagram) ∧
    host.opens addr (datagram.take host.socket.recvBufSize) = some plaintext

/-- A host delivers such a datagram, and keeps its socket. -/
lemma Receives.delivered {host : Host C} {w : World} {plaintext : Bytes}
    (h : Receives host w plaintext) (seed : Key) :
    ∃ addr host' w', (host.recvOne seed).run w
      = (.ok (host', .datagramDelivered addr plaintext), w') ∧ host'.socket = host.socket := by
  obtain ⟨addr, datagram, hnext, hopens⟩ := h
  obtain ⟨conn, -, -, hdispatch⟩ := dispatchInbound_of_opens seed hopens
  have hrun := recvOne_run_of_recvFrom host seed hnext
  rw [hdispatch, Io.run_pure] at hrun
  exact ⟨addr, _, _, hrun, rfl⟩

lemma not_oversized_handleDatagram (hC : C.Seals) {host : Host C} {table : RoutingTable}
    {selfId target : NodeId} {k : ℕ} {addr : UdpAddr} {body : Bytes} {wrap : Bytes → Bytes}
    {w w' : World} {e : Error} (htable : table.WellFormed selfId k) (hk : k ≤ 23)
    (hsocket : host.socket.maxSendPayload = DEFAULT_MAX_DATAGRAM)
    (hwrap : ∀ bytes, (wrap bytes).length ≤ (kindWrap KIND_KAD bytes).length)
    (hrequest : Kad.decode body = .ok (.findNodeReq target))
    (h : (Kad.handleDatagram host table addr body wrap).run w = (.error e, w')) :
    ¬Oversized e := by
  rw [Kad.handleDatagram, hrequest] at h
  exact not_oversized_autoReply hC (wellFormed_observe htable host addr) hk hsocket hwrap h

/-- Answers to `FIND_NODE` fit exactly up to bucket size 23: just then every answer of every table
with this bucket size, whatever was inserted and removed, has an encoding, and its datagram with
the kind byte is within the default limit.  So in no state of a node with such a table and the
default limit, standalone or in the multiplexer, a request costs the node an error about the number
of peers or the size of a datagram. -/
theorem find_node_replies_fit (hC : C.Seals) :
    (∀ k, RepliesFit k ↔ k ≤ 23) ∧
    ∀ (host : Host C) (k : ℕ) (w₀ : World) (body : Bytes) (target : NodeId), k ≤ 23 →
      Kad.decode body = .ok (.findNodeReq target) →
      (∀ l s seed e w', Run KademliaNode.Step (.new host k, w₀) l s →
        s.1.host.socket.maxSendPayload = DEFAULT_MAX_DATAGRAM → Receives s.1.host s.2 body →
        (s.1.recvOne seed).run s.2 = (.error e, w') → ¬Oversized e) ∧
      (∀ l (s : MultiProtocolNode C R A × World) seed relayRng e w',
        Run MultiProtocolNode.Step (.new host k, w₀) l s →
        s.1.host.socket.maxSendPayload = DEFAULT_MAX_DATAGRAM →
        Receives s.1.host s.2 (prefixKind KIND_KAD body) →
        (s.1.recvOne seed relayRng).run s.2 = (.error e, w') → ¬Oversized e) := by
  refine ⟨repliesFit_iff, fun host k w₀ body target hk hrequest => ⟨?_, ?_⟩⟩
  · intro l s seed e w' hrun hsocket hreceives hfails
    obtain ⟨addr, host', w₁, hdelivered, hsame⟩ := hreceives.delivered seed
    rw [KademliaNode.recvOne, Io.run_flatMap_of_ok hdelivered] at hfails
    exact not_oversized_handleDatagram hC (KademliaNode.run_wellFormed hrun) hk
      (hsame ▸ hsocket) (fun bytes => Nat.le_succ _) hrequest hfails
  · intro l s seed relayRng e w' hrun hsocket hreceives hfails
    obtain ⟨addr, host', w₁, hdelivered, hsame⟩ := hreceives.delivered seed
    rw [MultiProtocolNode.recvOne, Io.run_flatMap_of_ok hdelivered, handleHostEvent,
      dispatchPlaintext_kad] at hfails
    exact not_oversized_handleDatagram hC (MultiProtocolNode.run_wellFormed hrun) hk
      (hsame ▸ hsocket) (fun bytes => le_rfl) hrequest (Io.map_run_eq_error.mp hfails)

/-- A request for the peers near some target. -/
def request : Bytes := Opcode.findNodeReq.toByte :: List.replicate 32 9

/-- A world in which the sample peer completes a handshake and sends the request, and in which the
network is down after the first send. -/
def requestWorld : World where
  recvFrom k :=
    .ok (sampleAddr, if k = 0 then sampleMsg1WithCookie else if k = 1 then sampleMsg3
      else connectedDatagram request)
  sendTo k := if k = 0 then .ok () else .error "network is down"
  sent := []
  received := []

/-- The error of a receive, if it fails. -/
def failure (s : KademliaNode sampleCrypto × World) : Option Error :=
  match (s.1.recvOne (.replicate 32 4)).run s.2 with
  | (.error e, _) => some e
  | (.ok _, _) => none

/-- Bucket size 23 is the largest; and a request that the sample node with bucket size 20 cannot
answer, because the network is down, costs it no error about its size. -/
theorem find_node_replies_fit_sample :
    RepliesFit 23 ∧ ¬RepliesFit 24 ∧
    ∃ l s, Run KademliaNode.Step (.new (sampleHost 2) 20, requestWorld) l s ∧
      failure s = some (.io "network is down") ∧ ¬Oversized (.io "network is down") := by
  obtain ⟨hiff, hsafe⟩ := find_node_replies_fit (R := Pubsub.sampleRlnc)
    (A := Pubsub.nullAuthenticator) sampleCrypto_agrees.seals
  refine ⟨(hiff 23).mpr le_rfl, fun h => absurd ((hiff 24).mp h) (by decide), ?_⟩
  have hchecks : ((receives 2 (.new (sampleHost 2) 20, requestWorld)).map fun r =>
      (failure r.2, r.2.1.host.socket.maxSendPayload,
        (r.2.2.recvFrom 0).toOption.bind fun p =>
          r.2.1.host.opens p.1 (p.2.take r.2.1.host.socket.recvBufSize)))
      = some (some (.io "network is down"), DEFAULT_MAX_DATAGRAM, some request) := by
    decide +kernel
  obtain ⟨⟨events, s⟩, hreceives, hvalues⟩ := Option.map_eq_some_iff.mp hchecks
  simp only [Prod.mk.injEq] at hvalues
  obtain ⟨hfailure, hsocket, hopens⟩ := hvalues
  have hrun := run_of_receives hreceives
  refine ⟨_, s, hrun, hfailure, ?_⟩
  have hnext : Receives s.1.host s.2 request := by
    obtain ⟨⟨addr, datagram⟩, hp, hopens⟩ := Option.bind_eq_some_iff.mp hopens
    cases hr : s.2.recvFrom 0 with
    | error e =>
        rw [hr] at hp
        cases hp
    | ok p =>
        rw [hr] at hp
        cases hp
        exact ⟨addr, datagram, hr, hopens⟩
  rw [failure] at hfailure
  split at hfailure
  · rename_i e w' hfails
    cases hfailure
    exact (hsafe (sampleHost 2) 20 requestWorld request ⟨.replicate 32 9⟩ (by decide) (by decide)).1
      _ s _ _ w' hrun hsocket hnext hfails
  · cases hfailure

end Libp2pCat.Mux
