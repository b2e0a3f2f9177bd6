import Libp2pCat.Host.Channel

/-!
Two hosts with a session: what the one sends next, the other hands over.

* `TransportState.Ahead`: the next datagram of the one transport is new to the other;
  `Ahead.decrypt_encrypt`: it opens, and the one after it is new again.
* `Reaches a addrB b addrA`: the host `a` has `b` at `addrB`, which has it at `addrA`, and its send
  half is ahead.
* `Reaches.of_run_left`, `Reaches.of_run_right`: so it stays, whatever either does, while the
  connections live and nothing of `a` is handed over out of turn; lost datagrams do no harm.
* `Reaches.of_send`: what `a` sends is handed over by `b` as it was, and `a` still reaches `b`.
* `Duplex`: the channels of the two in both directions; `Duplex.handed_subperm`: over a run of both,
  either is handed what the other sent, each plaintext at most as often.
-/

namespace Libp2pCat

open ByteString Effect Std Trace

variable {C : Crypto}

/-! ### Transports -/

/-- The keys match, and the receiving half has not seen the next nonce of the sending half. -/
def TransportState.Ahead (t u : TransportState) : Prop :=
  t.sendKey = u.recvKey ∧
    (u.recvMaxNonce < t.sendNonce ∨ (u.recvMaxNonce = 0 ∧ u.recvReplayWindow = 0))

lemma TransportState.ahead_of_mirrored {t u : TransportState} (h : t.Mirrored u) : t.Ahead u :=
  ⟨h.1.1, Or.inr ⟨h.2.2.2.1, h.2.2.2.2⟩⟩

lemma TransportState.mirrored_symm {t u : TransportState} (h : t.Mirrored u) : u.Mirrored t :=
  ⟨⟨h.1.2.symm, h.1.1.symm⟩, h.2.2, h.2.1⟩

/-- A nonce that is ahead passes the window. -/
lemma nonceAcceptable_of_ahead {t u : TransportState} (h : t.Ahead u) :
    nonceAcceptable u.recvReplayWindow u.recvMaxNonce t.sendNonce = .ok () := by
  obtain ⟨-, hlt | ⟨hmax, hwindow⟩⟩ := h
  · rw [nonceAcceptable, if_pos hlt]
  · rw [nonceAcceptable_iff, Window.Accepts, windowOf, hmax, hwindow]
    by_cases hzero : t.sendNonce.toNat = 0
    · exact Or.inr ⟨by simp [hzero], by simp⟩
    · exact Or.inl (Nat.pos_of_ne_zero hzero)

/-- The next datagram of a transport that is ahead opens to its plaintext, and the one after it is
ahead again. -/
lemma TransportState.Ahead.decrypt_encrypt (hC : C.Agrees) {t t' u : TransportState}
    {plaintext datagram : Bytes} (h : t.Ahead u)
    (henc : t.encrypt C plaintext = .ok (t', datagram)) :
    ∃ u', u.decrypt C datagram = (u', .ok plaintext) ∧ t'.Ahead u' := by
  have hacc := nonceAcceptable_of_ahead h
  obtain ⟨hkey, hahead⟩ := h
  obtain ⟨c, hc, rfl, hlt, rfl⟩ := encrypt_eq_ok_iff.mp henc
  obtain ⟨hdec, hlen⟩ := aeadDecrypt_of_aeadEncrypt hC hc
  have hchk := decryptChecked_eq_ok_iff.mpr
    ⟨c, rfl, by rw [hlen]; exact Nat.le_add_left _ _, hacc, hkey ▸ hdec⟩
  refine ⟨_, decrypt_of_checked hchk, hkey, Or.inl ?_⟩
  -- the greatest nonce is now the one that was sent, or stays zero with it
  have hsucc : (t.sendNonce + 1).toNat = t.sendNonce.toNat + 1 := by
    rw [UInt64.toNat_add, UInt64.toNat_one, Nat.mod_eq_of_lt hlt]
  rw [UInt64.lt_iff_toNat_lt, hsucc]
  by_cases hmax : u.recvMaxNonce < t.sendNonce
  · simp [advanceWindow, if_pos hmax]
  · rw [advanceWindow, if_neg hmax]
    rcases hahead with hlt' | ⟨hzero, -⟩
    · exact absurd hlt' hmax
    · simp [hzero]

/-! ### Hosts -/

/-- The host `a` has a connection with `b` at `addrB`, `b` has one with `a` at `addrA`, and what
`a` sends next is new to `b`. -/
def Reaches (a : Host C) (addrB : UdpAddr) (b : Host C) (addrA : UdpAddr) : Prop :=
  ∃ connA connB, a.established[addrB]? = some connA ∧ b.established[addrA]? = some connB ∧
    connA.transport.Ahead connB.transport

section

variable {a b : Host C} {addrA addrB : UdpAddr}

/-- Whatever the sending host does while its connection lives. -/
lemma Reaches.of_step_left (h : Reaches a addrB b addrA) {w : World} {l : HostLabel}
    {s' : Host C × World} (hstep : Host.Step (a, w) l s') (hconn : Connected addrB s') :
    Reaches s'.1 addrB b addrA := by
  obtain ⟨connA, connB, hA, hB, hkey, hahead⟩ := h
  obtain ⟨connA', hA'⟩ := hconn
  refine ⟨connA', connB, hA', hB, ?_⟩
  cases hstep.transport_of hA hA' with
  | seals _ henc =>
      obtain ⟨_, -, -, hlt, ht⟩ := TransportState.encrypt_eq_ok_iff.mp henc
      rw [ht]
      refine ⟨hkey, hahead.imp_left fun hmax => ?_⟩
      rw [UInt64.lt_iff_toNat_lt] at hmax ⊢
      rw [UInt64.toNat_add, UInt64.toNat_one, Nat.mod_eq_of_lt hlt]
      exact Nat.lt_succ_of_lt hmax
  | opens _ _ hdec =>
      obtain ⟨hsend, -, hnonce⟩ := decrypt_keys hdec
      exact ⟨hsend.trans hkey, hnonce ▸ hahead⟩
  | keeps _ _ hsame => exact hsame ▸ ⟨hkey, hahead⟩

/-- Whatever the receiving host does while its connection lives, if it hands nothing of the sender
over. -/
lemma Reaches.of_step_right (h : Reaches a addrB b addrA) {w : World} {l : HostLabel}
    {s' : Host C × World} (hstep : Host.Step (b, w) l s') (hconn : Connected addrA s')
    (hquiet : ∀ seed plaintext, l ≠ .recvOne seed (.datagramDelivered addrA plaintext)) :
    Reaches a addrB s'.1 addrA := by
  obtain ⟨connA, connB, hA, hB, hkey, hahead⟩ := h
  obtain ⟨connB', hB'⟩ := hconn
  refine ⟨connA, connB', hA, hB', ?_⟩
  cases hstep.transport_of hB hB' with
  | seals _ henc =>
      obtain ⟨_, -, -, -, ht⟩ := TransportState.encrypt_eq_ok_iff.mp henc
      rw [ht]
      exact ⟨hkey, hahead⟩
  | opens hl => exact absurd hl (hquiet _ _)
  | keeps _ _ hsame => exact hsame ▸ ⟨hkey, hahead⟩

/-- What was sent last can be read off the world. -/
lemma World.eq_of_afterSend {w : World} {addr : UdpAddr} {d d' : Bytes}
    (h : w.afterSend addr d = w.afterSend addr d') : d = d' := by
  have hsent := List.append_cancel_left (congrArg World.sent h)
  simpa using hsent

/-- Over a run of the sending host in which its connection lives. -/
lemma Reaches.of_run_left (h : Reaches a addrB b addrA) {w : World} {labels : List HostLabel}
    {s' : Host C × World}
    (hrun : Run (Run.within (Connected addrB) Host.Step) (a, w) labels s') :
    Reaches s'.1 addrB b addrA := by
  induction hrun with
  | nil => exact h
  | snoc _ hstep ih => exact ih.of_step_left hstep.1 hstep.2.2

/-- Over a run of the receiving host in which its connection lives and nothing of the sender is
handed over. -/
lemma Reaches.of_run_right (h : Reaches a addrB b addrA) {w : World} {labels : List HostLabel}
    {s' : Host C × World}
    (hrun : Run (Run.within (Connected addrA) Host.Step) (b, w) labels s')
    (hquiet : ∀ l ∈ labels, ∀ seed plaintext,
      l ≠ .recvOne seed (.datagramDelivered addrA plaintext)) :
    Reaches a addrB s'.1 addrA := by
  induction hrun with
  | nil => exact h
  | @snoc s s' labels l _ hstep ih =>
      have hbefore := ih fun l hl => hquiet l (List.mem_append_left _ hl)
      exact hbefore.of_step_right hstep.1 hstep.2.2 (hquiet l (by simp))

/-- The host after it handed a plaintext over. -/
def Host.delivered (host : Host C) (addr : UdpAddr) (conn : EstablishedConnection)
    (transport : TransportState) : Host C :=
  { host with
    established := host.established.insert addr
      { conn with transport := transport, lastActivity := host.tick + 1 }
    tick := host.tick + 1 }

/-- A datagram that a connection opens is handed over, and changes nothing but that connection. -/
lemma Host.recvOne_of_decrypt {host : Host C} {addr : UdpAddr} {conn : EstablishedConnection}
    {datagram plaintext : Bytes} {transport : TransportState} {w : World}
    (hconn : host.established[addr]? = some conn)
    (hdec : conn.transport.decrypt C datagram = (transport, .ok plaintext))
    (hrecv : w.recvFrom 0 = .ok (addr, datagram))
    (hfit : datagram.length ≤ host.socket.recvBufSize) (seed : Key) :
    (host.recvOne seed).run w = (.ok (host.delivered addr conn transport,
      .datagramDelivered addr plaintext), w.afterRecv addr datagram) := by
  have hknown : host.established.contains addr = true := by
    rw [ExtTreeMap.contains_eq_isSome_getElem?, hconn]
    rfl
  rw [recvOne_run_of_recvFrom host seed hrecv, List.take_of_length_le hfit, dispatchInbound,
    if_pos hknown, decryptEstablished, hconn, okOr_some]
  refine Io.map_run_eq_ok.mpr ⟨conn, rfl, ?_⟩
  simp only [hdec, Lru.insert_erase]
  rfl

/-- A send keeps whoever reaches the sender. -/
lemma Reaches.of_send_right {z : Host C} {addrZ addr : UdpAddr} (h : Reaches z addrZ a addr)
    {a' : Host C} {plaintext : Bytes} {w w' : World}
    (hsend : (a.send addrB plaintext).run w = (.ok a', w')) : Reaches z addrZ a' addr := by
  refine h.of_step_right (.send hsend) ?_ (by rintro _ _ ⟨⟩)
  obtain ⟨-, conn, -, hA, -⟩ := h
  obtain ⟨_, _, _, -, -, rfl, -⟩ := send_run_eq_ok hsend
  rw [Connected, ExtTreeMap.getElem?_insert]
  split
  · exact ⟨_, rfl⟩
  · exact ⟨conn, hA⟩

/-- A delivery keeps whoever the receiver reaches. -/
lemma Reaches.of_delivered {z : Host C} {addrZ addr : UdpAddr} (h : Reaches b addr z addrZ)
    {conn : EstablishedConnection} {u : TransportState} {datagram plaintext : Bytes}
    (hconn : b.established[addrA]? = some conn)
    (hdec : conn.transport.decrypt C datagram = (u, .ok plaintext)) :
    Reaches (b.delivered addrA conn u) addr z addrZ := by
  obtain ⟨connB, connZ, hB, hZ, hkey, hnonce⟩ := h
  by_cases haddr : compare addrA addr = .eq
  · obtain rfl := LawfulEqOrd.eq_of_compare haddr
    rw [hconn] at hB
    cases hB
    obtain ⟨hsame, -, hsame'⟩ := decrypt_keys hdec
    exact ⟨_, connZ, ExtTreeMap.getElem?_insert_self, hZ, hsame.trans hkey, hsame' ▸ hnonce⟩
  · refine ⟨connB, connZ, ?_, hZ, hkey, hnonce⟩
    rw [Host.delivered, ExtTreeMap.getElem?_insert, if_neg haddr, hB]

lemma Host.isEstablished_delivered {conn : EstablishedConnection}
    (hconn : b.established[addrA]? = some conn) (u : TransportState) (addr : UdpAddr) :
    (b.delivered addrA conn u).isEstablished addr = b.isEstablished addr := by
  rw [isEstablished, isEstablished, delivered, ExtTreeMap.contains_insert]
  by_cases haddr : compare addrA addr = .eq
  · obtain rfl := LawfulEqOrd.eq_of_compare haddr
    simp [ExtTreeMap.contains_eq_isSome_getElem?, hconn]
  · simp [haddr]

lemma Host.remotePeerIdOf_delivered {conn : EstablishedConnection}
    (hconn : b.established[addrA]? = some conn) (u : TransportState) (addr : UdpAddr) :
    (b.delivered addrA conn u).remotePeerIdOf addr = b.remotePeerIdOf addr := by
  rw [remotePeerIdOf, remotePeerIdOf, delivered, ExtTreeMap.getElem?_insert]
  by_cases haddr : compare addrA addr = .eq
  · obtain rfl := LawfulEqOrd.eq_of_compare haddr
    simp [hconn]
  · simp [haddr]

/-- What a host sends, the host it reaches hands over as it was, and stays in reach; whoever else is
in reach of either, or in whose reach either is, stays so. -/
lemma Reaches.of_send (hC : C.Agrees) (h : Reaches a addrB b addrA) {a' : Host C}
    {plaintext : Bytes} {w w' : World} (hsend : (a.send addrB plaintext).run w = (.ok a', w')) :
    ∃ datagram, w' = w.afterSend addrB datagram ∧
      ∃ b', (∀ seed v, v.recvFrom 0 = .ok (addrA, datagram) →
          datagram.length ≤ b.socket.recvBufSize →
          (b.recvOne seed).run v
            = (.ok (b', .datagramDelivered addrA plaintext), v.afterRecv addrA datagram)) ∧
        Reaches a' addrB b' addrA ∧
        (∀ z addr addrZ, Reaches b addr z addrZ → Reaches b' addr z addrZ) ∧
        (∀ addr, b'.isEstablished addr = b.isEstablished addr) ∧
        ∀ addr, b'.remotePeerIdOf addr = b.remotePeerIdOf addr := by
  obtain ⟨connA, connB, hA, hB, hahead⟩ := h
  obtain ⟨connA', transport, datagram, hA', henc, rfl, rfl⟩ := send_run_eq_ok hsend
  rw [hA] at hA'
  cases hA'
  obtain ⟨u', hdec, hahead'⟩ := hahead.decrypt_encrypt hC henc
  exact ⟨datagram, rfl, b.delivered addrA connB u',
    fun seed v hrecv hfit => Host.recvOne_of_decrypt hB hdec hrecv hfit seed,
    ⟨_, _, ExtTreeMap.getElem?_insert_self, ExtTreeMap.getElem?_insert_self, hahead'⟩,
    fun z addr addrZ h => h.of_delivered hB hdec, Host.isEstablished_delivered hB u',
    Host.remotePeerIdOf_delivered hB u'⟩

end

lemma connected_of_isEstablished {s : Host C × World} {addr : UdpAddr}
    (h : s.1.isEstablished addr = true) : Connected addr s := by
  rw [Host.isEstablished, ExtTreeMap.contains_eq_isSome_getElem?] at h
  exact Option.isSome_iff_exists.mp h

lemma connected_iff_mem {s : Host C × World} {addr : UdpAddr} :
    Connected addr s ↔ addr ∈ s.1.establishedAddrs := by
  rw [Connected, Host.establishedAddrs, ExtTreeMap.mem_keys, ExtTreeMap.mem_iff_isSome_getElem?,
    Option.isSome_iff_exists]

/-! ### Both directions -/

lemma subperm_filterMap {α β : Type} {l l' : List α} (f : α → Option β) (h : l.Subperm l') :
    (l.filterMap f).Subperm (l'.filterMap f) := by
  obtain ⟨m, hperm, hsub⟩ := h
  exact ⟨m.filterMap f, hperm.filterMap f, hsub.filterMap f⟩

lemma subperm_map {α β : Type} {l l' : List α} (f : α → β) (h : l.Subperm l') :
    (l.map f).Subperm (l'.map f) := by
  obtain ⟨m, hperm, hsub⟩ := h
  exact ⟨m.map f, hperm.map f, hsub.map f⟩

lemma nodup_of_subperm {α : Type} {l l' : List α} (h : l.Subperm l') (hnodup : l'.Nodup) :
    l.Nodup := by
  obtain ⟨m, hperm, hsub⟩ := h
  exact hperm.nodup_iff.mp (hnodup.sublist hsub)

variable (C) in
/-- The channel from a first host to a second, and the one back. -/
structure Duplex where
  there : Channel C
  back : Channel C

/-- An operation of one of the two hosts. -/
inductive DuplexLabel where
  | first (label : HostLabel)
  | second (label : HostLabel)

namespace DuplexLabel

/-- The operation as one of the channel to the second host. -/
def there : DuplexLabel → ChannelLabel
  | first label => .sender label
  | second label => .receiver label

def back : DuplexLabel → ChannelLabel
  | first label => .receiver label
  | second label => .sender label

/-- The operation, if it is the first host's. -/
def ofFirst : DuplexLabel → Option HostLabel
  | first label => some label
  | second _ => none

def ofSecond : DuplexLabel → Option HostLabel
  | first _ => none
  | second label => some label

end DuplexLabel

/-- The plaintext an operation sends to an address. -/
def HostLabel.sentTo (addr : UdpAddr) (label : HostLabel) : Option Bytes :=
  (ChannelLabel.sender label).sent addr

/-- The plaintext of an address an operation hands over. -/
def HostLabel.handedFrom (addr : UdpAddr) (label : HostLabel) : Option Bytes :=
  (ChannelLabel.receiver label).handed addr

/-- One operation of either host, as both channels see it; the first host is at `addrA`, the second
at `addrB`. -/
structure Duplex.Step (addrA addrB : UdpAddr) (d : Duplex C) (l : DuplexLabel) (d' : Duplex C) :
    Prop where
  there : Channel.Step addrA addrB d.there l.there d'.there
  back : Channel.Step addrB addrA d.back l.back d'.back
  first : d'.back.receiver = d'.there.sender
  second : d'.back.sender = d'.there.receiver

/-- Two hosts that have sent each other nothing yet. -/
def Duplex.start (a b : Host C × World) : Duplex C := ⟨⟨a, b, [], []⟩, ⟨b, a, [], []⟩⟩

/-- What a channel is told of the operations is what one of the hosts did. -/
lemma DuplexLabel.filterMap_map {side : DuplexLabel → ChannelLabel}
    {of : DuplexLabel → Option HostLabel} {f : ChannelLabel → Option Bytes}
    {g : HostLabel → Option Bytes} (h : ∀ l, f (side l) = (of l).bind g)
    (labels : List DuplexLabel) :
    (labels.map side).filterMap f = (labels.filterMap of).filterMap g := by
  rw [List.filterMap_map, List.filterMap_filterMap]
  exact congrArg (fun f => labels.filterMap f) (funext h)

/-- Over a run of two hosts whose connections with each other mirror, either is handed what the
other sent, each plaintext at most as often. -/
lemma Duplex.handed_subperm (hC : C.Agrees) {addrA addrB : UdpAddr} {a b : Host C × World}
    {connA connB : EstablishedConnection} (hA : a.1.established[addrB]? = some connA)
    (hB : b.1.established[addrA]? = some connB)
    (hmirror : connA.transport.Mirrored connB.transport) {labels : List DuplexLabel}
    {d : Duplex C} (hrun : Run (Duplex.Step addrA addrB) (Duplex.start a b) labels d) :
    ((labels.filterMap DuplexLabel.ofSecond).filterMap (HostLabel.handedFrom addrA)).Subperm
        ((labels.filterMap DuplexLabel.ofFirst).filterMap (HostLabel.sentTo addrB)) ∧
      ((labels.filterMap DuplexLabel.ofFirst).filterMap (HostLabel.handedFrom addrB)).Subperm
        ((labels.filterMap DuplexLabel.ofSecond).filterMap (HostLabel.sentTo addrA)) := by
  have hthere := Channel.handed_subperm hC hA hB hmirror
    (hrun.relabel Duplex.there DuplexLabel.there fun _ _ _ h => h.there)
  have hback := Channel.handed_subperm hC hB hA (TransportState.mirrored_symm hmirror)
    (hrun.relabel Duplex.back DuplexLabel.back fun _ _ _ h => h.back)
  have hhanded : ∀ addr, (labels.map DuplexLabel.there).filterMap (ChannelLabel.handed addr) =
      (labels.filterMap DuplexLabel.ofSecond).filterMap (HostLabel.handedFrom addr) := fun _ =>
    DuplexLabel.filterMap_map (by rintro (_ | _) <;> rfl) labels
  have hsent : ∀ addr, (labels.map DuplexLabel.there).filterMap (ChannelLabel.sent addr) =
      (labels.filterMap DuplexLabel.ofFirst).filterMap (HostLabel.sentTo addr) := fun _ =>
    DuplexLabel.filterMap_map (by rintro (_ | _) <;> rfl) labels
  have hhanded' : ∀ addr, (labels.map DuplexLabel.back).filterMap (ChannelLabel.handed addr) =
      (labels.filterMap DuplexLabel.ofFirst).filterMap (HostLabel.handedFrom addr) := fun _ =>
    DuplexLabel.filterMap_map (by rintro (_ | _) <;> rfl) labels
  have hsent' : ∀ addr, (labels.map DuplexLabel.back).filterMap (ChannelLabel.sent addr) =
      (labels.filterMap DuplexLabel.ofSecond).filterMap (HostLabel.sentTo addr) := fun _ =>
    DuplexLabel.filterMap_map (by rintro (_ | _) <;> rfl) labels
  rw [hhanded, hsent] at hthere
  rw [hhanded', hsent'] at hback
  exact ⟨hthere, hback⟩

end Libp2pCat
