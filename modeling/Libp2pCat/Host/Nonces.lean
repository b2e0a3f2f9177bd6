import Libp2pCat.Host.VerifiedPeers
import Libp2pCat.Noise.Delivery

/-!
No nonce of a host is used twice.

* `Host.Emits`: an operation together with the datagrams it sends.
* `Host.Step.handshake_of`: an entry of the handshake table after a step was there before, or the
  step is a dial or a validated message 1 of its address (`Creates`).
* `Host.Step.of_completes`: a completion takes the handshake out and leaves a connection with its
  send counter at zero; only the completion of a dialed handshake sends anything, message 3.
* `Host.Step.connection_of`: while a connection lives, `send` alone moves its send counter.
* `no_nonce_reused`: every handshake completes at most once and every dial sends message 3 at
  most once, the datagrams of a connection count 0, 1, 2, …, and an exhausted counter sends
  nothing.
-/

namespace Libp2pCat

open ByteString Effect Std Trace

variable {C : Crypto}

/-- An operation and the datagrams it sends. -/
def Host.Emits (s : Host C × World) (x : HostLabel × List (UdpAddr × Bytes))
    (s' : Host C × World) : Prop :=
  Host.Step s x.1 s' ∧ s'.2.sent = s.2.sent ++ x.2

/-- The operation completes a handshake with the address. -/
def HostLabel.Completes (addr : UdpAddr) (l : HostLabel) : Prop :=
  ∃ seed rs pid, l = .recvOne seed (.handshakeComplete addr rs pid)

/-- The operation puts a handshake with the address in flight: a dial, or the answer to
message 1 with a valid cookie. -/
def Creates (addr : UdpAddr) (s : Host C × World) (l : HostLabel) : Prop :=
  s.1.handshakes[addr]? = none ∧
    ((∃ seed, l = .dial addr seed) ∨
      ∃ seed datagram, l = .recvOne seed (.handshakeProgress addr) ∧
        s.2.recvFrom 0 = .ok (addr, datagram) ∧
        Cookie.Valid C s.1.identity.cookieSecret addr (datagram.take s.1.socket.recvBufSize))

/-- A handshake this host dialed is in flight with the address. -/
def Dialed (addr : UdpAddr) (host : Host C) : Prop :=
  ∃ afterE msg1 stamp, host.handshakes[addr]? = some ⟨.initiatorAwaitingResponse afterE msg1, stamp⟩

/-- Every operation only adds to what was sent. -/
lemma Host.Step.exists_emits {s s' : Host C × World} {l : HostLabel} (h : Host.Step s l s') :
    ∃ out, Host.Emits s (l, out) s' := by
  suffices ∃ out, s'.2.sent = s.2.sent ++ out from this.imp fun out hout => ⟨h, hout⟩
  cases h with
  | dial hrun =>
      obtain ⟨-, -, -, rfl⟩ := dial_run_eq_ok hrun
      exact ⟨_, rfl⟩
  | send hrun =>
      obtain ⟨_, _, _, -, -, -, rfl⟩ := send_run_eq_ok hrun
      exact ⟨_, rfl⟩
  | sendRaw hrun =>
      obtain ⟨-, rfl⟩ := sendRaw_run_eq_ok hrun
      exact ⟨_, rfl⟩
  | recvOne hrun =>
      obtain ⟨addr, datagram, reply, -, -, rfl⟩ := recvOne_run_eq_ok hrun
      cases reply with
      | none => exact ⟨[], (List.append_nil _).symm⟩
      | some b => exact ⟨_, rfl⟩
  | evict => exact ⟨[], (List.append_nil _).symm⟩
  | evictIdle => exact ⟨[], (List.append_nil _).symm⟩

/-! ### Handshakes -/

/-- The entries after one was put back are the old ones. -/
lemma Host.getElem?_of_restore {host : Host C} {addr a : UdpAddr} {entry e : InFlightHandshake C}
    (hentry : host.handshakes[addr]? = some entry) (h : (host.restore addr entry)[a]? = some e) :
    host.handshakes[a]? = some e := by
  by_cases ha : a = addr
  · subst ha
    rw [Host.getElem?_restore] at h
    rw [hentry, h]
  · have hold := Lru.getElem?_of_insertWithLru ha h
    exact ExtTreeMap.getElem?_of_erase hold

/-- Where the entries of the handshake table come from. -/
lemma Inbound.handshake_of {host host' : Host C} {addr a : UdpAddr} {datagram : Bytes}
    {seed : Key} {reply : Option Bytes} {event : HostEvent} {e : InFlightHandshake C}
    (h : Inbound host addr datagram seed reply host' event) (he : host'.handshakes[a]? = some e) :
    host.handshakes[a]? = some e ∨
      (a = addr ∧ host.handshakes[a]? = none ∧ event = .handshakeProgress a ∧
        Cookie.Valid C host.identity.cookieSecret a datagram ∧
        ∃ afterResp, e.state = .responderAwaitingFinalize afterResp) := by
  cases h with
  | challenged _ hentry _ => exact Or.inl (Host.getElem?_of_restore hentry he)
  | initiatorCompleted => exact Or.inl (ExtTreeMap.getElem?_of_erase he)
  | initiatorKept _ hentry _ _ => exact Or.inl (Host.getElem?_of_restore hentry he)
  | responderCompleted => exact Or.inl (ExtTreeMap.getElem?_of_erase he)
  | responderKept _ hentry _ => exact Or.inl (Host.getElem?_of_restore hentry he)
  | validatedMsg1 hest hnew hcookie hresp =>
      by_cases ha : a = addr
      · subst ha
        rw [insertHandshakeWithLru, Lru.getElem?_insertWithLru_self] at he
        cases he
        exact Or.inr ⟨rfl, hnew, rfl, hcookie, _, rfl⟩
      · exact Or.inl (Lru.getElem?_of_insertWithLru ha he)
  | _ => exact Or.inl he

/-- An entry after a step was there before, or the step created it. -/
lemma Host.Step.handshake_of {s s' : Host C × World} {l : HostLabel} {a : UdpAddr}
    {e : InFlightHandshake C} (h : Host.Step s l s') (he : s'.1.handshakes[a]? = some e) :
    s.1.handshakes[a]? = some e ∨ (Creates a s l ∧
      ((∃ seed, l = .dial a seed) ∨
        ∃ afterResp, e.state = .responderAwaitingFinalize afterResp)) := by
  cases h with
  | @dial _ _ _ _ addr seed hrun =>
      obtain ⟨hnew, -, rfl, -⟩ := dial_run_eq_ok hrun
      by_cases ha : a = addr
      · subst ha
        exact Or.inr ⟨⟨hnew, Or.inl ⟨seed, rfl⟩⟩, Or.inl ⟨seed, rfl⟩⟩
      · exact Or.inl (Lru.getElem?_of_insertWithLru ha he)
  | send hrun =>
      obtain ⟨_, _, _, -, -, rfl, -⟩ := send_run_eq_ok hrun
      exact Or.inl he
  | sendRaw hrun =>
      obtain ⟨rfl, -⟩ := sendRaw_run_eq_ok hrun
      exact Or.inl he
  | @recvOne _ _ _ _ seed event hrun =>
      obtain ⟨addr, datagram, reply, hnext, hin, -⟩ := recvOne_run_eq_ok hrun
      rcases hin.handshake_of he with hold | ⟨rfl, hnew, rfl, hcookie, hstate⟩
      · exact Or.inl hold
      · exact Or.inr ⟨⟨hnew, Or.inr ⟨seed, datagram, rfl, hnext, hcookie⟩⟩, Or.inr hstate⟩
  | evict host w addr =>
      simp only [Host.evict, ExtTreeMap.getElem?_erase] at he
      split at he
      · cases he
      · exact Or.inl he
  | evictIdle => exact Or.inl (Lru.getElem?_of_sweep he)

/-- A completion takes the handshake out of flight and leaves a connection that has sent
nothing; it sends something only if the handshake was dialed. -/
lemma Host.Emits.of_completes {s s' : Host C × World} {addr : UdpAddr}
    {x : HostLabel × List (UdpAddr × Bytes)} (h : Host.Emits s x s') (hx : x.1.Completes addr) :
    (∃ e, s.1.handshakes[addr]? = some e) ∧ s'.1.handshakes[addr]? = none ∧
      (∃ conn, s'.1.established[addr]? = some conn ∧ conn.transport.sendNonce = 0) ∧
      (x.2 ≠ [] → Dialed addr s.1) := by
  obtain ⟨l, out⟩ := x
  obtain ⟨hstep, hsent⟩ := h
  obtain ⟨seed, rs, pid, rfl⟩ := hx
  cases hstep with
  | recvOne hrun =>
      obtain ⟨a, datagram, reply, -, hin, hw⟩ := recvOne_run_eq_ok hrun
      cases hin with
      | initiatorCompleted hest hentry hchal hadv =>
          obtain ⟨afterResp, payload, -, -, hwrite⟩ := initiatorAdvance_eq_ok_iff.mp hadv
          obtain ⟨_, _, _, _, -, -, rfl, -, -⟩ := writeS_eq_ok_iff.mp hwrite
          exact ⟨⟨_, hentry⟩, ExtTreeMap.getElem?_erase_self,
            ⟨_, Lru.getElem?_insertWithLru_self, rfl⟩, fun _ => ⟨_, _, _, hentry⟩⟩
      | responderCompleted hest hentry hfin =>
          obtain ⟨payload, hread, -⟩ := responderFinalize_eq_ok_iff.mp hfin
          obtain ⟨_, _, _, _, -, -, -, -, -, rfl⟩ := readS_eq_ok_iff.mp hread
          refine ⟨⟨_, hentry⟩, ExtTreeMap.getElem?_erase_self,
            ⟨_, Lru.getElem?_insertWithLru_self, rfl⟩, fun hout => absurd ?_ hout⟩
          -- nothing is sent on reading message 3
          rw [hw] at hsent
          simpa [World.afterReply, World.afterRecv] using hsent

/-! ### Connections -/

/-- The datagrams that `send` sent to the address. -/
def transported (addr : UdpAddr) (l : List (HostLabel × List (UdpAddr × Bytes))) : List Bytes :=
  l.flatMap fun x =>
    match x.1 with
    | .send a _ => if a = addr then x.2.map Prod.snd else []
    | _ => []

/-- A datagram from anywhere leaves the send counter of a connection that lives on alone. -/
lemma Inbound.sendNonce_eq {host host' : Host C} {addr a : UdpAddr} {datagram : Bytes}
    {seed : Key} {reply : Option Bytes} {event : HostEvent} {c c' : EstablishedConnection}
    (h : Inbound host addr datagram seed reply host' event) (hc : host.established[a]? = some c)
    (hc' : host'.established[a]? = some c') : c'.transport.sendNonce = c.transport.sendNonce := by
  -- an entry that is an old one
  have hold : host.established[a]? = some c' → c'.transport.sendNonce = c.transport.sendNonce := by
    intro h
    rw [hc] at h
    cases h
    rfl
  -- a completion is one of an address without a connection
  have hcompleted : ∀ t rs pid, host.established[addr]? = none →
      (host.completed addr t rs pid).established[a]? = some c' →
      c'.transport.sendNonce = c.transport.sendNonce := by
    intro t rs pid hest h
    refine hold (Lru.getElem?_of_insertWithLru ?_ h)
    rintro rfl
    rw [hc] at hest
    cases hest
  cases h with
  | @delivered conn transport plaintext hconn hdec =>
      obtain ⟨nonce, hchk⟩ := TransportState.checked_of_decrypt (by rw [hdec])
      have ht := TransportState.decrypt_of_checked hchk
      rw [hdec] at ht
      cases ht
      rw [ExtTreeMap.getElem?_insert] at hc'
      split at hc'
      · rename_i heq
        cases hc'
        rw [LawfulEqOrd.eq_of_compare heq, hc] at hconn
        cases hconn
        rfl
      · exact hold hc'
  | initiatorCompleted hest => exact hcompleted _ _ _ hest hc'
  | responderCompleted hest => exact hcompleted _ _ _ hest hc'
  | _ => exact hold hc'

/-- While a connection lives, `send` moves its counter by one and sends the datagram with the
counter it found; nothing else touches the counter. -/
lemma Host.Emits.connection_of {s s' : Host C × World} {addr : UdpAddr}
    {x : HostLabel × List (UdpAddr × Bytes)} {c c' : EstablishedConnection}
    (h : Host.Emits s x s') (hc : s.1.established[addr]? = some c)
    (hc' : s'.1.established[addr]? = some c') :
    (∃ d, transported addr [x] = [d] ∧ nonceOf d = c.transport.sendNonce.toNat ∧
      c'.transport.sendNonce.toNat = c.transport.sendNonce.toNat + 1) ∨
    (transported addr [x] = [] ∧ c'.transport.sendNonce = c.transport.sendNonce) := by
  obtain ⟨l, out⟩ := x
  obtain ⟨hstep, hsent⟩ := h
  have hsame : s.1.established[addr]? = some c' →
      c'.transport.sendNonce = c.transport.sendNonce := by
    intro h
    rw [hc] at h
    cases h
    rfl
  cases hstep with
  | dial hrun =>
      obtain ⟨-, -, rfl, -⟩ := dial_run_eq_ok hrun
      exact Or.inr ⟨rfl, hsame hc'⟩
  | @send _ _ _ _ a plaintext hrun =>
      obtain ⟨conn, transport, datagram, hconn, henc, rfl, rfl⟩ := send_run_eq_ok hrun
      rw [ExtTreeMap.getElem?_insert] at hc'
      split at hc'
      · rename_i heq
        obtain rfl := LawfulEqOrd.eq_of_compare heq
        cases hc'
        rw [hc] at hconn
        cases hconn
        have hout : [(a, datagram)] = out := List.append_cancel_left hsent
        obtain ⟨ciphertext, -, rfl, hlt, rfl⟩ := TransportState.encrypt_eq_ok_iff.mp henc
        refine Or.inl ⟨beBytes 8 c.transport.sendNonce.toNat ++ ciphertext, ?_,
          nonceOf_append _ _, ?_⟩
        · simp [transported, ← hout]
        · simp only [UInt64.toNat_add, UInt64.toNat_one]
          exact Nat.mod_eq_of_lt hlt
      · rename_i hne
        have ha : a ≠ addr := by
          rintro rfl
          exact hne ReflCmp.compare_self
        exact Or.inr ⟨by simp [transported, ha], hsame hc'⟩
  | sendRaw hrun =>
      obtain ⟨rfl, -⟩ := sendRaw_run_eq_ok hrun
      exact Or.inr ⟨rfl, hsame hc'⟩
  | recvOne hrun =>
      obtain ⟨_, _, _, -, hin, -⟩ := recvOne_run_eq_ok hrun
      exact Or.inr ⟨rfl, hin.sendNonce_eq hc hc'⟩
  | evict host w a =>
      simp only [Host.evict, ExtTreeMap.getElem?_erase] at hc'
      split at hc'
      · cases hc'
      · exact Or.inr ⟨rfl, hsame hc'⟩
  | evictIdle => exact Or.inr ⟨rfl, hsame (Lru.getElem?_of_sweep hc')⟩

/-- The address has a connection. -/
def Connected (addr : UdpAddr) (s : Host C × World) : Prop :=
  ∃ conn, s.1.established[addr]? = some conn

/-- The datagrams of a connection that had sent nothing carry 0, 1, 2, …, and its counter is
their number. -/
lemma nonces_of_run {s s' : Host C × World} {addr : UdpAddr}
    {l : List (HostLabel × List (UdpAddr × Bytes))} {conn : EstablishedConnection}
    (hrun : Run (Run.within (Connected addr) Host.Emits) s l s')
    (hconn : s.1.established[addr]? = some conn) (hzero : conn.transport.sendNonce = 0) :
    ∃ conn', s'.1.established[addr]? = some conn' ∧
      conn'.transport.sendNonce.toNat = (transported addr l).length ∧
      (transported addr l).map nonceOf = List.range (transported addr l).length := by
  induction hrun with
  | nil => exact ⟨conn, hconn, by rw [hzero]; rfl, rfl⟩
  | @snoc t t' l x hrun hstep ih =>
      obtain ⟨c, hc, hcount, hnonces⟩ := ih
      obtain ⟨hemits, -, c', hc'⟩ := hstep
      have happend : transported addr (l ++ [x]) = transported addr l ++ transported addr [x] := by
        simp [transported]
      rw [happend]
      refine ⟨c', hc', ?_⟩
      rcases hemits.connection_of hc hc' with ⟨d, hd, hnonce, hsucc⟩ | ⟨hnone, hsame⟩
      · rw [hd, List.length_append, List.length_singleton, List.map_append, List.map_singleton,
          hnonces, hnonce, hsucc, hcount, List.range_succ]
        exact ⟨rfl, rfl⟩
      · rw [hnone, List.append_nil, hsame]
        exact ⟨hcount, hnonces⟩

/-- A send over a connection whose counter is exhausted fails and sends nothing. -/
lemma send_exhausted {host : Host C} {addr : UdpAddr} {conn : EstablishedConnection}
    (hconn : host.established[addr]? = some conn)
    (hmax : conn.transport.sendNonce.toNat = 2 ^ 64 - 1) (plaintext : Bytes) (w : World) :
    ∃ e, (host.send addr plaintext).run w = (.error e, w) := by
  have hprep : ∃ e, prepareSend host addr plaintext = .error e := by
    rw [prepareSend, hconn, okOr_some, Except.ok_bind]
    cases henc : conn.transport.encrypt C plaintext with
    | error e => exact ⟨e, rfl⟩
    | ok r =>
        obtain ⟨transport, datagram⟩ := r
        obtain ⟨_, -, -, hlt, -⟩ := TransportState.encrypt_eq_ok_iff.mp henc
        omega
  obtain ⟨e, he⟩ := hprep
  refine ⟨e, ?_⟩
  rw [Host.send, he]
  rfl

/-! ### Whole runs -/

/-- In every run of a host: between two completions of a handshake with an address a new one
was put in flight, by a dial if both sent message 3; over a connection, from its completion on
as long as it lives, the datagrams of `send` carry the nonces 0, 1, 2, … in order and none of
them is `u64::MAX`; and a send that would need that one fails and sends nothing. -/
theorem no_nonce_reused (addr : UdpAddr) {s₁ s₂ : Host C × World}
    {x : HostLabel × List (UdpAddr × Bytes)} (hx : Host.Emits s₁ x s₂)
    (hcomplete : x.1.Completes addr) :
    (∀ l s₃ y s₄, Run Host.Emits s₂ l s₃ → Host.Emits s₃ y s₄ → y.1.Completes addr →
      (∃ l₁ z l₂ t t', l = l₁ ++ z :: l₂ ∧ Run Host.Emits s₂ l₁ t ∧ Host.Emits t z t' ∧
        Creates addr t z.1 ∧ Run Host.Emits t' l₂ s₃) ∧
      (y.2 ≠ [] → ∃ l₁ seed out l₂, l = l₁ ++ (.dial addr seed, out) :: l₂)) ∧
    (∀ l s₃, Run (Run.within (Connected addr) Host.Emits) s₂ l s₃ →
      (transported addr l).map nonceOf = List.range (transported addr l).length ∧
        (transported addr l).length < 2 ^ 64 ∧
        ∀ conn, s₃.1.established[addr]? = some conn →
          conn.transport.sendNonce.toNat = 2 ^ 64 - 1 → ∀ plaintext w,
          ∃ e, (s₃.1.send addr plaintext).run w = (.error e, w)) := by
  obtain ⟨-, hgone, ⟨conn, hconn, hzero⟩, -⟩ := hx.of_completes hcomplete
  refine ⟨fun l s₃ y s₄ hrun hy hagain => ?_, fun l s₃ hrun => ?_⟩
  · obtain ⟨hflight, -, -, hdialed⟩ := hy.of_completes hagain
    refine ⟨?_, fun hsent => ?_⟩
    · -- the step that put the second handshake in flight
      obtain ⟨l₁, z, l₂, t, t', rfl, hrun₁, hbefore, hz, ⟨e, he⟩, hsince⟩ :=
        hrun.exists_last_entry (P := fun s => ∃ e, s.1.handshakes[addr]? = some e)
          (by rw [hgone]; rintro ⟨e, he⟩; cases he) hflight
      refine ⟨l₁, z, l₂, t, t', rfl, hrun₁, hz, ?_, hsince.mono fun _ _ _ h => h.1⟩
      rcases hz.1.handshake_of he with hold | ⟨hcreates, -⟩
      · exact absurd ⟨e, hold⟩ hbefore
      · exact hcreates
    · -- the step since which the second handshake is a dialed one
      obtain ⟨l₁, z, l₂, t, t', rfl, -, hbefore, hz, ⟨afterE, msg1, stamp, he⟩, -⟩ :=
        hrun.exists_last_entry (P := fun s => Dialed addr s.1)
          (by rintro ⟨_, _, _, he⟩; rw [hgone] at he; cases he) (hdialed hsent)
      obtain ⟨label, out⟩ := z
      rcases hz.1.handshake_of he with hold | ⟨-, ⟨seed, hlabel⟩ | ⟨afterResp, hstate⟩⟩
      · exact absurd ⟨afterE, msg1, stamp, hold⟩ hbefore
      · simp only at hlabel
        exact ⟨l₁, seed, out, l₂, by rw [hlabel]⟩
      · cases hstate
  · obtain ⟨conn', hconn', hcount, hnonces⟩ := nonces_of_run hrun hconn hzero
    refine ⟨hnonces, ?_, fun c hc hmax plaintext w => send_exhausted hc hmax plaintext w⟩
    rw [← hcount]
    exact conn'.transport.sendNonce.toNat_lt

/-- The sample host after its handshake, and whether it could send a byte to its peer. -/
def sampleSend : Option (HostEvent × Bool) :=
  (Host.recvOutcome (sampleHost 2, sampleWorld) (.replicate 32 4)).bind fun r₁ =>
    (Host.recvOutcome r₁.2 (.replicate 32 5)).map fun r₂ =>
      (r₂.1, match (r₂.2.1.send sampleAddr [42]).run r₂.2.2 with
        | (.ok _, _) => true
        | (.error _, _) => false)

/-- The sample host completes a handshake and sends one byte: under nonce 0. -/
theorem no_nonce_reused_sample :
    ∃ (s₁ s₂ s₃ : Host sampleCrypto × World) (x : HostLabel × List (UdpAddr × Bytes))
      (l : List (HostLabel × List (UdpAddr × Bytes))),
      Host.Emits s₁ x s₂ ∧ x.1.Completes sampleAddr ∧
      Run (Run.within (Connected sampleAddr) Host.Emits) s₂ l s₃ ∧
      (transported sampleAddr l).map nonceOf = [0] := by
  have hsample : sampleSend = some (.handshakeComplete sampleAddr (.replicate 32 1)
      (.fromEd25519 (.replicate 32 1)), true) := by decide +kernel
  obtain ⟨⟨_, s₁⟩, h₁, hsample⟩ := Option.bind_eq_some_iff.mp hsample
  obtain ⟨⟨event, s₂⟩, h₂, hsample⟩ := Option.map_eq_some_iff.mp hsample
  obtain ⟨rfl, hsend⟩ := Prod.mk.inj hsample
  obtain ⟨out, hemits⟩ := (Host.step_of_recvOutcome h₂).exists_emits
  have hcompletes : HostLabel.Completes sampleAddr (.recvOne (.replicate 32 5)
      (.handshakeComplete sampleAddr (.replicate 32 1) (.fromEd25519 (.replicate 32 1)))) :=
    ⟨_, _, _, rfl⟩
  split at hsend
  · rename_i host' w' hrun
    obtain ⟨conn, transport, datagram, hconn, -, rfl, rfl⟩ := send_run_eq_ok hrun
    have hstep : Run (Run.within (Connected sampleAddr) Host.Emits) s₂
        [(.send sampleAddr [42], [(sampleAddr, datagram)])] (_, s₂.2.afterSend sampleAddr datagram) :=
      Run.single ⟨⟨.send hrun, rfl⟩, ⟨conn, hconn⟩, ⟨_, ExtTreeMap.getElem?_insert_self⟩⟩
    obtain ⟨hnonces, -⟩ := (no_nonce_reused sampleAddr hemits hcompletes).2 _ _ hstep
    exact ⟨s₁, s₂, _, _, _, hemits, hcompletes, hstep, hnonces⟩
  · cases hsend

end Libp2pCat
