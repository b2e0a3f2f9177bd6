import Libp2pCat.Host.VerifiedPeers

/-!
A source that has not echoed a cookie gets no state and no amplification.

* `Inbound.frame`: a datagram of one address changes no entry of another, it can only drive
  an old one out.
* `Inbound.unvalidated`: a datagram of an unknown address without a valid cookie leaves both
  tables alone and is answered, if at all, with a shorter challenge.
* `Gated`: what holds of an address the host never targets and that never echoed a cookie;
  `Host.Step.gated` keeps it.
* `cookie_gate`: the gate over whole runs of a host.
-/

namespace Libp2pCat

open ByteString Effect Std Trace

variable {C : Crypto} {host host' : Host C} {addr a x : UdpAddr} {datagram : Bytes} {seed : Key}
  {reply : Option Bytes} {event : HostEvent} {secret : Key}

/-! ### One datagram -/

/-- Putting a handshake back touches no other address. -/
lemma handshakes_of_restore {entry e : InFlightHandshake C} (hne : a ≠ addr)
    (h : (host.restore addr entry)[a]? = some e) : host.handshakes[a]? = some e := by
  have hold := Lru.getElem?_of_insertWithLru hne h
  exact ExtTreeMap.getElem?_of_erase hold

/-- Every entry of another address after the datagram was there before it. -/
lemma Inbound.frame (h : Inbound host addr datagram seed reply host' event) (hne : a ≠ addr) :
    (∀ e, host'.handshakes[a]? = some e → host.handshakes[a]? = some e) ∧
      ∀ c, host'.established[a]? = some c → host.established[a]? = some c := by
  have herase : ∀ e, (host.handshakes.erase addr)[a]? = some e → host.handshakes[a]? = some e :=
    fun e he => ExtTreeMap.getElem?_of_erase he
  cases h with
  | delivered hconn hdec =>
      refine ⟨fun e he => he, fun c hc => ?_⟩
      rw [ExtTreeMap.getElem?_insert] at hc
      split at hc
      · rename_i heq
        exact absurd (LawfulEqOrd.eq_of_compare heq).symm hne
      · exact hc
  | initiatorCompleted => exact ⟨herase, fun c hc => Lru.getElem?_of_insertWithLru hne hc⟩
  | responderCompleted => exact ⟨herase, fun c hc => Lru.getElem?_of_insertWithLru hne hc⟩
  | challenged => exact ⟨fun e he => handshakes_of_restore hne he, fun c hc => hc⟩
  | initiatorKept => exact ⟨fun e he => handshakes_of_restore hne he, fun c hc => hc⟩
  | responderKept => exact ⟨fun e he => handshakes_of_restore hne he, fun c hc => hc⟩
  | validatedMsg1 => exact ⟨fun e he => Lru.getElem?_of_insertWithLru hne he, fun c hc => hc⟩
  | undecryptable => exact ⟨fun e he => he, fun c hc => hc⟩
  | bareMsg1 => exact ⟨fun e he => he, fun c hc => hc⟩
  | unanswerable => exact ⟨fun e he => he, fun c hc => hc⟩
  | refused => exact ⟨fun e he => he, fun c hc => hc⟩

/-- A datagram of an unknown address without a valid cookie only moves the clock; the one
answer it can get is a challenge shorter than itself. -/
lemma Inbound.unvalidated (h : Inbound host addr datagram seed reply host' event)
    (hest : host.established[addr]? = none) (hnew : host.handshakes[addr]? = none)
    (hcookie : ¬ Cookie.Valid C host.identity.cookieSecret addr datagram) :
    host' = { host with tick := host.tick + 1 } ∧
      ∀ b ∈ reply, b = Cookie.challenge C host.identity.cookieSecret addr datagram ∧
        b.length ≤ datagram.length := by
  cases h with
  | bareMsg1 _ _ hlen =>
      refine ⟨rfl, fun b hb => ?_⟩
      obtain rfl := Option.mem_some_iff.mp hb
      refine ⟨rfl, ?_⟩
      rw [Cookie.length_challenge, hlen]
      decide
  | refused => exact ⟨rfl, fun b hb => absurd hb (by simp)⟩
  | validatedMsg1 _ _ hvalid => exact absurd hvalid hcookie
  | unanswerable _ _ hvalid => exact absurd hvalid hcookie
  | delivered hconn => rw [hest] at hconn; cases hconn
  | undecryptable hconn => rw [hest] at hconn; cases hconn
  | challenged _ hentry => rw [hnew] at hentry; cases hentry
  | initiatorCompleted _ hentry => rw [hnew] at hentry; cases hentry
  | initiatorKept _ hentry => rw [hnew] at hentry; cases hentry
  | responderCompleted _ hentry => rw [hnew] at hentry; cases hentry
  | responderKept _ hentry => rw [hnew] at hentry; cases hentry

/-- Nor does it use the ephemeral seed. -/
lemma dispatchInbound_seed (seed' : Key) (hest : host.established[addr]? = none)
    (hnew : host.handshakes[addr]? = none)
    (hcookie : ¬ Cookie.Valid C host.identity.cookieSecret addr datagram) :
    dispatchInbound host addr datagram seed = dispatchInbound host addr datagram seed' := by
  have hest' : host.established.contains addr = false := by
    rw [ExtTreeMap.contains_eq_isSome_getElem?, hest]
    rfl
  have hnew' : host.handshakes.contains addr = false := by
    rw [ExtTreeMap.contains_eq_isSome_getElem?, hnew]
    rfl
  simp only [dispatchInbound, hest', hnew', Bool.false_eq_true, if_false, tryResponderMsg1]
  by_cases hlen : datagram.length = Cookie.MSG1_WITH_COOKIE_LEN
  · have hle : MESSAGE_1_LEN ≤ datagram.length := by
      rw [hlen]
      exact Nat.le_add_right _ _
    have hver : ¬ Cookie.verify C host.identity.cookieSecret addr (datagram.take MESSAGE_1_LEN)
        (datagram.drop MESSAGE_1_LEN) = true := fun h =>
      hcookie ⟨hlen, (Cookie.verify_eq_true_iff C).mp h⟩
    simp only [sliceTo_of_le hle, sliceFrom_of_le hle, Option.getD_some, if_neg hver]
  · simp only [if_neg hlen]

/-! ### Traffic volume -/

/-- The bytes a log holds for one address. -/
def volume (x : UdpAddr) (log : List (UdpAddr × Bytes)) : ℕ :=
  ((log.filter fun p => decide (p.1 = x)).map fun p => p.2.length).sum

lemma volume_snoc_self (x : UdpAddr) (log : List (UdpAddr × Bytes)) (d : Bytes) :
    volume x (log ++ [(x, d)]) = volume x log + d.length := by
  simp [volume]

lemma volume_snoc_of_ne {x a : UdpAddr} (h : a ≠ x) (log : List (UdpAddr × Bytes)) (d : Bytes) :
    volume x (log ++ [(a, d)]) = volume x log := by
  simp [volume, h]

/-! ### The gate -/

/-- The operations the local caller aims at an address. -/
def HostLabel.Targets (x : UdpAddr) : HostLabel → Prop
  | .dial addr _ => addr = x
  | .sendRaw addr _ => addr = x
  | _ => False

/-- What holds of an address without a validated cookie. -/
structure Gated (secret : Key) (x : UdpAddr) (s : Host C × World) : Prop where
  cookieSecret : s.1.identity.cookieSecret = secret
  handshakes : s.1.handshakes[x]? = none
  established : s.1.established[x]? = none
  challenges : ∀ d, (x, d) ∈ s.2.sent → ∃ e, d = Cookie.challenge C secret x e
  volume_le : volume x s.2.sent ≤ volume x s.2.received

lemma none_of_forall {α : Type} {o o' : Option α} (h : ∀ v, o' = some v → o = some v)
    (ho : o = none) : o' = none := by
  cases ho' : o' with
  | none => rfl
  | some v => exact absurd (h v ho') (by rw [ho]; simp)

/-- Sending to another address keeps the gate. -/
lemma Gated.afterSend {s : Host C × World} (h : Gated secret x s) (host' : Host C)
    (hsecret : host'.identity.cookieSecret = secret) (hh : host'.handshakes[x]? = none)
    (he : host'.established[x]? = none) (hne : a ≠ x) (d : Bytes) :
    Gated secret x (host', s.2.afterSend a d) where
  cookieSecret := hsecret
  handshakes := hh
  established := he
  challenges := fun d' hd' => by
    rcases List.mem_append.mp hd' with hd' | hd'
    · exact h.challenges d' hd'
    · exact absurd (Prod.ext_iff.mp (List.mem_singleton.mp hd')).1.symm hne
  volume_le := by
    show volume x (s.2.sent ++ [(a, d)]) ≤ volume x s.2.received
    rw [volume_snoc_of_ne hne]
    exact h.volume_le

/-- A datagram of any address keeps the gate, unless it carries a valid cookie of `x`. -/
lemma Gated.inbound {w : World} (h : Gated secret x (host, w))
    (hin : Inbound host addr datagram seed reply host' event)
    (hcookie : addr = x → ¬ Cookie.Valid C secret x datagram) :
    Gated secret x (host', (w.afterRecv addr datagram).afterReply addr reply) := by
  have hsecret : host'.identity.cookieSecret = secret := by
    rw [hin.constants.1]
    exact h.cookieSecret
  by_cases hx : addr = x
  · subst hx
    obtain ⟨rfl, hreply⟩ := hin.unvalidated h.established h.handshakes
      (h.cookieSecret ▸ hcookie rfl)
    cases reply with
    | none =>
        refine ⟨hsecret, h.handshakes, h.established, h.challenges, ?_⟩
        show volume addr w.sent ≤ volume addr (w.received ++ [(addr, datagram)])
        rw [volume_snoc_self]
        exact Nat.le_trans h.volume_le (Nat.le_add_right _ _)
    | some b =>
        obtain ⟨hb, hlen⟩ := hreply b rfl
        refine ⟨hsecret, h.handshakes, h.established, fun d hd => ?_, ?_⟩
        · rcases List.mem_append.mp hd with hd | hd
          · exact h.challenges d hd
          · cases List.mem_singleton.mp hd
            exact ⟨datagram, by rw [hb, ← h.cookieSecret]⟩
        · show volume addr (w.sent ++ [(addr, b)]) ≤ volume addr (w.received ++ [(addr, datagram)])
          rw [volume_snoc_self, volume_snoc_self]
          exact Nat.add_le_add h.volume_le hlen
  · obtain ⟨hframeH, hframeE⟩ := hin.frame (a := x) (fun heq => hx heq.symm)
    have hrecv : Gated secret x (host', w.afterRecv addr datagram) := by
      refine ⟨hsecret, none_of_forall hframeH h.handshakes, none_of_forall hframeE h.established,
        h.challenges, ?_⟩
      show volume x w.sent ≤ volume x (w.received ++ [(addr, datagram)])
      rw [volume_snoc_of_ne hx]
      exact h.volume_le
    cases reply with
    | none => exact hrecv
    | some b => exact hrecv.afterSend host' hsecret hrecv.handshakes hrecv.established hx b

/-- Every step keeps the gate, as long as it is not aimed at `x` and brings no valid cookie
of `x`. -/
lemma Host.Step.gated {s s' : Host C × World} {l : HostLabel} (h : Host.Step s l s')
    (hs : Gated secret x s) (hl : ¬ l.Targets x)
    (hcookie : ∀ d, (x, d) ∈ s'.2.received → ¬ Cookie.Valid C secret x d) : Gated secret x s' := by
  have hsecret : s'.1.identity.cookieSecret = secret := by
    rw [h.constants.1]
    exact hs.cookieSecret
  cases h with
  | @dial _ _ _ _ addr _ h =>
      obtain ⟨-, -, rfl, rfl⟩ := dial_run_eq_ok h
      have hne : addr ≠ x := hl
      exact hs.afterSend _ hsecret (none_of_forall
        (fun v hv => Lru.getElem?_of_insertWithLru hne.symm hv) hs.handshakes) hs.established hne _
  | @send _ _ _ _ addr _ h =>
      obtain ⟨conn, t, d, hconn, -, rfl, rfl⟩ := send_run_eq_ok h
      have hne : addr ≠ x := by
        rintro rfl
        have hnone := hs.established
        rw [hconn] at hnone
        cases hnone
      refine hs.afterSend _ hsecret hs.handshakes ?_ hne _
      rw [ExtTreeMap.getElem?_insert, if_neg (fun heq => hne (LawfulEqOrd.eq_of_compare heq))]
      exact hs.established
  | sendRaw h =>
      obtain ⟨rfl, rfl⟩ := sendRaw_run_eq_ok h
      exact hs.afterSend _ hsecret hs.handshakes hs.established hl _
  | recvOne h =>
      obtain ⟨addr, datagram, reply, -, hin, rfl⟩ := recvOne_run_eq_ok h
      refine hs.inbound hin fun hx => hcookie _ ?_
      subst hx
      cases reply <;> simp [World.afterReply, World.afterSend, World.afterRecv]
  | evict host w addr =>
      refine ⟨hsecret, ?_, ?_, hs.challenges, hs.volume_le⟩
      · simp only [Host.evict, ExtTreeMap.getElem?_erase]
        split
        · rfl
        · exact hs.handshakes
      · simp only [Host.evict, ExtTreeMap.getElem?_erase]
        split
        · rfl
        · exact hs.established
  | evictIdle =>
      exact ⟨hsecret, none_of_forall (fun v hv => Lru.getElem?_of_sweep hv) hs.handshakes,
        none_of_forall (fun v hv => Lru.getElem?_of_sweep hv) hs.established, hs.challenges,
        hs.volume_le⟩

/-- What was received stays received. -/
lemma Host.Step.received_mono {s s' : Host C × World} {l : HostLabel} (h : Host.Step s l s')
    {p : UdpAddr × Bytes} (hp : p ∈ s.2.received) : p ∈ s'.2.received := by
  cases h with
  | dial h =>
      obtain ⟨-, -, -, rfl⟩ := dial_run_eq_ok h
      exact hp
  | send h =>
      obtain ⟨_, _, _, -, -, -, rfl⟩ := send_run_eq_ok h
      exact hp
  | sendRaw h =>
      obtain ⟨-, rfl⟩ := sendRaw_run_eq_ok h
      exact hp
  | recvOne h =>
      obtain ⟨_, _, reply, -, -, rfl⟩ := recvOne_run_eq_ok h
      cases reply with
      | none => exact List.mem_append_left _ hp
      | some b => exact List.mem_append_left _ hp
  | evict => exact hp
  | evictIdle => exact hp

/-- The gate holds along every run. -/
lemma run_gated {s₀ s : Host C × World} {labels : List HostLabel}
    (hrun : Run Host.Step s₀ labels s) (h₀ : Gated secret x s₀)
    (hl : ∀ l ∈ labels, ¬ l.Targets x)
    (hcookie : ∀ d, (x, d) ∈ s.2.received → ¬ Cookie.Valid C secret x d) : Gated secret x s := by
  induction hrun with
  | nil => exact h₀
  | snoc _ hstep ih =>
      refine hstep.gated (ih (fun l hmem => hl l (List.mem_append_left _ hmem))
        fun d hd => hcookie d (hstep.received_mono hd)) (hl _ (by simp)) hcookie

/-- In every run of a host, an address that the caller never targets and that never sent a
message 1 with a valid cookie has no entry, was sent nothing but challenges, and these hold
no more bytes than it sent; and its next datagram, if it has no valid cookie either, changes
no entry of any address and uses no seed. -/
theorem cookie_gate {socket : UdpTransport} {kp : StaticKeypair C} {identity : Ed25519Keypair C}
    {secret : Key} {cap : Capacity} {host₀ : Host C} {w₀ : World} {labels : List HostLabel}
    {s : Host C × World} {x : UdpAddr}
    (hnew : Host.withCapacity socket kp identity secret cap = .ok host₀)
    (hsent : w₀.sent = []) (hreceived : w₀.received = [])
    (hrun : Run Host.Step (host₀, w₀) labels s) (htarget : ∀ l ∈ labels, ¬ l.Targets x)
    (hcookie : ∀ d, (x, d) ∈ s.2.received → ¬ Cookie.Valid C secret x d) :
    s.1.handshakes[x]? = none ∧ s.1.established[x]? = none ∧
      (∀ d, (x, d) ∈ s.2.sent → ∃ e, d = Cookie.challenge C secret x e) ∧
      volume x s.2.sent ≤ volume x s.2.received ∧
      ∀ seed event s', Host.Step s (.recvOne seed event) s' → ∀ d, s.2.recvFrom 0 = .ok (x, d) →
        ¬ Cookie.Valid C secret x (d.take s.1.socket.recvBufSize) →
        s'.1.handshakes = s.1.handshakes ∧ s'.1.established = s.1.established ∧
          ∀ seed', (s.1.recvOne seed').run s.2 = (s.1.recvOne seed).run s.2 := by
  have h₀ : Gated secret x (host₀, w₀) := by
    obtain ⟨hh, he, -, -, hsecret⟩ := Host.withCapacity_eq_ok hnew
    exact ⟨hsecret, by simp [hh], by simp [he], by simp [hsent],
      by simp [hsent, hreceived, volume]⟩
  have hs : Gated secret x s := run_gated hrun h₀ htarget hcookie
  refine ⟨hs.handshakes, hs.established, hs.challenges, hs.volume_le, ?_⟩
  intro seed event s' hstep d hnext hvalid
  rw [← hs.cookieSecret] at hvalid
  cases hstep with
  | recvOne h =>
      obtain ⟨addr, d', reply, hnext', hin, -⟩ := recvOne_run_eq_ok h
      rw [hnext] at hnext'
      cases hnext'
      obtain ⟨rfl, -⟩ := hin.unvalidated hs.established hs.handshakes hvalid
      refine ⟨rfl, rfl, fun seed' => ?_⟩
      rw [recvOne_run_of_recvFrom _ _ hnext, recvOne_run_of_recvFrom _ _ hnext,
        dispatchInbound_seed seed hs.established hs.handshakes hvalid]

/-- A world in which the sample peer keeps sending a bare message 1. -/
def bareWorld : World where
  recvFrom _ := .ok (sampleAddr, List.replicate 32 3)
  sendTo _ := .ok ()
  sent := []
  received := []

/-- The sample host answers a bare message 1 with 17 bytes for 32 and keeps no state. -/
theorem cookie_gate_sample :
    ∃ s : Host sampleCrypto × World, Run Host.Step (sampleHost 2, bareWorld)
        [.recvOne (.replicate 32 4) (.handshakeProgress sampleAddr)] s ∧
      s.2.received = [(sampleAddr, List.replicate 32 3)] ∧ s.2.sent.length = 1 ∧
      s.1.handshakes[sampleAddr]? = none ∧ s.1.established[sampleAddr]? = none ∧
      volume sampleAddr s.2.sent ≤ volume sampleAddr s.2.received := by
  have hrecv : (Host.recvOutcome (sampleHost 2, bareWorld) (.replicate 32 4)).map
      (fun r => (r.1, r.2.2.received, r.2.2.sent.length))
        = some (.handshakeProgress sampleAddr, [(sampleAddr, List.replicate 32 3)], 1) := by
    decide +kernel
  obtain ⟨⟨ev, s⟩, h₁, hev⟩ := Option.map_eq_some_iff.mp hrecv
  simp only [Prod.mk.injEq] at hev
  obtain ⟨rfl, hreceived, hsent⟩ := hev
  have hrun := Run.single (Host.step_of_recvOutcome h₁)
  have hcookie : ∀ d, (sampleAddr, d) ∈ s.2.received →
      ¬ Cookie.Valid sampleCrypto (.replicate 32 2) sampleAddr d := by
    intro d hd hvalid
    rw [hreceived, List.mem_singleton] at hd
    cases hd
    exact absurd hvalid.1 (by decide)
  obtain ⟨hh, he, -, hvol, -⟩ := cookie_gate (sampleHost_eq 2) rfl rfl hrun
    (by simp [HostLabel.Targets]) hcookie
  exact ⟨s, hrun, hreceived, hsent, hh, he, hvol⟩

end Libp2pCat
