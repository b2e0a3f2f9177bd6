import Libp2pCat.Host.Nonces
import Libp2pCat.Host.Dialing
import Libp2pCat.Host.Outcomes

/-!
What two connected hosts hand to each other, whatever else they do.

* `Host.upcoming`: the datagram a host is about to be handed.
* `Host.Step.transport_of`: what an operation does to the transport of a connection that lives on.
* `Channel`: a sending host, a receiving host and the history of their connection; `Channel.Step`:
  one operation of either, where the AEAD accepts nothing from the sender's address but what the
  sender made.
* `Channel.Sound`: the two transports with their history are a good link, whose history is what the
  operations say.
* `channel_exactly_once`: the plaintexts handed over are among those sent, each at most once, and
  what was sent and not yet handed over still is.
-/

namespace Libp2pCat

open ByteString Effect Std Trace

variable {C : Crypto}

/-! ### One connection over one operation -/

/-- The datagram a host is about to be handed, as its buffer cuts it. -/
def Host.upcoming (s : Host C × World) : Option (UdpAddr × Bytes) :=
  (s.2.recvFrom 0).toOption.map fun r => (r.1, r.2.take s.1.socket.recvBufSize)

/-- What an operation does to the transport of a connection. -/
inductive TransportChange (addr : UdpAddr) (s : Host C × World) (l : HostLabel)
    (s' : Host C × World) (t t' : TransportState) : Prop where
  /-- It seals a plaintext of the peer. -/
  | seals {plaintext datagram : Bytes} (hl : l = .send addr plaintext)
      (henc : t.encrypt C plaintext = .ok (t', datagram))
      (hsent : s'.2.sent = s.2.sent ++ [(addr, datagram)])
  /-- It opens a datagram of the peer. -/
  | opens {seed : Key} {plaintext datagram : Bytes}
      (hl : l = .recvOne seed (.datagramDelivered addr plaintext))
      (hnext : Host.upcoming s = some (addr, datagram))
      (hdec : t.decrypt C datagram = (t', .ok plaintext))
  /-- It is about something else. -/
  | keeps (hsend : ∀ plaintext, l ≠ .send addr plaintext)
      (hrecv : ∀ seed plaintext, l ≠ .recvOne seed (.datagramDelivered addr plaintext))
      (hsame : t' = t)

/-- A datagram from anywhere opens the connection of its source, or leaves the transport of a
connection that lives on alone. -/
lemma Inbound.transport_of {host host' : Host C} {addr a : UdpAddr} {datagram : Bytes} {seed : Key}
    {reply : Option Bytes} {event : HostEvent} {c c' : EstablishedConnection}
    (h : Inbound host addr datagram seed reply host' event) (hc : host.established[a]? = some c)
    (hc' : host'.established[a]? = some c') :
    (addr = a ∧ ∃ plaintext, event = .datagramDelivered a plaintext ∧
      c.transport.decrypt C datagram = (c'.transport, .ok plaintext)) ∨
    ((∀ plaintext, event ≠ .datagramDelivered a plaintext) ∧ c'.transport = c.transport) := by
  have hold : host.established[a]? = some c' → c'.transport = c.transport := by
    intro h
    rw [hc] at h
    cases h
    rfl
  -- a completion is one of an address without a connection
  have hcompleted : ∀ t rs pid, host.established[addr]? = none →
      (host.completed addr t rs pid).established[a]? = some c' → c'.transport = c.transport := by
    intro t rs pid hest h
    refine hold (Lru.getElem?_of_insertWithLru ?_ h)
    rintro rfl
    rw [hc] at hest
    cases hest
  cases h with
  | @delivered conn transport plaintext hconn hdec =>
      rw [ExtTreeMap.getElem?_insert] at hc'
      split at hc'
      · rename_i heq
        obtain rfl := LawfulEqOrd.eq_of_compare heq
        cases hc'
        rw [hc] at hconn
        cases hconn
        exact Or.inl ⟨rfl, plaintext, rfl, hdec⟩
      · rename_i hne
        refine Or.inr ⟨fun p hp => hne ?_, hold hc'⟩
        cases hp
        exact ReflCmp.compare_self
  | initiatorCompleted hest => exact Or.inr ⟨by simp, hcompleted _ _ _ hest hc'⟩
  | responderCompleted hest => exact Or.inr ⟨by simp, hcompleted _ _ _ hest hc'⟩
  | _ => exact Or.inr ⟨by simp, hold hc'⟩

/-- While a connection lives, its transport moves by sends to the peer and by what is opened of the
peer, and by nothing else. -/
lemma Host.Step.transport_of {s s' : Host C × World} {l : HostLabel} {addr : UdpAddr}
    {c c' : EstablishedConnection} (h : Host.Step s l s') (hc : s.1.established[addr]? = some c)
    (hc' : s'.1.established[addr]? = some c') :
    TransportChange addr s l s' c.transport c'.transport := by
  have hold : s.1.established[addr]? = some c' → c'.transport = c.transport := by
    intro h
    rw [hc] at h
    cases h
    rfl
  cases h with
  | dial hrun =>
      obtain ⟨-, -, rfl, -⟩ := dial_run_eq_ok hrun
      exact .keeps (by simp) (by simp) (hold hc')
  | @send _ _ _ _ a plaintext hrun =>
      obtain ⟨conn, transport, datagram, hconn, henc, rfl, rfl⟩ := send_run_eq_ok hrun
      rw [ExtTreeMap.getElem?_insert] at hc'
      split at hc'
      · rename_i heq
        obtain rfl := LawfulEqOrd.eq_of_compare heq
        cases hc'
        rw [hc] at hconn
        cases hconn
        exact .seals rfl henc rfl
      · rename_i hne
        refine .keeps (fun p hp => hne ?_) (by simp) (hold hc')
        cases hp
        exact ReflCmp.compare_self
  | sendRaw hrun =>
      obtain ⟨rfl, -⟩ := sendRaw_run_eq_ok hrun
      exact .keeps (by simp) (by simp) (hold hc')
  | @recvOne _ _ _ _ seed event hrun =>
      obtain ⟨a, datagram, reply, hnext, hin, -⟩ := recvOne_run_eq_ok hrun
      rcases hin.transport_of hc hc' with ⟨rfl, plaintext, rfl, hdec⟩ | ⟨hevent, hsame⟩
      · refine .opens rfl ?_ hdec
        rw [Host.upcoming, hnext]
        rfl
      · refine .keeps (by simp) (fun seed' p hp => hevent p ?_) hsame
        cases hp
        rfl
  | evict host w a =>
      simp only [Host.evict, ExtTreeMap.getElem?_erase] at hc'
      split at hc'
      · cases hc'
      · exact .keeps (by simp) (by simp) (hold hc')
  | evictIdle => exact .keeps (by simp) (by simp) (hold (Lru.getElem?_of_sweep hc'))

/-! ### Two hosts -/

variable (C) in
/-- A sending host, a receiving host, and what was sent over their connection and handed over from
it, each plaintext with its datagram. -/
structure Channel where
  sender : Host C × World
  receiver : Host C × World
  emitted : List (Bytes × Bytes)
  accepted : List (Bytes × Bytes)

/-- An operation of one of the two hosts. -/
inductive ChannelLabel where
  | sender (label : HostLabel)
  | receiver (label : HostLabel)

/-- The plaintext the operation sends over the connection. -/
def ChannelLabel.sent (addrR : UdpAddr) : ChannelLabel → Option Bytes
  | .sender (.send addr plaintext) => if addr = addrR then some plaintext else none
  | _ => none

/-- The plaintext the operation hands over from the connection. -/
def ChannelLabel.handed (addrS : UdpAddr) : ChannelLabel → Option Bytes
  | .receiver (.recvOne _ (.datagramDelivered addr plaintext)) =>
      if addr = addrS then some plaintext else none
  | _ => none

/-- The AEAD opens this datagram of the sender's address only if the sender made it. -/
def Channel.Authentic (ch : Channel C) (addrS : UdpAddr) (datagram : Bytes) : Prop :=
  ∀ (conn : EstablishedConnection) (n : UInt64) (c p : Bytes),
    ch.receiver.1.established[addrS]? = some conn → datagram = beBytes 8 n.toNat ++ c →
    aeadDecrypt C conn.transport.recvKey n [] c = .ok p → ∃ q, (q, datagram) ∈ ch.emitted

/-- One operation of either host that keeps the connection: the sender, which has the receiver at
`addrR`, sends over it or does something else; the receiver, which has the sender at `addrS`, is
handed a datagram that opens under it or does something else. -/
inductive Channel.Step (addrS addrR : UdpAddr) :
    Channel C → ChannelLabel → Channel C → Prop where
  | sends {ch : Channel C} {s' : Host C × World} {plaintext datagram : Bytes} :
      Host.Step ch.sender (.send addrR plaintext) s' →
      s'.2.sent = ch.sender.2.sent ++ [(addrR, datagram)] → Connected addrR s' →
      Step addrS addrR ch (.sender (.send addrR plaintext))
        { ch with sender := s', emitted := ch.emitted ++ [(plaintext, datagram)] }
  | sender {ch : Channel C} {l : HostLabel} {s' : Host C × World} :
      Host.Step ch.sender l s' → (∀ plaintext, l ≠ .send addrR plaintext) → Connected addrR s' →
      Step addrS addrR ch (.sender l) { ch with sender := s' }
  | opens {ch : Channel C} {r' : Host C × World} {seed : Key} {plaintext datagram : Bytes} :
      Host.Step ch.receiver (.recvOne seed (.datagramDelivered addrS plaintext)) r' →
      Host.upcoming ch.receiver = some (addrS, datagram) → ch.Authentic addrS datagram →
      Connected addrS r' →
      Step addrS addrR ch (.receiver (.recvOne seed (.datagramDelivered addrS plaintext)))
        { ch with receiver := r', accepted := ch.accepted ++ [(plaintext, datagram)] }
  | receiver {ch : Channel C} {l : HostLabel} {r' : Host C × World} :
      Host.Step ch.receiver l r' →
      (∀ seed plaintext, l ≠ .recvOne seed (.datagramDelivered addrS plaintext)) →
      Connected addrS r' → Step addrS addrR ch (.receiver l) { ch with receiver := r' }

/-- The other half of either transport does not matter to a link. -/
lemma Link.Good.of_halves {K : Key} {t t' u u' : TransportState} {e a : List (Bytes × Bytes)}
    (h : Link.Good C K ⟨t, u, e, a⟩) (hkey : t'.sendKey = t.sendKey)
    (hnonce : t'.sendNonce = t.sendNonce) (hrecv : u'.recvKey = u.recvKey)
    (hmax : u'.recvMaxNonce = u.recvMaxNonce)
    (hwindow : u'.recvReplayWindow = u.recvReplayWindow) : Link.Good C K ⟨t', u', e, a⟩ where
  sendKey := hkey.trans h.sendKey
  recvKey := hrecv.trans h.recvKey
  genuine := by
    simp only [hnonce]
    exact h.genuine
  emitted_inj := h.emitted_inj
  accepted_emitted := h.accepted_emitted
  window := by
    simp only [hmax, hwindow]
    exact h.window
  accepted_once := h.accepted_once

/-- The two transports with their history are a good link, whose datagrams count 0, 1, 2, …. -/
structure Channel.Sound (addrS addrR : UdpAddr) (K : Key) (ch : Channel C)
    (connS connR : EstablishedConnection) : Prop where
  sender : ch.sender.1.established[addrR]? = some connS
  receiver : ch.receiver.1.established[addrS]? = some connR
  good : Link.Good C K ⟨connS.transport, connR.transport, ch.emitted, ch.accepted⟩
  count : connS.transport.sendNonce.toNat = ch.emitted.length
  nonces : ∀ i x, ch.emitted[i]? = some x → nonceOf x.2 = i

section

variable {addrS addrR : UdpAddr} {K : Key} {ch ch' : Channel C} {l : ChannelLabel}
  {connS connR : EstablishedConnection}

/-- The history grows by what the operation says. -/
lemma Channel.Step.history (h : Channel.Step addrS addrR ch l ch') :
    ch'.emitted.map Prod.fst = ch.emitted.map Prod.fst ++ (l.sent addrR).toList ∧
      ch'.accepted.map Prod.fst = ch.accepted.map Prod.fst ++ (l.handed addrS).toList := by
  cases h with
  | sends => exact ⟨by simp [ChannelLabel.sent], (List.append_nil _).symm⟩
  | @sender label _ _ hsend =>
      have hnone : (ChannelLabel.sender label).sent addrR = none := by
        cases label with
        | send addr plaintext => exact if_neg fun ha => hsend plaintext (by rw [ha])
        | _ => rfl
      rw [hnone]
      exact ⟨(List.append_nil _).symm, (List.append_nil _).symm⟩
  | opens => exact ⟨(List.append_nil _).symm, by simp [ChannelLabel.handed]⟩
  | @receiver label _ _ hrecv =>
      have hnone : (ChannelLabel.receiver label).handed addrS = none := by
        cases label with
        | recvOne seed event =>
            cases event with
            | datagramDelivered addr plaintext =>
                exact if_neg fun ha => hrecv seed plaintext (by rw [ha])
            | _ => rfl
        | _ => rfl
      rw [hnone]
      exact ⟨(List.append_nil _).symm, (List.append_nil _).symm⟩

/-- One operation keeps the history sound. -/
lemma Channel.Sound.step (hC : C.Agrees) (h : ch.Sound addrS addrR K connS connR)
    (hstep : Channel.Step addrS addrR ch l ch') :
    ∃ connS' connR', ch'.Sound addrS addrR K connS' connR' := by
  cases hstep with
  | @sends s' plaintext datagram hhost hsent hconn =>
      obtain ⟨connS', hS'⟩ := hconn
      cases hhost.transport_of h.sender hS' with
      | @seals p d hl henc hsent' =>
          cases hl
          have hd : [(addrR, datagram)] = [(addrR, d)] :=
            List.append_cancel_left (hsent.symm.trans hsent')
          obtain rfl : datagram = d := by simpa using hd
          obtain ⟨c, -, hdatagram, hlt, ht⟩ := TransportState.encrypt_eq_ok_iff.mp henc
          refine ⟨connS', connR, hS', h.receiver, h.good.encrypt henc, ?_, fun i x hx => ?_⟩
          · rw [ht, List.length_append, List.length_singleton, ← h.count]
            simp only [UInt64.toNat_add, UInt64.toNat_one]
            exact Nat.mod_eq_of_lt hlt
          · rw [List.getElem?_append] at hx
            split at hx
            · exact h.nonces i x hx
            · obtain ⟨hi, rfl⟩ := List.getElem?_eq_some_iff.mp hx
              rw [List.length_singleton] at hi
              rw [List.getElem_singleton, hdatagram, nonceOf_append, h.count]
              omega
      | opens hl => cases hl
      | keeps hsend => exact absurd rfl (hsend plaintext)
  | @sender _ s' hhost hsend hconn =>
      obtain ⟨connS', hS'⟩ := hconn
      cases hhost.transport_of h.sender hS' with
      | @seals p d hl => exact absurd hl (hsend p)
      | opens hl hnext hdec =>
          -- the sender opened something: the half that sends is as it was
          obtain ⟨hkey, -, hnonce⟩ := decrypt_keys hdec
          exact ⟨connS', connR, hS', h.receiver, h.good.of_halves hkey hnonce rfl rfl rfl,
            by rw [hnonce, h.count], h.nonces⟩
      | keeps _ _ hsame =>
          exact ⟨connS', connR, hS', h.receiver, hsame ▸ h.good, hsame ▸ h.count, h.nonces⟩
  | @opens r' seed plaintext datagram hhost hnext hauth hconn =>
      obtain ⟨connR', hR'⟩ := hconn
      cases hhost.transport_of h.receiver hR' with
      | seals hl => cases hl
      | @opens _ p d hl hnext' hdec =>
          cases hl
          obtain rfl : datagram = d := by
            rw [hnext] at hnext'
            exact (Prod.mk.inj (Option.some.inj hnext')).2
          have hlink : Link.Authentic C
              ⟨connS.transport, connR.transport, ch.emitted, ch.accepted⟩ datagram :=
            fun n c p hd hopen => hauth connR n c p h.receiver hd hopen
          exact ⟨connS, connR', h.sender, hR', h.good.accept hC hlink hdec, h.count, h.nonces⟩
      | keeps _ hrecv => exact absurd rfl (hrecv seed plaintext)
  | @receiver _ r' hhost hrecv hconn =>
      obtain ⟨connR', hR'⟩ := hconn
      cases hhost.transport_of h.receiver hR' with
      | seals hl henc =>
          -- the receiver sent something: the half that receives is as it was
          obtain ⟨_, -, -, -, ht⟩ := TransportState.encrypt_eq_ok_iff.mp henc
          exact ⟨connS, connR', h.sender, hR', h.good.of_halves rfl rfl (by rw [ht]) (by rw [ht])
            (by rw [ht]), h.count, h.nonces⟩
      | @opens seed p d hl => exact absurd hl (hrecv seed p)
      | keeps _ _ hsame =>
          exact ⟨connS, connR', h.sender, hR', hsame ▸ h.good, h.count, h.nonces⟩

/-! ### Whole runs -/

/-- Over a run the history is what the operations say, and stays sound. -/
lemma Channel.sound_of_run (hC : C.Agrees) {s r : Host C × World}
    (hS : s.1.established[addrR]? = some connS) (hR : r.1.established[addrS]? = some connR)
    (hmirror : connS.transport.Mirrored connR.transport) {labels : List ChannelLabel}
    (hrun : Run (Channel.Step addrS addrR) ⟨s, r, [], []⟩ labels ch) :
    ch.emitted.map Prod.fst = labels.filterMap (ChannelLabel.sent addrR) ∧
      ch.accepted.map Prod.fst = labels.filterMap (ChannelLabel.handed addrS) ∧
      ∃ connS' connR', ch.Sound addrS addrR connS.transport.sendKey connS' connR' := by
  induction hrun with
  | nil =>
      refine ⟨rfl, rfl, connS, connR, hS, hR, Link.good_of_mirrored hmirror, ?_, by simp⟩
      rw [hmirror.2.1.1]
      rfl
  | @snoc ch₁ ch₂ labels l hrun hstep ih =>
      obtain ⟨hsent, hhanded, connS₁, connR₁, hsound⟩ := ih
      obtain ⟨hsent', hhanded'⟩ := hstep.history
      have hsnoc : ∀ f : ChannelLabel → Option Bytes,
          (labels ++ [l]).filterMap f = labels.filterMap f ++ (f l).toList := by
        intro f
        rw [List.filterMap_append]
        cases h : f l <;> simp [h]
      rw [hsnoc, hsnoc, hsent', hhanded', hsent, hhanded]
      exact ⟨rfl, rfl, hsound.step hC hstep⟩

/-- No datagram is taken twice. -/
lemma Channel.Sound.nodup_accepted (h : ch.Sound addrS addrR K connS connR) :
    (ch.accepted.map Prod.snd).Nodup := by
  have hnonces := h.good.accepted_once
  rw [show (fun x : Bytes × Bytes => nonceOf x.2) = nonceOf ∘ Prod.snd from rfl,
    ← List.map_map] at hnonces
  exact hnonces.of_map _

/-- What is handed over was sent, each plaintext at most as often. -/
lemma Channel.handed_subperm (hC : C.Agrees) {s r : Host C × World}
    (hS : s.1.established[addrR]? = some connS) (hR : r.1.established[addrS]? = some connR)
    (hmirror : connS.transport.Mirrored connR.transport) {labels : List ChannelLabel}
    (hrun : Run (Channel.Step addrS addrR) ⟨s, r, [], []⟩ labels ch) :
    (labels.filterMap (ChannelLabel.handed addrS)).Subperm
      (labels.filterMap (ChannelLabel.sent addrR)) := by
  obtain ⟨hsent, hhanded, connS', connR', hsound⟩ := Channel.sound_of_run hC hS hR hmirror hrun
  rw [← hhanded, ← hsent]
  obtain ⟨l, hperm, hsublist⟩ :=
    List.subperm_of_subset (hsound.nodup_accepted.of_map _) hsound.good.accepted_emitted
  exact ⟨l.map Prod.fst, hperm.map _, hsublist.map _⟩

/-- A host that is handed a datagram which its connection opens hands the plaintext over. -/
lemma Host.exists_step_of_decrypt {s : Host C × World} {addr : UdpAddr} {datagram plaintext : Bytes}
    {conn : EstablishedConnection} (hconn : s.1.established[addr]? = some conn)
    (hnext : Host.upcoming s = some (addr, datagram))
    (hdec : (conn.transport.decrypt C datagram).2 = .ok plaintext) (seed : Key) :
    ∃ s', Host.Step s (.recvOne seed (.datagramDelivered addr plaintext)) s' := by
  obtain ⟨host, w⟩ := s
  rw [Host.upcoming] at hnext
  cases hrecv : w.recvFrom 0 with
  | error e =>
      simp only [hrecv] at hnext
      cases hnext
  | ok r =>
      obtain ⟨a, d⟩ := r
      simp only [hrecv] at hnext
      cases hnext
      obtain ⟨reply, host', event, hin, hdisp⟩ :=
        dispatchInbound_spec host a (d.take host.socket.recvBufSize) seed
      obtain ⟨rfl, -, -⟩ := hin.of_established hconn
      have hopens : host.opens a (d.take host.socket.recvBufSize) = some plaintext := by
        rw [Host.opens, hconn, Option.bind_some, hdec]
        rfl
      rcases hin.of_opens with ⟨p, hp, rfl, -⟩ | ⟨hnone, -⟩
      · rw [hopens] at hp
        cases hp
        refine ⟨(host', w.afterRecv a (d.take host.socket.recvBufSize)), .recvOne ?_⟩
        rw [recvOne_run_of_recvFrom host seed hrecv, hdisp]
        rfl
      · rw [hopens] at hnone
        cases hnone

/-- Two hosts whose connections with each other mirror, whatever else either of them does and
whatever reaches them: the plaintexts the one hands over are among those the other sent, each of
them at most as often as it was sent and in the very datagram it was sent in, none of which is
taken twice; and a datagram that was not handed over yet and is among the last 64 the sender made
is handed over whenever it comes. -/
theorem channel_exactly_once (hC : C.Agrees) {s r : Host C × World}
    (hS : s.1.established[addrR]? = some connS) (hR : r.1.established[addrS]? = some connR)
    (hmirror : connS.transport.Mirrored connR.transport) {labels : List ChannelLabel}
    (hrun : Run (Channel.Step addrS addrR) ⟨s, r, [], []⟩ labels ch) :
    (labels.filterMap (ChannelLabel.handed addrS)).Subperm
        (labels.filterMap (ChannelLabel.sent addrR)) ∧
      ch.emitted.map Prod.fst = labels.filterMap (ChannelLabel.sent addrR) ∧
      ch.accepted.map Prod.fst = labels.filterMap (ChannelLabel.handed addrS) ∧
      (∀ x ∈ ch.accepted, x ∈ ch.emitted) ∧ (ch.accepted.map Prod.snd).Nodup ∧
      ∀ i plaintext datagram, ch.emitted[i]? = some (plaintext, datagram) →
        ch.emitted.length ≤ i + 64 → datagram ∉ ch.accepted.map Prod.snd →
        Host.upcoming ch.receiver = some (addrS, datagram) → ∀ seed, ∃ r',
          Host.Step ch.receiver (.recvOne seed (.datagramDelivered addrS plaintext)) r' := by
  obtain ⟨hsent, hhanded, connS', connR', hsound⟩ := Channel.sound_of_run hC hS hR hmirror hrun
  have hsub := hsound.good.accepted_emitted
  refine ⟨Channel.handed_subperm hC hS hR hmirror hrun, hsent, hhanded, hsub,
    hsound.nodup_accepted, ?_⟩
  intro i plaintext datagram hi hlast hnew hnext seed
  have hmem : (plaintext, datagram) ∈ ch.emitted := List.mem_of_getElem? hi
  have hdec := hsound.good.decrypt_genuine hC hmem hnew fun y hy => by
    -- every accepted datagram was emitted, so its nonce is below their number
    obtain ⟨j, hj, hy'⟩ := List.getElem_of_mem (hsub y hy)
    have hnonce := hsound.nonces j y (List.getElem?_eq_some_iff.mpr ⟨hj, hy'⟩)
    have hnonce' := hsound.nonces i _ hi
    rw [hnonce, hnonce']
    exact Nat.lt_of_lt_of_le hj hlast
  exact Host.exists_step_of_decrypt hsound.receiver hnext hdec seed

end

/-- A connection of the sample host under the two keys. -/
def sampleLinked (sendKey recvKey : UInt8) : EstablishedConnection where
  transport := .new (.replicate 32 sendKey) (.replicate 32 recvKey)
  remoteStatic := .replicate 32 3
  remotePeerId := .fromEd25519 (.replicate 32 3)
  lastActivity := 0

/-- A sample host with a connection to the sample peer. -/
def sampleEnd (sendKey recvKey : UInt8) : Host sampleCrypto :=
  { sampleHost sendKey with established := .ofList [(sampleAddr, sampleLinked sendKey recvKey)] }

/-- A plaintext is sent and its datagram comes twice: it is handed over once, and the second time
refused. -/
theorem channel_exactly_once_sample :
    ∃ (seed : Key) (reason : String) (ch : Channel sampleCrypto),
      Run (Channel.Step sampleAddr sampleAddr)
        ⟨(sampleEnd 1 2, .quiet), (sampleEnd 2 1, arrival sampleAddr sampleDatagram), [], []⟩
        [.sender (.send sampleAddr [9]),
          .receiver (.recvOne seed (.datagramDelivered sampleAddr [9])),
          .receiver (.recvOne seed (.rejected sampleAddr reason))] ch ∧
      ch.emitted.map Prod.fst = [[9]] ∧ ch.accepted.map Prod.fst = [[9]] ∧
      (ch.accepted.map Prod.snd).Nodup := by
  let seed : Key := .replicate 32 4
  let reason := "transport decrypt failed: noise replay or out-of-window datagram: nonce 0; "
    ++ "datagram dropped, connection kept"
  let s₀ : Host sampleCrypto × World := (sampleEnd 1 2, .quiet)
  let r₀ : Host sampleCrypto × World := (sampleEnd 2 1, arrival sampleAddr sampleDatagram)
  have hsend : ((s₀.1.send sampleAddr [9]).outcome s₀.2).map
      (fun s => (s.2.sent, s.1.isEstablished sampleAddr))
        = some ([(sampleAddr, sampleDatagram)], true) := by decide
  have hrecv : ((Host.recvOutcome r₀ seed).bind fun r =>
      (Host.recvOutcome r.2 seed).map fun r' => (r.1, r.2.1.isEstablished sampleAddr, r'.1,
        r'.2.1.isEstablished sampleAddr))
        = some (.datagramDelivered sampleAddr [9], true, .rejected sampleAddr reason, true) := by
    decide
  have hconn : ∀ s : Host sampleCrypto × World, s.1.isEstablished sampleAddr = true →
      Connected sampleAddr s := by
    intro s hs
    rw [Host.isEstablished, ExtTreeMap.contains_eq_isSome_getElem?] at hs
    exact Option.isSome_iff_exists.mp hs
  obtain ⟨⟨s, w⟩, houtcome, hchecks⟩ := Option.map_eq_some_iff.mp hsend
  obtain ⟨hsent, hest⟩ := Prod.mk.inj hchecks
  obtain ⟨⟨event₁, r₁⟩, hfirst, hrest⟩ := Option.bind_eq_some_iff.mp hrecv
  obtain ⟨⟨event₂, r₂⟩, hsecond, hall⟩ := Option.map_eq_some_iff.mp hrest
  simp only [Prod.mk.injEq] at hall
  obtain ⟨rfl, hest₁, rfl, hest₂⟩ := hall
  have h₁ : Channel.Step sampleAddr sampleAddr ⟨s₀, r₀, [], []⟩ _
      ⟨(s, w), r₀, [([9], sampleDatagram)], []⟩ :=
    .sends (.send (Io.run_of_outcome houtcome)) hsent (hconn _ hest)
  have h₂ : Channel.Step sampleAddr sampleAddr ⟨(s, w), r₀, [([9], sampleDatagram)], []⟩ _
      ⟨(s, w), r₁, [([9], sampleDatagram)], [([9], sampleDatagram)]⟩ :=
    .opens (Host.step_of_recvOutcome hfirst) rfl
      (fun _ _ _ _ _ _ _ => ⟨[9], List.mem_singleton_self _⟩) (hconn _ hest₁)
  have h₃ : Channel.Step sampleAddr sampleAddr
      ⟨(s, w), r₁, [([9], sampleDatagram)], [([9], sampleDatagram)]⟩ _
      ⟨(s, w), r₂, [([9], sampleDatagram)], [([9], sampleDatagram)]⟩ :=
    .receiver (Host.step_of_recvOutcome hsecond) (fun _ _ h => by cases h) (hconn _ hest₂)
  have hrun := (((Run.nil _).snoc h₁).snoc h₂).snoc h₃
  have hlinkS : s₀.1.established[sampleAddr]? = some (sampleLinked 1 2) := by rfl
  have hlinkR : r₀.1.established[sampleAddr]? = some (sampleLinked 2 1) := by rfl
  obtain ⟨-, -, -, -, honce, -⟩ := channel_exactly_once sampleCrypto_agrees hlinkS hlinkR
    (TransportState.mirrored_new _ _) hrun
  exact ⟨seed, reason, _, hrun, rfl, rfl, honce⟩

end Libp2pCat
