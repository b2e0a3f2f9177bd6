import Libp2pCat.Host.State
import Libp2pCat.Host.Cookie

/-!
`libp2p-cat-host/src/host.rs`: the operations of a host as effects over the world of its
socket.

* `Host.dial`, `Host.send`, `Host.sendRaw`, `Host.recvOne`, `Host.evict`, `Host.evictIdle`:
  the public operations; a failed operation consumes the host.
* `dispatchInbound` and its branches `decryptEstablished`, `advanceInFlight`
  (`answerCookieChallenge`, `initiatorConsumeMsg2`, `responderConsumeMsg3`) and
  `tryResponderMsg1` (`respondToValidatedMsg1`): what is done with one received datagram.
-/

namespace Libp2pCat

open ByteString Effect

variable {C : Crypto}

/-! ### Outbound operations -/

variable (C) in
/-- The outcome of `prepareDial`: the host, the handshake past `write_e` and message 1. -/
structure DialPrepared where
  host : Host C
  afterE : InitiatorAfterE C
  msg1 : Bytes

/-- Refuse a known address, else write message 1. -/
def prepareDial (host : Host C) (addr : UdpAddr) (ephemeralSeed : Key) :
    Except Error (DialPrepared C) :=
  if host.handshakes.contains addr || host.established.contains addr then
    .error (.hostState s!"dial: address {addr.display} already known to host")
  else do
    let initiator := Initiator.new host.identity.staticKeypair
    let (afterE, msg1) ← initiator.writeE ephemeralSeed
    pure { host := host, afterE := afterE, msg1 := msg1 }

/-- Start a handshake with the peer at an address. -/
def Host.dial (host : Host C) (addr : UdpAddr) (ephemeralSeed : Key) : Io World Error (Host C) :=
  (Io.suspend (prepareDial host addr ephemeralSeed)).flatMap fun prepared =>
    let host := prepared.host
    (host.socket.send addr prepared.msg1).map fun socket =>
      let nextTick := host.tick + 1
      let entry : InFlightHandshake C :=
        { state := .initiatorAwaitingResponse prepared.afterE prepared.msg1
          lastActivity := nextTick }
      let handshakes :=
        insertHandshakeWithLru host.handshakes addr entry host.capacity.maxHandshakesInFlight
      { host with socket := socket, handshakes := handshakes, tick := nextTick }

variable (C) in
/-- The outcome of `prepareSend`: the host without the connection, the connection past the
encryption, and the datagram. -/
structure SendPrepared where
  host : Host C
  conn : EstablishedConnection
  datagram : Bytes

/-- Refuse an unknown address, else encrypt. -/
def prepareSend (host : Host C) (addr : UdpAddr) (plaintext : Bytes) :
    Except Error (SendPrepared C) := do
  let conn ← okOr host.established[addr]?
    (.hostState s!"send: no established connection for {addr.display}")
  let (transport, datagram) ← conn.transport.encrypt C plaintext
  let nextConn := { conn with transport := transport }
  pure { host := { host with established := host.established.erase addr }
         conn := nextConn
         datagram := datagram }

/-- Send a plaintext to an established peer. -/
def Host.send (host : Host C) (addr : UdpAddr) (plaintext : Bytes) : Io World Error (Host C) :=
  (Io.suspend (prepareSend host addr plaintext)).flatMap fun prepared =>
    let host := prepared.host
    let nextTick := host.tick + 1
    let nextConn := { prepared.conn with lastActivity := nextTick }
    let established := host.established.insert addr nextConn
    (host.socket.send addr prepared.datagram).map fun socket =>
      { host with socket := socket, established := established, tick := nextTick }

/-- Send bytes past the Noise transport. -/
def Host.sendRaw (host : Host C) (addr : UdpAddr) (bytes : Bytes) : Io World Error (Host C) :=
  (host.socket.send addr bytes).map fun socket =>
    { host with socket := socket, tick := host.tick + 1 }

/-! ### One inbound datagram -/

variable (C) in
/-- Parse a handshake trailer and verify that it binds the static key. -/
def verifyBinding (payload : Bytes) (remoteStatic : StaticPublicKey) : Except Error PeerId := do
  let signed ← SignedStaticKey.fromBytes payload
  let (_, peerId) ← signed.verify C remoteStatic
  pure peerId

/-- A datagram from an established address. -/
def decryptEstablished (host : Host C) (addr : UdpAddr) (datagram : Bytes) :
    Io World Error (Host C × HostEvent) :=
  let conn := okOr host.established[addr]? (.hostState "established entry vanished mid-dispatch")
  let established := host.established.erase addr
  (Io.suspend conn).map fun conn =>
    let (transport, outcome) := conn.transport.decrypt C datagram
    let nextTick := host.tick + 1
    -- a refused datagram refreshes neither the entry nor the clock
    let (entryActivity, hostTick, event) :=
      match outcome with
      | .error e => (conn.lastActivity, host.tick, HostEvent.rejected addr
          s!"transport decrypt failed: {e.display}; datagram dropped, connection kept")
      | .ok plaintext => (nextTick, nextTick, HostEvent.datagramDelivered addr plaintext)
    let nextConn := { conn with transport := transport, lastActivity := entryActivity }
    ({ host with established := established.insert addr nextConn, tick := hostTick }, event)

/-- Re-send message 1 with the cookie of a challenge; the entry is kept as it was. -/
def answerCookieChallenge (host : Host C) (addr : UdpAddr) (afterE : InitiatorAfterE C)
    (msg1 : Bytes) (lastActivity : UInt64) (datagram : Bytes) :
    Io World Error (Host C × HostEvent) :=
  let mac := (sliceFrom datagram 1).getD []
  let msg1WithCookie := msg1 ++ mac
  (host.socket.send addr msg1WithCookie).map fun socket =>
    let entry : InFlightHandshake C :=
      { state := .initiatorAwaitingResponse afterE msg1, lastActivity := lastActivity }
    let handshakes :=
      insertHandshakeWithLru host.handshakes addr entry host.capacity.maxHandshakesInFlight
    ({ host with socket := socket, handshakes := handshakes }, .handshakeProgress addr)

/-- Read message 2, verify its trailer and write message 3. -/
def initiatorAdvance (identity : HostIdentity C) (afterE : InitiatorAfterE C) (datagram : Bytes) :
    Except Error (TransportState × Bytes × StaticPublicKey × PeerId) := do
  let (afterResp, msg2Payload) ← afterE.readResponse datagram
  let remotePeerId ← verifyBinding C msg2Payload afterResp.remoteStatic
  let (transport, msg3, remoteStatic) ← afterResp.writeS identity.signedStaticKey.toBytes
  pure (transport, msg3, remoteStatic, remotePeerId)

/-- Advance a dialed handshake by message 2; the awaiting state is put back on failure. -/
def initiatorConsumeMsg2 (host : Host C) (addr : UdpAddr) (afterE : InitiatorAfterE C)
    (msg1 : Bytes) (lastActivity : UInt64) (datagram : Bytes) :
    Io World Error (Host C × HostEvent) :=
  let nextTick := host.tick + 1
  match initiatorAdvance host.identity afterE datagram with
  | .ok (transport, msg3, remoteStatic, remotePeerId) =>
      (host.socket.send addr msg3).map fun socket =>
        let conn : EstablishedConnection :=
          { transport := transport, remoteStatic := remoteStatic
            remotePeerId := remotePeerId, lastActivity := nextTick }
        let established :=
          insertEstablishedWithLru host.established addr conn host.capacity.maxEstablished
        ({ host with socket := socket, established := established, tick := nextTick },
          .handshakeComplete addr remoteStatic remotePeerId)
  | .error e =>
      let entry : InFlightHandshake C :=
        { state := .initiatorAwaitingResponse afterE msg1, lastActivity := lastActivity }
      let handshakes :=
        insertHandshakeWithLru host.handshakes addr entry host.capacity.maxHandshakesInFlight
      Io.pure ({ host with handshakes := handshakes, tick := nextTick },
        .rejected addr s!"initiator: failed to advance on msg2: {e.display}; handshake kept")

variable (C) in
/-- Read message 3 and verify its trailer. -/
def responderFinalize (afterResp : ResponderAfterResponse) (datagram : Bytes) :
    Except Error (TransportState × StaticPublicKey × PeerId) := do
  let (transport, remoteStatic, msg3Payload) ← afterResp.readS C datagram
  let remotePeerId ← verifyBinding C msg3Payload remoteStatic
  pure (transport, remoteStatic, remotePeerId)

/-- Advance an answered handshake by message 3; the awaiting state is put back on
failure. -/
def responderConsumeMsg3 (host : Host C) (addr : UdpAddr) (afterResp : ResponderAfterResponse)
    (lastActivity : UInt64) (datagram : Bytes) : Io World Error (Host C × HostEvent) :=
  let nextTick := host.tick + 1
  match responderFinalize C afterResp datagram with
  | .ok (transport, remoteStatic, remotePeerId) =>
      let conn : EstablishedConnection :=
        { transport := transport, remoteStatic := remoteStatic
          remotePeerId := remotePeerId, lastActivity := nextTick }
      let established :=
        insertEstablishedWithLru host.established addr conn host.capacity.maxEstablished
      Io.pure ({ host with established := established, tick := nextTick },
        .handshakeComplete addr remoteStatic remotePeerId)
  | .error e =>
      let entry : InFlightHandshake C :=
        { state := .responderAwaitingFinalize afterResp, lastActivity := lastActivity }
      let handshakes :=
        insertHandshakeWithLru host.handshakes addr entry host.capacity.maxHandshakesInFlight
      Io.pure ({ host with handshakes := handshakes, tick := nextTick },
        .rejected addr s!"responder: failed to finalize on msg3: {e.display}; handshake kept")

/-- A datagram from an address with a handshake in flight: the entry is taken out and the
branch of its state decides what goes back in. -/
def advanceInFlight (host : Host C) (addr : UdpAddr) (datagram : Bytes) :
    Io World Error (Host C × HostEvent) :=
  let removed := okOr host.handshakes[addr]? (.hostState "in-flight entry vanished mid-dispatch")
  let host := { host with handshakes := host.handshakes.erase addr }
  (Io.suspend removed).flatMap fun entry =>
    match entry.state with
    | .initiatorAwaitingResponse afterE msg1 =>
        if Cookie.isChallenge datagram then
          answerCookieChallenge host addr afterE msg1 entry.lastActivity datagram
        else initiatorConsumeMsg2 host addr afterE msg1 entry.lastActivity datagram
    | .responderAwaitingFinalize afterResp =>
        responderConsumeMsg3 host addr afterResp entry.lastActivity datagram

/-- Read message 1 and write message 2. -/
def responderRespond (identity : HostIdentity C) (eBytes : Bytes) (ephemeralSeed : Key) :
    Except Error (ResponderAfterResponse × Bytes) := do
  let responder := Responder.new identity.staticKeypair
  let trailer := identity.signedStaticKey.toBytes
  let afterE ← responder.readE eBytes
  afterE.writeResponse ephemeralSeed trailer

/-- Spend the Diffie-Hellman work and the table slot on a validated source. -/
def respondToValidatedMsg1 (host : Host C) (addr : UdpAddr) (eBytes : Bytes)
    (ephemeralSeed : Key) : Io World Error (Host C × HostEvent) :=
  let nextTick := host.tick + 1
  match responderRespond host.identity eBytes ephemeralSeed with
  | .ok (afterResp, msg2) =>
      (host.socket.send addr msg2).map fun socket =>
        let entry : InFlightHandshake C :=
          { state := .responderAwaitingFinalize afterResp, lastActivity := nextTick }
        let handshakes :=
          insertHandshakeWithLru host.handshakes addr entry host.capacity.maxHandshakesInFlight
        ({ host with socket := socket, handshakes := handshakes, tick := nextTick },
          .handshakeProgress addr)
  | .error e =>
      Io.pure ({ host with tick := nextTick },
        .rejected addr s!"responder: failed to start handshake: {e.display}")

/-- A datagram from an unknown address. -/
def tryResponderMsg1 (host : Host C) (addr : UdpAddr) (datagram : Bytes) (ephemeralSeed : Key) :
    Io World Error (Host C × HostEvent) :=
  let nextTick := host.tick + 1
  let msg1Len := MESSAGE_1_LEN
  let msg1WithCookieLen := Cookie.MSG1_WITH_COOKIE_LEN
  if datagram.length = MESSAGE_1_LEN then
    -- a bare message 1 proves nothing about its source
    let reply := Cookie.challenge C host.identity.cookieSecret addr datagram
    (host.socket.send addr reply).map fun socket =>
      ({ host with socket := socket, tick := nextTick }, .handshakeProgress addr)
  else if datagram.length = Cookie.MSG1_WITH_COOKIE_LEN then
    let eBytes := (sliceTo datagram MESSAGE_1_LEN).getD []
    let mac := (sliceFrom datagram MESSAGE_1_LEN).getD []
    if Cookie.verify C host.identity.cookieSecret addr eBytes mac then
      respondToValidatedMsg1 host addr eBytes ephemeralSeed
    else
      Io.pure ({ host with tick := nextTick }, .rejected addr "msg1 cookie failed verification")
  else
    let got := datagram.length
    Io.pure ({ host with tick := nextTick },
      .rejected addr (s!"datagram from new peer is neither a {msg1Len}-byte bare msg1 nor a " ++
        s!"{msg1WithCookieLen}-byte msg1-with-cookie: {got} bytes"))

/-- Dispatch one received datagram by table membership. -/
def dispatchInbound (host : Host C) (addr : UdpAddr) (datagram : Bytes) (ephemeralSeed : Key) :
    Io World Error (Host C × HostEvent) :=
  if host.established.contains addr then decryptEstablished host addr datagram
  else if host.handshakes.contains addr then advanceInFlight host addr datagram
  else tryResponderMsg1 host addr datagram ephemeralSeed

/-- Receive one datagram and dispatch it. -/
def Host.recvOne (host : Host C) (ephemeralSeed : Key) : Io World Error (Host C × HostEvent) :=
  host.socket.recv.flatMap fun r =>
    let ((addr, datagram), socket) := r
    dispatchInbound { host with socket := socket } addr datagram ephemeralSeed

/-! ### Eviction -/

/-- Drop everything known about an address. -/
def Host.evict (host : Host C) (addr : UdpAddr) : Host C :=
  { host with
    handshakes := host.handshakes.erase addr
    established := host.established.erase addr }

/-- Saturating subtraction of ticks. -/
def saturatingSub (a b : UInt64) : UInt64 := if b ≤ a then a - b else 0

/-- Drop every entry idle for more than the given number of ticks; the addresses swept
come back with the host. -/
def Host.evictIdle (host : Host C) (maxIdleTicks : UInt64) : Host C × List UdpAddr :=
  let cutoff := saturatingSub host.tick maxIdleTicks
  let (handshakes, evictedH) := sweepIdleHandshakes host.handshakes cutoff
  let (established, evictedE) := sweepIdleEstablished host.established cutoff
  let evicted := evictedH ++ evictedE
  ({ host with handshakes := handshakes, established := established }, evicted)

end Libp2pCat
