import P2PServer.P2PClient

/-! The client's packet handlers, its periodic work and its interface to the
application (`P2PClient.cpp`). -/
namespace P2PServer.P2PClient
open ByteStrings ProtoDef Net Codec Crypto Effects

/-- The 43 bytes of a `UuidReq`. -/
def uuidReq (env : Env) (s : P2PClient) : Bytes :=
  uuidField s.cfg.uuid ++ [2, s.natType] ++ be16 env.localPort ++ be32 1 ++ be16 0

def doHeartbeat (env : Env) : Action := fun s =>
  if s.auth.heartbeatEnc then
    let uuid := padded (maxUuidLen + 1) s.cfg.uuid
    sendProtoNat msgHeartbeatReqEnc
      (uuid ++ env.iv ++ p2pStreamXor s.cfg.secret uuid env.iv (uuidReq env s)) s
  else sendProtoNat msgHeartbeatReq (uuidReq env s) s

def sendProbe (port : UInt16) : Action := fun s =>
  (s, [.proto ⟨s.natSock.ip, port⟩ msgNatDetectReq []])

def startNatDetect (env : Env) : Action := fun s =>
  if s.natDetect.isDone then (s, [])
  else andThen (modify fun s => { s with natDetect := s.natDetect.start env.now })
    (sendProbe s.natSock.port) s

def fireReady : Action := fun s =>
  if s.callbacks.onReady && !s.hb.readyFired then
    ({ s with hb := { s.hb with readyFired := true } },
      [.ready (cstr s.hb.pubIp) s.hb.pubPort s.natType])
  else (s, [])

/-- What a successful answer tells: the public address and the second port. -/
def noteHeartbeat (p : Bytes) (s : P2PClient) : P2PClient :=
  { s with hb := { s.hb with
    heartbeatFail := 0, heartbeatBackoff := {}, pubIp := window p 1 maxIpLen
    pubPort := u16At p 17, altPort := u16At p 37 } }

/-- The answer brings up authentication first and the rest only then. -/
def proceed (env : Env) : Action := fun s =>
  if !s.auth.authed && !s.cfg.secret.isEmpty && !s.auth.authInflight && !s.auth.authDenied then
    doAuthChallenge s
  else andThen (startNatDetect env) fireReady s

def onHeartbeatRsp (env : Env) (p : Bytes) : Action := fun s =>
  if p.length < 2 then (s, [])
  else if byteAt p 0 = 1 then
    if s.cfg.secret.isEmpty then onError (ascii "server requires auth but no secret configured") s
    else if !s.auth.authInflight && !s.auth.authDenied then doAuthChallenge s
    else (s, [])
  else if byteAt p 0 = 2 then onError (ascii "server rejected this uuid") s
  else if p.length < 39 then (s, [])
  else proceed env (noteHeartbeat p s)

def onHeartbeatRspEnc (env : Env) (p : Bytes) : Action := fun s =>
  if p.length < 33 + 8 + 2 ∨ p.length - 41 > 39 then (s, [])
  else onHeartbeatRsp env (p2pStreamXor s.cfg.secret (p.take 33) (window p 33 8) (p.drop 41)) s

def onAuthChallengeRsp (env : Env) (p : Bytes) : Action := fun s =>
  if p.length < 19 then
    ({ s with auth := retryAuth env.now { s.auth with authInflight := false } }, [])
  else
    let result := byteAt p 0
    if result ≠ 0 then
      let auth := { s.auth with authInflight := false }
      if result = 1 then
        onError (ascii "uuid blacklisted") { s with auth := denyAuth env.now auth }
      else if result = 2 then
        onError (ascii "uuid not in whitelist") { s with auth := denyAuth env.now auth }
      else ({ s with auth := retryAuth env.now auth }, [])
    else doAuthLogin { s with auth := { s.auth with authNonce := window p 1 16 } }

def resendConnects (env : Env) : Action := fun s =>
  forEach (fun kc s =>
    let c : Conn := kc.2
    if c.connecting && !c.punch.haveDirect && !c.relay.relayOk then
      andThen (sendProtoNat msgConnectReq (connectReq s c.peerUuid))
        (modify (setConn kc.1 { c with backoffAttempt := c.backoffAttempt + 1 })) s
    else (s, [])) (env.connWalk.entries s.conns) s

def loginError (result : UInt8) : Bytes :=
  if result = authWhitelistRej then ascii "uuid rejected by whitelist"
  else if result = authBlacklist then ascii "uuid blacklisted"
  else if result = authBadMac then ascii "auth login failed (bad secret?)"
  else ascii "auth login failed"

def onAuthLoginRsp (env : Env) (p : Bytes) : Action := fun s =>
  let s := { s with auth := { s.auth with authInflight := false } }
  if p.length < 1 then (s, [])
  else
    let result := byteAt p 0
    if result = authOk then
      resendConnects env { s with
        auth := { s.auth with authed := true, authBackoff := {}, heartbeatEnc := true }
        hb := { s.hb with nextHeartbeatMs := env.now + 100 } }
    else
      onError (loginError result) { s with
        auth := if result ≠ authBadNonce then denyAuth env.now s.auth else retryAuth env.now s.auth }

/-- The candidates in a table of three slots, without empty ones and repetitions. -/
def parseProxies (count : UInt8) (table : Bytes) : List ServerAddr :=
  (List.range (min count.toNat 3)).foldl (fun out i =>
    let a : ServerAddr := ⟨textAt table (18 * i) maxIpLen, u16At table (18 * i + 16)⟩
    if a.ip.isEmpty ∨ a.port = 0 ∨ a ∈ out then out else out ++ [a]) []

/-- Adopts the offered relays, or the configured ones, when none is known yet. -/
def adoptProxies (now : UInt64) (cands : List ServerAddr) (s : P2PClient) : P2PClient :=
  if s.relay.proxies.isEmpty && !cands.isEmpty then
    { s with relay := { s.relay with proxies := cands, nextRelayReg := now } }
  else if s.relay.proxies.isEmpty && !s.cfg.proxyServers.isEmpty then
    { s with relay := { s.relay with proxies := s.cfg.proxyServers, nextRelayReg := now } }
  else s

def isPrivateIp (ip : UInt32) : Bool :=
  let a := (ip >>> 24).toNat
  let b := (ip >>> 16).toNat % 256
  a = 10 || (a = 172 && 16 ≤ b && b ≤ 31) || (a = 192 && b = 168) || a = 127

/-- The private address of the peer, if it is worth trying beside the public one. -/
def lanTarget (pubIp lanIp : Bytes) (lanPort : UInt16) : Option Addr :=
  match inetPton lanIp with
  | some ip =>
    if isPrivateIp ip && (cstr (lanIp.take maxIpLen) ≠ cstr (pubIp.take maxIpLen)) then
      some ⟨ip, lanPort⟩
    else none
  | none => none

def connectAckSize : ℕ := 126

/-- The connection after a positive ack: direct attempts, or the relay alone. -/
def ackConn (env : Env) (cfg : Config) (p : Bytes) (c : Conn) : Conn :=
  if cfg.forceRelay then
    { c with punch := { c.punch with haveDirect := false, punchDeadline := env.now } }
  else
    let lan := lanTarget (p.drop 34) (p.drop 52) (u16At p 68)
    { c with punch := { c.punch with
        haveDirect := true
        nextPunch := env.now + 100
        direct := (sockaddrFrom (p.drop 34) (u16At p 50)).getD ⟨0, 0⟩
        haveLan := lan.isSome
        directLan := lan.getD c.punch.directLan
        punchDeadline := env.now + cfg.connectTimeoutMs.toUInt64 } }

/-- The addresses from which frames of the connection are accepted. -/
def learnAddrs (cfg : Config) (peer : Bytes) (c : Conn) (m : Std.ExtTreeMap UInt64 Bytes) :
    Std.ExtTreeMap UInt64 Bytes :=
  if cfg.forceRelay then m
  else
    let m := m.insert (addrKey c.punch.direct) peer
    if c.punch.haveLan then m.insert (addrKey c.punch.directLan) peer else m

def onConnectAck (env : Env) (p : Bytes) : Action := fun s =>
  if p.length < connectAckSize then (s, [])
  else
    let p := p.take connectAckSize
    let peer := uuidAt p 1
    if byteAt p 0 = 3 then
      if !s.cfg.secret.isEmpty && !s.auth.authInflight && !s.auth.authDenied then doAuthChallenge s
      else (s, [])
    else
      let c := connAt s peer
      let c := if !c.connecting then { c with peerUuid := peer, connecting := true } else c
      if byteAt p 0 ≠ ProtoDef.connectOk then
        andThen (onError (ascii "connect " ++ peer ++ ascii ": peer offline/not found"))
          (closeConn c) (setConn peer c s)
      else
        let c := ackConn env s.cfg p c
        (adoptProxies env.now (parseProxies (byteAt p 71) (p.drop 72))
          { setConn peer c s with addrToPeer := learnAddrs s.cfg peer c s.addrToPeer }, [])

def connectInviteSize : ℕ := 125

def onConnectInvite (env : Env) (p : Bytes) : Action := fun s =>
  if p.length < connectInviteSize then (s, [])
  else
    let p := p.take connectInviteSize
    let peer := uuidAt p 0
    if peer.isEmpty then (s, [])
    else
      let c := connAt s peer
      let c : Conn := { c with
        peerUuid := peer, connecting := true, self := true
        punch := { c.punch with directOk := false } }
      let cands := parseProxies (byteAt p 70) (p.drop 71)
      if s.cfg.forceRelay then
        let c : Conn := { c with punch := { c.punch with
          haveDirect := false, punchDeadline := env.now } }
        (adoptProxies env.now cands (setConn peer c s), [])
      else
        let c : Conn := { c with punch := { c.punch with
          haveDirect := true
          nextPunch := env.now + 100
          punchDeadline := env.now + s.cfg.connectTimeoutMs.toUInt64
          direct := (sockaddrFrom (p.drop 33) (u16At p 49)).getD ⟨0, 0⟩ } }
        let made := ensureIceAgent env s.cfg c
        let applied := if s.pendingRemoteSdp.isEmpty then (made.1, [])
          else applyRemoteIceSdp made.1 s.pendingRemoteSdp
        (adoptProxies env.now cands { setConn peer applied.1 s with
            addrToPeer := s.addrToPeer.insert (addrKey c.punch.direct) peer
            pendingRemoteSdp := [] },
          made.2 ++ applied.2)

/-- The connection that a description addressed to this client is for. -/
def sdpTarget (env : Env) (s : P2PClient) : Option (Bytes × Conn) :=
  (env.connWalk.entries s.conns).find? fun kc =>
    kc.2.connecting && kc.2.punch.juice && kc.2.punch.remoteSdp.isEmpty

def onIceSdp (env : Env) (p : Bytes) : Action := fun s =>
  if p.length < iceSdpHead then (s, [])
  else
    let dst := uuidAt p 0
    let slen := (u16At p 34).toNat
    if p.length < iceSdpHead + slen then (s, [])
    else
      let sdp := window p 36 slen
      let target := if dst = s.cfg.uuid then sdpTarget env s else (s.conns[dst]?).map fun c => (dst, c)
      match target with
      | none => if dst = s.cfg.uuid then ({ s with pendingRemoteSdp := sdp }, []) else (s, [])
      | some (key, c) =>
        if !c.punch.juice then ({ s with pendingRemoteSdp := sdp }, [])
        else
          let r := applyRemoteIceSdp c sdp
          (setConn key r.1 s, r.2)

def onProxyRegisterRsp (p : Bytes) : Action := fun s =>
  if p.length < 1 then (s, [])
  else if byteAt p 0 = 0 then
    ({ s with
        relay := { s.relay with relayRegistered := true }
        conns := s.conns.map fun _ c => { c with backoffAttempt := 0 } }, [])
  else onError (ascii "relay register failed result=" ++ decimalByte (byteAt p 0)) s

def pathProven (relay : Bool) (c : Conn) : Bool := if relay then c.relay.relayOk else c.punch.directOk

def markPath (relay : Bool) (c : Conn) : Conn :=
  if relay then { c with relay := { c.relay with relayOk := true } }
  else { c with punch := { c.punch with directOk := true } }

/-- The path through the relay, or the direct one, has carried a frame. -/
def provePath (relay : Bool) (key : Bytes) : Action := fun s =>
  let c := connAt s key
  if pathProven relay c then (s, [])
  else if !c.connected && s.callbacks.onConnected then
    (setConn key { markPath relay c with connected := true } s,
      [.connected (if relay then key else c.peerUuid) relay])
  else (setConn key (markPath relay c) s, [])

def onRelayData (env : Env) (m : Memory) (plen : ℕ) : Action := fun s =>
  if plen < relayFrameSize + 14 then (s, [])
  else
    let p := m.read 0 plen
    if textAt p 33 maxUuidLen ≠ (cstr s.cfg.uuid).take maxUuidLen then (s, [])
    else
      let peer := uuidAt p 0
      if peer.isEmpty then (s, [])
      else
        let c := connAt s peer
        let c := if c.peerUuid.isEmpty then { c with peerUuid := peer } else c
        andThen (modify (setConn peer c))
          (andThen (onTunnelFrame env peer (m.offset relayFrameSize) (plen - relayFrameSize))
            (provePath true peer)) s

def handleProto (env : Env) (msgId : UInt8) (m : Memory) (plen : ℕ) : Action :=
  let p := m.read 0 plen
  if msgId = msgHeartbeatRsp then onHeartbeatRsp env p
  else if msgId = msgHeartbeatRspEnc then onHeartbeatRspEnc env p
  else if msgId = msgAuthChallengeRsp then onAuthChallengeRsp env p
  else if msgId = msgAuthLoginRsp then onAuthLoginRsp env p
  else if msgId = msgNatDetectRsp then
    modify fun s => { s with natDetect := s.natDetect.feed m plen }
  else if msgId = msgConnectAck then onConnectAck env p
  else if msgId = msgConnectInvite then onConnectInvite env p
  else if msgId = msgIceSdp then onIceSdp env p
  else if msgId = msgProxyRegisterRsp then onProxyRegisterRsp p
  else if msgId = msgProxyRelayData then onRelayData env m plen
  else skip

/-- A frame that came straight from an address of the peer. -/
def onDirectFrame (env : Env) (peer : Bytes) (m : Memory) (len : ℕ) : Action :=
  andThen (modify fun s => setConn peer (connAt s peer) s)
    (andThen (onTunnelFrame env peer m len) (provePath false peer))

/-- A head that states more than has arrived is handled as an empty message. -/
def handlePacket (env : Env) (m : Memory) (len : ℕ) (src : Addr) : Action := fun s =>
  match codecReadHead (m.read 0 len) with
  | some h => handleProto env h.msgId (m.offset 8)
      (if h.length.toNat ≤ len - 8 then h.length.toNat else 0) s
  | none =>
    if len ≥ 2 ∧ rd16 (m 0) (m 1) = tunnelMagic then
      match s.addrToPeer[addrKey src]? with
      | some peer => onDirectFrame env peer m len s
      | none => (s, [])
    else (s, [])

def tickHeartbeat (env : Env) (now : UInt64) : Action := fun s =>
  if now ≥ s.hb.nextHeartbeatMs then
    andThen (doHeartbeat env) (modify fun s =>
      let d := s.hb.heartbeatBackoff.nextDelay
      if s.hb.heartbeatFail > 0 then
        { s with hb := { s.hb with
          nextHeartbeatMs := now + d.1.toUInt64, heartbeatBackoff := d.2 } }
      else
        { s with hb := { s.hb with
          nextHeartbeatMs := now + s.cfg.heartbeatMs.toUInt64, heartbeatBackoff := {} } }) s
  else (s, [])

def tickAuth (now : UInt64) : Action := fun s =>
  if !s.auth.authed && !s.cfg.secret.isEmpty && !s.auth.authInflight && !s.auth.authDenied &&
      now ≥ s.auth.nextAuthTry then
    doAuthChallenge s
  else (s, [])

def tickNatDetect (now : UInt64) : Action := fun s =>
  let s := if s.natDetect.isDone && s.natType == natUnknown then
    { s with natType := s.natDetect.nattype } else s
  if s.natDetect.isDone then (s, [])
  else
    let r := s.natDetect.tick s.natSock.port s.hb.altPort now
    match r.2 with
    | some port => sendProbe port { s with natDetect := r.1 }
    | none => ({ s with natDetect := r.1 }, [])

def tickRelay (now : UInt64) : Action := fun s =>
  if s.cfg.autoRelay && !s.relay.relayRegistered && !s.relay.proxies.isEmpty &&
      now ≥ s.relay.nextRelayReg then
    andThen relayRegister (modify fun s => { s with relay := { s.relay with
      nextRelayReg := now + s.cfg.relayRegisterMs.toUInt64 } }) s
  else (s, [])

/-- A frame of 14 bytes for the session with the peer, sent over the connection. -/
def sendControl (env : Env) (type : UInt8) (c : Conn) : Action := fun s =>
  let x := sessionFor c.peerUuid s
  sendTunnelVia env c (controlFrame type x.1.sessionId) x.2

/-- With the punch sockets missing, a round sends nothing but may open the session. -/
def doPunch (c : Conn) : Action := fun s =>
  if c.punch.juice then (s, []) else ((sessionFor c.peerUuid s).2, [])

/-- The connection is gone and the round goes on with a dangling reference. -/
def closeInRound (text : Bytes) (c : Conn) : Action :=
  andThen (onError (ascii "connect " ++ c.peerUuid ++ text))
    (andThen (closeConn c) (emit (.erasedUse c.peerUuid)))

def punchExpired (cfg : Config) (now : UInt64) (c : Conn) : Bool :=
  !cfg.forceRelay && !c.punch.haveDirect &&
    now ≥ c.punch.punchDeadline + cfg.connectTimeoutMs.toUInt64

def tickConnPunch (now : UInt64) (key : Bytes) : Action := fun s =>
  let c := connAt s key
  if c.punch.haveDirect && now < c.punch.punchDeadline && now ≥ c.punch.nextPunch then
    andThen (doPunch c) (modify (setConn key { c with punch := { c.punch with
      nextPunch := now + s.cfg.punchIntervalMs.toUInt64 } })) s
  else (s, [])

def directFailed (now : UInt64) (c : Conn) : Bool :=
  c.punch.haveDirect && now ≥ c.punch.punchDeadline && !c.punch.directOk

def registerForConn (now : UInt64) (key : Bytes) : Action := fun s =>
  if s.cfg.autoRelay && !s.relay.relayRegistered && !s.relay.proxies.isEmpty then
    andThen relayRegister (modify fun s =>
      let c := connAt s key
      let d := backoffDelay s.cfg.relayRegisterMs 30000 c.backoffAttempt
      { setConn key { c with backoffAttempt := c.backoffAttempt + 1 } s with
        relay := { s.relay with nextRelayReg := now + d.toUInt64 } }) s
  else (s, [])

def pingRelay (env : Env) (now : UInt64) (key : Bytes) : Action := fun s =>
  andThen (sendControl env ttPing (connAt s key)) (modify fun s =>
    let c := connAt s key
    setConn key { c with relay := { c.relay with
      nextRelayPing := now + s.cfg.punchIntervalMs.toUInt64 } } s) s

def tickConnFsm (key : Bytes) : Action := fun s =>
  let c := connAt s key
  if c.relay.relayOk && !c.connected then
    (setConn key { c with connected := true } s,
      if s.callbacks.onConnected then [.connected c.peerUuid true] else [])
  else (s, [])

def tickConn (env : Env) (now : UInt64) (key : Bytes) : Action :=
  andThen (tickConnPunch now key) fun s =>
    if punchExpired s.cfg now (connAt s key) then
      closeInRound (ascii ": server no response") (connAt s key) s
    else if !(s.cfg.forceRelay || directFailed now (connAt s key)) then tickConnFsm key s
    else
      andThen (registerForConn now key) (fun s =>
        let c := connAt s key
        if s.cfg.autoRelay && !s.relay.proxies.isEmpty && now ≥ c.relay.nextRelayPing then
          andThen (pingRelay env now key) (tickConnFsm key) s
        else if !s.cfg.forceRelay && (!s.cfg.autoRelay || s.relay.proxies.isEmpty) &&
            directFailed now c then
          closeInRound (ascii ": no relay, direct failed") c s
        else tickConnFsm key s) s

/-- The rest of a walk over the connections. From an entry that was erased on the way no iterator
leads on, and whether the loop still comes to what lies ahead is left open. -/
def connLoop (env : Env) (now : UInt64) : List Bytes → Action
  | [] => skip
  | key :: rest => fun s =>
    match s.conns[key]? with
    | none => connLoop env now rest s
    | some c =>
      andThen (fun s => if !c.connecting || c.connected then (s, []) else tickConn env now key s)
        (fun s => if s.conns.contains key || env.resumes then connLoop env now rest s else (s, [])) s

def tickConnections (env : Env) (now : UInt64) : Action := fun s =>
  connLoop env now (env.connWalk.keys s.conns) s

def tickSessions (env : Env) (now : UInt64) : Action := fun s =>
  forEach (fun peer s =>
    match s.sessions[peer]? with
    | some _ => withSession env peer (fun x => x.tick now) s
    | none => (s, [])) (env.sessionWalk.keys s.sessions) s

def tick (env : Env) (now : UInt64) : Action :=
  andThen (tickHeartbeat env now) (andThen (tickAuth now) (andThen (tickNatDetect now)
    (andThen (tickRelay now) (andThen (tickConnections env now) (tickSessions env now)))))

/-- `none` is a failed start. What is not assigned keeps its value from an earlier run. -/
def start (env : Env) (cfg : Config) (s : P2PClient) : Option P2PClient :=
  match cfg.natServers with
  | [] => none
  | nat :: _ =>
    if s.running ∨ cfg.uuid.isEmpty ∨ cfg.uuid.length > maxUuidLen then none
    else
      match sockaddrFrom nat.ip nat.port with
      | none => none
      | some natSock =>
        if !env.openOk then none
        else some { s with
          cfg := cfg
          running := true
          natSock := natSock
          natType := natUnknown
          auth := { s.auth with
            authed := cfg.secret.isEmpty, heartbeatEnc := false, authDenied := false
            authInflight := false }
          tunnel := { s.tunnel with tunnelEnc := !cfg.secret.isEmpty, tunnelKeys := ∅ }
          hb := { s.hb with
            heartbeatFail := 0, altPort := 0, pubIp := List.replicate 16 0, pubPort := 0 }
          relay :=
            { proxies := cfg.proxyServers
              nextRelayReg := if cfg.proxyServers.isEmpty then 0 else env.now
              relayRegistered := false }
          pendingRemoteSdp := [] }

def workerStart (env : Env) : Action := fun s =>
  if s.cfg.secret.isEmpty then
    ({ s with hb := { s.hb with nextHeartbeatMs := env.now + 100 } }, [])
  else
    andThen doAuthChallenge (modify fun s =>
      { s with hb := { s.hb with nextHeartbeatMs := env.now + 500 } }) s

/-- The tables are cleared as they are: no ICE agent is destroyed. -/
def stop : Action := fun s =>
  if !s.running then (s, [])
  else
    andThen (fun s =>
        if s.relay.relayRegistered then
          match proxyAddr s with
          | none => (s, [])
          | some dst => sendProto dst msgProxyUnregisterReq
              (uuidField s.cfg.uuid ++ List.replicate 32 0) s
        else (s, []))
      (modify fun s => { s with
        running := false, conns := ∅, sessions := ∅, addrToPeer := ∅
        orphans := s.orphans ++ (s.conns.filter fun _ c => c.punch.juice).keys }) s

def connect (env : Env) (peer : Bytes) : Action := fun s =>
  if !s.running ∨ peer.isEmpty ∨ peer = s.cfg.uuid then (s, [])
  else
    let c : Conn := { connAt s peer with peerUuid := peer }
    if c.connecting || c.connected then (setConn peer c s, [])
    else
      let c : Conn := { c with
        connecting := true
        self := true
        punch := { c.punch with
          haveDirect := false, directOk := false, nextPunch := 0
          punchDeadline := env.now + s.cfg.connectTimeoutMs.toUInt64 }
        relay := { relayOk := false, nextRelayPing := 0 } }
      let made := ensureIceAgent env s.cfg c
      andThen (fun s => (setConn peer made.1 s, made.2))
        (sendProtoNat msgConnectReq (connectReq s peer)) s

def disconnect (env : Env) (peer : Bytes) : Action := fun s =>
  match s.conns[peer]? with
  | none => (s, [])
  | some c =>
    let x := sessionFor peer s
    andThen (sendTunnelVia env c (controlFrame ttClose x.1.sessionId)) (closeConn c) x.2

/-- `none` is the result -1 for a peer that is not connected. -/
def send (env : Env) (peer : Bytes) (channel : UInt8) (data : Bytes) (reliable : Bool)
    (s : P2PClient) : Option Session.SendResult × P2PClient × List Out :=
  match s.conns[peer]? with
  | none => (none, s, [])
  | some c =>
    if !c.connected then (none, s, [])
    else
      let op (x : Session) := x.send channel data reliable env.now
      (some (op (sessionFor peer s).1).1,
        withSession env peer (fun x => ((op x).2.1, (op x).2.2)) s)

/-- A callback of an agent that a stop has left running with a dangling pointer (`close_conn` destroys the
agent of its connection). What it does to freed memory is left open. -/
def onOrphan (peer : Bytes) : Action := emit (.erasedUse peer)

def onJuiceState (peer : Bytes) : Action := fun s =>
  match s.conns[peer]? with
  | none => (s, [])
  | some c =>
    if !c.self then (s, [])
    else
      let c' := { c with punch := { c.punch with directOk := true }, connected := true }
      (setConn peer c' s,
        if !c.connected && s.callbacks.onConnected then [.connected c.peerUuid false] else [])

def onJuiceCandidate (peer sdp : Bytes) : Action := fun s =>
  match s.conns[peer]? with
  | none => (s, [])
  | some c =>
    if !c.self then (s, [])
    else
      let old := c.punch.localSdp
      (setConn peer { c with punch := { c.punch with
        localSdp := (if old.isEmpty then [] else old ++ [0x0a]) ++ sdp } } s, [])

def onJuiceGatheringDone (env : Env) (peer : Bytes) : Action := fun s =>
  match s.conns[peer]? with
  | none => (s, [])
  | some c =>
    if !c.self then (s, [])
    else
      let sdp := env.localSdp.getD c.punch.localSdp
      sendIceSdp c.peerUuid sdp (setConn peer { c with punch := { c.punch with localSdp := sdp } } s)

def onJuiceRecv (env : Env) (peer : Bytes) (m : Memory) (len : ℕ) : Action := fun s =>
  match s.conns[peer]? with
  | none => (s, [])
  | some c =>
    if !c.self || len == 0 then (s, []) else onTunnelFrame env c.peerUuid m len s

end P2PServer.P2PClient
