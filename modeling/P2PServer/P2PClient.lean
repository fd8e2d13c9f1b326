import P2PServer.CryptoModes
import P2PServer.Effects
import P2PServer.NatDetect
import P2PServer.Session
import P2PServer.TreeMaps

/-! The state of a client and its internal operations (`P2PClient.cpp`): signalling,
connections, the encrypted tunnel and the sessions. Packets sent, calls into the ICE
library and calls of the application's callbacks are outputs. Hash tables are walked in
an order that the environment chooses, and the pool of punch sockets, which nothing ever
fills, is left out. -/
namespace P2PServer
open ByteStrings ProtoDef Net Codec Crypto Effects

theorem lawfulBEq_bytes : LawfulBEq Bytes := inferInstance

attribute [local instance] lawfulBEq_bytes

namespace P2PClient

structure ServerAddr where
  ip : Bytes
  port : UInt16
  deriving DecidableEq, Repr

/-- The settings that the code reads. -/
structure Config where
  uuid : Bytes
  secret : Bytes := []
  natServers : List ServerAddr
  proxyServers : List ServerAddr := []
  heartbeatMs : UInt32 := 20000
  connectTimeoutMs : UInt32 := 6000
  punchIntervalMs : UInt32 := 1000
  relayRegisterMs : UInt32 := 1000
  autoRelay : Bool := true
  forceRelay : Bool := false
  deriving DecidableEq, Repr

/-- Which callbacks the application has set. -/
structure Callbacks where
  onReady : Bool := true
  onConnected : Bool := true
  onMessage : Bool := true
  onDisconnected : Bool := true
  onError : Bool := true
  deriving DecidableEq, Repr

structure PunchState where
  direct : Addr := ⟨0, 0⟩
  directLan : Addr := ⟨0, 0⟩
  haveDirect : Bool := false
  haveLan : Bool := false
  directOk : Bool := false
  punchDeadline : UInt64 := 0
  nextPunch : UInt64 := 0
  juice : Bool := false
  localSdp : Bytes := []
  remoteSdp : Bytes := []
  deriving DecidableEq, Repr

structure RelayState where
  relayOk : Bool := false
  nextRelayPing : UInt64 := 0
  deriving DecidableEq, Repr

structure Conn where
  peerUuid : Bytes := []
  punch : PunchState := {}
  relay : RelayState := {}
  connecting : Bool := false
  connected : Bool := false
  backoffAttempt : UInt32 := 0
  self : Bool := false
  deriving DecidableEq, Repr

/-- Doubling from `d` while below `cap`, at most `n` times. -/
def doubled (cap : UInt32) : ℕ → UInt32 → UInt32
  | 0, d => d
  | n + 1, d => if d < cap then doubled cap n (d * 2) else d

/-- The delay before retry number `attempt`. -/
def backoffDelay (base cap attempt : UInt32) : UInt32 :=
  min (doubled cap (attempt.toNat - 1) base) cap

/-- The counter of a `BackOff` with its default base and cap. -/
structure BackOff where
  attempt : UInt32 := 0
  deriving DecidableEq, Repr

def BackOff.nextDelay (b : BackOff) : UInt32 × BackOff :=
  (backoffDelay 1000 30000 b.attempt, ⟨b.attempt + 1⟩)

structure HeartbeatState where
  nextHeartbeatMs : UInt64 := 0
  heartbeatFail : UInt32 := 0
  heartbeatBackoff : BackOff := {}
  altPort : UInt16 := 0
  pubIp : Bytes := List.replicate 16 0
  pubPort : UInt16 := 0
  readyFired : Bool := false
  deriving DecidableEq, Repr

structure AuthState where
  authed : Bool := true
  heartbeatEnc : Bool := false
  authDenied : Bool := false
  authNonce : Bytes := List.replicate 16 0
  nextAuthTry : UInt64 := 0
  authInflight : Bool := false
  authBackoff : BackOff := {}
  deriving DecidableEq, Repr

/-- The relays known to the client and its registration with the first of them. -/
structure RelayTable where
  proxies : List ServerAddr := []
  nextRelayReg : UInt64 := 0
  relayRegistered : Bool := false
  deriving DecidableEq, Repr

structure TunnelState where
  tunnelEnc : Bool := false
  tunnelKeys : Std.ExtTreeMap Bytes Bytes := ∅
  tunnelEncTx : UInt64 := 0
  tunnelEncRx : UInt64 := 0
  deriving DecidableEq

end P2PClient

open P2PClient in
structure P2PClient where
  cfg : Config
  callbacks : Callbacks := {}
  running : Bool := false
  natSock : Addr := ⟨0, 0⟩
  hb : HeartbeatState := {}
  auth : AuthState := {}
  tunnel : TunnelState := {}
  natDetect : NatDetect := {}
  natType : UInt8 := natUnknown
  relay : RelayTable := {}
  conns : Std.ExtTreeMap Bytes Conn := ∅
  sessions : Std.ExtTreeMap Bytes Session := ∅
  addrToPeer : Std.ExtTreeMap UInt64 Bytes := ∅
  nextSessionId : UInt16 := 1
  pendingRemoteSdp : Bytes := []
  /-- The peers whose ICE agents a stop has left running. -/
  orphans : List Bytes := []
  deriving DecidableEq

namespace P2PClient

/-- The calls into the ICE library. -/
inductive JuiceCall
  | create
  | gatherCandidates
  | setRemoteDescription (sdp : Bytes)
  | send (data : Bytes)
  | destroy
  deriving DecidableEq, Repr

/-- `proto` is a datagram with a message head and `raw` one without; `erasedUse` marks
an access to a connection after it was erased from the table. -/
inductive Out
  | proto (dst : Addr) (msgId : UInt8) (payload : Bytes)
  | raw (dst : Addr) (data : Bytes)
  | juice (peer : Bytes) (call : JuiceCall)
  | ready (pubIp : Bytes) (pubPort : UInt16) (nattype : UInt8)
  | connected (peer : Bytes) (relay : Bool)
  | message (peer : Bytes) (channel : UInt8) (data : Bytes)
  | disconnected (peer : Bytes)
  | error (text : Bytes)
  | erasedUse (peer : Bytes)
  deriving DecidableEq, Repr

/-- What a step takes from outside: the clock, the local port, random bytes for the
heartbeat and for the n-th encrypted frame, the answers of the ICE library, the order of the
hash tables, and whether a loop that stands on a freed node finds its way on. -/
structure Env where
  now : UInt64 := 0
  localPort : UInt16 := 0
  iv : Bytes := List.replicate 8 0
  nonce : ℕ → Bytes := fun _ => List.replicate 12 0
  openOk : Bool := true
  juiceOk : Bool := true
  localSdp : Option Bytes := none
  connWalk : TreeMaps.Walk Bytes := default
  sessionWalk : TreeMaps.Walk Bytes := default
  resumes : Bool := true

abbrev Action := Eff P2PClient Out

def onError (text : Bytes) : Action := fun s =>
  (s, if s.callbacks.onError then [.error text] else [])

def sendProto (dst : Addr) (msgId : UInt8) (payload : Bytes) : Action :=
  if payload.length + 8 > maxPkt then skip else emit (.proto dst msgId payload)

def sendProtoNat (msgId : UInt8) (payload : Bytes) : Action := fun s =>
  sendProto s.natSock msgId payload s

def setConn (key : Bytes) (c : Conn) (s : P2PClient) : P2PClient :=
  { s with conns := s.conns.insert key c }

/-- `conns_[key]`, which creates the entry. -/
def connAt (s : P2PClient) (key : Bytes) : Conn := (s.conns[key]?).getD {}

/-- The text `P2P-TUNNEL-KEY:`. -/
def tunnelKeyPrefix : Bytes :=
  [0x50, 0x32, 0x50, 0x2d, 0x54, 0x55, 0x4e, 0x4e, 0x45, 0x4c, 0x2d, 0x4b, 0x45, 0x59, 0x3a]

/-- The key of a pair of uuids, the smaller one first. -/
def pairKey (secret a b : Bytes) : Bytes :=
  let lo := if a < b then a else b
  let hi := if a < b then b else a
  hmacSha256 secret (tunnelKeyPrefix ++ lo ++ [0x3a] ++ hi)

def getTunnelKey (peer : Bytes) (s : P2PClient) : Option Bytes × P2PClient :=
  if s.cfg.secret.isEmpty || peer.isEmpty || peer = s.cfg.uuid then (none, s)
  else
    match s.tunnel.tunnelKeys[peer]? with
    | some key => (some key, s)
    | none =>
      let key := pairKey s.cfg.secret s.cfg.uuid peer
      (some key, { s with tunnel := { s.tunnel with
        tunnelKeys := s.tunnel.tunnelKeys.insert peer key } })

def encryptTunnelFrame (env : Env) (peer frame : Bytes) (s : P2PClient) :
    Option Bytes × P2PClient :=
  if frame.length < 14 then (none, s)
  else
    let plen := (u16At frame 12).toNat
    if plen = 0 ∨ 14 + 12 + plen + 16 > maxPkt then (none, s)
    else
      match getTunnelKey peer s with
      | (none, s) => (none, s)
      | (some key, s) =>
        let nonce := env.nonce s.tunnel.tunnelEncTx.toNat
        let r := p2pAeadEncrypt key nonce (window frame 14 plen) plen ⟨[], 0, []⟩
        if !r.1 then (none, s)
        else
          let nl := be16 (UInt16.ofNat (12 + r.2.outLen + 16))
          let head := (frame.take 14).set 7 (byteAt frame 7 ||| tfEnc)
          (some (head.take 12 ++ nl ++ nonce.take 12 ++ r.2.out ++ r.2.tag),
            { s with tunnel := { s.tunnel with tunnelEncTx := s.tunnel.tunnelEncTx + 1 } })

/-- The plaintext frame. Only the payload length that the frame itself states is
checked, so the bytes read may lie behind the frame. -/
def decryptTunnelFrame (peer : Bytes) (frame : Memory) (len : ℕ) (s : P2PClient) :
    Option Bytes × P2PClient :=
  if len < 14 ∨ frame 7 &&& tfEnc = 0 then (none, s)
  else
    let plen := (rd16 (frame 12) (frame 13)).toNat
    if plen < 12 + 16 ∨ 14 + plen - 12 - 16 > maxPkt then (none, s)
    else
      match getTunnelKey peer s with
      | (none, s) => (none, s)
      | (some key, s) =>
        let cipherLen := plen - 12 - 16
        match p2pAeadDecrypt key (frame.read 14 12) (frame.read 26 cipherLen) cipherLen
            (frame.read (26 + cipherLen) 16) with
        | none => (none, s)
        | some plain =>
          let head := (frame.read 0 14).set 7 (frame 7 &&& ~~~tfEnc)
          (some (head.take 12 ++ be16 (UInt16.ofNat plain.length) ++ plain),
            { s with tunnel := { s.tunnel with tunnelEncRx := s.tunnel.tunnelEncRx + 1 } })

def relayFrameSize : ℕ := 66

/-- The first relay, if its address can be read. -/
def proxyAddr (s : P2PClient) : Option Addr :=
  match s.relay.proxies with
  | [] => none
  | p :: _ => sockaddrFrom p.ip p.port

/-- The three ways of a tunnel frame: through the ICE library, straight to the peer's
addresses, or through the relay. -/
def transmit (env : Env) (c : Conn) (tx : Bytes) : Action := fun s =>
  let relayReady := c.relay.relayOk || (s.relay.relayRegistered && !s.relay.proxies.isEmpty &&
    (s.cfg.forceRelay || env.now ≥ c.punch.punchDeadline))
  if c.punch.juice && c.punch.directOk then (s, [.juice c.peerUuid (.send tx)])
  else if c.punch.directOk && c.punch.haveDirect || !relayReady && c.punch.haveDirect then
    (s, [.raw c.punch.direct tx] ++ if c.punch.haveLan then [.raw c.punch.directLan tx] else [])
  else if relayReady && s.relay.relayRegistered && !s.relay.proxies.isEmpty then
    if 8 + relayFrameSize + tx.length > maxPkt then (s, [])
    else
      match proxyAddr s with
      | none => (s, [])
      | some dst => (s, [.proto dst msgProxyRelayData
          (uuidField s.cfg.uuid ++ uuidField c.peerUuid ++ tx)])
  else (s, [])

def sendTunnelVia (env : Env) (c : Conn) (frame : Bytes) : Action := fun s =>
  if s.tunnel.tunnelEnc then
    match encryptTunnelFrame env c.peerUuid frame s with
    | (some tx, s) => transmit env c tx s
    | (none, s) => transmit env c frame s
  else transmit env c frame s

/-- A frame of 14 bytes without payload. -/
def controlFrame (type : UInt8) (sessionId : UInt16) : Bytes :=
  Session.buildFrame type sessionId 0 0 0 0 []

def sessionFor (peer : Bytes) (s : P2PClient) : Session × P2PClient :=
  match s.sessions[peer]? with
  | some x => (x, s)
  | none =>
    let x : Session := { sessionId := s.nextSessionId }
    (x, { s with nextSessionId := s.nextSessionId + 1, sessions := s.sessions.insert peer x })

def sessionOut (env : Env) (peer : Bytes) : Session.Out → Action
  | .tx frame => fun s =>
    match s.conns[peer]? with
    | some c => sendTunnelVia env c frame s
    | none => (s, [])
  | .deliver ch payload => fun s =>
    (s, if !payload.isEmpty && s.callbacks.onMessage then [.message peer ch payload] else [])

/-- Runs an operation of the session with a peer. -/
def withSession (env : Env) (peer : Bytes) (f : Session → Session × List Session.Out) : Action :=
  fun s =>
    let x := sessionFor peer s
    let r := f x.1
    forEach (sessionOut env peer) r.2 { x.2 with sessions := x.2.sessions.insert peer r.1 }

def onTunnelFrame (env : Env) (peer : Bytes) (frame : Memory) (len : ℕ) : Action := fun s =>
  let d := if s.tunnel.tunnelEnc then decryptTunnelFrame peer frame len s else (none, s)
  let f := d.1.getD (frame.read 0 len)
  withSession env peer (fun x => x.onFrame f) d.2

/-- Erases every trace of the connection; its uuid is read once more afterwards. -/
def closeConn (c : Conn) : Action := fun s =>
  ({ s with
      addrToPeer := s.addrToPeer.filter fun _ peer => peer ≠ c.peerUuid
      sessions := s.sessions.erase c.peerUuid
      conns := s.conns.erase c.peerUuid },
    (if c.punch.juice then [.juice c.peerUuid .destroy] else []) ++
      if s.callbacks.onDisconnected then [.erasedUse c.peerUuid, .disconnected c.peerUuid] else [])

/-- The connection with its ICE agent, and the calls that made it. -/
def ensureIceAgent (env : Env) (cfg : Config) (c : Conn) : Conn × List Out :=
  if c.punch.juice || cfg.forceRelay then (c, [])
  else if !env.juiceOk then (c, [.juice c.peerUuid .create])
  else
    ({ c with punch := { c.punch with
        juice := true, localSdp := env.localSdp.getD c.punch.localSdp } },
      [.juice c.peerUuid .create, .juice c.peerUuid .gatherCandidates])

def applyRemoteIceSdp (c : Conn) (sdp : Bytes) : Conn × List Out :=
  if !c.punch.juice || sdp.isEmpty then (c, [])
  else ({ c with punch := { c.punch with remoteSdp := sdp } },
    [.juice c.peerUuid (.setRemoteDescription sdp)])

/-- The route is the peer's uuid, and the text is cut at 4096 bytes. The size of the message
counts the padding of the structure, so that a zero follows the text. -/
def sendIceSdp (peer sdp : Bytes) : Action :=
  if peer.isEmpty || sdp.isEmpty then skip
  else
    let n := min sdp.length 4096
    sendProtoNat msgIceSdp
      (uuidField peer ++ [0] ++ be16 (UInt16.ofNat n) ++ padded (n + 1) (sdp.take n))

/-- The key `p2p-proxy-auth-2024`. -/
def proxyAuthKey : Bytes :=
  [0x70, 0x32, 0x70, 0x2d, 0x70, 0x72, 0x6f, 0x78, 0x79, 0x2d, 0x61, 0x75, 0x74, 0x68, 0x2d,
    0x32, 0x30, 0x32, 0x34]

def relayRegister : Action := fun s =>
  match proxyAddr s with
  | none => (s, [])
  | some dst => sendProto dst msgProxyRegisterReq
      (uuidField s.cfg.uuid ++ hmacSha256 proxyAuthKey s.cfg.uuid) s

def connectReq (s : P2PClient) (peer : Bytes) : Bytes := uuidField s.cfg.uuid ++ uuidField peer

def doAuthChallenge : Action := fun s =>
  andThen (sendProtoNat msgAuthChallengeReq (uuidField s.cfg.uuid))
    (modify fun s => { s with auth := { s.auth with authInflight := true } }) s

/-- The next try after the back-off delay. -/
def retryAuth (now : UInt64) (a : AuthState) : AuthState :=
  let d := a.authBackoff.nextDelay
  { a with nextAuthTry := now + d.1.toUInt64, authBackoff := d.2 }

/-- A refusal that is not retried. -/
def denyAuth (now : UInt64) (a : AuthState) : AuthState :=
  { a with authDenied := true, nextAuthTry := now + 3600000 }

/-- The request and its MAC over the padded uuid and the nonce. -/
def authLoginReq (s : P2PClient) : Bytes :=
  uuidField s.cfg.uuid ++ s.auth.authNonce ++
    hmacSha256 s.cfg.secret (padded (maxUuidLen + 1) s.cfg.uuid ++ s.auth.authNonce)

def doAuthLogin : Action := fun s => sendProtoNat msgAuthLoginReq (authLoginReq s) s

end P2PClient

end P2PServer
