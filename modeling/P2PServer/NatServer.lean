import P2PServer.AntiAbuse
import P2PServer.Codec
import P2PServer.Effects
import P2PServer.LicenseMgr
import P2PServer.PeerManage

/-! The state of a NAT server and the operations behind its packet handler
(`NatServer.cpp`): authentication, heartbeats, registry synchronisation, proxy
scheduling and the timer. Sending and writing files are outputs. -/
namespace P2PServer
open ByteStrings ProtoDef Net Codec Crypto Effects

/-- The part of `CfgData` that the running server reads. -/
structure CfgData where
  natIps : List Bytes := []
  proxyIps : List Bytes := []
  authSecret : Bytes := []
  enableAuth : Bool := false
  enableLicense : Bool := false
  syncAuthSecret : Bytes := []
  adminSecret : Bytes := []
  floodPktThreshold : UInt32 := 200
  blacklistSeconds : UInt32 := 60
  deriving DecidableEq, Repr

def CfgData.authEnabled (c : CfgData) : Bool := c.enableAuth && !c.authSecret.isEmpty

structure ProxyHealth where
  ip : Bytes
  port : UInt16
  available : UInt8
  used : UInt16
  maxProxy : UInt16
  lastSeen : ℤ
  down : UInt8
  deriving DecidableEq, Repr

structure NatServer where
  cfg : CfgData := {}
  natPort : UInt16 := 0
  proxyPort : UInt16 := 0
  altPort : UInt16 := 0
  wanIp : Bytes := []
  peers : PeerManager := {}
  abuse : AntiAbuse := {}
  license : LicenseMgr := {}
  syncOn : Bool := false
  syncAddrs : List Addr := []
  syncSeen : Std.ExtTreeMap Bytes ℤ := ∅
  proxyHealth : List ProxyHealth := []
  authNonces : Std.ExtTreeMap Bytes (Bytes × ℤ) := ∅
  totalPkts : UInt64 := 0
  connectOk : UInt64 := 0
  connectFail : UInt64 := 0
  deriving DecidableEq

namespace NatServer

inductive Out
  | send (dst : Addr) (datagram : Bytes)
  | writeFile (path content : Bytes)
  deriving DecidableEq, Repr

/-- What a step takes from outside: the clock, random numbers, whether the license file
can be opened, and the bytes that lie behind a local variable on the stack. -/
structure Env where
  now : ℤ := 0
  nonce : Bytes := List.replicate 16 0
  draw : ℕ → ℕ := fun _ => 0
  salt : Bytes := List.replicate 16 0
  iv : Bytes := List.replicate 16 0
  canOpen : Bool := true
  stack : ℕ → UInt8 := fun _ => 0

abbrev Action := Eff NatServer Out

def datagram (msgId : UInt8) (payload : Bytes) : Bytes :=
  codecWriteHead msgId (UInt32.ofNat payload.length) ++ payload

def sendMsg (dst : Addr) (msgId : UInt8) (payload : Bytes) : Action :=
  if payload.length > maxPkt - 8 then skip else emit (.send dst (datagram msgId payload))

/-- A nonce of 16 random bytes, valid for 30 seconds. -/
def issueAuthNonce (env : Env) (uuid : Bytes) (s : NatServer) : NatServer :=
  { s with authNonces := s.authNonces.insert uuid (env.nonce, env.now + 30) }

/-- The message under the MAC of a login: the uuid in 33 bytes and the nonce. -/
def authMessage (uuid nonce : Bytes) : Bytes := padded (maxUuidLen + 1) uuid ++ nonce

/-- A nonce is used up by the first login that names its uuid. -/
def verifyAuthLogin (env : Env) (uuid nonce mac : Bytes) (s : NatServer) : Bool × NatServer :=
  if !s.cfg.authEnabled then (true, s)
  else
    match s.authNonces[uuid]? with
    | none => (false, s)
    | some (n, expire) =>
      let s := { s with authNonces := s.authNonces.erase uuid }
      if env.now > expire then (false, s)
      else if n ≠ nonce then (false, s)
      else if hmacSha256 s.cfg.authSecret (authMessage uuid nonce) ≠ mac then (false, s)
      else (true, { s with peers := s.peers.setAuthExpire uuid (env.now + 3600) })

/-- `uuidRaw` is the 33-byte field with a zero at its end. -/
structure UuidReq where
  uuidRaw : Bytes
  devType : UInt8
  nattype : UInt8
  lanPort : UInt16
  sessionPts : UInt32
  extlen : UInt16
  deriving DecidableEq, Repr

def uuidReqSize : ℕ := 43

def UuidReq.read (p : Bytes) : UuidReq :=
  ⟨p.take maxUuidLen ++ [0], byteAt p 33, byteAt p 34, u16At p 35, u32At p 37, u16At p 41⟩

def UuidReq.uuid (r : UuidReq) : Bytes := cstr r.uuidRaw

structure ExtInfoRsp where
  result : UInt8 := 0
  pubIp : Bytes := List.replicate maxIpLen 0
  pubPort : UInt16 := 0
  lanIp : Bytes := List.replicate maxIpLen 0
  lanPort : UInt16 := 0
  natSock2Port : UInt16 := 0
  deriving DecidableEq, Repr

def ExtInfoRsp.bytes (r : ExtInfoRsp) : Bytes :=
  [r.result] ++ r.pubIp ++ be16 r.pubPort ++ r.lanIp ++ be16 r.lanPort ++ be16 r.natSock2Port

/-- `enc` holds the iv of an encrypted request. -/
def sendHeartbeatRsp (dst : Addr) (uuidRaw : Bytes) (rsp : ExtInfoRsp) (enc : Option Bytes) :
    Action := fun s =>
  match enc with
  | none => sendMsg dst msgHeartbeatRsp rsp.bytes s
  | some iv =>
    let body := if s.cfg.authSecret.isEmpty then rsp.bytes
      else p2pStreamXor s.cfg.authSecret uuidRaw iv rsp.bytes
    sendMsg dst msgHeartbeatRspEnc (uuidRaw ++ iv ++ body) s

def syncEnabled (s : NatServer) : Bool := s.syncOn && !s.syncAddrs.isEmpty

/-- The payload with its MAC, if a secret is configured. -/
def signed (secret payload : Bytes) : Bytes :=
  if secret.isEmpty then payload else payload ++ hmacSha256 secret payload

def syncSendMsg (dst : Addr) (msgId : UInt8) (payload : Bytes) : Action := fun s =>
  if payload.length > maxPkt - 32 then (s, [])
  else sendMsg dst msgId (signed s.cfg.syncAuthSecret payload) s

def syncVerify (secret payload : Bytes) (bodyLen : ℕ) : Bool :=
  if secret.isEmpty then true
  else if bodyLen + 32 > payload.length then false
  else hmacSha256 secret (payload.take bodyLen) = window payload bodyLen 32

def broadcastSyncMsg (msgId : UInt8) (payload : Bytes) (except : Option Addr) : Action := fun s =>
  forEach (fun dst => if except = some dst then skip else syncSendMsg dst msgId payload) s.syncAddrs s

def decimalNat (n : ℕ) : Bytes := (Nat.toDigits 10 n).map fun c => UInt8.ofNat c.toNat

/-- The key `uuid|hb_time|ip:port`. -/
def seenKey (uuid : Bytes) (hbTime : UInt32) (src : Addr) : Bytes :=
  uuid ++ [0x7c] ++ decimalNat hbTime.toNat ++ [0x7c] ++ decimalNat src.ip.toNat ++ [0x3a] ++
    decimalNat src.port.toNat

def seenSyncEntry (env : Env) (uuid : Bytes) (hbTime : UInt32) (src : Addr) (s : NatServer) :
    Bool × NatServer :=
  let key := seenKey uuid hbTime src
  let fresh : Bool := match s.syncSeen[key]? with
    | some t => env.now - t < 300
    | none => false
  if fresh then (true, s)
  else
    let seen := s.syncSeen.insert key env.now
    let seen := if seen.size > 16384 then seen.filter fun _ t => !(env.now - t ≥ 300) else seen
    (false, { s with syncSeen := seen })

/-- The 79 bytes of a `SyncPeerEntry`, read into its fields. -/
structure SyncPeerEntry where
  uuid : Bytes
  pubIp : Bytes
  pubPort : UInt16
  lanIp : Bytes
  lanPort : UInt16
  devType : UInt8
  nattype : UInt8
  hop : UInt8
  hbTime : UInt32
  extlen : UInt16
  raw : Bytes
  deriving DecidableEq, Repr

def syncPeerEntrySize : ℕ := 79

def SyncPeerEntry.read (p : Bytes) : SyncPeerEntry where
  uuid := uuidAt p 0
  pubIp := textAt p 33 16
  pubPort := u16At p 49
  lanIp := textAt p 51 16
  lanPort := u16At p 67
  devType := byteAt p 69
  nattype := byteAt p 70
  hop := byteAt p 71
  hbTime := u32At p 73
  extlen := u16At p 77
  -- the byte after the uuid is cleared in the copy that is forwarded
  raw := (p.take syncPeerEntrySize).set maxUuidLen 0

def peerEntryBytes (p : Peer) (hop : UInt8) : Bytes :=
  uuidField p.uuid ++ ipField p.pubAddr.ip ++ be16 p.pubAddr.port ++ ipField p.lanAddr.ip ++
    be16 p.lanAddr.port ++ [p.devType, p.nattype, hop, 0] ++
    be32 (UInt32.ofNat (p.lastHeartbeat.emod 4294967296).toNat) ++ be16 p.extlen

def sendPeerEntry (dst : Addr) (p : Peer) (hop : UInt8) : Action :=
  let ext := if 0 < p.extlen.toNat ∧ p.extlen.toNat ≤ maxExtinfo then
    p.extinfo.take p.extlen.toNat else []
  syncSendMsg dst msgSyncPeerEntry (peerEntryBytes p hop ++ ext)

def broadcastPeerEntry (env : Env) (req : UuidReq) (extinfo : Bytes) (pub : Addr) : Action :=
  fun s =>
    if !s.syncEnabled then (s, [])
    else
      let p : Peer := ⟨req.uuid, pub, { pub with port := req.lanPort }, req.devType, req.nattype,
        env.now, 0, 0, UInt16.ofNat extinfo.length, extinfo⟩
      forEach (fun dst => sendPeerEntry dst p 1) s.syncAddrs s

/-- Deduplicate, store and forward. The forwarded message starts at a copy of the entry
on the stack but is longer than it by the length of the extension text. -/
def handleSyncEntry (env : Env) (e : SyncPeerEntry) (extinfo : Bytes) (src : Addr) : Action :=
  fun s =>
    if !s.syncEnabled then (s, [])
    else if e.uuid.isEmpty then (s, [])
    else
      let seen := if e.hop ≠ syncHopSnap then seenSyncEntry env e.uuid e.hbTime src s
        else (false, s)
      if seen.1 then (seen.2, [])
      else
        let s := seen.2
        let pub : Addr := ⟨(inetPton e.pubIp).getD 0, e.pubPort⟩
        let lan : Addr := ⟨(inetPton e.lanIp).getD pub.ip, e.lanPort⟩
        let s := { s with peers := (s.peers.upsertSynced e.uuid pub lan e.devType e.nattype
          extinfo e.hbTime.toNat).2 }
        if e.hop ≠ syncHopSnap ∧ e.hop < syncHopMax then
          broadcastSyncMsg msgSyncPeerEntry
            (e.raw.set 71 (e.hop + 1) ++ (List.range extinfo.length).map env.stack) (some src) s
        else (s, [])

def syncPeerDel (uuid : Bytes) : Bytes := uuidField uuid

def handleSyncDel (uuid : Bytes) (src : Addr) : Action := fun s =>
  if !s.syncEnabled then (s, [])
  else
    andThen (broadcastSyncMsg msgSyncPeerDel (syncPeerDel uuid) (some src))
      (modify fun s => { s with peers := (s.peers.remove uuid).2 }) s

def sendSyncSnapshot (dst : Addr) : Action := fun s =>
  forEach (fun p => sendPeerEntry dst p syncHopSnap) s.peers.snapshot s

def handleSyncSnapshotReq (src : Addr) : Action := fun s =>
  if !s.syncEnabled then (s, []) else sendSyncSnapshot src s

def time32 (t : ℤ) : UInt32 := UInt32.ofNat (t.emod 4294967296).toNat

def requestSyncSnapshot (env : Env) : Action := fun s =>
  if !s.syncEnabled then (s, [])
  else broadcastSyncMsg msgSyncSnapshotReq (be32 (time32 env.now)) none s

/-- What the gates of `handle_heartbeat` answer: 1 asks for authentication, 2 rejects.
Looking up the blacklist may drop an expired entry. -/
def heartbeatGate (env : Env) (uuid : Bytes) (s : NatServer) : UInt8 × NatServer :=
  if s.cfg.authEnabled && !s.peers.authed uuid env.now then (1, s)
  else
    let black := s.abuse.isUuidBlacklisted uuid env.now
    let s := { s with abuse := black.2 }
    if black.1 || (s.cfg.enableLicense && !s.license.permits uuid) then (2, s) else (0, s)

def handleHeartbeat (env : Env) (req : UuidReq) (extinfo : Bytes) (src : Addr)
    (enc : Option Bytes) : Action := fun s =>
  let gate := heartbeatGate env req.uuid s
  let rsp : ExtInfoRsp := { natSock2Port := s.altPort }
  if gate.1 ≠ 0 then
    sendHeartbeatRsp src req.uuidRaw { rsp with result := gate.1 } enc gate.2
  else
    let lan : Addr := { src with port := req.lanPort }
    andThen
      (modify fun s => { s with
        peers := (s.peers.upsert req.uuid src lan req.devType req.nattype extinfo env.now).2 })
      (andThen (broadcastPeerEntry env req extinfo src)
        (sendHeartbeatRsp src req.uuidRaw { rsp with
          pubIp := ipField src.ip, pubPort := src.port
          lanIp := ipField lan.ip, lanPort := lan.port } enc)) gate.2

def sendProxyAvailQuery (proxyIp : Bytes) : Action := fun s =>
  sendMsg ⟨(inetPton proxyIp).getD 0, s.proxyPort⟩ msgSpAskExtinfoReq
    (ipTextField s.wanIp ++ be16 s.natPort) s

structure ProxyAvailRsp where
  available : UInt8
  used : UInt16
  maxProxy : UInt16
  deriving DecidableEq, Repr

def collectProxyAvail (env : Env) (src : Addr) (rsp : ProxyAvailRsp) (s : NatServer) : NatServer :=
  let ip := inetNtop src.ip
  let entry : ProxyHealth :=
    ⟨ip, s.proxyPort, rsp.available, rsp.used, rsp.maxProxy, env.now, 0⟩
  match s.proxyHealth.findIdx? fun p => p.ip = ip && p.port = s.proxyPort with
  | some i => { s with proxyHealth := s.proxyHealth.set i entry }
  | none => { s with proxyHealth := s.proxyHealth ++ [entry] }

def markProxyStale (env : Env) (s : NatServer) : NatServer :=
  { s with proxyHealth := s.proxyHealth.map fun p =>
      if env.now - p.lastSeen ≥ 10 then
        { p with down := if p.down < 255 then p.down + 1 else p.down, available := 0 }
      else p }

def healthyProxies (env : Env) (s : NatServer) : List Bytes :=
  (s.proxyHealth.filter fun p =>
    env.now - p.lastSeen ≤ 30 && p.available ≠ 0 && p.down < 2).map (·.ip)

/-- Appends a candidate unless it is empty or already there. -/
def addCandidate (out : List Bytes) (ip : Bytes) : List Bytes :=
  let text := cstr (ipTextField ip)
  if ip.isEmpty ∨ out.contains ip then out else out ++ [text]

/-- Three weighted draws among the healthy proxies, then the configured order. The
weights are positive, so a draw may return any candidate; `draw` says which. -/
def pickProxy (env : Env) (draw : ℕ → ℕ) (s : NatServer) : List Bytes :=
  let cands := healthyProxies env s
  let drawn := (List.range 3).foldl (fun out k =>
    match cands[draw k % cands.length]? with
    | some ip => addCandidate out ip
    | none => out) []
  s.cfg.proxyIps.foldl (fun out ip =>
    if out.length ≥ 3 ∨ out.contains ip then out else out ++ [cstr (ipTextField ip)]) drawn

/-- The candidate table of an ack or an invite: the count and three slots. -/
def proxyTable (port : UInt16) (ips : List Bytes) : Bytes :=
  let slots := ips.map fun ip => ipTextField ip ++ be16 port
  [UInt8.ofNat ips.length] ++ slots.flatten ++ List.replicate (54 - slots.flatten.length) 0

/-- `strncpy` of each timed-out uuid into a deletion for every sync peer. -/
def cleanupPass (env : Env) : Action := fun s =>
  let r := s.peers.cleanupTimeoutAndCollect 90 env.now
  forEach (fun u => broadcastSyncMsg msgSyncPeerDel (syncPeerDel u) none) r.1
    { s with peers := r.2 }

/-- One pass of the timer. `proxyDue` and `snapDue` are the two interval tests,
`saved` says whether the blacklist has been written and `reloaded` is a configuration
read from a changed file. -/
def timerPass (env : Env) (proxyDue snapDue saved : Bool) (reloaded : Option CfgData) : Action :=
  andThen (cleanupPass env)
    (andThen (modify fun s =>
        let abuse := s.abuse.sweep env.now
        let s := { s with
          peers := s.peers.cleanupAuthSessions env.now
          abuse := if abuse.dirty && saved then { abuse with dirty := false } else abuse }
        match reloaded with
        | none => s
        | some cfg => { s with
            cfg := cfg, abuse := s.abuse.configure cfg.floodPktThreshold cfg.blacklistSeconds })
      (andThen (if proxyDue then
          andThen (fun s => forEach sendProxyAvailQuery s.cfg.proxyIps s)
            (modify (markProxyStale env))
        else skip)
        (if snapDue then requestSyncSnapshot env else skip)))

end NatServer

end P2PServer
