import P2PServer.Fields
import P2PServer.NatServer

/-! The packet handler of a NAT server (`RecvProcess.cpp`): one definition for each
message, given the payload and the sender. -/
namespace P2PServer.NatServer
open ByteStrings ProtoDef Net Codec Crypto Effects

/-- `MSG_HEARTBEAT_REQ` and `MSG_ADD_UID_REQ`. -/
def onHeartbeatReq (env : Env) (p : Bytes) (src : Addr) : Action :=
  if p.length < uuidReqSize then skip
  else
    let req := UuidReq.read p
    let extlen := req.extlen.toNat
    let extinfo := if 0 < extlen ∧ extlen ≤ maxExtinfo ∧ uuidReqSize + extlen ≤ p.length then
      window p uuidReqSize extlen else []
    handleHeartbeat env req extinfo src none

/-- The decrypted body of an encrypted heartbeat. -/
def heartbeatBody (secret p : Bytes) : Bytes :=
  let cipher := p.drop 41
  if secret.isEmpty then cipher
  else p2pStreamXor secret (p.take maxUuidLen ++ [0]) (window p 33 8) cipher

/-- The request inside, with the uuid of the outer header. -/
def encryptedReq (secret p : Bytes) : UuidReq :=
  { UuidReq.read (heartbeatBody secret p) with uuidRaw := p.take maxUuidLen ++ [0] }

def onHeartbeatReqEnc (env : Env) (p : Bytes) (src : Addr) : Action := fun s =>
  if p.length < 33 + 8 + uuidReqSize then (s, [])
  else
    let ext := p.length - 41 - uuidReqSize
    let extinfo := if ext ≤ maxExtinfo then
      window (heartbeatBody s.cfg.authSecret p) uuidReqSize ext else []
    handleHeartbeat env (encryptedReq s.cfg.authSecret p) extinfo src (some (window p 33 8)) s

def onSndExtinfoReq (env : Env) (p : Bytes) : Action := fun s =>
  let uuid := uuidAt p 0
  let extlen := (UInt16.ofNat (p.length - 33)).toNat
  let extinfo := if extlen ≤ maxExtinfo then window p 33 extlen else []
  let s := match s.peers.get uuid with
    | none => s
    | some self => { s with peers := (s.peers.upsert self.uuid self.pubAddr self.lanAddr
        self.devType self.nattype extinfo env.now).2 }
  match s.peers.get uuid with
  | none => (s, [])
  | some dst => sendMsg dst.pubAddr msgSndExtinfoReq p s

def onAskExtinfoReq (p : Bytes) (src : Addr) : Action := fun s =>
  let rsp : ExtInfoRsp :=
    { pubIp := ipField src.ip, pubPort := src.port, natSock2Port := s.altPort }
  if p.length < 33 then sendMsg src msgAskExtinfoRsp rsp.bytes s
  else
    match s.peers.get (uuidAt p 0) with
    | none => sendMsg src msgAskExtinfoRsp { rsp with result := 2 }.bytes s
    | some pe =>
      let rsp := { rsp with lanIp := ipField pe.lanAddr.ip, lanPort := pe.lanAddr.port }
      let ext := if 39 + pe.extinfo.length ≤ maxPkt then pe.extinfo else []
      sendMsg src msgAskExtinfoRsp (rsp.bytes ++ ext) s

/-- `MSG_SND_EXTINFO_REQ` and `MSG_ASK_EXTINFO_REQ` share the answer to a short request. -/
def onExtinfoReq (env : Env) (msgId : UInt8) (p : Bytes) (src : Addr) : Action :=
  if msgId = msgSndExtinfoReq ∧ p.length ≥ 33 then onSndExtinfoReq env p
  else onAskExtinfoReq p src

def connectAck (result : UInt8) (dstUuid : Bytes) (body : Bytes) : Bytes :=
  [result] ++ dstUuid.take maxUuidLen ++ [0] ++ body

/-- The rest of an ack that carries no addresses: 92 zero bytes. -/
def emptyAck : Bytes := List.replicate (16 + 2 + 16 + 2 + 1 + 1 + 54) 0

def peerAddresses (pub lan : Addr) (nattype : UInt8) : Bytes :=
  ipField pub.ip ++ be16 pub.port ++ ipField lan.ip ++ be16 lan.port ++ [nattype]

theorem peerAddresses_length (pub lan : Addr) (nattype : UInt8) : (peerAddresses pub lan nattype).length = 37 := by
  simp [peerAddresses, ipField_length]

def connectReqSize : ℕ := 66

def onConnectReq (env : Env) (p : Bytes) (src : Addr) : Action := fun s =>
  if p.length < connectReqSize then (s, [])
  else
    let srcUuid := uuidAt p 0
    let dstUuid := uuidAt p 33
    let dstRaw := window p 33 maxUuidLen
    let refuse (result : UInt8) : NatServer × List Out :=
      andThen (sendMsg src msgConnectAck (connectAck result dstRaw emptyAck))
        (modify fun s => { s with connectFail := s.connectFail + 1 }) s
    if s.cfg.authEnabled && !s.peers.authed srcUuid env.now then refuse 3
    else if s.cfg.enableLicense && !s.license.permits srcUuid then refuse ProtoDef.connectNotFound
    else
      match s.peers.get dstUuid with
      | none => refuse ProtoDef.connectNotFound
      | some dst =>
        let ack := connectAck ProtoDef.connectOk dstRaw (peerAddresses dst.pubAddr dst.lanAddr dst.nattype ++
          proxyTable s.proxyPort (pickProxy env env.draw s))
        let lan := match s.peers.get srcUuid with
          | some me => (me.lanAddr, me.nattype)
          | none => (src, natUnknown)
        let invite := window p 0 maxUuidLen ++ [0] ++ peerAddresses src lan.1 lan.2 ++
          proxyTable s.proxyPort (pickProxy env (fun k => env.draw (k + 3)) s)
        andThen (sendMsg src msgConnectAck ack)
          (andThen (sendMsg dst.pubAddr msgConnectInvite invite)
            (modify fun s => { s with connectOk := s.connectOk + 1 })) s

/-- The uuid field is terminated inside the packet before it is forwarded. -/
def onIceSdp (p : Bytes) : Action := fun s =>
  if p.length < iceSdpHead then (s, [])
  else
    let q := p.set maxUuidLen 0
    if q.length < iceSdpHead + (u16At q 34).toNat then (s, [])
    else
      match s.peers.get (uuidAt q 0) with
      | none => (s, [])
      | some dst => sendMsg dst.pubAddr msgIceSdp q s

def devListEntry (p : Peer) : Bytes :=
  uuidField p.uuid ++ ipField p.pubAddr.ip ++ be16 p.pubAddr.port ++ [p.devType]

def onGetDevListReq (p : Bytes) (src : Addr) : Action := fun s =>
  let start := if p.length ≥ 4 then u16At p 0 else 0
  let asked := if p.length ≥ 4 then u16At p 2 else 0
  let want := if asked = 0 ∨ asked > 100 then 20 else asked
  let snap := s.peers.snapshot
  let page := (snap.drop start.toNat).take want.toNat
  sendMsg src msgGetDevListRsp
    (be16 (UInt16.ofNat snap.length) ++ be16 (UInt16.ofNat page.length) ++ be16 start ++
      (page.map devListEntry).flatten) s

/-- The text `0.0.0.0`. -/
def anyIp : Bytes := [0x30, 0x2e, 0x30, 0x2e, 0x30, 0x2e, 0x30]

def onGetServerListReq (src : Addr) : Action := fun s =>
  let nats := if s.wanIp.isEmpty ∨ s.wanIp = anyIp ∨ s.cfg.natIps.contains s.wanIp then s.cfg.natIps
    else s.cfg.natIps ++ [s.wanIp]
  sendMsg src msgGetServerListRsp
    (be16 (UInt16.ofNat nats.length) ++ be16 (UInt16.ofNat s.cfg.proxyIps.length) ++
      (nats.map ipTextField).flatten ++ (s.cfg.proxyIps.map ipTextField).flatten) s

/-- `license_.save()`: the manager is unchanged and the file may be written. -/
def saveLicense (env : Env) : Action := fun s =>
  match (LicenseMgr.save env.canOpen env.salt env.iv s.license).1 with
  | some (_, some content) => (s, [.writeFile s.license.path content])
  | _ => (s, [])

/-- The uuid named by a deletion request; a shorter payload names the empty one. -/
def deleteUuid (p : Bytes) : Bytes := if p.length ≥ maxUuidLen + 1 then uuidAt p 0 else []

def onDeleteUidReq (env : Env) (p : Bytes) : Action := fun s =>
  let uuid := deleteUuid p
  let known := s.license.uuids.contains uuid
  let s := { s with
    peers := (s.peers.remove uuid).2
    license := { s.license with uuids := s.license.uuids.erase uuid } }
  if known then saveLicense env s else (s, [])

def onCheckUidReq (p : Bytes) (src : Addr) : Action := fun s =>
  let uuid := if p.length ≥ 33 then uuidAt p 0 else []
  let found := s.peers.existsPeer uuid || s.license.uuids.contains uuid
  sendMsg src msgCheckUidRsp [if found then 1 else 0] s

/-- The checks before authentication: 1 for a blacklisted uuid, 2 for one that the
whitelist does not have. -/
def authGate (env : Env) (uuid : Bytes) (s : NatServer) : UInt8 × NatServer :=
  let black := s.abuse.isUuidBlacklisted uuid env.now
  let s := { s with abuse := black.2 }
  if black.1 then (1, s)
  else if s.cfg.enableLicense && !s.license.permits uuid then (2, s)
  else (0, s)

def challengeRsp (result : UInt8) (nonce : Bytes) : Bytes := [result] ++ nonce ++ be16 30

def onAuthChallengeReq (env : Env) (p : Bytes) (src : Addr) : Action := fun s =>
  let uuid := if p.length ≥ 33 then uuidAt p 0 else []
  let gate := authGate env uuid s
  if gate.1 ≠ 0 then
    sendMsg src msgAuthChallengeRsp (challengeRsp gate.1 (List.replicate 16 0)) gate.2
  else
    sendMsg src msgAuthChallengeRsp (challengeRsp 0 env.nonce) (issueAuthNonce env uuid gate.2)

def authLoginReqSize : ℕ := 81

/-- The result of a login. Every failure of `verify_auth_login` becomes `AUTH_BAD_MAC`. -/
def loginResult (env : Env) (p : Bytes) (s : NatServer) : UInt8 × NatServer :=
  let uuid := uuidAt p 0
  let gate := authGate env uuid s
  if gate.1 = 1 then (authBlacklist, gate.2)
  else if gate.1 = 2 then (authWhitelistRej, gate.2)
  else
    let r := verifyAuthLogin env uuid (window p 33 16) (window p 49 32) gate.2
    (if r.1 then authOk else authBadMac, r.2)

def onAuthLoginReq (env : Env) (p : Bytes) (src : Addr) : Action := fun s =>
  if p.length < authLoginReqSize then (s, [])
  else
    let r := loginResult env p s
    sendMsg src msgAuthLoginRsp ([r.1] ++ be16 3600) r.2

def onAdminStatsReq (env : Env) (src : Addr) : Action := fun s =>
  let n32 (n : ℕ) : Bytes := be32 (UInt32.ofNat n)
  sendMsg src msgAdminStatsRsp
    (be32 s.totalPkts.toUInt32 ++ n32 s.peers.size ++ n32 s.peers.deviceCount ++
      n32 s.peers.clientCount ++ n32 s.abuse.ipBlack.size ++ n32 (s.peers.authedCount env.now) ++
      n32 (s.proxyHealth.countP fun h => h.available ≠ 0) ++ be32 s.connectOk.toUInt32 ++
      be32 s.connectFail.toUInt32) s

def blacklistEntry (kv : Bytes × ℤ) : Bytes := field 63 64 kv.1 ++ be32 (time32 kv.2)

/-- One operation on the blacklists: the result, the new lists and the listed entries. -/
def adminOp (env : Env) (op : UInt8) (key : Bytes) (a : AntiAbuse) :
    UInt8 × AntiAbuse × List (Bytes × ℤ) :=
  if op = 1 then
    match inetPton key with
    | none => (4, a, [])
    | some ip => (0, a.blacklistIp ip env.now, [])
  else if op = 2 then
    match inetPton key with
    | none => (4, a, [])
    | some ip =>
      let hit := a.isIpBlacklistedIp ip env.now
      if hit.1 then (0, hit.2.unblacklistIp ip, []) else (3, hit.2, [])
  else if op = 3 then
    if key.isEmpty ∨ key.length > maxUuidLen then (4, a, [])
    else (0, a.blacklistUuid key env.now, [])
  else if op = 4 then
    if key.isEmpty ∨ key.length > maxUuidLen then (4, a, [])
    else
      let hit := a.isUuidBlacklisted key env.now
      if hit.1 then (0, hit.2.unblacklistUuid key, []) else (3, hit.2, [])
  else if op = 5 then (0, a, (a.ipBlacklistSnapshot ++ a.uuidBlacklistSnapshot).take 28)
  else (2, a, [])

def adminRsp (result : UInt8) (ips uuids : ℕ) (entries : List (Bytes × ℤ)) : Bytes :=
  let body := (entries.map blacklistEntry).flatten
  [result] ++ be32 (UInt32.ofNat ips) ++ be32 (UInt32.ofNat uuids) ++
    [UInt8.ofNat entries.length] ++ body ++ List.replicate (28 * 68 - body.length) 0

def onAdminBlacklistReq (env : Env) (p : Bytes) (src : Addr) : Action := fun s =>
  if p.length < 97 then (s, [])
  else if s.cfg.adminSecret.isEmpty then sendMsg src msgAdminBlacklistRsp (adminRsp 1 0 0 []) s
  else if hmacSha256 s.cfg.adminSecret (window p 0 65) ≠ window p 65 32 then
    sendMsg src msgAdminBlacklistRsp (adminRsp 1 0 0 []) s
  else
    let r := adminOp env (byteAt p 0) (textAt p 1 64) s.abuse
    sendMsg src msgAdminBlacklistRsp
      (adminRsp r.1 r.2.1.ipBlack.size r.2.1.uuidBlack.size r.2.2) { s with abuse := r.2.1 }

def onSyncPeerEntry (env : Env) (p : Bytes) (src : Addr) : Action := fun s =>
  if p.length < syncPeerEntrySize then (s, [])
  else
    let e := SyncPeerEntry.read p
    let extlen := e.extlen.toNat
    if extlen > maxExtinfo ∨ p.length < syncPeerEntrySize + extlen then (s, [])
    else if !syncVerify s.cfg.syncAuthSecret p (syncPeerEntrySize + extlen) then (s, [])
    else handleSyncEntry env e (window p syncPeerEntrySize extlen) src s

def syncPeerDelSize : ℕ := 33

def onSyncPeerDel (p : Bytes) (src : Addr) : Action := fun s =>
  if p.length < syncPeerDelSize then (s, [])
  else if !syncVerify s.cfg.syncAuthSecret p syncPeerDelSize then (s, [])
  else handleSyncDel (uuidAt p 0) src s

def onSyncSnapshotReq (env : Env) (p : Bytes) (src : Addr) : Action := fun s =>
  if p.length < 4 then (s, [])
  else if !syncVerify s.cfg.syncAuthSecret p 4 then (s, [])
  else
    let skew := (time32 env.now - u32At p 0).toInt32
    if skew < -300 ∨ skew > 300 then (s, []) else handleSyncSnapshotReq src s

def onSpAskExtinfoRsp (env : Env) (p : Bytes) (src : Addr) : Action :=
  if p.length < 5 then skip
  else modify (collectProxyAvail env src ⟨byteAt p 0, u16At p 1, u16At p 3⟩)

/-- The dispatch on `msg_id`; unknown ids are only logged. -/
def dispatch (env : Env) (msgId : UInt8) (p : Bytes) (src : Addr) : Action :=
  if msgId = msgHeartbeatReq ∨ msgId = msgAddUidReq then onHeartbeatReq env p src
  else if msgId = msgHeartbeatReqEnc then onHeartbeatReqEnc env p src
  else if msgId = msgSndExtinfoReq ∨ msgId = msgAskExtinfoReq then onExtinfoReq env msgId p src
  else if msgId = msgConnectReq then onConnectReq env p src
  else if msgId = msgIceSdp then onIceSdp p
  else if msgId = msgGetDevListReq then onGetDevListReq p src
  else if msgId = msgGetServerListReq then onGetServerListReq src
  else if msgId = msgDeleteUidReq then onDeleteUidReq env p
  else if msgId = msgCheckUidReq then onCheckUidReq p src
  else if msgId = msgAuthChallengeReq then onAuthChallengeReq env p src
  else if msgId = msgAuthLoginReq then onAuthLoginReq env p src
  else if msgId = msgAdminStatsReq then onAdminStatsReq env src
  else if msgId = msgAdminBlacklistReq then onAdminBlacklistReq env p src
  else if msgId = msgSyncPeerEntry then onSyncPeerEntry env p src
  else if msgId = msgSyncPeerDel then onSyncPeerDel p src
  else if msgId = msgSyncSnapshotReq then onSyncSnapshotReq env p src
  else if msgId = msgSpAskExtinfoRsp then onSpAskExtinfoRsp env p src
  else skip

def handledMessages : List UInt8 :=
  [msgHeartbeatReq, msgAddUidReq, msgHeartbeatReqEnc, msgSndExtinfoReq, msgAskExtinfoReq,
    msgConnectReq, msgIceSdp, msgGetDevListReq, msgGetServerListReq, msgDeleteUidReq,
    msgCheckUidReq, msgAuthChallengeReq, msgAuthLoginReq, msgAdminStatsReq, msgAdminBlacklistReq,
    msgSyncPeerEntry, msgSyncPeerDel, msgSyncSnapshotReq, msgSpAskExtinfoRsp]

inductive Selects (env : Env) (p : Bytes) (src : Addr) : UInt8 → Action → Prop
  | heartbeat : Selects env p src msgHeartbeatReq (onHeartbeatReq env p src)
  | addUid : Selects env p src msgAddUidReq (onHeartbeatReq env p src)
  | heartbeatEnc : Selects env p src msgHeartbeatReqEnc (onHeartbeatReqEnc env p src)
  | sndExtinfo : Selects env p src msgSndExtinfoReq (onExtinfoReq env msgSndExtinfoReq p src)
  | askExtinfo : Selects env p src msgAskExtinfoReq (onExtinfoReq env msgAskExtinfoReq p src)
  | connect : Selects env p src msgConnectReq (onConnectReq env p src)
  | iceSdp : Selects env p src msgIceSdp (onIceSdp p)
  | getDevList : Selects env p src msgGetDevListReq (onGetDevListReq p src)
  | getServerList : Selects env p src msgGetServerListReq (onGetServerListReq src)
  | deleteUid : Selects env p src msgDeleteUidReq (onDeleteUidReq env p)
  | checkUid : Selects env p src msgCheckUidReq (onCheckUidReq p src)
  | authChallenge : Selects env p src msgAuthChallengeReq (onAuthChallengeReq env p src)
  | authLogin : Selects env p src msgAuthLoginReq (onAuthLoginReq env p src)
  | adminStats : Selects env p src msgAdminStatsReq (onAdminStatsReq env src)
  | adminBlacklist : Selects env p src msgAdminBlacklistReq (onAdminBlacklistReq env p src)
  | syncPeerEntry : Selects env p src msgSyncPeerEntry (onSyncPeerEntry env p src)
  | syncPeerDel : Selects env p src msgSyncPeerDel (onSyncPeerDel p src)
  | syncSnapshot : Selects env p src msgSyncSnapshotReq (onSyncSnapshotReq env p src)
  | spAskExtinfo : Selects env p src msgSpAskExtinfoRsp (onSpAskExtinfoRsp env p src)
  | other {msgId : UInt8} (h : msgId ∉ handledMessages) : Selects env p src msgId skip

theorem dispatch_selects (env : Env) (msgId : UInt8) (p : Bytes) (src : Addr) :
    Selects env p src msgId (dispatch env msgId p src) := by
  unfold dispatch
  by_cases hHb : msgId = msgHeartbeatReq ∨ msgId = msgAddUidReq
  · rw [if_pos hHb]
    rcases hHb with rfl | rfl
    · exact .heartbeat
    · exact .addUid
  rw [if_neg hHb]
  by_cases hEnc : msgId = msgHeartbeatReqEnc
  · subst hEnc
    rw [if_pos rfl]
    exact .heartbeatEnc
  rw [if_neg hEnc]
  by_cases hExt : msgId = msgSndExtinfoReq ∨ msgId = msgAskExtinfoReq
  · rw [if_pos hExt]
    rcases hExt with rfl | rfl
    · exact .sndExtinfo
    · exact .askExtinfo
  rw [if_neg hExt]
  by_cases hConn : msgId = msgConnectReq
  · subst hConn
    rw [if_pos rfl]
    exact .connect
  rw [if_neg hConn]
  by_cases hIce : msgId = msgIceSdp
  · subst hIce
    rw [if_pos rfl]
    exact .iceSdp
  rw [if_neg hIce]
  by_cases hDev : msgId = msgGetDevListReq
  · subst hDev
    rw [if_pos rfl]
    exact .getDevList
  rw [if_neg hDev]
  by_cases hSrv : msgId = msgGetServerListReq
  · subst hSrv
    rw [if_pos rfl]
    exact .getServerList
  rw [if_neg hSrv]
  by_cases hDel : msgId = msgDeleteUidReq
  · subst hDel
    rw [if_pos rfl]
    exact .deleteUid
  rw [if_neg hDel]
  by_cases hChk : msgId = msgCheckUidReq
  · subst hChk
    rw [if_pos rfl]
    exact .checkUid
  rw [if_neg hChk]
  by_cases hChal : msgId = msgAuthChallengeReq
  · subst hChal
    rw [if_pos rfl]
    exact .authChallenge
  rw [if_neg hChal]
  by_cases hLog : msgId = msgAuthLoginReq
  · subst hLog
    rw [if_pos rfl]
    exact .authLogin
  rw [if_neg hLog]
  by_cases hStat : msgId = msgAdminStatsReq
  · subst hStat
    rw [if_pos rfl]
    exact .adminStats
  rw [if_neg hStat]
  by_cases hBlk : msgId = msgAdminBlacklistReq
  · subst hBlk
    rw [if_pos rfl]
    exact .adminBlacklist
  rw [if_neg hBlk]
  by_cases hEnt : msgId = msgSyncPeerEntry
  · subst hEnt
    rw [if_pos rfl]
    exact .syncPeerEntry
  rw [if_neg hEnt]
  by_cases hSd : msgId = msgSyncPeerDel
  · subst hSd
    rw [if_pos rfl]
    exact .syncPeerDel
  rw [if_neg hSd]
  by_cases hSnap : msgId = msgSyncSnapshotReq
  · subst hSnap
    rw [if_pos rfl]
    exact .syncSnapshot
  rw [if_neg hSnap]
  by_cases hSp : msgId = msgSpAskExtinfoRsp
  · subst hSp
    rw [if_pos rfl]
    exact .spAskExtinfo
  rw [if_neg hSp]
  have hnone : msgId ∉ handledMessages := by
    rw [not_or] at hHb hExt
    simp [handledMessages, *]
  exact .other hnone

/-- The message id and payload of a datagram that passes the header checks. -/
def readDatagram (data : Bytes) : Option (UInt8 × Bytes) :=
  match codecReadHead data with
  | none => none
  | some h =>
    if h.length.toNat > data.length - 8 then none else some (h.msgId, window data 8 h.length.toNat)

def handlePacket (env : Env) (data : Bytes) (src : Addr) : Action := fun s =>
  match readDatagram data with
  | none => (s, [])
  | some (msgId, p) => dispatch env msgId p src s

theorem readDatagram_datagram (msgId : UInt8) {payload : Bytes} (h : payload.length < 4294967296) :
    readDatagram (datagram msgId payload) = some (msgId, payload) := by
  have hn : (UInt32.ofNat payload.length).toNat = payload.length := by
    rw [UInt32.toNat_ofNat']
    omega
  rw [readDatagram, datagram, codecReadHead_write]
  simp only [hn, List.length_append, codecWriteHead_length]
  rw [if_neg (by omega), window, List.drop_left' (codecWriteHead_length _ _), List.take_length]

theorem readDatagram_id {id id' : UInt8} {payload p : Bytes}
    (h : readDatagram (datagram id payload) = some (id', p)) : id' = id := by
  rw [readDatagram, datagram, codecReadHead_write] at h
  dsimp only at h
  split at h
  · cases h
  · rw [Option.some.injEq, Prod.mk.injEq] at h
    exact h.1.symm

end P2PServer.NatServer
