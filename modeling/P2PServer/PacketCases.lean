import P2PServer.Registry

/-! What a packet can do to a server. Most messages only ask for something and leave
the configuration, the registry, the licenses, the nonces and the seen entries alone.
`Handled` lists the others with what the packet handler passes on. -/
namespace P2PServer.PacketCases
open ByteStrings ProtoDef Net NatServer Effects SyncCluster Registry

/-- The part of a server that questions leave alone. -/
structure Core where
  cfg : CfgData
  syncOn : Bool
  syncAddrs : List Addr
  peers : PeerManager
  license : LicenseMgr
  authNonces : Std.ExtTreeMap Bytes (Bytes × ℤ)
  syncSeen : Std.ExtTreeMap Bytes ℤ

def core (s : NatServer) : Core :=
  ⟨s.cfg, s.syncOn, s.syncAddrs, s.peers, s.license, s.authNonces, s.syncSeen⟩

/-- The request, the extension text and the iv that a heartbeat hands to
`handle_heartbeat`. -/
def heartbeatOf (secret : Bytes) (msgId : UInt8) (p : Bytes) :
    Option (UuidReq × Bytes × Option Bytes) :=
  if msgId = msgHeartbeatReq ∨ msgId = msgAddUidReq then
    if p.length < uuidReqSize then none
    else
      let extlen := (UuidReq.read p).extlen.toNat
      some (UuidReq.read p, if 0 < extlen ∧ extlen ≤ maxExtinfo ∧ uuidReqSize + extlen ≤ p.length then
        window p uuidReqSize extlen else [], none)
  else if msgId = msgHeartbeatReqEnc then
    if p.length < 33 + 8 + uuidReqSize then none
    else
      let ext := p.length - 41 - uuidReqSize
      some (encryptedReq secret p, if ext ≤ maxExtinfo then
        window (heartbeatBody secret p) uuidReqSize ext else [], some (window p 33 8))
  else none

/-- The entry and the extension text that are handed to `handle_sync_entry`. -/
def entryOf (secret p : Bytes) : Option (SyncPeerEntry × Bytes) :=
  if p.length < syncPeerEntrySize then none
  else
    let e := SyncPeerEntry.read p
    let extlen := e.extlen.toNat
    if extlen > maxExtinfo ∨ p.length < syncPeerEntrySize + extlen then none
    else if !syncVerify secret p (syncPeerEntrySize + extlen) then none
    else some (e, window p syncPeerEntrySize extlen)

theorem entryOf_eq_some {secret p : Bytes} {e : SyncPeerEntry} {extinfo : Bytes} :
    entryOf secret p = some (e, extinfo) ↔
      e = SyncPeerEntry.read p ∧ extinfo = window p syncPeerEntrySize e.extlen.toNat ∧
        e.extlen.toNat ≤ maxExtinfo ∧ syncPeerEntrySize + e.extlen.toNat ≤ p.length ∧
        syncVerify secret p (syncPeerEntrySize + e.extlen.toNat) = true := by
  unfold entryOf
  constructor
  · intro h
    split at h
    · cases h
    · dsimp only at h
      split at h
      · cases h
      · rename_i hlen
        split at h
        · cases h
        · rename_i hv
          cases h
          exact ⟨rfl, rfl, by omega, by omega, by simpa using hv⟩
  · rintro ⟨rfl, rfl, hmax, hlen, hv⟩
    rw [if_neg (by omega)]
    dsimp only
    rw [if_neg (by omega), hv]
    rfl

/-- The uuid that is handed to `handle_sync_del`. -/
def deletionOf (secret p : Bytes) : Option Bytes :=
  if p.length < syncPeerDelSize then none
  else if !syncVerify secret p syncPeerDelSize then none
  else some (uuidAt p 0)

/-- The time stamp of a request that reaches `handle_sync_snapshot_req`. -/
def snapshotOf (secret : Bytes) (now : ℤ) (p : Bytes) : Option UInt32 :=
  if p.length < 4 then none
  else if !syncVerify secret p 4 then none
  else
    let skew := (time32 now - u32At p 0).toInt32
    if skew < -300 ∨ skew > 300 then none else some (u32At p 0)

/-- The output is not a message of the synchronisation. -/
def Plain (o : Out) : Prop := ∀ dst data, o = .send dst data → isSync data = false

/-- The messages that are never mere questions. A short `MSG_SND_EXTINFO_REQ` is one. -/
def actions : List UInt8 :=
  [msgHeartbeatReq, msgAddUidReq, msgHeartbeatReqEnc, msgConnectReq, msgDeleteUidReq,
    msgAuthChallengeReq, msgAuthLoginReq, msgSyncPeerEntry, msgSyncPeerDel, msgSyncSnapshotReq]

/-- The ways in which a message is handled. -/
inductive Handled (env : Env) (msgId : UInt8) (p : Bytes) (src : Addr) (s : NatServer) :
    NatServer × List Out → Prop
  | ignored : Handled env msgId p src s (s, [])
  | heartbeat {req : UuidReq} {extinfo : Bytes} {enc : Option Bytes}
      (h : heartbeatOf s.cfg.authSecret msgId p = some (req, extinfo, enc)) :
      Handled env msgId p src s (handleHeartbeat env req extinfo src enc s)
  | sndExtinfo (hid : msgId = msgSndExtinfoReq) (hlen : 33 ≤ p.length) :
      Handled env msgId p src s (onSndExtinfoReq env p s)
  | connect (hid : msgId = msgConnectReq) : Handled env msgId p src s (onConnectReq env p src s)
  | deleteUid (hid : msgId = msgDeleteUidReq) :
      Handled env msgId p src s (onDeleteUidReq env p s)
  | challenge (hid : msgId = msgAuthChallengeReq) :
      Handled env msgId p src s (onAuthChallengeReq env p src s)
  | login (hid : msgId = msgAuthLoginReq) (hlen : authLoginReqSize ≤ p.length) :
      Handled env msgId p src s (onAuthLoginReq env p src s)
  | entry (hid : msgId = msgSyncPeerEntry) {e : SyncPeerEntry} {extinfo : Bytes}
      (h : entryOf s.cfg.syncAuthSecret p = some (e, extinfo)) :
      Handled env msgId p src s (handleSyncEntry env e extinfo src s)
  | del (hid : msgId = msgSyncPeerDel) {uuid : Bytes}
      (h : deletionOf s.cfg.syncAuthSecret p = some uuid) :
      Handled env msgId p src s (handleSyncDel uuid src s)
  | snapshot (hid : msgId = msgSyncSnapshotReq) {ts : UInt32}
      (h : snapshotOf s.cfg.syncAuthSecret env.now p = some ts) :
      Handled env msgId p src s (handleSyncSnapshotReq src s)
  | other {r : NatServer × List Out} (hid : msgId ∉ actions) (hcore : core r.1 = core s)
      (hplain : ∀ o ∈ r.2, Plain o) : Handled env msgId p src s r

theorem onHeartbeatReq_handed (env : Env) {msgId : UInt8} (p : Bytes) (src : Addr) (s : NatServer)
    (hid : msgId = msgHeartbeatReq ∨ msgId = msgAddUidReq) :
    onHeartbeatReq env p src s = match heartbeatOf s.cfg.authSecret msgId p with
      | some (req, extinfo, enc) => handleHeartbeat env req extinfo src enc s
      | none => (s, []) := by
  unfold onHeartbeatReq heartbeatOf
  rw [if_pos hid]
  by_cases hl : p.length < uuidReqSize
  · rw [if_pos hl, if_pos hl]
    rfl
  · rw [if_neg hl, if_neg hl]

theorem onHeartbeatReqEnc_handed (env : Env) (p : Bytes) (src : Addr) (s : NatServer) :
    onHeartbeatReqEnc env p src s =
      match heartbeatOf s.cfg.authSecret msgHeartbeatReqEnc p with
      | some (req, extinfo, enc) => handleHeartbeat env req extinfo src enc s
      | none => (s, []) := by
  have hid : ¬(msgHeartbeatReqEnc = msgHeartbeatReq ∨ msgHeartbeatReqEnc = msgAddUidReq) := by decide
  unfold onHeartbeatReqEnc heartbeatOf
  rw [if_neg hid, if_pos rfl]
  by_cases hl : p.length < 33 + 8 + uuidReqSize
  · rw [if_pos hl, if_pos hl]
  · rw [if_neg hl, if_neg hl]

theorem onSyncPeerEntry_handed (env : Env) (p : Bytes) (src : Addr) (s : NatServer) :
    onSyncPeerEntry env p src s = match entryOf s.cfg.syncAuthSecret p with
      | some (e, extinfo) => handleSyncEntry env e extinfo src s
      | none => (s, []) := by
  unfold onSyncPeerEntry entryOf
  dsimp only
  split
  · rfl
  · split
    · rfl
    · split <;> rfl

theorem onSyncPeerDel_handed (p : Bytes) (src : Addr) (s : NatServer) :
    onSyncPeerDel p src s = match deletionOf s.cfg.syncAuthSecret p with
      | some uuid => handleSyncDel uuid src s
      | none => (s, []) := by
  unfold onSyncPeerDel deletionOf
  split
  · rfl
  · split <;> rfl

theorem elim_guard {α β : Type} (c : Prop) [Decidable c] (a : α) (x y : β) :
    (if c then none else some a : Option α).elim y (fun _ => x) = if c then y else x := by
  split <;> rfl

theorem onSyncSnapshotReq_handed (env : Env) (p : Bytes) (src : Addr) (s : NatServer) :
    onSyncSnapshotReq env p src s = (snapshotOf s.cfg.syncAuthSecret env.now p).elim (s, [])
      fun _ => handleSyncSnapshotReq src s := by
  unfold onSyncSnapshotReq snapshotOf
  by_cases hl : p.length < 4
  · rw [if_pos hl, if_pos hl]
    rfl
  · rw [if_neg hl, if_neg hl]
    by_cases hv : (!syncVerify s.cfg.syncAuthSecret p 4) = true
    · rw [if_pos hv, if_pos hv]
      rfl
    · rw [if_neg hv, if_neg hv]
      exact (elim_guard _ _ _ _).symm

theorem isSync_datagram (msgId : UInt8) {payload : Bytes} (h : payload.length < 4294967296) :
    isSync (datagram msgId payload) = syncMessages.contains msgId := by
  rw [isSync, readDatagram_datagram msgId h]

theorem sendMsg_plain {dst : Addr} {msgId : UInt8} {payload : Bytes} {s : NatServer}
    (h : syncMessages.contains msgId = false) : ∀ o ∈ (sendMsg dst msgId payload s).2, Plain o := by
  intro o ho dst' data hd
  unfold sendMsg at ho
  split at ho
  · simp [skip] at ho
  · rename_i hl
    simp only [emit, List.mem_singleton] at ho
    rw [ho, Out.send.injEq] at hd
    have hlt : payload.length < 4294967296 := by
      unfold maxPkt at hl
      omega
    rw [← hd.2, isSync_datagram msgId hlt, h]

theorem Handled.answer {env : Env} {msgId : UInt8} {p : Bytes} {src : Addr} {s : NatServer}
    {dst : Addr} {rspId : UInt8} {payload : Bytes} (hid : msgId ∉ actions)
    (h : syncMessages.contains rspId = false) :
    Handled env msgId p src s (sendMsg dst rspId payload s) :=
  .other hid (by rw [sendMsg_fst]) (sendMsg_plain h)

variable {env : Env} {msgId : UInt8} {p : Bytes} {src : Addr} {s : NatServer}

theorem handled_askExtinfo (hid : msgId ∉ actions) :
    Handled env msgId p src s (onAskExtinfoReq p src s) := by
  unfold onAskExtinfoReq
  dsimp only
  split
  · exact .answer hid rfl
  · split <;> exact .answer hid rfl

theorem handled_iceSdp (hid : msgId ∉ actions) : Handled env msgId p src s (onIceSdp p s) := by
  unfold onIceSdp
  dsimp only
  split
  · exact .ignored
  · split
    · exact .ignored
    · split
      · exact .ignored
      · exact .answer hid rfl

theorem handled_adminBlacklist (hid : msgId ∉ actions) :
    Handled env msgId p src s (onAdminBlacklistReq env p src s) := by
  unfold onAdminBlacklistReq
  by_cases hl : p.length < 97
  · rw [if_pos hl]
    exact .ignored
  · rw [if_neg hl]
    by_cases hs : s.cfg.adminSecret.isEmpty = true
    · rw [if_pos hs]
      exact .answer hid rfl
    · rw [if_neg hs]
      by_cases hm : Crypto.hmacSha256 s.cfg.adminSecret (window p 0 65) ≠ window p 65 32
      · rw [if_pos hm]
        exact .answer hid rfl
      · rw [if_neg hm]
        exact .other hid (by rw [sendMsg_fst]; rfl) (sendMsg_plain rfl)

theorem handled_spAskExtinfoRsp (hid : msgId ∉ actions) :
    Handled env msgId p src s (onSpAskExtinfoRsp env p src s) := by
  have hc : ∀ rsp, core (collectProxyAvail env src rsp s) = core s := by
    intro rsp
    unfold collectProxyAvail
    dsimp only
    split <;> rfl
  unfold onSpAskExtinfoRsp
  split
  · exact .ignored
  · exact .other hid (hc _) fun o ho => by cases ho

theorem handled_heartbeat (hid : msgId = msgHeartbeatReq ∨ msgId = msgAddUidReq) :
    Handled env msgId p src s (onHeartbeatReq env p src s) := by
  rw [onHeartbeatReq_handed env p src s hid]
  split
  · exact .heartbeat ‹_›
  · exact .ignored

theorem handled_heartbeatEnc (hid : msgId = msgHeartbeatReqEnc) :
    Handled env msgId p src s (onHeartbeatReqEnc env p src s) := by
  rw [onHeartbeatReqEnc_handed]
  split
  · exact .heartbeat (hid ▸ ‹_›)
  · exact .ignored

theorem handled_login (hid : msgId = msgAuthLoginReq) :
    Handled env msgId p src s (onAuthLoginReq env p src s) := by
  by_cases hl : p.length < authLoginReqSize
  · rw [onAuthLoginReq, if_pos hl]
    exact .ignored
  · exact .login hid (by omega)

theorem handled_entry (hid : msgId = msgSyncPeerEntry) :
    Handled env msgId p src s (onSyncPeerEntry env p src s) := by
  rw [onSyncPeerEntry_handed]
  split
  · exact .entry hid ‹_›
  · exact .ignored

theorem handled_del (hid : msgId = msgSyncPeerDel) :
    Handled env msgId p src s (onSyncPeerDel p src s) := by
  rw [onSyncPeerDel_handed]
  split
  · exact .del hid ‹_›
  · exact .ignored

theorem handled_snapshot (hid : msgId = msgSyncSnapshotReq) :
    Handled env msgId p src s (onSyncSnapshotReq env p src s) := by
  rw [onSyncSnapshotReq_handed]
  cases h : snapshotOf s.cfg.syncAuthSecret env.now p with
  | none => exact .ignored
  | some ts => exact .snapshot hid h

theorem dispatch_handled (env : Env) (msgId : UInt8) (p : Bytes) (src : Addr) (s : NatServer) :
    Handled env msgId p src s (dispatch env msgId p src s) := by
  have hways := dispatch_selects env msgId p src
  generalize dispatch env msgId p src = f at hways ⊢
  cases hways with
  | heartbeat => exact handled_heartbeat (.inl rfl)
  | addUid => exact handled_heartbeat (.inr rfl)
  | heartbeatEnc => exact handled_heartbeatEnc rfl
  | sndExtinfo =>
    unfold onExtinfoReq
    by_cases hlen : p.length ≥ 33
    · rw [if_pos ⟨rfl, hlen⟩]
      exact .sndExtinfo rfl hlen
    · rw [if_neg fun h => hlen h.2]
      exact handled_askExtinfo (by decide)
  | askExtinfo =>
    rw [onExtinfoReq, if_neg fun h => absurd h.1 (by decide)]
    exact handled_askExtinfo (by decide)
  | connect => exact .connect rfl
  | iceSdp => exact handled_iceSdp (by decide)
  | getDevList => exact .answer (by decide) rfl
  | getServerList => exact .answer (by decide) rfl
  | deleteUid => exact .deleteUid rfl
  | checkUid => exact .answer (by decide) rfl
  | authChallenge => exact .challenge rfl
  | authLogin => exact handled_login rfl
  | adminStats => exact .answer (by decide) rfl
  | adminBlacklist => exact handled_adminBlacklist (by decide)
  | syncPeerEntry => exact handled_entry rfl
  | syncPeerDel => exact handled_del rfl
  | syncSnapshot => exact handled_snapshot rfl
  | spAskExtinfo => exact handled_spAskExtinfoRsp (by decide)
  | other => exact .ignored

end P2PServer.PacketCases
