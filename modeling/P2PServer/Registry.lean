import P2PServer.SyncCluster

/-! What packets and the timer do to the heartbeat times of a server's registry. A
packet changes at most one record, and `change` says which and how. -/
namespace P2PServer.Registry
open ByteStrings ProtoDef Net NatServer Effects SyncCluster

/-- The registry as the time of the last heartbeat of every registered uuid. -/
def heartbeats (m : PeerManager) : Bytes → Option ℤ := fun u => m.peers[u]?.map (·.lastHeartbeat)

inductive Change
  | keep
  | set (uuid : Bytes) (hb : ℤ)
  | erase (uuid : Bytes)
  deriving DecidableEq, Repr

def Change.apply : Change → (Bytes → Option ℤ) → Bytes → Option ℤ
  | keep, r => r
  | set uuid hb, r => Function.update r uuid (some hb)
  | erase uuid, r => Function.update r uuid none

theorem heartbeats_insert (m : PeerManager) (sessions : Std.ExtTreeMap Bytes ℤ) (uuid : Bytes)
    (p : Peer) :
    heartbeats ⟨m.peers.insert uuid p, sessions⟩ =
      (Change.set uuid p.lastHeartbeat).apply (heartbeats m) := by
  funext u
  by_cases h : u = uuid
  · subst h
    simp [heartbeats, Change.apply]
  · have hc : ¬compare uuid u = .eq := fun hc => h (Std.LawfulEqOrd.compare_eq_iff_eq.mp hc).symm
    simp [heartbeats, Change.apply, Std.ExtTreeMap.getElem?_insert, h, hc]

theorem heartbeats_upsert (m : PeerManager) (uuid : Bytes) (pub lan : Addr)
    (devType nattype : UInt8) (extinfo : Bytes) (now : ℤ) :
    heartbeats (m.upsert uuid pub lan devType nattype extinfo now).2 =
      (if PeerManager.validUuid uuid then Change.set uuid now else .keep).apply (heartbeats m) := by
  unfold PeerManager.upsert
  cases hv : PeerManager.validUuid uuid with
  | false => rfl
  | true =>
    simp only [Bool.not_true, Bool.false_eq_true, if_false, if_true, heartbeats_insert]
    split <;> rfl

theorem heartbeats_upsertSynced (m : PeerManager) (uuid : Bytes) (pub lan : Addr)
    (devType nattype : UInt8) (extinfo : Bytes) (hbTime : ℤ) :
    heartbeats (m.upsertSynced uuid pub lan devType nattype extinfo hbTime).2 =
      (if PeerManager.validUuid uuid then Change.set uuid hbTime else .keep).apply
        (heartbeats m) := by
  unfold PeerManager.upsertSynced
  cases hv : PeerManager.validUuid uuid with
  | false => rfl
  | true =>
    simp only [Bool.not_true, Bool.false_eq_true, if_false, if_true, heartbeats_insert]
    split <;> rfl

theorem heartbeats_remove (m : PeerManager) (uuid : Bytes) :
    heartbeats (m.remove uuid).2 = (Change.erase uuid).apply (heartbeats m) := by
  funext u
  by_cases h : u = uuid
  · subst h
    simp [heartbeats, Change.apply, PeerManager.remove]
  · have hc : ¬compare uuid u = .eq := fun hc => h (Std.LawfulEqOrd.compare_eq_iff_eq.mp hc).symm
    simp [heartbeats, Change.apply, PeerManager.remove, Std.ExtTreeMap.getElem?_erase, h, hc]

theorem heartbeats_setAuthExpire (m : PeerManager) (uuid : Bytes) (expire : ℤ) :
    heartbeats (m.setAuthExpire uuid expire) = heartbeats m := by
  unfold PeerManager.setAuthExpire
  split
  · rename_i p hp
    rw [heartbeats_insert]
    funext u
    by_cases h : u = uuid
    · subst h
      simp [Change.apply, heartbeats, hp]
    · simp [Change.apply, h, heartbeats]
  · rfl

theorem heartbeats_cleanup (m : PeerManager) (now : ℤ) (u : Bytes) :
    heartbeats (m.cleanupTimeoutAndCollect 90 now).2 u =
      (heartbeats m u).filter fun hb => !decide (now - hb > 90) := by
  simp only [heartbeats, PeerManager.cleanupTimeoutAndCollect, Std.ExtTreeMap.getElem?_filter]
  cases m.peers[u]? with
  | none => rfl
  | some p => cases h : PeerManager.timedOut 90 now p <;> simp_all [PeerManager.timedOut, Option.filter]

@[simp] theorem sendMsg_fst (dst : Addr) (msgId : UInt8) (payload : Bytes) (s : NatServer) :
    (sendMsg dst msgId payload s).1 = s := by
  unfold sendMsg
  split <;> rfl

@[simp] theorem syncSendMsg_fst (dst : Addr) (msgId : UInt8) (payload : Bytes) (s : NatServer) :
    (syncSendMsg dst msgId payload s).1 = s := by
  unfold syncSendMsg
  split <;> simp

theorem forEach_fst {α : Type} {f : α → Action} (h : ∀ a s, (f a s).1 = s) (as : List α)
    (s : NatServer) : (forEach f as s).1 = s :=
  Keeps.forEach (π := id) h as s

@[simp] theorem broadcastSyncMsg_fst (msgId : UInt8) (payload : Bytes) (except : Option Addr)
    (s : NatServer) : (broadcastSyncMsg msgId payload except s).1 = s := by
  apply forEach_fst
  intro a s
  split
  · rfl
  · exact syncSendMsg_fst a msgId payload s

@[simp] theorem sendPeerEntry_fst (dst : Addr) (p : Peer) (hop : UInt8) (s : NatServer) :
    (sendPeerEntry dst p hop s).1 = s := by simp [sendPeerEntry]

@[simp] theorem broadcastPeerEntry_fst (env : Env) (req : UuidReq) (extinfo : Bytes) (pub : Addr)
    (s : NatServer) : (broadcastPeerEntry env req extinfo pub s).1 = s := by
  unfold broadcastPeerEntry
  split
  · rfl
  · exact forEach_fst (fun a s => sendPeerEntry_fst a _ _ s) _ s

@[simp] theorem sendHeartbeatRsp_fst (dst : Addr) (uuidRaw : Bytes) (rsp : ExtInfoRsp)
    (enc : Option Bytes) (s : NatServer) : (sendHeartbeatRsp dst uuidRaw rsp enc s).1 = s := by
  unfold sendHeartbeatRsp
  cases enc <;> simp

/-- A heartbeat that passes the gates registers its uuid, unless that is empty. -/
def heartbeatChange (env : Env) (uuid : Bytes) (s : NatServer) : Change :=
  if (heartbeatGate env uuid s).1 = 0 ∧ PeerManager.validUuid uuid then .set uuid env.now
  else .keep

theorem heartbeatGate_peers (env : Env) (uuid : Bytes) (s : NatServer) :
    (heartbeatGate env uuid s).2.peers = s.peers := by
  unfold heartbeatGate
  split
  · rfl
  · dsimp only
    split <;> rfl

theorem handleHeartbeat_heartbeats (env : Env) (req : UuidReq) (extinfo : Bytes) (src : Addr)
    (enc : Option Bytes) (s : NatServer) :
    heartbeats (handleHeartbeat env req extinfo src enc s).1.peers =
      (heartbeatChange env req.uuid s).apply (heartbeats s.peers) := by
  unfold handleHeartbeat heartbeatChange
  by_cases hg : (heartbeatGate env req.uuid s).1 = 0
  · simp only [hg, ne_eq, not_true_eq_false, if_false, andThen, Effects.modify,
      broadcastPeerEntry_fst, sendHeartbeatRsp_fst, heartbeats_upsert, heartbeatGate_peers, true_and]
  · simp only [hg, ne_eq, not_false_eq_true, if_true, sendHeartbeatRsp_fst, heartbeatGate_peers,
      false_and, if_false]
    rfl

/-- The uuid of a message that asks for a registration: a heartbeat in either format. -/
def heartbeatUuid (msgId : UInt8) (p : Bytes) (s : NatServer) : Option Bytes :=
  if msgId = msgHeartbeatReq ∨ msgId = msgAddUidReq then
    if p.length < uuidReqSize then none else some (UuidReq.read p).uuid
  else if msgId = msgHeartbeatReqEnc then
    if p.length < 33 + 8 + uuidReqSize then none
    else some (encryptedReq s.cfg.authSecret p).uuid
  else none

def sndExtinfoChange (env : Env) (p : Bytes) (s : NatServer) : Change :=
  match s.peers.get (uuidAt p 0) with
  | none => .keep
  | some self => if PeerManager.validUuid self.uuid then .set self.uuid env.now else .keep

theorem onSndExtinfoReq_heartbeats (env : Env) (p : Bytes) (s : NatServer) :
    heartbeats (onSndExtinfoReq env p s).1.peers =
      (sndExtinfoChange env p s).apply (heartbeats s.peers) := by
  unfold onSndExtinfoReq sndExtinfoChange
  cases hg : s.peers.get (uuidAt p 0) with
  | none =>
    simp only [hg]
    rfl
  | some self =>
    simp only [hg]
    split <;> simp only [sendMsg_fst, heartbeats_upsert]

theorem seenSyncEntry_peers (env : Env) (uuid : Bytes) (hbTime : UInt32) (src : Addr)
    (s : NatServer) : (seenSyncEntry env uuid hbTime src s).2.peers = s.peers := by
  unfold seenSyncEntry
  simp only [apply_ite Prod.snd, apply_ite NatServer.peers, ite_self]

/-- The entry is neither nameless nor seen before, so it is stored. -/
def entryFresh (env : Env) (e : SyncPeerEntry) (src : Addr) (s : NatServer) : Bool :=
  PeerManager.validUuid e.uuid &&
    (decide (e.hop = syncHopSnap) || !(seenSyncEntry env e.uuid e.hbTime src s).1)

theorem handleSyncEntry_heartbeats (env : Env) (e : SyncPeerEntry) (extinfo : Bytes) (src : Addr)
    (s : NatServer) :
    heartbeats (handleSyncEntry env e extinfo src s).1.peers =
      (if s.syncEnabled && entryFresh env e src s then Change.set e.uuid e.hbTime.toNat
      else .keep).apply (heartbeats s.peers) := by
  unfold handleSyncEntry entryFresh
  by_cases hs : s.syncEnabled = true
  · by_cases hu : e.uuid.isEmpty = true
    · have hv : PeerManager.validUuid e.uuid = false := by simp [PeerManager.validUuid, hu]
      simp only [hs, hu, hv, Bool.not_true, Bool.false_eq_true, if_false, if_true, Bool.false_and,
        Bool.and_false]
      rfl
    · simp only [hs, hu, Bool.not_true, Bool.false_eq_true, if_false, Bool.true_and]
      by_cases hh : e.hop = syncHopSnap
      · simp [hh, heartbeats_upsertSynced]
      · cases hseen : (seenSyncEntry env e.uuid e.hbTime src s).1 with
        | true =>
          simp only [hh, ne_eq, not_false_eq_true, if_true, hseen, seenSyncEntry_peers, decide_false,
            Bool.not_true, Bool.or_false, Bool.and_false, Bool.false_eq_true, if_false]
          rfl
        | false =>
          simp only [hh, ne_eq, not_false_eq_true, if_true, hseen, true_and, decide_false,
            Bool.not_false, Bool.or_true, Bool.and_true, Bool.false_eq_true, if_false]
          split <;> simp only [broadcastSyncMsg_fst, heartbeats_upsertSynced, seenSyncEntry_peers]
  · simp only [hs, Bool.not_false, if_true, Bool.false_and, Bool.false_eq_true, if_false]
    rfl

/-- The entry in the payload passes the length and MAC checks of the packet handler. -/
def entryAuthentic (p : Bytes) (s : NatServer) : Bool :=
  let body := syncPeerEntrySize + (SyncPeerEntry.read p).extlen.toNat
  decide (syncPeerEntrySize ≤ p.length ∧ (SyncPeerEntry.read p).extlen.toNat ≤ maxExtinfo ∧
    body ≤ p.length) && syncVerify s.cfg.syncAuthSecret p body

def entryChange (env : Env) (p : Bytes) (src : Addr) (s : NatServer) : Change :=
  let e := SyncPeerEntry.read p
  if entryAuthentic p s && (s.syncEnabled && entryFresh env e src s) then
    .set e.uuid e.hbTime.toNat
  else .keep

theorem onSyncPeerEntry_heartbeats (env : Env) (p : Bytes) (src : Addr) (s : NatServer) :
    heartbeats (onSyncPeerEntry env p src s).1.peers =
      (entryChange env p src s).apply (heartbeats s.peers) := by
  unfold onSyncPeerEntry entryChange entryAuthentic
  by_cases hl : p.length < syncPeerEntrySize
  · have hn : ¬syncPeerEntrySize ≤ p.length := by omega
    simp only [hl, hn, if_true, false_and, decide_false, Bool.false_and, Bool.false_eq_true, if_false]
    rfl
  · have hn : syncPeerEntrySize ≤ p.length := by omega
    by_cases he : (SyncPeerEntry.read p).extlen.toNat > maxExtinfo ∨
        p.length < syncPeerEntrySize + (SyncPeerEntry.read p).extlen.toNat
    · have hb : ¬((SyncPeerEntry.read p).extlen.toNat ≤ maxExtinfo ∧
          syncPeerEntrySize + (SyncPeerEntry.read p).extlen.toNat ≤ p.length) := by omega
      simp only [hl, he, hb, if_true, if_false, and_false, decide_false, Bool.false_and,
        Bool.false_eq_true]
      rfl
    · have hb : (SyncPeerEntry.read p).extlen.toNat ≤ maxExtinfo ∧
          syncPeerEntrySize + (SyncPeerEntry.read p).extlen.toNat ≤ p.length := by omega
      simp only [hl, he, if_false, hn, hb, and_self, decide_true, Bool.true_and]
      cases syncVerify s.cfg.syncAuthSecret p
          (syncPeerEntrySize + (SyncPeerEntry.read p).extlen.toNat) with
      | false => rfl
      | true =>
        simp only [Bool.not_true, Bool.false_eq_true, if_false, Bool.true_and,
          handleSyncEntry_heartbeats]

def change (env : Env) (msgId : UInt8) (p : Bytes) (src : Addr) (s : NatServer) : Change :=
  match heartbeatUuid msgId p s with
  | some uuid => heartbeatChange env uuid s
  | none =>
    if msgId = msgSndExtinfoReq ∧ p.length ≥ 33 then sndExtinfoChange env p s
    else if msgId = msgDeleteUidReq then .erase (deleteUuid p)
    else if msgId = msgSyncPeerEntry then entryChange env p src s
    else if msgId = msgSyncPeerDel then
      if accepts s p then .erase (uuidAt p 0) else .keep
    else .keep

theorem onHeartbeatReq_heartbeats (env : Env) (p : Bytes) (src : Addr) (s : NatServer) :
    heartbeats (onHeartbeatReq env p src s).1.peers =
      (if p.length < uuidReqSize then Change.keep
      else heartbeatChange env (UuidReq.read p).uuid s).apply (heartbeats s.peers) := by
  unfold onHeartbeatReq
  split
  · rfl
  · exact handleHeartbeat_heartbeats env _ _ src none s

theorem onHeartbeatReqEnc_heartbeats (env : Env) (p : Bytes) (src : Addr) (s : NatServer) :
    heartbeats (onHeartbeatReqEnc env p src s).1.peers =
      (if p.length < 33 + 8 + uuidReqSize then Change.keep
      else heartbeatChange env (encryptedReq s.cfg.authSecret p).uuid s).apply
        (heartbeats s.peers) := by
  unfold onHeartbeatReqEnc
  split
  · rfl
  · exact handleHeartbeat_heartbeats env _ _ src _ s

theorem onDeleteUidReq_heartbeats (env : Env) (p : Bytes) (s : NatServer) :
    heartbeats (onDeleteUidReq env p s).1.peers =
      (Change.erase (deleteUuid p)).apply (heartbeats s.peers) := by
  rw [← heartbeats_remove]
  unfold onDeleteUidReq saveLicense
  dsimp only
  split
  · split <;> rfl
  · rfl

theorem onSyncPeerDel_heartbeats (p : Bytes) (src : Addr) (s : NatServer) :
    heartbeats (onSyncPeerDel p src s).1.peers =
      (if accepts s p then Change.erase (uuidAt p 0) else .keep).apply (heartbeats s.peers) := by
  rw [onSyncPeerDel_eq]
  split
  · exact heartbeats_remove s.peers _
  · rfl

theorem onAskExtinfoReq_peers (p : Bytes) (src : Addr) (s : NatServer) :
    (onAskExtinfoReq p src s).1.peers = s.peers := by
  unfold onAskExtinfoReq
  dsimp only
  split
  · simp
  · split <;> simp

/-- What the one who asks for a connection is told about the other. -/
def grantedAck (env : Env) (p : Bytes) (dst : Peer) (s : NatServer) : Bytes :=
  connectAck connectOk (window p 33 maxUuidLen) (peerAddresses dst.pubAddr dst.lanAddr dst.nattype ++
    proxyTable s.proxyPort (pickProxy env env.draw s))

def grantedInvite (env : Env) (p : Bytes) (src : Addr) (s : NatServer) : Bytes :=
  let lan := match s.peers.get (uuidAt p 0) with
    | some me => (me.lanAddr, me.nattype)
    | none => (src, natUnknown)
  window p 0 maxUuidLen ++ [0] ++ peerAddresses src lan.1 lan.2 ++
    proxyTable s.proxyPort (pickProxy env (fun k => env.draw (k + 3)) s)

/-- The ways in which a request for a connection is handled. -/
inductive Connects (env : Env) (p : Bytes) (src : Addr) (s : NatServer) : NatServer × List Out → Prop
  | short (h : p.length < connectReqSize) : Connects env p src s (s, [])
  | refused {result : UInt8} (hlen : ¬p.length < connectReqSize) (hresult : result ≠ ProtoDef.connectOk)
      (h : (s.cfg.authEnabled && !s.peers.authed (uuidAt p 0) env.now) = true ∨
        (s.cfg.enableLicense && !s.license.permits (uuidAt p 0)) = true ∨ s.peers.get (uuidAt p 33) = none) :
      Connects env p src s ({ s with connectFail := s.connectFail + 1 },
        (sendMsg src msgConnectAck (connectAck result (window p 33 maxUuidLen) emptyAck) s).2)
  | granted {dst : Peer} (hlen : ¬p.length < connectReqSize)
      (hauthed : (s.cfg.authEnabled && !s.peers.authed (uuidAt p 0) env.now) = false)
      (hpermits : (s.cfg.enableLicense && !s.license.permits (uuidAt p 0)) = false)
      (hdst : s.peers.get (uuidAt p 33) = some dst) :
      Connects env p src s ({ s with connectOk := s.connectOk + 1 },
        (sendMsg src msgConnectAck (grantedAck env p dst s) s).2 ++
          (sendMsg dst.pubAddr msgConnectInvite (grantedInvite env p src s) s).2)

theorem onConnectReq_connects (env : Env) (p : Bytes) (src : Addr) (s : NatServer) :
    Connects env p src s (onConnectReq env p src s) := by
  have hrefuse (result : UInt8) :
      andThen (sendMsg src msgConnectAck (connectAck result (window p 33 maxUuidLen) emptyAck))
        (Effects.modify fun s => { s with connectFail := s.connectFail + 1 }) s =
      ({ s with connectFail := s.connectFail + 1 },
        (sendMsg src msgConnectAck (connectAck result (window p 33 maxUuidLen) emptyAck) s).2) := by
    rw [andThen, sendMsg_fst, Effects.modify, List.append_nil]
  unfold onConnectReq
  dsimp only
  split
  · exact .short ‹_›
  next hlen =>
    split
    next hauth =>
      rw [hrefuse]
      exact .refused hlen (by decide) (.inl hauth)
    next hauth =>
      split
      next hlicense =>
        rw [hrefuse]
        exact .refused hlen (by decide) (.inr (.inl hlicense))
      next hlicense =>
        split
        next hnone =>
          rw [hrefuse]
          exact .refused hlen (by decide) (.inr (.inr hnone))
        next dst hdst =>
          have hgranted : Connects env p src s _ :=
            .granted hlen (Bool.not_eq_true _ ▸ hauth) (Bool.not_eq_true _ ▸ hlicense) hdst
          rw [andThen, andThen, sendMsg_fst, sendMsg_fst, Effects.modify, List.append_nil]
          exact hgranted

theorem onConnectReq_peers (env : Env) (p : Bytes) (src : Addr) (s : NatServer) :
    (onConnectReq env p src s).1.peers = s.peers := by
  have hways := onConnectReq_connects env p src s
  generalize onConnectReq env p src s = r at hways ⊢
  cases hways <;> rfl

theorem onIceSdp_peers (p : Bytes) (s : NatServer) : (onIceSdp p s).1.peers = s.peers := by
  unfold onIceSdp
  dsimp only
  split
  · rfl
  · split
    · rfl
    · split <;> simp

theorem authGate_peers (env : Env) (uuid : Bytes) (s : NatServer) :
    (authGate env uuid s).2.peers = s.peers := by
  unfold authGate
  dsimp only
  split
  · rfl
  · split <;> rfl

theorem onAuthChallengeReq_peers (env : Env) (p : Bytes) (src : Addr) (s : NatServer) :
    (onAuthChallengeReq env p src s).1.peers = s.peers := by
  unfold onAuthChallengeReq
  generalize (if p.length ≥ 33 then uuidAt p 0 else []) = uuid
  dsimp only
  split <;> simp [issueAuthNonce, authGate_peers]

/-- A login only prolongs an authentication. -/
theorem onAuthLoginReq_heartbeats (env : Env) (p : Bytes) (src : Addr) (s : NatServer) :
    heartbeats (onAuthLoginReq env p src s).1.peers = heartbeats s.peers := by
  have hv : ∀ uuid nonce mac (r : NatServer),
      heartbeats (verifyAuthLogin env uuid nonce mac r).2.peers = heartbeats r.peers := by
    intro uuid nonce mac r
    unfold verifyAuthLogin
    dsimp only
    split
    · rfl
    · split
      · rfl
      · split
        · rfl
        · split
          · rfl
          · split
            · rfl
            · exact heartbeats_setAuthExpire r.peers uuid _
  unfold onAuthLoginReq loginResult
  split
  · rfl
  · simp only [sendMsg_fst]
    split
    · rw [authGate_peers]
    · split
      · rw [authGate_peers]
      · rw [hv, authGate_peers]

theorem onAdminBlacklistReq_peers (env : Env) (p : Bytes) (src : Addr) (s : NatServer) :
    (onAdminBlacklistReq env p src s).1.peers = s.peers := by
  unfold onAdminBlacklistReq
  by_cases hl : p.length < 97
  · rw [if_pos hl]
  · rw [if_neg hl]
    by_cases hs : s.cfg.adminSecret.isEmpty = true
    · rw [if_pos hs, sendMsg_fst]
    · rw [if_neg hs]
      by_cases hm : Crypto.hmacSha256 s.cfg.adminSecret (window p 0 65) ≠ window p 65 32
      · rw [if_pos hm, sendMsg_fst]
      · rw [if_neg hm, sendMsg_fst]

theorem handleSyncSnapshotReq_fst (src : Addr) (s : NatServer) :
    (handleSyncSnapshotReq src s).1 = s := by
  unfold handleSyncSnapshotReq sendSyncSnapshot
  split
  · rfl
  · exact forEach_fst (fun q r => sendPeerEntry_fst src q _ r) _ s

theorem onSyncSnapshotReq_peers (env : Env) (p : Bytes) (src : Addr) (s : NatServer) :
    (onSyncSnapshotReq env p src s).1.peers = s.peers := by
  unfold onSyncSnapshotReq
  generalize (time32 env.now - u32At p 0).toInt32 = skew
  simp only [apply_ite Prod.fst, handleSyncSnapshotReq_fst, ite_self]

theorem onSpAskExtinfoRsp_peers (env : Env) (p : Bytes) (src : Addr) (s : NatServer) :
    (onSpAskExtinfoRsp env p src s).1.peers = s.peers := by
  have hc : ∀ rsp, (collectProxyAvail env src rsp s).peers = s.peers := by
    intro rsp
    unfold collectProxyAvail
    dsimp only
    split <;> rfl
  unfold onSpAskExtinfoRsp
  split
  · rfl
  · exact hc _

/-- The messages that may change a heartbeat time. -/
def registryMessages : List UInt8 :=
  [msgHeartbeatReq, msgAddUidReq, msgHeartbeatReqEnc, msgSndExtinfoReq, msgDeleteUidReq,
    msgSyncPeerEntry, msgSyncPeerDel]

theorem change_other (env : Env) {msgId : UInt8} (p : Bytes) (src : Addr) (s : NatServer)
    (h : msgId ∉ registryMessages) : change env msgId p src s = .keep := by
  simp only [registryMessages, List.mem_cons, List.not_mem_nil, or_false, not_or] at h
  simp [change, heartbeatUuid, h]

theorem change_heartbeat (env : Env) {msgId : UInt8} (p : Bytes) (src : Addr) (s : NatServer)
    (h : msgId = msgHeartbeatReq ∨ msgId = msgAddUidReq) :
    change env msgId p src s = if p.length < uuidReqSize then .keep
      else heartbeatChange env (UuidReq.read p).uuid s := by
  unfold change heartbeatUuid
  rw [if_pos h]
  by_cases hl : p.length < uuidReqSize
  · rw [if_pos hl, if_pos hl]
    rcases h with rfl | rfl <;> rfl
  · rw [if_neg hl, if_neg hl]

theorem change_heartbeatEnc (env : Env) (p : Bytes) (src : Addr) (s : NatServer) :
    change env msgHeartbeatReqEnc p src s =
      if p.length < 33 + 8 + uuidReqSize then .keep
      else heartbeatChange env (encryptedReq s.cfg.authSecret p).uuid s := by
  have h1 : ¬(msgHeartbeatReqEnc = msgHeartbeatReq ∨ msgHeartbeatReqEnc = msgAddUidReq) := by decide
  unfold change heartbeatUuid
  rw [if_neg h1, if_pos rfl]
  by_cases hl : p.length < 33 + 8 + uuidReqSize
  · rw [if_pos hl, if_pos hl]
    rfl
  · rw [if_neg hl, if_neg hl]

theorem change_extinfo (env : Env) {msgId : UInt8} (p : Bytes) (src : Addr) (s : NatServer)
    (h : msgId = msgSndExtinfoReq ∨ msgId = msgAskExtinfoReq) :
    change env msgId p src s =
      if msgId = msgSndExtinfoReq ∧ p.length ≥ 33 then sndExtinfoChange env p s else .keep := by
  have hn : heartbeatUuid msgId p s = none := by rcases h with rfl | rfl <;> rfl
  unfold change
  rw [hn]
  dsimp only
  split
  · rfl
  · rcases h with rfl | rfl <;> rfl

theorem onExtinfoReq_heartbeats (env : Env) (msgId : UInt8) (p : Bytes) (src : Addr)
    (s : NatServer) :
    heartbeats (onExtinfoReq env msgId p src s).1.peers =
      (if msgId = msgSndExtinfoReq ∧ p.length ≥ 33 then sndExtinfoChange env p s
      else .keep).apply (heartbeats s.peers) := by
  unfold onExtinfoReq
  split
  · exact onSndExtinfoReq_heartbeats env p s
  · rw [onAskExtinfoReq_peers]
    rfl

theorem dispatch_heartbeats (env : Env) (msgId : UInt8) (p : Bytes) (src : Addr) (s : NatServer) :
    heartbeats (dispatch env msgId p src s).1.peers =
      (change env msgId p src s).apply (heartbeats s.peers) := by
  have other {f : Action} (hid : msgId ∉ registryMessages)
      (hf : (f s).1.peers = s.peers) :
      heartbeats (f s).1.peers = (change env msgId p src s).apply (heartbeats s.peers) := by
    rw [change_other env p src s hid, hf]
    rfl
  have hways := dispatch_selects env msgId p src
  generalize dispatch env msgId p src = f at hways ⊢
  cases hways with
  | heartbeat => rw [onHeartbeatReq_heartbeats, change_heartbeat env p src s (.inl rfl)]
  | addUid => rw [onHeartbeatReq_heartbeats, change_heartbeat env p src s (.inr rfl)]
  | heartbeatEnc => rw [onHeartbeatReqEnc_heartbeats, change_heartbeatEnc]
  | sndExtinfo => rw [onExtinfoReq_heartbeats, change_extinfo env p src s (.inl rfl)]
  | askExtinfo => rw [onExtinfoReq_heartbeats, change_extinfo env p src s (.inr rfl)]
  | connect => exact other (by decide) (onConnectReq_peers env p src s)
  | iceSdp => exact other (by decide) (onIceSdp_peers p s)
  | getDevList => exact other (by decide) (by rw [onGetDevListReq, sendMsg_fst])
  | getServerList => exact other (by decide) (by rw [onGetServerListReq, sendMsg_fst])
  | deleteUid =>
    rw [onDeleteUidReq_heartbeats]
    rfl
  | checkUid => exact other (by decide) (by rw [onCheckUidReq, sendMsg_fst])
  | authChallenge => exact other (by decide) (onAuthChallengeReq_peers env p src s)
  | authLogin =>
    rw [onAuthLoginReq_heartbeats, change_other env p src s (by decide)]
    rfl
  | adminStats => exact other (by decide) (by rw [onAdminStatsReq, sendMsg_fst])
  | adminBlacklist => exact other (by decide) (onAdminBlacklistReq_peers env p src s)
  | syncPeerEntry =>
    rw [onSyncPeerEntry_heartbeats]
    rfl
  | syncPeerDel =>
    rw [onSyncPeerDel_heartbeats]
    rfl
  | syncSnapshot => exact other (by decide) (onSyncSnapshotReq_peers env p src s)
  | spAskExtinfo => exact other (by decide) (onSpAskExtinfoRsp_peers env p src s)
  | other h =>
    have hsub : registryMessages ⊆ handledMessages := by decide
    exact other (fun hmem => h (hsub hmem)) rfl

/-- The timer forgets exactly the records whose last heartbeat is over 90 seconds old. -/
theorem timerPass_heartbeats (env : Env) (proxyDue snapDue saved : Bool)
    (reloaded : Option CfgData) (s : NatServer) (u : Bytes) :
    heartbeats (timerPass env proxyDue snapDue saved reloaded s).1.peers u =
      (heartbeats s.peers u).filter fun hb => !decide (env.now - hb > 90) := by
  rw [← heartbeats_cleanup]
  have hsnap : ∀ r, ((if snapDue then requestSyncSnapshot env else skip) r).1 = r := by
    intro r
    unfold requestSyncSnapshot
    cases snapDue
    · rfl
    · simp only [if_true]
      split
      · rfl
      · exact broadcastSyncMsg_fst _ _ _ _
  have hproxy : ∀ r, ((if proxyDue then
      andThen (fun s => forEach sendProxyAvailQuery s.cfg.proxyIps s)
        (Effects.modify (markProxyStale env)) else skip) r).1.peers = r.peers := by
    intro r
    cases proxyDue
    · rfl
    · simp only [if_true, andThen, Effects.modify, markProxyStale]
      rw [forEach_fst fun ip r => by rw [sendProxyAvailQuery, sendMsg_fst]]
  unfold timerPass cleanupPass
  simp only [andThen, hsnap, hproxy]
  cases reloaded <;>
    simp only [Effects.modify, PeerManager.cleanupAuthSessions,
      forEach_fst fun u r => broadcastSyncMsg_fst _ _ _ r] <;> rfl

end P2PServer.Registry
