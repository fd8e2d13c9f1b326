import P2PServer.EntryBytes

/-! The sync messages that a server signs. Four kinds of packet make it do so, and the
timer; everything else that it sends is no sync message. -/
namespace P2PServer.SyncOutputs
open ByteStrings ProtoDef Net NatServer Effects SyncCluster Registry PacketCases ServerRun EntryBytes

theorem mem_syncOut {secret : Bytes} {id : UInt8} {body : Bytes} {dst : Addr} {o : Out}
    (h : o ∈ syncOut secret id body dst) :
    o = .send dst (datagram id (signed secret body)) ∧
      readDatagram (datagram id (signed secret body)) = some (id, signed secret body) := by
  unfold syncOut at h
  split at h
  · cases h
  · split at h
    · cases h
    · rename_i hlen
      refine ⟨List.mem_singleton.mp h, readDatagram_datagram id ?_⟩
      unfold maxPkt at hlen
      omega

/-- The signed part of the entry of a record: its extension text follows the fixed part. -/
def entryBody (p : Peer) (hop : UInt8) : Bytes :=
  peerEntryBytes p hop ++
    if 0 < p.extlen.toNat ∧ p.extlen.toNat ≤ maxExtinfo then p.extinfo.take p.extlen.toNat else []

theorem entryBody_length (p : Peer) (hop : UInt8) :
    79 ≤ (entryBody p hop).length ∧ (entryBody p hop).length ≤ 1103 := by
  unfold entryBody maxExtinfo
  rw [List.length_append, peerEntryBytes_length]
  split
  · have h := List.length_take_le p.extlen.toNat p.extinfo
    omega
  · simp

theorem signed_entryBody_length (secret : Bytes) (p : Peer) (hop : UInt8) :
    (signed secret (entryBody p hop)).length ≤ 1135 := by
  have hbody := (entryBody_length p hop).2
  have hsigned := signed_length_le secret (entryBody p hop)
  omega

theorem sendPeerEntry_eq (dst : Addr) (p : Peer) (hop : UInt8) (s : NatServer) :
    sendPeerEntry dst p hop s =
      (s, syncOut s.cfg.syncAuthSecret msgSyncPeerEntry (entryBody p hop) dst) :=
  syncSendMsg_eq dst msgSyncPeerEntry (entryBody p hop) s

theorem handleSyncSnapshotReq_eq (src : Addr) (s : NatServer) :
    handleSyncSnapshotReq src s = (s, if s.syncEnabled then s.peers.snapshot.flatMap fun r =>
      syncOut s.cfg.syncAuthSecret msgSyncPeerEntry (entryBody r syncHopSnap) src else []) := by
  unfold handleSyncSnapshotReq
  cases s.syncEnabled
  · rfl
  · exact forEach_eq _ fun r => sendPeerEntry_eq src r syncHopSnap s

def announced (env : Env) (req : UuidReq) (extinfo : Bytes) (src : Addr) : Peer :=
  ⟨req.uuid, src, { src with port := req.lanPort }, req.devType, req.nattype, env.now, 0, 0,
    UInt16.ofNat extinfo.length, extinfo⟩

theorem broadcastPeerEntry_eq (env : Env) (req : UuidReq) (extinfo : Bytes) (src : Addr)
    (s : NatServer) :
    broadcastPeerEntry env req extinfo src s = (s, if s.syncEnabled then
      s.syncAddrs.flatMap fun a => syncOut s.cfg.syncAuthSecret msgSyncPeerEntry
        (entryBody (announced env req extinfo src) 1) a else []) := by
  unfold broadcastPeerEntry
  cases s.syncEnabled
  · rfl
  · exact forEach_eq _ fun a => sendPeerEntry_eq a (announced env req extinfo src) 1 s

/-- The messages and bodies that a server signs when it handles a datagram. -/
inductive Signs (env : Env) (data : Bytes) (src : Addr) (s : NatServer) : UInt8 → Bytes → Prop
  | heartbeat {msgId : UInt8} {p : Bytes} {req : UuidReq} {extinfo : Bytes} {enc : Option Bytes}
      (hread : readDatagram data = some (msgId, p))
      (h : heartbeatOf s.cfg.authSecret msgId p = some (req, extinfo, enc))
      (hgate : (heartbeatGate env req.uuid s).1 = 0) :
      Signs env data src s msgSyncPeerEntry (entryBody (announced env req extinfo src) 1)
  | forward {p : Bytes} {e : SyncPeerEntry} {extinfo : Bytes}
      (hread : readDatagram data = some (msgSyncPeerEntry, p))
      (h : entryOf s.cfg.syncAuthSecret p = some (e, extinfo)) (hhop : e.hop < syncHopMax) :
      Signs env data src s msgSyncPeerEntry (forwardedBody env e extinfo)
  | del {p uuid : Bytes} (hread : readDatagram data = some (msgSyncPeerDel, p))
      (h : deletionOf s.cfg.syncAuthSecret p = some uuid) :
      Signs env data src s msgSyncPeerDel (syncPeerDel uuid)
  | snapshot {p : Bytes} {r : Peer} (hread : readDatagram data = some (msgSyncSnapshotReq, p))
      (hr : r ∈ s.peers.snapshot) : Signs env data src s msgSyncPeerEntry (entryBody r syncHopSnap)

/-- The output is no sync message, or one that carries a body of the given kind. -/
def Carries (secret : Bytes) (Q : UInt8 → Bytes → Prop) (o : Out) : Prop :=
  Plain o ∨ ∃ dst id body, Q id body ∧ o ∈ syncOut secret id body dst

theorem carries_broadcastOut {s : NatServer} {Q : UInt8 → Bytes → Prop} {id : UInt8} {body : Bytes}
    (h : Q id body) (except : Option Addr) :
    ∀ o ∈ broadcastOut s id body except, Carries s.cfg.syncAuthSecret Q o := by
  intro o ho
  obtain ⟨a, -, -, ho⟩ := mem_broadcastOut.mp ho
  exact .inr ⟨a, id, body, h, ho⟩

theorem sendHeartbeatRsp_plain {dst : Addr} {uuidRaw : Bytes} {rsp : ExtInfoRsp}
    {enc : Option Bytes} {s : NatServer} : ∀ o ∈ (sendHeartbeatRsp dst uuidRaw rsp enc s).2, Plain o := by
  unfold sendHeartbeatRsp
  cases enc <;> exact sendMsg_plain rfl

theorem onSndExtinfoReq_plain (env : Env) (p : Bytes) (s : NatServer) :
    ∀ o ∈ (onSndExtinfoReq env p s).2, Plain o := by
  obtain ⟨peers, hs | ⟨dst, hs⟩⟩ := onSndExtinfoReq_cases env p s
  · rw [hs]
    exact fun o ho => absurd ho List.not_mem_nil
  · rw [hs]
    exact sendMsg_plain rfl

theorem onConnectReq_plain (env : Env) (p : Bytes) (src : Addr) (s : NatServer) :
    ∀ o ∈ (onConnectReq env p src s).2, Plain o := by
  have hways := Registry.onConnectReq_connects env p src s
  generalize onConnectReq env p src s = r at hways ⊢
  intro o ho
  cases hways with
  | short => cases ho
  | refused => exact sendMsg_plain rfl o ho
  | granted =>
    rcases List.mem_append.mp ho with h | h
    · exact sendMsg_plain rfl o h
    · exact sendMsg_plain rfl o h

theorem onDeleteUidReq_plain (env : Env) (p : Bytes) (s : NatServer) :
    ∀ o ∈ (onDeleteUidReq env p s).2, Plain o := by
  intro o ho dst data hd
  subst hd
  unfold onDeleteUidReq saveLicense at ho
  dsimp only at ho
  split at ho
  · split at ho <;> simp at ho
  · cases ho

theorem onAuthChallengeReq_plain (env : Env) (p : Bytes) (src : Addr) (s : NatServer) :
    ∀ o ∈ (onAuthChallengeReq env p src s).2, Plain o := by
  intro o ho
  unfold onAuthChallengeReq at ho
  by_cases hg : (authGate env (challengeUuid p) s).1 ≠ 0
  · dsimp only at ho
    rw [show (if p.length ≥ 33 then uuidAt p 0 else []) = challengeUuid p from rfl, if_pos hg] at ho
    exact sendMsg_plain rfl o ho
  · dsimp only at ho
    rw [show (if p.length ≥ 33 then uuidAt p 0 else []) = challengeUuid p from rfl, if_neg hg] at ho
    exact sendMsg_plain rfl o ho

theorem onAuthLoginReq_plain (env : Env) (p : Bytes) (src : Addr) (s : NatServer) :
    ∀ o ∈ (onAuthLoginReq env p src s).2, Plain o := by
  intro o ho
  unfold onAuthLoginReq at ho
  split at ho
  · cases ho
  · exact sendMsg_plain rfl o ho

theorem broadcastPeerEntry_carries {env : Env} {req : UuidReq} {extinfo : Bytes} {src : Addr}
    {Q : UInt8 → Bytes → Prop} (h : Q msgSyncPeerEntry (entryBody (announced env req extinfo src) 1))
    (s : NatServer) : ∀ o ∈ (broadcastPeerEntry env req extinfo src s).2,
      Carries s.cfg.syncAuthSecret Q o := by
  intro o ho
  rw [broadcastPeerEntry_eq] at ho
  dsimp only at ho
  split at ho
  · obtain ⟨a, -, ho⟩ := List.mem_flatMap.mp ho
    exact .inr ⟨a, _, _, h, ho⟩
  · cases ho

theorem handleHeartbeat_carries {env : Env} {req : UuidReq} {extinfo : Bytes} {src : Addr}
    {enc : Option Bytes} {s : NatServer} {Q : UInt8 → Bytes → Prop}
    (h : (heartbeatGate env req.uuid s).1 = 0 →
      Q msgSyncPeerEntry (entryBody (announced env req extinfo src) 1)) :
    ∀ o ∈ (handleHeartbeat env req extinfo src enc s).2, Carries s.cfg.syncAuthSecret Q o := by
  intro o ho
  have hcfg : (heartbeatGate env req.uuid s).2.cfg = s.cfg :=
    congrArg Core.cfg (heartbeatGate_core env req.uuid s)
  unfold handleHeartbeat at ho
  dsimp only at ho
  split at ho
  · exact .inl (sendHeartbeatRsp_plain o ho)
  · rename_i hg
    rcases mem_andThen.mp ho with ho | ho
    · cases ho
    · rcases mem_andThen.mp ho with ho | ho
      · have hc := broadcastPeerEntry_carries (h (by simpa using hg)) _ o ho
        dsimp only [Effects.modify] at hc
        rwa [hcfg] at hc
      · exact .inl (sendHeartbeatRsp_plain o ho)

theorem handleSyncEntry_sends {env : Env} {e : SyncPeerEntry} {extinfo : Bytes} {src : Addr}
    {s : NatServer} : ∀ o ∈ (handleSyncEntry env e extinfo src s).2, e.hop < syncHopMax ∧
      o ∈ broadcastOut s msgSyncPeerEntry (forwardedBody env e extinfo) (some src) := by
  have hent := handleSyncEntry_entered env e extinfo src s
  generalize handleSyncEntry env e extinfo src s = r at hent ⊢
  intro o ho
  cases hent with
  | ignored => cases ho
  | seen => cases ho
  | snapshot => cases ho
  | increment =>
    dsimp only at ho
    split at ho
    · exact ⟨‹_›, ho⟩
    · cases ho

theorem handleSyncDel_sends {uuid : Bytes} {src : Addr} {s : NatServer} :
    ∀ o ∈ (handleSyncDel uuid src s).2,
      o ∈ broadcastOut s msgSyncPeerDel (syncPeerDel uuid) (some src) := by
  intro o ho
  unfold handleSyncDel at ho
  split at ho
  · cases ho
  · rw [andThen, broadcastSyncMsg_out] at ho
    rcases List.mem_append.mp ho with ho | ho
    · exact ho
    · cases ho

theorem handleSyncSnapshotReq_sends {src : Addr} {s : NatServer} :
    ∀ o ∈ (handleSyncSnapshotReq src s).2, ∃ r ∈ s.peers.snapshot,
      o ∈ syncOut s.cfg.syncAuthSecret msgSyncPeerEntry (entryBody r syncHopSnap) src := by
  intro o ho
  rw [handleSyncSnapshotReq_eq] at ho
  dsimp only at ho
  split at ho
  · exact List.mem_flatMap.mp ho
  · cases ho

/-- Whatever a server sends when it handles a datagram is no sync message or carries a body
that it signs then. -/
theorem handlePacket_carries (env : Env) (data : Bytes) (src : Addr) (s : NatServer) :
    ∀ o ∈ (handlePacket env data src s).2,
      Carries s.cfg.syncAuthSecret (Signs env data src s) o := by
  unfold handlePacket
  cases hread : readDatagram data with
  | none =>
    intro o ho
    cases ho
  | some r =>
    obtain ⟨msgId, p⟩ := r
    have hh := dispatch_handled env msgId p src s
    dsimp only
    generalize dispatch env msgId p src s = r at hh ⊢
    cases hh with
    | ignored =>
      intro o ho
      cases ho
    | heartbeat h => exact handleHeartbeat_carries fun hg => .heartbeat hread h hg
    | sndExtinfo => exact fun o ho => .inl (onSndExtinfoReq_plain env p s o ho)
    | connect => exact fun o ho => .inl (onConnectReq_plain env p src s o ho)
    | deleteUid => exact fun o ho => .inl (onDeleteUidReq_plain env p s o ho)
    | challenge => exact fun o ho => .inl (onAuthChallengeReq_plain env p src s o ho)
    | login => exact fun o ho => .inl (onAuthLoginReq_plain env p src s o ho)
    | entry hid h =>
      subst hid
      intro o ho
      obtain ⟨hhop, ho⟩ := handleSyncEntry_sends o ho
      exact carries_broadcastOut (.forward hread h hhop) _ o ho
    | del hid h =>
      subst hid
      exact fun o ho => carries_broadcastOut (.del hread h) _ o (handleSyncDel_sends o ho)
    | snapshot hid h =>
      subst hid
      intro o ho
      obtain ⟨r, hr, ho⟩ := handleSyncSnapshotReq_sends o ho
      exact .inr ⟨src, _, _, .snapshot hread hr, ho⟩
    | other _ _ hplain => exact fun o ho => .inl (hplain o ho)

/-- The messages and bodies that the timer signs. -/
inductive TimerSigns (env : Env) (s : NatServer) : UInt8 → Bytes → Prop
  | del {uuid : Bytes} (h : uuid ∈ (s.peers.cleanupTimeoutAndCollect 90 env.now).1) :
      TimerSigns env s msgSyncPeerDel (syncPeerDel uuid)
  | request : TimerSigns env s msgSyncSnapshotReq (be32 (time32 env.now))

/-- The timer signs deletions before the configuration is read again and requests after. -/
theorem timerPass_carries (env : Env) (proxyDue snapDue saved : Bool) (reloaded : Option CfgData)
    (s : NatServer) : ∀ o ∈ (timerPass env proxyDue snapDue saved reloaded s).2,
      Carries s.cfg.syncAuthSecret (TimerSigns env s) o ∨
        Carries (reloaded.getD s.cfg).syncAuthSecret (TimerSigns env s) o := by
  intro o ho
  obtain ⟨-, queries, hplain, hsent⟩ := timerPass_spec env proxyDue snapDue saved reloaded s
  rw [hsent] at ho
  rcases List.mem_append.mp ho with ho | ho
  · obtain ⟨u, hu, ho⟩ := List.mem_flatMap.mp ho
    exact .inl (carries_broadcastOut (.del hu) none o ho)
  · rcases List.mem_append.mp ho with ho | ho
    · exact .inl (.inl (hplain o ho))
    · split at ho
      · exact .inr (carries_broadcastOut .request none o ho)
      · cases ho

end P2PServer.SyncOutputs
