import P2PServer.PacketCases

/-! One specification for each operation behind the packet handler and for the timer:
the new state up to what questions change, and what is sent. -/
namespace P2PServer.PacketCases
open ByteStrings ProtoDef Net NatServer Effects SyncCluster Registry

theorem heartbeatGate_core (env : Env) (uuid : Bytes) (s : NatServer) :
    core (heartbeatGate env uuid s).2 = core s := by
  unfold heartbeatGate
  split
  · rfl
  · dsimp only
    split <;> rfl

theorem authGate_core (env : Env) (uuid : Bytes) (s : NatServer) :
    core (authGate env uuid s).2 = core s := by
  unfold authGate
  dsimp only
  split
  · rfl
  · split <;> rfl

theorem authGate_cfg (env : Env) (uuid : Bytes) (s : NatServer) :
    (authGate env uuid s).2.cfg = s.cfg := congrArg Core.cfg (authGate_core env uuid s)

theorem authGate_authNonces (env : Env) (uuid : Bytes) (s : NatServer) :
    (authGate env uuid s).2.authNonces = s.authNonces :=
  congrArg Core.authNonces (authGate_core env uuid s)

theorem handleHeartbeat_core (env : Env) (req : UuidReq) (extinfo : Bytes) (src : Addr)
    (enc : Option Bytes) (s : NatServer) :
    core (handleHeartbeat env req extinfo src enc s).1 =
      { core s with peers := if (heartbeatGate env req.uuid s).1 = 0 then
          (s.peers.upsert req.uuid src { src with port := req.lanPort } req.devType req.nattype
            extinfo env.now).2
        else s.peers } := by
  have hc := heartbeatGate_core env req.uuid s
  unfold handleHeartbeat
  by_cases hg : (heartbeatGate env req.uuid s).1 = 0
  · have hp : (heartbeatGate env req.uuid s).2.peers = s.peers := congrArg Core.peers hc
    simp only [hg, ne_eq, not_true_eq_false, if_false, if_true, andThen, Effects.modify,
      broadcastPeerEntry_fst, sendHeartbeatRsp_fst]
    rw [← hp, ← hc]
    rfl
  · simp only [hg, ne_eq, not_false_eq_true, if_true, if_false, sendHeartbeatRsp_fst]
    exact hc

theorem cstr_length_le (b : Bytes) : (cstr b).length ≤ b.length :=
  List.IsPrefix.length_le ( List.takeWhile_prefix _)

theorem window_length_le (b : Bytes) (i n : ℕ) : (window b i n).length ≤ n :=
  List.length_take_le _ _

theorem heartbeatOf_bounds {secret : Bytes} {msgId : UInt8} {p : Bytes} {req : UuidReq}
    {extinfo : Bytes} {enc : Option Bytes} (h : heartbeatOf secret msgId p = some (req, extinfo, enc)) :
    req.uuid.length ≤ maxUuidLen ∧ extinfo.length ≤ maxExtinfo := by
  have hraw (q : Bytes) : (cstr (q.take maxUuidLen ++ [0])).length ≤ maxUuidLen := by
    rw [cstr_append_zero]
    exact (cstr_length_le _).trans (List.length_take_le _ _)
  unfold heartbeatOf at h
  split at h
  · split at h
    · cases h
    · cases h
      refine ⟨hraw p, ?_⟩
      split
      · exact (window_length_le _ _ _).trans (by omega)
      · exact Nat.zero_le _
  · split at h
    · split at h
      · cases h
      · cases h
        refine ⟨hraw p, ?_⟩
        split
        · exact (window_length_le _ _ _).trans ‹_›
        · exact Nat.zero_le _
    · cases h

/-- The text that `MSG_SND_EXTINFO_REQ` reports. -/
def reportedExtinfo (p : Bytes) : Bytes :=
  let extlen := (UInt16.ofNat (p.length - 33)).toNat
  if extlen ≤ maxExtinfo then window p 33 extlen else []

/-- The extinfo of a known sender is stored, and the message goes on to it. -/
theorem onSndExtinfoReq_cases (env : Env) (p : Bytes) (s : NatServer) : ∃ peers : PeerManager,
    onSndExtinfoReq env p s = ({ s with peers := peers }, []) ∨
      ∃ dst : Peer, onSndExtinfoReq env p s = sendMsg dst.pubAddr msgSndExtinfoReq p { s with peers := peers } := by
  unfold onSndExtinfoReq
  dsimp only
  cases s.peers.get (uuidAt p 0) with
  | none =>
    refine ⟨s.peers, ?_⟩
    dsimp only
    cases s.peers.get (uuidAt p 0) with
    | none => exact .inl rfl
    | some dst => exact .inr ⟨dst, rfl⟩
  | some self =>
    let peers := (s.peers.upsert self.uuid self.pubAddr self.lanAddr self.devType self.nattype
      (reportedExtinfo p) env.now).2
    refine ⟨peers, ?_⟩
    dsimp only
    rw [← reportedExtinfo]
    cases peers.get (uuidAt p 0) with
    | none => exact .inl rfl
    | some dst => exact .inr ⟨dst, rfl⟩

theorem onSndExtinfoReq_core (env : Env) (p : Bytes) (s : NatServer) :
    core (onSndExtinfoReq env p s).1 =
      { core s with peers := match s.peers.get (uuidAt p 0) with
        | none => s.peers
        | some self => (s.peers.upsert self.uuid self.pubAddr self.lanAddr self.devType
            self.nattype (reportedExtinfo p) env.now).2 } := by
  unfold onSndExtinfoReq reportedExtinfo
  cases hg : s.peers.get (uuidAt p 0) with
  | none =>
    simp only [hg]
    rfl
  | some self =>
    simp only [hg]
    split
    · rfl
    · rw [sendMsg_fst]
      rfl

theorem onConnectReq_core (env : Env) (p : Bytes) (src : Addr) (s : NatServer) :
    core (onConnectReq env p src s).1 = core s := by
  have hways := Registry.onConnectReq_connects env p src s
  generalize onConnectReq env p src s = r at hways ⊢
  cases hways <;> rfl

theorem onDeleteUidReq_core (env : Env) (p : Bytes) (s : NatServer) :
    core (onDeleteUidReq env p s).1 =
      { core s with
        peers := (s.peers.remove (deleteUuid p)).2
        license := { s.license with uuids := s.license.uuids.erase (deleteUuid p) } } := by
  unfold onDeleteUidReq saveLicense
  dsimp only
  split
  · split <;> rfl
  · rfl

/-- The uuid that asks for a challenge; a shorter payload names the empty one. -/
def challengeUuid (p : Bytes) : Bytes := if p.length ≥ 33 then uuidAt p 0 else []

theorem onAuthChallengeReq_core (env : Env) (p : Bytes) (src : Addr) (s : NatServer) :
    core (onAuthChallengeReq env p src s).1 =
      { core s with authNonces := if (authGate env (challengeUuid p) s).1 = 0 then
          s.authNonces.insert (challengeUuid p) (env.nonce, env.now + 30) else s.authNonces } := by
  have hc := authGate_core env (challengeUuid p) s
  unfold onAuthChallengeReq
  dsimp only
  rw [show (if p.length ≥ 33 then uuidAt p 0 else []) = challengeUuid p from rfl]
  by_cases hg : (authGate env (challengeUuid p) s).1 = 0
  · simp only [hg, ne_eq, not_true_eq_false, if_false, if_true, sendMsg_fst, issueAuthNonce]
    have hn : (authGate env (challengeUuid p) s).2.authNonces = s.authNonces :=
      congrArg Core.authNonces hc
    rw [← hn, ← hc]
    rfl
  · simp only [hg, ne_eq, not_false_eq_true, if_true, if_false, sendMsg_fst]
    exact hc

theorem handleSyncSnapshotReq_core (src : Addr) (s : NatServer) :
    core (handleSyncSnapshotReq src s).1 = core s := by
  rw [handleSyncSnapshotReq_fst]

theorem handleSyncDel_core (uuid : Bytes) (src : Addr) (s : NatServer) :
    core (handleSyncDel uuid src s).1 =
      { core s with peers := if s.syncEnabled then (s.peers.remove uuid).2 else s.peers } := by
  unfold handleSyncDel
  cases h : s.syncEnabled with
  | false => rfl
  | true =>
    simp only [Bool.not_true, Bool.false_eq_true, if_false, if_true, andThen, Effects.modify,
      broadcastSyncMsg_fst]
    rfl

def entryPub (e : SyncPeerEntry) : Addr := ⟨(inetPton e.pubIp).getD 0, e.pubPort⟩

def entryLan (e : SyncPeerEntry) : Addr := ⟨(inetPton e.lanIp).getD (entryPub e).ip, e.lanPort⟩

/-- What `sync_send_msg` puts out; messages that do not fit the buffer are dropped. -/
def syncOut (secret : Bytes) (msgId : UInt8) (payload : Bytes) (dst : Addr) : List Out :=
  if payload.length > maxPkt - 32 then []
  else if (signed secret payload).length > maxPkt - 8 then []
  else [.send dst (datagram msgId (signed secret payload))]

/-- Messages of up to 2008 bytes fit with their MAC. -/
theorem syncOut_eq (secret : Bytes) (msgId : UInt8) {payload : Bytes} (h : payload.length ≤ 2008)
    (dst : Addr) :
    syncOut secret msgId payload dst = [.send dst (datagram msgId (signed secret payload))] := by
  have hs := signed_length_le secret payload
  unfold syncOut maxPkt
  rw [if_neg (by omega), if_neg (by omega)]

theorem syncSendMsg_eq (dst : Addr) (msgId : UInt8) (payload : Bytes) (s : NatServer) :
    syncSendMsg dst msgId payload s = (s, syncOut s.cfg.syncAuthSecret msgId payload dst) := by
  unfold syncSendMsg syncOut sendMsg
  split
  · rfl
  · split <;> rfl

def broadcastOut (s : NatServer) (msgId : UInt8) (payload : Bytes) (except : Option Addr) :
    List Out :=
  s.syncAddrs.flatMap fun a =>
    if except = some a then [] else syncOut s.cfg.syncAuthSecret msgId payload a

theorem mem_broadcastOut {s : NatServer} {msgId : UInt8} {payload : Bytes} {except : Option Addr} {o : Out} :
    o ∈ broadcastOut s msgId payload except ↔
      ∃ a ∈ s.syncAddrs, except ≠ some a ∧ o ∈ syncOut s.cfg.syncAuthSecret msgId payload a := by
  unfold broadcastOut
  rw [List.mem_flatMap]
  refine exists_congr fun a => and_congr_right fun _ => ?_
  by_cases h : except = some a <;> simp [h]

theorem broadcastSyncMsg_out (msgId : UInt8) (payload : Bytes) (except : Option Addr)
    (s : NatServer) :
    broadcastSyncMsg msgId payload except s = (s, broadcastOut s msgId payload except) := by
  apply forEach_eq
  intro a
  split
  · rfl
  · exact syncSendMsg_eq a msgId payload s

def stored (e : SyncPeerEntry) (extinfo : Bytes) (m : PeerManager) : PeerManager :=
  (m.upsertSynced e.uuid (entryPub e) (entryLan e) e.devType e.nattype extinfo e.hbTime.toNat).2

def forwardedBody (env : Env) (e : SyncPeerEntry) (extinfo : Bytes) : Bytes :=
  e.raw.set 71 (e.hop + 1) ++ (List.range extinfo.length).map env.stack

/-- The table of seen entries with one more key, pruned when it is large. -/
def noteSeen (now : ℤ) (key : Bytes) (seen : Std.ExtTreeMap Bytes ℤ) : Std.ExtTreeMap Bytes ℤ :=
  let seen := seen.insert key now
  if seen.size > 16384 then seen.filter fun _ t => !(now - t ≥ 300) else seen

theorem seenSyncEntry_eq (env : Env) (uuid : Bytes) (hbTime : UInt32) (src : Addr)
    (s : NatServer) :
    seenSyncEntry env uuid hbTime src s = (true, s) ∨
      seenSyncEntry env uuid hbTime src s =
        (false, { s with syncSeen := noteSeen env.now (seenKey uuid hbTime src) s.syncSeen }) := by
  unfold seenSyncEntry noteSeen
  cases h : s.syncSeen[seenKey uuid hbTime src]? with
  | none =>
    right
    simp only [h, Bool.false_eq_true, if_false]
  | some t =>
    by_cases ht : env.now - t < 300
    · left
      simp only [h, ht, decide_true, if_true]
    · right
      simp only [h, ht, decide_false, Bool.false_eq_true, if_false]

/-- The ways in which an entry is handled. -/
inductive Entered (env : Env) (e : SyncPeerEntry) (extinfo : Bytes) (src : Addr) (s : NatServer) :
    NatServer × List Out → Prop
  | ignored (h : s.syncEnabled = false ∨ e.uuid = []) : Entered env e extinfo src s (s, [])
  | seen (hon : s.syncEnabled = true) (hu : e.uuid ≠ []) (hhop : e.hop ≠ syncHopSnap)
      (h : (seenSyncEntry env e.uuid e.hbTime src s).1 = true) :
      Entered env e extinfo src s (s, [])
  | snapshot (hon : s.syncEnabled = true) (hu : e.uuid ≠ []) (hhop : e.hop = syncHopSnap) :
      Entered env e extinfo src s ({ s with peers := stored e extinfo s.peers }, [])
  | increment (hon : s.syncEnabled = true) (hu : e.uuid ≠ []) (hhop : e.hop ≠ syncHopSnap)
      (h : (seenSyncEntry env e.uuid e.hbTime src s).1 = false) :
      Entered env e extinfo src s
        ({ s with
          syncSeen := noteSeen env.now (seenKey e.uuid e.hbTime src) s.syncSeen
          peers := stored e extinfo s.peers },
        if e.hop < syncHopMax then
          broadcastOut s msgSyncPeerEntry (forwardedBody env e extinfo) (some src) else [])

theorem handleSyncEntry_entered (env : Env) (e : SyncPeerEntry) (extinfo : Bytes) (src : Addr)
    (s : NatServer) : Entered env e extinfo src s (handleSyncEntry env e extinfo src s) := by
  unfold handleSyncEntry
  cases hon : s.syncEnabled with
  | false => exact .ignored (.inl hon)
  | true =>
    by_cases hu : e.uuid = []
    · simp only [hu, List.isEmpty_nil, Bool.not_true, Bool.false_eq_true, if_false, if_true]
      exact .ignored (.inr hu)
    · have hempty : e.uuid.isEmpty = false := by simpa using hu
      simp only [hempty, Bool.not_true, Bool.false_eq_true, if_false]
      by_cases hhop : e.hop = syncHopSnap
      · simp only [hhop, ne_eq, not_true_eq_false, if_false, Bool.false_eq_true, false_and]
        exact .snapshot hon hu hhop
      · simp only [hhop, ne_eq, not_false_eq_true, if_true, true_and]
        rcases seenSyncEntry_eq env e.uuid e.hbTime src s with h | h
        · simp only [h, if_true]
          exact .seen hon hu hhop (by rw [h])
        · simp only [h, Bool.false_eq_true, if_false]
          have hr : Entered env e extinfo src s _ := .increment hon hu hhop (by rw [h])
          by_cases hm : e.hop < syncHopMax
          · simp only [hm, if_true, broadcastSyncMsg_out] at hr ⊢
            exact hr
          · simp only [hm, if_false] at hr ⊢
            exact hr

/-- The ways in which a login is verified. -/
inductive Verified (env : Env) (uuid nonce mac : Bytes) (s : NatServer) : Bool × NatServer → Prop
  | off (hoff : s.cfg.authEnabled = false) : Verified env uuid nonce mac s (true, s)
  | missing (hon : s.cfg.authEnabled = true) (h : s.authNonces[uuid]? = none) :
      Verified env uuid nonce mac s (false, s)
  | refused (hon : s.cfg.authEnabled = true) :
      Verified env uuid nonce mac s (false, { s with authNonces := s.authNonces.erase uuid })
  | granted (hon : s.cfg.authEnabled = true) {expire : ℤ}
      (h : s.authNonces[uuid]? = some (nonce, expire)) (htime : env.now ≤ expire)
      (hmac : Crypto.hmacSha256 s.cfg.authSecret (authMessage uuid nonce) = mac) :
      Verified env uuid nonce mac s
        (true, { s with
          authNonces := s.authNonces.erase uuid
          peers := s.peers.setAuthExpire uuid (env.now + 3600) })

theorem verifyAuthLogin_verified (env : Env) (uuid nonce mac : Bytes) (s : NatServer) :
    Verified env uuid nonce mac s (verifyAuthLogin env uuid nonce mac s) := by
  unfold verifyAuthLogin
  cases hon : s.cfg.authEnabled with
  | false => exact .off hon
  | true =>
    simp only [Bool.not_true, Bool.false_eq_true, if_false]
    cases h : s.authNonces[uuid]? with
    | none => exact .missing hon h
    | some r =>
      obtain ⟨n, expire⟩ := r
      dsimp only
      by_cases ht : env.now > expire
      · rw [if_pos ht]
        exact .refused hon
      · rw [if_neg ht]
        by_cases hn : n = nonce
        · subst hn
          rw [if_neg (not_not_intro rfl)]
          by_cases hm : Crypto.hmacSha256 s.cfg.authSecret (authMessage uuid n) = mac
          · rw [if_neg (not_not_intro hm)]
            exact .granted hon h (by omega) hm
          · rw [if_pos hm]
            exact .refused hon
        · rw [if_pos hn]
          exact .refused hon

/-- The deletions of the records that time out. -/
def timeoutOut (env : Env) (s : NatServer) : List Out :=
  (s.peers.cleanupTimeoutAndCollect 90 env.now).1.flatMap fun u =>
    broadcastOut s msgSyncPeerDel (syncPeerDel u) none

theorem cleanupPass_eq (env : Env) (s : NatServer) :
    cleanupPass env s =
      ({ s with peers := (s.peers.cleanupTimeoutAndCollect 90 env.now).2 }, timeoutOut env s) :=
  forEach_eq _ fun u => broadcastSyncMsg_out msgSyncPeerDel (syncPeerDel u) none _

/-- The server after the records, the sessions and the blacklists have been cleaned up and
the configuration has been read again. -/
def afterCleanup (env : Env) (saved : Bool) (reloaded : Option CfgData) (s : NatServer) :
    NatServer :=
  let abuse := s.abuse.sweep env.now
  let s := { s with
    peers := s.peers.cleanupAuthSessions env.now
    abuse := if abuse.dirty && saved then { abuse with dirty := false } else abuse }
  match reloaded with
  | none => s
  | some cfg => { s with
      cfg := cfg, abuse := s.abuse.configure cfg.floodPktThreshold cfg.blacklistSeconds }

theorem afterCleanup_core (env : Env) (saved : Bool) (reloaded : Option CfgData) (s : NatServer) :
    core (afterCleanup env saved reloaded s) =
      { core s with
        cfg := reloaded.getD s.cfg
        peers := s.peers.cleanupAuthSessions env.now } := by
  cases reloaded <;> rfl

theorem requestSyncSnapshot_eq (env : Env) (s : NatServer) :
    requestSyncSnapshot env s = (s, if s.syncEnabled then
      broadcastOut s msgSyncSnapshotReq (be32 (time32 env.now)) none else []) := by
  unfold requestSyncSnapshot
  cases s.syncEnabled
  · rfl
  · exact broadcastSyncMsg_out _ _ _ s

def proxyPass (env : Env) (proxyDue : Bool) : Action :=
  if proxyDue then
    andThen (fun s => forEach sendProxyAvailQuery s.cfg.proxyIps s)
      (Effects.modify (markProxyStale env))
  else skip

theorem proxyPass_spec (env : Env) (proxyDue : Bool) (s : NatServer) :
    core (proxyPass env proxyDue s).1 = core s ∧ ∀ o ∈ (proxyPass env proxyDue s).2, Plain o := by
  cases proxyDue with
  | false => exact ⟨rfl, fun o ho => by cases ho⟩
  | true =>
    have hq : forEach sendProxyAvailQuery s.cfg.proxyIps s =
        (s, s.cfg.proxyIps.flatMap fun ip => (sendProxyAvailQuery ip s).2) :=
      forEach_eq _ fun ip => Prod.ext (by rw [sendProxyAvailQuery, sendMsg_fst]) rfl
    simp only [proxyPass, if_true, andThen, Effects.modify, markProxyStale, hq, List.append_nil]
    refine ⟨rfl, fun o ho => ?_⟩
    obtain ⟨ip, -, ho⟩ := List.mem_flatMap.mp ho
    exact sendMsg_plain rfl o ho

theorem timerPass_eq (env : Env) (proxyDue snapDue saved : Bool) (reloaded : Option CfgData) :
    timerPass env proxyDue snapDue saved reloaded =
      andThen (cleanupPass env) (andThen (Effects.modify (afterCleanup env saved reloaded))
        (andThen (proxyPass env proxyDue) (if snapDue then requestSyncSnapshot env else skip))) :=
  rfl

/-- One pass of the timer: the core, and what is sent apart from questions to proxies. -/
theorem timerPass_spec (env : Env) (proxyDue snapDue saved : Bool) (reloaded : Option CfgData)
    (s : NatServer) :
    core (timerPass env proxyDue snapDue saved reloaded s).1 =
        { core s with
          cfg := reloaded.getD s.cfg
          peers := (s.peers.cleanupTimeoutAndCollect 90 env.now).2.cleanupAuthSessions env.now } ∧
      ∃ queries, (∀ o ∈ queries, Plain o) ∧
        (timerPass env proxyDue snapDue saved reloaded s).2 = timeoutOut env s ++ (queries ++
          if snapDue && s.syncEnabled then
            broadcastOut { s with cfg := reloaded.getD s.cfg } msgSyncSnapshotReq
              (be32 (time32 env.now)) none
          else []) := by
  let cleaned : NatServer := { s with peers := (s.peers.cleanupTimeoutAndCollect 90 env.now).2 }
  let r := afterCleanup env saved reloaded cleaned
  have hr : core r = _ := afterCleanup_core env saved reloaded cleaned
  obtain ⟨hpc, hpp⟩ := proxyPass_spec env proxyDue r
  have hon : (proxyPass env proxyDue r).1.syncEnabled = s.syncEnabled := by
    have h1 := congrArg Core.syncOn (hpc.trans hr)
    have h2 := congrArg Core.syncAddrs (hpc.trans hr)
    simp only [core] at h1 h2
    simp only [syncEnabled, h1, h2, cleaned]
  have hcast : broadcastOut (proxyPass env proxyDue r).1 msgSyncSnapshotReq (be32 (time32 env.now))
      none = broadcastOut { s with cfg := reloaded.getD s.cfg } msgSyncSnapshotReq
        (be32 (time32 env.now)) none := by
    have h1 := congrArg Core.cfg (hpc.trans hr)
    have h2 := congrArg Core.syncAddrs (hpc.trans hr)
    simp only [core] at h1 h2
    simp only [broadcastOut, h1, h2, cleaned]
  rw [timerPass_eq]
  simp only [andThen, cleanupPass_eq, Effects.modify]
  cases snapDue with
  | false =>
    simp only [Bool.false_eq_true, if_false, skip, Bool.false_and, List.nil_append]
    exact ⟨hpc.trans hr, _, hpp, rfl⟩
  | true =>
    simp only [if_true, requestSyncSnapshot_eq, List.nil_append, Bool.true_and]
    refine ⟨hpc.trans hr, (proxyPass env proxyDue r).2, hpp, ?_⟩
    change _ ++ (_ ++ if (proxyPass env proxyDue r).1.syncEnabled = true then _ else _) = _
    rw [hon, hcast]

end P2PServer.PacketCases
