import P2PServer.ProxyCandidates
import P2PServer.SyncOutputs

/-! Which proxies a server hands out over a run. The health table is filled by answers, and only
`pick_proxy` reads it; every other handler leaves the scheduling aside. -/
namespace P2PServer.ProxySchedule
open ByteStrings ProtoDef Net NatServer Effects SyncCluster Registry PacketCases ServerRun Gates SyncOutputs
  ProxyCandidates Transitions

/-- What the scheduling reads. -/
def schedule (s : NatServer) : CfgData × UInt16 × List ProxyHealth := (s.cfg, s.proxyPort, s.proxyHealth)

def SameSchedule (s t : NatServer) : Prop := schedule t = schedule s

instance : Std.Refl SameSchedule := ⟨fun _ => rfl⟩

instance : IsTrans NatServer SameSchedule := ⟨fun _ _ _ h h' => h'.trans h⟩

/-- The candidates in an ack or an invite. -/
def offeredBy (msgId : UInt8) (p : Bytes) : List Bytes :=
  if msgId = msgConnectAck then candidatesAt p 71
  else if msgId = msgConnectInvite then candidatesAt p 70 else []

def offered : Out → List Bytes
  | .send _ data => (readDatagram data).elim [] fun r => offeredBy r.1 r.2
  | .writeFile _ _ => []

def Silent (o : Out) : Prop := offered o = []

/-- The scheduling is left as it was and nothing is offered. -/
abbrev Aside (s : NatServer) (r : NatServer × List Out) : Prop := Within SameSchedule Silent s r

section
variable {env : Env} {p : Bytes} {src dst : Addr} {s : NatServer}

theorem silent_datagram {msgId : UInt8} (hid : msgId ≠ msgConnectAck ∧ msgId ≠ msgConnectInvite)
    (payload : Bytes) : Silent (.send dst (datagram msgId payload)) := by
  change (readDatagram (datagram msgId payload)).elim [] (fun r => offeredBy r.1 r.2) = []
  rcases hread : readDatagram (datagram msgId payload) with _ | ⟨id, q⟩
  · rfl
  · rw [Option.elim_some, readDatagram_id hread, offeredBy, if_neg hid.1, if_neg hid.2]

theorem sendMsg_aside {msgId : UInt8} {payload : Bytes}
    (hid : msgId ≠ msgConnectAck ∧ msgId ≠ msgConnectInvite) : Aside s (sendMsg dst msgId payload s) := by
  refine ⟨?_, fun o ho => ?_⟩
  · rw [sendMsg_fst]
    exact Std.Refl.refl s
  · rw [mem_sendMsg ho]
    exact silent_datagram hid payload

theorem syncSendMsg_aside {msgId : UInt8} {payload : Bytes}
    (hid : msgId ≠ msgConnectAck ∧ msgId ≠ msgConnectInvite) : Aside s (syncSendMsg dst msgId payload s) := by
  unfold syncSendMsg
  split
  · exact Within.nothing
  · exact sendMsg_aside hid

theorem broadcastSyncMsg_aside {msgId : UInt8} {payload : Bytes} {except : Option Addr}
    (hid : msgId ≠ msgConnectAck ∧ msgId ≠ msgConnectInvite) :
    Aside s (broadcastSyncMsg msgId payload except s) := by
  refine Within.forEach (fun a t => ?_) s.syncAddrs s
  split
  · exact Within.nothing
  · exact syncSendMsg_aside hid

theorem sendPeerEntry_aside {peer : Peer} {hop : UInt8} : Aside s (sendPeerEntry dst peer hop s) :=
  syncSendMsg_aside (by decide)

theorem handleHeartbeat_aside {req : UuidReq} {extinfo : Bytes} {enc : Option Bytes} :
    Aside s (handleHeartbeat env req extinfo src enc s) := by
  have hgate : SameSchedule s (heartbeatGate env req.uuid s).2 := by
    unfold heartbeatGate
    dsimp only
    split
    · rfl
    · split <;> rfl
  have hrsp (rsp : ExtInfoRsp) (t : NatServer) : Aside t (sendHeartbeatRsp src req.uuidRaw rsp enc t) := by
    unfold sendHeartbeatRsp
    cases enc <;> exact sendMsg_aside (by decide)
  have hentry (t : NatServer) : Aside t (broadcastPeerEntry env req extinfo src t) := by
    unfold broadcastPeerEntry
    split
    · exact Within.nothing
    · exact Within.forEach (fun a u => sendPeerEntry_aside) t.syncAddrs t
  unfold handleHeartbeat
  dsimp only
  split
  · exact Within.after hgate (hrsp _ _)
  · exact Within.after hgate (.andThen (.state rfl) (.andThen (hentry _) (hrsp _ _)))

theorem onHeartbeatReq_aside : Aside s (onHeartbeatReq env p src s) := by
  unfold onHeartbeatReq
  split
  · exact Within.nothing
  · exact handleHeartbeat_aside

theorem onHeartbeatReqEnc_aside : Aside s (onHeartbeatReqEnc env p src s) := by
  unfold onHeartbeatReqEnc
  split
  · exact Within.nothing
  · exact handleHeartbeat_aside

theorem onExtinfoReq_aside {msgId : UInt8} : Aside s (onExtinfoReq env msgId p src s) := by
  unfold onExtinfoReq
  split
  · obtain ⟨peers, hs | ⟨dst, hs⟩⟩ := onSndExtinfoReq_cases env p s
    · rw [hs]
      exact .state rfl
    · rw [hs]
      exact Within.after rfl (sendMsg_aside (by decide))
  · unfold onAskExtinfoReq
    dsimp only
    split
    · exact sendMsg_aside (by decide)
    · split <;> exact sendMsg_aside (by decide)

theorem onIceSdp_aside : Aside s (onIceSdp p s) := by
  unfold onIceSdp
  dsimp only
  split
  · exact Within.nothing
  · split
    · exact Within.nothing
    · split
      · exact Within.nothing
      · exact sendMsg_aside (by decide)

theorem onDeleteUidReq_aside : Aside s (onDeleteUidReq env p s) := by
  unfold onDeleteUidReq saveLicense
  dsimp only
  split
  · split
    · refine ⟨rfl, fun o ho => ?_⟩
      rw [List.mem_singleton.mp ho]
      rfl
    · exact Within.state rfl
  · exact Within.state rfl

theorem authGate_same {uuid : Bytes} : SameSchedule s (authGate env uuid s).2 := by
  unfold authGate
  dsimp only
  split
  · rfl
  · split <;> rfl

theorem onAuthChallengeReq_aside : Aside s (onAuthChallengeReq env p src s) := by
  unfold onAuthChallengeReq
  dsimp only
  generalize (if p.length ≥ 33 then uuidAt p 0 else []) = uuid
  have hissue : SameSchedule s (issueAuthNonce env uuid (authGate env uuid s).2) := authGate_same (s := s)
  split
  · exact Within.after authGate_same (sendMsg_aside (by decide))
  · exact Within.after hissue (sendMsg_aside (by decide))

theorem loginResult_same : SameSchedule s (loginResult env p s).2 := by
  have hverify (t : NatServer) : SameSchedule t
      (verifyAuthLogin env (uuidAt p 0) (window p 33 16) (window p 49 32) t).2 := by
    unfold verifyAuthLogin
    split
    · rfl
    · split
      · rfl
      · dsimp only
        split_ifs <;> rfl
  unfold loginResult
  dsimp only
  split
  · exact authGate_same
  · split
    · exact authGate_same
    · exact IsTrans.trans _ _ _ authGate_same (hverify _)

theorem onAuthLoginReq_aside : Aside s (onAuthLoginReq env p src s) := by
  unfold onAuthLoginReq
  split
  · exact Within.nothing
  · exact Within.after loginResult_same (sendMsg_aside (by decide))

theorem onAdminBlacklistReq_aside : Aside s (onAdminBlacklistReq env p src s) := by
  unfold onAdminBlacklistReq
  split
  · exact Within.nothing
  · split
    · exact sendMsg_aside (by decide)
    · split
      · exact sendMsg_aside (by decide)
      · exact Within.after rfl (sendMsg_aside (by decide))

theorem handleSyncEntry_aside {e : SyncPeerEntry} {extinfo : Bytes} :
    Aside s (handleSyncEntry env e extinfo src s) := by
  have hseen : SameSchedule s (seenSyncEntry env e.uuid e.hbTime src s).2 := by
    unfold seenSyncEntry
    dsimp only
    split_ifs <;> rfl
  have hcheck : SameSchedule s
      (if e.hop ≠ syncHopSnap then seenSyncEntry env e.uuid e.hbTime src s else (false, s)).2 := by
    split
    · exact hseen
    · rfl
  unfold handleSyncEntry
  dsimp only
  generalize (if e.hop ≠ syncHopSnap then seenSyncEntry env e.uuid e.hbTime src s else (false, s)) = seen
    at hcheck ⊢
  have hstored (m : PeerManager) : SameSchedule s { seen.2 with peers := m } := hcheck
  split
  · exact Within.nothing
  · split
    · exact Within.nothing
    · split
      · exact Within.state hcheck
      · split
        · exact Within.after (hstored _) (broadcastSyncMsg_aside (by decide))
        · exact Within.state (hstored _)

theorem onSyncPeerEntry_aside : Aside s (onSyncPeerEntry env p src s) := by
  unfold onSyncPeerEntry
  dsimp only
  split
  · exact Within.nothing
  · split
    · exact Within.nothing
    · split
      · exact Within.nothing
      · exact handleSyncEntry_aside

theorem onSyncPeerDel_aside : Aside s (onSyncPeerDel p src s) := by
  unfold onSyncPeerDel handleSyncDel
  split
  · exact Within.nothing
  · split
    · exact Within.nothing
    · split
      · exact Within.nothing
      · exact .andThen (broadcastSyncMsg_aside (by decide)) (.state rfl)

theorem onSyncSnapshotReq_aside : Aside s (onSyncSnapshotReq env p src s) := by
  unfold onSyncSnapshotReq handleSyncSnapshotReq
  dsimp only
  split
  · exact Within.nothing
  · split
    · exact Within.nothing
    · split
      · exact Within.nothing
      · split
        · exact Within.nothing
        · exact Within.forEach (fun a t => sendPeerEntry_aside) _ s

theorem dispatch_aside {msgId : UInt8} (hconn : msgId ≠ msgConnectReq) (hrsp : msgId ≠ msgSpAskExtinfoRsp) :
    Aside s (dispatch env msgId p src s) := by
  have hways := dispatch_selects env msgId p src
  generalize dispatch env msgId p src = f at hways ⊢
  cases hways with
  | heartbeat => exact onHeartbeatReq_aside
  | addUid => exact onHeartbeatReq_aside
  | heartbeatEnc => exact onHeartbeatReqEnc_aside
  | sndExtinfo => exact onExtinfoReq_aside
  | askExtinfo => exact onExtinfoReq_aside
  | connect => exact absurd rfl hconn
  | iceSdp => exact onIceSdp_aside
  | getDevList => exact sendMsg_aside (by decide)
  | getServerList => exact sendMsg_aside (by decide)
  | deleteUid => exact onDeleteUidReq_aside
  | checkUid => exact sendMsg_aside (by decide)
  | authChallenge => exact onAuthChallengeReq_aside
  | authLogin => exact onAuthLoginReq_aside
  | adminStats => exact sendMsg_aside (by decide)
  | adminBlacklist => exact onAdminBlacklistReq_aside
  | syncPeerEntry => exact onSyncPeerEntry_aside
  | syncPeerDel => exact onSyncPeerDel_aside
  | syncSnapshot => exact onSyncSnapshotReq_aside
  | spAskExtinfo => exact absurd rfl hrsp
  | other => exact Within.nothing

/-- The report in an answer of a proxy. -/
def reportOf (data : Bytes) : Option ProxyAvailRsp :=
  match readDatagram data with
  | some (msgId, p) =>
    if msgId = msgSpAskExtinfoRsp ∧ 5 ≤ p.length then some ⟨byteAt p 0, u16At p 1, u16At p 3⟩ else none
  | none => none

theorem offered_datagram {msgId : UInt8} {payload : Bytes} (h : payload.length < 4294967296) :
    offered (.send dst (datagram msgId payload)) = offeredBy msgId payload := by
  change (readDatagram (datagram msgId payload)).elim [] (fun r => offeredBy r.1 r.2) = _
  rw [readDatagram_datagram msgId h, Option.elim_some]

theorem drop_of_length {w a b : Bytes} {j : ℕ} (h : w = a ++ b) (hj : a.length = j) : w.drop j = b := by
  rw [h, ← hj, List.drop_left]

theorem connectAck_length (result : UInt8) {raw : Bytes} (hraw : raw.length = 32) (body : Bytes) :
    (connectAck result raw body).length = 34 + body.length := by
  simp only [connectAck, List.length_append, List.length_take, hraw, maxUuidLen, List.length_singleton]
  omega

theorem connectAck_drop (result : UInt8) {raw addrs rest : Bytes} (hraw : raw.length = 32)
    (haddrs : addrs.length = 37) : (connectAck result raw (addrs ++ rest)).drop 71 = rest :=
  drop_of_length (a := [result] ++ raw.take maxUuidLen ++ [0] ++ addrs) (by simp [connectAck])
    (by simp [hraw, haddrs, maxUuidLen])

theorem offeredBy_refusal (result : UInt8) {raw : Bytes} (hraw : raw.length = 32) :
    offeredBy msgConnectAck (connectAck result raw emptyAck) = [] := by
  have haddrs : (List.replicate 37 (0 : UInt8)).length = 37 := List.length_replicate
  have htable : (connectAck result raw emptyAck).drop 71 = 0 :: List.replicate 54 0 :=
    connectAck_drop result hraw haddrs
  rw [offeredBy, if_pos rfl, candidatesAt, byteAt_of_drop htable]
  rfl

/-- What a request for a connection can offer. -/
def Offers (env : Env) (s : NatServer) (o : Out) : Prop :=
  offered o = [] ∨ ∃ draw, offered o = pickProxy env draw s

theorem onConnectReq_same : SameSchedule s (onConnectReq env p src s).1 := by
  have hways := onConnectReq_connects env p src s
  generalize onConnectReq env p src s = r at hways ⊢
  cases hways <;> rfl

theorem onConnectReq_offers (hhealth : ∀ p ∈ s.proxyHealth, ∃ a, p.ip = inetNtop a)
    (hcfg : ∀ ip ∈ s.cfg.proxyIps, CfgFile.validIp ip = true) :
    ∀ o ∈ (onConnectReq env p src s).2, Offers env s o := by
  have hread (draw : ℕ → ℕ) {q : Bytes} {i : ℕ} (hq : q.drop i = proxyTable s.proxyPort (pickProxy env draw s)) :
      candidatesAt q i = pickProxy env draw s := by
    refine candidatesAt_proxyTable (fun ip hip => ?_) (pickProxy_length env draw s) hq
    rcases (usable_of_texts hhealth hcfg env draw).whole ip hip with h | h
    · exact healthyProxies_text env hhealth ip h
    · exact ipText_of_valid (hcfg ip h)
  have htable (draw : ℕ → ℕ) := proxyTable_length s.proxyPort (pickProxy_length env draw s)
  have hfields (hlen : ¬p.length < connectReqSize) :
      (window p 33 maxUuidLen).length = 32 ∧ (window p 0 maxUuidLen).length = 32 := by
    have hsize : connectReqSize = 66 := rfl
    simp only [window, List.length_take, List.length_drop, maxUuidLen]
    omega
  have hways := onConnectReq_connects env p src s
  generalize onConnectReq env p src s = r at hways ⊢
  intro o ho
  cases hways with
  | short => cases ho
  | refused hlen =>
    obtain ⟨hraw, -⟩ := hfields hlen
    refine .inl ?_
    rw [mem_sendMsg ho, offered_datagram, offeredBy_refusal _ hraw]
    rw [connectAck_length _ hraw, emptyAck, List.length_replicate]
    omega
  | granted hlen =>
    obtain ⟨hraw, hhead⟩ := hfields hlen
    refine .inr ?_
    rcases List.mem_append.mp ho with ho | ho
    · refine ⟨env.draw, ?_⟩
      rw [mem_sendMsg ho, offered_datagram, offeredBy, if_pos rfl]
      · exact hread _ (connectAck_drop _ hraw (peerAddresses_length _ _ _))
      · rw [grantedAck, connectAck_length _ hraw, List.length_append, peerAddresses_length, htable]
        omega
    · refine ⟨fun k => env.draw (k + 3), ?_⟩
      rw [mem_sendMsg ho, offered_datagram, offeredBy, if_neg (by decide), if_pos rfl]
      · exact hread _ (drop_of_length rfl (by simp [hhead, peerAddresses_length]))
      · simp [grantedInvite, peerAddresses_length, htable, hhead]

/-- The health table after a packet. -/
def healthAfter (env : Env) (data : Bytes) (src : Addr) (s : NatServer) : List ProxyHealth :=
  match reportOf data with
  | some rsp => (collectProxyAvail env src rsp s).proxyHealth
  | none => s.proxyHealth

theorem collectProxyAvail_eq (rsp : ProxyAvailRsp) : collectProxyAvail env src rsp s =
    { s with proxyHealth := (collectProxyAvail env src rsp s).proxyHealth } := by
  unfold collectProxyAvail
  dsimp only
  split <;> rfl

theorem handlePacket_schedule (env : Env) (data : Bytes) (src : Addr) (s : NatServer) :
    schedule (handlePacket env data src s).1 = (s.cfg, s.proxyPort, healthAfter env data src s) := by
  cases hread : readDatagram data with
  | none =>
    rw [healthAfter, reportOf, handlePacket, hread]
    rfl
  | some r =>
    obtain ⟨msgId, p⟩ := r
    rw [handlePacket_read hread, healthAfter, reportOf, hread]
    dsimp only
    by_cases hrsp : msgId = msgSpAskExtinfoRsp
    · have hdispatch : dispatch env msgId p src s = onSpAskExtinfoRsp env p src s := by
        rw [hrsp]
        rfl
      rw [hdispatch, onSpAskExtinfoRsp]
      by_cases hlen : p.length < 5
      · rw [if_pos hlen, if_neg (by omega)]
        rfl
      · rw [if_neg hlen, if_pos ⟨hrsp, by omega⟩, Effects.modify]
        dsimp only
        rw [collectProxyAvail_eq]
        rfl
    · rw [if_neg fun h => hrsp h.1]
      by_cases hconn : msgId = msgConnectReq
      · have hdispatch : dispatch env msgId p src s = onConnectReq env p src s := by
          rw [hconn]
          rfl
        rw [hdispatch]
        exact onConnectReq_same
      · exact (dispatch_aside hconn hrsp).1

theorem handlePacket_offers (hhealth : ∀ p ∈ s.proxyHealth, ∃ a, p.ip = inetNtop a)
    (hcfg : ∀ ip ∈ s.cfg.proxyIps, CfgFile.validIp ip = true) (data : Bytes) :
    ∀ o ∈ (handlePacket env data src s).2, Offers env s o := by
  cases hread : readDatagram data with
  | none =>
    rw [handlePacket, hread]
    intro o ho
    cases ho
  | some r =>
    obtain ⟨msgId, p⟩ := r
    rw [handlePacket_read hread]
    by_cases hconn : msgId = msgConnectReq
    · have hdispatch : dispatch env msgId p src s = onConnectReq env p src s := by
        rw [hconn]
        rfl
      rw [hdispatch]
      exact onConnectReq_offers hhealth hcfg
    · by_cases hrsp : msgId = msgSpAskExtinfoRsp
      · have hdispatch : dispatch env msgId p src s = onSpAskExtinfoRsp env p src s := by
          rw [hrsp]
          rfl
        rw [hdispatch, onSpAskExtinfoRsp]
        intro o ho
        split at ho <;> cases ho
      · exact fun o ho => .inl ((dispatch_aside hconn hrsp).2 o ho)

theorem markProxyStale_congr {t : NatServer} (h : t.proxyHealth = s.proxyHealth) :
    (markProxyStale env t).proxyHealth = (markProxyStale env s).proxyHealth := by
  change List.map _ t.proxyHealth = List.map _ s.proxyHealth
  rw [h]

theorem proxyPass_schedule (proxyDue : Bool) :
    schedule (proxyPass env proxyDue s).1 =
        (s.cfg, s.proxyPort, if proxyDue then (markProxyStale env s).proxyHealth else s.proxyHealth) ∧
      ∀ o ∈ (proxyPass env proxyDue s).2, Silent o := by
  cases proxyDue with
  | false => exact ⟨rfl, fun o ho => by cases ho⟩
  | true =>
    obtain ⟨hsame, hsilent⟩ : Aside s (forEach sendProxyAvailQuery s.cfg.proxyIps s) :=
      Within.forEach (fun ip t => sendMsg_aside (by decide)) _ _
    let t := (forEach sendProxyAvailQuery s.cfg.proxyIps s).1
    have hcfg : t.cfg = s.cfg := congrArg Prod.fst hsame
    have hport : t.proxyPort = s.proxyPort := congrArg (fun x => x.2.1) hsame
    have hhealth : t.proxyHealth = s.proxyHealth := congrArg (fun x => x.2.2) hsame
    refine ⟨?_, fun o ho => ?_⟩
    · change (t.cfg, t.proxyPort, (markProxyStale env t).proxyHealth) = _
      rw [hcfg, hport, markProxyStale_congr hhealth]
      rfl
    · rw [proxyPass, if_pos rfl] at ho
      rcases mem_andThen.mp ho with ho | ho
      · exact hsilent o ho
      · cases ho

theorem timerPass_schedule (env : Env) (proxyDue snapDue saved : Bool) (reloaded : Option CfgData) (s : NatServer) :
    schedule (timerPass env proxyDue snapDue saved reloaded s).1 =
        (reloaded.getD s.cfg, s.proxyPort, if proxyDue then (markProxyStale env s).proxyHealth else s.proxyHealth) ∧
      ∀ o ∈ (timerPass env proxyDue snapDue saved reloaded s).2, Silent o := by
  obtain ⟨hclean, hcleanOut⟩ : Aside s (cleanupPass env s) :=
    Within.after rfl (Within.forEach (fun u t => broadcastSyncMsg_aside (by decide)) _ _)
  let s₁ := (cleanupPass env s).1
  let s₂ := afterCleanup env saved reloaded s₁
  have h₂ : schedule s₂ = (reloaded.getD s.cfg, s.proxyPort, s.proxyHealth) := by
    have hafter : schedule s₂ = (reloaded.getD s₁.cfg, s₁.proxyPort, s₁.proxyHealth) := by
      cases reloaded <;> rfl
    have hcfg : s₁.cfg = s.cfg := congrArg Prod.fst hclean
    have hrest : (s₁.proxyPort, s₁.proxyHealth) = (s.proxyPort, s.proxyHealth) := congrArg Prod.snd hclean
    rw [hafter, hcfg, hrest]
  obtain ⟨h₃, hqueryOut⟩ := @proxyPass_schedule env s₂ proxyDue
  let s₃ := (proxyPass env proxyDue s₂).1
  obtain ⟨hsnap, hsnapOut⟩ : Aside s₃ ((if snapDue then requestSyncSnapshot env else skip : Action) s₃) := by
    cases snapDue with
    | false => exact Within.nothing
    | true =>
      change Aside s₃ (requestSyncSnapshot env s₃)
      unfold requestSyncSnapshot
      split
      · exact Within.nothing
      · exact broadcastSyncMsg_aside (by decide)
  have hcfg₂ : s₂.cfg = reloaded.getD s.cfg := congrArg Prod.fst h₂
  have hport₂ : s₂.proxyPort = s.proxyPort := congrArg (fun x => x.2.1) h₂
  have hhealth₂ : s₂.proxyHealth = s.proxyHealth := congrArg (fun x => x.2.2) h₂
  rw [timerPass_eq]
  refine ⟨?_, fun o ho => ?_⟩
  · have hlast : schedule (andThen (cleanupPass env) (andThen (Effects.modify (afterCleanup env saved reloaded))
        (andThen (proxyPass env proxyDue) (if snapDue then requestSyncSnapshot env else skip))) s).1 = schedule s₃ := hsnap
    rw [hlast, h₃, markProxyStale_congr hhealth₂, hcfg₂, hport₂, hhealth₂]
  · rcases mem_andThen.mp ho with ho | ho
    · exact hcleanOut o ho
    · rcases mem_andThen.mp ho with ho | ho
      · cases ho
      · rcases mem_andThen.mp ho with ho | ho
        · exact hqueryOut o ho
        · exact hsnapOut o ho

end

/-- A server with an empty health table and a configuration that does not change. -/
def configured : System NatServer Event where
  init s := (∀ ip ∈ s.cfg.proxyIps, CfgFile.validIp ip = true) ∧ s.proxyHealth = []
  enabled s e := match e with
    | .packet _ _ _ => True
    | .timer _ _ _ _ reloaded => reloaded.getD s.cfg = s.cfg
  next s e := (step s e).1

/-- An answer to the probing comes from a configured proxy. -/
def FromProxy (s : NatServer) : Event → Prop
  | .packet _ data src => (reportOf data).isSome → inetNtop src.ip ∈ s.cfg.proxyIps
  | .timer _ _ _ _ _ => True

theorem mem_collectProxyAvail {env : Env} {src : Addr} {rsp : ProxyAvailRsp} {s : NatServer} {p : ProxyHealth}
    (h : p ∈ (collectProxyAvail env src rsp s).proxyHealth) : p ∈ s.proxyHealth ∨ p.ip = inetNtop src.ip := by
  unfold collectProxyAvail at h
  dsimp only at h
  split at h
  · rcases List.mem_or_eq_of_mem_set h with h | rfl
    · exact .inl h
    · exact .inr rfl
  · rcases List.mem_append.mp h with h | h
    · exact .inl h
    · rw [List.mem_singleton.mp h]
      exact .inr rfl

/-- Every entry of the health table was in it before or is the sender's. -/
theorem mem_health_step {s : NatServer} {e : Event} {p : ProxyHealth} (h : p ∈ (step s e).1.proxyHealth) :
    (∃ q ∈ s.proxyHealth, q.ip = p.ip) ∨
      ∃ env data src, e = .packet env data src ∧ (reportOf data).isSome ∧ p.ip = inetNtop src.ip := by
  cases e with
  | packet env data src =>
    have hsched : (step s (.packet env data src)).1.proxyHealth = healthAfter env data src s :=
      congrArg (fun x => x.2.2) (handlePacket_schedule env data src s)
    rw [hsched, healthAfter] at h
    cases hrep : reportOf data with
    | none =>
      rw [hrep] at h
      exact .inl ⟨p, h, rfl⟩
    | some rsp =>
      rw [hrep] at h
      rcases mem_collectProxyAvail h with h | h
      · exact .inl ⟨p, h, rfl⟩
      · exact .inr ⟨env, data, src, rfl, by rw [hrep]; rfl, h⟩
  | timer env proxyDue snapDue saved reloaded =>
    have hsched : (step s (.timer env proxyDue snapDue saved reloaded)).1.proxyHealth = _ :=
      congrArg (fun x => x.2.2) (timerPass_schedule env proxyDue snapDue saved reloaded s).1
    rw [hsched] at h
    dsimp only at h
    left
    split at h
    · obtain ⟨q, hq, rfl⟩ := List.mem_map.mp h
      refine ⟨q, hq, ?_⟩
      split <;> rfl
    · exact ⟨p, h, rfl⟩

theorem step_cfg {s : NatServer} {e : Event} (h : configured.enabled s e) : (step s e).1.cfg = s.cfg := by
  cases e with
  | packet env data src => exact congrArg Prod.fst (handlePacket_schedule env data src s)
  | timer env proxyDue snapDue saved reloaded =>
    exact (congrArg Prod.fst (timerPass_schedule env proxyDue snapDue saved reloaded s).1).trans h

/-- The texts of a run: valid addresses in the configuration and addresses of senders in the table. -/
structure Texts (s : NatServer) : Prop where
  cfg : ∀ ip ∈ s.cfg.proxyIps, CfgFile.validIp ip = true
  health : ∀ p ∈ s.proxyHealth, ∃ a, p.ip = inetNtop a

theorem Texts.step {s : NatServer} {e : Event} (h : Texts s) (hcan : configured.enabled s e) :
    Texts (step s e).1 where
  cfg := by
    rw [step_cfg hcan]
    exact h.cfg
  health p hp := by
    rcases mem_health_step hp with ⟨q, hq, heq⟩ | ⟨env, data, src, -, -, heq⟩
    · rw [← heq]
      exact h.health q hq
    · exact ⟨src.ip, heq⟩

theorem texts_reach {ok : NatServer → Event → Prop} {s : NatServer} (h : Reach configured ok s) : Texts s := by
  have hstart (s : NatServer) (h0 : configured.init s) : Texts s := by
    refine ⟨h0.1, ?_⟩
    rw [h0.2]
    exact fun p hp => by cases hp
  exact h.invariant hstart fun s e hs hcan _ => hs.step hcan

theorem pickProxy_usable_reach {s : NatServer} (h : Reachable configured s) (env : Env) (draw : ℕ → ℕ) :
    Usable env s (pickProxy env draw s) :=
  usable_of_texts (texts_reach h).health (texts_reach h).cfg env draw

theorem health_configured {s : NatServer} (h : Reach configured FromProxy s) :
    ∀ p ∈ s.proxyHealth, p.ip ∈ s.cfg.proxyIps := by
  refine h.invariant (I := fun s => ∀ p ∈ s.proxyHealth, p.ip ∈ s.cfg.proxyIps) (fun s h0 => ?_)
    fun s e hs hcan hfrom p hp => ?_
  · rw [h0.2]
    exact fun p hp => by cases hp
  · have hcfg : (configured.next s e).cfg = s.cfg := step_cfg hcan
    rw [hcfg]
    rcases mem_health_step hp with ⟨q, hq, heq⟩ | ⟨env, data, src, rfl, hrep, heq⟩
    · rw [← heq]
      exact hs q hq
    · rw [heq]
      exact hfrom hrep

/-- If all answers to the probing come from configured proxies, only configured proxies are handed out. -/
theorem offered_configured {s : NatServer} (h : Reach configured FromProxy s) (e : Event) :
    ∀ o ∈ (step s e).2, ∀ ip ∈ offered o, ip ∈ s.cfg.proxyIps := by
  intro o ho ip hip
  cases e with
  | packet env data src =>
    have htexts := texts_reach h
    rcases handlePacket_offers htexts.health htexts.cfg data o ho with hnone | ⟨draw, hpick⟩
    · rw [hnone] at hip
      cases hip
    · rw [hpick] at hip
      rcases (usable_of_texts htexts.health htexts.cfg env draw).whole ip hip with hhealthy | hcfg
      · obtain ⟨p, hp, rfl⟩ := List.mem_map.mp hhealthy
        exact health_configured h p (List.mem_of_mem_filter hp)
      · exact hcfg
  | timer env proxyDue snapDue saved reloaded =>
    have hsilent := (timerPass_schedule env proxyDue snapDue saved reloaded s).2 o ho
    rw [hsilent] at hip
    cases hip

def freshServer : NatServer := { cfg := { proxyIps := [CfgFile.localhost] } }

theorem freshServer_init : configured.init freshServer := ⟨by decide, rfl⟩

def connectTo (uuid : Bytes) : Event :=
  .packet {} (datagram msgConnectReq (uuidField [0x61] ++ uuidField uuid)) ⟨0x0A000001, 5000⟩

def registered (uuid : Bytes) : Event :=
  .packet {} (datagram msgHeartbeatReq (uuidField uuid ++ [1, 0, 0, 0, 0, 0, 0, 1, 0, 0])) ⟨0x0A000001, 5000⟩

/-- An answer to the probing: available, and none of a thousand users. -/
def answered (src : Addr) : Event := .packet {} (datagram msgSpAskExtinfoRsp ([1] ++ be16 0 ++ be16 1000)) src

def servedRun : NatServer :=
  (step (step freshServer (registered [0x62])).1 (answered ⟨0x7F000001, 7000⟩)).1

theorem servedRun_reach : Reach configured FromProxy servedRun := by
  have hdevice : Reach configured FromProxy (step freshServer (registered [0x62])).1 :=
    Reach.step (S := configured) (e := registered [0x62]) (Reach.start freshServer_init) trivial
      fun hreport => absurd hreport (by decide)
  exact Reach.step (S := configured) (e := answered ⟨0x7F000001, 7000⟩) hdevice trivial
    fun _ => by decide +kernel

theorem offered_configured_answered : servedRun.proxyHealth ≠ [] ∧
    ∃ o ∈ (step servedRun (connectTo [0x62])).2, ∃ ip ∈ offered o, ip ∈ servedRun.cfg.proxyIps := by
  have hoffered : ∃ o ∈ (step servedRun (connectTo [0x62])).2, CfgFile.localhost ∈ offered o := by decide +kernel
  obtain ⟨o, ho, hip⟩ := hoffered
  exact ⟨by decide +kernel, o, ho, CfgFile.localhost, hip,
    offered_configured servedRun_reach (connectTo [0x62]) o ho _ hip⟩

def strangerRun : NatServer := (step (step freshServer (registered [0x62])).1 (answered ⟨0x06060606, 7000⟩)).1

/-- Whoever sends an answer to the probing is handed out as a proxy. -/
theorem stranger_offered : ¬∀ (s : NatServer) (e : Event), Reachable configured s →
    ∀ o ∈ (step s e).2, ∀ ip ∈ offered o, ip ∈ s.cfg.proxyIps := by
  intro h
  have hreach : Reachable configured strangerRun :=
    Reach.step (S := configured) (e := answered ⟨0x06060606, 7000⟩)
      (Reach.step (S := configured) (e := registered [0x62]) (Reach.start freshServer_init) trivial trivial)
      trivial trivial
  have hoffered : ∃ o ∈ (step strangerRun (connectTo [0x62])).2, ∃ ip ∈ offered o,
      ip ∉ strangerRun.cfg.proxyIps := by decide +kernel
  obtain ⟨o, ho, ip, hip, hout⟩ := hoffered
  exact hout (h strangerRun (connectTo [0x62]) hreach o ho ip hip)

end P2PServer.ProxySchedule
