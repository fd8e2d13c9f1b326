import P2PServer.Expiry
import P2PServer.FloodCounter
import P2PServer.PacketQueue

/-! The blacklists as the history of their decisions: bans of the flood detection, and bans and their
removal by authenticated administrators. What the tests of a packet and of a uuid answer follows from
these decisions and the clock, whatever the expiry and the sweeps of all threads have removed. -/
namespace P2PServer.BanHistory
open ByteStrings ProtoDef Net NatServer Effects Registry PacketCases PacketQueue Transitions Expiry

inductive Subject
  | ip (ip : UInt32)
  | uuid (uuid : Bytes)
  deriving DecidableEq

def bans (a : AntiAbuse) : Subject → Option ℤ
  | .ip ip => a.ipBlack[ip]?
  | .uuid uuid => a.uuidBlack[uuid]?

/-- A ban lasts through the second of its end. -/
def term : Lifetime ℤ ℤ where
  alive now expire := now ≤ expire
  early h := by
    simp only [decide_eq_true_eq]
    exact h.trans

/-- An `MSG_ADMIN_BLACKLIST_REQ` with the right MAC: its operation and key. -/
def adminRequest (cfg : CfgData) (data : Bytes) : Option (UInt8 × Bytes) :=
  match readDatagram data with
  | none => none
  | some (msgId, p) =>
    if msgId = msgAdminBlacklistReq ∧ 97 ≤ p.length ∧ cfg.adminSecret.isEmpty = false ∧
        Crypto.hmacSha256 cfg.adminSecret (window p 0 65) = window p 65 32 then
      some (byteAt p 0, textAt p 1 64)
    else none

/-- What an administrator decides: `none` lifts the ban. -/
def adminDecision (a : AntiAbuse) (now : ℤ) (op : UInt8) (key : Bytes) : List (Subject × Option ℤ) :=
  let uuids := if key.isEmpty ∨ key.length > maxUuidLen then [] else [Subject.uuid key]
  let ips := (inetPton key).toList.map Subject.ip
  if op = 1 then ips.map fun k => (k, some (a.banUntil now))
  else if op = 2 then ips.map fun k => (k, none)
  else if op = 3 then uuids.map fun k => (k, some (a.banUntil now))
  else if op = 4 then uuids.map fun k => (k, none)
  else []

/-- The decisions of a step; a flood bans an address that has no entry. -/
def decisions (s : State) : Event → List (Subject × Option ℤ)
  | .flood _ p now =>
    if s.server.abuse.ipBlack[p.src.ip]? = none ∧ (s.server.abuse.checkFlood p.src.ip now).1 then
      [(.ip p.src.ip, some (s.server.abuse.banUntil now))]
    else []
  | .handle _ p env =>
    match adminRequest s.server.cfg p.data with
    | some (op, key) => adminDecision s.server.abuse env.now op key
    | none => []
  | _ => []

/-- The decisions of a run, the latest first. -/
def history : State → List PacketQueue.Event → List (Subject × Option ℤ)
  | _, [] => []
  | s, e :: es => history (PacketQueue.next s e) es ++ decisions s e

/-- At most bans that are over have been removed. -/
structure Lapsed (now : ℤ) (a a' : AntiAbuse) : Prop where
  sec : a'.blacklistSec = a.blacklistSec
  agree : Agree term now (bans a') (bans a)

theorem Lapsed.refl {now : ℤ} {a : AntiAbuse} : Lapsed now a a := ⟨rfl, .refl⟩

theorem Lapsed.trans {now : ℤ} {a a' a'' : AntiAbuse} (h : Lapsed now a a') (h' : Lapsed now a' a'') :
    Lapsed now a a'' := ⟨h'.sec.trans h.sec, h'.agree.trans h.agree⟩

section
variable (a : AntiAbuse) (now : ℤ)

theorem isIpBlacklistedIp_lapsed (ip : UInt32) : Lapsed now a (a.isIpBlacklistedIp ip now).2 := by
  unfold AntiAbuse.isIpBlacklistedIp
  split
  · exact .refl
  · rename_i t ht
    split
    · rename_i hover
      refine ⟨rfl, .purge fun k => ?_⟩
      cases k with
      | uuid => exact .inl rfl
      | ip j =>
        simp only [bans, TreeMaps.erase_get]
        by_cases hj : j = ip
        · refine .inr ⟨if_pos hj, ?_⟩
          rw [hj, ht]
          exact Option.filter_some_neg (by simpa [term] using hover)
        · exact .inl (if_neg hj)
    · exact .refl

theorem isUuidBlacklisted_lapsed (uuid : Bytes) : Lapsed now a (a.isUuidBlacklisted uuid now).2 := by
  unfold AntiAbuse.isUuidBlacklisted
  split
  · exact .refl
  · split
    · exact .refl
    · rename_i t ht
      split
      · rename_i hover
        refine ⟨rfl, .purge fun k => ?_⟩
        cases k with
        | ip => exact .inl rfl
        | uuid u =>
          simp only [bans, TreeMaps.erase_get]
          by_cases hu : u = uuid
          · refine .inr ⟨if_pos hu, ?_⟩
            rw [hu, ht]
            exact Option.filter_some_neg (by simpa [term] using hover)
          · exact .inl (if_neg hu)
      · exact .refl

theorem sweep_lapsed : Lapsed now a (a.sweep now) := by
  have hfilter (o : Option ℤ) : o.filter (fun t => !(now > t)) = o ∨
      o.filter (fun t => !(now > t)) = none ∧ o.filter (term.alive now) = none := by
    have hsame : (fun t : ℤ => !decide (now > t)) = term.alive now := by
      funext t
      rw [Bool.eq_iff_iff]
      simp [term]
    rw [hsame]
    rcases AntiAbuse.filter_or o (t := term.alive now) with h | h
    · exact .inl h
    · exact .inr ⟨h, h⟩
  refine ⟨rfl, .purge fun k => ?_⟩
  cases k with
  | ip j =>
    simp only [bans, AntiAbuse.sweep, TreeMaps.filter_get]
    exact hfilter _
  | uuid u =>
    simp only [bans, AntiAbuse.sweep, TreeMaps.filter_get]
    exact hfilter _

theorem isIpBlacklistedIp_shown (ip : UInt32) :
    (a.isIpBlacklistedIp ip now).1 = (shown term now (bans a) (.ip ip)).isSome := by
  rw [AntiAbuse.gate_verdict, shown, bans]
  cases a.ipBlack[ip]? with
  | none => rfl
  | some t =>
    by_cases ht : now ≤ t <;> simp [term, ht]

theorem isUuidBlacklisted_shown {uuid : Bytes} (hu : uuid ≠ []) :
    (a.isUuidBlacklisted uuid now).1 = (shown term now (bans a) (.uuid uuid)).isSome := by
  unfold AntiAbuse.isUuidBlacklisted
  rw [if_neg (by simpa using hu), shown, bans]
  cases a.uuidBlack[uuid]? with
  | none => rfl
  | some t =>
    by_cases ht : now > t
    · simp [term, ht, not_le.mpr ht]
    · simp [term, ht, not_lt.mp ht]

theorem bans_blacklistIp (ip : UInt32) :
    bans (a.blacklistIp ip now) = Function.update (bans a) (.ip ip) (some (a.banUntil now)) := by
  funext k
  cases k with
  | uuid => rfl
  | ip j => simp [bans, AntiAbuse.blacklistIp, TreeMaps.insert_get, Function.update_apply]

theorem bans_blacklistUuid (uuid : Bytes) :
    bans (a.blacklistUuid uuid now) = Function.update (bans a) (.uuid uuid) (some (a.banUntil now)) := by
  funext k
  cases k with
  | ip => rfl
  | uuid u => simp [bans, AntiAbuse.blacklistUuid, TreeMaps.insert_get, Function.update_apply]

theorem bans_unblacklistIp (ip : UInt32) : bans (a.unblacklistIp ip) = Function.update (bans a) (.ip ip) none := by
  funext k
  unfold AntiAbuse.unblacklistIp
  split
  · cases k with
    | uuid => rfl
    | ip j => simp [bans, TreeMaps.erase_get, Function.update_apply]
  · rename_i habsent
    rw [Function.update_apply]
    split
    · rename_i hk
      rw [hk, bans]
      simpa using habsent
    · rfl

theorem bans_unblacklistUuid (uuid : Bytes) :
    bans (a.unblacklistUuid uuid) = Function.update (bans a) (.uuid uuid) none := by
  funext k
  unfold AntiAbuse.unblacklistUuid
  split
  · cases k with
    | ip => rfl
    | uuid u => simp [bans, TreeMaps.erase_get, Function.update_apply]
  · rename_i habsent
    rw [Function.update_apply]
    split
    · rename_i hk
      rw [hk, bans]
      simpa using habsent
    · rfl

/-- A flood bans an address, if it does not have an entry already. -/
theorem checkFlood_decision (ip : UInt32) :
    (a.checkFlood ip now).2.blacklistSec = a.blacklistSec ∧ bans (a.checkFlood ip now).2 =
      written (bans a) (if a.ipBlack[ip]? = none ∧ (a.checkFlood ip now).1 then
        [(.ip ip, some (a.banUntil now))] else []) := by
  refine ⟨(AntiAbuse.checkFlood_frame a ip now).2, funext fun k => ?_⟩
  cases hfree : a.ipBlack[ip]? with
  | some t =>
    have hin : a.ipBlack.contains ip = true := by
      rw [Std.ExtTreeMap.contains_eq_isSome_getElem?, hfree]
      rfl
    rw [AntiAbuse.checkFlood, if_pos hin, if_neg (by simp)]
    rfl
  | none =>
    cases k with
    | uuid u =>
      have hsame : bans (a.checkFlood ip now).2 (.uuid u) = bans a (.uuid u) := by
        rw [AntiAbuse.checkFlood_free a ip now hfree]
        split <;> rfl
      rw [hsame]
      split
      · simp [written]
      · rfl
    | ip j =>
      rw [bans, AntiAbuse.checkFlood_ipBlack a ip now hfree]
      by_cases hv : (a.checkFlood ip now).1 = true
      · simp [written, bans, Function.update_apply, hv]
      · rw [if_neg fun h => hv h.2, if_neg fun h => hv h.2]
        rfl

theorem unblacklistIp_sec (ip : UInt32) : (a.unblacklistIp ip).blacklistSec = a.blacklistSec := by
  unfold AntiAbuse.unblacklistIp
  split <;> rfl

theorem unblacklistUuid_sec (uuid : Bytes) : (a.unblacklistUuid uuid).blacklistSec = a.blacklistSec := by
  unfold AntiAbuse.unblacklistUuid
  split <;> rfl

theorem not_shown {t : ℤ} {m : Subject → Option ℤ} {k : Subject} {hit : Bool}
    (h : hit = (shown term t m k).isSome) (hmiss : ¬hit = true) : shown term t m k = none := by
  rwa [h, Bool.not_eq_true, Option.isSome_eq_false_iff, Option.isNone_iff_eq_none] at hmiss

theorem adminOp_decision (env : Env) (op : UInt8) (key : Bytes) :
    (adminOp env op key a).2.1.blacklistSec = a.blacklistSec ∧
      Agree term env.now (bans (adminOp env op key a).2.1)
        (written (bans a) (adminDecision a env.now op key)) := by
  unfold adminOp adminDecision
  dsimp only
  by_cases h1 : op = 1
  · rw [if_pos h1, if_pos h1]
    cases inetPton key with
    | none => exact ⟨rfl, .refl⟩
    | some ip =>
      refine ⟨rfl, ?_⟩
      rw [show bans _ = _ from bans_blacklistIp a env.now ip]
      exact .refl
  rw [if_neg h1, if_neg h1]
  by_cases h2 : op = 2
  · rw [if_pos h2, if_pos h2]
    cases inetPton key with
    | none => exact ⟨rfl, .refl⟩
    | some ip =>
      have hl := isIpBlacklistedIp_lapsed a env.now ip
      dsimp only
      split
      · refine ⟨(unblacklistIp_sec _ ip).trans hl.sec, ?_⟩
        rw [show bans _ = _ from bans_unblacklistIp _ ip]
        exact hl.agree.write _ _
      · rename_i hmiss
        exact ⟨hl.sec, hl.agree.trans (Agree.absent
          (not_shown (isIpBlacklistedIp_shown a env.now ip) hmiss)).symm⟩
  rw [if_neg h2, if_neg h2]
  by_cases hbad : key.isEmpty = true ∨ key.length > maxUuidLen
  · simp only [if_pos hbad]
    split_ifs <;> exact ⟨rfl, .refl⟩
  simp only [if_neg hbad]
  have hkey : key ≠ [] := fun h => hbad (.inl (by rw [h]; rfl))
  by_cases h3 : op = 3
  · rw [if_pos h3, if_pos h3]
    refine ⟨rfl, ?_⟩
    rw [show bans _ = _ from bans_blacklistUuid a env.now key]
    exact .refl
  rw [if_neg h3, if_neg h3]
  by_cases h4 : op = 4
  · rw [if_pos h4, if_pos h4]
    have hl := isUuidBlacklisted_lapsed a env.now key
    split
    · refine ⟨(unblacklistUuid_sec _ key).trans hl.sec, ?_⟩
      rw [show bans _ = _ from bans_unblacklistUuid _ key]
      exact hl.agree.write _ _
    · rename_i hmiss
      exact ⟨hl.sec, hl.agree.trans (Agree.absent
        (not_shown (isUuidBlacklisted_shown a env.now hkey) hmiss)).symm⟩
  rw [if_neg h4, if_neg h4]
  split <;> exact ⟨rfl, .refl⟩

end

section
variable {env : Env} {p : Bytes} {src : Addr} {s : NatServer}

abbrev Calm (env : Env) (s r : NatServer) : Prop := Lapsed env.now s.abuse r.abuse

theorem calm_of_eq {r : NatServer} (h : r.abuse = s.abuse) : Calm env s r := by
  rw [Calm, h]
  exact .refl

theorem heartbeatGate_calm (uuid : Bytes) : Calm env s (heartbeatGate env uuid s).2 := by
  unfold heartbeatGate
  dsimp only
  split
  · exact .refl
  · split <;> exact isUuidBlacklisted_lapsed s.abuse env.now uuid

theorem authGate_calm (uuid : Bytes) : Calm env s (authGate env uuid s).2 := by
  unfold authGate
  dsimp only
  split
  · exact isUuidBlacklisted_lapsed s.abuse env.now uuid
  · split <;> exact isUuidBlacklisted_lapsed s.abuse env.now uuid

theorem handleHeartbeat_calm {req : UuidReq} {extinfo : Bytes} {enc : Option Bytes} :
    Calm env s (handleHeartbeat env req extinfo src enc s).1 := by
  unfold handleHeartbeat
  dsimp only
  split
  · rw [sendHeartbeatRsp_fst]
    exact heartbeatGate_calm req.uuid
  · simp only [andThen, Effects.modify, broadcastPeerEntry_fst, sendHeartbeatRsp_fst]
    exact heartbeatGate_calm req.uuid

theorem onHeartbeatReq_calm : Calm env s (onHeartbeatReq env p src s).1 := by
  unfold onHeartbeatReq
  split
  · exact .refl
  · exact handleHeartbeat_calm

theorem onHeartbeatReqEnc_calm : Calm env s (onHeartbeatReqEnc env p src s).1 := by
  unfold onHeartbeatReqEnc
  split
  · exact .refl
  · exact handleHeartbeat_calm

theorem onExtinfoReq_calm {msgId : UInt8} : Calm env s (onExtinfoReq env msgId p src s).1 := by
  unfold onExtinfoReq
  split
  · obtain ⟨peers, h | ⟨dst, h⟩⟩ := onSndExtinfoReq_cases env p s
    · rw [h]
      exact .refl
    · rw [h, sendMsg_fst]
      exact .refl
  · unfold onAskExtinfoReq
    dsimp only
    split
    · exact calm_of_eq (by rw [sendMsg_fst])
    · split <;> exact calm_of_eq (by rw [sendMsg_fst])

theorem onConnectReq_calm : Calm env s (onConnectReq env p src s).1 := by
  have hways := onConnectReq_connects env p src s
  generalize onConnectReq env p src s = r at hways ⊢
  cases hways <;> exact .refl

theorem onIceSdp_calm : Calm env s (onIceSdp p s).1 := by
  unfold onIceSdp
  dsimp only
  split
  · exact .refl
  · split
    · exact .refl
    · split
      · exact .refl
      · exact calm_of_eq (by rw [sendMsg_fst])

theorem onDeleteUidReq_calm : Calm env s (onDeleteUidReq env p s).1 := by
  unfold onDeleteUidReq saveLicense
  dsimp only
  split
  · split <;> exact .refl
  · exact .refl

theorem onAuthChallengeReq_calm : Calm env s (onAuthChallengeReq env p src s).1 := by
  unfold onAuthChallengeReq
  dsimp only
  generalize (if p.length ≥ 33 then uuidAt p 0 else []) = uuid
  split
  · rw [sendMsg_fst]
    exact authGate_calm uuid
  · rw [sendMsg_fst]
    exact authGate_calm (s := s) uuid

theorem onAuthLoginReq_calm : Calm env s (onAuthLoginReq env p src s).1 := by
  have hverify (t : NatServer) : Calm env t
      (verifyAuthLogin env (uuidAt p 0) (window p 33 16) (window p 49 32) t).2 := by
    have hways := verifyAuthLogin_verified env (uuidAt p 0) (window p 33 16) (window p 49 32) t
    generalize verifyAuthLogin env (uuidAt p 0) (window p 33 16) (window p 49 32) t = r at hways ⊢
    cases hways <;> exact .refl
  unfold onAuthLoginReq
  split
  · exact .refl
  · rw [sendMsg_fst]
    unfold loginResult
    dsimp only
    split
    · exact authGate_calm _
    · split
      · exact authGate_calm _
      · exact (authGate_calm (uuidAt p 0)).trans (hverify _)

theorem handleSyncEntry_calm {e : SyncPeerEntry} {extinfo : Bytes} :
    Calm env s (handleSyncEntry env e extinfo src s).1 := by
  have hways := handleSyncEntry_entered env e extinfo src s
  generalize handleSyncEntry env e extinfo src s = r at hways ⊢
  cases hways <;> exact .refl

theorem onSyncPeerEntry_calm : Calm env s (onSyncPeerEntry env p src s).1 := by
  unfold onSyncPeerEntry
  dsimp only
  split
  · exact .refl
  · split
    · exact .refl
    · split
      · exact .refl
      · exact handleSyncEntry_calm

theorem onSyncPeerDel_calm : Calm env s (onSyncPeerDel p src s).1 := by
  unfold onSyncPeerDel handleSyncDel
  split
  · exact .refl
  · split
    · exact .refl
    · split
      · exact .refl
      · simp only [andThen, Effects.modify, broadcastSyncMsg_fst]
        exact .refl

theorem onSyncSnapshotReq_calm : Calm env s (onSyncSnapshotReq env p src s).1 := by
  unfold onSyncSnapshotReq
  dsimp only
  split
  · exact .refl
  · split
    · exact .refl
    · split
      · exact .refl
      · exact calm_of_eq (by rw [handleSyncSnapshotReq_fst])

theorem onSpAskExtinfoRsp_calm : Calm env s (onSpAskExtinfoRsp env p src s).1 := by
  unfold onSpAskExtinfoRsp
  split
  · exact .refl
  · refine calm_of_eq ?_
    simp only [Effects.modify, collectProxyAvail]
    split <;> rfl

theorem dispatch_calm {msgId : UInt8} (h : msgId ≠ msgAdminBlacklistReq) :
    Calm env s (dispatch env msgId p src s).1 := by
  have hways := dispatch_selects env msgId p src
  generalize dispatch env msgId p src = f at hways ⊢
  cases hways with
  | heartbeat => exact onHeartbeatReq_calm
  | addUid => exact onHeartbeatReq_calm
  | heartbeatEnc => exact onHeartbeatReqEnc_calm
  | sndExtinfo => exact onExtinfoReq_calm
  | askExtinfo => exact onExtinfoReq_calm
  | connect => exact onConnectReq_calm
  | iceSdp => exact onIceSdp_calm
  | getDevList => exact calm_of_eq (by rw [onGetDevListReq, sendMsg_fst])
  | getServerList => exact calm_of_eq (by rw [onGetServerListReq, sendMsg_fst])
  | deleteUid => exact onDeleteUidReq_calm
  | checkUid => exact calm_of_eq (by rw [onCheckUidReq, sendMsg_fst])
  | authChallenge => exact onAuthChallengeReq_calm
  | authLogin => exact onAuthLoginReq_calm
  | adminStats => exact calm_of_eq (by rw [onAdminStatsReq, sendMsg_fst])
  | adminBlacklist => exact absurd rfl h
  | syncPeerEntry => exact onSyncPeerEntry_calm
  | syncPeerDel => exact onSyncPeerDel_calm
  | syncSnapshot => exact onSyncSnapshotReq_calm
  | spAskExtinfo => exact onSpAskExtinfoRsp_calm
  | other => exact .refl

theorem onAdminBlacklistReq_abuse : (onAdminBlacklistReq env p src s).1.abuse =
    if 97 ≤ p.length ∧ s.cfg.adminSecret.isEmpty = false ∧
        Crypto.hmacSha256 s.cfg.adminSecret (window p 0 65) = window p 65 32 then
      (adminOp env (byteAt p 0) (textAt p 1 64) s.abuse).2.1
    else s.abuse := by
  unfold onAdminBlacklistReq
  by_cases hl : p.length < 97
  · rw [if_pos hl, if_neg fun h => absurd h.1 (by omega)]
  rw [if_neg hl]
  by_cases hs : s.cfg.adminSecret.isEmpty = true
  · rw [if_pos hs, sendMsg_fst, if_neg fun h => absurd h.2.1 (by simp [hs])]
  rw [if_neg hs]
  by_cases hm : Crypto.hmacSha256 s.cfg.adminSecret (window p 0 65) = window p 65 32
  · rw [if_neg (not_not_intro hm), sendMsg_fst, if_pos ⟨by omega, by simpa using hs, hm⟩]
  · rw [if_pos hm, sendMsg_fst, if_neg fun h => hm h.2.2]

end

theorem handlePacket_decisions (env : Env) (data : Bytes) (src : Addr) (s : NatServer) :
    Agree term env.now (bans (handlePacket env data src s).1.abuse)
      (written (bans s.abuse) (match adminRequest s.cfg data with
        | some (op, key) => adminDecision s.abuse env.now op key
        | none => [])) := by
  cases hread : readDatagram data with
  | none =>
    simp only [handlePacket, adminRequest, hread]
    exact .refl
  | some r =>
    obtain ⟨msgId, p⟩ := r
    rw [ServerRun.handlePacket_read hread]
    by_cases hid : msgId = msgAdminBlacklistReq
    · have habuse := @onAdminBlacklistReq_abuse env p src s
      rw [hid, show dispatch env msgAdminBlacklistReq p src s = onAdminBlacklistReq env p src s from rfl,
        habuse]
      simp only [adminRequest, hread, hid, true_and]
      split
      · exact (adminOp_decision s.abuse env _ _).2
      · exact .refl
    · simp only [adminRequest, hread, hid, false_and, if_false]
      exact (dispatch_calm hid).agree

theorem bans_timerPass (env : Env) (proxyDue snapDue saved : Bool) (reloaded : Option CfgData) (s : NatServer) :
    bans (timerPass env proxyDue snapDue saved reloaded s).1.abuse = bans (s.abuse.sweep env.now) := by
  have hquery (ip : Bytes) (t : NatServer) : (sendProxyAvailQuery ip t).1 = t := by
    rw [sendProxyAvailQuery, sendMsg_fst]
  have hproxy (t : NatServer) : (proxyPass env proxyDue t).1.abuse = t.abuse := by
    cases proxyDue with
    | false => rfl
    | true => simp only [proxyPass, if_true, andThen, Effects.modify, markProxyStale, forEach_fst hquery]
  have hsnap (t : NatServer) : ((if snapDue then requestSyncSnapshot env else skip : Action) t).1 = t := by
    split
    · rw [requestSyncSnapshot_eq]
    · rfl
  rw [timerPass_eq]
  simp only [andThen, cleanupPass_eq, Effects.modify, hsnap, hproxy, afterCleanup]
  funext k
  cases reloaded <;> cases k <;> dsimp only [bans, AntiAbuse.configure] <;> split <;> rfl

theorem next_clock {s : State} {e : PacketQueue.Event} (h : ∀ now ∈ e.reading, s.clock ≤ now) :
    s.clock ≤ (PacketQueue.next s e).clock := by
  cases e with
  | receive => exact le_rfl
  | gate i p now =>
    simp only [PacketQueue.next]
    split <;> exact h now rfl
  | flood i p now =>
    simp only [PacketQueue.next]
    split <;> exact h now rfl
  | file =>
    simp only [PacketQueue.next]
    split <;> exact le_rfl
  | take => exact le_rfl
  | handle i p env => exact h env.now rfl
  | timer env => exact h env.now rfl

theorem next_decisions (s : State) (e : PacketQueue.Event) :
    Agree term (PacketQueue.next s e).clock (bans (PacketQueue.next s e).server.abuse)
      (written (bans s.server.abuse) (decisions s e)) := by
  cases e with
  | receive => exact .refl
  | gate i p now =>
    have hl := (isIpBlacklistedIp_lapsed s.server.abuse now p.src.ip).agree
    simp only [PacketQueue.next]
    split <;> exact hl
  | flood i p now =>
    have hd := (checkFlood_decision s.server.abuse now p.src.ip).2
    simp only [PacketQueue.next, decisions]
    rw [← hd]
    split <;> exact .refl
  | file =>
    simp only [PacketQueue.next]
    split <;> exact .refl
  | take => exact .refl
  | handle i p env => exact handlePacket_decisions env p.data p.src s.server
  | timer env proxyDue snapDue saved reloaded =>
    simp only [PacketQueue.next, bans_timerPass]
    exact (sweep_lapsed s.server.abuse env.now).agree

theorem run_clock {init : NatServer → Prop} {s : State} {es : List PacketQueue.Event}
    (hr : Run (threads init) (fun _ _ => True) s es) : s.clock ≤ (es.foldl PacketQueue.next s).clock := by
  induction es generalizing s with
  | nil => exact le_rfl
  | cons e es ih => exact (next_clock hr.1.2).trans (ih hr.2.2)

theorem history_agree {init : NatServer → Prop} {s : State} {es : List PacketQueue.Event}
    (hr : Run (threads init) (fun _ _ => True) s es) :
    Agree term (es.foldl PacketQueue.next s).clock (bans (es.foldl PacketQueue.next s).server.abuse)
      (written (bans s.server.abuse) (history s es)) := by
  induction es generalizing s with
  | nil => exact .refl
  | cons e es ih =>
    rw [history, written_append, List.foldl_cons]
    exact (ih hr.2.2).trans (((next_decisions s e).later (run_clock hr.2.2)).written _)

/-- After every run, a ban is in force exactly if the last decision on its subject says so. -/
theorem verdicts_iff {init : NatServer → Prop} {s : State} {es : List PacketQueue.Event}
    (hr : Run (threads init) (fun _ _ => True) s es) {now : ℤ} (hnow : (es.foldl PacketQueue.next s).clock ≤ now) :
    (∀ ip, ((es.foldl PacketQueue.next s).server.abuse.isIpBlacklistedIp ip now).1 = true ↔
        ∃ t, written (bans s.server.abuse) (history s es) (.ip ip) = some t ∧ now ≤ t) ∧
      ∀ uuid, uuid ≠ [] → (((es.foldl PacketQueue.next s).server.abuse.isUuidBlacklisted uuid now).1 = true ↔
        ∃ t, written (bans s.server.abuse) (history s es) (.uuid uuid) = some t ∧ now ≤ t) := by
  have hshown := history_agree hr now hnow
  have hiff (k : Subject) : (shown term now (bans (es.foldl PacketQueue.next s).server.abuse) k).isSome = true ↔
      ∃ t, written (bans s.server.abuse) (history s es) k = some t ∧ now ≤ t := by
    rw [hshown, Option.isSome_iff_exists]
    simp only [shown_some, term, decide_eq_true_eq]
  refine ⟨fun ip => ?_, fun uuid hu => ?_⟩
  · rw [isIpBlacklistedIp_shown]
    exact hiff _
  · rw [isUuidBlacklisted_shown _ _ hu]
    exact hiff _

def guarded : State :=
  { clock := 0, server := { abuse := { floodThreshold := 1, blacklistSec := 60 } }, receivers := [.idle], workers := [] }

/-- The second packet of the second bans its address; the ban lasts for a minute. -/
def flooding : List PacketQueue.Event :=
  [.receive 0 (checkUid 1), .gate 0 (checkUid 1) 5, .flood 0 (checkUid 1) 5, .file 0 (checkUid 1),
    .receive 0 (checkUid 2), .gate 0 (checkUid 2) 5, .flood 0 (checkUid 2) 5]

theorem verdicts_iff_flooding :
    (∃ t, written (bans guarded.server.abuse) (history guarded flooding) (.ip 1) = some t ∧ (65 : ℤ) ≤ t) ∧
      ¬∃ t, written (bans guarded.server.abuse) (history guarded flooding) (.ip 1) = some t ∧ (66 : ℤ) ≤ t := by
  have hr : Run (threads fun _ => True) (fun _ _ => True) guarded flooding := by decide +kernel
  have hlast : (flooding.foldl PacketQueue.next guarded).clock = 5 := by decide +kernel
  refine ⟨((verdicts_iff hr (by rw [hlast]; decide)).1 1).mp (by decide +kernel), fun h => ?_⟩
  have := ((verdicts_iff hr (by rw [hlast]; decide)).1 1).mpr h
  exact absurd this (by decide +kernel)

end P2PServer.BanHistory
