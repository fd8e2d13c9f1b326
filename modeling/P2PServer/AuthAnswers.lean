import P2PServer.Gates
import P2PServer.SyncOutputs

/-! The answers of the authentication. Only the handlers of the two requests send them, and
they send them to the host that asked. -/
namespace P2PServer.AuthAnswers
open ByteStrings ProtoDef Net NatServer Effects SyncCluster PacketCases ServerRun Gates SyncOutputs

def authAnswers : List UInt8 := [msgAuthChallengeRsp, msgAuthLoginRsp]

/-- The output is not an answer of the authentication, and its head is right. -/
def Quiet (o : Out) : Prop :=
  ∀ dst data, o = .send dst data →
    ∃ id p, readDatagram data = some (id, p) ∧ authAnswers.contains id = false

section
variable {env : Env} {p : Bytes} {src : Addr} {s : NatServer}

theorem sendMsg_read {dst : Addr} {msgId : UInt8} {payload : Bytes} {o : Out}
    (h : o ∈ (sendMsg dst msgId payload s).2) :
    o = .send dst (datagram msgId payload) ∧
      readDatagram (datagram msgId payload) = some (msgId, payload) := by
  refine ⟨mem_sendMsg h, readDatagram_datagram msgId ?_⟩
  unfold sendMsg at h
  split at h
  · cases h
  · rename_i hl
    unfold maxPkt at hl
    omega

theorem sendMsg_quiet {dst : Addr} {msgId : UInt8} {payload : Bytes}
    (h : authAnswers.contains msgId = false) : ∀ o ∈ (sendMsg dst msgId payload s).2, Quiet o := by
  intro o ho dst' data hd
  obtain ⟨heq, hread⟩ := sendMsg_read ho
  rw [heq, Out.send.injEq] at hd
  exact ⟨msgId, payload, hd.2 ▸ hread, h⟩

theorem syncOut_quiet {secret : Bytes} {id : UInt8} {body : Bytes} {dst : Addr} {o : Out}
    (h : authAnswers.contains id = false) (ho : o ∈ syncOut secret id body dst) : Quiet o := by
  intro dst' data hd
  obtain ⟨heq, hread⟩ := mem_syncOut ho
  rw [heq, Out.send.injEq] at hd
  exact ⟨id, _, hd.2 ▸ hread, h⟩

theorem broadcastOut_quiet {id : UInt8} {body : Bytes} {except : Option Addr}
    (h : authAnswers.contains id = false) : ∀ o ∈ broadcastOut s id body except, Quiet o := by
  intro o ho
  obtain ⟨a, -, -, ho⟩ := mem_broadcastOut.mp ho
  exact syncOut_quiet h ho

theorem nothing_quiet : ∀ o ∈ ([] : List Out), Quiet o := List.forall_mem_nil _

theorem andThen_quiet {f g : Action} (hf : ∀ o ∈ (f s).2, Quiet o)
    (hg : ∀ o ∈ (g (f s).1).2, Quiet o) : ∀ o ∈ (andThen f g s).2, Quiet o := by
  intro o ho
  rcases mem_andThen.mp ho with h | h
  · exact hf o h
  · exact hg o h

theorem forEach_quiet {α : Type} {f : α → Action} (h : ∀ a r, ∀ o ∈ (f a r).2, Quiet o) (as : List α) :
    ∀ o ∈ (forEach f as s).2, Quiet o := by
  induction as generalizing s with
  | nil => exact nothing_quiet
  | cons a as ih => exact andThen_quiet (h a s) ih

theorem sendHeartbeatRsp_quiet {dst : Addr} {uuidRaw : Bytes} {rsp : ExtInfoRsp}
    {enc : Option Bytes} : ∀ o ∈ (sendHeartbeatRsp dst uuidRaw rsp enc s).2, Quiet o := by
  unfold sendHeartbeatRsp
  cases enc <;> exact sendMsg_quiet rfl

theorem handleHeartbeat_quiet {req : UuidReq} {extinfo : Bytes} {enc : Option Bytes} :
    ∀ o ∈ (handleHeartbeat env req extinfo src enc s).2, Quiet o := by
  unfold handleHeartbeat
  dsimp only
  split
  · exact sendHeartbeatRsp_quiet
  · refine andThen_quiet nothing_quiet (andThen_quiet (fun o ho => ?_) sendHeartbeatRsp_quiet)
    rw [broadcastPeerEntry_eq] at ho
    dsimp only at ho
    split at ho
    · obtain ⟨a, -, ho⟩ := List.mem_flatMap.mp ho
      exact syncOut_quiet rfl ho
    · cases ho

theorem onHeartbeatReq_quiet : ∀ o ∈ (onHeartbeatReq env p src s).2, Quiet o := by
  unfold onHeartbeatReq
  split
  · exact nothing_quiet
  · exact handleHeartbeat_quiet

theorem onHeartbeatReqEnc_quiet : ∀ o ∈ (onHeartbeatReqEnc env p src s).2, Quiet o := by
  unfold onHeartbeatReqEnc
  split
  · exact nothing_quiet
  · exact handleHeartbeat_quiet

theorem onSndExtinfoReq_quiet : ∀ o ∈ (onSndExtinfoReq env p s).2, Quiet o := by
  obtain ⟨peers, hs | ⟨dst, hs⟩⟩ := onSndExtinfoReq_cases env p s
  · rw [hs]
    exact nothing_quiet
  · rw [hs]
    exact sendMsg_quiet rfl

theorem onAskExtinfoReq_quiet : ∀ o ∈ (onAskExtinfoReq p src s).2, Quiet o := by
  unfold onAskExtinfoReq
  dsimp only
  split
  · exact sendMsg_quiet rfl
  · split <;> exact sendMsg_quiet rfl

theorem onExtinfoReq_quiet {msgId : UInt8} : ∀ o ∈ (onExtinfoReq env msgId p src s).2, Quiet o := by
  unfold onExtinfoReq
  split
  · exact onSndExtinfoReq_quiet
  · exact onAskExtinfoReq_quiet

theorem onConnectReq_quiet : ∀ o ∈ (onConnectReq env p src s).2, Quiet o := by
  have hways := Registry.onConnectReq_connects env p src s
  generalize onConnectReq env p src s = r at hways ⊢
  intro o ho
  cases hways with
  | short => exact nothing_quiet o ho
  | refused => exact sendMsg_quiet rfl o ho
  | granted =>
    rcases List.mem_append.mp ho with h | h
    · exact sendMsg_quiet rfl o h
    · exact sendMsg_quiet rfl o h

theorem onIceSdp_quiet : ∀ o ∈ (onIceSdp p s).2, Quiet o := by
  unfold onIceSdp
  dsimp only
  split
  · exact nothing_quiet
  · split
    · exact nothing_quiet
    · split
      · exact nothing_quiet
      · exact sendMsg_quiet rfl

theorem onDeleteUidReq_quiet : ∀ o ∈ (onDeleteUidReq env p s).2, Quiet o := by
  intro o ho dst data hd
  subst hd
  unfold onDeleteUidReq saveLicense at ho
  dsimp only at ho
  split at ho
  · split at ho <;> simp at ho
  · cases ho

theorem onAdminBlacklistReq_quiet : ∀ o ∈ (onAdminBlacklistReq env p src s).2, Quiet o := by
  unfold onAdminBlacklistReq
  split
  · exact nothing_quiet
  · split
    · exact sendMsg_quiet rfl
    · split <;> exact sendMsg_quiet rfl

theorem onSyncPeerEntry_quiet : ∀ o ∈ (onSyncPeerEntry env p src s).2, Quiet o := by
  intro o ho
  rw [onSyncPeerEntry_handed] at ho
  split at ho
  · exact broadcastOut_quiet rfl o (handleSyncEntry_sends o ho).2
  · cases ho

theorem onSyncPeerDel_quiet : ∀ o ∈ (onSyncPeerDel p src s).2, Quiet o := by
  intro o ho
  rw [onSyncPeerDel_handed] at ho
  split at ho
  · exact broadcastOut_quiet rfl o (handleSyncDel_sends o ho)
  · cases ho

theorem onSyncSnapshotReq_quiet : ∀ o ∈ (onSyncSnapshotReq env p src s).2, Quiet o := by
  intro o ho
  rw [onSyncSnapshotReq_handed] at ho
  cases h : snapshotOf s.cfg.syncAuthSecret env.now p with
  | none =>
    rw [h] at ho
    cases ho
  | some ts =>
    rw [h] at ho
    obtain ⟨r, -, ho⟩ := handleSyncSnapshotReq_sends o ho
    exact syncOut_quiet rfl ho

theorem onSpAskExtinfoRsp_quiet : ∀ o ∈ (onSpAskExtinfoRsp env p src s).2, Quiet o := by
  unfold onSpAskExtinfoRsp
  split
  · exact nothing_quiet
  · exact nothing_quiet

theorem dispatch_quiet {msgId : UInt8} (hc : msgId ≠ msgAuthChallengeReq)
    (hl : msgId ≠ msgAuthLoginReq) : ∀ o ∈ (dispatch env msgId p src s).2, Quiet o := by
  have hways := dispatch_selects env msgId p src
  generalize dispatch env msgId p src = f at hways ⊢
  cases hways with
  | heartbeat => exact onHeartbeatReq_quiet
  | addUid => exact onHeartbeatReq_quiet
  | heartbeatEnc => exact onHeartbeatReqEnc_quiet
  | sndExtinfo => exact onExtinfoReq_quiet
  | askExtinfo => exact onExtinfoReq_quiet
  | connect => exact onConnectReq_quiet
  | iceSdp => exact onIceSdp_quiet
  | getDevList => exact sendMsg_quiet rfl
  | getServerList => exact sendMsg_quiet rfl
  | deleteUid => exact onDeleteUidReq_quiet
  | checkUid => exact sendMsg_quiet rfl
  | authChallenge => exact absurd rfl hc
  | authLogin => exact absurd rfl hl
  | adminStats => exact sendMsg_quiet rfl
  | adminBlacklist => exact onAdminBlacklistReq_quiet
  | syncPeerEntry => exact onSyncPeerEntry_quiet
  | syncPeerDel => exact onSyncPeerDel_quiet
  | syncSnapshot => exact onSyncSnapshotReq_quiet
  | spAskExtinfo => exact onSpAskExtinfoRsp_quiet
  | other => exact nothing_quiet

/-- What a server puts out for a datagram: the answer to a challenge or a login goes back to
its sender, and the rest is quiet. -/
inductive Answered (env : Env) (data : Bytes) (src : Addr) (s : NatServer) (o : Out) : Prop
  | quiet (h : Quiet o)
  | challenge {p : Bytes} (hread : readDatagram data = some (msgAuthChallengeReq, p))
      (h : o = .send src (datagram msgAuthChallengeRsp
        (challengeRsp (authGate env (challengeUuid p) s).1
          (if (authGate env (challengeUuid p) s).1 = 0 then env.nonce else List.replicate 16 0))))
  | login {p : Bytes} (hread : readDatagram data = some (msgAuthLoginReq, p))
      (hlen : authLoginReqSize ≤ p.length)
      (h : o = .send src (datagram msgAuthLoginRsp ([(loginResult env p s).1] ++ be16 3600)))

theorem handlePacket_answered {data : Bytes} :
    ∀ o ∈ (handlePacket env data src s).2, Answered env data src s o := by
  intro o ho
  cases hread : readDatagram data with
  | none =>
    rw [handlePacket, hread] at ho
    cases ho
  | some r =>
    obtain ⟨msgId, p⟩ := r
    rw [handlePacket_read hread] at ho
    by_cases hc : msgId = msgAuthChallengeReq
    · subst hc
      refine .challenge hread ?_
      change o ∈ (onAuthChallengeReq env p src s).2 at ho
      unfold onAuthChallengeReq at ho
      dsimp only at ho
      rw [show (if p.length ≥ 33 then uuidAt p 0 else []) = challengeUuid p from rfl] at ho
      split at ho
      · rename_i hg
        rw [if_neg hg]
        exact mem_sendMsg ho
      · rename_i hg
        rw [not_not] at hg
        rw [if_pos hg, hg]
        exact mem_sendMsg ho
    · by_cases hl : msgId = msgAuthLoginReq
      · subst hl
        change o ∈ (onAuthLoginReq env p src s).2 at ho
        unfold onAuthLoginReq at ho
        split at ho
        · cases ho
        · exact .login hread (by omega) (mem_sendMsg ho)
      · exact .quiet (dispatch_quiet hc hl o ho)

theorem timerPass_quiet {proxyDue snapDue saved : Bool} {reloaded : Option CfgData} :
    ∀ o ∈ (timerPass env proxyDue snapDue saved reloaded s).2, Quiet o := by
  rw [timerPass_eq]
  refine andThen_quiet (fun o ho => ?_) (andThen_quiet nothing_quiet (andThen_quiet ?_ ?_))
  · rw [cleanupPass_eq] at ho
    obtain ⟨u, -, ho⟩ := List.mem_flatMap.mp ho
    exact broadcastOut_quiet rfl o ho
  · unfold proxyPass
    split
    · exact andThen_quiet (forEach_quiet (fun ip r => sendMsg_quiet rfl) _) nothing_quiet
    · exact nothing_quiet
  · split
    · intro o ho
      rw [requestSyncSnapshot_eq] at ho
      dsimp only at ho
      split at ho
      · exact broadcastOut_quiet rfl o ho
      · cases ho
    · exact nothing_quiet

end

end P2PServer.AuthAnswers
