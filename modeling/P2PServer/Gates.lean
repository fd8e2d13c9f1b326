import P2PServer.Fields
import P2PServer.ServerRun

/-! The gates of the server: which uuids it registers, challenges, logs in and connects.
The same checks stand in four handlers, each in its own order. -/
namespace P2PServer.Gates
open ByteStrings ProtoDef Net NatServer Effects SyncCluster Registry PacketCases ServerRun

theorem datagram_inj {i j : UInt8} {p q : Bytes} (h : datagram i p = datagram j q) :
    i = j ∧ p = q := by
  unfold datagram at h
  obtain ⟨hhead, hbody⟩ := List.append_inj h rfl
  refine ⟨?_, hbody⟩
  simp only [Codec.codecWriteHead, be16, be32, List.cons_append, List.nil_append,
    List.cons.injEq] at hhead
  exact hhead.2.2.2.1

theorem mem_sendMsg {dst : Addr} {msgId : UInt8} {payload : Bytes} {s : NatServer} {o : Out}
    (h : o ∈ (sendMsg dst msgId payload s).2) : o = .send dst (datagram msgId payload) := by
  unfold sendMsg at h
  split at h
  · cases h
  · exact List.mem_singleton.mp h

/-- The answer `result` to a request. -/
def Answers (outs : List Out) (rspId result : UInt8) : Prop :=
  ∃ dst rest, Out.send dst (datagram rspId (result :: rest)) ∈ outs

theorem not_answers_sendMsg {dst : Addr} {msgId rspId result b : UInt8} {rest : Bytes}
    {s : NatServer} (h : msgId = rspId → b ≠ result) :
    ¬Answers (sendMsg dst msgId (b :: rest) s).2 rspId result := by
  rintro ⟨dst', rest', ho⟩
  have heq := mem_sendMsg ho
  rw [Out.send.injEq] at heq
  obtain ⟨hid, hp⟩ := datagram_inj heq.2
  exact h hid.symm (List.cons.inj hp).1.symm

/-- The uuid for which a challenge, a login or a connection is asked. -/
def requester (msgId : UInt8) (p : Bytes) : Bytes :=
  if msgId = msgAuthChallengeReq then challengeUuid p else uuidAt p 0

/-- The event is a request of this kind in the name of `u`. -/
def Requests (msgId : UInt8) (u : Bytes) : Event → Prop
  | .packet _ data _ => ∃ p, readDatagram data = some (msgId, p) ∧ requester msgId p = u
  | .timer _ _ _ _ _ => False

/-- The step neither issues a nonce for `u` nor logs it in nor connects it. -/
structure Unserved (u : Bytes) (s : NatServer) (e : Event) : Prop where
  nonce : ∀ n, (step s e).1.authNonces[u]? = some n → s.authNonces[u]? = some n
  challenge : Requests msgAuthChallengeReq u e → ¬Answers (step s e).2 msgAuthChallengeRsp 0
  login : Requests msgAuthLoginReq u e → ¬Answers (step s e).2 msgAuthLoginRsp authOk
  connect : Requests msgConnectReq u e → ¬Answers (step s e).2 msgConnectAck ProtoDef.connectOk
  invite : Requests msgConnectReq u e →
    ∀ dst q, Out.send dst (datagram msgConnectInvite q) ∉ (step s e).2

/-- The nonces after a datagram: a challenge issues one, and a login past the gates uses
the one of its uuid up. -/
def nonceAfter (env : Env) (data : Bytes) (s : NatServer) (v : Bytes) : Option (Bytes × ℤ) :=
  match readDatagram data with
  | none => s.authNonces[v]?
  | some (msgId, p) =>
    if msgId = msgAuthChallengeReq ∧ (authGate env (challengeUuid p) s).1 = 0 ∧ v = challengeUuid p
      then some (env.nonce, env.now + 30)
    else if msgId = msgAuthLoginReq ∧ authLoginReqSize ≤ p.length ∧
      (authGate env (uuidAt p 0) s).1 = 0 ∧ s.cfg.authEnabled = true ∧ v = uuidAt p 0 then none
    else s.authNonces[v]?

theorem nonceAfter_other {env : Env} {data : Bytes} {s : NatServer} {msgId : UInt8} {p : Bytes}
    (hread : readDatagram data = some (msgId, p)) (hc : msgId ≠ msgAuthChallengeReq)
    (hl : msgId ≠ msgAuthLoginReq) (v : Bytes) : nonceAfter env data s v = s.authNonces[v]? := by
  unfold nonceAfter
  rw [hread]
  simp only [hc, hl, false_and, if_false]

theorem handlePacket_challenge {env : Env} {data p : Bytes} {src : Addr} {s : NatServer}
    (hread : readDatagram data = some (msgAuthChallengeReq, p)) :
    handlePacket env data src s = onAuthChallengeReq env p src s := handlePacket_read hread

theorem handlePacket_login {env : Env} {data p : Bytes} {src : Addr} {s : NatServer}
    (hread : readDatagram data = some (msgAuthLoginReq, p)) :
    handlePacket env data src s = onAuthLoginReq env p src s := handlePacket_read hread

theorem handlePacket_connect {env : Env} {data p : Bytes} {src : Addr} {s : NatServer}
    (hread : readDatagram data = some (msgConnectReq, p)) :
    handlePacket env data src s = onConnectReq env p src s := handlePacket_read hread

theorem onAuthLoginReq_nonces (env : Env) (p : Bytes) (src : Addr) (s : NatServer) (v : Bytes) :
    (onAuthLoginReq env p src s).1.authNonces[v]? =
      if authLoginReqSize ≤ p.length ∧ (authGate env (uuidAt p 0) s).1 = 0 ∧
        s.cfg.authEnabled = true ∧ v = uuidAt p 0 then none else s.authNonces[v]? := by
  by_cases hlen : authLoginReqSize ≤ p.length
  · rw [onAuthLoginReq_fst env p src s hlen]
    rcases loginResult_cases env p s with ⟨hgate, hc, -⟩ | ⟨hgate, r, hr, heq⟩
    · have hn : (loginResult env p s).2.authNonces = s.authNonces := congrArg Core.authNonces hc
      simp only [hn, hgate, false_and, and_false, if_false]
    · rw [heq]
      cases hr with
      | off hoff =>
        rw [authGate_cfg] at hoff
        simp only [authGate_authNonces, hoff, Bool.false_eq_true, false_and, and_false, if_false]
      | missing hon hmiss =>
        rw [authGate_authNonces] at hmiss
        rw [authGate_cfg] at hon
        by_cases hv : v = uuidAt p 0
        · simp [authGate_authNonces, hlen, hgate, hon, hv, hmiss]
        · simp [authGate_authNonces, hv]
      | refused hon =>
        rw [authGate_cfg] at hon
        simp only [authGate_authNonces, TreeMaps.erase_get, hlen, hgate, hon, true_and]
      | granted hon _ _ _ =>
        rw [authGate_cfg] at hon
        simp only [authGate_authNonces, TreeMaps.erase_get, hlen, hgate, hon, true_and]
  · have hlt : p.length < authLoginReqSize := by omega
    simp only [onAuthLoginReq, hlt, hlen, if_true, false_and, if_false]

theorem handlePacket_nonces (env : Env) (data : Bytes) (src : Addr) (s : NatServer) (v : Bytes) :
    (handlePacket env data src s).1.authNonces[v]? = nonceAfter env data s v := by
  have same {r : NatServer} (h : core r = core s) : r.authNonces[v]? = s.authNonces[v]? :=
    congrArg (fun c => c.authNonces[v]?) h
  cases hread : readDatagram data with
  | none => simp only [handlePacket, nonceAfter, hread]
  | some r =>
    obtain ⟨msgId, p⟩ := r
    by_cases hc : msgId = msgAuthChallengeReq
    · subst hc
      have hn := congrArg Core.authNonces (onAuthChallengeReq_core env p src s)
      simp only [core] at hn
      have hid : ¬msgAuthChallengeReq = msgAuthLoginReq := by decide
      rw [handlePacket_challenge hread, hn]
      simp only [nonceAfter, hread, hid, true_and, false_and, if_false]
      by_cases hg : (authGate env (challengeUuid p) s).1 = 0
      · simp only [hg, if_true, true_and, TreeMaps.insert_get]
      · simp only [hg, if_false, false_and]
    · by_cases hl : msgId = msgAuthLoginReq
      · subst hl
        rw [handlePacket_login hread, onAuthLoginReq_nonces]
        simp only [nonceAfter, hread, hc, true_and, false_and, if_false]
      · rw [nonceAfter_other hread hc hl]
        have hh : Handled env msgId p src s (handlePacket env data src s) := by
          have := dispatch_handled env msgId p src s
          simpa only [handlePacket, hread] using this
        generalize handlePacket env data src s = r at hh ⊢
        cases hh with
        | ignored => rfl
        | heartbeat h => exact congrArg (fun c => c.authNonces[v]?) (handleHeartbeat_core ..)
        | sndExtinfo => exact congrArg (fun c => c.authNonces[v]?) (onSndExtinfoReq_core ..)
        | connect => exact same (onConnectReq_core ..)
        | deleteUid => exact congrArg (fun c => c.authNonces[v]?) (onDeleteUidReq_core ..)
        | challenge hid => exact absurd hid hc
        | login hid => exact absurd hid hl
        | @entry _ e extinfo _ =>
          have he := handleSyncEntry_entered env e extinfo src s
          generalize handleSyncEntry env e extinfo src s = r at he ⊢
          cases he <;> rfl
        | del => exact congrArg (fun c => c.authNonces[v]?) (handleSyncDel_core ..)
        | snapshot => exact same (handleSyncSnapshotReq_core ..)
        | other _ hcore _ => exact same hcore

theorem timerPass_nonces (env : Env) (proxyDue snapDue saved : Bool) (reloaded : Option CfgData)
    (s : NatServer) : (timerPass env proxyDue snapDue saved reloaded s).1.authNonces = s.authNonces :=
  congrArg Core.authNonces (timerPass_spec env proxyDue snapDue saved reloaded s).1

theorem onAuthChallengeReq_refused {env : Env} {p : Bytes} {src : Addr} {s : NatServer}
    (h : (authGate env (challengeUuid p) s).1 ≠ 0) :
    ¬Answers (onAuthChallengeReq env p src s).2 msgAuthChallengeRsp 0 := by
  unfold onAuthChallengeReq
  rw [show (if p.length ≥ 33 then uuidAt p 0 else []) = challengeUuid p from rfl]
  simp only [ne_eq, h, not_false_eq_true, if_true]
  exact not_answers_sendMsg fun _ => h

theorem onAuthLoginReq_refused {env : Env} {p : Bytes} {src : Addr} {s : NatServer}
    (h : (authGate env (uuidAt p 0) s).1 ≠ 0) :
    ¬Answers (onAuthLoginReq env p src s).2 msgAuthLoginRsp authOk := by
  unfold onAuthLoginReq
  split
  · rintro ⟨dst, rest, ho⟩
    cases ho
  · rcases loginResult_cases env p s with ⟨-, -, hres⟩ | ⟨hgate, -⟩
    · exact not_answers_sendMsg fun _ => hres
    · exact absurd hgate h

def connects (env : Env) (p : Bytes) (s : NatServer) : Bool :=
  decide (connectReqSize ≤ p.length) && !(s.cfg.authEnabled && !s.peers.authed (uuidAt p 0) env.now) &&
    !(s.cfg.enableLicense && !s.license.permits (uuidAt p 0)) && (s.peers.get (uuidAt p 33)).isSome

/-- A refused request gets one answer, and the target is not told. -/
theorem onConnectReq_refused {env : Env} {p : Bytes} {src : Addr} {s : NatServer}
    (h : connects env p s = false) :
    (onConnectReq env p src s).2 = [] ∨ ∃ result rest, result ≠ ProtoDef.connectOk ∧
      (onConnectReq env p src s).2 = (sendMsg src msgConnectAck (result :: rest) s).2 := by
  have hways := Registry.onConnectReq_connects env p src s
  generalize onConnectReq env p src s = r at hways ⊢
  cases hways with
  | short => exact .inl rfl
  | refused _ hresult _ => exact .inr ⟨_, _, hresult, rfl⟩
  | granted hlen hauthed hpermits hdst =>
    have hsize : connectReqSize ≤ p.length := by omega
    simp [connects, hsize, hauthed, hpermits, hdst] at h

theorem field_length {n size : ℕ} (h : n ≤ size) (b : Bytes) : (field n size b).length = size := by
  have ht := List.length_take_le n (cstr b)
  simp only [field, List.length_append, List.length_replicate]
  omega

theorem addCandidate_length (out : List Bytes) (ip : Bytes) :
    (addCandidate out ip).length ≤ out.length + 1 := by
  unfold addCandidate
  dsimp only
  split <;> simp

theorem foldl_length_le {α β : Type} {f : List β → α → List β}
    (h : ∀ out a, (f out a).length ≤ out.length + 1) (as : List α) (out : List β) :
    (as.foldl f out).length ≤ out.length + as.length := by
  induction as generalizing out with
  | nil => simp
  | cons a as ih =>
    have h1 := ih (f out a)
    have h2 := h out a
    simp only [List.foldl_cons, List.length_cons]
    omega

theorem pickProxy_length (env : Env) (draw : ℕ → ℕ) (s : NatServer) :
    (pickProxy env draw s).length ≤ 3 := by
  unfold pickProxy
  dsimp only
  refine List.foldlRecOn (motive := fun out : List Bytes => out.length ≤ 3) _ _ ?_ fun out h ip _ => ?_
  · refine (foldl_length_le (fun out k => ?_) (List.range 3) []).trans (by simp)
    split
    · exact addCandidate_length out _
    · exact Nat.le_succ _
  · split
    · exact h
    · simp only [List.length_append, List.length_cons, List.length_nil]
      omega

theorem proxyTable_length (port : UInt16) {ips : List Bytes} (h : ips.length ≤ 3) :
    (proxyTable port ips).length = 55 := by
  have hslots : (ips.map fun ip => ipTextField ip ++ be16 port).flatten.length = 18 * ips.length := by
    induction ips with
    | nil => rfl
    | cons ip ips ih =>
      have hip : (ipTextField ip).length = 16 := field_length (by decide) ip
      simp only [List.length_cons] at h
      simp only [List.map_cons, List.flatten_cons, List.length_append, ih (by omega), hip,
        be16_length, List.length_cons]
      omega
  simp only [proxyTable, List.length_append, hslots, List.length_cons, List.length_nil,
    List.length_replicate]
  omega

theorem onConnectReq_answers {env : Env} {p : Bytes} {src : Addr} {s : NatServer}
    (h : connects env p s = true) :
    Answers (onConnectReq env p src s).2 msgConnectAck ProtoDef.connectOk := by
  simp only [connects, Bool.and_eq_true, decide_eq_true_eq, Bool.not_eq_true'] at h
  obtain ⟨⟨⟨hsize, hauth⟩, hlicense⟩, hknown⟩ := h
  have htab := proxyTable_length s.proxyPort (pickProxy_length env env.draw s)
  have hraw : ((window p 33 maxUuidLen).take maxUuidLen).length ≤ 32 := List.length_take_le _ _
  have hways := Registry.onConnectReq_connects env p src s
  generalize onConnectReq env p src s = r at hways ⊢
  cases hways with
  | short hlen => omega
  | refused _ _ hwhy =>
    rw [hauth, hlicense] at hwhy
    rcases hwhy with hwhy | hwhy | hwhy
    · cases hwhy
    · cases hwhy
    · rw [hwhy] at hknown
      cases hknown
  | @granted dst _ _ _ hdst =>
    refine ⟨src, (window p 33 maxUuidLen).take maxUuidLen ++ [0] ++
      (peerAddresses dst.pubAddr dst.lanAddr dst.nattype ++
        proxyTable s.proxyPort (pickProxy env env.draw s)), List.mem_append_left _ ?_⟩
    unfold sendMsg
    rw [if_neg]
    · exact List.mem_singleton.mpr rfl
    · simp only [Registry.grantedAck, connectAck, peerAddresses, List.length_append, ipField_length, be16_length,
        htab, List.length_cons, List.length_nil, maxPkt]
      omega

/-- A uuid that neither gate lets through is not served. -/
theorem unserved_packet {env : Env} {data : Bytes} {src : Addr} {s : NatServer} {u : Bytes}
    (hgate : (authGate env u s).1 ≠ 0)
    (hconn : ∀ p, readDatagram data = some (msgConnectReq, p) → uuidAt p 0 = u →
      connects env p s = false) : Unserved u s (.packet env data src) := by
  have hrefused : Requests msgConnectReq u (.packet env data src) →
      (handlePacket env data src s).2 = [] ∨ ∃ result rest, result ≠ ProtoDef.connectOk ∧
        (handlePacket env data src s).2 = (sendMsg src msgConnectAck (result :: rest) s).2 := by
    rintro ⟨p, hread, hu⟩
    rw [handlePacket_connect hread]
    exact onConnectReq_refused (hconn p hread hu)
  refine ⟨fun n hn => ?_, ?_, ?_, fun hreq => ?_, fun hreq dst q ho => ?_⟩
  · rw [step, handlePacket_nonces] at hn
    unfold nonceAfter at hn
    split at hn
    · exact hn
    · split at hn
      · rename_i hc
        rw [← hc.2.2] at hc
        exact absurd hc.2.1 hgate
      · split at hn
        · cases hn
        · exact hn
  · rintro ⟨p, hread, hu⟩
    rw [step, handlePacket_challenge hread]
    have hu' : challengeUuid p = u := hu
    exact onAuthChallengeReq_refused (hu' ▸ hgate)
  · rintro ⟨p, hread, hu⟩
    rw [step, handlePacket_login hread]
    have hu' : uuidAt p 0 = u := hu
    exact onAuthLoginReq_refused (hu' ▸ hgate)
  · rw [step]
    rcases hrefused hreq with h | ⟨result, rest, hres, h⟩
    · rw [h]
      rintro ⟨dst, rest, ho⟩
      cases ho
    · rw [h]
      exact not_answers_sendMsg fun _ => hres
  · rw [step] at ho
    rcases hrefused hreq with h | ⟨result, rest, hres, h⟩
    · rw [h] at ho
      cases ho
    · rw [h] at ho
      have heq := mem_sendMsg ho
      rw [Out.send.injEq] at heq
      exact absurd (datagram_inj heq.2).1 (by decide)

theorem unserved_timer (env : Env) (proxyDue snapDue saved : Bool) (reloaded : Option CfgData)
    (s : NatServer) (u : Bytes) : Unserved u s (.timer env proxyDue snapDue saved reloaded) :=
  ⟨fun n hn => by rwa [step, timerPass_nonces] at hn, fun h => h.elim, fun h => h.elim,
    fun h => h.elim, fun h => h.elim⟩

/-- A datagram registers no uuid that the heartbeat gate refuses. -/
theorem existsPeer_of_refused {env : Env} {data : Bytes} {src : Addr} {s : NatServer} {u : Bytes}
    (hwf : s.peers.WellFiled) (hsync : s.syncEnabled = false)
    (hgate : (heartbeatGate env u s).1 ≠ 0)
    (h : (handlePacket env data src s).1.peers.existsPeer u = true) :
    s.peers.existsPeer u = true := by
  rw [PeerManager.existsPeer_iff] at h ⊢
  obtain ⟨p, hp⟩ := h
  have hf := handlePacket_filed env data src s
  generalize (handlePacket env data src s).1.peers = m at hf hp
  cases hf with
  | kept => exact ⟨p, hp⟩
  | heartbeat hread hb hg =>
    rw [PeerManager.upsert_get] at hp
    split at hp
    · rename_i hu
      rw [hu.1] at hgate
      exact absurd hg hgate
    · exact ⟨p, hp⟩
  | @report q hread hlen self hself =>
    rw [PeerManager.upsert_get] at hp
    split at hp
    · rename_i hu
      exact ⟨self, by rw [hu.1, (hwf _ _ hself).uuid, hself]⟩
    · exact ⟨p, hp⟩
  | login =>
    rw [PeerManager.setAuthExpire_get] at hp
    split at hp
    · obtain ⟨q, hq, -⟩ := Option.map_eq_some_iff.mp hp
      exact ⟨q, hq⟩
    · exact ⟨p, hp⟩
  | delete =>
    rw [PeerManager.remove_get] at hp
    split at hp
    · cases hp
    · exact ⟨p, hp⟩
  | entry hread hon => rw [hsync] at hon; cases hon
  | del hread hon => rw [hsync] at hon; cases hon

theorem existsPeer_timer {env : Env} {proxyDue snapDue saved : Bool} {reloaded : Option CfgData}
    {s : NatServer} {u : Bytes}
    (h : (timerPass env proxyDue snapDue saved reloaded s).1.peers.existsPeer u = true) :
    s.peers.existsPeer u = true := by
  rw [timerPass_peers, PeerManager.existsPeer_iff] at h
  obtain ⟨p, hp⟩ := h
  have hp' : (s.peers.cleanupTimeoutAndCollect 90 env.now).2.peers[u]? = some p := hp
  rw [PeerManager.cleanup_get] at hp'
  exact (PeerManager.existsPeer_iff s.peers u).mpr ⟨p, (Option.filter_eq_some_iff.mp hp').1⟩

end P2PServer.Gates
