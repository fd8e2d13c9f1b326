import P2PServer.AuthDenial
import P2PServer.HeartbeatExchange
import P2PServer.Rendezvous

/-! A login from the challenge to the registration. Whatever other hosts send in the meantime, a client
that logs in within 30 seconds of its challenge is let in, and every heartbeat of the next hour registers
it under the address it comes from. -/
namespace P2PServer.LoginExchange
open ByteStrings ProtoDef Net NatServer Registry PacketCases ServerRun Transitions Expiry RegistryHistory
open AuthDenial (Party loginPayload loginPayload_fields)
open P2PClient (doHeartbeat protoOf)

def Names (u : Bytes) (e : Event) : Prop :=
  Gates.Requests msgAuthChallengeReq u e ∨ Gates.Requests msgAuthLoginReq u e

theorem step_nonce {u : Bytes} {e : Event} (h : ¬Names u e) (s : NatServer) :
    (step s e).1.authNonces[u]? = s.authNonces[u]? := by
  cases e with
  | timer env proxyDue snapDue saved reloaded =>
    rw [ServerRun.step, Gates.timerPass_nonces]
  | packet env data src =>
    rw [ServerRun.step, Gates.handlePacket_nonces]
    cases hread : readDatagram data with
    | none => rw [Gates.nonceAfter, hread]
    | some x =>
      obtain ⟨msgId, p⟩ := x
      unfold Gates.nonceAfter
      rw [hread]
      dsimp only
      split
      · rename_i hc
        exact absurd (.inl ⟨p, hc.1 ▸ hread, by rw [Gates.requester, if_pos rfl, hc.2.2]⟩) h
      · split
        · rename_i hl
          refine absurd (.inr ⟨p, hl.1 ▸ hread, ?_⟩) h
          rw [Gates.requester, if_neg (by decide), hl.2.2.2.2]
        · rfl

theorem run_nonce {u : Bytes} {s : ℤ × NatServer} {es : List Event}
    (hr : Run servers (fun _ e => ¬Names u e) s es) :
    (es.foldl servers.next s).2.authNonces[u]? = s.2.authNonces[u]? := by
  induction es generalizing s with
  | nil => rfl
  | cons e es ih => exact (ih hr.2.2).trans (step_nonce hr.2.1 s.2)

/-- The uuid has a session that lasts beyond the time `t`. -/
def Lasts (u : Bytes) (t : ℤ) (s : NatServer) : Prop := ∃ expire, s.peers.authSessions[u]? = some expire ∧ t < expire

theorem Lasts.authed {u : Bytes} {t : ℤ} {s : NatServer} (h : Lasts u t s) : s.peers.authed u t = true :=
  (PeerManager.authed_iff s.peers u t).mpr (.inl h)

theorem Lasts.step {u : Bytes} {t : ℤ} {s : NatServer} (h : Lasts u t s) {e : Event} (hbefore : e.now ≤ t)
    (hhour : t < e.now + 3600) : Lasts u t (step s e).1 := by
  obtain ⟨expire, hexpire, ht⟩ := h
  cases e with
  | timer env proxyDue snapDue saved reloaded =>
    refine ⟨expire, ?_, ht⟩
    rw [ServerRun.step, timerPass_peers, PeerManager.cleanupAuthSessions_sessions]
    have hlive : env.now < expire := lt_of_le_of_lt hbefore ht
    change (s.peers.authSessions[u]?).filter _ = _
    rw [hexpire]
    exact Option.filter_some_pos (by simpa using hlive)
  | packet env data src =>
    have hf := handlePacket_filed env data src s
    rw [ServerRun.step]
    unfold Lasts
    generalize (handlePacket env data src s).1.peers = m at hf ⊢
    cases hf with
    | kept => exact ⟨expire, hexpire, ht⟩
    | heartbeat => exact ⟨expire, by rwa [PeerManager.upsert_sessions], ht⟩
    | report => exact ⟨expire, by rwa [PeerManager.upsert_sessions], ht⟩
    | login =>
      rw [PeerManager.setAuthExpire_sessions]
      split
      · exact ⟨_, rfl, hhour⟩
      · exact ⟨expire, hexpire, ht⟩
    | delete => exact ⟨expire, hexpire, ht⟩
    | entry => exact ⟨expire, by rwa [stored, PeerManager.upsertSynced_sessions], ht⟩
    | del => exact ⟨expire, hexpire, ht⟩

theorem Lasts.run {u : Bytes} {t : ℤ} {s : ℤ × NatServer} (h : Lasts u t s.2) (hhour : t < s.1 + 3600)
    {es : List Event} (hr : Run servers (fun _ _ => True) s es) (hbefore : (es.foldl servers.next s).1 ≤ t) :
    Lasts u t (es.foldl servers.next s).2 := by
  induction es generalizing s with
  | nil => exact h
  | cons e es ih =>
    have hnow : s.1 ≤ e.now := hr.1
    have hlast : e.now ≤ (es.foldl servers.next (servers.next s e)).1 := run_clock hr.2.2
    exact ih (h.step (hlast.trans hbefore) (by omega)) (lt_of_lt_of_le hhour (by
      change s.1 + 3600 ≤ e.now + 3600
      omega)) hr.2.2 hbefore

section
variable {K : Party} {env : Env} {src : Addr} {s : NatServer}

/-- The server asks for logins with the party's secret, and has neither blacklisted nor excluded its uuid. -/
structure Serves (K : Party) (env : Env) (s : NatServer) : Prop where
  authOn : s.cfg.authEnabled = true
  secret : s.cfg.authSecret = K.cfg.secret
  gate : (authGate env K.cfg.uuid s).1 = 0

def challengeData (K : Party) : Bytes := datagram msgAuthChallengeReq (uuidField K.cfg.uuid)

def loginData (K : Party) (n : Bytes) : Bytes := datagram msgAuthLoginReq (loginPayload K n)

theorem uuidAt_party (K : Party) : uuidAt (uuidField K.cfg.uuid) 0 = K.cfg.uuid := by
  have h := AuthDenial.uuidAt_uuid K []
  rwa [List.append_nil] at h

theorem challenge_served (src : Addr) (hgate : (authGate env K.cfg.uuid s).1 = 0) (hn : env.nonce.length = 16) :
    (handlePacket env (challengeData K) src s).1.authNonces[K.cfg.uuid]? = some (env.nonce, env.now + 30) ∧
      Out.send src (datagram msgAuthChallengeRsp (challengeRsp 0 env.nonce)) ∈
        (handlePacket env (challengeData K) src s).2 := by
  have hread : readDatagram (challengeData K) = some (msgAuthChallengeReq, uuidField K.cfg.uuid) :=
    readDatagram_datagram _ (by simp)
  have huuid : challengeUuid (uuidField K.cfg.uuid) = K.cfg.uuid := by
    rw [challengeUuid, if_pos (by simp), uuidAt_party]
  constructor
  · rw [Gates.handlePacket_nonces, Gates.nonceAfter, hread]
    dsimp only
    rw [huuid, if_pos ⟨rfl, hgate, rfl⟩]
  · have hlen : (challengeRsp 0 env.nonce).length = 19 := by simp [challengeRsp, hn]
    rw [handlePacket_read hread]
    change _ ∈ (onAuthChallengeReq env (uuidField K.cfg.uuid) src s).2
    unfold onAuthChallengeReq
    dsimp only
    rw [show (if (uuidField K.cfg.uuid).length ≥ 33 then uuidAt (uuidField K.cfg.uuid) 0 else []) = K.cfg.uuid
      from huuid, if_neg (by simp [hgate]), Rendezvous.sendMsg_out (by omega)]
    exact List.mem_singleton.mpr rfl

theorem login_served (src : Addr) {n : Bytes} (hn : n.length = 16) (h : Serves K env s) {expire : ℤ}
    (hnonce : s.authNonces[K.cfg.uuid]? = some (n, expire)) (htime : env.now ≤ expire) :
    (∀ t, t < env.now + 3600 → Lasts K.cfg.uuid t (handlePacket env (loginData K n) src s).1) ∧
      Out.send src (datagram msgAuthLoginRsp ([authOk] ++ be16 3600)) ∈ (handlePacket env (loginData K n) src s).2 := by
  obtain ⟨hlen, hu, hw, hmac⟩ := loginPayload_fields K hn
  have hread : readDatagram (loginData K n) = some (msgAuthLoginReq, loginPayload K n) :=
    readDatagram_datagram _ (by omega)
  have hresult := LoginHistory.loginResult_granted (p := loginPayload K n) (by rw [hu]; exact h.gate) h.authOn
    (by rw [hu, hw]; exact hnonce) htime (by rw [hu, hw, hmac, h.secret])
  have hout : handlePacket env (loginData K n) src s =
      sendMsg src msgAuthLoginRsp ([authOk] ++ be16 3600) (loginResult env (loginPayload K n) s).2 := by
    rw [handlePacket_read hread]
    change onAuthLoginReq env (loginPayload K n) src s = _
    rw [onAuthLoginReq, if_neg (by rw [hlen]; decide), hresult]
  rw [hout]
  constructor
  · intro t ht
    rw [sendMsg_fst, hresult]
    refine ⟨env.now + 3600, ?_, ht⟩
    rw [PeerManager.setAuthExpire_sessions, hu, if_pos rfl]
  · rw [Rendezvous.sendMsg_out (by decide)]
    exact List.mem_singleton.mpr rfl

theorem heartbeat_served (hs : s.peers.WellFiled) (hauthed : Lasts K.cfg.uuid env.now s)
    (hgate : (authGate env K.cfg.uuid s).1 = 0) {p extinfo : Bytes} {req : UuidReq} {enc : Option Bytes}
    (hreq : heartbeatOf s.cfg.authSecret msgHeartbeatReqEnc p = some (req, extinfo, enc)) (hu : req.uuid = K.cfg.uuid)
    (hne : K.cfg.uuid ≠ []) (hlen : p.length < 4294967296) :
    known (handlePacket env (datagram msgHeartbeatReqEnc p) src s).1.peers K.cfg.uuid =
      some (⟨src, { src with port := req.lanPort }, req.devType, req.nattype, extinfo⟩, env.now) := by
  have hpass : (heartbeatGate env req.uuid s).1 = 0 := by
    rw [hu]
    unfold authGate at hgate
    unfold heartbeatGate
    rw [hauthed.authed]
    dsimp only at hgate ⊢
    split at hgate
    · cases hgate
    · rename_i hblack
      split at hgate
      · cases hgate
      · rename_i hlicense
        rw [Bool.not_true, Bool.and_false, if_neg Bool.false_ne_true, if_neg]
        simpa [hblack] using hlicense
  rw [handlePacket_read (readDatagram_datagram _ hlen), dispatch_known hs, filings, hreq]
  dsimp only
  rw [registration, if_pos ⟨hpass, by rw [hu]; exact hne⟩, hu]
  simp [written]

end

section
variable {K : Party} {env : P2PClient.Env} {c : P2PClient} {m : Memory} {len : ℕ} {src : Addr}

theorem login_sent (hc : c.cfg = K.cfg) {n : Bytes} (hn : n.length = 16)
    (hm : m.read 0 len = datagram msgAuthChallengeRsp (challengeRsp 0 n)) :
    P2PClient.Out.proto c.natSock msgAuthLoginReq (loginPayload K n) ∈
      (P2PClient.handlePacket env m len src c).2 := by
  have hlen : (challengeRsp 0 n).length = 19 := by simp [challengeRsp, hn]
  obtain ⟨plen, hpayload, hp⟩ := P2PClient.handlePacket_message env src c
    (P2PClient.protoOf_of_readDatagram (hm ▸ readDatagram_datagram msgAuthChallengeRsp (by omega)))
  have hgranted : P2PClient.refuses (challengeRsp 0 n) = false := by
    rw [P2PClient.refuses, hlen]
    rfl
  have hwindow : window (challengeRsp 0 n) 1 16 = n := by
    rw [window, challengeRsp, List.append_assoc, List.drop_left' (show [(0 : UInt8)].length = 1 from rfl), List.take_left' hn]
  have hsecret : P2PClient.authLoginReq { c with auth := { c.auth with authNonce := n } } = loginPayload K n := by
    have htext : padded (maxUuidLen + 1) c.cfg.uuid ++ n = authMessage c.cfg.uuid n := rfl
    rw [P2PClient.authLoginReq, loginPayload, ← hc, htext]
  rw [hp, P2PClient.handleProto_challengeRsp, hpayload, P2PClient.onAuthChallengeRsp_granted env hgranted, hwindow,
    P2PClient.doAuthLogin, hsecret, P2PClient.sendProtoNat, P2PClient.sendProto,
    if_neg (by rw [(loginPayload_fields K hn).1]; decide)]
  exact List.mem_singleton.mpr rfl

theorem login_noticed (hm : m.read 0 len = datagram msgAuthLoginRsp ([authOk] ++ be16 3600)) :
    (P2PClient.handlePacket env m len src c).1.auth.authed = true ∧
      (P2PClient.handlePacket env m len src c).1.auth.heartbeatEnc = true := by
  obtain ⟨plen, hpayload, hp⟩ := P2PClient.handlePacket_message env src c
    (P2PClient.protoOf_of_readDatagram (hm ▸ readDatagram_datagram msgAuthLoginRsp (by decide)))
  rw [hp, P2PClient.handleProto_loginRsp, hpayload, (P2PClient.onAuthLoginRsp_spec env _ c).2.1]
  exact ⟨rfl, rfl⟩

end

theorem next_snd (s : ℤ × NatServer) (e : Event) : (servers.next s e).2 = (step s.2 e).1 := rfl

theorem wellFiled_next {s : ℤ × NatServer} (h : s.2.peers.WellFiled) (e : Event) :
    (servers.next s e).2.peers.WellFiled := wellFiled_step h e

/-- A challenge and a login of the party, and what else the server goes through after each. -/
structure Attempt where
  ask : Env
  askFrom : Addr
  between : List Event
  login : Env
  loginFrom : Addr
  after : List Event

section
variable (a : Attempt) (K : Party) (s : ℤ × NatServer)

def Attempt.challenged : ℤ × NatServer := servers.next s (.packet a.ask (challengeData K) a.askFrom)

def Attempt.waited : ℤ × NatServer := a.between.foldl servers.next (a.challenged K s)

def Attempt.loggedIn : ℤ × NatServer :=
  servers.next (a.waited K s) (.packet a.login (loginData K a.ask.nonce) a.loginFrom)

def Attempt.finished : ℤ × NatServer := a.after.foldl servers.next (a.loggedIn K s)

/-- The login carries the nonce of the challenge, within 30 seconds, and no other challenge or login of the
uuid comes in between. -/
structure Attempt.Undisturbed : Prop where
  wellFiled : s.2.peers.WellFiled
  nonce : a.ask.nonce.length = 16
  gate : (authGate a.ask K.cfg.uuid s.2).1 = 0
  between : Run servers (fun _ e => ¬Names K.cfg.uuid e) (a.challenged K s) a.between
  serves : Serves K a.login (a.waited K s).2
  soon : a.login.now ≤ a.ask.now + 30
  after : Run servers (fun _ _ => True) (a.loggedIn K s) a.after

theorem Attempt.challenged_snd :
    (a.challenged K s).2 = (handlePacket a.ask (challengeData K) a.askFrom s.2).1 := by
  rw [Attempt.challenged, next_snd, ServerRun.step]

theorem Attempt.loggedIn_snd : (a.loggedIn K s).2 =
    (handlePacket a.login (loginData K a.ask.nonce) a.loginFrom (a.waited K s).2).1 := by
  rw [Attempt.loggedIn, next_snd, ServerRun.step]

end

/-- The party makes a login of the answer to its challenge. -/
def Logs (K : Party) (n data : Bytes) : Prop :=
  ∀ (env : P2PClient.Env) (c : P2PClient) (m : Memory) (len : ℕ) (src : Addr), c.cfg = K.cfg → m.read 0 len = data →
    P2PClient.Out.proto c.natSock msgAuthLoginReq (loginPayload K n) ∈ (P2PClient.handlePacket env m len src c).2

/-- The party encrypts its heartbeats from here on. -/
def Notices (data : Bytes) : Prop :=
  ∀ (env : P2PClient.Env) (c : P2PClient) (m : Memory) (len : ℕ) (src : Addr), m.read 0 len = data →
    (P2PClient.handlePacket env m len src c).1.auth.authed = true ∧
      (P2PClient.handlePacket env m len src c).1.auth.heartbeatEnc = true

/-- The next encrypted heartbeat of the party registers it. -/
def Registers (K : Party) (env : Env) (src : Addr) (s : NatServer) : Prop :=
  ∀ (clientEnv : P2PClient.Env) (c : P2PClient), c.cfg = K.cfg → c.auth.heartbeatEnc = true → clientEnv.iv.length = 8 →
    ∃ p, (doHeartbeat clientEnv c).2 = [.proto c.natSock msgHeartbeatReqEnc p] ∧
      known (handlePacket env (datagram msgHeartbeatReqEnc p) src s).1.peers K.cfg.uuid =
        some (⟨src, { src with port := clientEnv.localPort }, 2, c.natType, []⟩, env.now)

theorem party_text (K : Party) : 0 ∉ K.cfg.uuid := by
  rw [← K.text]
  exact fun h => absurd (List.mem_takeWhile_imp h) (by decide)

theorem heartbeat_registers {K : Party} (hnamed : K.cfg.uuid ≠ []) (hsecret : K.cfg.secret ≠ []) {env : Env}
    {s : NatServer} (hs : s.peers.WellFiled) (h : Serves K env s) (hauthed : Lasts K.cfg.uuid env.now s)
    (src : Addr) : Registers K env src s := by
  intro clientEnv c hc henc hiv
  have hshared : HeartbeatExchange.Shared clientEnv c s := ⟨by rw [h.secret, hc], by rwa [hc],
    by rw [hc]; exact K.short, by rw [hc]; exact party_text K, henc, hiv⟩
  obtain ⟨p, hsent, hreq⟩ := HeartbeatExchange.requested hshared (by rwa [hc])
  have hsealed := HeartbeatExchange.doHeartbeat_sealed hshared
  rw [hsent, List.singleton_inj, P2PClient.Out.proto.injEq] at hsealed
  have hlen : p.length < 4294967296 := by
    rw [hsealed.2.2, HeartbeatBodies.sealedBody_length _ _ (uuidField_length _) hiv, HeartbeatExchange.uuidReq_length]
    decide
  have hu : (HeartbeatExchange.builtReq clientEnv c).uuid = K.cfg.uuid := by
    rw [← uuidAt_party K, ← hc]
    change cstr (uuidField c.cfg.uuid) = cstr ((uuidField c.cfg.uuid).take maxUuidLen)
    conv_lhs => rw [← HeartbeatExchange.uuidField_terminated, cstr_append_zero]
  exact ⟨p, hsent, heartbeat_served hs hauthed h.gate hreq hu hnamed hlen⟩

theorem run_wellFiled {ok : ℤ × NatServer → Event → Prop} {s : ℤ × NatServer} (hs : s.2.peers.WellFiled)
    {es : List Event} (hr : Run servers ok s es) : (es.foldl servers.next s).2.peers.WellFiled := by
  induction es generalizing s with
  | nil => exact hs
  | cons e es ih => exact ih (wellFiled_next hs e) hr.2.2

def partyA : Party where
  cfg := { uuid := [0x61], secret := [1], natServers := [] }
  client := ⟨1, 1⟩
  server := ⟨2, 2⟩
  short := by decide
  text := by decide

def attemptA : Attempt where
  ask := { now := 10 }
  askFrom := ⟨1, 1⟩
  between := [.timer { now := 15 } false false false none]
  login := { now := 20 }
  loginFrom := ⟨1, 1⟩
  after := [.timer { now := 75 } false false false none]

def guarded : ℤ × NatServer := (0, { cfg := { enableAuth := true, authSecret := [1] } })

end P2PServer.LoginExchange
