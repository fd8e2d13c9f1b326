import P2PServer.Gates

/-! Registrations and logins. Beside the server stands the history of the nonces that
`issue_auth_nonce` gave out and of the logins that `verify_auth_login` decided. -/
namespace P2PServer.LoginHistory
open ByteStrings ProtoDef Net NatServer SyncCluster Registry PacketCases ServerRun Gates Transitions

inductive Note
  | issued (uuid nonce : Bytes) (time : ℤ)
  | login (uuid nonce mac : Bytes) (time : ℤ) (accepted : Bool)
  deriving DecidableEq, Repr

def Note.uuid : Note → Bytes
  | issued uuid _ _ => uuid
  | login uuid _ _ _ _ => uuid

def Note.isIssue : Note → Bool
  | issued _ _ _ => true
  | login _ _ _ _ _ => false

def Note.isAccepted : Note → Bool
  | issued _ _ _ => false
  | login _ _ _ _ accepted => accepted

def notes (env : Env) (data : Bytes) (s : NatServer) : List Note :=
  match readDatagram data with
  | none => []
  | some (msgId, p) =>
    if msgId = msgAuthChallengeReq ∧ (authGate env (challengeUuid p) s).1 = 0 then
      [.issued (challengeUuid p) env.nonce env.now]
    else if msgId = msgAuthLoginReq ∧ authLoginReqSize ≤ p.length ∧
      (authGate env (uuidAt p 0) s).1 = 0 then
      [.login (uuidAt p 0) (window p 33 16) (window p 49 32) env.now
        ((loginResult env p s).1 = authOk)]
    else []

structure State where
  now : ℤ
  server : NatServer
  history : List Note

inductive Event
  | tick (now : ℤ)
  | packet (env : Env) (data : Bytes) (src : Addr)
  | timer (env : Env) (proxyDue snapDue saved : Bool) (reloaded : Option CfgData)

def next (s : State) : Event → State
  | .tick now => { s with now := now }
  | .packet env data src =>
    { s with
      server := (handlePacket env data src s.server).1
      history := s.history ++ notes env data s.server }
  | .timer env proxyDue snapDue saved reloaded =>
    { s with server := (timerPass env proxyDue snapDue saved reloaded s.server).1 }

/-- Authentication is on, with a secret that does not change. -/
def enabled (secret : Bytes) (s : State) : Event → Prop
  | .tick now => s.now ≤ now
  | .packet env _ _ => env.now = s.now
  | .timer env _ _ _ reloaded =>
    env.now = s.now ∧ ∀ cfg ∈ reloaded, cfg.authEnabled = true ∧ cfg.authSecret = secret

structure Initial (secret : Bytes) (s : State) : Prop where
  started : Started s.server
  authOn : s.server.cfg.authEnabled = true
  authSecret : s.server.cfg.authSecret = secret
  syncOff : s.server.syncEnabled = false
  history : s.history = []

def authenticated (secret : Bytes) : System State Event where
  init := Initial secret
  enabled := enabled secret
  next := next

/-- The nonce `n` was given out to `u` at time `t`, and `u` has neither used it nor got
another one since. -/
def Outstanding (history : List Note) (u n : Bytes) (t : ℤ) : Prop :=
  ∃ before between, history = before ++ .issued u n t :: between ∧ ∀ x ∈ between, x.uuid ≠ u

/-- A login of `u` was accepted: its nonce was outstanding and at most 30 seconds old, and
its MAC is that of the secret over the uuid in 33 bytes and the nonce. -/
def Genuine (secret : Bytes) (history : List Note) (u : Bytes) : Prop :=
  ∃ before after n mac t₀ t, history = before ++ .login u n mac t true :: after ∧
    Outstanding before u n t₀ ∧ t₀ ≤ t ∧ t ≤ t₀ + 30 ∧
    mac = Crypto.hmacSha256 secret (padded 33 u ++ n)

/-- How often `u` was given a nonce. -/
def issues (history : List Note) (u : Bytes) : ℕ :=
  history.countP fun x => x.isIssue && x.uuid = u

/-- How often a login of `u` was accepted. -/
def logins (history : List Note) (u : Bytes) : ℕ :=
  history.countP fun x => x.isAccepted && x.uuid = u

structure Inv (secret : Bytes) (s : State) : Prop where
  authOn : s.server.cfg.authEnabled = true
  authSecret : s.server.cfg.authSecret = secret
  syncOff : s.server.syncEnabled = false
  wellFiled : s.server.peers.WellFiled
  nonces : ∀ {u n expire}, s.server.authNonces[u]? = some (n, expire) →
    Outstanding s.history u n (expire - 30) ∧ expire - 30 ≤ s.now
  sessions : ∀ {u t}, s.server.peers.authSessions[u]? = some t → Genuine secret s.history u
  peers : ∀ {u p}, s.server.peers.peers[u]? = some p → Genuine secret s.history u
  counts : ∀ u, logins s.history u + (if s.server.authNonces[u]?.isSome then 1 else 0) ≤
    issues s.history u

theorem Genuine.append {secret : Bytes} {history : List Note} {u : Bytes}
    (h : Genuine secret history u) (more : List Note) : Genuine secret (history ++ more) u := by
  obtain ⟨before, after, n, mac, t₀, t, rfl, hrest⟩ := h
  exact ⟨before, after ++ more, n, mac, t₀, t, by simp, hrest⟩

theorem Outstanding.append {history : List Note} {u n : Bytes} {t : ℤ}
    (h : Outstanding history u n t) {more : List Note} (hmore : ∀ x ∈ more, x.uuid ≠ u) :
    Outstanding (history ++ more) u n t := by
  obtain ⟨before, between, rfl, hb⟩ := h
  refine ⟨before, between ++ more, by simp, fun x hx => ?_⟩
  rcases List.mem_append.mp hx with hx | hx
  · exact hb x hx
  · exact hmore x hx

theorem inv_init {secret : Bytes} {s : State} (h : Initial secret s) : Inv secret s where
  authOn := h.authOn
  authSecret := h.authSecret
  syncOff := h.syncOff
  wellFiled := h.started.wellFiled
  nonces hn := by
    rw [h.started.authNonces] at hn
    simp at hn
  sessions ht := by
    rw [h.started.peers] at ht
    simp at ht
  peers hp := by
    rw [h.started.peers] at hp
    simp at hp
  counts u := by
    rw [h.started.authNonces, h.history]
    simp [logins, issues]

theorem Inv.genuine_of_authed {secret : Bytes} {s : State} (h : Inv secret s) {u : Bytes} {now : ℤ}
    (ha : s.server.peers.authed u now = true) : Genuine secret s.history u := by
  rcases (PeerManager.authed_iff _ _ _).mp ha with ⟨t, ht, -⟩ | ⟨p, hp, -⟩
  · exact h.sessions ht
  · exact h.peers hp

theorem authed_of_heartbeatGate {env : Env} {u : Bytes} {s : NatServer}
    (hon : s.cfg.authEnabled = true) (h : (heartbeatGate env u s).1 = 0) :
    s.peers.authed u env.now = true := by
  unfold heartbeatGate at h
  by_contra hc
  simp only [Bool.not_eq_true] at hc
  simp only [hon, hc, Bool.not_false, Bool.and_self, if_true] at h
  exact absurd h (by decide)

theorem Inv.tick {secret : Bytes} {s : State} (h : Inv secret s) {now : ℤ} (hn : s.now ≤ now) :
    Inv secret { s with now := now } :=
  { h with
    nonces := fun hx => ⟨(h.nonces hx).1, (h.nonces hx).2.trans hn⟩ }

theorem Inv.timer {secret : Bytes} {s : State} (h : Inv secret s) {env : Env}
    {proxyDue snapDue saved : Bool} {reloaded : Option CfgData}
    (hr : ∀ cfg ∈ reloaded, cfg.authEnabled = true ∧ cfg.authSecret = secret) :
    Inv secret (next s (.timer env proxyDue snapDue saved reloaded)) := by
  have hcore := (timerPass_spec env proxyDue snapDue saved reloaded s.server).1
  have hcfg := congrArg Core.cfg hcore
  have hon := congrArg Core.syncOn hcore
  have haddr := congrArg Core.syncAddrs hcore
  simp only [core] at hcfg hon haddr
  refine ⟨?_, ?_, ?_, ?_, fun hx => ?_, fun ht => ?_, fun hp => ?_, fun u => ?_⟩
  · simp only [next, hcfg]
    cases reloaded with
    | none => exact h.authOn
    | some cfg => exact (hr cfg rfl).1
  · simp only [next, hcfg]
    cases reloaded with
    | none => exact h.authSecret
    | some cfg => exact (hr cfg rfl).2
  · simpa only [next, NatServer.syncEnabled, hon, haddr] using h.syncOff
  · exact wellFiled_step h.wellFiled (.timer env proxyDue snapDue saved reloaded)
  · rw [next, timerPass_nonces] at hx
    exact h.nonces hx
  · rw [next, timerPass_peers, PeerManager.cleanupAuthSessions_sessions] at ht
    exact h.sessions (Option.filter_eq_some_iff.mp ht).1
  · rw [next, timerPass_peers] at hp
    have hp' : (s.server.peers.cleanupTimeoutAndCollect 90 env.now).2.peers[_]? = some _ := hp
    rw [PeerManager.cleanup_get] at hp'
    exact h.peers (Option.filter_eq_some_iff.mp hp').1
  · rw [next, timerPass_nonces]
    exact h.counts u

theorem notes_cases (env : Env) (data : Bytes) (s : NatServer) :
    (notes env data s = [] ∧ ∀ v, nonceAfter env data s v = s.authNonces[v]?) ∨
    (∃ p, readDatagram data = some (msgAuthChallengeReq, p) ∧
      notes env data s = [.issued (challengeUuid p) env.nonce env.now] ∧
      ∀ v, nonceAfter env data s v = if v = challengeUuid p then some (env.nonce, env.now + 30)
        else s.authNonces[v]?) ∨
    ∃ p, readDatagram data = some (msgAuthLoginReq, p) ∧
      notes env data s = [.login (uuidAt p 0) (window p 33 16) (window p 49 32) env.now
        ((loginResult env p s).1 = authOk)] ∧
      (s.cfg.authEnabled = true → ∀ v, nonceAfter env data s v =
        if v = uuidAt p 0 then none else s.authNonces[v]?) := by
  unfold notes nonceAfter
  cases hread : readDatagram data with
  | none => exact .inl ⟨rfl, fun _ => rfl⟩
  | some r =>
    obtain ⟨msgId, p⟩ := r
    dsimp only
    by_cases hc : msgId = msgAuthChallengeReq ∧ (authGate env (challengeUuid p) s).1 = 0
    · have hl : ¬msgId = msgAuthLoginReq := by
        rw [hc.1]
        decide
      refine .inr (.inl ⟨p, by rw [hc.1], by rw [if_pos hc], fun v => ?_⟩)
      simp only [hc.1, hc.2, true_and]
      split
      · rfl
      · simp only [hc.1] at hl
        simp only [hl, false_and, if_false]
    · rw [if_neg hc]
      by_cases hl : msgId = msgAuthLoginReq ∧ authLoginReqSize ≤ p.length ∧
          (authGate env (uuidAt p 0) s).1 = 0
      · refine .inr (.inr ⟨p, by rw [hl.1], by rw [if_pos hl], fun hon v => ?_⟩)
        have hn : ¬msgAuthLoginReq = msgAuthChallengeReq := by decide
        simp only [hl.1, hl.2, hn, hon, false_and, if_false, true_and]
      · refine .inl ⟨by rw [if_neg hl], fun v => ?_⟩
        rw [if_neg, if_neg]
        · exact fun h => hl ⟨h.1, h.2.1, h.2.2.1⟩
        · exact fun h => hc ⟨h.1, h.2.1⟩

/-- A login is accepted when authentication is on only with the nonce that is kept. -/
theorem nonce_of_loginResult {env : Env} {p : Bytes} {s : NatServer}
    (hon : s.cfg.authEnabled = true) (h : (loginResult env p s).1 = authOk) :
    ∃ expire, s.authNonces[uuidAt p 0]? = some (window p 33 16, expire) := by
  rcases loginResult_cases env p s with ⟨-, -, hres⟩ | ⟨-, r, hr, heq⟩
  · exact absurd h hres
  · rw [heq] at h
    cases hr with
    | off hoff =>
      rw [authGate_cfg, hon] at hoff
      cases hoff
    | missing => exact absurd (show authBadMac = authOk from h) (by decide)
    | refused => exact absurd (show authBadMac = authOk from h) (by decide)
    | granted _ hn _ _ => exact ⟨_, authGate_authNonces env _ s ▸ hn⟩

theorem loginResult_granted {env : Env} {p : Bytes} {s : NatServer}
    (hgate : (authGate env (uuidAt p 0) s).1 = 0) (hon : s.cfg.authEnabled = true) {expire : ℤ}
    (hnonce : s.authNonces[uuidAt p 0]? = some (window p 33 16, expire)) (htime : env.now ≤ expire)
    (hmac : Crypto.hmacSha256 s.cfg.authSecret (authMessage (uuidAt p 0) (window p 33 16)) =
      window p 49 32) :
    loginResult env p s = (authOk, { (authGate env (uuidAt p 0) s).2 with
      authNonces := s.authNonces.erase (uuidAt p 0)
      peers := s.peers.setAuthExpire (uuidAt p 0) (env.now + 3600) }) := by
  have hlate : ¬env.now > expire := by omega
  have h01 : ¬(0 : UInt8) = 1 := by decide
  have h02 : ¬(0 : UInt8) = 2 := by decide
  simp only [loginResult, hgate, h01, h02, if_false, verifyAuthLogin, authGate_cfg, hon,
    authGate_authNonces, hnonce, hlate, hmac, Bool.not_true, Bool.false_eq_true, ne_eq,
    not_true_eq_false, if_true, authGate_peers]

theorem Inv.nonces_packet {secret : Bytes} {s : State} (h : Inv secret s) {env : Env}
    (henv : env.now = s.now) (data : Bytes) {u n : Bytes} {expire : ℤ}
    (hn : nonceAfter env data s.server u = some (n, expire)) :
    Outstanding (s.history ++ notes env data s.server) u n (expire - 30) ∧
      expire - 30 ≤ s.now := by
  rcases notes_cases env data s.server with ⟨hnotes, hsame⟩ | ⟨p, -, hnotes, hafter⟩ |
    ⟨p, -, hnotes, hafter⟩
  · rw [hsame] at hn
    rw [hnotes, List.append_nil]
    exact h.nonces hn
  · rw [hafter] at hn
    rw [hnotes]
    split at hn
    · rename_i hu
      rw [Option.some.injEq, Prod.mk.injEq] at hn
      have ht : expire - 30 = env.now := by omega
      refine ⟨⟨s.history, [], ?_, fun x hx => by cases hx⟩, by omega⟩
      rw [ht, hu, ← hn.1]
    · rename_i hu
      obtain ⟨hout, htime⟩ := h.nonces hn
      refine ⟨hout.append fun x hx => ?_, htime⟩
      rw [List.mem_singleton.mp hx]
      exact fun hc => hu hc.symm
  · rw [hafter h.authOn] at hn
    rw [hnotes]
    split at hn
    · cases hn
    · rename_i hu
      obtain ⟨hout, htime⟩ := h.nonces hn
      refine ⟨hout.append fun x hx => ?_, htime⟩
      rw [List.mem_singleton.mp hx]
      exact fun hc => hu hc.symm

theorem logins_issued (history : List Note) (v n : Bytes) (t : ℤ) (u : Bytes) :
    logins (history ++ [.issued v n t]) u = logins history u := by
  simp [logins, List.countP_append, Note.isAccepted]

theorem issues_issued (history : List Note) (v n : Bytes) (t : ℤ) (u : Bytes) :
    issues (history ++ [.issued v n t]) u = issues history u + if v = u then 1 else 0 := by
  by_cases h : v = u <;> simp [issues, List.countP_append, Note.isIssue, Note.uuid, h]

theorem logins_login (history : List Note) (v n mac : Bytes) (t : ℤ) (accepted : Bool) (u : Bytes) :
    logins (history ++ [.login v n mac t accepted]) u =
      logins history u + if accepted = true ∧ v = u then 1 else 0 := by
  cases accepted <;> by_cases h : v = u <;>
    simp [logins, List.countP_append, Note.isAccepted, Note.uuid, h]

theorem issues_login (history : List Note) (v n mac : Bytes) (t : ℤ) (accepted : Bool) (u : Bytes) :
    issues (history ++ [.login v n mac t accepted]) u = issues history u := by
  simp [issues, List.countP_append, Note.isIssue]

theorem Inv.counts_packet {secret : Bytes} {s : State} (h : Inv secret s) (env : Env)
    (data : Bytes) (u : Bytes) :
    logins (s.history ++ notes env data s.server) u +
        (if (nonceAfter env data s.server u).isSome then 1 else 0) ≤
      issues (s.history ++ notes env data s.server) u := by
  have hc := h.counts u
  rcases notes_cases env data s.server with ⟨hnotes, hsame⟩ | ⟨p, -, hnotes, hafter⟩ |
    ⟨p, -, hnotes, hafter⟩
  · rwa [hnotes, hsame, List.append_nil]
  · rw [hnotes, hafter, logins_issued, issues_issued]
    by_cases hu : u = challengeUuid p
    · simp only [hu, if_true, Option.isSome_some] at hc ⊢
      omega
    · have hu' : ¬challengeUuid p = u := fun hx => hu hx.symm
      simp only [hu, hu', if_false]
      omega
  · rw [hnotes, hafter h.authOn, logins_login, issues_login]
    by_cases hu : u = uuidAt p 0
    · simp only [hu, if_true, and_true, Option.isSome_none, Bool.false_eq_true, if_false,
        decide_eq_true_eq] at hc ⊢
      by_cases hok : (loginResult env p s.server).1 = authOk
      · obtain ⟨expire, hn⟩ := nonce_of_loginResult h.authOn hok
        rw [hn] at hc
        simp only [Option.isSome_some, if_true] at hc
        simp only [hok, if_true]
        omega
      · simp only [hok, if_false]
        omega
    · have hu' : ¬uuidAt p 0 = u := fun hx => hu hx.symm
      simp only [hu, hu', and_false, if_false]
      omega

theorem Inv.genuine_of_login {secret : Bytes} {s : State} (h : Inv secret s) {env : Env}
    (henv : env.now = s.now) {data p : Bytes}
    (hread : readDatagram data = some (msgAuthLoginReq, p)) (hlen : authLoginReqSize ≤ p.length)
    (hgate : (authGate env (uuidAt p 0) s.server).1 = 0) {expire : ℤ}
    (hnonce : s.server.authNonces[uuidAt p 0]? = some (window p 33 16, expire))
    (htime : env.now ≤ expire)
    (hmac : Crypto.hmacSha256 s.server.cfg.authSecret (authMessage (uuidAt p 0) (window p 33 16)) =
      window p 49 32) :
    Genuine secret (s.history ++ notes env data s.server) (uuidAt p 0) := by
  have hok : (loginResult env p s.server).1 = authOk := by
    rw [loginResult_granted hgate h.authOn hnonce htime hmac]
  have hid : ¬msgAuthLoginReq = msgAuthChallengeReq := by decide
  have hnotes : notes env data s.server =
      [.login (uuidAt p 0) (window p 33 16) (window p 49 32) env.now true] := by
    simp only [notes, hread, hid, false_and, if_false, hlen, hgate, true_and, if_true, hok,
      decide_true]
  obtain ⟨hout, hissued⟩ := h.nonces hnonce
  refine ⟨s.history, [], window p 33 16, window p 49 32, expire - 30, env.now, by rw [hnotes], hout,
    by omega, by omega, ?_⟩
  rw [← hmac, h.authSecret]
  rfl

theorem Inv.sessions_packet {secret : Bytes} {s : State} (h : Inv secret s) {env : Env}
    (henv : env.now = s.now) (data : Bytes) (src : Addr) {u : Bytes} {t : ℤ}
    (ht : (handlePacket env data src s.server).1.peers.authSessions[u]? = some t) :
    Genuine secret (s.history ++ notes env data s.server) u := by
  have old {t' : ℤ} (ht' : s.server.peers.authSessions[u]? = some t') :
      Genuine secret (s.history ++ notes env data s.server) u := (h.sessions ht').append _
  have hf := handlePacket_filed env data src s.server
  generalize (handlePacket env data src s.server).1.peers = m at hf ht
  cases hf with
  | kept => exact old ht
  | heartbeat =>
    rw [PeerManager.upsert_sessions] at ht
    exact old ht
  | report =>
    rw [PeerManager.upsert_sessions] at ht
    exact old ht
  | login hread hlen hgate hon hnonce htime hmac =>
    rw [PeerManager.setAuthExpire_sessions] at ht
    split at ht
    · rename_i hu
      rw [hu]
      exact h.genuine_of_login henv hread hlen hgate hnonce htime hmac
    · exact old ht
  | delete => exact old ht
  | entry =>
    rw [stored, PeerManager.upsertSynced_sessions] at ht
    exact old ht
  | del => exact old ht

theorem Inv.packet {secret : Bytes} {s : State} (h : Inv secret s) {env : Env}
    (henv : env.now = s.now) (data : Bytes) (src : Addr) :
    Inv secret (next s (.packet env data src)) := by
  obtain ⟨hsetup, -⟩ := handlePacket_setup env data src s.server
  refine ⟨?_, ?_, ?_, ?_, fun hn => ?_, h.sessions_packet henv data src, fun {u p} hp => ?_, fun u => ?_⟩
  · rw [next, hsetup.cfg, h.authOn]
  · rw [next, hsetup.cfg, h.authSecret]
  · rw [next, hsetup.syncEnabled, h.syncOff]
  · exact wellFiled_step h.wellFiled (.packet env data src)
  · rw [next, handlePacket_nonces] at hn
    exact h.nonces_packet henv data hn
  · refine Genuine.append ?_ _
    by_cases hgate : (heartbeatGate env u s.server).1 = 0
    · exact h.genuine_of_authed (authed_of_heartbeatGate h.authOn hgate)
    · have hx := existsPeer_of_refused h.wellFiled h.syncOff hgate
        ((PeerManager.existsPeer_iff _ _).mpr ⟨p, hp⟩)
      obtain ⟨q, hq⟩ := (PeerManager.existsPeer_iff _ _).mp hx
      exact h.peers hq
  · rw [next, handlePacket_nonces]
    exact h.counts_packet env data u

theorem inv_step {secret : Bytes} {s : State} (h : Inv secret s) {e : Event}
    (he : enabled secret s e) : Inv secret (next s e) := by
  cases e with
  | tick now => exact h.tick he
  | packet env data src => exact h.packet he data src
  | timer env proxyDue snapDue saved reloaded => exact h.timer he.2

/-- In every run, a registered uuid has logged in genuinely, and no uuid has more accepted
logins than it was given nonces. -/
theorem registered_genuine {secret : Bytes} {s : State} (h : Reachable (authenticated secret) s)
    (u : Bytes) :
    (s.server.peers.existsPeer u = true → Genuine secret s.history u) ∧
      logins s.history u ≤ issues s.history u := by
  have hi : Inv secret s :=
    h.invariant (I := Inv secret) (fun _ h0 => inv_init h0) fun _ _ hi he _ => inv_step hi he
  refine ⟨fun hx => ?_, ?_⟩
  · obtain ⟨p, hp⟩ := (PeerManager.existsPeer_iff _ _).mp hx
    exact hi.peers hp
  · exact (Nat.le_add_right _ _).trans (hi.counts u)

open Samples (secretK uuidU host)

def nonceZero : Bytes := List.replicate 16 0

def fresh : State := ⟨0, { cfg := { enableAuth := true, authSecret := secretK } }, []⟩

def challenged : State :=
  next fresh (.packet {} (datagram msgAuthChallengeReq (uuidField uuidU)) host)

def loginOfU : Bytes :=
  uuidField uuidU ++ (nonceZero ++ Crypto.hmacSha256 secretK (authMessage uuidU nonceZero))

def loggedIn : State := next challenged (.packet {} (datagram msgAuthLoginReq loginOfU) host)

def registered : State :=
  next loggedIn (.packet {} (datagram msgHeartbeatReq (uuidField uuidU ++ List.replicate 10 0)) host)

theorem loginOfU_length : loginOfU.length = 81 := by
  simp only [loginOfU, List.length_append, uuidField_length, Crypto.hmacSha256_length]
  rfl

theorem loginOfU_uuid : uuidAt loginOfU 0 = uuidU := by
  rw [loginOfU, uuidAt_uuidField]
  decide

theorem loginOfU_nonce : window loginOfU 33 16 = nonceZero := by
  have hlen : nonceZero.length = 16 := rfl
  rw [window, loginOfU, List.drop_left' (uuidField_length uuidU), List.take_left' hlen]

theorem loginOfU_mac : window loginOfU 49 32 =
    Crypto.hmacSha256 secretK (authMessage uuidU nonceZero) := by
  have hlen : (uuidField uuidU ++ nonceZero).length = 49 := by
    rw [List.length_append, uuidField_length]
    rfl
  rw [window, loginOfU, ← List.append_assoc, List.drop_left' hlen,
    List.take_of_length_le (Crypto.hmacSha256_length _ _).le]

theorem loggedIn_server : loggedIn.server = { challenged.server with
    authNonces := challenged.server.authNonces.erase uuidU
    peers := challenged.server.peers.setAuthExpire uuidU 3600 } := by
  have hread : readDatagram (datagram msgAuthLoginReq loginOfU) = some (msgAuthLoginReq, loginOfU) :=
    readDatagram_datagram msgAuthLoginReq (by rw [loginOfU_length]; decide)
  have hgate : authGate {} uuidU challenged.server = (0, challenged.server) := by decide +kernel
  have hnonce : challenged.server.authNonces[uuidAt loginOfU 0]? =
      some (window loginOfU 33 16, 30) := by
    rw [loginOfU_uuid, loginOfU_nonce]
    decide +kernel
  have hmac : Crypto.hmacSha256 challenged.server.cfg.authSecret
      (authMessage (uuidAt loginOfU 0) (window loginOfU 33 16)) = window loginOfU 49 32 := by
    have hcfg : challenged.server.cfg.authSecret = secretK := by decide +kernel
    rw [hcfg, loginOfU_uuid, loginOfU_nonce, loginOfU_mac]
  have hres : loginResult {} loginOfU challenged.server = _ :=
    loginResult_granted (by rw [loginOfU_uuid, hgate]) (by decide +kernel) hnonce (by decide) hmac
  rw [loginOfU_uuid, hgate] at hres
  rw [loggedIn, next, handlePacket_login hread,
    onAuthLoginReq_fst _ _ _ _ (by rw [loginOfU_length]; decide), hres]
  rfl

theorem reachable_packet {secret : Bytes} {s : State} (h : Reachable (authenticated secret) s)
    {env : Env} (henv : env.now = s.now) (data : Bytes) (src : Addr) :
    Reachable (authenticated secret) (next s (.packet env data src)) :=
  Reach.step (S := authenticated secret) (e := .packet env data src) h henv trivial

theorem registered_reachable : Reachable (authenticated secretK) registered := by
  have h0 : (authenticated secretK).init fresh :=
    ⟨⟨rfl, rfl, rfl⟩, by decide, rfl, rfl, rfl⟩
  have h1 : Reachable (authenticated secretK) challenged :=
    reachable_packet (Reach.start h0) rfl _ host
  have h2 : Reachable (authenticated secretK) loggedIn := reachable_packet h1 rfl _ host
  exact reachable_packet h2 rfl _ host

theorem registered_genuine_uuidU :
    registered.server.peers.existsPeer uuidU = true ∧ Genuine secretK registered.history uuidU := by
  have hx : registered.server.peers.existsPeer uuidU = true := by
    rw [registered, next, loggedIn_server]
    decide +kernel
  exact ⟨hx, (registered_genuine registered_reachable uuidU).1 hx⟩

end P2PServer.LoginHistory
