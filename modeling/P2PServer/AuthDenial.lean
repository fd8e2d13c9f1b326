import P2PServer.AuthAnswers
import P2PServer.ClientAuthRetry
import P2PServer.LoginHistory

/-! A client and its server, with a network between them that may lose, repeat, delay and
reorder datagrams, and other hosts that may send the server anything. The server answers a
login with a nonce that has expired, was replaced or was used up as it answers a wrong MAC, and
the client takes that answer for final. -/
namespace P2PServer.AuthDenial
open ByteStrings ProtoDef Net Codec NatServer PacketCases ServerRun AuthAnswers Transitions
open P2PClient (Config Asks Calm protoOf protoOf_of_readDatagram refuses)

/-- A client by its settings, and the addresses of both sides. -/
structure Party where
  cfg : Config
  client : Addr
  server : Addr
  short : cfg.uuid.length ≤ maxUuidLen
  text : cstr cfg.uuid = cfg.uuid

/-- `toServer` and `toClient` hold what was ever sent between the two. -/
structure State where
  client : P2PClient
  server : NatServer
  toServer : List Bytes
  toClient : List Bytes

inductive Event
  | client (env : P2PClient.Env) (e : P2PClient.Event)
  | deliver (env : Env) (data : Bytes)
  | other (env : Env) (data : Bytes) (src : Addr)
  | timer (env : Env) (proxyDue snapDue saved : Bool) (reloaded : Option CfgData)

def sentToServer (K : Party) (outs : List P2PClient.Out) : List Bytes :=
  outs.filterMap fun
    | .proto dst msgId payload => if dst = K.server then some (datagram msgId payload) else none
    | _ => none

def sentToClient (K : Party) (outs : List Out) : List Bytes :=
  outs.filterMap fun
    | .send dst data => if dst = K.client then some data else none
    | .writeFile _ _ => none

/-- The server acts, and what it sends to the client joins the network. -/
def act (K : Party) (s : State) (f : Action) : State :=
  { s with
    server := (f s.server).1
    toClient := s.toClient ++ sentToClient K (f s.server).2 }

def next (K : Party) (s : State) : Event → State
  | .client env e =>
    { s with
      client := (P2PClient.step env e s.client).1
      toServer := s.toServer ++ sentToServer K (P2PClient.step env e s.client).2 }
  | .deliver env data => act K s (handlePacket env data K.client)
  | .other env data src => act K s (handlePacket env data src)
  | .timer env proxyDue snapDue saved reloaded =>
    act K s (timerPass env proxyDue snapDue saved reloaded)

/-- What can happen to the client: answers of the authentication come from the server, and a
new start uses the same settings. -/
def clientEnabled (K : Party) (s : State) : P2PClient.Event → Prop
  | .start cfg => cfg = K.cfg
  | .packet m len _ => s.client.running = true ∧ ∀ id p, protoOf m len = some (id, p) →
      authAnswers.contains id = true → m.read 0 len ∈ s.toClient
  | e => P2PClient.enabled s.client e

/-- The server keeps the secret and its authentication. The client's uuid passes the blacklist
and the whitelist whenever the server hears from it. -/
def enabled (K : Party) (s : State) : Event → Prop
  | .client _ e => clientEnabled K s e
  | .deliver env data =>
    data ∈ s.toServer ∧ env.nonce.length = 16 ∧ (authGate env K.cfg.uuid s.server).1 = 0
  | .other _ _ src => src ≠ K.client
  | .timer _ _ _ _ reloaded =>
    ∀ cfg ∈ reloaded, cfg.authEnabled = true ∧ cfg.authSecret = K.cfg.secret

structure Initial (K : Party) (s : State) : Prop where
  client : ∃ callbacks, s.client = { cfg := K.cfg, callbacks := callbacks }
  authOn : s.server.cfg.authEnabled = true
  authSecret : s.server.cfg.authSecret = K.cfg.secret
  toServer : s.toServer = []
  toClient : s.toClient = []

def system (K : Party) : System State Event where
  init := Initial K
  enabled := enabled K
  next := next K

/-- The login carries the nonce that the server holds for its uuid, and that nonce has not
expired. -/
def NonceCurrent (env : Env) (p : Bytes) (s : NatServer) : Prop :=
  ∃ expire, s.authNonces[uuidAt p 0]? = some (window p 33 16, expire) ∧ env.now ≤ expire

/-- Whenever a login of the client reaches the server, its nonce is the current one. -/
def Current (s : State) : Event → Prop
  | .deliver env data => ∀ p, readDatagram data = some (msgAuthLoginReq, p) →
      NonceCurrent env p s.server
  | .client _ _ | .other _ _ _ | .timer _ _ _ _ _ => True

def loginPayload (K : Party) (n : Bytes) : Bytes :=
  uuidField K.cfg.uuid ++ n ++ Crypto.hmacSha256 K.cfg.secret (authMessage K.cfg.uuid n)

/-- What holds of every datagram of the client: a login carries its MAC, and a challenge is
asked for its own uuid. -/
def Honest (K : Party) (data : Bytes) : Prop :=
  ∀ id p, readDatagram data = some (id, p) →
    (id = msgAuthLoginReq → ∃ n, n.length = 16 ∧ p = loginPayload K n) ∧
    (id = msgAuthChallengeReq → challengeUuid p = K.cfg.uuid)

/-- What holds of every datagram to the client: an answer to a challenge leads to a login, and
an answer to a login is good. -/
def Granting (data : Bytes) : Prop :=
  ∃ id p, readDatagram data = some (id, p) ∧ (id = msgAuthChallengeRsp → refuses p = false) ∧
    (id = msgAuthLoginRsp → 1 ≤ p.length ∧ byteAt p 0 = authOk)

theorem uuidAt_uuid (K : Party) (rest : Bytes) : uuidAt (uuidField K.cfg.uuid ++ rest) 0 = K.cfg.uuid := by
  rw [uuidAt_uuidField, K.text, List.take_of_length_le K.short]

theorem loginPayload_fields (K : Party) {n : Bytes} (hn : n.length = 16) :
    (loginPayload K n).length = 81 ∧ uuidAt (loginPayload K n) 0 = K.cfg.uuid ∧
      window (loginPayload K n) 33 16 = n ∧ window (loginPayload K n) 49 32 =
        Crypto.hmacSha256 K.cfg.secret (authMessage K.cfg.uuid n) := by
  have hu : (uuidField K.cfg.uuid).length = 33 := uuidField_length _
  have hun : (uuidField K.cfg.uuid ++ n).length = 49 := by
    rw [List.length_append, hu, hn]
  refine ⟨?_, ?_, ?_, ?_⟩
  · rw [loginPayload, List.length_append, hun, Crypto.hmacSha256_length]
  · rw [loginPayload, List.append_assoc]
    exact uuidAt_uuid K _
  · rw [loginPayload, List.append_assoc, window, List.drop_left' hu, List.take_left' hn]
  · rw [loginPayload, window, List.drop_left' hun,
      List.take_of_length_le (Crypto.hmacSha256_length _ _).le]

structure ClientInv (K : Party) (c : P2PClient) : Prop where
  cfg : c.cfg = K.cfg
  nonce : c.auth.authNonce.length = 16
  admitted : c.auth.authDenied = false

/-- A step of the client that keeps its invariant and sends only honest datagrams. -/
structure Behaves (K : Party) (r : P2PClient × List P2PClient.Out) : Prop where
  inv : ClientInv K r.1
  sends : ∀ data ∈ sentToServer K r.2, Honest K data

theorem mem_sentToServer {K : Party} {outs : List P2PClient.Out} {data : Bytes}
    (h : data ∈ sentToServer K outs) :
    ∃ id payload, .proto K.server id payload ∈ outs ∧ data = datagram id payload := by
  obtain ⟨o, ho, hd⟩ := List.mem_filterMap.mp h
  cases o with
  | proto dst id payload =>
    dsimp only at hd
    split at hd
    · rename_i hdst
      cases hd
      exact ⟨id, payload, hdst ▸ ho, rfl⟩
    · cases hd
  | raw | juice | ready | connected | message | disconnected | error | erasedUse => cases hd

theorem honest_of_not_control {K : Party} {dst : Addr} {id : UInt8} {payload : Bytes}
    (h : (P2PClient.Out.proto dst id payload).isControl = false) : Honest K (datagram id payload) := by
  intro id' p hread
  have hid := readDatagram_id hread
  have hc : P2PClient.controlMessages.contains id = false := h
  subst hid
  constructor
  · rintro rfl
    cases hc
  · rintro rfl
    cases hc

theorem challenge_honest (K : Party) : Honest K (datagram msgAuthChallengeReq (uuidField K.cfg.uuid)) := by
  intro id p hread
  have hl := uuidField_length K.cfg.uuid
  rw [readDatagram_datagram _ (by rw [hl]; decide), Option.some.injEq, Prod.mk.injEq] at hread
  refine ⟨fun h => ?_, fun _ => ?_⟩
  · rw [← hread.1] at h
    exact absurd h (by decide)
  · have hu := uuidAt_uuid K []
    rw [List.append_nil] at hu
    rw [← hread.2, challengeUuid, if_pos hl.ge, hu]

theorem login_honest (K : Party) {n : Bytes} (hn : n.length = 16) :
    Honest K (datagram msgAuthLoginReq (loginPayload K n)) := by
  intro id p hread
  have hl := (loginPayload_fields K hn).1
  rw [readDatagram_datagram _ (by rw [hl]; decide), Option.some.injEq, Prod.mk.injEq] at hread
  refine ⟨fun _ => ⟨n, hn, hread.2.symm⟩, fun h => ?_⟩
  rw [← hread.1] at h
  exact absurd h (by decide)

theorem ClientInv.asks {K : Party} {c : P2PClient} (h : ClientInv K c)
    {r : P2PClient × List P2PClient.Out} (ha : Asks c r) : Behaves K r := by
  refine ⟨⟨ha.mild.cfg.trans h.cfg, ?_, ?_⟩, fun data hd => ?_⟩
  · rw [ha.auth]
    split <;> exact h.nonce
  · rw [ha.auth]
    split <;> exact h.admitted
  · obtain ⟨id, payload, ho, rfl⟩ := mem_sentToServer hd
    cases hc : (P2PClient.Out.proto K.server id payload).isControl with
    | false => exact honest_of_not_control hc
    | true =>
      have heq := ha.control _ ho hc
      rw [P2PClient.challengeOf, P2PClient.Out.proto.injEq, h.cfg] at heq
      rw [heq.2.1, heq.2.2]
      exact challenge_honest K

theorem ClientInv.behaves_packet {K : Party} {c : P2PClient} (h : ClientInv K c) {env : P2PClient.Env}
    {m : Memory} {len : ℕ} {src : Addr}
    (hgood : ∀ id p, protoOf m len = some (id, p) → authAnswers.contains id = true →
      Granting (m.read 0 len)) : Behaves K (P2PClient.handlePacket env m len src c) := by
  have hread {id : UInt8} {p : Bytes} (hp : protoOf m len = some (id, p))
      (hid : authAnswers.contains id = true) : (id = msgAuthChallengeRsp → refuses p = false) ∧
      (id = msgAuthLoginRsp → 1 ≤ p.length ∧ byteAt p 0 = authOk) := by
    obtain ⟨id', p', hr, hchal, hlog⟩ := hgood id p hp hid
    have heq := (protoOf_of_readDatagram hr).symm.trans hp
    rw [Option.some.injEq, Prod.mk.injEq] at heq
    rw [← heq.1, ← heq.2]
    exact ⟨hchal, hlog⟩
  rcases P2PClient.handlePacket_cases env m len src c with ⟨p, hm, hp⟩ | ⟨p, hm, hp⟩ | ⟨-, ha⟩
  · have hr := (hread hm rfl).1 rfl
    rw [hp, P2PClient.onAuthChallengeRsp_granted env hr]
    obtain ⟨hsame, houts⟩ := P2PClient.doAuthLogin_outs
      { c with auth := { c.auth with authNonce := window p 1 16 } }
    have hlen : 19 ≤ p.length := by
      by_contra hc
      have hlt : p.length < 19 := by omega
      simp [refuses, hlt] at hr
    have hn : (window p 1 16).length = 16 := by
      rw [window, List.length_take, List.length_drop]
      omega
    refine ⟨?_, fun data hd => ?_⟩
    · rw [hsame]
      exact ⟨h.cfg, hn, h.admitted⟩
    · obtain ⟨id, payload, ho, rfl⟩ := mem_sentToServer hd
      have heq := houts _ ho
      rw [P2PClient.loginOf, P2PClient.Out.proto.injEq, P2PClient.authLoginReq, h.cfg] at heq
      rw [heq.2.1, heq.2.2]
      exact login_honest K hn
  · obtain ⟨hlen, hok⟩ := (hread hm rfl).2 rfl
    rw [hp]
    obtain ⟨hmild, hauth, -, hquiet⟩ := P2PClient.onAuthLoginRsp_spec env p c
    have hlogged : P2PClient.loggedAuth env.now p c.auth = { c.auth with
        authInflight := false, authed := true, authBackoff := {}, heartbeatEnc := true } := by
      rw [P2PClient.loggedAuth, if_neg (by omega), if_pos hok]
    rw [hlogged] at hauth
    refine ⟨⟨hmild.cfg.trans h.cfg, ?_, ?_⟩, fun data hd => ?_⟩
    · rw [hauth]
      exact h.nonce
    · rw [hauth]
      exact h.admitted
    · obtain ⟨id, payload, ho, rfl⟩ := mem_sentToServer hd
      exact honest_of_not_control (hquiet _ ho)
  · exact h.asks ha

theorem ClientInv.behaves {K : Party} {c : P2PClient} (h : ClientInv K c) (env : P2PClient.Env)
    {e : P2PClient.Event} (hstart : ∀ cfg, e = .start cfg → cfg = K.cfg)
    (hgood : ∀ m len src, e = .packet m len src → ∀ id p, protoOf m len = some (id, p) →
      authAnswers.contains id = true → Granting (m.read 0 len)) :
    Behaves K (P2PClient.step env e c) := by
  cases e with
  | start cfg =>
    change Behaves K (((P2PClient.start env cfg c).getD c), [])
    cases hs : P2PClient.start env cfg c with
    | none => exact ⟨h, fun data hd => by cases hd⟩
    | some c' =>
      obtain ⟨hcfg, -, hauth, -⟩ := P2PClient.start_spec hs
      refine ⟨⟨hcfg.trans (hstart cfg rfl), ?_, ?_⟩, fun data hd => by cases hd⟩
      · rw [Option.getD_some, hauth]
        exact h.nonce
      · rw [Option.getD_some, hauth]
  | packet m len src => exact h.behaves_packet (hgood m len src rfl)
  | stop =>
    obtain ⟨hcfg, -, hauth, ho⟩ := P2PClient.stop_spec c
    refine ⟨⟨hcfg.trans h.cfg, ?_, ?_⟩, fun data hd => ?_⟩
    · change (P2PClient.stop c).1.auth.authNonce.length = 16
      rw [hauth]
      exact h.nonce
    · change (P2PClient.stop c).1.auth.authDenied = false
      rw [hauth]
      exact h.admitted
    · obtain ⟨id, payload, hmem, rfl⟩ := mem_sentToServer hd
      obtain ⟨dst, payload', heq⟩ := ho _ hmem
      rw [P2PClient.Out.proto.injEq] at heq
      rw [heq.2.1]
      intro id' p hread
      have hid := readDatagram_id hread
      subst hid
      exact ⟨fun hc => absurd hc (by decide), fun hc => absurd hc (by decide)⟩
  | worker | tick | connect | disconnect | send | juiceState | juiceCandidate | juiceGatheringDone | juiceRecv
  | orphan => exact h.asks ((P2PClient.step_made (by simp) (by simp)).asks rfl)

/-- With the current nonce a login fails only on its MAC. -/
theorem loginResult_current {env : Env} {p : Bytes} {s : NatServer}
    (hgate : (authGate env (uuidAt p 0) s).1 = 0) (hon : s.cfg.authEnabled = true)
    (hn : NonceCurrent env p s) :
    (loginResult env p s).1 = if Crypto.hmacSha256 s.cfg.authSecret
      (authMessage (uuidAt p 0) (window p 33 16)) = window p 49 32 then authOk else authBadMac := by
  obtain ⟨expire, hnonce, htime⟩ := hn
  split
  · rename_i hmac
    rw [LoginHistory.loginResult_granted hgate hon hnonce htime hmac]
  · rename_i hmac
    have hlate : ¬env.now > expire := by omega
    have h01 : ¬(0 : UInt8) = 1 := by decide
    have h02 : ¬(0 : UInt8) = 2 := by decide
    simp only [loginResult, hgate, h01, h02, if_false, verifyAuthLogin, authGate_cfg, hon,
      authGate_authNonces, hnonce, hlate, hmac, Bool.not_true, Bool.false_eq_true, ne_eq,
      not_true_eq_false, not_false_eq_true, if_true]

theorem quiet_granting {o : Out} {data : Bytes} {dst : Addr} (h : Quiet o) (ho : o = .send dst data) :
    Granting data := by
  obtain ⟨id, p, hread, hid⟩ := h dst data ho
  refine ⟨id, p, hread, ?_, ?_⟩
  · rintro rfl
    cases hid
  · rintro rfl
    cases hid

theorem challenge_granting {n : Bytes} (hn : n.length = 16) :
    Granting (datagram msgAuthChallengeRsp (challengeRsp 0 n)) := by
  have hlen : (challengeRsp 0 n).length = 19 := by
    simp [challengeRsp, hn]
  refine ⟨_, _, readDatagram_datagram _ (by omega), fun _ => ?_, fun hc => absurd hc (by decide)⟩
  unfold refuses
  rw [hlen]
  rfl

theorem login_granting : Granting (datagram msgAuthLoginRsp ([authOk] ++ be16 3600)) :=
  ⟨_, _, readDatagram_datagram _ (by decide), fun hc => absurd hc (by decide),
    fun _ => ⟨by decide, rfl⟩⟩

structure Inv (K : Party) (s : State) : Prop where
  client : ClientInv K s.client
  authOn : s.server.cfg.authEnabled = true
  authSecret : s.server.cfg.authSecret = K.cfg.secret
  requests : ∀ data ∈ s.toServer, Honest K data
  answers : ∀ data ∈ s.toClient, Granting data

theorem inv_init {K : Party} {s : State} (h : Initial K s) : Inv K s where
  client := by
    obtain ⟨callbacks, hc⟩ := h.client
    rw [hc]
    exact ⟨rfl, rfl, rfl⟩
  authOn := h.authOn
  authSecret := h.authSecret
  requests data hd := by
    rw [h.toServer] at hd
    cases hd
  answers data hd := by
    rw [h.toClient] at hd
    cases hd

theorem mem_sentToClient {K : Party} {outs : List Out} {data : Bytes} (h : data ∈ sentToClient K outs) :
    .send K.client data ∈ outs := by
  obtain ⟨o, ho, hd⟩ := List.mem_filterMap.mp h
  cases o with
  | writeFile => cases hd
  | send dst d =>
    dsimp only at hd
    split at hd
    · rename_i hdst
      cases hd
      exact hdst ▸ ho
    · cases hd

theorem Inv.act {K : Party} {s : State} (h : Inv K s) {f : Action}
    (hon : (f s.server).1.cfg.authEnabled = true)
    (hsecret : (f s.server).1.cfg.authSecret = K.cfg.secret)
    (hout : ∀ data, Out.send K.client data ∈ (f s.server).2 → Granting data) :
    Inv K (AuthDenial.act K s f) := by
  refine ⟨h.client, hon, hsecret, h.requests, fun data hd => ?_⟩
  rcases List.mem_append.mp hd with hd | hd
  · exact h.answers data hd
  · exact hout data (mem_sentToClient hd)

theorem Inv.client_step {K : Party} {s : State} (h : Inv K s) {env : P2PClient.Env}
    {e : P2PClient.Event} (hen : clientEnabled K s e) : Inv K (next K s (.client env e)) := by
  have hb : Behaves K (P2PClient.step env e s.client) := by
    refine h.client.behaves env ?_ ?_
    · rintro cfg rfl
      exact hen
    · rintro m len src rfl id p hp hid
      exact h.answers _ (hen.2 id p hp hid)
  refine ⟨hb.inv, h.authOn, h.authSecret, fun data hd => ?_, h.answers⟩
  rcases List.mem_append.mp hd with hd | hd
  · exact h.requests data hd
  · exact hb.sends data hd

theorem Inv.deliver {K : Party} {s : State} (h : Inv K s) {env : Env} {data : Bytes}
    (hen : enabled K s (.deliver env data)) (hok : Current s (.deliver env data)) :
    Inv K (next K s (.deliver env data)) := by
  obtain ⟨hmem, hnonce, hgate⟩ := hen
  have hhonest := h.requests data hmem
  have hset := (handlePacket_setup env data K.client s.server).1
  refine h.act (by rw [hset.cfg]; exact h.authOn) (by rw [hset.cfg]; exact h.authSecret) ?_
  intro data' ho
  cases handlePacket_answered _ ho with
  | quiet hq => exact quiet_granting hq rfl
  | challenge hread heq =>
    rw [((hhonest _ _ hread).2 rfl), hgate, if_pos rfl, Out.send.injEq] at heq
    rw [heq.2]
    exact challenge_granting hnonce
  | @login p hread hlen heq =>
    obtain ⟨n, hn, rfl⟩ := (hhonest _ _ hread).1 rfl
    obtain ⟨-, hu, hwin, hmac⟩ := loginPayload_fields K hn
    have hres := loginResult_current (s := s.server) (by rw [hu]; exact hgate) h.authOn (hok _ hread)
    rw [hu, hwin, hmac, h.authSecret, if_pos rfl] at hres
    rw [hres, Out.send.injEq] at heq
    rw [heq.2]
    exact login_granting

theorem Inv.other {K : Party} {s : State} (h : Inv K s) {env : Env} {data : Bytes} {src : Addr}
    (hen : src ≠ K.client) : Inv K (next K s (.other env data src)) := by
  have hset := (handlePacket_setup env data src s.server).1
  refine h.act (by rw [hset.cfg]; exact h.authOn) (by rw [hset.cfg]; exact h.authSecret) ?_
  intro data' ho
  cases handlePacket_answered _ ho with
  | quiet hq => exact quiet_granting hq rfl
  | challenge hread heq =>
    rw [Out.send.injEq] at heq
    exact absurd heq.1.symm hen
  | login hread hlen heq =>
    rw [Out.send.injEq] at heq
    exact absurd heq.1.symm hen

theorem inv_step {K : Party} {s : State} {e : Event} (h : Inv K s) (hen : enabled K s e)
    (hok : Current s e) : Inv K (next K s e) := by
  cases e with
  | client env e => exact h.client_step hen
  | deliver env data => exact h.deliver hen hok
  | other env data src => exact h.other hen
  | timer env proxyDue snapDue saved reloaded =>
    have hcfg : (timerPass env proxyDue snapDue saved reloaded s.server).1.cfg =
        reloaded.getD s.server.cfg :=
      congrArg Core.cfg (timerPass_spec env proxyDue snapDue saved reloaded s.server).1
    have hkept : (reloaded.getD s.server.cfg).authEnabled = true ∧
        (reloaded.getD s.server.cfg).authSecret = K.cfg.secret := by
      cases reloaded with
      | none => exact ⟨h.authOn, h.authSecret⟩
      | some cfg => exact hen cfg rfl
    refine h.act (by rw [hcfg]; exact hkept.1) (by rw [hcfg]; exact hkept.2) fun data ho => ?_
    exact quiet_granting (timerPass_quiet _ ho) rfl

/-- In every run in which the client's logins reach the server while their nonce is current: the
client is not denied, and a login with the current nonce is answered with a bad MAC only if its
MAC is wrong. -/
theorem never_denied {K : Party} {s : State} (h : Reach (system K) Current s) :
    s.client.auth.authDenied = false ∧
      ∀ env p, (authGate env (uuidAt p 0) s.server).1 = 0 → NonceCurrent env p s.server →
        ((loginResult env p s.server).1 = authBadMac ↔ Crypto.hmacSha256 K.cfg.secret
          (authMessage (uuidAt p 0) (window p 33 16)) ≠ window p 49 32) := by
  have hi : Inv K s := Reach.invariant (S := system K) (I := Inv K) (fun _ => inv_init)
    (fun _ _ hi hen hok => inv_step hi hen hok) h
  refine ⟨hi.client.admitted, fun env p hgate hn => ?_⟩
  rw [loginResult_current hgate hi.authOn hn, hi.authSecret]
  split
  · rename_i hmac
    exact ⟨fun hc => absurd hc (by decide), fun hc => absurd hmac hc⟩
  · rename_i hmac
    exact ⟨fun _ => hmac, fun _ => rfl⟩

open P2PClient (quietClient)
open Samples (uuidU secretK host)
open LoginHistory (nonceZero)

def partyU : Party where
  cfg := quietClient.cfg
  client := host
  server := ⟨0x0A000001, 9000⟩
  short := by decide
  text := by decide

def before : State := ⟨quietClient, { cfg := { enableAuth := true, authSecret := secretK } }, [], []⟩

def challenged : State :=
  [.client {} (.start quietClient.cfg), .client {} .worker,
    .deliver {} (datagram msgAuthChallengeReq (uuidField uuidU))].foldl (next partyU) before

def challengeMemory : Memory :=
  .ofBytes (datagram msgAuthChallengeRsp (challengeRsp 0 nonceZero)) fun _ => 0

def loggingIn : State :=
  next partyU challenged (.client {} (.packet challengeMemory 27 partyU.server))

def loginData : Bytes := datagram msgAuthLoginReq (loginPayload partyU nonceZero)

theorem challenged_reach : Reach (system partyU) Current challenged := by
  have h0 : (system partyU).init before := ⟨⟨{}, rfl⟩, by decide, rfl, rfl, rfl⟩
  have hstart : Reach (system partyU) Current before := .start h0
  have h1 := Reach.step (S := system partyU) (e := .client {} (.start quietClient.cfg)) hstart rfl trivial
  have hrun : (P2PClient.step {} (.start quietClient.cfg) quietClient).1.running = true := by
    decide +kernel
  have h2 := Reach.step (S := system partyU) (e := .client {} .worker) h1 hrun trivial
  refine Reach.step (S := system partyU)
    (e := .deliver {} (datagram msgAuthChallengeReq (uuidField uuidU))) h2
    ⟨by decide +kernel, by decide, by decide +kernel⟩ fun p hp => ?_
  exact absurd (readDatagram_id hp) (by decide)

theorem protoOf_challengeMemory :
    protoOf challengeMemory 27 = some (msgAuthChallengeRsp, challengeRsp 0 nonceZero) := by
  decide +kernel

theorem loggingIn_reach : Reach (system partyU) Current loggingIn := by
  have hmem : challengeMemory.read 0 27 ∈ challenged.toClient := by decide +kernel
  have hrun : challenged.client.running = true := by decide +kernel
  exact Reach.step (S := system partyU) (e := .client {} (.packet challengeMemory 27 partyU.server))
    challenged_reach ⟨hrun, fun _ _ _ _ => hmem⟩ trivial

theorem doAuthLogin_sends {c : P2PClient} (hcfg : c.cfg = partyU.cfg)
    (hsock : c.natSock = partyU.server) (hn : c.auth.authNonce = nonceZero) :
    .proto partyU.server msgAuthLoginReq (loginPayload partyU nonceZero) ∈ (P2PClient.doAuthLogin c).2 := by
  have hreq : P2PClient.authLoginReq c = loginPayload partyU nonceZero := by
    rw [P2PClient.authLoginReq, hcfg, hn]
    rfl
  have hlen := (loginPayload_fields partyU (n := nonceZero) rfl).1
  unfold P2PClient.doAuthLogin P2PClient.sendProtoNat P2PClient.sendProto
  rw [hreq, hsock, hlen, if_neg (by decide)]
  exact List.mem_singleton_self _

theorem loginData_sent : loginData ∈ loggingIn.toServer := by
  refine List.mem_append_right _ (List.mem_filterMap.mpr
    ⟨.proto partyU.server msgAuthLoginReq (loginPayload partyU nonceZero), ?_, rfl⟩)
  change _ ∈ (P2PClient.handlePacket {} challengeMemory 27 partyU.server challenged.client).2
  rcases P2PClient.handlePacket_cases {} challengeMemory 27 partyU.server challenged.client with
    ⟨p, hm, hp⟩ | ⟨p, hm, -⟩ | ⟨hno, -⟩
  · rw [protoOf_challengeMemory, Option.some.injEq, Prod.mk.injEq] at hm
    rw [hp, ← hm.2, P2PClient.onAuthChallengeRsp_granted {} (by decide)]
    exact doAuthLogin_sends (by decide +kernel) (by decide +kernel) rfl
  · rw [protoOf_challengeMemory, Option.some.injEq, Prod.mk.injEq] at hm
    exact absurd hm.1 (by decide)
  · exact absurd protoOf_challengeMemory (hno _).1

theorem readDatagram_loginData :
    readDatagram loginData = some (msgAuthLoginReq, loginPayload partyU nonceZero) :=
  readDatagram_datagram _ (by rw [(loginPayload_fields partyU (n := nonceZero) rfl).1]; decide)

theorem loggingIn_nonce : loggingIn.server.authNonces[uuidU]? = some (nonceZero, 30) := by
  decide +kernel

def loggedIn : State := next partyU loggingIn (.deliver {} loginData)

theorem never_denied_loggedIn :
    NonceCurrent {} (loginPayload partyU nonceZero) loggingIn.server ∧
      loggedIn.client.auth.authDenied = false := by
  obtain ⟨-, hu, hwin, -⟩ := loginPayload_fields partyU (n := nonceZero) rfl
  have hnow : NonceCurrent {} (loginPayload partyU nonceZero) loggingIn.server := by
    refine ⟨30, ?_, by decide⟩
    rw [hu, hwin]
    exact loggingIn_nonce
  have hreach : Reach (system partyU) Current loggedIn := by
    refine Reach.step (S := system partyU) (e := .deliver {} loginData) loggingIn_reach
      ⟨loginData_sent, by decide, by decide +kernel⟩ fun p hp => ?_
    rw [readDatagram_loginData, Option.some.injEq, Prod.mk.injEq] at hp
    rw [← hp.2]
    exact hnow
  exact ⟨hnow, (never_denied hreach).1⟩

/-- The login reaches the server when its nonce has expired. -/
def late : State := next partyU loggingIn (.deliver { now := 31 } loginData)

def badMacMemory : Memory := .ofBytes (datagram msgAuthLoginRsp ([authBadMac] ++ be16 3600)) fun _ => 0

theorem late_answer : badMacMemory.read 0 11 ∈ late.toClient := by
  obtain ⟨hlen, hu, -, -⟩ := loginPayload_fields partyU (n := nonceZero) rfl
  have hdata : badMacMemory.read 0 11 = datagram msgAuthLoginRsp ([authBadMac] ++ be16 3600) := by
    decide +kernel
  have hgate : authGate { now := 31 } uuidU loggingIn.server = (0, loggingIn.server) := by
    decide +kernel
  have hon : loggingIn.server.cfg.authEnabled = true := by decide +kernel
  have hres : (loginResult { now := 31 } (loginPayload partyU nonceZero) loggingIn.server).1 =
      authBadMac := by
    have hu' : uuidAt (loginPayload partyU nonceZero) 0 = uuidU := hu
    have hlate : (31 : ℤ) > 30 := by decide
    have h01 : ¬(0 : UInt8) = 1 := by decide
    have h02 : ¬(0 : UInt8) = 2 := by decide
    simp only [loginResult, hu', hgate, h01, h02, if_false, verifyAuthLogin, hon, loggingIn_nonce,
      hlate, Bool.not_true, Bool.false_eq_true, if_true]
  refine List.mem_append_right _ (List.mem_filterMap.mpr ⟨.send partyU.client _, ?_, if_pos rfl⟩)
  rw [Gates.handlePacket_login readDatagram_loginData, onAuthLoginReq, hlen, if_neg (by decide)]
  dsimp only
  rw [hres, hdata]
  exact List.mem_singleton_self _

/-- A login that was delayed for 31 seconds makes the client give up for good. -/
theorem delayed_denied : ¬∀ s, Reachable (system partyU) s → s.client.auth.authDenied = false := by
  intro h
  have hlogging : Reachable (system partyU) loggingIn := loggingIn_reach.mono fun _ _ _ => trivial
  have hlate : Reachable (system partyU) late :=
    Reach.step (S := system partyU) (e := .deliver { now := 31 } loginData) hlogging
      ⟨loginData_sent, by decide, by decide +kernel⟩ trivial
  have hrun : late.client.running = true := by decide +kernel
  have hdenied := h _ (Reach.step (S := system partyU)
    (e := .client {} (.packet badMacMemory 11 partyU.server)) hlate
    ⟨hrun, fun _ _ _ _ => late_answer⟩ trivial)
  revert hdenied
  decide +kernel

end P2PServer.AuthDenial
