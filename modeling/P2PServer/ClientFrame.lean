import P2PServer.ClientWrites

/-! What the steps of a client leave alone. A calm step keeps the configuration, the
authentication and the relay registration, and sends neither a message of the
authentication nor one that ends the registration. Only a few writes are not calm, and of
these a challenge is the only one outside the answers to the authentication. -/
namespace P2PServer.P2PClient
open ByteStrings ProtoDef Net Codec Crypto Effects Transitions

def controlMessages : List UInt8 := [msgAuthChallengeReq, msgAuthLoginReq, msgProxyUnregisterReq]

def Out.isControl : Out → Bool
  | .proto _ msgId _ => controlMessages.contains msgId
  | _ => false

/-- Every cached key is the one derived for its pair of uuids. -/
def KeysDerived (s : P2PClient) : Prop :=
  ∀ peer key, s.tunnel.tunnelKeys[peer]? = some key → key = pairKey s.cfg.secret s.cfg.uuid peer

/-- What every handler keeps: only `start` and `stop` do not. -/
structure MildStep (s s' : P2PClient) : Prop where
  cfg : s'.cfg = s.cfg
  callbacks : s'.callbacks = s.callbacks
  running : s'.running = s.running
  natSock : s'.natSock = s.natSock
  tunnelEnc : s'.tunnel.tunnelEnc = s.tunnel.tunnelEnc
  proxies : s.relay.proxies ≠ [] → s'.relay.proxies = s.relay.proxies
  keys : KeysDerived s → KeysDerived s'

structure CalmStep (s s' : P2PClient) : Prop extends MildStep s s' where
  auth : s'.auth = s.auth
  relayRegistered : s'.relay.relayRegistered = s.relay.relayRegistered

instance : Std.Refl MildStep := ⟨fun _ => ⟨rfl, rfl, rfl, rfl, rfl, fun _ => rfl, id⟩⟩

instance : IsTrans P2PClient MildStep where
  trans _ _ _ h g := ⟨g.cfg.trans h.cfg, g.callbacks.trans h.callbacks, g.running.trans h.running,
    g.natSock.trans h.natSock, g.tunnelEnc.trans h.tunnelEnc,
    fun hp => (g.proxies ((h.proxies hp).symm ▸ hp)).trans (h.proxies hp),
    fun hk => g.keys (h.keys hk)⟩

instance : Std.Refl CalmStep := ⟨fun s => ⟨Std.Refl.refl s, rfl, rfl⟩⟩

instance : IsTrans P2PClient CalmStep where
  trans _ _ _ h g := ⟨IsTrans.trans _ _ _ h.toMildStep g.toMildStep, g.auth.trans h.auth,
    g.relayRegistered.trans h.relayRegistered⟩

abbrev Calm (s : P2PClient) (r : P2PClient × List Out) : Prop :=
  Within CalmStep (fun o => o.isControl = false) s r

variable {s s' : P2PClient} {r r' : P2PClient × List Out} {k : Kind} {ks : List Kind} {o : Out}

theorem Out.Plain.isControl {uuid : Bytes} (h : o.Plain uuid) : o.isControl = false := by
  cases h with
  | request h =>
    have hnot : plainRequests.all (fun id => !controlMessages.contains id) = true := rfl
    simpa only [Out.isControl, Bool.not_eq_true'] using List.all_eq_true.mp hnot _ (List.contains_iff_mem.mp h)
  | registers | raw | juice | ready | error | erasedUse => rfl

/-- The kinds that are no matter of the authentication and the registration. -/
def Kind.calm : Kind → Bool
  | .asks | .login | .auth | .granted => false
  | _ => true

theorem Emits.isControl (h : Emits s k o) (hk : k.calm = true) : o.isControl = false := by
  cases h with
  | plain h => exact h.isControl
  | challenge | login => cases hk
  | message | description | connected | disconnected => rfl

theorem Write.mild (h : Write k s r) : MildStep s r.1 := by
  cases h with
  | derives peer =>
    refine ⟨rfl, rfl, rfl, rfl, rfl, fun _ => rfl, fun hk q key hq => ?_⟩
    rw [TreeMaps.insert_get] at hq
    split at hq
    · rename_i heq
      rw [heq]
      exact (Option.some.inj hq).symm
    · exact hk q key hq
  | adopts _ _ hnone => exact ⟨rfl, rfl, rfl, rfl, rfl, fun hp => absurd hnone hp, id⟩
  | _ => exact ⟨rfl, rfl, rfl, rfl, rfl, fun _ => rfl, id⟩

theorem Write.calm (h : Write k s r) (hk : k.calm = true) : Calm s r := by
  have hmild := h.mild
  refine ⟨?_, fun o ho => (h.emits o ho).isControl hk⟩
  cases h with
  | asks | logs | auths | grants => cases hk
  | _ => exact ⟨hmild, rfl, rfl⟩

theorem Made.mild (h : Made ks s r) : MildStep s r.1 :=
  (Composed.within (Q := fun _ => True) (fun _ _ ⟨_, _, hw⟩ => ⟨hw.mild, fun _ _ => trivial⟩) h).1

theorem Made.calm (h : Made ks s r) (hks : ks.all Kind.calm = true) : Calm s r :=
  Composed.within (fun _ _ ⟨k, hk, hw⟩ => hw.calm (List.all_eq_true.mp hks k hk)) h

/-- A step that at most asks for a challenge: then the request is in flight, else the
authentication is as before. -/
structure Asks (s : P2PClient) (r : P2PClient × List Out) : Prop where
  mild : MildStep s r.1
  control : ∀ o ∈ r.2, o.isControl = true → o = challengeOf s
  auth : r.1.auth = if challengeOf s ∈ r.2 then { s.auth with authInflight := true } else s.auth

theorem challengeOf_isControl (s : P2PClient) : (challengeOf s).isControl = true := rfl

theorem challengeOf_mild {s' : P2PClient} (h : MildStep s s') : challengeOf s' = challengeOf s := by
  unfold challengeOf
  rw [h.natSock, h.cfg]

theorem Calm.not_challenge {s' : P2PClient} {r : P2PClient × List Out} (h : Calm s r) :
    challengeOf s' ∉ r.2 := by
  intro hc
  have hq : (challengeOf s').isControl = false := h.2 _ hc
  rw [challengeOf_isControl] at hq
  cases hq

theorem Calm.asks {r : P2PClient × List Out} (h : Calm s r) : Asks s r where
  mild := h.1.toMildStep
  control o ho hc := by
    rw [h.2 o ho] at hc
    cases hc
  auth := by rw [if_neg h.not_challenge, h.1.auth]

theorem Asks.append (hr : Asks s r) (hr' : Asks r.1 r') : Asks s (r'.1, r.2 ++ r'.2) := by
  have hsame := challengeOf_mild hr.mild
  refine ⟨IsTrans.trans _ _ _ hr.mild hr'.mild, fun o ho hc => ?_, ?_⟩
  · rcases List.mem_append.mp ho with ho | ho
    · exact hr.control o ho hc
    · exact (hr'.control o ho hc).trans hsame
  · have hauth := hr'.auth
    rw [hsame, hr.auth] at hauth
    rw [hauth]
    by_cases hfirst : challengeOf s ∈ r.2
    · simp [hfirst]
    · simp [hfirst]

/-- The kinds that leave the authentication to its answers. -/
def Kind.asking : Kind → Bool
  | .login | .auth => false
  | _ => true

theorem Write.asking (h : Write k s r) (hk : k.asking = true) : Asks s r := by
  have hmild := h.mild
  cases hcalm : k.calm with
  | true => exact (h.calm hcalm).asks
  | false =>
    cases h with
    | asks => exact ⟨hmild, fun o ho _ => List.mem_singleton.mp ho, by simp⟩
    | grants => exact ⟨hmild, by simp, by simp⟩
    | logs | auths => cases hk
    | lifts _ _ hlift => cases hlift <;> cases hcalm
    | _ => cases hcalm

theorem Made.asks (h : Made ks s r) (hks : ks.all Kind.asking = true) : Asks s r := by
  induction h with
  | nothing => exact Calm.asks .nothing
  | part hw =>
    obtain ⟨k, hk, hw⟩ := hw
    exact hw.asking (List.all_eq_true.mp hks k hk)
  | andThen _ _ ih ih' => exact ih.append ih'

theorem asking_messageKinds {msgId : UInt8} (hc : msgId ≠ msgAuthChallengeRsp) (hl : msgId ≠ msgAuthLoginRsp) :
    (messageKinds msgId).all Kind.asking = true := by
  unfold messageKinds
  rw [if_neg hc, if_neg hl]
  split_ifs <;> rfl

/-- A datagram at most asks, unless it holds one of the two messages. -/
theorem handlePacket_cases (env : Env) (m : Memory) (len : ℕ) (src : Addr) (s : P2PClient) :
    (∃ p, protoOf m len = some (msgAuthChallengeRsp, p) ∧
      handlePacket env m len src s = onAuthChallengeRsp env p s) ∨
    (∃ p, protoOf m len = some (msgAuthLoginRsp, p) ∧
      handlePacket env m len src s = onAuthLoginRsp env p s) ∨
    ((∀ p, protoOf m len ≠ some (msgAuthChallengeRsp, p) ∧
      protoOf m len ≠ some (msgAuthLoginRsp, p)) ∧ Asks s (handlePacket env m len src s)) := by
  have hrecv := handlePacket_receives env m len src s
  generalize handlePacket env m len src s = r at hrecv ⊢
  cases hrecv with
  | @message msgId plen h =>
    by_cases hc : msgId = msgAuthChallengeRsp
    · subst hc
      exact .inl ⟨_, h, handleProto_challengeRsp ..⟩
    · by_cases hl : msgId = msgAuthLoginRsp
      · subst hl
        exact .inr (.inl ⟨_, h, handleProto_loginRsp ..⟩)
      · refine .inr (.inr ⟨fun p => ?_, (handleProto_made _ _ _).asks (asking_messageKinds hc hl)⟩)
        simp [h, hc, hl]
  | frame h hpeer => exact .inr (.inr ⟨by simp [h], (onDirectFrame_made m len hpeer).asks rfl⟩)
  | dropped h => exact .inr (.inr ⟨by simp [h], Calm.asks .nothing⟩)

/-- An answer to a challenge that does not lead to a login. -/
def refuses (p : Bytes) : Bool := p.length < 19 || byteAt p 0 != 0

def refusedAuth (now : UInt64) (p : Bytes) (a : AuthState) : AuthState :=
  let a := { a with authInflight := false }
  if 19 ≤ p.length ∧ (byteAt p 0 = 1 ∨ byteAt p 0 = 2) then denyAuth now a else retryAuth now a

theorem onAuthChallengeRsp_refused (env : Env) {p : Bytes} (h : refuses p = true) :
    Calm { s with auth := refusedAuth env.now p s.auth } (onAuthChallengeRsp env p s) := by
  unfold refuses at h
  unfold onAuthChallengeRsp refusedAuth
  by_cases hl : p.length < 19
  · have hn : ¬(19 ≤ p.length ∧ (byteAt p 0 = 1 ∨ byteAt p 0 = 2)) := by omega
    rw [if_pos hl, if_neg hn]
    exact .nothing
  · have h0 : byteAt p 0 ≠ 0 := by simpa [hl] using h
    have hl' : 19 ≤ p.length := by omega
    simp only [hl, if_false, h0, ne_eq, not_false_eq_true, if_true, hl', true_and]
    by_cases h1 : byteAt p 0 = 1
    · simp only [h1, if_true, true_or]
      exact (onError_made _).calm rfl
    · by_cases h2 : byteAt p 0 = 2
      · simp only [h2, if_true, or_true]
        exact (onError_made _).calm rfl
      · simp only [h1, h2, if_false, or_self]
        exact .nothing

theorem onAuthChallengeRsp_granted (env : Env) {p : Bytes} (h : refuses p = false) (s : P2PClient) :
    onAuthChallengeRsp env p s =
      doAuthLogin { s with auth := { s.auth with authNonce := window p 1 16 } } := by
  simp only [refuses, Bool.or_eq_false_iff, decide_eq_false_iff_not, bne_eq_false_iff_eq] at h
  simp [onAuthChallengeRsp, h]

theorem doAuthLogin_outs (s : P2PClient) :
    (doAuthLogin s).1 = s ∧ ∀ o ∈ (doAuthLogin s).2, o = loginOf s := by
  unfold doAuthLogin sendProtoNat sendProto
  split
  · exact ⟨rfl, by simp [skip]⟩
  · refine ⟨rfl, fun o ho => ?_⟩
    simpa [emit, loginOf] using ho

def loggedAuth (now : UInt64) (p : Bytes) (a : AuthState) : AuthState :=
  let a := { a with authInflight := false }
  if p.length < 1 then a
  else if byteAt p 0 = authOk then { a with authed := true, authBackoff := {}, heartbeatEnc := true }
  else if byteAt p 0 ≠ authBadNonce then denyAuth now a
  else retryAuth now a

theorem onAuthLoginRsp_spec (env : Env) (p : Bytes) (s : P2PClient) :
    MildStep s (onAuthLoginRsp env p s).1 ∧
      (onAuthLoginRsp env p s).1.auth = loggedAuth env.now p s.auth ∧
      (onAuthLoginRsp env p s).1.relay.relayRegistered = s.relay.relayRegistered ∧
      ∀ o ∈ (onAuthLoginRsp env p s).2, o.isControl = false := by
  have key : ∀ {s' : P2PClient} {r : P2PClient × List Out}, Calm s' r → MildStep s s' →
      s'.auth = loggedAuth env.now p s.auth →
      s'.relay.relayRegistered = s.relay.relayRegistered →
      MildStep s r.1 ∧ r.1.auth = loggedAuth env.now p s.auth ∧
        r.1.relay.relayRegistered = s.relay.relayRegistered ∧ ∀ o ∈ r.2, o.isControl = false :=
    fun hc hm ha hr => ⟨IsTrans.trans _ _ _ hm hc.1.toMildStep, hc.1.auth.trans ha,
      hc.1.relayRegistered.trans hr, hc.2⟩
  unfold onAuthLoginRsp
  dsimp only
  split
  · rename_i h1
    exact ⟨⟨rfl, rfl, rfl, rfl, rfl, fun _ => rfl, id⟩, by simp [loggedAuth, h1], rfl, by simp⟩
  · rename_i h1
    split
    · rename_i h2
      exact key (resendConnects_made.calm rfl) ⟨rfl, rfl, rfl, rfl, rfl, fun _ => rfl, id⟩
        (by simp [loggedAuth, h1, h2]) rfl
    · rename_i h2
      exact key ((onError_made _).calm rfl) ⟨rfl, rfl, rfl, rfl, rfl, fun _ => rfl, id⟩
        (by simp [loggedAuth, h1, h2]) rfl

theorem step_mild (env : Env) (e : Event) :
    (∃ cfg, e = .start cfg) ∨ e = .stop ∨ MildStep s (step env e s).1 := by
  by_cases hstart : ∃ cfg, e = .start cfg
  · exact .inl hstart
  · by_cases hstop : e = .stop
    · exact .inr (.inl hstop)
    · exact .inr (.inr (step_made (fun cfg h => hstart ⟨cfg, h⟩) hstop).mild)

theorem keysDerived_step (env : Env) (e : Event) (h : KeysDerived s) :
    KeysDerived (step env e s).1 := by
  rcases step_mild (s := s) env e with ⟨cfg, rfl⟩ | rfl | hm
  · change KeysDerived ((start env cfg s).getD s)
    cases hs : start env cfg s with
    | none => exact h
    | some s' =>
      intro peer key hq
      simp [(start_spec hs).2.1] at hq
  · obtain ⟨hcfg, htun, -, -⟩ := stop_spec s
    intro peer key hq
    change (stop s).1.tunnel.tunnelKeys[peer]? = some key at hq
    change key = pairKey (stop s).1.cfg.secret (stop s).1.cfg.uuid peer
    rw [htun] at hq
    rw [hcfg]
    exact h peer key hq
  · exact hm.keys h

theorem keysDerived_reachable (h : Reachable client s) : KeysDerived s := by
  refine h.invariant (I := KeysDerived) (fun s h0 => ?_) fun s e hs _ _ =>
    keysDerived_step e.1 e.2 hs
  obtain ⟨cfg, callbacks, rfl⟩ := h0
  intro peer key hq
  simp at hq

/-- A running client encrypts exactly when it has a secret. -/
def Guarded (s : P2PClient) : Prop :=
  s.running = true → s.tunnel.tunnelEnc = !s.cfg.secret.isEmpty

theorem guarded_step (env : Env) (e : Event) (h : Guarded s) : Guarded (step env e s).1 := by
  rcases step_mild (s := s) env e with ⟨cfg, rfl⟩ | rfl | hm
  · change Guarded ((start env cfg s).getD s)
    cases hs : start env cfg s with
    | none => exact h
    | some s' => exact fun _ => (start_spec hs).2.2.2
  · intro hrun
    change (stop s).1.running = true at hrun
    rw [stop_running] at hrun
    cases hrun
  · unfold Guarded
    rw [hm.running, hm.tunnelEnc, hm.cfg]
    exact h

theorem guarded_reachable (h : Reachable client s) : Guarded s := by
  refine h.invariant (I := Guarded) (fun s h0 => ?_) fun s e hs _ _ => guarded_step e.1 e.2 hs
  obtain ⟨cfg, callbacks, rfl⟩ := h0
  intro hrun
  cases hrun

end P2PServer.P2PClient
