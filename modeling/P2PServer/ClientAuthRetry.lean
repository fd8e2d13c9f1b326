import P2PServer.ClientFrame

/-! Whether the client's authentication can get stuck. The flag `auth_inflight_` is
cleared by answers only and never by time, so a lost datagram leaves no way to retry. -/
namespace P2PServer.P2PClient
open ByteStrings ProtoDef Net Codec Effects Transitions

/-- From some time on every tick sends a challenge request. -/
def Retries (s : P2PClient) : Prop :=
  ∃ T : UInt64, ∀ env now, T ≤ now → challengeOf s ∈ (tick env now s).2

/-- An answer to a login, a refused challenge, or a new start. -/
def settles (env : Env) (e : Event) (s : P2PClient) : Bool :=
  match e with
  | .start cfg => (start env cfg s).isSome
  | .packet m len _ =>
    match protoOf m len with
    | some (msgId, p) => msgId = msgAuthLoginRsp || (msgId = msgAuthChallengeRsp && refuses p)
    | none => false
  | _ => false

/-- Whether the last challenge sent in a run from `s` is unanswered at its end; `b` says
so of the start. -/
def unanswered : P2PClient → Bool → List (Env × Event) → Bool
  | _, b, [] => b
  | s, b, e :: es =>
    let r := step e.1 e.2 s
    unanswered r.1 (if challengeOf s ∈ r.2 then true else if settles e.1 e.2 s then false else b) es

variable {s : P2PClient}

theorem tick_challenge_iff (env : Env) (now : UInt64) :
    challengeOf s ∈ (tick env now s).2 ↔
      s.auth.authed = false ∧ s.cfg.secret ≠ [] ∧ s.auth.authInflight = false ∧
        s.auth.authDenied = false ∧ s.auth.nextAuthTry ≤ now := by
  have hh : Calm s (tickHeartbeat env now s) := (tickHeartbeat_made now).calm rfl
  have hrest : Calm (tickAuth now (tickHeartbeat env now s).1).1
      (andThen (tickNatDetect now) (andThen (tickRelay now)
        (andThen (tickConnections env now) (tickSessions env now)))
          (tickAuth now (tickHeartbeat env now s).1).1) :=
    .andThen ((tickNatDetect_made now).calm rfl) (.andThen ((tickRelay_made now).calm rfl)
      (.andThen ((tickConnections_made now).calm rfl) ((tickSessions_made now).calm rfl)))
  have hmem : challengeOf s ∈ (tick env now s).2 ↔
      challengeOf s ∈ (tickAuth now (tickHeartbeat env now s).1).2 := by
    unfold tick
    rw [mem_andThen, mem_andThen, or_iff_right hh.not_challenge, or_iff_left hrest.not_challenge]
  rw [hmem, tickAuth, hh.1.auth, hh.1.cfg]
  by_cases hc : (!s.auth.authed && !s.cfg.secret.isEmpty && !s.auth.authInflight &&
      !s.auth.authDenied && decide (now ≥ s.auth.nextAuthTry)) = true
  · rw [if_pos hc, doAuthChallenge_eq, challengeOf_mild hh.1.toMildStep]
    simp only [List.mem_singleton, true_iff]
    simpa [and_assoc] using hc
  · rw [if_neg hc]
    simp only [List.not_mem_nil, false_iff]
    simpa [and_assoc] using hc

/-- Without a further datagram a client that is neither authenticated nor denied tries
again exactly when no challenge is marked as in flight. -/
theorem retries_iff_inflight (hsecret : s.cfg.secret ≠ []) (hauthed : s.auth.authed = false)
    (hdenied : s.auth.authDenied = false) : Retries s ↔ s.auth.authInflight = false := by
  constructor
  · rintro ⟨T, hT⟩
    exact ((tick_challenge_iff {} T).mp (hT {} T (UInt64.le_refl T))).2.2.1
  · intro h
    exact ⟨s.auth.nextAuthTry, fun env now hn =>
      (tick_challenge_iff env now).mpr ⟨hauthed, hsecret, h, hdenied, hn⟩⟩

theorem Asks.inflight {env : Env} {e : Event} {r : P2PClient × List Out} (h : Asks s r)
    (he : settles env e s = false) :
    r.1.auth.authInflight = if challengeOf s ∈ r.2 then true
      else if settles env e s then false else s.auth.authInflight := by
  rw [h.auth, he]
  split <;> rfl

/-- What a step does to the flag: a challenge sets it, an answer clears it, and nothing
else changes it. -/
theorem step_inflight (env : Env) (e : Event) :
    (step env e s).1.auth.authInflight = if challengeOf s ∈ (step env e s).2 then true
      else if settles env e s then false else s.auth.authInflight := by
  cases e with
  | start cfg =>
    change ((start env cfg s).getD s).auth.authInflight = if challengeOf s ∈ [] then true
      else if (start env cfg s).isSome then false else s.auth.authInflight
    cases hs : start env cfg s with
    | none => simp
    | some s' => simp [(start_spec hs).2.2.1]
  | packet m len src =>
    change (handlePacket env m len src s).1.auth.authInflight =
      if challengeOf s ∈ (handlePacket env m len src s).2 then true
      else if settles env (.packet m len src) s then false else s.auth.authInflight
    rcases handlePacket_cases env m len src s with ⟨p, hm, hp⟩ | ⟨p, hm, hp⟩ | ⟨hno, ha⟩
    · rw [hp]
      cases hr : refuses p with
      | true =>
        have hc := onAuthChallengeRsp_refused (s := s) env hr
        have hst : settles env (.packet m len src) s = true := by simp [settles, hm, hr]
        rw [if_neg hc.not_challenge, hst, hc.1.auth]
        simp only [refusedAuth]
        split <;> rfl
      | false =>
        obtain ⟨hs, ho⟩ :=
          doAuthLogin_outs { s with auth := { s.auth with authNonce := window p 1 16 } }
        have hst : settles env (.packet m len src) s = false := by
          have hne : ¬msgAuthChallengeRsp = msgAuthLoginRsp := by decide
          simp [settles, hm, hr, hne]
        rw [onAuthChallengeRsp_granted env hr, hst, if_neg, hs]
        · rfl
        · intro hc
          have heq := ho _ hc
          simp only [challengeOf, loginOf, Out.proto.injEq] at heq
          exact absurd heq.2.1 (by decide)
    · rw [hp]
      obtain ⟨-, hauth, -, hquiet⟩ := onAuthLoginRsp_spec env p s
      have hst : settles env (.packet m len src) s = true := by simp [settles, hm]
      rw [if_neg, hst, hauth]
      · simp only [loggedAuth]
        split
        · rfl
        · split
          · rfl
          · split <;> rfl
      · intro hc
        have hq := hquiet _ hc
        rw [challengeOf_isControl] at hq
        cases hq
    · refine ha.inflight ?_
      unfold settles
      dsimp only
      split
      · rename_i msgId p hm
        have hne := hno p
        simp only [hm, ne_eq, Option.some.injEq, Prod.mk.injEq, and_true] at hne
        simp [hne.1, hne.2]
      · rfl
  | stop =>
    change (stop s).1.auth.authInflight = if challengeOf s ∈ (stop s).2 then true
      else s.auth.authInflight
    obtain ⟨-, -, hauth, ho⟩ := stop_spec s
    rw [if_neg, hauth]
    intro hc
    obtain ⟨dst, payload, heq⟩ := ho _ hc
    simp only [challengeOf, Out.proto.injEq] at heq
    exact absurd heq.2.1 (by decide)
  | worker | tick | connect | disconnect | send | juiceState | juiceCandidate | juiceGatheringDone | juiceRecv
  | orphan => exact ((step_made (by simp) (by simp)).asks rfl).inflight rfl

theorem inflight_eq_unanswered (es : List (Env × Event)) (s : P2PClient) :
    (es.foldl client.next s).auth.authInflight = unanswered s s.auth.authInflight es := by
  induction es generalizing s with
  | nil => rfl
  | cons e es ih =>
    change _ = unanswered (step e.1 e.2 s).1 (if challengeOf s ∈ (step e.1 e.2 s).2 then true
      else if settles e.1 e.2 s then false else s.auth.authInflight) es
    rw [← step_inflight]
    exact ih _

/-- At the end of every run, a client that is neither authenticated nor denied tries
again if and only if the last challenge it sent has been answered. -/
theorem retries_iff_answered {s₀ : P2PClient} (h0 : client.init s₀) {es : List (Env × Event)}
    (hsecret : (es.foldl client.next s₀).cfg.secret ≠ [])
    (hauthed : (es.foldl client.next s₀).auth.authed = false)
    (hdenied : (es.foldl client.next s₀).auth.authDenied = false) :
    Retries (es.foldl client.next s₀) ↔ unanswered s₀ false es = false := by
  have hi : s₀.auth.authInflight = false := by
    obtain ⟨cfg, callbacks, rfl⟩ := h0
    rfl
  rw [retries_iff_inflight hsecret hauthed hdenied, inflight_eq_unanswered, hi]

def quietClient : P2PClient :=
  { cfg := { uuid := [0x75], secret := [0x6b], natServers := [⟨inetNtop 0x0A000001, 9000⟩] } }

theorem quietClient_init : client.init quietClient := ⟨quietClient.cfg, {}, rfl⟩

def startEvents : List (Env × Event) := [({}, .start quietClient.cfg), ({}, .worker)]

def emptyMessage (msgId : UInt8) : Event :=
  .packet (.ofBytes (codecWriteHead msgId 0) fun _ => 0) 8 ⟨0x0A000001, 9000⟩

instance (s : P2PClient) : (e : Env × Event) → Decidable (client.enabled s e)
  | (_, .worker) | (_, .tick _) | (_, .packet _ _ _) => inferInstanceAs (Decidable (s.running = true))
  | (_, .start _) | (_, .connect _) | (_, .disconnect _) | (_, .send _ _ _ _) | (_, .stop)
  | (_, .juiceState _) | (_, .juiceCandidate _ _) | (_, .juiceGatheringDone _)
  | (_, .juiceRecv _ _ _) => .isTrue trivial
  | (_, .orphan peer) => inferInstanceAs (Decidable (peer ∈ s.orphans))

def refusedEvents : List (Env × Event) :=
  [({}, .start quietClient.cfg), ({}, .worker), ({}, emptyMessage msgAuthChallengeRsp)]

theorem retries_iff_answered_refused : Retries (refusedEvents.foldl client.next quietClient) := by
  have hsecret : (refusedEvents.foldl client.next quietClient).cfg.secret ≠ [] := by decide +kernel
  have hauthed : (refusedEvents.foldl client.next quietClient).auth.authed = false := by
    decide +kernel
  have hdenied : (refusedEvents.foldl client.next quietClient).auth.authDenied = false := by
    decide +kernel
  have hans : unanswered quietClient false refusedEvents = false := by decide +kernel
  exact (retries_iff_answered quietClient_init hsecret hauthed hdenied).mpr hans

/-- When the first challenge or its answer is lost, the client never tries again. -/
theorem not_retries_lost : ¬∀ s, Reachable client s → s.cfg.secret ≠ [] →
    s.auth.authed = false → s.auth.authDenied = false → Retries s := by
  intro h
  have hrun : Run client (fun _ _ => True) quietClient startEvents := by decide +kernel
  have hr := h _ (Reach.run (.start quietClient_init) hrun) (by decide +kernel)
    (by decide +kernel) (by decide +kernel)
  rw [retries_iff_inflight (by decide +kernel) (by decide +kernel) (by decide +kernel)] at hr
  revert hr
  decide +kernel

end P2PServer.P2PClient
