import P2PServer.ClientAuthRetry
import P2PServer.ClientSessions

/-! The gaps between the heartbeats of a client. `tick_heartbeat` backs off while `heartbeat_fail_`
is positive, but nothing ever counts a failure. -/
namespace P2PServer.P2PClient
open ByteStrings ProtoDef Net Codec Crypto Effects Transitions

variable {s : P2PClient} {r : P2PClient × List Out} {k : Kind} {ks : List Kind}

theorem Write.hb (h : Write k s r) (hk : k ≠ .beat) : r.1.hb = s.hb := by
  cases h with
  | beats => exact absurd rfl hk
  | _ => rfl

theorem Made.hb (h : Made ks s r) (hks : ks.contains .beat = false) : r.1.hb = s.hb := by
  refine Composed.preserves (I := fun t : P2PClient => t.hb = s.hb) (fun t r ⟨k, hk, hw⟩ ht => ?_) h rfl
  refine Eq.trans (hw.hb fun heq => ?_) ht
  subst heq
  cases hks.symm.trans (List.contains_iff_mem.mpr hk)

def accepts (p : Bytes) : Bool := 39 ≤ p.length && byteAt p 0 != 1 && byteAt p 0 != 2

def acceptsEnc (secret p : Bytes) : Bool :=
  43 ≤ p.length && p.length - 41 ≤ 39 &&
    accepts (p2pStreamXor secret (p.take 33) (window p 33 8) (p.drop 41))

/-- The datagram is a successful heartbeat response. -/
def heartbeatAnswered (s : P2PClient) : Event → Bool
  | .packet m len _ =>
    match protoOf m len with
    | some (msgId, p) =>
      (msgId = msgHeartbeatRsp && accepts p) ||
        (msgId = msgHeartbeatRspEnc && acceptsEnc s.cfg.secret p)
    | none => false
  | _ => false

/-- No failure has been counted. -/
def Uncounted (s : P2PClient) : Prop := s.hb.heartbeatFail = 0

theorem Write.uncounted (h : Write k s r) (hs : Uncounted s) : Uncounted r.1 := by
  cases h with
  | beats hfail => exact hfail.elim (fun hsame => hsame.trans hs) id
  | _ => exact hs

theorem Made.uncounted (h : Made ks s r) (hs : Uncounted s) : Uncounted r.1 :=
  Composed.preserves (fun _ _ ⟨_, _, hw⟩ => hw.uncounted) h hs

theorem start_uncounted {env : Env} {cfg : Config} (h : Uncounted s) :
    Uncounted ((start env cfg s).getD s) := by
  unfold start
  split
  · exact h
  · split
    · exact h
    · split
      · exact h
      · split
        · exact h
        · rfl

theorem stop_uncounted (h : Uncounted s) : Uncounted (stop s).1 := by
  cases hrun : s.running with
  | true =>
    rw [stop_state hrun]
    exact h
  | false =>
    rw [stop, hrun]
    exact h

/-- The rest of a tick leaves the schedule as `tick_heartbeat` made it. -/
theorem tick_hb (env : Env) (now : UInt64) (s : P2PClient) :
    (tick env now s).1.hb = (tickHeartbeat env now s).1.hb := by
  unfold tick
  generalize tickHeartbeat env now = beat
  have hrest : Made [.minor, .asks, .opens, .plays, .conn, .rises, .closes] (beat s).1
      (andThen (tickAuth now) (andThen (tickNatDetect now)
        (andThen (tickRelay now) (andThen (tickConnections env now) (tickSessions env now)))) (beat s).1) := by
    refine .andThen ((tickAuth_made now).mono rfl) (.andThen ((tickNatDetect_made now).mono rfl) ?_)
    refine .andThen ((tickRelay_made now).mono rfl) (.andThen ((tickConnections_made now).mono rfl) ?_)
    exact (tickSessions_made now).mono rfl
  exact hrest.hb rfl

/-- Without a counted failure the gap is `heartbeat_ms`. -/
theorem tick_gap (env : Env) {now : UInt64} {s : P2PClient} (hdue : s.hb.nextHeartbeatMs ≤ now)
    (h : Uncounted s) : (tick env now s).1.hb.nextHeartbeatMs = now + s.cfg.heartbeatMs.toUInt64 := by
  have hnone : ¬s.hb.heartbeatFail > 0 := by
    rw [h]
    decide
  rw [tick_hb, tickHeartbeat, if_pos hdue]
  simp only [andThen, Effects.modify, doHeartbeat_state]
  rw [if_neg hnone]

theorem step_uncounted (env : Env) (e : Event) : Preserves Uncounted (step env e) := by
  intro s h
  cases e with
  | start cfg => exact start_uncounted h
  | stop => exact stop_uncounted h
  | worker | tick | packet | connect | disconnect | send | juiceState | juiceCandidate | juiceGatheringDone | juiceRecv
  | orphan => exact (step_made (by simp) (by simp)).uncounted h

/-- The delay of a retry after `k` others: 1000, 1000, 2000, 4000 and so on up to 30000. -/
def retryDelay (k : ℕ) : ℕ := min (1000 * 2 ^ (k - 1)) 30000

theorem retryDelay_mono : Monotone retryDelay := by
  intro k l h
  have hpow : 2 ^ (k - 1) ≤ 2 ^ (l - 1) := Nat.pow_le_pow_right (by decide) (Nat.sub_le_sub_right h 1)
  exact min_le_min_right _ (Nat.mul_le_mul_left 1000 hpow)

theorem retryDelay_le (k : ℕ) : retryDelay k ≤ 30000 := min_le_right _ _

theorem doubled_toNat (n : ℕ) {d : UInt32} (hd : d.toNat < 60000) :
    min (doubled 30000 n d).toNat 30000 = min (d.toNat * 2 ^ n) 30000 := by
  induction n generalizing d with
  | zero => simp [doubled]
  | succ n ih =>
    unfold doubled
    split
    · rename_i hlt
      have hlt' : d.toNat < 30000 := UInt32.lt_iff_toNat_lt.mp hlt
      have hmul : (d * 2).toNat = d.toNat * 2 := by
        have h2 : (2 : UInt32).toNat = 2 := rfl
        rw [UInt32.toNat_mul, h2]
        omega
      rw [ih (by omega), hmul, pow_succ', mul_assoc]
    · rename_i hge
      have hge' : 30000 ≤ d.toNat := not_lt.mp fun hc => hge (UInt32.lt_iff_toNat_lt.mpr hc)
      have hpow : 1 ≤ 2 ^ (n + 1) := Nat.one_le_two_pow
      rw [min_eq_right hge', min_eq_right (hge'.trans (Nat.le_mul_of_pos_right _ hpow))]

theorem nextDelay_toNat (b : BackOff) : b.nextDelay.1.toNat = retryDelay b.attempt.toNat := by
  have hd := doubled_toNat (b.attempt.toNat - 1) (d := 1000) (by decide)
  have hmin (x : UInt32) : (min x 30000).toNat = min x.toNat 30000 := by
    change (if x ≤ 30000 then x else 30000).toNat = min x.toNat 30000
    have hle : x ≤ 30000 ↔ x.toNat ≤ 30000 := UInt32.le_iff_toNat_le
    split
    · rename_i h
      rw [min_eq_left (hle.mp h)]
    · rename_i h
      rw [min_eq_right (le_of_not_ge fun hc => h (hle.mpr hc))]
      rfl
  exact (hmin _).trans hd

/-- The last heartbeat is unanswered, and so were the ones before it when the last `failures`
heartbeats fell due. -/
structure Retry where
  waiting : Bool := false
  failures : ℕ := 0

/-- The time of a step in which a heartbeat falls due. -/
def dueAt (s : P2PClient) : Event → Option UInt64
  | .tick now => if s.hb.nextHeartbeatMs ≤ now then some now else none
  | _ => none

def restarts (env : Env) (e : Event) (s : P2PClient) : Bool :=
  match e with
  | .start cfg => (start env cfg s).isSome
  | _ => false

def Retry.next (r : Retry) (s : P2PClient) (e : Env × Event) : Retry :=
  if (dueAt s e.2).isSome then ⟨true, if r.waiting then r.failures + 1 else 0⟩
  else if heartbeatAnswered s e.2 || restarts e.1 e.2 s then {}
  else r

def Retry.gap (r : Retry) (cfg : Config) : ℕ :=
  if r.waiting then retryDelay r.failures else cfg.heartbeatMs.toNat

/-- Every heartbeat in the run is followed by the gap of the policy. -/
def BacksOff : P2PClient → Retry → List (Env × Event) → Prop
  | _, _, [] => True
  | s, r, e :: es =>
    (∀ now ∈ dueAt s e.2,
      (step e.1 e.2 s).1.hb.nextHeartbeatMs = now + UInt64.ofNat (r.gap s.cfg)) ∧
      BacksOff (step e.1 e.2 s).1 (r.next s e) es

/-- Every heartbeat in the run finds the one before it answered, unless `heartbeat_ms` is the
delay that is due. -/
def Answered : P2PClient → Retry → List (Env × Event) → Prop
  | _, _, [] => True
  | s, r, e :: es =>
    (∀ now ∈ dueAt s e.2, r.waiting = true → s.cfg.heartbeatMs.toNat = retryDelay r.failures) ∧
      Answered (step e.1 e.2 s).1 (r.next s e) es

theorem ofNat_gap_iff (r : Retry) (cfg : Config) (now : UInt64) :
    now + cfg.heartbeatMs.toUInt64 = now + UInt64.ofNat (r.gap cfg) ↔
      (r.waiting = true → cfg.heartbeatMs.toNat = retryDelay r.failures) := by
  have hms : cfg.heartbeatMs.toNat < 2 ^ 32 := cfg.heartbeatMs.toNat_lt
  have hdelay := retryDelay_le r.failures
  have hgap : r.gap cfg < 2 ^ 64 := by
    unfold Retry.gap
    split
    · omega
    · omega
  rw [UInt64.add_right_inj, ← UInt64.toNat_inj, UInt32.toNat_toUInt64, UInt64.toNat_ofNat',
    Nat.mod_eq_of_lt hgap, Retry.gap]
  cases r.waiting
  · simp
  · simp

theorem step_backsOff (r : Retry) (e : Env × Event) {s : P2PClient} (h : Uncounted s) :
    (∀ now ∈ dueAt s e.2,
      (step e.1 e.2 s).1.hb.nextHeartbeatMs = now + UInt64.ofNat (r.gap s.cfg)) ↔
    (∀ now ∈ dueAt s e.2, r.waiting = true → s.cfg.heartbeatMs.toNat = retryDelay r.failures) := by
  refine forall₂_congr fun now hnow => ?_
  obtain ⟨env, e⟩ := e
  cases e with
  | tick t =>
    dsimp only [dueAt] at hnow
    split at hnow
    · rename_i hdue
      obtain rfl := Option.mem_some_iff.mp hnow
      dsimp only [step]
      rw [tick_gap env hdue h]
      exact ofNat_gap_iff r s.cfg t
    · cases hnow
  | _ => cases hnow

theorem run_backsOff (r : Retry) (es : List (Env × Event)) {s : P2PClient} (h : Uncounted s) :
    BacksOff s r es ↔ Answered s r es := by
  induction es generalizing s r with
  | nil => exact Iff.rfl
  | cons e es ih =>
    exact and_congr (step_backsOff r e h) (ih _ (step_uncounted e.1 e.2 s h))

/-- The delays of `heartbeat_backoff_` grow from 1000 to at most 30000. In every run of a client the
gaps follow them after unanswered heartbeats if and only if there is never such a heartbeat, or
`heartbeat_ms` is the same. -/
theorem gaps_iff_answered {s₀ : P2PClient} (h0 : client.init s₀) (es : List (Env × Event)) :
    (∀ b : BackOff, b.nextDelay.1.toNat = retryDelay b.attempt.toNat) ∧ Monotone retryDelay ∧
      (∀ k, retryDelay k ≤ 30000) ∧ (BacksOff s₀ {} es ↔ Answered s₀ {} es) := by
  have hnone : Uncounted s₀ := by
    obtain ⟨cfg, callbacks, rfl⟩ := h0
    rfl
  exact ⟨nextDelay_toNat, retryDelay_mono, retryDelay_le, run_backsOff {} es hnone⟩

/-- The first heartbeat is answered, and the second falls due 20 seconds after it. -/
def answeredEvents : List (Env × Event) :=
  let rsp := NatServer.datagram msgHeartbeatRsp (List.replicate 39 0)
  [({}, .start quietClient.cfg), ({}, .worker), ({}, .tick 500),
    ({}, .packet (.ofBytes rsp fun _ => 0) 47 ⟨0x0A000001, 9000⟩), ({}, .tick 20500)]

theorem gaps_iff_answered_second : BacksOff quietClient {} answeredEvents := by
  refine (gaps_iff_answered quietClient_init _).2.2.2.mpr ?_
  refine ⟨fun _ h => absurd h (by simp [dueAt]), fun _ h => absurd h (by simp [dueAt]), ?_,
    fun _ h => absurd h (by simp [dueAt]), ?_, trivial⟩
  · exact fun _ _ hw => absurd hw (by decide +kernel)
  · exact fun _ _ hw => absurd hw (by decide +kernel)

/-- A heartbeat is lost. The gap stays at 20 seconds. -/
def lostEvents : List (Env × Event) :=
  [({}, .start quietClient.cfg), ({}, .worker), ({}, .tick 500), ({}, .tick 20500)]

theorem not_backsOff : ¬∀ s₀, client.init s₀ → ∀ es, Run client (fun _ _ => True) s₀ es →
    BacksOff s₀ {} es := by
  intro h
  have hrun : Run client (fun _ _ => True) quietClient lostEvents := by decide +kernel
  have hgap := (h quietClient quietClient_init lostEvents hrun).2.2.2.1 20500 (by decide +kernel)
  revert hgap
  decide +kernel

end P2PServer.P2PClient
