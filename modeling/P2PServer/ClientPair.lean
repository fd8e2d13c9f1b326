import P2PServer.SessionLink
import P2PServer.SessionSteps

/-! Two clients that send to each other, over any of the three ways. Whatever else the clients do, their
sessions with each other behave as the two sessions of a link. -/
namespace P2PServer.ClientPair
open ByteStrings ProtoDef Codec Session P2PClient Transitions

/-- A frame that leaves no trace in a session. -/
def Idle (frame : Bytes) : Prop := ∃ t, codecReadTunnel frame = some t ∧ (t.type = ttPing ∨ t.type = ttPong)

/-- `sent` lists the reliable messages that `send` at `a` has accepted for `b`, and `heard` the calls of
`on_message` at `b` for frames of `a` other than unreliable data. `toA` and `toB` are the frames that the
sessions have handed to `send_tunnel_via`. -/
structure Pair where
  a : P2PClient
  b : P2PClient
  sent : List (UInt8 × Bytes) := []
  heard : List (UInt8 × Bytes) := []
  toA : List Bytes := []
  toB : List Bytes := []
  deriving DecidableEq

/-- What happens at a client apart from the frames of the other, and the arrival of a frame, which was
sealed with a nonce. -/
inductive Event
  | actA (env : Env) (e : P2PClient.Event)
  | actB (env : Env) (e : P2PClient.Event)
  | reachA (env : Env) (f : Plain) (nonce : Bytes) (e : P2PClient.Event)
  | reachB (env : Env) (f : Plain) (nonce : Bytes) (e : P2PClient.Event)

/-- The reliable message that the event has the client accept for `v`. -/
def accepted (v : Bytes) (env : Env) (s : P2PClient) : P2PClient.Event → List (UInt8 × Bytes)
  | .send peer channel data reliable =>
    if peer = v ∧ reliable = true ∧ (P2PClient.send env peer channel data reliable s).1 = some .ok then
      [(channel, data)] else []
  | _ => []

def heardFrom (u : Bytes) (outs : List P2PClient.Out) : List (UInt8 × Bytes) :=
  (messages outs).filterMap fun m => if m.1 = u then some m.2 else none

def next (s : Pair) : Event → Pair
  | .actA env e => { s with
      a := (step env e s.a).1
      sent := s.sent ++ accepted s.b.cfg.uuid env s.a e
      toB := s.toB ++ txFrames (played s.b.cfg.uuid env s.a e (sessionFor s.b.cfg.uuid s.a).1).2 }
  | .actB env e => { s with
      b := (step env e s.b).1
      heard := s.heard ++ heardFrom s.a.cfg.uuid (step env e s.b).2
      toA := s.toA ++ txFrames (played s.a.cfg.uuid env s.b e (sessionFor s.a.cfg.uuid s.b).1).2 }
  | .reachA env f _ e => { s with
      a := (step env e s.a).1
      toB := s.toB ++ txFrames ((sessionFor s.b.cfg.uuid s.a).1.onFrame f.bytes).2 }
  | .reachB env f _ e => { s with
      b := (step env e s.b).1
      heard := s.heard ++ if isReliable f.bytes then heardFrom s.a.cfg.uuid (step env e s.b).2 else []
      toA := s.toA ++ txFrames ((sessionFor s.a.cfg.uuid s.b).1.onFrame f.bytes).2 }

/-- The network may bring any frame that was sent at any time, any number of times and by any way, and
pings and pongs whenever it likes. -/
def enabled (s : Pair) : Event → Prop
  | .actA env e => client.enabled s.a (env, e) ∧ e.Local s.b.cfg.uuid s.a
  | .actB env e => client.enabled s.b (env, e) ∧ e.Local s.a.cfg.uuid s.b
  | .reachA _ f nonce e => nonce.length = 12 ∧ (f.bytes ∈ s.toA ∨ Idle f.bytes) ∧
      Arrival s.b.cfg.uuid (carried s.a.cfg.secret s.b.cfg.uuid s.a.cfg.uuid nonce f) s.a e
  | .reachB _ f nonce e => nonce.length = 12 ∧ (f.bytes ∈ s.toB ∨ Idle f.bytes) ∧
      Arrival s.a.cfg.uuid (carried s.b.cfg.secret s.a.cfg.uuid s.b.cfg.uuid nonce f) s.b e

/-- Two running clients that share a secret and have not used a session with each other. -/
def pair : System Pair Event where
  init s := ∃ a b, Ends a b ∧ Unused b.cfg.uuid a ∧ Unused a.cfg.uuid b ∧ s = { a := a, b := b }
  enabled := enabled
  next := next

/-- The connection with `v` is there after a step if there was a session before. -/
def Holds (v : Bytes) (s s' : P2PClient) : Prop := s.sessions.contains v = true → s'.conns.contains v = true

/-- Neither client closes its connection with the other. -/
def Unclosed (s : Pair) (e : Event) : Prop :=
  Holds s.b.cfg.uuid s.a (next s e).a ∧ Holds s.a.cfg.uuid s.b (next s e).b

instance (v : Bytes) (s s' : P2PClient) : Decidable (Holds v s s') :=
  inferInstanceAs (Decidable (s.sessions.contains v = true → s'.conns.contains v = true))

instance (s : Pair) (e : Event) : Decidable (Unclosed s e) :=
  inferInstanceAs (Decidable (_ ∧ _))

/-- The session that the client has with `v`, or one that it might open. -/
def Matches (v : Bytes) (s : P2PClient) (x : Session) : Prop :=
  s.sessions[v]? = some x ∨ s.sessions[v]? = none ∧ ∃ id, x = { sessionId := id }

/-- An operation of a session that accepts `sent` and sends `frames`, of which some may be pings that
it does not know of. -/
inductive Moves (sent : List (UInt8 × Bytes)) (frames : List Bytes) (x : Session) : Session → Prop
  | rests (hframes : ∀ f ∈ frames, Idle f) (hsent : sent = []) : Moves sent frames x x
  | ticks (now : UInt64) (hframes : ∀ f ∈ frames, Idle f ∨ f ∈ txFrames (x.tick now).2) (hsent : sent = []) :
      Moves sent frames x (x.tick now).1
  | sends (ch : UInt8) (data : Bytes) (reliable : Bool) (now : UInt64)
      (hframes : frames = txFrames (x.send ch data reliable now).2.2)
      (hsent : sent = if reliable && (x.send ch data reliable now).1 = .ok then [(ch, data)] else []) :
      Moves sent frames x (x.send ch data reliable now).2.1

variable {u v : Bytes} {s s' : P2PClient} {env : Env}

theorem matches_sessionFor (v : Bytes) (s : P2PClient) : Matches v s (sessionFor v s).1 := by
  unfold sessionFor
  cases h : s.sessions[v]? with
  | none => exact .inr ⟨h, _, rfl⟩
  | some x => exact .inl h

theorem idle_control (type : UInt8) (id : UInt16) (h : type = ttPing ∨ type = ttPong) :
    Idle (buildFrame type id 0 0 0 0 []) :=
  ⟨_, codecReadTunnel_buildFrame type id 0 0 0 0 [] (by decide), h⟩

theorem tick_fresh (id : UInt16) (now : UInt64) :
    ∀ f ∈ txFrames (({ sessionId := id } : Session).tick now).2, Idle f := by
  intro f hf
  rw [tick_txFrames, List.mem_append] at hf
  rcases hf with hf | hf
  · split at hf
    · rw [List.mem_singleton.mp hf]
      exact idle_control ttPing id (.inl rfl)
    · cases hf
  · cases hf

theorem plays_matches {op : Session → Session} {r : P2PClient × List P2PClient.Out} (h : Plays v op s r)
    (hold : Holds v s r.1) {x' : Session} (hm : Matches v r.1 x') :
    (∃ x, Matches v s x ∧ x' = op x) ∨ s.sessions[v]? = none ∧ Matches v s x' := by
  cases hs : s.sessions[v]? with
  | some x =>
    have hin : s.sessions.contains v = true := by
      rw [Std.ExtTreeMap.contains_eq_isSome_getElem?, hs]
      rfl
    have hkept := h.keeps (hold hin) x hs
    rcases hm with hm | ⟨hm, -⟩
    · exact .inl ⟨x, .inl hs, Option.some.inj (hm.symm.trans hkept)⟩
    · cases hm.symm.trans hkept
  | none =>
    have hu : Unused v s := by
      intro x hx
      cases hs.symm.trans hx
    rcases hm with hm | ⟨-, hfresh⟩
    · obtain ⟨id, rfl⟩ := h.unused hu x' hm
      exact .inl ⟨_, .inr ⟨hs, id, rfl⟩, rfl⟩
    · exact .inr ⟨rfl, .inr ⟨hs, hfresh⟩⟩

theorem moves_rests {r : P2PClient × List P2PClient.Out} (h : Plays v id s r) (hold : Holds v s r.1) {x' : Session}
    (hm : Matches v r.1 x') : ∃ x, Matches v s x ∧ Moves [] [] x x' := by
  have hnone : ∀ f ∈ ([] : List Bytes), Idle f := fun f hf => absurd hf List.not_mem_nil
  rcases plays_matches h hold hm with ⟨x, hx, heq⟩ | ⟨-, hx⟩
  · rw [heq]
    exact ⟨x, hx, .rests hnone rfl⟩
  · exact ⟨x', hx, .rests hnone rfl⟩

theorem tick_moves (now : UInt64) (hold : Holds v s (step env (.tick now) s).1) {x' : Session}
    (hm : Matches v (step env (.tick now) s).1 x') :
    ∃ x, Matches v s x ∧ Moves [] (txFrames ((sessionFor v s).1.tick now).2) x x' := by
  have hopened (hs : s.sessions[v]? = none) : ∀ f ∈ txFrames ((sessionFor v s).1.tick now).2, Idle f := by
    rw [sessionFor, hs]
    exact tick_fresh _ now
  rcases plays_matches (tick_timed env now).toPlays hold hm with ⟨x, hx, rfl⟩ | ⟨hs, hx⟩
  · refine ⟨x, hx, .ticks now (fun f hf => ?_) rfl⟩
    rcases hx with hx | ⟨hs, -⟩
    · rw [sessionFor, hx] at hf
      exact .inr hf
    · exact .inl (hopened hs f hf)
  · exact ⟨x', hx, .rests (hopened hs) rfl⟩

theorem send_moves {peer : Bytes} {ch : UInt8} {data : Bytes} {reliable : Bool}
    (hold : Holds v s (step env (.send peer ch data reliable) s).1) {x' : Session}
    (hm : Matches v (step env (.send peer ch data reliable) s).1 x') :
    ∃ x, Matches v s x ∧ Moves (accepted v env s (.send peer ch data reliable))
      (txFrames (played v env s (.send peer ch data reliable) (sessionFor v s).1).2) x x' := by
  by_cases hto : peer = v ∧ (s.conns[v]?).any (·.connected) = true
  · obtain ⟨rfl, hconn⟩ := hto
    obtain ⟨c, hc, hconnected⟩ : ∃ c, s.conns[peer]? = some c ∧ c.connected = true :=
      (Option.any_eq_true _ _).mp hconn
    have hsend : P2PClient.send env peer ch data reliable s =
        (some ((sessionFor peer s).1.send ch data reliable env.now).1, withSession env peer
          (fun x => ((x.send ch data reliable env.now).2.1, (x.send ch data reliable env.now).2.2)) s) := by
      rw [P2PClient.send, hc]
      simp only [hconnected, Bool.not_true, Bool.false_eq_true, if_false]
    have hx' : x' = ((sessionFor peer s).1.send ch data reliable env.now).2.1 := by
      change Matches peer (P2PClient.send env peer ch data reliable s).2.1 x' at hm
      have hsession := (withSession_spec env peer
        (fun x => ((x.send ch data reliable env.now).2.1, (x.send ch data reliable env.now).2.2)) s).1
      rw [hsend] at hm
      rcases hm with hm | ⟨hm, -⟩
      · exact Option.some.inj (hm.symm.trans hsession)
      · cases hm.symm.trans hsession
    refine ⟨_, matches_sessionFor peer s, hx' ▸ .sends ch data reliable env.now ?_ ?_⟩
    · rw [played, if_pos ⟨rfl, hconn⟩]
    · rw [accepted, hsend]
      simp only [true_and, Option.some.injEq, Bool.and_eq_true, decide_eq_true_eq]
  · have hplays := send_plays (v := v) (s := s) env peer ch data reliable
    have hidle (x : Session) : played v env s (.send peer ch data reliable) x = (x, []) := by
      rw [played, if_neg hto]
    have hnone : accepted v env s (.send peer ch data reliable) = [] := by
      refine if_neg ?_
      rintro ⟨rfl, -, hok⟩
      rw [P2PClient.send] at hok
      split at hok
      · cases hok
      · rename_i c hc
        split at hok
        · cases hok
        · rename_i hconnected
          exact hto ⟨rfl, by simpa [hc] using hconnected⟩
    simp only [hidle] at hplays
    rw [hnone, hidle]
    exact moves_rests hplays hold hm

/-- What happens at a client is an operation of its session with `v`. -/
theorem local_moves {e : P2PClient.Event} (h : e.Local v s) (hold : Holds v s (step env e s).1) {x' : Session}
    (hm : Matches v (step env e s).1 x') :
    ∃ x, Matches v s x ∧
      Moves (accepted v env s e) (txFrames (played v env s e (sessionFor v s).1).2) x x' := by
  have hplays : Plays v _ s (step env e s) := step_plays h
  cases e with
  | start cfg => exact h.elim
  | stop => exact h.elim
  | tick now => exact tick_moves now hold hm
  | send peer ch data reliable => exact send_moves hold hm
  | worker => exact moves_rests hplays hold hm
  | packet m len src => exact moves_rests hplays hold hm
  | connect peer => exact moves_rests hplays hold hm
  | disconnect peer => exact moves_rests hplays hold hm
  | juiceState peer => exact moves_rests hplays hold hm
  | juiceCandidate peer sdp => exact moves_rests hplays hold hm
  | juiceGatheringDone peer => exact moves_rests hplays hold hm
  | juiceRecv key m len => exact moves_rests hplays hold hm
  | orphan peer => exact moves_rests hplays hold hm

/-- Whatever way it came, a sealed frame is handled by the session as it was sent. -/
theorem arrival_hears (h : Listens u s) (hu : u ≠ s.cfg.uuid) {nonce : Bytes} (hn : nonce.length = 12) (f : Plain)
    {e : P2PClient.Event} (ha : Arrival u (carried s.cfg.secret u s.cfg.uuid nonce f) s e) (env : Env) :
    Hears u f.bytes s (step env e s) := by
  have hkeys := keysDerived_reachable h.reachable
  have henc := guarded_reachable h.reachable h.running
  have hlen := carried_length s.cfg.secret u s.cfg.uuid hn f
  obtain ⟨w, hw⟩ : ∃ w, codecReadTunnel (carried s.cfg.secret u s.cfg.uuid nonce f) = some w := by
    unfold carried
    split
    · exact ⟨_, f.codecReadTunnel_bytes⟩
    · exact ⟨_, f.codecReadTunnel_encrypted _ hn⟩
  -- the key of the pair is the same on both sides
  have hcarried : carried s.cfg.secret u s.cfg.uuid nonce f = carried s.cfg.secret s.cfg.uuid u nonce f :=
    carried_comm _ _ _ _ _
  generalize htx : carried s.cfg.secret u s.cfg.uuid nonce f = tx at ha hlen hw hcarried
  cases ha with
  | ice hc hself hpeer hm =>
    rename_i key c m
    obtain ⟨x, he⟩ := onTunnelFrame_carried env hkeys henc ⟨h.peer.nonempty, hu⟩ hn f (hm.trans hcarried)
    have hstep : step env (.juiceRecv key m tx.length) s = onTunnelFrame env u m tx.length s := by
      change onJuiceRecv env key m tx.length s = _
      rw [onJuiceRecv, hc]
      dsimp only
      rw [if_neg (by simpa [hself] using List.ne_nil_of_length_pos (by omega)), hpeer]
    rw [hstep, he]
    exact withSession_hears env f.bytes rfl rfl rfl (.kept rfl)
  | direct hsrc hm =>
    rename_i m src
    obtain ⟨x, he⟩ := onTunnelFrame_carried (t := setConn u (connAt s u) s) env hkeys henc
      ⟨h.peer.nonempty, hu⟩ hn f (hm.trans hcarried)
    obtain ⟨-, hholds⟩ := holds_of_codecReadTunnel ((congrArg codecReadTunnel hm).trans hw)
    have hmagic : tx.length ≥ 2 ∧ rd16 (m 0) (m 1) = tunnelMagic := by
      rw [hholds.high, hholds.low]
      exact ⟨by omega, rfl⟩
    have hstep : step env (.packet m tx.length src) s = onDirectFrame env u m tx.length s := by
      change handlePacket env m tx.length src s = _
      rw [handlePacket, hm, codecReadHead_tunnel hw]
      dsimp only
      rw [if_pos hmagic, hsrc]
    have hhears : Hears u f.bytes s (withSession env u (fun a => a.onFrame f.bytes)
        { setConn u (connAt s u) s with tunnel := x }) :=
      withSession_hears env f.bytes rfl rfl rfl (setConn_contains _)
    rw [← he] at hhears
    rw [hstep]
    exact provePath_hears hhears false
  | relayed src hm =>
    rename_i m
    obtain ⟨c, hstep⟩ := handlePacket_relayData env h.peer h.own hlen hm src
    have htail := relayData_tail hm
    obtain ⟨x, he⟩ := onTunnelFrame_carried (t := setConn u c s) env hkeys henc ⟨h.peer.nonempty, hu⟩ hn f
      (htail.trans hcarried)
    have hhears : Hears u f.bytes s (withSession env u (fun a => a.onFrame f.bytes)
        { setConn u c s with tunnel := x }) :=
      withSession_hears env f.bytes rfl rfl rfl (setConn_contains _)
    rw [← he] at hhears
    change Hears u f.bytes s (handlePacket env m (74 + tx.length) src s)
    rw [hstep]
    exact provePath_hears hhears true

theorem onFrame_idle {frame : Bytes} (h : Idle frame) (x : Session) : (x.onFrame frame).1 = x ∧
    (∀ f ∈ txFrames (x.onFrame frame).2, Idle f) ∧ isReliable frame = false := by
  obtain ⟨t, ht, hty⟩ := h
  have hrel : isReliable frame = false := by
    rw [isReliable, ht]
    rcases hty with hty | hty <;> simp only [hty] <;> rfl
  have hno : ∀ f ∈ ([] : List Bytes), Idle f := fun f hf => absurd hf List.not_mem_nil
  rw [onFrame, ht]
  dsimp only
  rcases hty with hty | hty <;> rw [hty]
  · refine ⟨rfl, fun f hf => ?_, hrel⟩
    obtain rfl := List.mem_singleton.mp hf
    exact idle_control ttPong x.sessionId (.inr rfl)
  · exact ⟨rfl, hno, hrel⟩

theorem heardFrom_calls {outs : List P2PClient.Out} {douts : List Session.Out} (h : messages outs = calls s u douts) :
    heardFrom u outs = if s.callbacks.onMessage then onData douts else [] := by
  rw [heardFrom, h, P2PClient.calls]
  split
  · rw [List.filterMap_map]
    simp
  · rfl

theorem heardFrom_quiet {outs : List P2PClient.Out} (h : ∀ o ∈ outs, o.speaks u = false) : heardFrom u outs = [] := by
  rw [heardFrom, List.filterMap_eq_nil_iff]
  intro m hm
  obtain ⟨o, ho, hom⟩ := List.mem_filterMap.mp hm
  have hspeaks := h o ho
  cases o with
  | message peer ch data =>
    obtain rfl := Option.some.inj hom
    exact if_neg (of_decide_eq_false hspeaks)
  | _ => cases hom

theorem local_mild {e : P2PClient.Event} (h : e.Local v s) (env : Env) : MildStep s (step env e s).1 := by
  rcases step_mild env e (s := s) with ⟨cfg, rfl⟩ | rfl | hmild
  · exact h.elim
  · exact h.elim
  · exact hmild

theorem arrival_mild {tx : Bytes} {e : P2PClient.Event} (h : Arrival u tx s e) (env : Env) :
    MildStep s (step env e s).1 := by
  rcases step_mild env e (s := s) with ⟨cfg, rfl⟩ | rfl | hmild
  · cases h
  · cases h
  · exact hmild

theorem arrival_enabled {tx : Bytes} {e : P2PClient.Event} (h : Arrival u tx s e) (hrun : s.running = true)
    (env : Env) : client.enabled s (env, e) := by
  cases h with
  | ice => trivial
  | direct => exact hrun
  | relayed => exact hrun

open SessionLink (Link Packet link packetsA packetsB deliveredReliably nonEmpty)

structure Mirrors (s : Pair) (l : Link) : Prop where
  sent : s.sent = l.sent
  heard : s.heard = if s.b.callbacks.onMessage then nonEmpty l.received else []
  toA : ∀ f ∈ s.toA, Idle f ∨ ∃ p ∈ l.toA, p.frame = f
  toB : ∀ f ∈ s.toB, Idle f ∨ ∃ p ∈ l.toB, p.frame = f

/-- The sessions of the two clients are in a state of the link. -/
structure Simulated (s : Pair) : Prop where
  ends : Ends s.a s.b
  link : ∀ x y, Matches s.b.cfg.uuid s.a x → Matches s.a.cfg.uuid s.b y →
    ∃ l, Reachable link l ∧ l.a = x ∧ l.b = y ∧ Mirrors s l

structure Carries (ps : List Packet) (frames : List Bytes) (ps' : List Packet) : Prop where
  old : ∀ p ∈ ps, p ∈ ps'
  new : ∀ f ∈ frames, Idle f ∨ ∃ p ∈ ps', p.frame = f

theorem Carries.all {ps ps' : List Packet} {held frames : List Bytes} (h : Carries ps frames ps')
    (hheld : ∀ f ∈ held, Idle f ∨ ∃ p ∈ ps, p.frame = f) :
    ∀ f ∈ held ++ frames, Idle f ∨ ∃ p ∈ ps', p.frame = f := by
  intro f hf
  rcases List.mem_append.mp hf with hf | hf
  · exact (hheld f hf).imp_right fun ⟨p, hp, heq⟩ => ⟨p, h.old p hp, heq⟩
  · exact h.new f hf

theorem carries_rests {ps : List Packet} {frames : List Bytes} (h : ∀ f ∈ frames, Idle f) : Carries ps frames ps :=
  ⟨fun _ => id, fun f hf => .inl (h f hf)⟩

/-- The network holds a packet for each frame of an operation. -/
theorem carries_packets {ps : List Packet} {outs : List Session.Out} {frames : List Bytes} {mark : Bytes → ℕ}
    (h : ∀ f ∈ frames, Idle f ∨ f ∈ txFrames outs) :
    Carries ps frames (ps ++ (txFrames outs).map fun f => ⟨f, mark f⟩) :=
  ⟨fun _ => List.mem_append_left _, fun f hf => (h f hf).imp_right fun hf =>
    ⟨_, List.mem_append_right _ (List.mem_map.mpr ⟨f, hf, rfl⟩), rfl⟩⟩

variable {l : Link} {sent : List (UInt8 × Bytes)} {frames : List Bytes} {x' : Session}

theorem link_movesA (hl : Reachable link l) (h : Moves sent frames l.a x') :
    ∃ l', Reachable link l' ∧ l'.a = x' ∧ l'.b = l.b ∧ l'.sent = l.sent ++ sent ∧ l'.received = l.received ∧
      l'.toA = l.toA ∧ Carries l.toB frames l'.toB := by
  cases h with
  | rests hframes hsent =>
    exact ⟨l, hl, rfl, rfl, by rw [hsent, List.append_nil], rfl, rfl, carries_rests hframes⟩
  | ticks now hframes hsent =>
    refine ⟨_, hl.step (e := SessionLink.Event.tickA now) trivial trivial, rfl, rfl, ?_, rfl, rfl, carries_packets hframes⟩
    rw [hsent, List.append_nil]
    rfl
  | sends ch data reliable now hframes hsent =>
    refine ⟨_, hl.step (e := SessionLink.Event.sendA ch data reliable now) trivial trivial, rfl, rfl, ?_, rfl, rfl,
      carries_packets fun f hf => .inr (hframes ▸ hf)⟩
    rw [hsent]
    change (if _ then _ else _) = _
    split <;> simp

theorem link_movesB (hl : Reachable link l) (h : Moves sent frames l.b x') :
    ∃ l', Reachable link l' ∧ l'.a = l.a ∧ l'.b = x' ∧ l'.sent = l.sent ∧ l'.received = l.received ∧
      l'.toB = l.toB ∧ Carries l.toA frames l'.toA := by
  cases h with
  | rests hframes hsent => exact ⟨l, hl, rfl, rfl, rfl, rfl, rfl, carries_rests hframes⟩
  | ticks now hframes hsent =>
    exact ⟨_, hl.step (e := SessionLink.Event.tickB now) trivial trivial, rfl, rfl, rfl, rfl, rfl, carries_packets hframes⟩
  | sends ch data reliable now hframes hsent =>
    exact ⟨_, hl.step (e := SessionLink.Event.sendB ch data reliable now) trivial trivial, rfl, rfl, rfl, rfl, rfl,
      carries_packets fun f hf => .inr (hframes ▸ hf)⟩

theorem ends_left {a a' b : P2PClient} (h : Ends a b) (hmild : MildStep a a') (hr : Reachable client a') : Ends a' b where
  sender := ⟨hr, hmild.running.trans h.sender.2⟩
  receiver := h.receiver
  secret := by rw [hmild.cfg, h.secret]
  own := by
    rw [hmild.cfg]
    exact h.own
  peer := h.peer
  different := by
    rw [hmild.cfg]
    exact h.different

theorem ends_right {a b b' : P2PClient} (h : Ends a b) (hmild : MildStep b b') (hr : Reachable client b') : Ends a b' where
  sender := h.sender
  receiver := ⟨hr, hmild.running.trans h.receiver.2⟩
  secret := by rw [hmild.cfg, h.secret]
  own := h.own
  peer := by
    rw [hmild.cfg]
    exact h.peer
  different := by
    rw [hmild.cfg]
    exact h.different

theorem listens_left {a b : P2PClient} (h : Ends a b) : Listens b.cfg.uuid a := ⟨h.sender.1, h.sender.2, h.own, h.peer⟩

theorem listens_right {a b : P2PClient} (h : Ends a b) : Listens a.cfg.uuid b :=
  ⟨h.receiver.1, h.receiver.2, h.peer, h.own⟩

theorem Simulated.actA {s : Pair} (h : Simulated s) {env : Env} {e : P2PClient.Event} (hcan : client.enabled s.a (env, e))
    (hlocal : e.Local s.b.cfg.uuid s.a) (hold : Holds s.b.cfg.uuid s.a (step env e s.a).1) :
    Simulated (next s (.actA env e)) := by
  have hmild := local_mild hlocal env
  refine ⟨ends_left h.ends hmild (h.ends.sender.1.step (e := (env, e)) hcan trivial), fun x' y hx hy => ?_⟩
  rw [next, hmild.cfg] at hy
  obtain ⟨x, hx, hmoves⟩ := local_moves hlocal hold hx
  obtain ⟨l, hl, rfl, rfl, hm⟩ := h.link x y hx hy
  obtain ⟨l', hl', rfl, hb, hsent, hreceived, htoA, hcarries⟩ := link_movesA hl hmoves
  refine ⟨l', hl', rfl, hb, ⟨?_, ?_, ?_, hcarries.all hm.toB⟩⟩
  · rw [hsent, ← hm.sent]
    rfl
  · rw [hreceived]
    exact hm.heard
  · rw [htoA]
    exact hm.toA

theorem Simulated.actB {s : Pair} (h : Simulated s) {env : Env} {e : P2PClient.Event} (hcan : client.enabled s.b (env, e))
    (hlocal : e.Local s.a.cfg.uuid s.b) (hold : Holds s.a.cfg.uuid s.b (step env e s.b).1) :
    Simulated (next s (.actB env e)) := by
  have hmild := local_mild hlocal env
  refine ⟨ends_right h.ends hmild (h.ends.receiver.1.step (e := (env, e)) hcan trivial), fun x y' hx hy => ?_⟩
  rw [next, hmild.cfg] at hx
  obtain ⟨y, hy, hmoves⟩ := local_moves hlocal hold hy
  obtain ⟨l, hl, rfl, rfl, hm⟩ := h.link x y hx hy
  obtain ⟨l', hl', ha, rfl, hsent, hreceived, htoB, hcarries⟩ := link_movesB hl hmoves
  refine ⟨l', hl', ha, rfl, ⟨?_, ?_, hcarries.all hm.toA, ?_⟩⟩
  · rw [hsent, ← hm.sent]
    rfl
  · have hplays : Plays _ _ s.b (step env e s.b) := step_plays hlocal
    have hquiet := heardFrom_quiet hplays.quiet
    rw [next, hquiet, List.append_nil, hreceived, hmild.callbacks]
    exact hm.heard
  · rw [htoB]
    exact hm.toB

theorem Simulated.reachA {s : Pair} (h : Simulated s) {env : Env} {f : Plain} {nonce : Bytes} {e : P2PClient.Event}
    (hn : nonce.length = 12) (hsent : f.bytes ∈ s.toA ∨ Idle f.bytes)
    (ha : Arrival s.b.cfg.uuid (carried s.a.cfg.secret s.b.cfg.uuid s.a.cfg.uuid nonce f) s.a e) :
    Simulated (next s (.reachA env f nonce e)) := by
  have hmild := arrival_mild ha env
  have hhears := arrival_hears (listens_left h.ends) h.ends.different.symm hn f ha env
  have hr : Reachable client (step env e s.a).1 :=
    h.ends.sender.1.step (e := (env, e)) (arrival_enabled ha h.ends.sender.2 env) trivial
  refine ⟨ends_left h.ends hmild hr, fun x' y hx hy => ?_⟩
  rw [next, hmild.cfg] at hy
  have hx' : x' = ((sessionFor s.b.cfg.uuid s.a).1.onFrame f.bytes).1 := by
    rcases hx with hx | ⟨hx, -⟩
    · exact Option.some.inj (hx.symm.trans hhears.session)
    · cases hx.symm.trans hhears.session
  subst hx'
  obtain ⟨l, hl, hx, rfl, hm⟩ := h.link _ y (matches_sessionFor _ s.a) hy
  rw [← hx]
  by_cases hidle : Idle f.bytes
  · obtain ⟨hsame, hpong, -⟩ := onFrame_idle hidle l.a
    refine ⟨l, hl, hsame.symm, rfl, hm.sent, hm.heard, hm.toA, ?_⟩
    rw [next, ← hx]
    exact (carries_rests hpong).all hm.toB
  · obtain ⟨p, hp, hframe⟩ := (hm.toA _ (hsent.resolve_right hidle)).resolve_left hidle
    refine ⟨_, hl.step (e := SessionLink.Event.arriveA p) hp trivial, ?_, rfl, hm.sent, hm.heard, hm.toA, ?_⟩
    · rw [← hframe]
      rfl
    · rw [next, ← hx, ← hframe]
      exact (carries_packets fun f hf => .inr hf).all hm.toB

theorem Simulated.reachB {s : Pair} (h : Simulated s) {env : Env} {f : Plain} {nonce : Bytes} {e : P2PClient.Event}
    (hn : nonce.length = 12) (hsent : f.bytes ∈ s.toB ∨ Idle f.bytes)
    (ha : Arrival s.a.cfg.uuid (carried s.b.cfg.secret s.a.cfg.uuid s.b.cfg.uuid nonce f) s.b e) :
    Simulated (next s (.reachB env f nonce e)) := by
  have hmild := arrival_mild ha env
  have hhears := arrival_hears (listens_right h.ends) h.ends.different hn f ha env
  have hr : Reachable client (step env e s.b).1 :=
    h.ends.receiver.1.step (e := (env, e)) (arrival_enabled ha h.ends.receiver.2 env) trivial
  refine ⟨ends_right h.ends hmild hr, fun x y' hx hy => ?_⟩
  rw [next, hmild.cfg] at hx
  have hy' : y' = ((sessionFor s.a.cfg.uuid s.b).1.onFrame f.bytes).1 := by
    rcases hy with hy | ⟨hy, -⟩
    · exact Option.some.inj (hy.symm.trans hhears.session)
    · cases hy.symm.trans hhears.session
  subst hy'
  obtain ⟨l, hl, rfl, hy, hm⟩ := h.link x _ hx (matches_sessionFor _ s.b)
  have hheard := heardFrom_calls hhears.delivers
  rw [← hy] at hheard ⊢
  by_cases hidle : Idle f.bytes
  · obtain ⟨hsame, hpong, hrel⟩ := onFrame_idle hidle l.b
    refine ⟨l, hl, rfl, hsame.symm, hm.sent, ?_, ?_, hm.toB⟩
    · rw [next, hrel, hmild.callbacks, hm.heard]
      exact List.append_nil _
    · rw [next, ← hy]
      exact (carries_rests hpong).all hm.toA
  · obtain ⟨p, hp, hframe⟩ := (hm.toB _ (hsent.resolve_right hidle)).resolve_left hidle
    refine ⟨_, hl.step (e := SessionLink.Event.arriveB p) hp trivial, rfl, ?_, hm.sent, ?_, ?_, hm.toB⟩
    · rw [← hframe]
      rfl
    · rw [next, hheard, hmild.callbacks, hm.heard, ← hframe]
      have hreceived : (SessionLink.link.next l (SessionLink.Event.arriveB p)).received =
          l.received ++ deliveredReliably p.frame (l.b.onFrame p.frame).2 := rfl
      rw [hreceived, nonEmpty, nonEmpty, List.filter_append, deliveredReliably]
      cases s.b.callbacks.onMessage with
      | true => cases isReliable p.frame <;> rfl
      | false => cases isReliable p.frame <;> rfl
    · rw [next, ← hy, ← hframe]
      exact (carries_packets fun f hf => .inr hf).all hm.toA

theorem simulated_init {s : Pair} (h : pair.init s) : Simulated s := by
  obtain ⟨a, b, hends, hua, hub, rfl⟩ := h
  have hfresh {v : Bytes} {s : P2PClient} {x : Session} (hu : Unused v s) (hm : Matches v s x) :
      ∃ id, x = { sessionId := id } := hm.elim (hu x) And.right
  have hnone : ∀ f ∈ ([] : List Bytes), Idle f := fun f hf => absurd hf List.not_mem_nil
  refine ⟨hends, fun x y hx hy => ?_⟩
  obtain ⟨i, rfl⟩ := hfresh hua hx
  obtain ⟨j, rfl⟩ := hfresh hub hy
  refine ⟨_, .start ⟨i, j, rfl⟩, rfl, rfl, rfl, ?_, (fun f hf => .inl (hnone f hf)), fun f hf => .inl (hnone f hf)⟩
  exact (ite_self _).symm

/-- In a run in which the connection is not closed, the two clients do what the two sessions of a link do. -/
theorem pair_simulated {s : Pair} (h : Reach pair Unclosed s) : Simulated s := by
  refine h.invariant (fun s => simulated_init) fun s e hs can hopen => ?_
  cases e with
  | actA env e => exact hs.actA can.1 can.2 hopen.1
  | actB env e => exact hs.actB can.1 can.2 hopen.2
  | reachA env f nonce e => exact hs.reachA can.1 can.2.1 can.2.2
  | reachB env f nonce e => exact hs.reachB can.1 can.2.1 can.2.2

/-- What the application at `b` hears of `a` is a prefix of the non-empty messages that `send` at `a` has
accepted. -/
theorem heard_prefix {s : Pair} (h : Reach pair Unclosed s) (hn : s.sent.length ≤ 65535) :
    s.heard <+: nonEmpty s.sent := by
  obtain ⟨l, hl, -, -, hm⟩ := (pair_simulated h).link _ _ (matches_sessionFor _ s.a) (matches_sessionFor _ s.b)
  have hinv := SessionLink.inv_of_short hl (hm.sent ▸ hn)
  rw [hm.heard, hm.sent]
  split
  · rw [hinv.received_eq]
    exact (List.take_prefix _ _).filter _
  · exact List.nil_prefix

def reached (uuid peer : Bytes) : P2PClient :=
  let cfg : Config := { uuid := uuid, natServers := [relayServer] }
  [({}, .start cfg), ({}, .connect peer), ({}, .juiceState peer)].foldl client.next { cfg := cfg }

def strangers : Pair := { a := reached Samples.uuidU Samples.uuidV, b := reached Samples.uuidV Samples.uuidU }

def dataFrame (ch : UInt8) (seq : UInt16) (data : Bytes) (h : data.length ≤ maxTunnelPayload) : Plain :=
  ⟨ttData, 1, ch, tfReliable, seq, 0, data, by decide, h⟩

def arriving (f : Plain) : Event :=
  .reachB {} f (List.replicate 12 0) (.juiceRecv Samples.uuidU (.ofBytes f.bytes fun _ => 0) f.bytes.length)

def overtaken : List Event :=
  [.actA {} (.send Samples.uuidV 1 [7] true), .actA {} (.send Samples.uuidV 2 [8] true),
    arriving (dataFrame 2 1 [8] (by decide)), arriving (dataFrame 1 0 [7] (by decide))]

theorem ends_strangers : Ends strangers.a strangers.b := by
  have hreach (uuid peer : Bytes) : Reachable client (reached uuid peer) :=
    .step (.step (.step (.start ⟨_, _, rfl⟩) trivial trivial) trivial trivial) trivial trivial
  exact ⟨⟨hreach _ _, by decide +kernel⟩, ⟨hreach _ _, by decide +kernel⟩, by decide +kernel,
    P2PProxy.proper_uuidU, P2PProxy.proper_uuidV, by decide +kernel⟩

theorem arriving_enabled {s : Pair} {f : Plain} (hsent : f.bytes ∈ s.toB) (hsecret : s.b.cfg.secret = [])
    (hu : s.a.cfg.uuid = Samples.uuidU) {c : Conn} (hc : s.b.conns[Samples.uuidU]? = some c)
    (hself : c.self = true) (hpeer : c.peerUuid = Samples.uuidU) : enabled s (arriving f) := by
  refine ⟨rfl, .inl hsent, ?_⟩
  rw [carried, if_pos (.inl hsecret)]
  exact .ice hc hself (hpeer.trans hu.symm) (Memory.read_ofBytes _ _)

theorem heard_prefix_overtaken : (overtaken.foldl pair.next strangers).heard = [(1, [7]), (2, [8])] ∧
    (overtaken.foldl pair.next strangers).heard <+: nonEmpty (overtaken.foldl pair.next strangers).sent := by
  have hnone (uuid peer v : Bytes) (h : (reached uuid peer).sessions[v]? = none) : Unused v (reached uuid peer) := by
    intro x hx
    cases h.symm.trans hx
  have hrun : Run pair Unclosed strangers overtaken := by
    refine ⟨⟨trivial, trivial⟩, by decide +kernel, ⟨trivial, trivial⟩, by decide +kernel, ?_, by decide +kernel,
      ?_, by decide +kernel, trivial⟩
    · exact arriving_enabled (c := connAt strangers.b Samples.uuidU) (by decide +kernel) (by decide +kernel)
        (by decide +kernel) (by decide +kernel) (by decide +kernel) (by decide +kernel)
    · exact arriving_enabled (c := connAt strangers.b Samples.uuidU) (by decide +kernel) (by decide +kernel)
        (by decide +kernel) (by decide +kernel) (by decide +kernel) (by decide +kernel)
  have hstart : pair.init strangers :=
    ⟨_, _, ends_strangers, hnone _ _ _ (by decide +kernel), hnone _ _ _ (by decide +kernel), rfl⟩
  exact ⟨by decide +kernel, heard_prefix (Reach.run (.start hstart) hrun) (by decide +kernel)⟩

end P2PServer.ClientPair
