import P2PServer.RemoteClose

/-! What a client's steps leave of its session with one peer: all of it, unless the connection is
closed. Only the frames of the peer, the messages for it and the timer run the session. -/
namespace P2PServer.P2PClient
open ByteStrings ProtoDef Net Codec Crypto Effects Transitions

/-- There is no session with `v`, or one that has done nothing yet. -/
def Unused (v : Bytes) (s : P2PClient) : Prop :=
  ∀ x, s.sessions[v]? = some x → ∃ id, x = { sessionId := id }

/-- The session with `v` is left as it is. -/
structure Retains (v : Bytes) (s s' : P2PClient) : Prop where
  unused : Unused v s → Unused v s'
  keeps : ∀ x, s.sessions[v]? = some x → s'.sessions[v]? = some x

/-- The session with `v` is left as it is unless its connection is closed. -/
structure Spares (v : Bytes) (s s' : P2PClient) : Prop where
  unused : Unused v s → Unused v s'
  keeps : s'.conns.contains v = true → ∀ x, s.sessions[v]? = some x → s'.sessions[v]? = some x

def Out.speaks (v : Bytes) : Out → Bool
  | .message peer _ _ => peer = v
  | _ => false

instance (v : Bytes) : Std.Refl (Retains v) := ⟨fun _ => ⟨id, fun _ => id⟩⟩

instance (v : Bytes) : IsTrans P2PClient (Retains v) where
  trans _ _ _ h g := ⟨g.unused ∘ h.unused, fun x hx => g.keeps x (h.keeps x hx)⟩

abbrev Quiet (v : Bytes) (s : P2PClient) (r : P2PClient × List Out) : Prop :=
  Within (Retains v) (fun o => o.speaks v = false) s r

abbrev Sparing (v : Bytes) (s : P2PClient) (r : P2PClient × List Out) : Prop :=
  Within (Spares v) (fun o => o.speaks v = false) s r

/-- A step of the round over the connections, which adds none. -/
structure Rounds (v : Bytes) (s s' : P2PClient) : Prop extends Spares v s s' where
  stays : s'.conns.contains v = true → s.conns.contains v = true

instance (v : Bytes) : Std.Refl (Rounds v) := ⟨fun _ => ⟨⟨id, fun _ _ => id⟩, id⟩⟩

instance (v : Bytes) : IsTrans P2PClient (Rounds v) where
  trans _ _ _ h g := ⟨⟨g.unused ∘ h.unused, fun hc x hx => g.keeps hc x (h.keeps (g.stays hc) x hx)⟩,
    h.stays ∘ g.stays⟩

abbrev Rounding (v : Bytes) (s : P2PClient) (r : P2PClient × List Out) : Prop :=
  Within (Rounds v) (fun o => o.speaks v = false) s r

variable {env : Env} {s s' : P2PClient} {v w : Bytes} {f g : Action} {r : P2PClient × List Out} {o : Out} {k : Kind}
  {ks : List Kind}

theorem Retains.same (h : s'.sessions = s.sessions) : Retains v s s' where
  unused hu := by
    unfold Unused
    rwa [h]
  keeps x hx := by rwa [h]

theorem Retains.spares (h : Retains v s s') : Spares v s s' := ⟨h.unused, fun _ => h.keeps⟩

theorem Quiet.sparing (h : Quiet v s r) : Sparing v s r := ⟨h.1.spares, h.2⟩

theorem Spares.after (hs : Retains v s s') {s'' : P2PClient} (h : Spares v s' s'') : Spares v s s'' :=
  ⟨h.unused ∘ hs.unused, fun hc x hx => h.keeps hc x (hs.keeps x hx)⟩

theorem Sparing.after (hr : Sparing v s' r) (hs : Retains v s s') : Sparing v s r := ⟨hr.1.after hs, hr.2⟩

theorem Quiet.andThen_sparing (hf : Quiet v s (f s)) (hg : Sparing v (f s).1 (g (f s).1)) :
    Sparing v s (andThen f g s) :=
  ⟨hg.1.after hf.1, fun o ho => (mem_andThen.mp ho).elim (hf.2 o) (hg.2 o)⟩

theorem Emits.speaks (h : Emits s k o) (hk : k ≠ .plays) : o.speaks v = false := by
  cases h with
  | plain h => cases h <;> rfl
  | message => exact absurd rfl hk
  | _ => rfl

/-- A new session does not touch the one with `v`, or it is that one. -/
theorem opens_retains {peer : Bytes} (hnone : s.sessions[peer]? = none) : Retains v s
    { s with
      nextSessionId := s.nextSessionId + 1
      sessions := s.sessions.insert peer { sessionId := s.nextSessionId } } := by
  by_cases hpeer : v = peer
  · subst hpeer
    refine ⟨fun _ x hx => ?_, fun x hx => ?_⟩
    · rw [Std.ExtTreeMap.getElem?_insert_self] at hx
      exact ⟨_, (Option.some.inj hx).symm⟩
    · cases hnone.symm.trans hx
  · have hsame : (s.sessions.insert peer { sessionId := s.nextSessionId })[v]? = s.sessions[v]? := by
      rw [TreeMaps.insert_get, if_neg hpeer]
    refine ⟨fun hu x hx => hu x (hsame ▸ hx), fun x hx => ?_⟩
    exact hsame.trans hx

/-- The kinds that run no session and end none. -/
def Kind.quiet : Kind → Bool
  | .plays | .closes => false
  | _ => true

theorem Write.quiet (h : Write k s r) (hk : k.quiet = true) : Quiet v s r := by
  refine ⟨?_, fun o ho => (h.emits o ho).speaks ?_⟩
  · cases h with
    | opens hnone => exact opens_retains hnone
    | plays | closes => cases hk
    | _ => exact .same rfl
  · rintro rfl
    cases hk

theorem Made.quiet (h : Made ks s r) (hks : ks.all Kind.quiet = true) : Quiet v s r :=
  Composed.within (fun _ _ ⟨k, hk, hw⟩ => hw.quiet (List.all_eq_true.mp hks k hk)) h

theorem Made.sparing (h : Made ks s r) (hks : ks.all Kind.quiet = true) : Sparing v s r := (h.quiet hks).sparing

theorem closeConn_sparing (c : Conn) : Sparing v s (closeConn c s) := by
  refine ⟨⟨fun hu x hx => ?_, fun hc x hx => ?_⟩, fun o ho => ?_⟩
  · change (s.sessions.erase c.peerUuid)[v]? = some x at hx
    rw [TreeMaps.erase_get] at hx
    split at hx
    · cases hx
    · exact hu x hx
  · change (s.conns.erase c.peerUuid).contains v = true at hc
    change (s.sessions.erase c.peerUuid)[v]? = some x
    rw [Std.ExtTreeMap.contains_eq_isSome_getElem?, TreeMaps.erase_get] at hc
    rw [TreeMaps.erase_get]
    split
    · rename_i hv
      rw [if_pos hv] at hc
      cases hc
    · exact hx
  · exact ((Write.closes c).emits o ho).speaks (by simp)

theorem contains_of_setConn {key : Bytes} {c c' : Conn} (hget : s.conns[key]? = some c)
    (h : (setConn key c' s).conns.contains v = true) : s.conns.contains v = true := by
  rw [Std.ExtTreeMap.contains_eq_isSome_getElem?, setConn, TreeMaps.insert_get] at h
  rw [Std.ExtTreeMap.contains_eq_isSome_getElem?]
  split at h
  · rename_i heq
    rw [heq, hget, Option.isSome_some]
  · exact h

/-- The kinds that run no session and enter no connection. -/
def Kind.rounds : Kind → Bool
  | .plays | .enters => false
  | _ => true

theorem Write.rounding (h : Write k s r) (hk : k.rounds = true) : Rounding v s r := by
  by_cases hclose : k = .closes
  · subst hclose
    cases h with
    | closes c =>
      have hspare : Sparing v s (closeConn c s) := closeConn_sparing c
      refine ⟨⟨hspare.1, fun hc => ?_⟩, hspare.2⟩
      change (s.conns.erase c.peerUuid).contains v = true at hc
      rw [Std.ExtTreeMap.contains_erase, Bool.and_eq_true] at hc
      exact hc.2
    | lifts _ _ h => cases h
  · have hquiet : Quiet v s r := h.quiet (by cases k <;> first | rfl | exact absurd rfl hclose | cases hk)
    refine ⟨⟨hquiet.1.spares, fun hc => ?_⟩, hquiet.2⟩
    cases h with
    | plays | delivers | enters | finds => cases hk
    | closes => exact absurd rfl hclose
    | grants =>
      rw [Std.ExtTreeMap.contains_eq_isSome_getElem?] at hc ⊢
      rwa [Std.ExtTreeMap.getElem?_map, Option.isSome_map] at hc
    | keeps hget | begins hget | acks _ _ hget | invitesRelay _ hget | invites _ hget | lifts _ hget =>
      exact contains_of_setConn hget hc
    | _ => exact hc

theorem Made.rounding (h : Made ks s r) (hks : ks.all Kind.rounds = true) : Rounding v s r :=
  Composed.within (fun _ _ ⟨k, hk, hw⟩ => hw.rounding (List.all_eq_true.mp hks k hk)) h

theorem sessionOut_quiet (env : Env) (hw : w ≠ v) (o : Session.Out) : Quiet v s (sessionOut env w o s) := by
  unfold sessionOut
  cases o with
  | tx frame =>
    dsimp only
    split
    · exact (sendTunnelVia_made _ frame).quiet rfl
    · exact .nothing
  | deliver ch payload =>
    dsimp only
    split
    · refine ⟨Std.Refl.refl s, fun o ho => ?_⟩
      rw [List.mem_singleton.mp ho]
      exact decide_eq_false hw
    · exact .nothing

theorem withSession_quiet (env : Env) (hw : w ≠ v) (op : Session → Session × List Session.Out) :
    Quiet v s (withSession env w op s) := by
  have hother : Retains v (sessionFor w s).2 { (sessionFor w s).2 with
      sessions := (sessionFor w s).2.sessions.insert w (op (sessionFor w s).1).1 } := by
    have hsame : ((sessionFor w s).2.sessions.insert w (op (sessionFor w s).1).1)[v]? =
        (sessionFor w s).2.sessions[v]? := by rw [TreeMaps.insert_get, if_neg hw.symm]
    exact ⟨fun hu x hx => hu x (hsame ▸ hx), fun x hx => hsame.trans hx⟩
  unfold withSession
  exact .after (IsTrans.trans _ _ _ ((sessionFor_made w).quiet rfl).1 hother) (.forEach (fun o _ => sessionOut_quiet env hw o) _ _)

theorem onTunnelFrame_quiet (env : Env) (hw : w ≠ v) (m : Memory) (len : ℕ) :
    Quiet v s (onTunnelFrame env w m len s) := by
  unfold onTunnelFrame
  dsimp only
  split
  · exact .after ((decryptTunnelFrame_made w m len).quiet rfl).1 (withSession_quiet env hw _)
  · exact withSession_quiet env hw _

theorem provePath_quiet (relay : Bool) (key : Bytes) : Quiet v s (provePath relay key s) := by
  unfold provePath
  dsimp only
  split
  · exact .nothing
  · split
    · refine ⟨.same rfl, fun o ho => ?_⟩
      rw [List.mem_singleton.mp ho]
      rfl
    · exact .state (.same rfl)

theorem onDirectFrame_quiet (env : Env) (hw : w ≠ v) (m : Memory) (len : ℕ) :
    Quiet v s (onDirectFrame env w m len s) :=
  .andThen (.state (.same rfl)) (.andThen (onTunnelFrame_quiet env hw m len) (provePath_quiet false w))

theorem onRelayData_quiet (env : Env) {m : Memory} {plen : ℕ} (hw : uuidAt (m.read 0 plen) 0 ≠ v) :
    Quiet v s (onRelayData env m plen s) := by
  unfold onRelayData
  dsimp only
  split
  · exact .nothing
  · split
    · exact .nothing
    · split
      · exact .nothing
      · exact .andThen (.state (.same rfl))
          (.andThen (onTunnelFrame_quiet env hw _ _) (provePath_quiet true _))

/-- The connection may be entered, and is closed at once if the peer is offline. -/
theorem onConnectAck_sparing (env : Env) (p : Bytes) : Sparing v s (onConnectAck env p s) := by
  unfold onConnectAck
  dsimp only
  split
  · exact Quiet.sparing .nothing
  · split
    · split
      · exact doAuthChallenge_made.sparing rfl
      · exact Quiet.sparing .nothing
    · split
      · exact Sparing.after (Quiet.andThen_sparing ((onError_made _).quiet rfl) (closeConn_sparing _)) (.same rfl)
      · exact Sparing.after ((adoptProxies_made _ _).sparing rfl) (.same rfl)

theorem disconnect_sparing (env : Env) (peer : Bytes) : Sparing v s (disconnect env peer s) := by
  unfold disconnect
  split
  · exact Quiet.sparing .nothing
  · exact Sparing.after (Quiet.andThen_sparing ((sendTunnelVia_made _ _).quiet rfl) (closeConn_sparing _))
      ((sessionFor_made peer).quiet rfl).1

theorem handleProto_sparing (env : Env) {msgId : UInt8} {m : Memory} {plen : ℕ}
    (h : msgId = msgProxyRelayData → uuidAt (m.read 0 plen) 0 ≠ v) : Sparing v s (handleProto env msgId m plen s) := by
  by_cases hack : msgId = msgConnectAck
  · rw [hack]
    exact onConnectAck_sparing env _
  · by_cases hrelay : msgId = msgProxyRelayData
    · have hother := h hrelay
      rw [hrelay]
      exact (onRelayData_quiet env hother).sparing
    · refine (handleProto_made msgId m plen).sparing ?_
      unfold messageKinds
      rw [if_neg hack, if_neg hrelay]
      split_ifs <;> rfl

theorem handlePacket_sparing (env : Env) {m : Memory} {len : ℕ} {src : Addr}
    (hmsg : ∀ p, protoOf m len = some (msgProxyRelayData, p) → uuidAt p 0 ≠ v)
    (hframe : protoOf m len = none → s.addrToPeer[addrKey src]? ≠ some v) :
    Sparing v s (handlePacket env m len src s) := by
  have hrecv := handlePacket_receives env m len src s
  generalize handlePacket env m len src s = r at hrecv ⊢
  cases hrecv with
  | message h => exact handleProto_sparing env fun hid => hmsg _ (by rw [h, hid])
  | frame h hpeer =>
    exact Quiet.sparing (onDirectFrame_quiet env (fun hw => hframe h (by rw [hpeer, hw])) m len)
  | dropped => exact Quiet.sparing .nothing

theorem withSession_sessions (env : Env) (peer : Bytes) (op : Session → Session × List Session.Out) :
    (withSession env peer op s).1.sessions =
      (sessionFor peer s).2.sessions.insert peer (op (sessionFor peer s).1).1 := by
  unfold withSession
  exact (forEach_sessionOut env peer _ _).1

theorem speaks_of_messages {outs : List Out} (h : messages outs = []) : ∀ o ∈ outs, o.speaks v = false := by
  intro o ho
  have hnone := List.filterMap_eq_nil_iff.mp h o ho
  cases o <;> first | rfl | cases hnone

theorem tick_calls (peer : Bytes) (x : Session) (now : UInt64) : calls s peer (x.tick now).2 = [] := by
  have hdata : Session.onData (x.tick now).2 = [] := by
    have hnone : Session.delivered (x.tick now).2 = [] := by
      rw [Session.delivered, List.filterMap_eq_nil_iff]
      intro o ho
      rcases List.mem_append.mp ho with ho | ho
      · split at ho
        · rw [List.mem_singleton.mp ho]
        · cases ho
      · obtain ⟨m, -, rfl⟩ := List.mem_map.mp ho
        rfl
    rw [Session.onData, hnone]
    rfl
  rw [calls, hdata]
  split <;> rfl

def tickOne (env : Env) (now : UInt64) (peer : Bytes) : Action := fun s =>
  match s.sessions[peer]? with
  | some _ => withSession env peer (fun x => x.tick now) s
  | none => (s, [])

theorem tickOne_sessions (env : Env) (now : UInt64) (peer v : Bytes) (s : P2PClient) :
    (tickOne env now peer s).1.sessions[v]? =
      if v = peer then (s.sessions[v]?).map (fun x => (x.tick now).1) else s.sessions[v]? := by
  unfold tickOne
  cases hx : s.sessions[peer]? with
  | none =>
    change s.sessions[v]? = _
    split
    · rename_i hv
      rw [hv, hx, Option.map_none]
    · rfl
  | some x =>
    have hfor : sessionFor peer s = (x, s) := by rw [sessionFor, hx]
    change (withSession env peer (fun x => x.tick now) s).1.sessions[v]? = _
    rw [withSession_sessions, hfor, TreeMaps.insert_get]
    split
    · rename_i hv
      rw [hv, hx, Option.map_some]
    · rfl

theorem tickOne_messages (env : Env) (now : UInt64) (peer : Bytes) (s : P2PClient) :
    messages (tickOne env now peer s).2 = [] := by
  unfold tickOne
  split
  · rw [(withSession_spec env peer _ s).2, tick_calls]
  · rfl

theorem tickOne_all (env : Env) (now : UInt64) {peers : List Bytes} (hnd : peers.Nodup) (s : P2PClient) :
    (forEach (tickOne env now) peers s).1.sessions[v]? =
        (if v ∈ peers then (s.sessions[v]?).map (fun x => (x.tick now).1) else s.sessions[v]?) ∧
      messages (forEach (tickOne env now) peers s).2 = [] := by
  induction peers generalizing s with
  | nil => exact ⟨rfl, rfl⟩
  | cons peer peers ih =>
    obtain ⟨hout, hrest⟩ := List.nodup_cons.mp hnd
    obtain ⟨hsessions, hmessages⟩ := ih hrest (tickOne env now peer s).1
    refine ⟨?_, ?_⟩
    · change (forEach (tickOne env now) peers (tickOne env now peer s).1).1.sessions[v]? = _
      rw [hsessions, tickOne_sessions]
      by_cases hv : v = peer
      · subst hv
        rw [if_neg hout, if_pos rfl, if_pos List.mem_cons_self]
      · rw [if_neg hv]
        simp only [List.mem_cons, hv, false_or]
    · rw [forEach, andThen, messages_append, tickOne_messages, hmessages]
      rfl

theorem tickSessions_sessions (env : Env) (now : UInt64) (v : Bytes) (s : P2PClient) :
    (tickSessions env now s).1.sessions[v]? = (s.sessions[v]?).map fun x => (x.tick now).1 := by
  change (forEach (tickOne env now) (env.sessionWalk.keys s.sessions) s).1.sessions[v]? = _
  rw [(tickOne_all env now TreeMaps.Walk.nodup_keys s).1]
  split
  · rfl
  · rename_i hv
    rw [TreeMaps.Walk.mem_keys, ← Std.ExtTreeMap.isSome_getElem?_iff_mem, Option.not_isSome_iff_eq_none] at hv
    rw [hv, Option.map_none]

/-- The step runs the operation `op` of the session with `v`, unless it closes the connection. -/
structure Plays (v : Bytes) (op : Session → Session) (s : P2PClient) (r : P2PClient × List Out) : Prop where
  unused : Unused v s → ∀ x, r.1.sessions[v]? = some x → ∃ id, x = op { sessionId := id }
  keeps : r.1.conns.contains v = true → ∀ x, s.sessions[v]? = some x → r.1.sessions[v]? = some (op x)
  quiet : ∀ o ∈ r.2, o.speaks v = false

theorem Sparing.plays (h : Sparing v s r) : Plays v id s r := ⟨h.1.unused, h.1.keeps, h.2⟩

theorem Quiet.plays (h : Quiet v s r) : Plays v id s r := Sparing.plays h.sparing

/-- A step of the timer adds no connection. -/
structure Timed (v : Bytes) (op : Session → Session) (s : P2PClient) (r : P2PClient × List Out) : Prop
    extends Plays v op s r where
  stays : r.1.conns.contains v = true → s.conns.contains v = true

variable {op : Session → Session}

theorem Timed.after (hf : Rounding v s (f s)) (hg : Timed v op (f s).1 (g (f s).1)) : Timed v op s (andThen f g s) where
  unused hu := hg.unused (hf.1.unused hu)
  keeps hc x hx := hg.keeps hc x (hf.1.keeps (hg.stays hc) x hx)
  quiet o ho := (mem_andThen.mp ho).elim (hf.2 o) (hg.quiet o)
  stays hc := hf.1.stays (hg.stays hc)

theorem tickSessions_timed (env : Env) (now : UInt64) : Timed v (fun x => (x.tick now).1) s (tickSessions env now s) where
  unused hu x hx := by
    rw [tickSessions_sessions] at hx
    obtain ⟨y, hy, rfl⟩ := Option.map_eq_some_iff.mp hx
    obtain ⟨id, rfl⟩ := hu y hy
    exact ⟨id, rfl⟩
  keeps _ x hx := by rw [tickSessions_sessions, hx, Option.map_some]
  quiet := speaks_of_messages (tickOne_all (v := v) env now TreeMaps.Walk.nodup_keys s).2
  stays hc := by rwa [((tickSessions_made now).links rfl).1] at hc

theorem tick_timed (env : Env) (now : UInt64) : Timed v (fun x => (x.tick now).1) s (tick env now s) := by
  refine .after ((tickHeartbeat_made now).rounding rfl) (.after ((tickAuth_made now).rounding rfl) ?_)
  refine .after ((tickNatDetect_made now).rounding rfl) (.after ((tickRelay_made now).rounding rfl) ?_)
  exact .after ((tickConnections_made now).rounding rfl) (tickSessions_timed env now)

/-- The event brings no frame of `v`, and it ends neither the client nor its connection with `v`. -/
def Event.Local (v : Bytes) (s : P2PClient) : Event → Prop
  | .start _ => False
  | .stop => False
  | .disconnect peer => peer ≠ v
  | .packet m len src => (∀ p, protoOf m len = some (msgProxyRelayData, p) → uuidAt p 0 ≠ v) ∧
      (protoOf m len = none → s.addrToPeer[addrKey src]? ≠ some v)
  | .juiceRecv key _ _ => ∀ c, s.conns[key]? = some c → c.peerUuid ≠ v
  | _ => True

/-- The operation of the session with `v` that the event asks for. -/
def played (v : Bytes) (env : Env) (s : P2PClient) (e : Event) (x : Session) : Session × List Session.Out :=
  match e with
  | .tick now => x.tick now
  | .send peer channel data reliable =>
    if peer = v ∧ (s.conns[v]?).any (·.connected) then (x.send channel data reliable env.now).2 else (x, [])
  | _ => (x, [])

theorem withSession_plays (env : Env) (op : Session → Session × List Session.Out)
    (hquiet : ∀ x, calls s v (op x).2 = []) : Plays v (fun x => (op x).1) s (withSession env v op s) := by
  obtain ⟨hsession, hmessages⟩ := withSession_spec env v op s
  rw [hquiet] at hmessages
  refine ⟨fun hu x hx => ?_, fun _ x hx => ?_, fun o ho => speaks_of_messages hmessages o ho⟩
  · rw [hsession] at hx
    obtain rfl := Option.some.inj hx
    cases hs : s.sessions[v]? with
    | none => exact ⟨s.nextSessionId, by rw [sessionFor, hs]⟩
    | some y =>
      obtain ⟨id, rfl⟩ := hu y hs
      exact ⟨id, by rw [sessionFor, hs]⟩
  · rw [hsession, sessionFor, hx]

theorem send_calls (peer : Bytes) (x : Session) (ch : UInt8) (data : Bytes) (reliable : Bool) (now : UInt64) :
    calls s peer (x.send ch data reliable now).2.2 = [] := by
  rcases Session.send_cases x ch data reliable now with ⟨r, -, he⟩ | ⟨-, -, he⟩ | ⟨-, -, -, he⟩ <;>
    rw [he, calls] <;> split <;> rfl

theorem send_plays (env : Env) (peer : Bytes) (channel : UInt8) (data : Bytes) (reliable : Bool) :
    Plays v (fun x => (played v env s (.send peer channel data reliable) x).1) s
      (send env peer channel data reliable s).2 := by
  have hidle (h : ¬(peer = v ∧ (s.conns[v]?).any (·.connected) = true)) :
      (fun x => (played v env s (.send peer channel data reliable) x).1) = id := by
    funext x
    rw [played, if_neg h]
    rfl
  unfold send
  cases hc : s.conns[peer]? with
  | none =>
    rw [hidle (by rintro ⟨rfl, h⟩; simp [hc] at h)]
    exact Quiet.plays .nothing
  | some c =>
    cases hconn : c.connected with
    | false =>
      rw [hidle (by rintro ⟨rfl, h⟩; simp [hc, hconn] at h)]
      simp only [hconn, Bool.not_false, if_true]
      exact Quiet.plays .nothing
    | true =>
      simp only [hconn, Bool.not_true, Bool.false_eq_true, if_false]
      by_cases hpeer : peer = v
      · subst hpeer
        have hplayed (x : Session) : played peer env s (.send peer channel data reliable) x =
            (x.send channel data reliable env.now).2 := by
          rw [played, if_pos ⟨rfl, by simp [hc, hconn]⟩]
        simp only [hplayed]
        exact withSession_plays env _ fun x => send_calls peer x channel data reliable env.now
      · rw [hidle fun h => hpeer h.1]
        exact Quiet.plays (withSession_quiet env hpeer _)

/-- What an event that brings no frame of `v` does to the session with `v`. -/
theorem step_plays {env : Env} {e : Event} (h : e.Local v s) :
    Plays v (fun x => (played v env s e x).1) s (step env e s) := by
  cases e with
  | start cfg => exact h.elim
  | stop => exact h.elim
  | tick now => exact (tick_timed env now).toPlays
  | packet m len src => exact Sparing.plays (handlePacket_sparing env h.1 h.2)
  | disconnect peer => exact Sparing.plays (disconnect_sparing env peer)
  | send peer channel data reliable => exact send_plays env peer channel data reliable
  | worker | connect | juiceState | juiceCandidate | juiceGatheringDone | orphan =>
    exact ((step_made (by simp) (by simp)).quiet rfl).plays
  | juiceRecv key m len =>
    refine Quiet.plays ?_
    change Quiet v s (onJuiceRecv env key m len s)
    unfold onJuiceRecv
    split
    · exact .nothing
    · rename_i c hc
      split
      · exact .nothing
      · exact onTunnelFrame_quiet env (h c hc) m len

end P2PServer.P2PClient
