import P2PServer.ConnNames

/-! One round over the connections. `close_conn` erases the entry on which the loop stands, while
the rest of the round goes on with it. -/
namespace P2PServer.P2PClient
open ByteStrings ProtoDef Net Codec Crypto Effects Transitions

/-- The three parts of the work on a connection. -/
inductive Sub
  | punch
  | relay
  | fsm
  deriving DecidableEq, Repr

/-- The loop reaches an entry, runs a part on it while it is in the table or not, and puts out. -/
inductive Mark
  | visit (key : Bytes)
  | run (sub : Sub) (key : Bytes) (present : Bool)
  | out (o : Out)
  deriving DecidableEq, Repr

abbrev Round := Eff P2PClient Mark

def closeWith (text : Bytes) (c : Conn) : Action :=
  andThen (onError (ascii "connect " ++ c.peerUuid ++ text)) (closeConn c)

/-- The whole of `tick_conn_punch`. -/
def connPunch (now : UInt64) (key : Bytes) : Action :=
  andThen (tickConnPunch now key) fun s =>
    if punchExpired s.cfg now (connAt s key) then
      closeWith (ascii ": server no response") (connAt s key) s
    else (s, [])

/-- The whole of `tick_conn_relay`. -/
def connRelay (env : Env) (now : UInt64) (key : Bytes) : Action := fun s =>
  if !(s.cfg.forceRelay || directFailed now (connAt s key)) then (s, [])
  else
    andThen (registerForConn now key) (fun s =>
      let c := connAt s key
      if s.cfg.autoRelay && !s.relay.proxies.isEmpty && now ≥ c.relay.nextRelayPing then
        pingRelay env now key s
      else if !s.cfg.forceRelay && (!s.cfg.autoRelay || s.relay.proxies.isEmpty) &&
          directFailed now c then
        closeWith (ascii ": no relay, direct failed") c s
      else (s, [])) s

/-- What a part would do to an erased connection is left open. -/
def runSub (sub : Sub) (key : Bytes) (f : Action) : Round := fun s =>
  let present := s.conns.contains key
  let r := if present then f s else (s, [])
  (r.1, .run sub key present :: r.2.map .out)

def connParts (env : Env) (now : UInt64) (key : Bytes) : Round :=
  andThen (runSub .punch key (connPunch now key))
    (andThen (runSub .relay key (connRelay env now key)) (runSub .fsm key (tickConnFsm key)))

def visit (env : Env) (now : UInt64) (key : Bytes) : Round := fun s =>
  let c := connAt s key
  let r := if !c.connecting || c.connected then (s, []) else connParts env now key s
  (r.1, .visit key :: r.2)

/-- The loop of `tick_connections` in the order of the table. It ends at an entry that was
erased, since no iterator leads on from there. -/
def round (env : Env) (now : UInt64) : List Bytes → Round
  | [] => skip
  | key :: rest =>
    andThen (visit env now key) fun s => if s.conns.contains key then round env now rest s else (s, [])

/-- The direct path failed without a relay, or the peer's address never came. -/
def closes (now : UInt64) (c : Conn) (s : P2PClient) : Bool :=
  punchExpired s.cfg now c ||
    (!s.cfg.forceRelay && (!s.cfg.autoRelay || s.relay.proxies.isEmpty) && directFailed now c)

def visited (marks : List Mark) : List Bytes :=
  marks.filterMap fun
    | .visit key => some key
    | _ => none

/-- Every part runs on a connection of the table, every connection is reached once and in turn,
and no uuid is taken from an erased connection. -/
structure Orderly (order : List Bytes) (marks : List Mark) : Prop where
  present : ∀ sub key present, .run sub key present ∈ marks → present = true
  once : visited marks = order
  told : ∀ peer, .out (.erasedUse peer) ∉ marks

def Out.isErased : Out → Bool
  | .erasedUse _ => true
  | _ => false

/-- A step that works on the connection `key` and leaves it in the table. -/
structure Tends (key : Bytes) (s s' : P2PClient) : Prop where
  cfg : s'.cfg = s.cfg
  proxies : s'.relay.proxies = s.relay.proxies
  others : ∀ k, k ≠ key → s'.conns[k]? = s.conns[k]?
  here : s.conns.contains key = true → s'.conns.contains key = true
  peer : (connAt s' key).peerUuid = (connAt s key).peerUuid
  haveDirect : (connAt s' key).punch.haveDirect = (connAt s key).punch.haveDirect
  directOk : (connAt s' key).punch.directOk = (connAt s key).punch.directOk
  deadline : (connAt s' key).punch.punchDeadline = (connAt s key).punch.punchDeadline

instance (key : Bytes) : Std.Refl (Tends key) :=
  ⟨fun _ => ⟨rfl, rfl, fun _ _ => rfl, id, rfl, rfl, rfl, rfl⟩⟩

instance (key : Bytes) : IsTrans P2PClient (Tends key) where
  trans _ _ _ h g := ⟨g.cfg.trans h.cfg, g.proxies.trans h.proxies,
    fun k hk => (g.others k hk).trans (h.others k hk), g.here ∘ h.here, g.peer.trans h.peer,
    g.haveDirect.trans h.haveDirect, g.directOk.trans h.directOk, g.deadline.trans h.deadline⟩

abbrev Careful (key : Bytes) (s : P2PClient) (r : P2PClient × List Out) : Prop :=
  Within (Tends key) (fun o => o.isErased = false) s r

variable {s s' : P2PClient} {key : Bytes} {now : UInt64}

theorem setConn_tends {c : Conn} (hp : c.peerUuid = (connAt s key).peerUuid)
    (hh : c.punch.haveDirect = (connAt s key).punch.haveDirect)
    (ho : c.punch.directOk = (connAt s key).punch.directOk)
    (hd : c.punch.punchDeadline = (connAt s key).punch.punchDeadline) : Tends key s (setConn key c s) where
  cfg := rfl
  proxies := rfl
  others k hk := by
    rw [setConn, TreeMaps.insert_get, if_neg hk]
  here _ := by
    rw [setConn, Std.ExtTreeMap.contains_insert_self]
  peer := by rw [connAt_setConn, hp]
  haveDirect := by rw [connAt_setConn, hh]
  directOk := by rw [connAt_setConn, ho]
  deadline := by rw [connAt_setConn, hd]

theorem Tends.kept (hcfg : s'.cfg = s.cfg) (hproxies : s'.relay.proxies = s.relay.proxies)
    (hconns : s'.conns = s.conns) : Tends key s s' := by
  have hat : connAt s' key = connAt s key := by rw [connAt, hconns, ← connAt]
  constructor <;> simp [hcfg, hproxies, hconns, hat]

theorem sessionFor_tends (peer : Bytes) : Tends key s (sessionFor peer s).2 := by
  unfold sessionFor
  split
  · exact Std.Refl.refl s
  · exact .kept rfl rfl rfl

theorem sendTunnelVia_careful (env : Env) (c : Conn) (frame : Bytes) :
    Careful key s (sendTunnelVia env c frame s) := by
  refine ⟨?_, fun o ho => ?_⟩
  · obtain ⟨x, hx⟩ := sendTunnelVia_state env c frame s
    rw [hx]
    exact .kept rfl rfl rfl
  · have ht := sendTunnelVia_traffic env c frame s o ho
    cases o <;> first | rfl | cases ht

theorem sendProto_careful (dst : Addr) (msgId : UInt8) (payload : Bytes) :
    Careful key s (sendProto dst msgId payload s) := by
  unfold sendProto
  split
  · exact .nothing
  · refine ⟨Std.Refl.refl s, fun o ho => ?_⟩
    rw [List.mem_singleton.mp ho]
    rfl

theorem relayRegister_careful : Careful key s (relayRegister s) := by
  unfold relayRegister
  split
  · exact .nothing
  · exact sendProto_careful _ _ _

theorem tickConnPunch_careful (now : UInt64) : Careful key s (tickConnPunch now key s) := by
  unfold tickConnPunch doPunch
  dsimp only
  split
  · have hd : Careful key s (if (connAt s key).punch.juice then (s, [])
        else ((sessionFor (connAt s key).peerUuid s).2, [])) := by
      split
      · exact .nothing
      · exact .state (sessionFor_tends _)
    refine .andThen hd (.state ?_)
    exact setConn_tends hd.1.peer.symm hd.1.haveDirect.symm hd.1.directOk.symm hd.1.deadline.symm
  · exact .nothing

theorem registerForConn_careful (now : UInt64) : Careful key s (registerForConn now key s) := by
  unfold registerForConn
  split
  · refine .andThen relayRegister_careful (.state ?_)
    have hset : Tends key (relayRegister s).1 (setConn key { connAt (relayRegister s).1 key with
        backoffAttempt := (connAt (relayRegister s).1 key).backoffAttempt + 1 } (relayRegister s).1) :=
      setConn_tends rfl rfl rfl rfl
    exact IsTrans.trans _ _ _ hset (Tends.kept rfl rfl rfl)
  · exact .nothing

theorem pingRelay_careful (env : Env) (now : UInt64) : Careful key s (pingRelay env now key s) := by
  have hsend : Careful key s (sendControl env ttPing (connAt s key) s) := by
    unfold sendControl
    exact .after (sessionFor_tends _) (sendTunnelVia_careful env _ _)
  exact .andThen hsend (.state (setConn_tends rfl rfl rfl rfl))

theorem tickConnFsm_careful : Careful key s (tickConnFsm key s) := by
  unfold tickConnFsm
  dsimp only
  split
  · refine ⟨setConn_tends rfl rfl rfl rfl, fun o ho => ?_⟩
    split at ho
    · rw [List.mem_singleton.mp ho]
      rfl
    · cases ho
  · exact .nothing

theorem Tends.punchExpired (h : Tends key s s') (now : UInt64) :
    punchExpired s'.cfg now (connAt s' key) = punchExpired s.cfg now (connAt s key) := by
  unfold P2PClient.punchExpired
  rw [h.cfg, h.haveDirect, h.deadline]

theorem Tends.directFailed (h : Tends key s s') (now : UInt64) :
    directFailed now (connAt s' key) = directFailed now (connAt s key) := by
  unfold P2PClient.directFailed
  rw [h.haveDirect, h.deadline, h.directOk]

theorem closeWith_gone {c : Conn} (hc : c.peerUuid = key) (text : Bytes) :
    (closeWith text c s).1.conns.contains key = false := by
  have h : (closeWith text c s).1.conns = s.conns.erase c.peerUuid := rfl
  rw [h, hc]
  simp

theorem connPunch_careful (h : punchExpired s.cfg now (connAt s key) = false) :
    Careful key s (connPunch now key s) := by
  have hp : Careful key s (tickConnPunch now key s) := tickConnPunch_careful now
  refine .andThen hp ?_
  rw [hp.1.punchExpired, h]
  exact .nothing

theorem connPunch_gone (hpeer : (connAt s key).peerUuid = key)
    (h : punchExpired s.cfg now (connAt s key) = true) :
    (connPunch now key s).1.conns.contains key = false := by
  have hp : Careful key s (tickConnPunch now key s) := tickConnPunch_careful now
  simp only [connPunch, andThen]
  rw [hp.1.punchExpired, h]
  exact closeWith_gone (hp.1.peer.trans hpeer) _

/-- The second way to close is not taken. -/
def Reaches (now : UInt64) (key : Bytes) (s : P2PClient) : Prop :=
  (!s.cfg.forceRelay && (!s.cfg.autoRelay || s.relay.proxies.isEmpty) && directFailed now (connAt s key)) = false

theorem connRelay_careful (env : Env) (h : Reaches now key s) : Careful key s (connRelay env now key s) := by
  unfold connRelay
  split
  · exact .nothing
  · have hr : Careful key s (registerForConn now key s) := registerForConn_careful now
    refine .andThen hr ?_
    dsimp only
    split
    · exact pingRelay_careful env now
    · rw [hr.1.directFailed, hr.1.cfg, hr.1.proxies, h]
      exact .nothing

theorem connRelay_gone (env : Env) (hpeer : (connAt s key).peerUuid = key) (h : ¬Reaches now key s) :
    (connRelay env now key s).1.conns.contains key = false := by
  rw [Reaches, Bool.not_eq_false] at h
  have hr : Careful key s (registerForConn now key s) := registerForConn_careful now
  have hparts := h
  simp only [Bool.and_eq_true, Bool.not_eq_true', Bool.or_eq_true] at hparts
  obtain ⟨⟨hforce, hnone⟩, hfailed⟩ := hparts
  have hneed : (!(s.cfg.forceRelay || directFailed now (connAt s key))) = false := by
    rw [hfailed, Bool.or_true, Bool.not_true]
  have hping : (s.cfg.autoRelay && !s.relay.proxies.isEmpty) = false := by
    rcases hnone with h | h <;> simp [h]
  simp only [connRelay, hneed, andThen, hr.1.directFailed, hr.1.cfg, hr.1.proxies, h, hping, Bool.false_and]
  exact closeWith_gone (hr.1.peer.trans hpeer) _

@[simp] theorem visited_append (a b : List Mark) : visited (a ++ b) = visited a ++ visited b :=
  List.filterMap_append

theorem orderly_nil : Orderly [] [] :=
  ⟨fun _ _ _ hm => absurd hm List.not_mem_nil, rfl, fun _ hm => absurd hm List.not_mem_nil⟩

theorem orderly_append {a b : List Mark} {order : List Bytes} (ha : Orderly [key] a) :
    Orderly (key :: order) (a ++ b) ↔ Orderly order b := by
  constructor
  · intro h
    refine ⟨fun sub k p hm => h.present sub k p (List.mem_append_right a hm), ?_,
      fun peer hm => h.told peer (List.mem_append_right a hm)⟩
    have honce := h.once
    rw [visited_append, ha.once] at honce
    exact (List.cons.inj honce).2
  · intro h
    refine ⟨fun sub k p hm => ?_, ?_, fun peer hm => ?_⟩
    · exact (List.mem_append.mp hm).elim (ha.present sub k p) (h.present sub k p)
    · rw [visited_append, ha.once, h.once]
      rfl
    · exact (List.mem_append.mp hm).elim (ha.told peer) (h.told peer)

theorem Orderly.append {a b : List Mark} (ha : Orderly [] a) (hb : Orderly [] b) : Orderly [] (a ++ b) := by
  refine ⟨fun sub k p hm => ?_, ?_, fun peer hm => ?_⟩
  · exact (List.mem_append.mp hm).elim (ha.present sub k p) (hb.present sub k p)
  · rw [visited_append, ha.once, hb.once, List.append_nil]
  · exact (List.mem_append.mp hm).elim (ha.told peer) (hb.told peer)

theorem orderly_out {outs : List Out} (h : ∀ o ∈ outs, o.isErased = false) : Orderly [] (outs.map .out) := by
  refine ⟨fun sub k p hm => ?_, ?_, fun peer hm => ?_⟩
  · obtain ⟨o, -, ho⟩ := List.mem_map.mp hm
    cases ho
  · rw [visited, List.filterMap_map, List.filterMap_eq_nil_iff]
    exact fun o _ => rfl
  · obtain ⟨o, ho, heq⟩ := List.mem_map.mp hm
    have herased := h o ho
    cases heq
    cases herased

theorem runSub_careful (sub : Sub) {f : Action} (hin : s.conns.contains key = true)
    (hf : Careful key s (f s)) : (runSub sub key f s).1 = (f s).1 ∧ Orderly [] (runSub sub key f s).2 := by
  have hrun : runSub sub key f s = ((f s).1, .run sub key true :: (f s).2.map .out) := by
    simp only [runSub, hin, if_true]
  have hone : Orderly [] [Mark.run sub key true] := by
    refine ⟨fun sub' k p hm => ?_, rfl, fun peer hm => ?_⟩
    · cases List.mem_singleton.mp hm
      rfl
    · cases List.mem_singleton.mp hm
  rw [hrun]
  exact ⟨rfl, hone.append (orderly_out hf.2)⟩

theorem connParts_careful (env : Env) (hin : s.conns.contains key = true)
    (h : closes now (connAt s key) s = false) :
    Tends key s (connParts env now key s).1 ∧ Orderly [] (connParts env now key s).2 := by
  rw [closes, Bool.or_eq_false_iff] at h
  have hp := connPunch_careful h.1
  obtain ⟨hps, hpm⟩ := runSub_careful .punch hin hp
  have hin₁ := hp.1.here hin
  have hreach : Reaches now key (connPunch now key s).1 := by
    rw [Reaches, hp.1.cfg, hp.1.proxies, hp.1.directFailed]
    exact h.2
  have hr := connRelay_careful env hreach
  obtain ⟨hrs, hrm⟩ := runSub_careful .relay hin₁ hr
  have hf : Careful key _ (tickConnFsm key (connRelay env now key (connPunch now key s).1).1) :=
    tickConnFsm_careful
  obtain ⟨hfs, hfm⟩ := runSub_careful .fsm (hr.1.here hin₁) hf
  simp only [connParts, andThen, hps, hrs, hfs]
  exact ⟨IsTrans.trans _ _ _ hp.1 (IsTrans.trans _ _ _ hr.1 hf.1), hpm.append (hrm.append hfm)⟩

def Dangles (key : Bytes) (marks : List Mark) : Prop := ∃ sub, .run sub key false ∈ marks

theorem Dangles.not_orderly {order : List Bytes} {marks : List Mark} (h : Dangles key marks) :
    ¬Orderly order marks := by
  obtain ⟨sub, hm⟩ := h
  intro ho
  cases ho.present sub key false hm

theorem runSub_gone {sub : Sub} {f : Action} (h : s.conns.contains key = false) :
    (.run sub key false : Mark) ∈ (runSub sub key f s).2 := by
  simp [runSub, h]

theorem connParts_dangles (env : Env) (hin : s.conns.contains key = true)
    (hpeer : (connAt s key).peerUuid = key) (h : closes now (connAt s key) s = true) :
    Dangles key (connParts env now key s).2 := by
  have hpunch : (runSub .punch key (connPunch now key) s).1 = (connPunch now key s).1 := by
    simp only [runSub, hin, if_true]
  simp only [connParts, andThen, hpunch]
  cases hexp : punchExpired s.cfg now (connAt s key) with
  | true =>
    exact ⟨.relay, List.mem_append_right _ (List.mem_append_left _ (runSub_gone (connPunch_gone hpeer hexp)))⟩
  | false =>
    have hp := connPunch_careful hexp
    have hreach : ¬Reaches now key (connPunch now key s).1 := by
      rw [closes, hexp, Bool.false_or] at h
      rw [Reaches, hp.1.cfg, hp.1.proxies, hp.1.directFailed, h]
      decide
    have hrelay : (runSub .relay key (connRelay env now key) (connPunch now key s).1).1 =
        (connRelay env now key (connPunch now key s).1).1 := by
      simp only [runSub, hp.1.here hin, if_true]
    refine ⟨.fsm, List.mem_append_right _ (List.mem_append_right _ (runSub_gone ?_))⟩
    rw [hrelay]
    exact connRelay_gone env (hp.1.peer.trans hpeer) hreach

/-- The round works on the connection and closes it. -/
def Closing (now : UInt64) (s : P2PClient) (c : Conn) : Prop :=
  c.connecting = true ∧ c.connected = false ∧ closes now c s = true

theorem visit_orderly (env : Env) (hin : s.conns.contains key = true) (h : ¬Closing now s (connAt s key)) :
    Tends key s (visit env now key s).1 ∧ Orderly [key] (visit env now key s).2 := by
  have hreach {marks : List Mark} (hm : Orderly [] marks) : Orderly [key] (.visit key :: marks) := by
    have hone : Orderly [key] [Mark.visit key] := by
      refine ⟨fun sub k p hm => ?_, rfl, fun peer hm => ?_⟩ <;> cases List.mem_singleton.mp hm
    exact (orderly_append hone).mpr hm
  unfold visit
  dsimp only
  split
  · exact ⟨Std.Refl.refl s, hreach orderly_nil⟩
  · rename_i hwork
    simp only [Bool.or_eq_true, Bool.not_eq_true', not_or, Bool.not_eq_false, Bool.not_eq_true] at hwork
    have hstay : closes now (connAt s key) s = false := by
      rw [← Bool.not_eq_true]
      exact fun hc => h ⟨hwork.1, hwork.2, hc⟩
    obtain ⟨ht, hm⟩ := connParts_careful env hin hstay
    exact ⟨ht, hreach hm⟩

theorem visit_dangles (env : Env) (hin : s.conns.contains key = true) (hfits : (connAt s key).Fits key)
    (h : Closing now s (connAt s key)) : Dangles key (visit env now key s).2 := by
  obtain ⟨sub, hm⟩ := connParts_dangles env hin (hfits h.1) h.2.2
  refine ⟨sub, ?_⟩
  simp only [visit, h.1, h.2.1, Bool.not_true, Bool.or_self, Bool.false_eq_true, if_false]
  exact List.mem_cons_of_mem _ hm

section
variable {rest : List Bytes}

/-- What lies ahead is not changed by the work on one connection. -/
theorem Tends.ahead (h : Tends key s s') (now : UInt64) (hkey : key ∉ rest) {k : Bytes} (hk : k ∈ rest) :
    s'.conns.contains k = s.conns.contains k ∧ connAt s' k = connAt s k ∧
      (Closing now s' (connAt s' k) ↔ Closing now s (connAt s k)) := by
  have hsame := h.others k fun he => hkey (he ▸ hk)
  have hat : connAt s' k = connAt s k := by rw [connAt, hsame, ← connAt]
  refine ⟨?_, hat, ?_⟩
  · rw [Std.ExtTreeMap.contains_eq_isSome_getElem?, hsame, ← Std.ExtTreeMap.contains_eq_isSome_getElem?]
  · unfold Closing P2PClient.closes
    rw [hat, h.cfg, h.proxies]

theorem Tends.later (h : Tends key s s') (hkey : key ∉ rest)
    (hin : ∀ k ∈ rest, s.conns.contains k = true) (hc : ∀ k ∈ rest, ¬Closing now s (connAt s k)) :
    (∀ k ∈ rest, s'.conns.contains k = true) ∧ ∀ k ∈ rest, ¬Closing now s' (connAt s' k) :=
  ⟨fun k hk => (h.ahead now hkey hk).1.trans (hin k hk),
    fun k hk hcl => hc k hk ((h.ahead now hkey hk).2.2.mp hcl)⟩

theorem round_cons (env : Env) (h : (visit env now key s).1.conns.contains key = true) :
    round env now (key :: rest) s = ((round env now rest (visit env now key s).1).1,
      (visit env now key s).2 ++ (round env now rest (visit env now key s).1).2) := by
  simp only [round, andThen, h, if_true]

end

theorem round_iff (env : Env) (now : UInt64) {order : List Bytes} (hnd : order.Nodup)
    (hin : ∀ key ∈ order, s.conns.contains key = true) (hfits : ∀ key ∈ order, (connAt s key).Fits key) :
    Orderly order (round env now order s).2 ↔ ∀ key ∈ order, ¬Closing now s (connAt s key) := by
  induction order generalizing s with
  | nil => exact ⟨fun _ _ hk => absurd hk List.not_mem_nil,
      fun _ => orderly_nil⟩
  | cons key rest ih =>
    have hkey := hin key List.mem_cons_self
    by_cases hc : Closing now s (connAt s key)
    · obtain ⟨sub, hm⟩ := visit_dangles env hkey (hfits key List.mem_cons_self) hc
      have hd : Dangles key (round env now (key :: rest) s).2 := ⟨sub, List.mem_append_left _ hm⟩
      exact ⟨fun h => absurd h hd.not_orderly, fun h => absurd hc (h key List.mem_cons_self)⟩
    · obtain ⟨ht, hm⟩ := visit_orderly env hkey hc
      rw [List.nodup_cons] at hnd
      have hahead {k : Bytes} (hk : k ∈ rest) := ht.ahead now hnd.1 hk
      rw [round_cons env (ht.here hkey), orderly_append hm, ih hnd.2
        (fun k hk => (hahead hk).1.trans (hin k (List.mem_cons_of_mem key hk)))
        fun k hk => (hahead hk).2.1 ▸ hfits k (List.mem_cons_of_mem key hk)]
      constructor
      · intro h k hk
        rcases List.mem_cons.mp hk with rfl | hk
        · exact hc
        · exact fun hcl => h k hk ((hahead hk).2.2.mpr hcl)
      · exact fun h k hk hcl => h k (List.mem_cons_of_mem key hk) ((hahead hk).2.2.mp hcl)

def emitted (marks : List Mark) : List Out :=
  marks.filterMap fun
    | .out o => some o
    | _ => none

@[simp] theorem emitted_append (a b : List Mark) : emitted (a ++ b) = emitted a ++ emitted b :=
  List.filterMap_append

theorem runSub_emitted {sub : Sub} {f : Action} (hin : s.conns.contains key = true) :
    emitted (runSub sub key f s).2 = (f s).2 := by
  have hmap : emitted ((f s).2.map .out) = (f s).2 := by
    rw [emitted, List.filterMap_map]
    exact List.filterMap_some
  simp only [runSub, hin, if_true]
  exact hmap

theorem runSub_eq {sub : Sub} {f : Action} (hin : s.conns.contains key = true) :
    (runSub sub key f s).1 = (f s).1 := by
  simp only [runSub, hin, if_true]

theorem connParts_eq (env : Env) (hin : s.conns.contains key = true)
    (h : closes now (connAt s key) s = false) :
    ((connParts env now key s).1, emitted (connParts env now key s).2) =
      andThen (connPunch now key) (andThen (connRelay env now key) (tickConnFsm key)) s := by
  rw [closes, Bool.or_eq_false_iff] at h
  have hp := connPunch_careful h.1
  have hin₁ := hp.1.here hin
  have hreach : Reaches now key (connPunch now key s).1 := by
    rw [Reaches, hp.1.cfg, hp.1.proxies, hp.1.directFailed]
    exact h.2
  have hin₂ := (connRelay_careful env hreach).1.here hin₁
  simp only [connParts, andThen, runSub_eq hin, runSub_eq hin₁, runSub_eq hin₂, emitted_append,
    runSub_emitted hin, runSub_emitted hin₁, runSub_emitted hin₂]

/-- What follows the first part in `tickConn`. -/
theorem connRelay_fsm (env : Env) (h : Reaches now key s) :
    (if !(s.cfg.forceRelay || directFailed now (connAt s key)) then tickConnFsm key s
      else andThen (registerForConn now key) (fun s =>
        let c := connAt s key
        if s.cfg.autoRelay && !s.relay.proxies.isEmpty && now ≥ c.relay.nextRelayPing then
          andThen (pingRelay env now key) (tickConnFsm key) s
        else if !s.cfg.forceRelay && (!s.cfg.autoRelay || s.relay.proxies.isEmpty) &&
            directFailed now c then
          closeInRound (ascii ": no relay, direct failed") c s
        else tickConnFsm key s) s) =
      andThen (connRelay env now key) (tickConnFsm key) s := by
  by_cases hneed : (!(s.cfg.forceRelay || directFailed now (connAt s key))) = true
  · have hidle : connRelay env now key s = (s, []) := if_pos hneed
    rw [if_pos hneed, andThen, hidle]
    rfl
  · have hr : Careful key s (registerForConn now key s) := registerForConn_careful now
    have hstay : (!(registerForConn now key s).1.cfg.forceRelay && (!(registerForConn now key s).1.cfg.autoRelay ||
        (registerForConn now key s).1.relay.proxies.isEmpty) &&
        directFailed now (connAt (registerForConn now key s).1 key)) = false := by
      rw [hr.1.directFailed, hr.1.cfg, hr.1.proxies]
      exact h
    have hrelay : connRelay env now key s = andThen (registerForConn now key) (fun s =>
        if s.cfg.autoRelay && !s.relay.proxies.isEmpty && now ≥ (connAt s key).relay.nextRelayPing then
          pingRelay env now key s else (s, [])) s := by
      rw [connRelay, if_neg hneed, andThen, andThen]
      dsimp only
      rw [hstay, if_neg Bool.false_ne_true]
    rw [if_neg hneed]
    simp only [andThen, hrelay, hstay, Bool.false_eq_true, if_false]
    split <;> simp

/-- On a connection that stays, `tickConn` is the three parts in turn. -/
theorem tickConn_eq (env : Env) (h : closes now (connAt s key) s = false) :
    tickConn env now key s =
      andThen (connPunch now key) (andThen (connRelay env now key) (tickConnFsm key)) s := by
  rw [closes, Bool.or_eq_false_iff] at h
  have hp : Careful key s (tickConnPunch now key s) := tickConnPunch_careful now
  have hexp := hp.1.punchExpired now
  rw [h.1] at hexp
  have hreach : Reaches now key (tickConnPunch now key s).1 := by
    rw [Reaches, hp.1.cfg, hp.1.proxies, hp.1.directFailed]
    exact h.2
  have hpunch : connPunch now key s = tickConnPunch now key s := by
    rw [connPunch, andThen, hexp]
    simp
  refine andThen_congr hpunch.symm ?_
  dsimp only
  rw [hexp, if_neg Bool.false_ne_true]
  exact connRelay_fsm env hreach

theorem visit_emitted (env : Env) (hin : s.conns.contains key = true) (h : ¬Closing now s (connAt s key)) :
    ((visit env now key s).1, emitted (visit env now key s).2) =
      if !(connAt s key).connecting || (connAt s key).connected then (s, []) else tickConn env now key s := by
  have hmark (marks : List Mark) : emitted (.visit key :: marks) = emitted marks := rfl
  unfold visit
  dsimp only
  rw [hmark]
  split
  · rfl
  · rename_i hwork
    simp only [Bool.or_eq_true, Bool.not_eq_true', not_or, Bool.not_eq_false, Bool.not_eq_true] at hwork
    have hstay : closes now (connAt s key) s = false := by
      rw [← Bool.not_eq_true]
      exact fun hc => h ⟨hwork.1, hwork.2, hc⟩
    rw [connParts_eq env hin hstay, tickConn_eq env hstay]

theorem connLoop_cons (env : Env) (now : UInt64) (rest : List Bytes) (hin : s.conns.contains key = true) :
    connLoop env now (key :: rest) s =
      andThen (fun s => if !(connAt s key).connecting || (connAt s key).connected then (s, []) else tickConn env now key s)
        (fun s => if s.conns.contains key || env.resumes then connLoop env now rest s else (s, [])) s := by
  rw [connLoop]
  simp only [get_of_contains hin, andThen]

theorem connLoop_idle (env : Env) (now : UInt64) (rest : List Bytes) (hin : s.conns.contains key = true)
    (h : (!(connAt s key).connecting || (connAt s key).connected) = true) :
    connLoop env now (key :: rest) s = connLoop env now rest s := by
  rw [connLoop_cons env now rest hin, andThen]
  rw [if_pos h, hin, Bool.true_or, if_pos rfl]
  rfl

theorem connLoop_work (env : Env) (now : UInt64) (rest : List Bytes) (hin : s.conns.contains key = true)
    (h : (!(connAt s key).connecting || (connAt s key).connected) = false) :
    connLoop env now (key :: rest) s = andThen (tickConn env now key)
      (fun s => if s.conns.contains key || env.resumes then connLoop env now rest s else (s, [])) s := by
  rw [connLoop_cons env now rest hin, andThen, andThen, h]
  rfl

theorem round_eq (env : Env) (now : UInt64) {order : List Bytes} (hnd : order.Nodup)
    (hin : ∀ key ∈ order, s.conns.contains key = true)
    (h : ∀ key ∈ order, ¬Closing now s (connAt s key)) :
    connLoop env now order s = ((round env now order s).1, emitted (round env now order s).2) := by
  induction order generalizing s with
  | nil => rfl
  | cons key rest ih =>
    have hkey := hin key List.mem_cons_self
    have hc := h key List.mem_cons_self
    obtain ⟨ht, -⟩ := visit_orderly env hkey hc
    rw [List.nodup_cons] at hnd
    obtain ⟨hin', h'⟩ := ht.later hnd.1 (fun k hk => hin k (List.mem_cons_of_mem key hk))
      fun k hk => h k (List.mem_cons_of_mem key hk)
    have hstays := ht.here hkey
    rw [round_cons env hstays, connLoop_cons env now rest hkey, andThen, ← visit_emitted env hkey hc]
    dsimp only
    rw [hstays, Bool.true_or, if_pos rfl, ih hnd.2 hin' h', emitted_append]

/-- A round that closes nothing is the step of the client. -/
theorem tickConnections_round (env : Env) (now : UInt64)
    (h : ∀ (key : Bytes) (c : Conn), s.conns[key]? = some c → ¬Closing now s c) :
    tickConnections env now s =
      ((round env now (env.connWalk.keys s.conns) s).1, emitted (round env now (env.connWalk.keys s.conns) s).2) := by
  have hin : ∀ k ∈ env.connWalk.keys s.conns, s.conns.contains k = true := fun k hk =>
    Std.ExtTreeMap.mem_iff_contains.mp (TreeMaps.Walk.mem_keys.mp hk)
  exact round_eq env now TreeMaps.Walk.nodup_keys hin fun k hk => h k _ (get_of_contains (hin k hk))

/-- Exactly when a round does not close a connection does it keep to the connections of the table,
in whatever order the table is walked. -/
theorem round_orderly_iff (h : Reachable client s) (env : Env) (now : UInt64) {order : List Bytes}
    (ho : order.Perm s.conns.keys) : Orderly order (round env now order s).2 ↔
      ∀ (key : Bytes) (c : Conn), s.conns[key]? = some c → ¬Closing now s c := by
  have hmem (k : Bytes) : k ∈ order ↔ k ∈ s.conns := by
    rw [ho.mem_iff, Std.ExtTreeMap.mem_keys]
  have hnd : order.Nodup := ho.nodup_iff.mpr Std.ExtTreeMap.nodup_keys
  have hin : ∀ k ∈ order, s.conns.contains k = true := fun k hk =>
    Std.ExtTreeMap.mem_iff_contains.mp ((hmem k).mp hk)
  rw [round_iff env now hnd hin fun k _ => (named_reachable h).connAt k]
  constructor
  · intro hno k c hk
    have hk' : k ∈ order := (hmem k).mpr (Std.ExtTreeMap.mem_iff_isSome_getElem?.mpr (by rw [hk]; rfl))
    have hat : connAt s k = c := by rw [connAt, hk]; rfl
    exact hat ▸ hno k hk'
  · intro hno k hk
    obtain ⟨c, hc⟩ := Option.isSome_iff_exists.mp (Std.ExtTreeMap.mem_iff_isSome_getElem?.mp ((hmem k).mp hk))
    have hat : connAt s k = c := by rw [connAt, hc]; rfl
    exact hat ▸ hno k c hc

def dialConfig : Config := { uuid := [0x75], natServers := [⟨inetNtop 0x0A000009, 4000⟩] }

def dialing : P2PClient :=
  client.next (client.next { cfg := dialConfig } ({}, .start dialConfig)) ({}, .connect [0x76])

theorem dialing_reachable : Reachable client dialing :=
  Reach.step (S := client) (.step (.start ⟨_, _, rfl⟩) trivial trivial) trivial trivial

theorem round_orderly_dialing : Orderly dialing.conns.keys (round {} 100 dialing.conns.keys dialing).2 := by
  refine (round_orderly_iff dialing_reachable {} 100 (.refl _)).mpr fun key c hk hc => ?_
  have hstays : dialing.conns.toList.all (fun kc => !closes 100 kc.2 dialing) = true := by decide +kernel
  have hkc := List.all_eq_true.mp hstays _ (Std.ExtTreeMap.mem_toList_iff_getElem?_eq_some.mpr hk)
  rw [hc.2.2] at hkc
  cases hkc

/-- After the second timeout the relay part runs on the connection that the first part closed. -/
theorem round_not_orderly : ¬∀ s, Reachable client s → ∀ env now order, order.Perm s.conns.keys →
    Orderly order (round env now order s).2 := by
  intro h
  have hmark : (.run .relay [0x76] false : Mark) ∈ (round {} 12000 dialing.conns.keys dialing).2 := by
    decide +kernel
  cases (h dialing dialing_reachable {} 12000 _ (.refl _)).present _ _ _ hmark

end P2PServer.P2PClient
