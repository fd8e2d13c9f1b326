import P2PServer.ConnWiring
import P2PServer.Tracking

/-! The order of the callbacks. For every peer `on_connected` and `on_disconnected` tell whether the
connection is up: it is not reported twice without a report in between that it is gone. The name of a
connection that was just erased is read as it was. -/
namespace P2PServer.P2PClient
open ByteStrings ProtoDef Net Codec Crypto Effects Transitions Tracking

/-- What an application learns of its peers from the calls. `none` is a connection that is reported
while it is up. -/
def heard (up : Bytes → Bool) : Out → Option (Bytes → Bool)
  | .connected peer _ => if up peer then none else some (Function.update up peer true)
  | .disconnected peer => some (Function.update up peer false)
  | _ => some up

def Out.callback : Out → Bool
  | .connected .. => true
  | .disconnected _ => true
  | _ => false

theorem heard_other {o : Out} (h : o.callback = false) (up : Bytes → Bool) : heard up o = some up := by
  cases o with
  | connected => cases h
  | disconnected => cases h
  | _ => rfl

def isUp (s : P2PClient) (peer : Bytes) : Bool := (connAt s peer).connected

/-- Every connection is filed under its peer, every known address is one of a connection, and the
application wants both calls. -/
structure Linked (s : P2PClient) : Prop where
  named : ∀ (key : Bytes) (c : Conn), s.conns[key]? = some c → c.peerUuid = key
  known : ∀ (a : UInt64) (peer : Bytes), s.addrToPeer[a]? = some peer → s.conns.contains peer = true
  onConnected : s.callbacks.onConnected = true
  onDisconnected : s.callbacks.onDisconnected = true

/-- The result is linked, and its calls tell what becomes of the connections. -/
abbrev Tells (s : P2PClient) (r : P2PClient × List Out) : Prop := Tracks Linked heard isUp s r

variable {s : P2PClient} {r : P2PClient × List Out} {key : Bytes} {c c' : Conn} {k : Kind} {ks : List Kind} {o : Out}

theorem isUp_eq (s : P2PClient) (key : Bytes) : isUp s key = (connAt s key).connected := rfl

theorem isUp_of_get (h : s.conns[key]? = some c) : isUp s key = c.connected := by
  rw [isUp_eq, connAt_of_get h]

theorem isUp_of_conns {s' : P2PClient} (h : s'.conns = s.conns) : isUp s' = isUp s := by
  funext peer
  rw [isUp, connAt, h, ← connAt, ← isUp]

theorem isUp_setConn (key : Bytes) (c : Conn) (s : P2PClient) :
    isUp (setConn key c s) = Function.update (isUp s) key c.connected := by
  funext peer
  rw [isUp, connAt, setConn, TreeMaps.insert_get, Function.update_apply]
  split
  · rfl
  · rfl

theorem Linked.same {s' : P2PClient} (h : Linked s) (hconns : s'.conns = s.conns) (haddrs : s'.addrToPeer = s.addrToPeer)
    (hcalls : s'.callbacks = s.callbacks) : Linked s' :=
  ⟨by rw [hconns]; exact h.named, by rw [haddrs, hconns]; exact h.known,
    by rw [hcalls]; exact h.onConnected, by rw [hcalls]; exact h.onDisconnected⟩

theorem Linked.connAt (h : Linked s) (hin : s.conns.contains key = true) : (connAt s key).peerUuid = key :=
  h.named key _ (get_of_contains hin)

theorem Linked.setConn (h : Linked s) (hc : c.peerUuid = key) : Linked (setConn key c s) := by
  refine ⟨fun k c' hk => ?_, fun a peer ha => ?_, h.onConnected, h.onDisconnected⟩
  · rw [P2PClient.setConn, TreeMaps.insert_get] at hk
    split at hk
    · rename_i heq
      rw [heq, ← Option.some.inj hk]
      exact hc
    · exact h.named k c' hk
  · have hin := h.known a peer ha
    rw [Std.ExtTreeMap.contains_eq_isSome_getElem?] at hin ⊢
    rw [P2PClient.setConn, TreeMaps.insert_get]
    split
    · rfl
    · exact hin

/-- The connection is written back as it is, but for what the calls do not tell. -/
theorem isUp_same (hup : c.connected = isUp s key) : isUp (setConn key c s) = isUp s := by
  rw [isUp_setConn, hup, Function.update_eq_self]

theorem setConn_tells (h : Linked s) (hc : c.peerUuid = key) (hup : c.connected = isUp s key) :
    Tells s (setConn key c s, []) :=
  .state (h.setConn hc) (isUp_same hup)

theorem connected_tells (h : Linked s) (hc : c.peerUuid = key) (hdown : isUp s key = false)
    (hup : c.connected = true) (relay : Bool) : Tells s (setConn key c s, [.connected key relay]) := by
  refine ⟨h.setConn hc, ?_⟩
  rw [isUp_setConn, hup, List.foldlM_cons, heard, hdown]
  rfl

theorem Linked.learn (h : Linked s) {a : UInt64} {peer : Bytes} (hin : s.conns.contains peer = true) :
    Linked { s with addrToPeer := s.addrToPeer.insert a peer } := by
  refine ⟨h.named, fun a' peer' ha => ?_, h.onConnected, h.onDisconnected⟩
  rw [TreeMaps.insert_get] at ha
  split at ha
  · rw [← Option.some.inj ha]
    exact hin
  · exact h.known a' peer' ha

theorem Linked.learnAddrs (h : Linked s) (cfg : Config) {peer : Bytes} (hin : s.conns.contains peer = true) :
    Linked { s with addrToPeer := learnAddrs cfg peer c s.addrToPeer } := by
  unfold P2PClient.learnAddrs
  split
  · exact h
  · have hfirst := h.learn (a := addrKey c.punch.direct) hin
    split
    · exact hfirst.learn hin
    · exact hfirst

theorem closeConn_tells (h : Linked s) (c : Conn) : Tells s (closeConn c s) := by
  have hlinked : Linked (closeConn c s).1 := by
    refine ⟨fun k c' hk => ?_, fun a peer ha => ?_, h.onConnected, h.onDisconnected⟩
    · change (s.conns.erase c.peerUuid)[k]? = some c' at hk
      rw [TreeMaps.erase_get] at hk
      split at hk
      · cases hk
      · exact h.named k c' hk
    · change (s.addrToPeer.filter fun _ peer => peer ≠ c.peerUuid)[a]? = some peer at ha
      rw [TreeMaps.filter_get, Option.filter_eq_some_iff] at ha
      have hne : peer ≠ c.peerUuid := of_decide_eq_true ha.2
      have hin := h.known a peer ha.1
      rw [Std.ExtTreeMap.contains_eq_isSome_getElem?] at hin ⊢
      change ((s.conns.erase c.peerUuid)[peer]?).isSome = true
      rw [TreeMaps.erase_get, if_neg hne]
      exact hin
  have hview : isUp (closeConn c s).1 = Function.update (isUp s) c.peerUuid false := by
    funext peer
    change ((s.conns.erase c.peerUuid)[peer]?.getD {}).connected = _
    rw [TreeMaps.erase_get, Function.update_apply]
    split
    · rfl
    · rfl
  refine ⟨hlinked, ?_⟩
  rw [hview]
  unfold closeConn
  dsimp only
  rw [if_pos h.onDisconnected]
  split <;> rfl

theorem rewrite_tells (h : Linked s) (hget : s.conns[key]? = some c) (hname : c'.peerUuid = c.peerUuid)
    (hup : c'.connected = c.connected) : Tells s (setConn key c' s, []) :=
  setConn_tells h (hname.trans (h.named key c hget)) (hup.trans (isUp_of_get hget).symm)

theorem ackConn_same (env : Env) (cfg : Config) (p : Bytes) (c : Conn) :
    (ackConn env cfg p c).peerUuid = c.peerUuid ∧ (ackConn env cfg p c).connected = c.connected := by
  unfold ackConn
  split <;> exact ⟨rfl, rfl⟩

theorem Linked.reset (h : Linked s) {relay : RelayTable} :
    Linked { s with relay := relay, conns := s.conns.map fun _ c => { c with backoffAttempt := 0 } } := by
  refine ⟨fun key c hk => ?_, fun a peer ha => ?_, h.onConnected, h.onDisconnected⟩
  · rw [Std.ExtTreeMap.getElem?_map] at hk
    obtain ⟨c', hc', rfl⟩ := Option.map_eq_some_iff.mp hk
    exact h.named key c' hc'
  · have hin := h.known a peer ha
    rw [Std.ExtTreeMap.contains_eq_isSome_getElem?] at hin ⊢
    rw [Std.ExtTreeMap.getElem?_map, Option.isSome_map]
    exact hin

theorem Out.Plain.callback {uuid : Bytes} (h : o.Plain uuid) : o.callback = false := by
  cases h <;> rfl

/-- A path is found, and the application is called if the connection was down. -/
theorem lifts_tells (h : Linked s) {name : Bytes} {up relay : Bool} (hget : s.conns[key]? = some c)
    (hlift : Lifts s key c up k c') (hup : c.connected = true → up = true) (hname : name = key ∨ name = c.peerUuid) :
    Tells s (setConn key c' s, if up && !c.connected && s.callbacks.onConnected then [.connected name relay] else []) := by
  have hkey := h.named key c hget
  have hfields : c'.peerUuid = key ∧ c'.connected = up := by
    cases hlift <;> exact ⟨hkey, rfl⟩
  obtain ⟨hpeer, hconn⟩ := hfields
  rw [h.onConnected, Bool.and_true]
  cases hwas : c.connected with
  | true =>
    rw [Bool.not_true, Bool.and_false, if_neg Bool.false_ne_true]
    exact setConn_tells h hpeer (by rw [hconn, hup hwas, isUp_of_get hget, hwas])
  | false =>
    rw [Bool.not_false, Bool.and_true]
    cases up with
    | false => exact setConn_tells h hpeer (by rw [hconn, isUp_of_get hget, hwas])
    | true =>
      have hcalled : name = key := hname.elim id fun heq => heq.trans hkey
      rw [if_pos rfl, hcalled]
      exact connected_tells h hpeer (by rw [isUp_of_get hget, hwas]) hconn relay

theorem Write.tells (h : Write k s r) (hs : Linked s) : Tells s r := by
  cases h with
  | puts h => exact .silent hs rfl fun o ho => heard_other (by rw [List.mem_singleton.mp ho]; exact h.callback)
  | asks | logs | delivers | applies =>
    refine .silent (hs.same rfl rfl rfl) rfl fun o ho => heard_other ?_
    rw [List.mem_singleton.mp ho]
    rfl
  | sets | derives | beats | auths | adopts | opens | plays | pends => exact .state (hs.same rfl rfl rfl) rfl
  | grants =>
    refine .state hs.reset (funext fun peer => ?_)
    rw [isUp_eq, isUp_eq, connAt, connAt, Std.ExtTreeMap.getElem?_map]
    cases s.conns[peer]? <;> rfl
  | keeps hget h => exact rewrite_tells hs hget h.peerUuid h.connected
  | enters hname h => exact setConn_tells hs hname h.connected
  | finds ha => exact setConn_tells hs (hs.connAt (hs.known _ _ ha)) rfl
  | begins hget _ hdown hname hconnected =>
    exact setConn_tells hs hname (by rw [hconnected, isUp_of_get hget, hdown])
  | acks env p hget =>
    obtain ⟨hname, hup⟩ := ackConn_same env s.cfg p _
    have hset := hs.setConn (hname.trans (hs.named _ _ hget))
    exact .state (hset.learnAddrs s.cfg (contains_setConn _ _ s)) (isUp_same (hup.trans (isUp_of_get hget).symm))
  | invitesRelay now hget _ hname => exact setConn_tells hs hname (isUp_of_get hget).symm
  | invites a hget _ hname hconnected =>
    have hlearned := (hs.setConn hname).learn (a := a) (contains_setConn _ _ s)
    exact .state (hlearned.same rfl rfl rfl) (isUp_same (hconnected.trans (isUp_of_get hget).symm))
  | lifts relay hget h hup hname => exact lifts_tells hs hget h hup hname
  | closes c => exact closeConn_tells hs c

theorem Made.tells (h : Made ks s r) (hs : Linked s) : Tells s r :=
  .composed (fun _ _ ⟨_, _, hw⟩ => hw.tells) h hs

/-- What the application knows after a step; it stopped the client itself. -/
def told (s : P2PClient) (up : Bytes → Bool) (e : Env × Event) : Option (Bytes → Bool) :=
  match e.2 with
  | .stop => some fun _ => false
  | _ => (step e.1 e.2 s).2.foldlM heard up

theorem told_step {e : Env × Event} (h : e.2 ≠ .stop) (s : P2PClient) (up : Bytes → Bool) :
    told s up e = (step e.1 e.2 s).2.foldlM heard up := by
  obtain ⟨env, e⟩ := e
  cases e with
  | stop => exact absurd rfl h
  | _ => rfl

theorem start_links (env : Env) (cfg : Config) (s : P2PClient) :
    ((start env cfg s).getD s).conns = s.conns ∧ ((start env cfg s).getD s).addrToPeer = s.addrToPeer ∧
      ((start env cfg s).getD s).callbacks = s.callbacks := by
  unfold start
  split
  · exact ⟨rfl, rfl, rfl⟩
  · split
    · exact ⟨rfl, rfl, rfl⟩
    · split
      · exact ⟨rfl, rfl, rfl⟩
      · split <;> exact ⟨rfl, rfl, rfl⟩

theorem isUp_empty (h : s.conns = ∅) : isUp s = fun _ => false := by
  funext peer
  rw [isUp_eq, connAt, h, Std.ExtTreeMap.getElem?_empty]
  rfl

structure Reported (s : P2PClient) : Prop where
  linked : Linked s
  dormant : Dormant s

/-- No callback comes from an ICE agent that a stop has left running. -/
def OwnAgents (_ : P2PClient) (e : Env × Event) : Prop := ∀ peer, e.2 ≠ .orphan peer

theorem step_told (e : Env × Event) (h : Reported s) (hcan : client.enabled s e) (hown : OwnAgents s e) :
    Reported (client.next s e) ∧ told s (isUp s) e = some (isUp (client.next s e)) := by
  obtain ⟨env, e⟩ := e
  have hdormant := step_dormant env h.dormant hcan
  have done (ht : Tells s (step env e s)) (hstop : e ≠ .stop) :
      Reported (client.next s (env, e)) ∧ told s (isUp s) (env, e) = some (isUp (client.next s (env, e))) := by
    refine ⟨⟨ht.keeps, hdormant⟩, ?_⟩
    rw [told_step hstop]
    exact ht.follows
  have hl := h.linked
  cases e with
  | start cfg =>
    obtain ⟨hconns, haddrs, hcalls⟩ := start_links env cfg s
    exact done (.state (hl.same hconns haddrs hcalls) (isUp_of_conns hconns)) nofun
  | orphan peer => exact absurd rfl (hown peer)
  | stop =>
    have hcalls : (stop s).1.callbacks = s.callbacks := by
      cases hrun : s.running with
      | true => rw [stop_state hrun]
      | false => simp [stop, hrun]
    have hgone : (stop s).1.conns = ∅ ∧ (stop s).1.addrToPeer = ∅ := hdormant (stop_running s)
    refine ⟨⟨⟨fun key c hk => ?_, fun a peer ha => ?_, ?_, ?_⟩, hdormant⟩, ?_⟩
    · change (stop s).1.conns[key]? = some c at hk
      rw [hgone.1, Std.ExtTreeMap.getElem?_empty] at hk
      cases hk
    · change (stop s).1.addrToPeer[a]? = some peer at ha
      rw [hgone.2, Std.ExtTreeMap.getElem?_empty] at ha
      cases ha
    · exact (congrArg Callbacks.onConnected hcalls).trans hl.onConnected
    · exact (congrArg Callbacks.onDisconnected hcalls).trans hl.onDisconnected
    · exact congrArg some (isUp_empty hgone.1).symm
  | worker | tick | packet | connect | disconnect | send | juiceState | juiceCandidate | juiceGatheringDone | juiceRecv =>
    exact done ((step_made (by simp) (by simp)).tells hl) (by simp)

theorem send_accepts (env : Env) (peer : Bytes) (channel : UInt8) (data : Bytes) (reliable : Bool) (s : P2PClient) :
    (send env peer channel data reliable s).1.isSome = isUp s peer := by
  unfold send
  rw [isUp_eq, connAt]
  cases s.conns[peer]? with
  | none => rfl
  | some c =>
    dsimp only [Option.getD_some]
    cases c.connected <;> rfl

/-- In every run of a client whose application wants both calls, and in which no ICE agent outlives a stop,
a connection is never reported twice without being reported gone in between, and a message is accepted for
exactly the peers that are reported as connected. -/
theorem callbacks_tell {s : P2PClient} (hinit : client.init s) (hconnected : s.callbacks.onConnected = true)
    (hdisconnected : s.callbacks.onDisconnected = true) {es : List (Env × Event)}
    (hr : Run client OwnAgents s es) : ∃ up, followed told client (fun _ => false) s es = some up ∧
      ∀ env peer channel data reliable,
        (send env peer channel data reliable (es.foldl client.next s)).1.isSome = up peer := by
  have hstart : Reported s ∧ isUp s = fun _ => false := by
    obtain ⟨cfg, callbacks, rfl⟩ := hinit
    refine ⟨⟨⟨fun key c hk => ?_, fun a peer ha => ?_, hconnected, hdisconnected⟩, fun _ => ⟨rfl, rfl⟩⟩,
      isUp_empty rfl⟩
    · rw [Std.ExtTreeMap.getElem?_empty] at hk
      cases hk
    · rw [Std.ExtTreeMap.getElem?_empty] at ha
      cases ha
  have hrun := (followed_run (fun s e hs hcan hown => step_told e hs hcan hown) hstart.1 hr).2
  rw [hstart.2] at hrun
  exact ⟨_, hrun, fun env peer channel data reliable => send_accepts env peer channel data reliable _⟩

/-- The connection comes up, is given up, comes up again, falls with a stop and comes up after a restart. -/
def caller : P2PClient :=
  { cfg := { uuid := [0x61], natServers := [] }, callbacks := { onConnected := true, onDisconnected := true } }

def redials : List (Env × Event) :=
  [({}, .start { uuid := [0x61], natServers := [⟨ascii "10.0.0.1", 9000⟩] }), ({}, .connect [0x75]),
    ({}, .juiceState [0x75]), ({}, .disconnect [0x75]), ({}, .connect [0x75]), ({}, .juiceState [0x75]),
    ({}, .stop), ({}, .start { uuid := [0x61], natServers := [⟨ascii "10.0.0.1", 9000⟩] }), ({}, .connect [0x75]),
    ({}, .juiceState [0x75])]

theorem callbacks_tell_redials : ∃ up, followed told client (fun _ => false) caller redials = some up ∧
    ∀ env peer channel data reliable,
      (send env peer channel data reliable (redials.foldl client.next caller)).1.isSome = up peer := by
  have hr : Run client OwnAgents caller redials :=
    ⟨trivial, nofun, trivial, nofun, trivial, nofun, trivial, nofun, trivial, nofun, trivial, nofun, trivial, nofun,
      trivial, nofun, trivial, nofun, trivial, nofun, trivial⟩
  exact callbacks_tell ⟨_, _, rfl⟩ rfl rfl hr

example : isUp (redials.foldl client.next caller) [0x75] = true := by decide +kernel

end P2PServer.P2PClient
