import P2PServer.ConnNames

/-! The paths of a client's connections, as an invariant over the whole state machine: a connection
that is up has an agent that has connected, an address of the peer, or frames from the relay. -/
namespace P2PServer.P2PClient
open ByteStrings ProtoDef Net Codec Crypto Effects Transitions

/-- What holds of the connection under a key. With `strict` a relayed path also means that the client
is registered. -/
structure Conn.Wired (strict : Prop) (cfg : Config) (registered : Bool)
    (addrs : Std.ExtTreeMap UInt64 Bytes) (key : Bytes) (c : Conn) : Prop where
  path : c.connected = true → (c.punch.directOk = true ∧ c.punch.juice = true) ∨
    c.punch.haveDirect = true ∨ c.relay.relayOk = true
  forced : cfg.forceRelay = true → c.punch.juice = false ∧ c.punch.haveDirect = false
  mapped : ∀ a : UInt64, addrs[a]? = some key → c.punch.haveDirect = true ∧ c.connecting = true
  relayed : strict → c.relay.relayOk = true → registered = true

abbrev Fits (strict : Prop) (s : P2PClient) (key : Bytes) (c : Conn) : Prop :=
  c.Wired strict s.cfg s.relay.relayRegistered s.addrToPeer key

/-- Every connection is wired, and every known address is one of a connection. With `strict` a
registered client can read the address of its relay. -/
structure Wired (strict : Prop) (s : P2PClient) : Prop where
  conns : ∀ key c, s.conns[key]? = some c → Fits strict s key c
  known : ∀ (a : UInt64) (peer : Bytes), s.addrToPeer[a]? = some peer → ∃ c, s.conns[peer]? = some c
  address : strict → s.relay.relayRegistered = true → (proxyAddr s).isSome = true

def wiring (s : P2PClient) : Config × List ServerAddr × Bool × Std.ExtTreeMap Bytes Conn ×
    Std.ExtTreeMap UInt64 Bytes :=
  (s.cfg, s.relay.proxies, s.relay.relayRegistered, s.conns, s.addrToPeer)

variable {strict : Prop} {s s' : P2PClient} {r : P2PClient × List Out} {key : Bytes} {c : Conn} {k : Kind} {ks : List Kind}

theorem Wired.of_wiring (hs : Wired strict s) (h : wiring s' = wiring s) : Wired strict s' := by
  obtain ⟨hcfg, hproxies, hreg, hconns, haddrs⟩ : s'.cfg = s.cfg ∧ s'.relay.proxies = s.relay.proxies ∧
      s'.relay.relayRegistered = s.relay.relayRegistered ∧ s'.conns = s.conns ∧
      s'.addrToPeer = s.addrToPeer := by simpa [wiring] using h
  have hproxy : proxyAddr s' = proxyAddr s := by rw [proxyAddr, hproxies, ← proxyAddr]
  refine ⟨fun key c hk => ?_, fun a peer ha => ?_, fun hstrict hr => ?_⟩
  · rw [Fits, hcfg, hreg, haddrs]
    exact hs.conns key c (hconns ▸ hk)
  · rw [hconns]
    exact hs.known a peer (haddrs ▸ ha)
  · rw [hproxy]
    exact hs.address hstrict (hreg ▸ hr)

theorem Wired.connAt (h : Wired strict s) (key : Bytes) : Fits strict s key (connAt s key) := by
  unfold P2PClient.connAt
  cases hc : s.conns[key]? with
  | some c => exact h.conns key c hc
  | none =>
    refine ⟨fun hf => Bool.noConfusion hf, fun _ => ⟨rfl, rfl⟩, fun a ha => ?_, fun _ hf => Bool.noConfusion hf⟩
    obtain ⟨c, hk⟩ := h.known a key ha
    cases hc.symm.trans hk

theorem Wired.setConn (h : Wired strict s) (hc : Fits strict s key c) : Wired strict (setConn key c s) := by
  refine ⟨fun k c' hk => ?_, fun a peer ha => ?_, h.address⟩
  · rw [P2PClient.setConn, TreeMaps.insert_get] at hk
    split at hk
    · rename_i heq
      rw [heq, ← Option.some.inj hk]
      exact hc
    · exact h.conns k c' hk
  · obtain ⟨c', hk⟩ := h.known a peer ha
    rw [P2PClient.setConn, TreeMaps.insert_get]
    split
    · exact ⟨c, rfl⟩
    · exact ⟨c', hk⟩

theorem Wired.learn (h : Wired strict s) {a : UInt64} {peer : Bytes} (hc : s.conns[peer]? = some c)
    (hdirect : c.punch.haveDirect = true) (hconnecting : c.connecting = true) :
    Wired strict { s with addrToPeer := s.addrToPeer.insert a peer } := by
  refine ⟨fun k c' hk => ?_, fun a' peer' ha => ?_, h.address⟩
  · have hold := h.conns k c' hk
    refine ⟨hold.path, hold.forced, fun a' ha => ?_, hold.relayed⟩
    rw [TreeMaps.insert_get] at ha
    split at ha
    · obtain rfl := Option.some.inj ha
      obtain rfl := Option.some.inj (hc.symm.trans hk)
      exact ⟨hdirect, hconnecting⟩
    · exact hold.mapped a' ha
  · rw [TreeMaps.insert_get] at ha
    split at ha
    · obtain rfl := Option.some.inj ha
      exact ⟨c, hc⟩
    · exact h.known a' peer' ha

theorem Wired.closeConn (h : Wired strict s) (c : Conn) : Wired strict (closeConn c s).1 := by
  have haddr {a : UInt64} {peer : Bytes}
      (ha : (s.addrToPeer.filter fun _ peer => peer ≠ c.peerUuid)[a]? = some peer) :
      s.addrToPeer[a]? = some peer ∧ peer ≠ c.peerUuid := by
    rw [TreeMaps.filter_get, Option.filter_eq_some_iff] at ha
    exact ⟨ha.1, of_decide_eq_true ha.2⟩
  refine ⟨fun k c' hk => ?_, fun a peer ha => ?_, h.address⟩
  · change (s.conns.erase c.peerUuid)[k]? = some c' at hk
    rw [TreeMaps.erase_get] at hk
    split at hk
    · cases hk
    · have hold := h.conns k c' hk
      exact ⟨hold.path, hold.forced, fun a ha => hold.mapped a (haddr ha).1, hold.relayed⟩
  · obtain ⟨ha, hne⟩ := haddr ha
    obtain ⟨c', hk⟩ := h.known a peer ha
    refine ⟨c', ?_⟩
    change (s.conns.erase c.peerUuid)[peer]? = some c'
    rw [TreeMaps.erase_get, if_neg hne]
    exact hk

theorem Conn.Wired.same {cfg : Config} {registered : Bool} {addrs : Std.ExtTreeMap UInt64 Bytes}
    (h : c.Wired strict cfg registered addrs key) {c' : Conn} (hconnected : c'.connected = c.connected)
    (hconnecting : c.connecting = true → c'.connecting = true)
    (hdirect : c'.punch.directOk = c.punch.directOk) (hjuice : c'.punch.juice = c.punch.juice)
    (haddr : c'.punch.haveDirect = c.punch.haveDirect) (hrelay : c'.relay.relayOk = c.relay.relayOk) :
    c'.Wired strict cfg registered addrs key := by
  refine ⟨?_, ?_, fun a ha => ?_, ?_⟩
  · rw [hconnected, hdirect, hjuice, haddr, hrelay]
    exact h.path
  · rw [hjuice, haddr]
    exact h.forced
  · obtain ⟨hd, hc⟩ := h.mapped a ha
    exact ⟨haddr.trans hd, hconnecting hc⟩
  · rw [hrelay]
    exact h.relayed

/-- The peer's addresses are learned with the connection that has them. -/
theorem Wired.learnAddrs {peer : Bytes} (h : Wired strict s) (hc : s.conns[peer]? = some c)
    (hdirect : s.cfg.forceRelay = false → c.punch.haveDirect = true) (hconnecting : c.connecting = true) :
    Wired strict { s with addrToPeer := learnAddrs s.cfg peer c s.addrToPeer } := by
  unfold P2PClient.learnAddrs
  split
  · exact h
  · rename_i hforce
    have hd := hdirect (by simpa using hforce)
    have hfirst := h.learn (a := addrKey c.punch.direct) hc hd hconnecting
    split
    · exact hfirst.learn hc hd hconnecting
    · exact hfirst

theorem Conn.Wired.unmapped {cfg : Config} {registered : Bool} {addrs : Std.ExtTreeMap UInt64 Bytes}
    (h : c.Wired strict cfg registered addrs key) (hforce : cfg.forceRelay = true) (a : UInt64) :
    addrs[a]? ≠ some key := by
  intro ha
  have hd := (h.mapped a ha).1
  rw [(h.forced hforce).2] at hd
  cases hd

theorem ackConn_wired (env : Env) (p : Bytes) (h : Fits strict s key c) :
    Fits strict s key (ackConn env s.cfg p c) ∧ (ackConn env s.cfg p c).connecting = c.connecting ∧
      (s.cfg.forceRelay = false → (ackConn env s.cfg p c).punch.haveDirect = true) := by
  unfold ackConn
  by_cases hforce : s.cfg.forceRelay = true
  · rw [if_pos hforce]
    obtain ⟨hjuice, hdirect⟩ := h.forced hforce
    refine ⟨⟨fun hc => ?_, fun _ => ⟨hjuice, rfl⟩, fun a ha => absurd ha (h.unmapped hforce a), h.relayed⟩,
      rfl, fun hf => ?_⟩
    · rcases h.path hc with ⟨-, hj⟩ | hd | hr
      · cases hjuice.symm.trans hj
      · cases hdirect.symm.trans hd
      · exact .inr (.inr hr)
    · cases hforce.symm.trans hf
  · rw [if_neg hforce]
    refine ⟨⟨fun _ => .inr (.inl rfl), fun hf => absurd hf hforce, fun a ha => ⟨rfl, (h.mapped a ha).2⟩,
      h.relayed⟩, rfl, fun _ => rfl⟩

/-- What the paths need when a write of the kind comes: a relay that can be reached for its answer, and a
registration for its frames. The reports of the ICE library are left out. -/
def Kind.sound (strict : Prop) (s : P2PClient) : Kind → Prop
  | .granted => strict → (proxyAddr s).isSome = true
  | .proves true => strict → s.relay.relayRegistered = true
  | .agent => False
  | _ => True

theorem Write.wired (h : Write k s r) (hsound : k.sound strict s) (hs : Wired strict s) : Wired strict r.1 := by
  cases h with
  | adopts proxies next hnone =>
    refine ⟨hs.conns, hs.known, fun hstrict hr => ?_⟩
    have hsome := hs.address hstrict hr
    rw [proxyAddr, hnone] at hsome
    cases hsome
  | grants =>
    refine ⟨fun key c hk => ?_, fun a peer ha => ?_, fun hstrict _ => hsound hstrict⟩
    · rw [Std.ExtTreeMap.getElem?_map] at hk
      obtain ⟨c', hc', rfl⟩ := Option.map_eq_some_iff.mp hk
      have hold := hs.conns key c' hc'
      exact ⟨hold.path, hold.forced, hold.mapped, fun _ _ => rfl⟩
    · obtain ⟨c', hk⟩ := hs.known a peer ha
      rw [Std.ExtTreeMap.getElem?_map, hk]
      exact ⟨_, rfl⟩
  | keeps hget h =>
    have hfits := hs.conns _ _ hget
    exact hs.setConn (hfits.same h.connected h.connecting.trans h.directOk h.juice h.haveDirect h.relayOk)
  | enters _ h hconnecting =>
    exact hs.setConn ((hs.connAt _).same h.connected hconnecting h.directOk h.juice h.haveDirect h.relayOk)
  | finds => exact hs.setConn (hs.connAt _)
  | @begins s key c c' hget hidle hdown _ hconnected hdirect hrelay hjuice =>
    have hold := hs.conns key c hget
    refine hs.setConn ⟨fun hc => ?_, fun hf => ⟨(hjuice hf).trans (hold.forced hf).1, hdirect⟩, fun a ha => ?_,
      fun _ hr => ?_⟩
    · cases hconnected.symm.trans hc
    · cases hidle.symm.trans (hold.mapped a ha).2
    · cases hrelay.symm.trans hr
  | acks env p hget hconnecting =>
    obtain ⟨hack, hon, hdirect⟩ := ackConn_wired env p (hs.conns _ _ hget)
    exact (hs.setConn hack).learnAddrs (setConn_get _ _ _) hdirect (hon.trans hconnecting)
  | invitesRelay now hget hforce =>
    -- only the relay is left, and an invite leaves `relay_ok` as it is
    have hold := hs.conns _ _ hget
    obtain ⟨hjuice, hdirect⟩ := hold.forced hforce
    refine hs.setConn ⟨fun hc => ?_, fun _ => ⟨hjuice, rfl⟩, fun a ha => absurd ha (hold.unmapped hforce a),
      hold.relayed⟩
    rcases hold.path hc with ⟨-, hj⟩ | hd | hr
    · cases hjuice.symm.trans hj
    · cases hdirect.symm.trans hd
    · exact .inr (.inr hr)
  | @invites s key c c' a hget hforce _ _ hconnecting hdirect hrelay =>
    have hold := hs.conns key c hget
    have hfits : Fits strict s key c' :=
      ⟨fun _ => .inr (.inl hdirect), fun hf => absurd hf hforce, fun a _ => ⟨hdirect, hconnecting⟩,
        fun hstrict hr => hold.relayed hstrict (hrelay.symm.trans hr)⟩
    have hlearned := (hs.setConn hfits).learn (a := a) (setConn_get key c' s) hdirect hconnecting
    exact hlearned.of_wiring rfl
  | @lifts s key name c c' k up relay hget h =>
    have hold := hs.conns key c hget
    cases h with
    | direct ha =>
      exact hs.setConn ⟨fun _ => .inr (.inl (hold.mapped _ ha).1), hold.forced, hold.mapped, hold.relayed⟩
    | relayed => exact hs.setConn ⟨fun _ => .inr (.inr rfl), hold.forced, hold.mapped, fun hstrict _ => hsound hstrict⟩
    | known hok => exact hs.setConn ⟨fun _ => .inr (.inr hok), hold.forced, hold.mapped, hold.relayed⟩
    | agent => exact hsound.elim
  | closes c => exact hs.closeConn c
  | _ => exact hs.of_wiring rfl

/-- A relay that can be reached stays so, and a registration lasts. -/
theorem Write.sound (h : Write k s r) {k' : Kind} (hk : k'.sound strict s) : k'.sound strict r.1 := by
  cases k' with
  | granted =>
    intro hstrict
    have hsome := hk hstrict
    have hproxies : s.relay.proxies ≠ [] := fun hnone => by
      rw [proxyAddr, hnone] at hsome
      cases hsome
    rwa [proxyAddr, h.mild.proxies hproxies, ← proxyAddr]
  | proves relay =>
    cases relay with
    | false => trivial
    | true =>
      intro hstrict
      have hreg := hk hstrict
      cases h with
      | grants => rfl
      | _ => exact hreg
  | agent => exact hk
  | _ => trivial

theorem Made.wired (h : Made ks s r) (hsound : ∀ k ∈ ks, k.sound strict s) (hs : Wired strict s) :
    Wired strict r.1 := by
  refine (Composed.preserves (I := fun t => Wired strict t ∧ ∀ k ∈ ks, k.sound strict t)
    (fun t r ⟨k, hk, hw⟩ ht => ⟨hw.wired (ht.2 k hk) ht.1, fun k' hk' => hw.sound (ht.2 k' hk')⟩) h ⟨hs, hsound⟩).1

def Kind.wires : Kind → Bool
  | .granted | .proves true | .agent => false
  | _ => true

theorem sound_of_wires (h : k.wires = true) : k.sound strict s := by
  cases k with
  | granted | agent => cases h
  | proves relay =>
    cases relay with
    | true => cases h
    | false => trivial
  | _ => trivial

theorem Made.wired_free (h : Made ks s r) (hks : ks.all Kind.wires = true) (hs : Wired strict s) : Wired strict r.1 :=
  h.wired (fun k hk => sound_of_wires (List.all_eq_true.mp hks k hk)) hs

/-- The answer with which the relay accepts a registration. -/
def grants (p : Bytes) : Prop := 1 ≤ p.length ∧ byteAt p 0 = 0

theorem onProxyRegisterRsp_wired {p : Bytes} (h : Wired strict s)
    (hok : strict → grants p → (proxyAddr s).isSome = true) : Wired strict (onProxyRegisterRsp p s).1 := by
  by_cases hgrants : grants p
  · refine (onProxyRegisterRsp_made p).wired (fun k hk => ?_) h
    simp only [List.mem_cons, List.not_mem_nil, or_false] at hk
    rcases hk with rfl | rfl
    · trivial
    · exact fun hstrict => hok hstrict hgrants
  · unfold onProxyRegisterRsp
    split
    · exact h
    · rename_i hlen
      split
      · rename_i hzero
        exact absurd ⟨by omega, hzero⟩ hgrants
      · exact h

def takes (s : P2PClient) (p : Bytes) : Prop :=
  relayFrameSize + 14 ≤ p.length ∧ textAt p 33 maxUuidLen = (cstr s.cfg.uuid).take maxUuidLen ∧
    uuidAt p 0 ≠ []

theorem onRelayData_wired (env : Env) {m : Memory} {plen : ℕ} (h : Wired strict s)
    (hok : strict → takes s (m.read 0 plen) → s.relay.relayRegistered = true) :
    Wired strict (onRelayData env m plen s).1 := by
  by_cases htakes : takes s (m.read 0 plen)
  · refine (onRelayData_made m plen).wired (fun k hk => ?_) h
    simp only [List.mem_cons, List.not_mem_nil, or_false] at hk
    rcases hk with rfl | rfl | rfl | rfl | rfl | rfl
    · trivial
    · trivial
    · trivial
    · trivial
    · trivial
    · exact fun hstrict => hok hstrict htakes
  · unfold onRelayData
    dsimp only
    split
    · exact h
    · rename_i hlen
      split
      · exact h
      · rename_i hdst
        split
        · exact h
        · rename_i hpeer
          refine absurd ⟨?_, not_not.mp hdst, by simpa using hpeer⟩ htakes
          rw [Memory.read_length]
          omega

/-- What `strict` asks of a message: the answer to a registration comes from a relay that the client
can reach, and relayed frames come to a registered client. -/
structure RelayOrder (s : P2PClient) (msgId : UInt8) (p : Bytes) : Prop where
  answer : msgId = msgProxyRegisterRsp → grants p → (proxyAddr s).isSome = true
  data : msgId = msgProxyRelayData → takes s p → s.relay.relayRegistered = true

theorem wires_messageKinds {msgId : UInt8} (hreg : msgId ≠ msgProxyRegisterRsp) (hdata : msgId ≠ msgProxyRelayData) :
    (messageKinds msgId).all Kind.wires = true := by
  unfold messageKinds
  rw [if_neg hreg, if_neg hdata]
  split_ifs <;> rfl

theorem handlePacket_wired (env : Env) {m : Memory} {len : ℕ} (src : Addr) (h : Wired strict s)
    (hok : strict → ∀ msgId p, protoOf m len = some (msgId, p) → RelayOrder s msgId p) :
    Wired strict (handlePacket env m len src s).1 := by
  have hrecv := handlePacket_receives env m len src s
  generalize handlePacket env m len src s = r at hrecv ⊢
  cases hrecv with
  | @message msgId plen hmsg =>
    by_cases hreg : msgId = msgProxyRegisterRsp
    · subst hreg
      exact onProxyRegisterRsp_wired h fun hs => (hok hs _ _ hmsg).answer rfl
    · by_cases hdata : msgId = msgProxyRelayData
      · subst hdata
        exact onRelayData_wired env h fun hs => (hok hs _ _ hmsg).data rfl
      · exact (handleProto_made msgId _ plen).wired_free (wires_messageKinds hreg hdata) h
  | frame _ hpeer => exact (onDirectFrame_made m len hpeer).wired_free rfl h
  | dropped => exact h

/-- The ICE library reports on an agent that has been made. -/
theorem onJuiceState_wired {peer : Bytes} (h : Wired strict s)
    (hok : ∀ c, s.conns[peer]? = some c → c.punch.juice = true) : Wired strict (onJuiceState peer s).1 := by
  unfold onJuiceState
  split
  · exact h
  · rename_i c hc
    have hold := h.conns peer c hc
    split
    · exact h
    · exact h.setConn ⟨fun _ => .inl ⟨rfl, hok c hc⟩, hold.forced, hold.mapped, hold.relayed⟩

/-- A client that is not running has no connections. -/
def Dormant (s : P2PClient) : Prop := s.running = false → s.conns = ∅ ∧ s.addrToPeer = ∅

/-- Until the next start nothing happens. -/
theorem step_asleep (env : Env) {e : Event} (hrun : s.running = false) (hconns : s.conns = ∅)
    (hcan : client.enabled s (env, e)) (hstart : ∀ cfg, e ≠ .start cfg) : (step env e s).1 = s := by
  have hget (peer : Bytes) : s.conns[peer]? = none := by rw [hconns, Std.ExtTreeMap.getElem?_empty]
  cases e with
  | start cfg => exact absurd rfl (hstart cfg)
  | worker => cases hrun.symm.trans hcan
  | tick now => cases hrun.symm.trans hcan
  | packet m len src => cases hrun.symm.trans hcan
  | connect peer => simp [step, connect, hrun]
  | disconnect peer => simp [step, disconnect, hget]
  | send peer channel data reliable => simp [step, P2PClient.send, hget]
  | stop => simp [step, stop, hrun]
  | juiceState peer => simp [step, onJuiceState, hget]
  | juiceCandidate peer sdp => simp [step, onJuiceCandidate, hget]
  | juiceGatheringDone peer => simp [step, onJuiceGatheringDone, hget]
  | juiceRecv peer m len => simp [step, onJuiceRecv, hget]
  | orphan peer => rfl

theorem stop_wired : Preserves (Wired strict) stop := by
  intro s h
  cases hrun : s.running with
  | false => simpa [stop, hrun] using h
  | true =>
    rw [stop_state hrun]
    refine ⟨fun key c hk => ?_, fun a peer ha => ?_, h.address⟩
    · rw [Std.ExtTreeMap.getElem?_empty] at hk
      cases hk
    · rw [Std.ExtTreeMap.getElem?_empty] at ha
      cases ha

theorem start_fresh {env : Env} {cfg : Config} (h : start env cfg s = some s') :
    s.running = false ∧ s'.running = true ∧ s'.conns = s.conns ∧ s'.addrToPeer = s.addrToPeer ∧
      s'.relay.relayRegistered = false := by
  unfold start at h
  split at h
  · cases h
  · split at h
    · cases h
    · rename_i hno
      split at h
      · cases h
      · split at h
        · cases h
        · rw [← Option.some.inj h]
          exact ⟨by simpa using (not_or.mp hno).1, rfl, rfl, rfl, rfl⟩

theorem step_dormant (env : Env) {e : Event} (h : Dormant s) (hcan : client.enabled s (env, e)) :
    Dormant (step env e s).1 := by
  by_cases hstart : ∃ cfg, e = .start cfg
  · obtain ⟨cfg, rfl⟩ := hstart
    change Dormant ((start env cfg s).getD s)
    cases hs : start env cfg s with
    | none => exact h
    | some s' =>
      intro hr
      cases hr.symm.trans (start_fresh hs).2.1
  · rw [not_exists] at hstart
    cases hrun : s.running with
    | false =>
      rw [step_asleep env hrun (h hrun).1 hcan hstart]
      exact h
    | true =>
      rcases step_mild env e (s := s) with ⟨cfg, rfl⟩ | rfl | hmild
      · exact absurd rfl (hstart cfg)
      · change Dormant (stop s).1
        rw [stop_state hrun]
        exact fun _ => ⟨rfl, rfl⟩
      · intro hr
        cases (hr.symm.trans hmild.running).trans hrun

/-- What the ICE library and, with `strict`, the relay do in a step. -/
structure Faithful (strict : Prop) (s : P2PClient) (e : Env × Event) : Prop where
  agent : ∀ peer c, e.2 = .juiceState peer → s.conns[peer]? = some c → c.punch.juice = true
  relay : strict → ∀ m len src msgId p, e.2 = .packet m len src → protoOf m len = some (msgId, p) →
    RelayOrder s msgId p

theorem step_wired {e : Env × Event} (h : Wired strict s) (hdormant : Dormant s)
    (hok : Faithful strict s e) : Wired strict (step e.1 e.2 s).1 := by
  obtain ⟨env, e⟩ := e
  cases e with
  | start cfg =>
    change Wired strict ((start env cfg s).getD s)
    cases hs : start env cfg s with
    | none => exact h
    | some s' =>
      obtain ⟨hrun, -, hconns, haddrs, hreg⟩ := start_fresh hs
      obtain ⟨hnoconns, hnoaddrs⟩ := hdormant hrun
      rw [hnoconns] at hconns
      rw [hnoaddrs] at haddrs
      refine ⟨fun key c hk => ?_, fun a peer ha => ?_, fun _ hr => ?_⟩
      · rw [Option.getD_some, hconns, Std.ExtTreeMap.getElem?_empty] at hk
        cases hk
      · rw [Option.getD_some, haddrs, Std.ExtTreeMap.getElem?_empty] at ha
        cases ha
      · cases hreg.symm.trans hr
  | packet m len src => exact handlePacket_wired env src h fun hs msgId p => hok.relay hs m len src msgId p rfl
  | stop => exact stop_wired s h
  | juiceState peer => exact onJuiceState_wired h fun c => hok.agent peer c rfl
  | worker | tick | connect | disconnect | send | juiceCandidate | juiceGatheringDone | juiceRecv | orphan =>
    exact (step_made (by simp) (by simp)).wired_free rfl h

theorem run_wired (h : Reach client (Faithful strict) s) : Wired strict s := by
  refine (h.invariant (I := fun s => Wired strict s ∧ Dormant s) (fun s hs => ?_)
    fun s e ⟨hw, hd⟩ hcan hok => ⟨step_wired hw hd hok, step_dormant e.1 hd hcan⟩).1
  obtain ⟨cfg, callbacks, rfl⟩ := hs
  refine ⟨⟨fun key c hk => ?_, fun a peer ha => ?_, fun _ hr => Bool.noConfusion hr⟩, fun _ => ⟨rfl, rfl⟩⟩
  · rw [Std.ExtTreeMap.getElem?_empty] at hk
    cases hk
  · rw [Std.ExtTreeMap.getElem?_empty] at ha
    cases ha

end P2PServer.P2PClient
