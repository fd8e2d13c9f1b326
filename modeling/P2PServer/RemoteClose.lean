import P2PServer.ConnNames
import P2PServer.DataPlane

/-! A peer that disconnects sends `TT_CLOSE`, which `Session::on_frame` answers by clearing a flag
that nothing reads. -/
namespace P2PServer
open ByteStrings ProtoDef Net Codec Crypto Effects Transitions

namespace Session

def setActive (b : Bool) (r : Session × List Out) : Session × List Out := ({ r.1 with active := b }, r.2)

theorem drainLoop_active (b : Bool) (fuel : ℕ) (x : Session) :
    drainLoop fuel { x with active := b } = setActive b (drainLoop fuel x) := by
  induction fuel generalizing x with
  | zero => rfl
  | succ fuel ih =>
    unfold drainLoop
    dsimp only
    split
    · rfl
    next seq payload hhead =>
      split
      · have hstep : (drainStep { x with active := b } seq payload).1 =
            { (drainStep x seq payload).1 with active := b } := rfl
        rw [hstep, ih]
        rfl
      · rfl

theorem handleData_active (b : Bool) (x : Session) (t : WireTunnel) :
    handleData { x with active := b } t = setActive b (handleData x t) := by
  unfold handleData
  dsimp only
  split
  · split
    · have hdrain := drainLoop_active b x.ooo.size { x with
        txBytes := x.txBytes + t.len.toUInt64
        rxBytes := x.rxBytes + UInt64.ofNat t.payload.length
        expectedSeq := x.expectedSeq + 1 }
      dsimp only [deliver, drain] at hdrain ⊢
      rw [hdrain]
      rfl
    · split <;> rfl
  · rfl

def Closes (buf : Bytes) : Prop := ∃ t, codecReadTunnel buf = some t ∧ t.type = ttClose

theorem onFrame_active (x : Session) (b : Bool) (buf : Bytes) (h : ¬Closes buf) :
    onFrame { x with active := b } buf = setActive b (onFrame x buf) := by
  unfold onFrame
  cases ht : codecReadTunnel buf with
  | none => rfl
  | some t =>
    dsimp only
    split
    · exact handleData_active b x t
    · split
      · rfl
      · split
        · rfl
        · split
          next hclose => exact absurd ⟨t, ht, hclose⟩ h
          · rfl

theorem onFrame_closes {buf : Bytes} (h : Closes buf) (x : Session) :
    onFrame x buf = ({ x with active := false }, []) := by
  obtain ⟨t, ht, hclose⟩ := h
  unfold onFrame
  rw [ht]
  dsimp only
  rw [hclose]
  rfl

/-- From now on no frame makes the session deliver, buffer or move on. -/
def Inert (x : Session) : Prop :=
  ∀ (bufs : List Bytes) (buf : Bytes),
    let y := bufs.foldl (fun y b => (y.onFrame b).1) x
    onData (y.onFrame buf).2 = [] ∧ (y.onFrame buf).1.ooo = y.ooo ∧
      (y.onFrame buf).1.expectedSeq = y.expectedSeq

structure Unreliable (t : WireTunnel) : Prop where
  data : t.type = ttData
  flags : t.flags &&& tfReliable = 0
  payload : t.payload ≠ []

theorem Unreliable.onData {t : WireTunnel} (h : Unreliable t) {buf : Bytes}
    (ht : codecReadTunnel buf = some t) (x : Session) : onData (x.onFrame buf).2 = [(t.channelId, t.payload)] := by
  have hout : (x.onFrame buf).2 = [.deliver t.channelId t.payload] := by
    unfold onFrame
    rw [ht]
    dsimp only
    rw [if_pos h.data, handleData, if_neg (by simp [h.flags])]
    rfl
  simp [hout, Session.onData, delivered, h.payload]

theorem not_inert (x : Session) : ¬x.Inert := by
  intro h
  have hbuf := codecReadTunnel_buildFrame ttData 0 0 0 0 0 [0x41] (by decide)
  have hdata := (h [] (buildFrame ttData 0 0 0 0 0 [0x41])).1
  have hun : Unreliable ⟨ttData, 0, 0, 0, 0, 0, [0x41], UInt16.ofNat 1⟩ := ⟨rfl, by decide, by decide⟩
  rw [hun.onData hbuf] at hdata
  cases hdata

end Session

namespace P2PClient

def Out.parts : Out → Bool
  | .disconnected _ => true
  | _ => false

/-- A step that leaves the connection in the table. -/
def Stays (u : Bytes) (s s' : P2PClient) : Prop := s.conns.contains u = true → s'.conns.contains u = true

instance (u : Bytes) : Std.Refl (Stays u) := ⟨fun _ => id⟩

instance (u : Bytes) : IsTrans P2PClient (Stays u) where
  trans _ _ _ h g := g ∘ h

abbrev Lasting (u : Bytes) (s : P2PClient) (r : P2PClient × List Out) : Prop :=
  Within (Stays u) (fun o => o.parts = false) s r

/-- The session with `u` has handled the frame `buf`. -/
structure Hears (u buf : Bytes) (s : P2PClient) (r : P2PClient × List Out) : Prop where
  session : r.1.sessions[u]? = some ((sessionFor u s).1.onFrame buf).1
  delivers : messages r.2 = calls s u ((sessionFor u s).1.onFrame buf).2
  lasting : Lasting u s r

variable {s t : P2PClient} {u : Bytes}

theorem Stays.kept {s' : P2PClient} (h : s'.conns = s.conns) : Stays u s s' := by
  intro hc
  rwa [h]

theorem Emits.parts {k : Kind} {o : Out} (h : Emits s k o) (hk : k ≠ .closes) : o.parts = false := by
  cases h with
  | plain h => cases h <;> rfl
  | disconnected => exact absurd rfl hk
  | _ => rfl

theorem Made.lasting {ks : List Kind} {r : P2PClient × List Out} (h : Made ks s r)
    (hks : ks.contains .closes = false) : Lasting u s r := by
  refine Composed.within (fun t r ⟨k, hk, hw⟩ => ?_) h
  have hne : k ≠ .closes := by
    rintro rfl
    cases hks.symm.trans (List.contains_iff_mem.mpr hk)
  exact ⟨hw.contains hne, fun o ho => (hw.emits o ho).parts hne⟩

theorem withSession_hears (env : Env) (buf : Bytes) {s' : P2PClient} (hs : s'.sessions = s.sessions)
    (hid : s'.nextSessionId = s.nextSessionId) (hcb : s'.callbacks = s.callbacks) (hconns : Stays u s s') :
    Hears u buf s (withSession env u (fun x => x.onFrame buf) s') := by
  have hfor : (sessionFor u s').1 = (sessionFor u s).1 := by
    unfold sessionFor
    rw [hs, hid]
    split <;> rfl
  obtain ⟨hsession, hcalls⟩ := withSession_spec env u (fun x => x.onFrame buf) s'
  rw [hfor] at hsession hcalls
  refine ⟨hsession, ?_, .after hconns ?_⟩
  · rw [hcalls, calls, hcb, ← calls]
  · unfold withSession
    have hopen : Stays u s' { (sessionFor u s').2 with
        sessions := (sessionFor u s').2.sessions.insert u ((sessionFor u s').1.onFrame buf).1 } :=
      .kept ((sessionFor_made u).links rfl).1
    exact .after hopen (.forEach (fun o t => (sessionOut_made u o t).lasting rfl) _ _)

theorem provePath_hears {buf : Bytes} {r : P2PClient × List Out} (h : Hears u buf s r) (relay : Bool) :
    Hears u buf s ((provePath relay u r.1).1, r.2 ++ (provePath relay u r.1).2) := by
  have hprove : (provePath relay u r.1).1.sessions = r.1.sessions ∧
      messages (provePath relay u r.1).2 = [] ∧ Lasting u r.1 (provePath relay u r.1) := by
    unfold provePath
    dsimp only
    split
    · exact ⟨rfl, rfl, .nothing⟩
    · split
      · refine ⟨rfl, rfl, setConn_contains _, fun o ho => ?_⟩
        rw [List.mem_singleton.mp ho]
        rfl
      · exact ⟨rfl, rfl, .state (setConn_contains _)⟩
  obtain ⟨hs, hm, hl⟩ := hprove
  refine ⟨hs ▸ h.session, ?_, IsTrans.trans _ _ _ h.lasting.1 hl.1, fun o ho => ?_⟩
  · rw [messages_append, hm, List.append_nil, h.delivers]
  · rcases List.mem_append.mp ho with ho | ho
    · exact h.lasting.2 o ho
    · exact hl.2 o ho

/-- The event brings the bytes `tx` from `u`: through the ICE library, from an address of the
peer, or through the relay. -/
inductive Arrival (u tx : Bytes) (s : P2PClient) : Event → Prop
  | ice {key : Bytes} {c : Conn} {m : Memory} (hc : s.conns[key]? = some c) (hself : c.self = true)
      (hpeer : c.peerUuid = u) (hm : m.read 0 tx.length = tx) : Arrival u tx s (.juiceRecv key m tx.length)
  | direct {m : Memory} {src : Addr} (hsrc : s.addrToPeer[addrKey src]? = some u)
      (hm : m.read 0 tx.length = tx) : Arrival u tx s (.packet m tx.length src)
  | relayed {m : Memory} (src : Addr) (hm : m.read 0 (74 + tx.length) = relayData u s.cfg.uuid tx) :
      Arrival u tx s (.packet m (74 + tx.length) src)

def relays (u v tx : Bytes) : Event :=
  .packet (.ofBytes (relayData u v tx) fun _ => 0) (74 + tx.length) ⟨0x0A000009, 4000⟩

theorem relays_arrival (u tx : Bytes) (s : P2PClient) : Arrival u tx s (relays u s.cfg.uuid tx) := by
  refine .relayed _ ?_
  rw [← relayData_length u s.cfg.uuid tx, Memory.read_ofBytes]

/-- The frame that the session gets for the bytes `tx`: these, or what they decrypt to. -/
def Passed (s : P2PClient) (u tx buf : Bytes) : Prop :=
  buf = tx ∨ ∃ w, codecReadTunnel tx = some w ∧ Opens s u w ∧
    codecReadTunnel buf = some (opened (pairKey s.cfg.secret s.cfg.uuid u) w)

/-- A client that can get frames from `u`. -/
structure Listens (u : Bytes) (s : P2PClient) : Prop where
  reachable : Reachable client s
  running : s.running = true
  own : P2PProxy.Proper s.cfg.uuid
  peer : P2PProxy.Proper u

theorem onTunnelFrame_passed (env : Env) (hkeys : KeysDerived s)
    (henc : s.tunnel.tunnelEnc = !s.cfg.secret.isEmpty) {m : Memory} {len : ℕ} {w : WireTunnel}
    (hw : codecReadTunnel (m.read 0 len) = some w) :
    ∃ buf x, Passed s u (m.read 0 len) buf ∧
      onTunnelFrame env u m len s = withSession env u (fun a => a.onFrame buf) { s with tunnel := x } := by
  obtain ⟨x, hx⟩ := decryptTunnelFrame_state u m len s
  unfold onTunnelFrame
  by_cases hsecret : s.cfg.secret = []
  · rw [if_neg (by simp [henc, hsecret])]
    exact ⟨_, s.tunnel, .inl rfl, rfl⟩
  · rw [if_pos (by simp [henc, hsecret])]
    dsimp only
    rw [hx]
    refine ⟨_, x, ?_, rfl⟩
    obtain ⟨hlen, hholds⟩ := holds_of_codecReadTunnel hw
    obtain ⟨hclosed, hopen⟩ := hholds.decrypt hlen hkeys hsecret u
    by_cases ho : Opens s u w
    · rw [hopen ho, Option.getD_some]
      exact .inr ⟨w, hw, ho, hholds.opened ho.1.2.1 _⟩
    · rw [hclosed ho, Option.getD_none]
      exact .inl rfl

theorem codecReadHead_tunnel {buf : Bytes} {w : WireTunnel} (hw : codecReadTunnel buf = some w) :
    codecReadHead buf = none := by
  unfold codecReadTunnel at hw
  split at hw
  · split at hw
    · cases hw
    · rename_i hmagic
      rw [not_or, not_not, not_not] at hmagic
      rw [hmagic.1, hmagic.2]
      rfl
  · cases hw

/-- Whatever way it came, a frame is handled by the session with the peer, and by nothing else. -/
theorem Arrival.hears (h : Listens u s) {tx : Bytes} {w : WireTunnel} (hw : codecReadTunnel tx = some w)
    (hlen : tx.length ≤ 1242) {e : Event} (ha : Arrival u tx s e) (env : Env) :
    ∃ buf, Passed s u tx buf ∧ Hears u buf s (step env e s) := by
  have hkeys := keysDerived_reachable h.reachable
  have henc := guarded_reachable h.reachable h.running
  have hlong := length_of_codecReadTunnel hw
  have hread {m : Memory} (hm : m.read 0 tx.length = tx) : codecReadTunnel (m.read 0 tx.length) = some w :=
    hm.symm ▸ hw
  cases ha with
  | ice hc hself hpeer hm =>
    rename_i key c m
    obtain ⟨buf, x, hpassed, he⟩ := onTunnelFrame_passed (u := u) env hkeys henc (hread hm)
    have hstep : step env (.juiceRecv key m tx.length) s = onTunnelFrame env u m tx.length s := by
      change onJuiceRecv env key m tx.length s = _
      rw [onJuiceRecv, hc]
      dsimp only
      rw [if_neg (by simpa [hself] using List.ne_nil_of_length_pos (by omega)), hpeer]
    rw [hm] at hpassed
    refine ⟨buf, hpassed, ?_⟩
    rw [hstep, he]
    exact withSession_hears env buf rfl rfl rfl (.kept rfl)
  | direct hsrc hm =>
    rename_i m src
    obtain ⟨buf, x, hpassed, he⟩ := onTunnelFrame_passed (u := u) (s := setConn u (connAt s u) s) env hkeys
      henc (hread hm)
    obtain ⟨-, hholds⟩ := holds_of_codecReadTunnel (hread hm)
    have hmagic : tx.length ≥ 2 ∧ rd16 (m 0) (m 1) = tunnelMagic := by
      rw [hholds.high, hholds.low]
      exact ⟨by omega, rfl⟩
    have hstep : step env (.packet m tx.length src) s = onDirectFrame env u m tx.length s := by
      change handlePacket env m tx.length src s = _
      rw [handlePacket, hm, codecReadHead_tunnel hw]
      dsimp only
      rw [if_pos hmagic, hsrc]
    rw [hm] at hpassed
    refine ⟨buf, hpassed, ?_⟩
    have hhears : Hears u buf s (withSession env u (fun a => a.onFrame buf)
        { setConn u (connAt s u) s with tunnel := x }) :=
      withSession_hears env buf rfl rfl rfl (setConn_contains _)
    rw [← he] at hhears
    rw [hstep]
    exact provePath_hears hhears false
  | relayed src hm =>
    rename_i m
    obtain ⟨c, hstep⟩ := handlePacket_relayData env h.peer h.own ⟨hlong, hlen⟩ hm src
    have htail := relayData_tail hm
    obtain ⟨buf, x, hpassed, he⟩ := onTunnelFrame_passed (u := u) (s := setConn u c s) env hkeys henc
      (hread htail)
    rw [htail] at hpassed
    refine ⟨buf, hpassed, ?_⟩
    have hhears : Hears u buf s (withSession env u (fun a => a.onFrame buf)
        { setConn u c s with tunnel := x }) :=
      withSession_hears env buf rfl rfl rfl (setConn_contains c)
    rw [← he] at hhears
    change Hears u buf s (handlePacket env m (74 + tx.length) src s)
    rw [hstep]
    exact provePath_hears hhears true

def Out.frame : Out → Bytes
  | .juice _ (.send tx) => tx
  | .raw _ tx => tx
  | .proto _ _ payload => payload.drop relayFrameSize
  | _ => []

theorem Carries.frame_eq {v tx : Bytes} {o : Out} (h : Carries u v tx o) : o.frame = tx := by
  cases h with
  | ice => rfl
  | direct dst => rfl
  | relayed dst =>
    exact List.drop_left' (by rw [List.length_append, uuidField_length, uuidField_length]; rfl)

def closing (id : UInt16) : Plain := ⟨ttClose, id, 0, 0, 0, 0, [], clear_zero, by decide⟩

theorem closing_bytes (id : UInt16) : (closing id).bytes = controlFrame ttClose id := rfl

theorem sendTunnelVia_closing (env : Env) (c : Conn) (id : UInt16) :
    sendTunnelVia env c (closing id).bytes s = transmit env c (closing id).bytes s := by
  unfold sendTunnelVia
  rw [encryptTunnelFrame_empty env _ rfl, ite_self]

/-- All that `disconnect` sends to the peer is the closing frame, in the clear. -/
theorem disconnect_carries {env : Env} {v tx : Bytes} {o : Out} (ho : o ∈ (disconnect env v s).2)
    (hc : Carries s.cfg.uuid v tx o) : tx = (closing (sessionFor v s).1.sessionId).bytes := by
  unfold disconnect at ho
  split at ho
  · cases ho
  · rename_i c _
    rcases mem_andThen.mp ho with ho | ho
    · have hcfg : (sessionFor v s).2.cfg = s.cfg := ((sessionFor_made v).calm rfl).1.cfg
      rw [← closing_bytes, sendTunnelVia_closing] at ho
      have hsent := transmit_carries env c _ o ho
      rw [hcfg] at hsent
      rw [← hc.frame_eq, hsent.frame_eq]
    · unfold closeConn at ho
      dsimp only at ho
      rcases List.mem_append.mp ho with ho | ho
      · split at ho
        · rw [List.mem_singleton.mp ho] at hc
          cases hc
        · cases ho
      · split at ho
        · simp only [List.mem_cons, List.not_mem_nil, or_false] at ho
          rcases ho with rfl | rfl <;> cases hc
        · cases ho

/-- Unreliable data is delivered encrypted or not, and whether or not it can be decrypted. -/
theorem carried_unreliable (secret v : Bytes) {nonce : Bytes} (hn : nonce.length = 12) {f : Plain}
    (htype : f.type = ttData) (hflags : f.flags = 0) (hpay : f.payload ≠ []) :
    ∃ w, codecReadTunnel (carried secret u v nonce f) = some w ∧ Session.Unreliable w ∧
      ∀ key, w.flags &&& tfEnc ≠ 0 → Session.Unreliable (opened key w) := by
  unfold carried
  split
  · refine ⟨_, f.codecReadTunnel_bytes, ⟨htype, ?_, hpay⟩, fun _ he => absurd f.clear he⟩
    change f.flags &&& tfReliable = 0
    rw [hflags]
    decide
  · have hw := f.codecReadTunnel_encrypted (pairKey secret u v) hn
    obtain ⟨-, hcipher, -⟩ := f.wire_parts (pairKey secret u v) hn
    have hlen := f.sealed_length (pairKey secret u v) hn
    refine ⟨_, hw, ⟨htype, ?_, List.ne_nil_of_length_pos ?_⟩, fun key _ => ⟨htype, ?_, ?_⟩⟩
    · change (f.flags ||| tfEnc) &&& tfReliable = 0
      rw [hflags]
      decide
    · rw [Plain.wire, hlen]
      omega
    · change ((f.flags ||| tfEnc) &&& ~~~tfEnc) &&& tfReliable = 0
      rw [hflags]
      decide
    · rw [opened, hcipher]
      refine List.ne_nil_of_length_pos ?_
      rw [aes256CtrXor_length, aes256CtrXor_length]
      exact List.length_pos_iff.mpr hpay

/-- No frame of the peer's session `id` reaches the application any more. -/
def Silent (secret u : Bytes) (id : UInt16) (s : P2PClient) : Prop :=
  ∀ (es : List (Env × Event)) (env : Env) (e : Event) (nonce : Bytes) (f : Plain),
    let t := es.foldl client.next s
    Run client (fun _ _ => True) s es → client.enabled t (env, e) → nonce.length = 12 → f.sessionId = id →
      Arrival u (carried secret u t.cfg.uuid nonce f) t e → messages (step env e t).2 = []

theorem carried_length_short (secret v : Bytes) {nonce : Bytes} (hn : nonce.length = 12) (f : Plain) :
    (carried secret u v nonce f).length ≤ 1242 := (carried_length secret u v hn f).2

/-- One more byte of the session, unreliable and on channel 0. -/
def oneByte (id : UInt16) : Plain := ⟨ttData, id, 0, 0, 0, 0, [0x41], clear_zero, short_letter⟩

theorem not_silent (h : Listens u s) (hcb : s.callbacks.onMessage = true) (secret : Bytes) (id : UInt16) :
    ¬Silent secret u id s := by
  intro hsilent
  have hn : (List.replicate 12 (0 : UInt8)).length = 12 := List.length_replicate
  obtain ⟨w, hw, hplain, hopened⟩ := carried_unreliable (u := u) secret s.cfg.uuid hn (f := oneByte id)
    rfl rfl (List.cons_ne_nil _ _)
  have hlen := carried_length_short (u := u) secret s.cfg.uuid hn (oneByte id)
  generalize htx : carried secret u s.cfg.uuid (List.replicate 12 0) (oneByte id) = tx at hw hlen
  have harrival := relays_arrival u tx s
  have hnone := hsilent [] {} (relays u s.cfg.uuid tx) _ (oneByte id) trivial h.running hn rfl
    (htx.symm ▸ harrival)
  obtain ⟨buf, hpassed, hhears⟩ := harrival.hears h hw hlen {}
  have hdelivers : ∃ ch payload, Session.onData ((sessionFor u s).1.onFrame buf).2 = [(ch, payload)] := by
    rcases hpassed with rfl | ⟨w', hw', hopens, hbuf⟩
    · exact ⟨_, _, hplain.onData hw _⟩
    · obtain rfl := Option.some.inj (hw.symm.trans hw')
      exact ⟨_, _, (hopened _ hopens.1.1).onData hbuf _⟩
  obtain ⟨ch, payload, hdata⟩ := hdelivers
  have hmessages := hhears.delivers
  rw [calls, if_pos hcb, hdata, htx] at *
  cases hnone.symm.trans hmessages

theorem Arrival.listens (h : Listens u s) {tx : Bytes} {e : Event} (ha : Arrival u tx s e) (env : Env) :
    Listens u (step env e s).1 ∧ (step env e s).1.callbacks = s.callbacks := by
  have hcan : client.enabled s (env, e) := by
    cases ha with
    | ice => trivial
    | direct => exact h.running
    | relayed => exact h.running
  rcases step_mild env e (s := s) with ⟨cfg, rfl⟩ | rfl | hmild
  · cases ha
  · cases ha
  · exact ⟨⟨h.reachable.step hcan trivial, hmild.running.trans h.running, hmild.cfg ▸ h.own, h.peer⟩,
      hmild.callbacks⟩

/-- Two running clients with a connection to each other. -/
structure Connected (sa sb : P2PClient) : Prop where
  sender : Listens sb.cfg.uuid sa
  receiver : Listens sa.cfg.uuid sb
  toReceiver : ∃ c, sa.conns[sb.cfg.uuid]? = some c ∧ c.connected = true
  toSender : ∃ c, sb.conns[sa.cfg.uuid]? = some c ∧ c.connected = true

/-- The close frame `tx` has ended the connection of `sb` with `sa`. -/
structure Ended (sa sb : P2PClient) (tx : Bytes) (r : P2PClient × List Out) : Prop where
  notified : .disconnected sa.cfg.uuid ∈ r.2
  connGone : r.1.conns[sa.cfg.uuid]? = none
  sessionGone : r.1.sessions[sa.cfg.uuid]? = none
  silent : Silent sa.cfg.secret sa.cfg.uuid (sessionFor sb.cfg.uuid sa).1.sessionId r.1
  inert : ((sessionFor sa.cfg.uuid sb).1.onFrame tx).1.Inert

/-- The close frame of a peer that disconnects never ends the connection, and no part of what
that means holds: the session stays, with a flag cleared. -/
theorem close_ignored {sa sb : P2PClient} (h : Connected sa sb) {env : Env} {o : Out}
    (ho : o ∈ (disconnect env sb.cfg.uuid sa).2) {tx : Bytes} (hc : Carries sa.cfg.uuid sb.cfg.uuid tx o)
    {e : Event} (ha : Arrival sa.cfg.uuid tx sb e) (env' : Env) :
    let r := step env' e sb
    ¬Ended sa sb tx r ∧ .disconnected sa.cfg.uuid ∉ r.2 ∧ r.1.conns[sa.cfg.uuid]? ≠ none ∧
      r.1.sessions[sa.cfg.uuid]? = some { (sessionFor sa.cfg.uuid sb).1 with active := false } ∧
      (sb.callbacks.onMessage = true →
        ¬Silent sa.cfg.secret sa.cfg.uuid (sessionFor sb.cfg.uuid sa).1.sessionId r.1) ∧
      ¬((sessionFor sa.cfg.uuid sb).1.onFrame tx).1.Inert := by
  intro r
  obtain rfl := disconnect_carries ho hc
  generalize (sessionFor sb.cfg.uuid sa).1.sessionId = id at ha
  have hclose := (closing id).codecReadTunnel_bytes
  have hlen : (closing id).bytes.length ≤ 1242 := by
    rw [(closing id).bytes_length]
    exact Nat.le_of_ble_eq_true rfl
  obtain ⟨buf, hpassed, hhears⟩ := ha.hears h.receiver hclose hlen env'
  have hbuf : buf = (closing id).bytes := by
    rcases hpassed with hsame | ⟨w, hw, hopens, -⟩
    · exact hsame
    · obtain rfl := Option.some.inj (hclose.symm.trans hw)
      exact absurd (closing id).clear hopens.1.1
  subst hbuf
  have hframe := Session.onFrame_closes ⟨_, hclose, rfl⟩ (sessionFor sa.cfg.uuid sb).1
  have hnotified : .disconnected sa.cfg.uuid ∉ r.2 := fun hd => Bool.noConfusion (hhears.lasting.2 _ hd)
  have hconns : r.1.conns[sa.cfg.uuid]? ≠ none := by
    obtain ⟨c, hc, -⟩ := h.toSender
    have hstays := hhears.lasting.1
    simp only [Stays, Std.ExtTreeMap.contains_eq_isSome_getElem?, hc, Option.isSome_some] at hstays
    exact Option.isSome_iff_ne_none.mp (hstays trivial)
  have hsession := hhears.session
  rw [hframe] at hsession
  refine ⟨fun hended => hnotified hended.notified, hnotified, hconns, hsession, fun hcb => ?_, ?_⟩
  · obtain ⟨hlistens, hcallbacks⟩ := ha.listens h.receiver env'
    exact not_silent hlistens (hcallbacks ▸ hcb) _ _
  · exact Session.not_inert _

def met (u v : Bytes) : P2PClient :=
  client.next (client.next (started u) ({}, .connect v)) ({}, .juiceState v)

theorem met_reachable {u v : Bytes} : Reachable client (met u v) :=
  .step (.step (.step (.start ⟨_, _, rfl⟩) trivial trivial) trivial trivial) trivial trivial

def metU : P2PClient := met Samples.uuidU Samples.uuidV

def metV : P2PClient := met Samples.uuidV Samples.uuidU

theorem met_cfg : metU.cfg.uuid = Samples.uuidU ∧ metV.cfg.uuid = Samples.uuidV := by decide +kernel

theorem connected_met : Connected metU metV := by
  refine ⟨?_, ?_, ?_, ?_⟩
  · rw [met_cfg.2]
    exact ⟨met_reachable, by decide +kernel, met_cfg.1 ▸ P2PProxy.proper_uuidU, P2PProxy.proper_uuidV⟩
  · rw [met_cfg.1]
    exact ⟨met_reachable, by decide +kernel, met_cfg.2 ▸ P2PProxy.proper_uuidV, P2PProxy.proper_uuidU⟩
  · exact ⟨connAt metU Samples.uuidV, by decide +kernel, by decide +kernel⟩
  · exact ⟨connAt metV Samples.uuidU, by decide +kernel, by decide +kernel⟩

def goodbye : Event := .juiceRecv Samples.uuidU (.ofBytes (controlFrame ttClose 1) fun _ => 0) 14

theorem goodbye_arrival : Arrival metU.cfg.uuid (controlFrame ttClose 1) metV goodbye :=
  .ice (c := connAt metV Samples.uuidU) (by decide +kernel) (by decide +kernel) (by decide +kernel)
    (Memory.read_ofBytes _ _)

theorem goodbye_sent : .juice metV.cfg.uuid (.send (controlFrame ttClose 1)) ∈
    (disconnect {} metV.cfg.uuid metU).2 := by decide +kernel

theorem close_ignored_met : ¬Ended metU metV (controlFrame ttClose 1) (step {} goodbye metV) := by
  have hcarries : Carries metU.cfg.uuid metV.cfg.uuid (controlFrame ttClose 1) (.juice metV.cfg.uuid
    (.send (controlFrame ttClose 1))) := .ice
  have hclose := close_ignored connected_met goodbye_sent hcarries goodbye_arrival {}
  exact hclose.1

theorem not_ended_met : ¬∀ (sa sb : P2PClient) (env env' : Env) (o : Out) (tx : Bytes) (e : Event),
    Connected sa sb → o ∈ (disconnect env sb.cfg.uuid sa).2 → Carries sa.cfg.uuid sb.cfg.uuid tx o →
      Arrival sa.cfg.uuid tx sb e → Ended sa sb tx (step env' e sb) := by
  intro h
  have hended := h metU metV {} {} _ _ goodbye connected_met goodbye_sent .ice goodbye_arrival
  have hquiet : .disconnected metU.cfg.uuid ∉ (step {} goodbye metV).2 := by decide +kernel
  exact hquiet hended.notified

end P2PClient

end P2PServer
