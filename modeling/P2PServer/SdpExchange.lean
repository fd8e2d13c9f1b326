import P2PServer.AuthAnswers
import P2PServer.ConnNames

/-! The exchange of ICE descriptions. A message names only its destination, and the client gives
the description to a connection that waits for one, whichever its table yields first, or keeps it for
the next invite. -/
namespace P2PServer.P2PClient
open ByteStrings ProtoDef Net Codec Crypto Effects

/-- The text of a well-formed `IceSdpMsg`. -/
def descriptionOf (p : Bytes) : Option Bytes :=
  if p.length < iceSdpHead ∨ p.length < iceSdpHead + (u16At p 34).toNat then none
  else some (window p 36 (u16At p 34).toNat)

/-- The connection is set up and has no remote description. -/
def Conn.waits (c : Conn) : Bool := c.connecting && c.punch.juice && c.punch.remoteSdp.isEmpty

def waiting (s : P2PClient) : List (Bytes × Conn) := s.conns.toList.filter fun kc => kc.2.waits

/-- The description is dropped, kept for an invite, or applied to a connection. -/
inductive Fate
  | dropped
  | kept (sdp : Bytes)
  | applied (key : Bytes) (c : Conn) (sdp : Bytes)

/-- `dst` is a peer's uuid. -/
def fateByPeer (dst sdp : Bytes) (s : P2PClient) : Fate :=
  match s.conns[dst]? with
  | none => .dropped
  | some c => if c.punch.juice then .applied dst c sdp else .kept sdp

def fate (env : Env) (p : Bytes) (s : P2PClient) : Fate :=
  match descriptionOf p with
  | none => .dropped
  | some sdp =>
    if uuidAt p 0 = s.cfg.uuid then
      match sdpTarget env s with
      | none => .kept sdp
      | some (key, c) => .applied key c sdp
    else fateByPeer (uuidAt p 0) sdp s

def suffer : Fate → Action
  | .dropped => skip
  | .kept sdp => modify fun s => { s with pendingRemoteSdp := sdp }
  | .applied key c sdp => fun s => (setConn key (applyRemoteIceSdp c sdp).1 s, (applyRemoteIceSdp c sdp).2)

variable {s : P2PClient} {p : Bytes}

theorem mem_waiting {kc : Bytes × Conn} :
    kc ∈ waiting s ↔ s.conns[kc.1]? = some kc.2 ∧ kc.2.waits = true := by
  rw [waiting, List.mem_filter, ← Std.ExtTreeMap.mem_toList_iff_getElem?_eq_some]

theorem Conn.waits_iff {c : Conn} : c.waits = true ↔
    c.connecting = true ∧ c.punch.juice = true ∧ c.punch.remoteSdp = [] := by
  simp [Conn.waits, and_assoc]

/-- Whatever the order of the table, the target is one of those that wait. -/
theorem sdpTarget_mem {env : Env} {kc : Bytes × Conn} (h : sdpTarget env s = some kc) : kc ∈ waiting s := by
  refine mem_waiting.mpr ⟨TreeMaps.Walk.mem_entries.mp (List.mem_of_find?_eq_some h), ?_⟩
  unfold sdpTarget at h
  have hwaits := List.find?_some h
  exact hwaits

theorem sdpTarget_none {env : Env} (h : sdpTarget env s = none) : waiting s = [] := by
  rw [List.eq_nil_iff_forall_not_mem]
  intro kc hkc
  obtain ⟨hget, hwaits⟩ := mem_waiting.mp hkc
  exact List.find?_eq_none.mp h kc (TreeMaps.Walk.mem_entries.mpr hget) hwaits

theorem onIceSdp_fate (env : Env) (p : Bytes) (s : P2PClient) : onIceSdp env p s = suffer (fate env p s) s := by
  unfold onIceSdp fate descriptionOf
  by_cases hlen : p.length < iceSdpHead
  · simp [hlen, suffer, skip]
  by_cases hsdp : p.length < iceSdpHead + (u16At p 34).toNat
  · simp [hlen, hsdp, suffer, skip]
  simp only [hlen, hsdp, or_self, if_false]
  by_cases hdst : uuidAt p 0 = s.cfg.uuid
  · simp only [hdst, if_true]
    cases hw : sdpTarget env s with
    | none => rfl
    | some kc =>
      have hjuice := (Conn.waits_iff.mp (mem_waiting.mp (sdpTarget_mem hw)).2).2.1
      simp [hjuice, suffer]
  · simp only [hdst, if_false, fateByPeer]
    cases s.conns[uuidAt p 0]? with
    | none => rfl
    | some c => cases hj : c.punch.juice <;> simp [hj, suffer, Effects.modify]

theorem handlePacket_description {env : Env} {m : Memory} {len : ℕ} {src : Addr}
    (h : protoOf m len = some (msgIceSdp, p)) : handlePacket env m len src s = suffer (fate env p s) s := by
  obtain ⟨plen, rfl, he⟩ := handlePacket_message env src s h
  rw [he, ← onIceSdp_fate]
  rfl

theorem handlePacket_invite {env : Env} {m : Memory} {len : ℕ} {src : Addr}
    (h : protoOf m len = some (msgConnectInvite, p)) :
    handlePacket env m len src s = onConnectInvite env p s := by
  obtain ⟨plen, rfl, he⟩ := handlePacket_message env src s h
  rw [he]
  rfl

theorem start_running {env : Env} {cfg : Config} (h : s.running = true) : start env cfg s = none := by
  unfold start
  split
  · rfl
  · simp [h]

/-- The calls that set a description: the peer of the connection, and the text. -/
def settings (outs : List Out) : List (Bytes × Bytes) :=
  outs.filterMap fun
    | .juice peer (.setRemoteDescription sdp) => some (peer, sdp)
    | _ => none

theorem settings_append (outs outs' : List Out) :
    settings (outs ++ outs') = settings outs ++ settings outs' := List.filterMap_append

theorem settings_nothing {outs : List Out} (h : ∀ o ∈ outs, o.appliesSdp = false) : settings outs = [] := by
  refine List.filterMap_eq_nil_iff.mpr fun o ho => ?_
  split
  · exact absurd (h _ ho) (by simp [Out.appliesSdp])
  · rfl

theorem settings_apply {c : Conn} {sdp : Bytes} (hj : c.punch.juice = true) (hs : sdp ≠ []) :
    settings (applyRemoteIceSdp c sdp).2 = [(c.peerUuid, sdp)] := by
  simp [applyRemoteIceSdp, hj, hs, settings]

theorem settings_apply_none {c : Conn} {sdp : Bytes} (h : c.punch.juice = false ∨ sdp = []) :
    settings (applyRemoteIceSdp c sdp).2 = [] := by
  rcases h with h | h <;> simp [applyRemoteIceSdp, h, settings]

/-- The invite makes an end of the buffered description. -/
def takesSlot (p : Bytes) (s : P2PClient) : Bool :=
  connectInviteSize ≤ p.length && !(uuidAt p 0).isEmpty && !s.cfg.forceRelay && !s.pendingRemoteSdp.isEmpty

def agentFor (env : Env) (peer : Bytes) (s : P2PClient) : Bool := (connAt s peer).punch.juice || env.juiceOk

theorem uuidAt_take {n : ℕ} (p : Bytes) (h : maxUuidLen ≤ n) : uuidAt (p.take n) 0 = uuidAt p 0 := by
  simp [uuidAt, textAt, window, List.take_take, min_eq_left h]

theorem adoptProxies_pending (now : UInt64) (cands : List ServerAddr) (s : P2PClient) :
    (adoptProxies now cands s).pendingRemoteSdp = s.pendingRemoteSdp := ((adoptProxies_made now cands).idle rfl).1.pending

theorem ensureIceAgent_juice (env : Env) {cfg : Config} (h : cfg.forceRelay = false) (c : Conn) :
    (ensureIceAgent env cfg c).1.punch.juice = (c.punch.juice || env.juiceOk) := by
  unfold ensureIceAgent
  cases hj : c.punch.juice <;> cases hk : env.juiceOk <;> simp [h, hj]

theorem ensureIceAgent_peerUuid (env : Env) (cfg : Config) (c : Conn) :
    (ensureIceAgent env cfg c).1.peerUuid = c.peerUuid := by
  unfold ensureIceAgent
  split
  · rfl
  · split <;> rfl

theorem settings_ensure (env : Env) (cfg : Config) (c : Conn) : settings (ensureIceAgent env cfg c).2 = [] := by
  unfold ensureIceAgent
  split
  · rfl
  · split <;> rfl

theorem onConnectInvite_keeps (env : Env) (h : takesSlot p s = false) :
    (onConnectInvite env p s).1.pendingRemoteSdp = s.pendingRemoteSdp ∧
      settings (onConnectInvite env p s).2 = [] := by
  unfold onConnectInvite
  dsimp only
  rw [uuidAt_take p (by decide)]
  split
  · exact ⟨rfl, rfl⟩
  · split
    · exact ⟨rfl, rfl⟩
    · split
      · exact ⟨adoptProxies_pending _ _ _, rfl⟩
      · rename_i hlen hpeer hrelay
        have hempty : s.pendingRemoteSdp = [] := by
          simpa [takesSlot, Nat.le_of_not_lt hlen, hpeer, hrelay] using h
        rw [adoptProxies_pending, hempty]
        refine ⟨rfl, ?_⟩
        rw [List.isEmpty_nil, if_pos rfl, List.append_nil]
        exact settings_ensure env s.cfg _

theorem onConnectInvite_takes (env : Env) (h : takesSlot p s = true) :
    (onConnectInvite env p s).1.pendingRemoteSdp = [] ∧
      settings (onConnectInvite env p s).2 =
        if agentFor env (uuidAt p 0) s then [(uuidAt p 0, s.pendingRemoteSdp)] else [] := by
  simp only [takesSlot, Bool.and_eq_true, Bool.not_eq_true', decide_eq_true_eq] at h
  obtain ⟨⟨⟨hlen, hpeer⟩, hrelay⟩, hpending⟩ := h
  unfold onConnectInvite
  dsimp only
  rw [uuidAt_take p (by decide), if_neg (Nat.not_lt.mpr hlen), if_neg (by simp [hpeer]), if_neg (by simp [hrelay]),
    if_neg (by simp [hpending])]
  refine ⟨adoptProxies_pending _ _ _, ?_⟩
  rw [settings_append, settings_ensure, List.nil_append]
  split
  · rename_i hagent
    rw [settings_apply, ensureIceAgent_peerUuid]
    · rw [ensureIceAgent_juice env hrelay]
      exact hagent
    · simpa using hpending
  · rename_i hagent
    refine settings_apply_none (.inl ?_)
    rw [ensureIceAgent_juice env hrelay]
    simpa [agentFor] using hagent

end P2PServer.P2PClient

namespace P2PServer.SdpExchange
open ByteStrings ProtoDef Net NatServer Transitions
open P2PClient (Named settings descriptionOf waiting takesSlot agentFor)

/-- The client under study: its uuid, and the address at which the server knows it. -/
structure Party where
  uuid : Bytes
  addr : Addr

/-- A datagram with the message `MSG_ICE_SDP`, and the client that posted it. -/
structure Letter where
  sender : Bytes
  data : Bytes
  deriving DecidableEq

structure Description where
  sender : Bytes
  sdp : Bytes
  deriving DecidableEq, Repr

/-- A text set at the connection of a peer, and the description from which it was taken. -/
structure Application where
  peer : Bytes
  sdp : Bytes
  source : Option Description
  deriving DecidableEq, Repr

/-- `toServer` and `toClient` hold what was ever sent. `slot` is the description that was kept
last; `early` are those that came before a connection to their sender was set up, until they
are applied to it. -/
structure World where
  client : P2PClient
  peers : Bytes → P2PClient
  server : NatServer
  toServer : List Letter
  toClient : List Letter
  slot : Option Description
  early : List Description
  applied : List Application

inductive Event
  | own (env : P2PClient.Env) (e : P2PClient.Event)
  | peer (b : Bytes) (env : P2PClient.Env) (e : P2PClient.Event)
  | relay (env : Env) (l : Letter) (src : Addr)
  | serve (e : ServerRun.Event)
  | arrive (env : P2PClient.Env) (l : Letter) (m : Memory) (len : ℕ) (src : Addr)

def payloadIn (data : Bytes) : Option Bytes :=
  match readDatagram data with
  | some (id, p) => if id = msgIceSdp then some p else none
  | none => none

def posted (sender : Bytes) (outs : List P2PClient.Out) : List Letter :=
  outs.filterMap fun
    | .proto _ id payload => if id = msgIceSdp then some ⟨sender, datagram id payload⟩ else none
    | _ => none

def delivered (K : Party) (sender : Bytes) (outs : List Out) : List Letter :=
  outs.filterMap fun
    | .send dst data => if dst = K.addr then some ⟨sender, data⟩ else none
    | .writeFile _ _ => none

/-- The client acts. What it sets at a connection comes from `source`. -/
def act (K : Party) (source : Option Description) (f : P2PClient.Action) (w : World) : World :=
  let r := f w.client
  { w with
    client := r.1
    toServer := w.toServer ++ posted K.uuid r.2
    early := w.early.filter fun d => (d.sender, d.sdp) ∉ settings r.2
    applied := w.applied ++ (settings r.2).map fun x => ⟨x.1, x.2, source⟩ }

/-- A text for this client comes while no connection to its sender is set up. -/
def comesEarly (s : P2PClient) (p : Bytes) (d : Description) : Bool :=
  uuidAt p 0 = s.cfg.uuid && !(P2PClient.connAt s d.sender).connecting && !d.sdp.isEmpty

def receive (K : Party) (env : P2PClient.Env) (sender p : Bytes) (m : Memory) (len : ℕ) (src : Addr)
    (w : World) : World :=
  let d : Option Description := (descriptionOf p).map fun sdp => ⟨sender, sdp⟩
  let w' := act K d (P2PClient.step env (.packet m len src)) w
  { w' with
    slot := match P2PClient.fate env p w.client with
      | .kept sdp => some ⟨sender, sdp⟩
      | .dropped | .applied _ _ _ => w.slot
    early := w'.early ++ d.toList.filter (comesEarly w.client p) }

def next (K : Party) (w : World) : Event → World
  | .own env e => act K w.slot (P2PClient.step env e) w
  | .peer b env e =>
    let r := P2PClient.step env e (w.peers b)
    { w with peers := Function.update w.peers b r.1, toServer := w.toServer ++ posted b r.2 }
  | .relay env l src =>
    let r := handlePacket env l.data src w.server
    { w with server := r.1, toClient := w.toClient ++ delivered K l.sender r.2 }
  | .serve e => { w with server := (ServerRun.step w.server e).1 }
  | .arrive env l m len src =>
    match payloadIn l.data with
    | none => w
    | some p => receive K env l.sender p m len src w

def keepsUuid (uuid : Bytes) : P2PClient.Event → Prop
  | .start cfg => cfg.uuid = uuid
  | _ => True

/-- Descriptions reach the client and the server as letters only. -/
def enabled (K : Party) (w : World) : Event → Prop
  | .own _ e => P2PClient.enabled w.client e ∧ keepsUuid K.uuid e ∧ ¬ e.brings msgIceSdp
  | .peer b _ e => b ≠ K.uuid ∧ P2PClient.enabled (w.peers b) e ∧ keepsUuid b e
  | .relay _ l _ => l ∈ w.toServer
  | .serve e => ∀ env data src, e = .packet env data src → payloadIn data = none
  | .arrive _ l m len _ => l ∈ w.toClient ∧ m.read 0 len = l.data ∧ w.client.running = true

structure Initial (K : Party) (w : World) : Prop where
  client : ∃ cfg callbacks, cfg.uuid = K.uuid ∧ w.client = { cfg := cfg, callbacks := callbacks }
  peers : ∀ b, ∃ cfg callbacks, cfg.uuid = b ∧ w.peers b = { cfg := cfg, callbacks := callbacks }
  server : ServerRun.Started w.server
  toServer : w.toServer = []
  toClient : w.toClient = []
  slot : w.slot = none
  early : w.early = []
  applied : w.applied = []

def system (K : Party) : System World Event where
  init := Initial K
  enabled := enabled K
  next := next K

/-- The client `sender` posted this text. -/
def Sent (w : World) (d : Description) : Prop :=
  ∃ l ∈ w.toServer, l.sender = d.sender ∧ (payloadIn l.data).bind descriptionOf = some d.sdp

/-- Each text is set at the connection of the peer that sent it, and a text that came early waits
until then. -/
structure Right (w : World) : Prop where
  applied : ∀ x ∈ w.applied, x.source = some ⟨x.peer, x.sdp⟩ ∧ Sent w ⟨x.peer, x.sdp⟩
  early : ∀ d ∈ w.early, w.slot = some d ∧ w.client.pendingRemoteSdp = d.sdp

/-- No connection waits for a description but the sender's. If none waits, then the text that comes
takes the place of no other that came early. -/
def ArrivesClear (w : World) (sender p : Bytes) : Prop :=
  ∀ sdp ∈ descriptionOf p,
    if uuidAt p 0 = w.client.cfg.uuid then
      (∀ kc ∈ waiting w.client, kc.1 = sender) ∧
        (waiting w.client = [] → ∀ d ∈ w.early, d = ⟨sender, sdp⟩)
    else w.client.conns[uuidAt p 0]? = none

/-- If the invite makes an end of a kept description, then its sender had sent that; and if no
agent can be made, the description did not come early. -/
def InviteClear (env : P2PClient.Env) (w : World) (p : Bytes) : Prop :=
  takesSlot p w.client = true →
    if agentFor env (uuidAt p 0) w.client then w.slot.map (·.sender) = some (uuidAt p 0) else w.early = []

/-- A start drops the kept description. -/
def Clear (w : World) : Event → Prop
  | .own _ (.start _) => w.client.running = true ∨ w.early = []
  | .own env (.packet m len _) => ∀ p, P2PClient.protoOf m len = some (msgConnectInvite, p) → InviteClear env w p
  | .arrive _ l _ _ _ => ∀ p ∈ payloadIn l.data, ArrivesClear w l.sender p
  | _ => True

theorem Sent.mono {w w' : World} {d : Description} (h : Sent w d) (hsub : w.toServer ⊆ w'.toServer) : Sent w' d := by
  obtain ⟨l, hl, hd⟩ := h
  exact ⟨l, hsub hl, hd⟩

theorem payloadIn_of_read {data p : Bytes} (h : readDatagram data = some (msgIceSdp, p)) :
    payloadIn data = some p := by
  rw [payloadIn, h]
  rfl

theorem descriptionOf_set (p : Bytes) : descriptionOf (p.set maxUuidLen 0) = descriptionOf p := by
  have hat (i : ℕ) (h : maxUuidLen < i) : byteAt (p.set maxUuidLen 0) i = byteAt p i := by
    simp [byteAt, List.getD_eq_getElem?_getD, List.getElem?_set_ne (Nat.ne_of_lt h)]
  have hlen : u16At (p.set maxUuidLen 0) 34 = u16At p 34 := by
    rw [u16At, u16At, hat 34 (by decide), hat 35 (by decide)]
  simp [descriptionOf, hlen, window, List.drop_set_of_lt (show maxUuidLen < 36 by decide)]

theorem posted_ice {sender : Bytes} {outs : List P2PClient.Out} {l : Letter} (h : l ∈ posted sender outs) :
    ∃ payload, l.data = datagram msgIceSdp payload := by
  obtain ⟨o, -, hl⟩ := List.mem_filterMap.mp h
  split at hl
  · rename_i id payload
    split at hl
    · rename_i hid
      rw [← Option.some.inj hl, hid]
      exact ⟨payload, rfl⟩
    · cases hl
  · cases hl

theorem delivered_ice {K : Party} {sender payload : Bytes} {env : Env} {src : Addr} {s : NatServer} {l : Letter}
    (h : l ∈ delivered K sender (handlePacket env (datagram msgIceSdp payload) src s).2) :
    ∃ p, readDatagram (datagram msgIceSdp payload) = some (msgIceSdp, p) ∧ l.sender = sender ∧
      readDatagram l.data = some (msgIceSdp, p.set maxUuidLen 0) := by
  obtain ⟨o, ho, hl⟩ := List.mem_filterMap.mp h
  cases hread : readDatagram (datagram msgIceSdp payload) with
  | none =>
    rw [handlePacket, hread] at ho
    exact absurd ho List.not_mem_nil
  | some x =>
    obtain ⟨id, p⟩ := x
    obtain rfl := readDatagram_id hread
    have hsend : o ∈ (onIceSdp p s).2 := by
      rw [ServerRun.handlePacket_read hread] at ho
      exact ho
    refine ⟨p, rfl, ?_⟩
    unfold onIceSdp at hsend
    split at hsend
    · exact absurd hsend List.not_mem_nil
    · dsimp only at hsend
      split at hsend
      · exact absurd hsend List.not_mem_nil
      · split at hsend
        · exact absurd hsend List.not_mem_nil
        · obtain ⟨rfl, hback⟩ := AuthAnswers.sendMsg_read hsend
          dsimp only at hl
          split at hl
          · rw [← Option.some.inj hl]
            exact ⟨rfl, hback⟩
          · cases hl

structure Inv (w : World) : Prop extends Right w where
  named : Named w.client
  slot : w.client.pendingRemoteSdp ≠ [] →
    ∃ d, w.slot = some d ∧ d.sdp = w.client.pendingRemoteSdp ∧ Sent w d
  posted : ∀ l ∈ w.toServer, ∃ payload, l.data = datagram msgIceSdp payload
  carried : ∀ l ∈ w.toClient, ∃ p, readDatagram l.data = some (msgIceSdp, p) ∧
    ∀ sdp, descriptionOf p = some sdp → Sent w ⟨l.sender, sdp⟩
  text : ∀ d ∈ w.early, d.sdp ≠ []

theorem Inv.initial {K : Party} {w : World} (h : Initial K w) : Inv w := by
  obtain ⟨cfg, callbacks, -, hclient⟩ := h.client
  refine ⟨⟨?_, ?_⟩, ?_, ?_, ?_, ?_, ?_⟩
  · simp [h.applied]
  · simp [h.early]
  · rw [hclient]
    exact P2PClient.named_reachable (.start ⟨cfg, callbacks, rfl⟩)
  · simp [hclient]
  · simp [h.toServer]
  · simp [h.toClient]
  · simp [h.early]

variable {K : Party} {w : World}

/-- The client acts, and what it sets at a connection was sent by the peer of that. -/
theorem Inv.acted {source : Option Description} {f : P2PClient.Action} (h : Inv w) (hnamed : Named (f w.client).1)
    (hset : ∀ x ∈ settings (f w.client).2, source = some ⟨x.1, x.2⟩ ∧ Sent w ⟨x.1, x.2⟩)
    (hslot : (f w.client).1.pendingRemoteSdp ≠ [] →
      (f w.client).1.pendingRemoteSdp = w.client.pendingRemoteSdp)
    (hearly : ∀ d ∈ w.early, (d.sender, d.sdp) ∉ settings (f w.client).2 →
      (f w.client).1.pendingRemoteSdp = w.client.pendingRemoteSdp) : Inv (act K source f w) := by
  have hsub : w.toServer ⊆ (act K source f w).toServer := List.subset_append_left _ _
  refine ⟨⟨fun x hx => ?_, fun d hd => ?_⟩, hnamed, fun hp => ?_, fun l hl => ?_, fun l hl => ?_, fun d hd => ?_⟩
  · rcases List.mem_append.mp hx with hx | hx
    · exact ⟨(h.applied x hx).1, (h.applied x hx).2.mono hsub⟩
    · obtain ⟨y, hy, rfl⟩ := List.mem_map.mp hx
      exact ⟨(hset y hy).1, (hset y hy).2.mono hsub⟩
  · obtain ⟨hmem, hnot⟩ := List.mem_filter.mp hd
    obtain ⟨hs, hp⟩ := h.early d hmem
    exact ⟨hs, (hearly d hmem (by simpa using hnot)).trans hp⟩
  · have hsame : (f w.client).1.pendingRemoteSdp = w.client.pendingRemoteSdp := hslot hp
    obtain ⟨d, hs, htext, hsent⟩ := h.slot (hsame ▸ hp)
    exact ⟨d, hs, htext.trans hsame.symm, hsent.mono hsub⟩
  · rcases List.mem_append.mp hl with hl | hl
    · exact h.posted l hl
    · exact posted_ice hl
  · obtain ⟨p, hread, hsent⟩ := h.carried l hl
    exact ⟨p, hread, fun sdp hd => (hsent sdp hd).mono hsub⟩
  · exact h.text d (List.mem_of_mem_filter hd)

theorem Inv.idle {source : Option Description} {f : P2PClient.Action} (h : Inv w)
    (hf : P2PClient.Files w.client (f w.client)) : Inv (act K source f w) := by
  have hnone := P2PClient.settings_nothing hf.2
  exact h.acted (hf.1.named h.named) (by simp [hnone]) (fun _ => hf.1.pending) fun _ _ _ => hf.1.pending

theorem Inv.start {env : P2PClient.Env} {cfg : P2PClient.Config} (h : Inv w)
    (hclear : w.client.running = true ∨ w.early = []) :
    Inv (act K w.slot (P2PClient.step env (.start cfg)) w) := by
  have hstep : P2PClient.step env (.start cfg) w.client =
      ((P2PClient.start env cfg w.client).getD w.client, []) := rfl
  refine h.acted (P2PClient.step_named env _ h.named) ?_ ?_ ?_ <;> rw [hstep]
  · simp [settings]
  · cases hs : P2PClient.start env cfg w.client with
    | none => exact fun _ => rfl
    | some s' => exact fun hne => absurd (P2PClient.start_conns hs).2 hne
  · intro d hd _
    rcases hclear with hrun | hnone
    · simp [P2PClient.start_running hrun]
    · rw [hnone] at hd
      cases hd

theorem Inv.invite {env : P2PClient.Env} {m : Memory} {len : ℕ} {src : Addr} {p : Bytes} (h : Inv w)
    (hp : P2PClient.protoOf m len = some (msgConnectInvite, p)) (hclear : InviteClear env w p) :
    Inv (act K w.slot (P2PClient.step env (.packet m len src)) w) := by
  have hstep : P2PClient.step env (.packet m len src) w.client = P2PClient.onConnectInvite env p w.client :=
    P2PClient.handlePacket_invite hp
  have hnamed : Named (P2PClient.onConnectInvite env p w.client).1 := (P2PClient.onConnectInvite_made p).named h.named
  cases ht : takesSlot p w.client with
  | false =>
    obtain ⟨hpending, hset⟩ := P2PClient.onConnectInvite_keeps env ht
    refine h.acted ?_ ?_ ?_ ?_ <;> rw [hstep]
    · exact hnamed
    · simp [hset]
    · exact fun _ => hpending
    · exact fun _ _ _ => hpending
  | true =>
    obtain ⟨hpending, hset⟩ := P2PClient.onConnectInvite_takes env ht
    have hkept : w.client.pendingRemoteSdp ≠ [] := by
      simp only [takesSlot, Bool.and_eq_true] at ht
      simpa using ht.2
    obtain ⟨d, hs, htext, hsent⟩ := h.slot hkept
    have hc := hclear ht
    refine h.acted ?_ ?_ ?_ ?_ <;> rw [hstep]
    · exact hnamed
    · rw [hset]
      split
      · rename_i hagent
        rw [if_pos hagent, hs] at hc
        obtain rfl : (⟨uuidAt p 0, w.client.pendingRemoteSdp⟩ : Description) = d := by
          rw [← htext, ← Option.some.inj hc]
        simpa using ⟨hs, hsent⟩
      · simp
    · exact fun hne => absurd hpending hne
    · rw [hset]
      intro e he hnot
      obtain ⟨hse, hpe⟩ := h.early e he
      split at hc
      · rename_i hagent
        rw [hse] at hc
        rw [if_pos hagent, hpe, ← Option.some.inj hc] at hnot
        simp at hnot
      · rw [hc] at he
        cases he

/-- A text that is kept replaces none that came early. -/
theorem Inv.kept {sender sdp : Bytes} {more : List Description} (h : Inv w) (hsent : Sent w ⟨sender, sdp⟩)
    (hclear : ∀ d ∈ w.early, d = ⟨sender, sdp⟩) (hmore : ∀ d ∈ more, d = ⟨sender, sdp⟩ ∧ sdp ≠ []) :
    Inv { w with
      client := { w.client with pendingRemoteSdp := sdp }
      slot := some ⟨sender, sdp⟩
      early := w.early ++ more } := by
  refine ⟨⟨h.applied, fun d hd => ?_⟩, h.named, fun _ => ⟨_, rfl, rfl, hsent⟩, h.posted, h.carried, fun d hd => ?_⟩
  · have hd' : d = ⟨sender, sdp⟩ := by
      rcases List.mem_append.mp hd with hd | hd
      · exact hclear d hd
      · exact (hmore d hd).1
    rw [hd']
    exact ⟨rfl, rfl⟩
  · rcases List.mem_append.mp hd with hd | hd
    · exact h.text d hd
    · rw [(hmore d hd).1]
      exact (hmore d hd).2

section
variable {env : P2PClient.Env} {sender p : Bytes} {m : Memory} {len : ℕ} {src : Addr}

theorem receive_act (hfate : ∀ sdp, P2PClient.fate env p w.client ≠ .kept sdp)
    (hmore : ∀ sdp, descriptionOf p = some sdp → comesEarly w.client p ⟨sender, sdp⟩ = false) :
    receive K env sender p m len src w =
      act K ((descriptionOf p).map fun sdp => ⟨sender, sdp⟩) (P2PClient.step env (.packet m len src)) w := by
  have hnone : ((descriptionOf p).map fun sdp => (⟨sender, sdp⟩ : Description)).toList.filter
      (comesEarly w.client p) = [] := by
    cases hd : descriptionOf p with
    | none => rfl
    | some sdp => simp [hmore sdp hd]
  unfold receive
  dsimp only
  rw [hnone, List.append_nil]
  cases hf : P2PClient.fate env p w.client with
  | kept sdp => exact absurd hf (hfate sdp)
  | dropped => rfl
  | applied key c sdp => rfl

theorem receive_kept (hp : P2PClient.protoOf m len = some (msgIceSdp, p)) {sdp : Bytes}
    (hd : descriptionOf p = some sdp) (hfate : P2PClient.fate env p w.client = .kept sdp) :
    receive K env sender p m len src w = { w with
      client := { w.client with pendingRemoteSdp := sdp }
      slot := some ⟨sender, sdp⟩
      early := w.early ++ [⟨sender, sdp⟩].filter (comesEarly w.client p) } := by
  have hstep : P2PClient.step env (.packet m len src) w.client =
      ({ w.client with pendingRemoteSdp := sdp }, []) := by
    change P2PClient.handlePacket env m len src w.client = _
    rw [P2PClient.handlePacket_description hp, hfate]
    rfl
  simp [receive, act, hstep, hd, hfate, posted, settings]

theorem Inv.applies (h : Inv w) (hp : P2PClient.protoOf m len = some (msgIceSdp, p)) {c : P2PClient.Conn}
    {sdp : Bytes} (hd : descriptionOf p = some sdp) (hfate : P2PClient.fate env p w.client = .applied sender c sdp)
    (hsent : Sent w ⟨sender, sdp⟩) (hpeer : c.peerUuid = sender) (hconn : w.client.conns[sender]? = some c)
    (hconnecting : c.connecting = true) : Inv (SdpExchange.receive K env sender p m len src w) := by
  have hstep : P2PClient.step env (.packet m len src) w.client =
      (P2PClient.setConn sender (P2PClient.applyRemoteIceSdp c sdp).1 w.client,
        (P2PClient.applyRemoteIceSdp c sdp).2) := by
    change P2PClient.handlePacket env m len src w.client = _
    rw [P2PClient.handlePacket_description hp, hfate]
    rfl
  have hset : ∀ x ∈ settings (P2PClient.applyRemoteIceSdp c sdp).2, x = (sender, sdp) := by
    by_cases hnone : c.punch.juice = false ∨ sdp = []
    · simp [P2PClient.settings_apply_none hnone]
    · rw [not_or, Bool.not_eq_false] at hnone
      simp [P2PClient.settings_apply hnone.1 hnone.2, hpeer]
  rw [receive_act (by simp [hfate]), hd]
  · refine h.acted (P2PClient.step_named env _ h.named) ?_ ?_ ?_ <;> rw [hstep]
    · intro x hx
      rw [hset x hx]
      exact ⟨rfl, hsent⟩
    · exact fun _ => rfl
    · exact fun _ _ _ => rfl
  · intro sdp' _
    simp [comesEarly, P2PClient.connAt, hconn, hconnecting]

theorem Inv.receive (h : Inv w) (hp : P2PClient.protoOf m len = some (msgIceSdp, p))
    (hsent : ∀ sdp, descriptionOf p = some sdp → Sent w ⟨sender, sdp⟩) (hclear : ArrivesClear w sender p) :
    Inv (SdpExchange.receive K env sender p m len src w) := by
  have hdropped (hf : P2PClient.fate env p w.client = .dropped)
      (hmore : ∀ sdp, descriptionOf p = some sdp → comesEarly w.client p ⟨sender, sdp⟩ = false) :
      Inv (SdpExchange.receive K env sender p m len src w) := by
    have hstep : P2PClient.step env (.packet m len src) w.client = (w.client, []) := by
      change P2PClient.handlePacket env m len src w.client = _
      rw [P2PClient.handlePacket_description hp, hf]
      rfl
    rw [receive_act (by simp [hf]) hmore]
    refine h.idle ?_
    rw [hstep]
    exact .nothing
  cases hd : descriptionOf p with
  | none => exact hdropped (by simp [P2PClient.fate, hd]) (by simp [hd])
  | some sdp =>
    have hc := hclear sdp hd
    by_cases hdst : uuidAt p 0 = w.client.cfg.uuid
    · rw [if_pos hdst] at hc
      cases hw : P2PClient.sdpTarget env w.client with
      | none =>
        have hfate : P2PClient.fate env p w.client = .kept sdp := by simp [P2PClient.fate, hd, hdst, hw]
        rw [receive_kept hp hd hfate]
        refine h.kept (hsent sdp hd) (hc.2 (P2PClient.sdpTarget_none hw)) fun d hmem => ?_
        obtain ⟨hmem, hearly⟩ := List.mem_filter.mp hmem
        rw [List.mem_singleton.mp hmem] at hearly ⊢
        simp only [comesEarly, Bool.and_eq_true] at hearly
        exact ⟨rfl, by simpa using hearly.2⟩
      | some kc =>
        obtain ⟨key, c⟩ := kc
        have hmem := P2PClient.sdpTarget_mem hw
        obtain rfl : key = sender := hc.1 _ hmem
        obtain ⟨hconn, hwaits⟩ := P2PClient.mem_waiting.mp hmem
        have hconnecting := (P2PClient.Conn.waits_iff.mp hwaits).1
        refine h.applies hp hd ?_ (hsent sdp hd) (h.named key c hconn hconnecting) hconn hconnecting
        simp [P2PClient.fate, hd, hdst, hw]
    · rw [if_neg hdst] at hc
      refine hdropped (by simp [P2PClient.fate, hd, hdst, P2PClient.fateByPeer, hc]) ?_
      simp [comesEarly, hdst]

end

theorem Inv.next {e : Event} (h : Inv w) (hcan : enabled K w e) (hclear : Clear w e) : Inv (next K w e) := by
  cases e with
  | own env e =>
    obtain ⟨-, -, hice⟩ := hcan
    by_cases hstart : ∃ cfg, e = .start cfg
    · obtain ⟨cfg, rfl⟩ := hstart
      exact h.start hclear
    · rw [not_exists] at hstart
      by_cases hinvite : e.brings msgConnectInvite
      · cases e <;> try exact hinvite.elim
        obtain ⟨p, hp⟩ := hinvite
        exact h.invite hp (hclear p hp)
      · exact h.idle (P2PClient.step_files env hstart hinvite hice)
  | peer b env e =>
    have hsub : w.toServer ⊆ (SdpExchange.next K w (.peer b env e)).toServer := List.subset_append_left _ _
    refine ⟨⟨fun x hx => ?_, h.early⟩, h.named, fun hp => ?_, fun l hl => ?_, fun l hl => ?_, h.text⟩
    · exact ⟨(h.applied x hx).1, (h.applied x hx).2.mono hsub⟩
    · obtain ⟨d, hs, htext, hsent⟩ := h.slot hp
      exact ⟨d, hs, htext, hsent.mono hsub⟩
    · rcases List.mem_append.mp hl with hl | hl
      · exact h.posted l hl
      · exact posted_ice hl
    · obtain ⟨p, hread, hsent⟩ := h.carried l hl
      exact ⟨p, hread, fun sdp hd => (hsent sdp hd).mono hsub⟩
  | relay env l src =>
    refine ⟨⟨h.applied, h.early⟩, h.named, h.slot, h.posted, fun l' hl' => ?_, h.text⟩
    rcases List.mem_append.mp hl' with hl' | hl'
    · exact h.carried l' hl'
    · obtain ⟨payload, hdata⟩ := h.posted l hcan
      rw [hdata] at hl'
      obtain ⟨p, hread, hsender, hback⟩ := delivered_ice hl'
      refine ⟨_, hback, fun sdp hd => ⟨l, hcan, hsender.symm, ?_⟩⟩
      rw [descriptionOf_set] at hd
      rw [hdata, payloadIn_of_read hread]
      exact hd
  | serve e => exact ⟨⟨h.applied, h.early⟩, h.named, h.slot, h.posted, h.carried, h.text⟩
  | arrive env l m len src =>
    obtain ⟨hmem, hdata, -⟩ := hcan
    obtain ⟨p, hread, hsent⟩ := h.carried l hmem
    have hpayload := payloadIn_of_read hread
    have hp : P2PClient.protoOf m len = some (msgIceSdp, p) := by
      rw [← hdata] at hread
      exact P2PClient.protoOf_of_readDatagram hread
    have hnext : SdpExchange.next K w (.arrive env l m len src) =
        SdpExchange.receive K env l.sender p m len src w := by
      simp only [SdpExchange.next, hpayload]
    rw [hnext]
    exact h.receive hp hsent (hclear p hpayload)

def dialer (uuid : Bytes) : P2PClient :=
  { cfg := { uuid := uuid, natServers := [⟨inetNtop 0x0A000009, 4000⟩] } }

def peerOne : Bytes := [0x62]

def peerTwo : Bytes := [0x63]

def home : Party := ⟨[0x61], ⟨0x0A000001, 5000⟩⟩

def before : World := ⟨dialer home.uuid, dialer, { cfg := {} }, [], [], none, [], []⟩

def gathered : P2PClient.Env := { localSdp := some [0x78] }

def letterOfTwo : Letter :=
  ⟨peerTwo, datagram msgIceSdp (uuidField home.uuid ++ [0] ++ be16 1 ++ [0x78, 0])⟩

def heartbeat : Bytes := datagram msgHeartbeatReq (P2PClient.uuidReq {} (dialer home.uuid))

/-- The client is registered, and the description of the second peer is on its way to it. -/
def onTheWay : World :=
  [.serve (.packet {} heartbeat home.addr), .own {} (.start (dialer home.uuid).cfg),
    .peer peerTwo {} (.start (dialer peerTwo).cfg), .peer peerTwo {} (.connect home.uuid),
    .peer peerTwo gathered (.juiceGatheringDone home.uuid),
    .relay {} letterOfTwo ⟨0x0A000003, 5000⟩].foldl (next home) before

def descriptionMemory : Memory := .ofBytes letterOfTwo.data fun _ => 0

def arriving : Event := .arrive {} letterOfTwo descriptionMemory 46 ⟨0x0A000009, 4000⟩

theorem onTheWay_reach : Reach (system home) Clear onTheWay := by
  have hinit : (system home).init before :=
    ⟨⟨_, _, rfl, rfl⟩, fun b => ⟨_, _, rfl, rfl⟩, ⟨rfl, rfl, rfl⟩, rfl, rfl, rfl, rfl, rfl⟩
  have hstart : Reach (system home) Clear before := .start hinit
  have h1 := Reach.step (S := system home) (e := .serve (.packet {} heartbeat home.addr)) hstart
    (fun env data src he => by cases he; decide +kernel) trivial
  have h2 := Reach.step (S := system home) (e := .own {} (.start (dialer home.uuid).cfg)) h1
    ⟨trivial, rfl, id⟩ (.inr (by decide +kernel))
  have h3 := Reach.step (S := system home) (e := .peer peerTwo {} (.start (dialer peerTwo).cfg)) h2
    ⟨by decide, trivial, rfl⟩ trivial
  have h4 := Reach.step (S := system home) (e := .peer peerTwo {} (.connect home.uuid)) h3
    ⟨by decide, trivial, trivial⟩ trivial
  have h5 := Reach.step (S := system home) (e := .peer peerTwo gathered (.juiceGatheringDone home.uuid)) h4
    ⟨by decide, trivial, trivial⟩ trivial
  exact Reach.step (S := system home) (e := .relay {} letterOfTwo ⟨0x0A000003, 5000⟩) h5
    (by change letterOfTwo ∈ _; decide +kernel) trivial

theorem onTheWay_here : letterOfTwo ∈ onTheWay.toClient := by decide +kernel

def inviteOfTwo : Bytes :=
  uuidField peerTwo ++ peerAddresses ⟨0x0A000003, 5000⟩ ⟨0x0A000003, 5000⟩ natUnknown ++ List.replicate 55 0

def inviteMemory : Memory := .ofBytes (datagram msgConnectInvite inviteOfTwo) fun _ => 0

def inviting : Event := .own {} (.packet inviteMemory 133 ⟨0x0A000009, 4000⟩)

/-- The description has come before the invite. -/
def waitingFor : World := next home onTheWay arriving

theorem payloadIn_letterOfTwo :
    payloadIn letterOfTwo.data = some (uuidField home.uuid ++ [0] ++ be16 1 ++ [0x78, 0]) := by decide +kernel

theorem waitingFor_reach : Reach (system home) Clear waitingFor := by
  refine Reach.step (S := system home) (e := arriving) onTheWay_reach
    ⟨onTheWay_here, by decide +kernel, by decide +kernel⟩ fun p hp sdp hd => ?_
  have hnone : waiting onTheWay.client = [] := by decide +kernel
  have hearly : onTheWay.early = [] := by decide +kernel
  rw [payloadIn_letterOfTwo] at hp
  rw [← Option.some.inj hp, if_pos (by decide +kernel), hnone, hearly]
  simp

end P2PServer.SdpExchange
