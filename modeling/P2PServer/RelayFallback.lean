import P2PServer.ClientSpeech
import P2PServer.ConnTick
import P2PServer.Rendezvous
import P2PServer.SendPath

/-! The way over the relay. A client whose direct attempts have failed pings its peer over the relay in every
round that is due. The peer learns the way from the ping and is connected; once it knows the way it answers a
ping over the relay, which connects the client that pinged. -/
namespace P2PServer.RelayFallback
open ByteStrings ProtoDef Net Codec Effects Transitions P2PClient

variable {s s' t : P2PClient} {u v : Bytes}

/-- A step that leaves the connection with `v` and the registration with the relay alone. -/
structure Spared (v : Bytes) (s s' : P2PClient) : Prop where
  cfg : s'.cfg = s.cfg
  proxies : s.relay.proxies ≠ [] → s'.relay.proxies = s.relay.proxies
  registered : s'.relay.relayRegistered = s.relay.relayRegistered
  conn : s'.conns[v]? = s.conns[v]?
  named : Named s → Named s'

instance (v : Bytes) : Std.Refl (Spared v) := ⟨fun _ => ⟨rfl, fun _ => rfl, rfl, rfl, id⟩⟩

instance (v : Bytes) : IsTrans P2PClient (Spared v) where
  trans _ _ _ h g := ⟨g.cfg.trans h.cfg, fun hp => (g.proxies ((h.proxies hp).symm ▸ hp)).trans (h.proxies hp),
    g.registered.trans h.registered, g.conn.trans h.conn, g.named ∘ h.named⟩

theorem spared_of_made {ks : List Kind} {r : P2PClient × List Out} (h : Made ks s r)
    (hgranted : ks.contains .granted = false) (hconn : r.1.conns[v]? = s.conns[v]?) : Spared v s r.1 := by
  have hmild := h.mild
  exact ⟨hmild.cfg, hmild.proxies, (h.talks hgranted).registered, hconn, h.named⟩

/-- The work for a connection that is not given up leaves the others as they are. -/
theorem tickConn_tends (env : Env) {now : UInt64} {key : Bytes} (hin : s.conns.contains key = true)
    (hwork : (!(connAt s key).connecting || (connAt s key).connected) = false)
    (h : ¬Closing now s (connAt s key)) : Tends key s (tickConn env now key s).1 := by
  have hvisit := congrArg Prod.fst (visit_emitted env hin h)
  rw [hwork, if_neg Bool.false_ne_true] at hvisit
  rw [← hvisit]
  exact (visit_orderly env hin h).1

/-- Where nothing else is given up, the loop comes to every connection of its list, and finds it as it was. -/
theorem loop_reaches (env : Env) (now : UInt64) {keys : List Bytes} (hnd : keys.Nodup)
    (hin : ∀ k ∈ keys, s.conns.contains k = true) (hstay : ∀ k ∈ keys, k ≠ v → ¬Closing now s (connAt s k))
    (hv : v ∈ keys) (hwork : (!(connAt s v).connecting || (connAt s v).connected) = false) (hn : Named s) :
    ∃ t, Spared v s t ∧ ∀ o ∈ (tickConn env now v t).2, o ∈ (connLoop env now keys s).2 := by
  induction keys generalizing s with
  | nil => cases hv
  | cons key keys ih =>
    have hkin := hin key List.mem_cons_self
    by_cases hkey : key = v
    · subst hkey
      rw [connLoop_work env now keys hkin hwork]
      exact ⟨s, Std.Refl.refl s, fun o ho => List.mem_append_left _ ho⟩
    · have hrest : v ∈ keys := (List.mem_cons.mp hv).resolve_left (Ne.symm hkey)
      have hkeys := List.nodup_cons.mp hnd
      have hin' : ∀ k ∈ keys, s.conns.contains k = true := fun k hk => hin k (List.mem_cons_of_mem key hk)
      have hstay' : ∀ k ∈ keys, k ≠ v → ¬Closing now s (connAt s k) :=
        fun k hk => hstay k (List.mem_cons_of_mem key hk)
      cases hidle : !(connAt s key).connecting || (connAt s key).connected with
      | true =>
        rw [connLoop_idle env now keys hkin hidle]
        exact ih hkeys.2 hin' hstay' hrest hwork hn
      | false =>
        rw [connLoop_work env now keys hkin hidle]
        have ht := tickConn_tends env hkin hidle (hstay key List.mem_cons_self hkey)
        have hspared : Spared v s (tickConn env now key s).1 :=
          spared_of_made (tickConn_made now hkin) rfl (ht.others v (Ne.symm hkey))
        have hahead {k : Bytes} (hk : k ∈ keys) := ht.ahead now hkeys.1 hk
        have hat : connAt (tickConn env now key s).1 v = connAt s v := by
          rw [connAt, hspared.conn, ← connAt]
        obtain ⟨t, hlast, hout⟩ := ih hkeys.2 (fun k hk => (hahead hk).1.trans (hin' k hk))
          (fun k hk hne hc => hstay' k hk hne ((hahead hk).2.2.mp hc)) hrest (hat ▸ hwork) (hspared.named hn)
        refine ⟨t, IsTrans.trans _ _ _ hspared hlast, fun o ho => List.mem_append_right _ ?_⟩
        dsimp only
        rw [ht.here hkin, Bool.true_or, if_pos rfl]
        exact hout o ho

/-- Before the loop a round leaves the connections alone. -/
theorem tick_reaches (env : Env) (now : UInt64) (hn : Named s) {c : Conn} (hc : s.conns[v]? = some c)
    (hwork : c.connecting = true ∧ c.connected = false) (hproxies : s.relay.proxies ≠ [])
    (hstay : ∀ k c', k ≠ v → s.conns[k]? = some c' → ¬Closing now s c') :
    ∃ t, Spared v s t ∧ ∀ o ∈ (tickConn env now v t).2, o ∈ (tick env now s).2 := by
  have hbefore : Made [.minor, .beat, .asks] s
      (andThen (tickHeartbeat env now) (andThen (tickAuth now) (andThen (tickNatDetect now) (tickRelay now))) s) := by
    refine .andThen ((tickHeartbeat_made now).mono rfl) (.andThen ((tickAuth_made now).mono rfl) ?_)
    exact .andThen ((tickNatDetect_made now).mono rfl) ((tickRelay_made now).mono rfl)
  have hconns := (hbefore.links rfl).1
  have hspared : Spared v s _ := spared_of_made hbefore rfl (by rw [hconns])
  generalize hs : (andThen (tickHeartbeat env now) (andThen (tickAuth now) (andThen (tickNatDetect now) (tickRelay now))) s).1
    = s' at hspared hconns
  have hat (k : Bytes) : connAt s' k = connAt s k := by rw [connAt, hconns, ← connAt]
  have hin : ∀ k ∈ env.connWalk.keys s'.conns, s'.conns.contains k = true := fun k hk =>
    Std.ExtTreeMap.mem_iff_contains.mp (TreeMaps.Walk.mem_keys.mp hk)
  have hv : v ∈ env.connWalk.keys s'.conns := by
    rw [TreeMaps.Walk.mem_keys, hconns, Std.ExtTreeMap.mem_iff_isSome_getElem?, hc]
    rfl
  have hopen : ∀ k ∈ env.connWalk.keys s'.conns, k ≠ v → ¬Closing now s' (connAt s' k) := by
    intro k hk hne hclosing
    have hget := get_of_contains (hconns ▸ hin k hk)
    refine hstay k _ hne hget ?_
    rw [hat k] at hclosing
    obtain ⟨h1, h2, h3⟩ := hclosing
    rw [closes, hspared.cfg, hspared.proxies hproxies] at h3
    exact ⟨h1, h2, h3⟩
  have hidle : (!(connAt s' v).connecting || (connAt s' v).connected) = false := by
    rw [hat, connAt, hc, Option.getD_some, hwork.1, hwork.2]
    rfl
  obtain ⟨t, ht, hout⟩ := loop_reaches env now TreeMaps.Walk.nodup_keys hin hopen hv hidle (hspared.named hn)
  refine ⟨t, IsTrans.trans _ _ _ hspared ht, fun o ho => ?_⟩
  refine List.mem_append_right _ (List.mem_append_right _ (List.mem_append_right _ (List.mem_append_right _ ?_)))
  refine List.mem_append_left _ ?_
  rw [← hs] at hout
  exact hout o ho

/-- The direct attempts have failed, or are not made, and a ping over the relay is due. -/
structure FallsBack (env : Env) (now : UInt64) (relay : Addr) (c : Conn) (s : P2PClient) : Prop extends
    UsesRelay env c relay s where
  wants : c.connecting = true ∧ c.connected = false
  auto : s.cfg.autoRelay = true
  failed : directFailed now c = true ∨ s.cfg.forceRelay = true ∧ c.punch.haveDirect = false
  due : c.relay.nextRelayPing ≤ now

theorem usesRelay_kept {env : Env} {c : Conn} {relay : Addr} (h : UsesRelay env c relay s)
    (hcfg : s'.cfg = s.cfg) (hproxies : s.relay.proxies ≠ [] → s'.relay.proxies = s.relay.proxies)
    (hreg : s'.relay.relayRegistered = s.relay.relayRegistered) : UsesRelay env c relay s' := by
  have hsome : s.relay.proxies ≠ [] := by simpa using h.proxies
  refine ⟨h.ice, h.direct, by rw [hcfg]; exact h.ready, hreg.trans h.registered, ?_⟩
  rw [proxyAddr, hproxies hsome, ← proxyAddr]
  exact h.address

theorem sendTunnelVia_control (env : Env) (c : Conn) {f : Plain} (h : f.payload = []) (s : P2PClient) :
    sendTunnelVia env c f.bytes s = transmit env c f.bytes s := by
  unfold sendTunnelVia
  rw [encryptTunnelFrame_empty env c.peerUuid h]
  split <;> rfl

theorem sendTunnelVia_relay {env : Env} {c : Conn} {relay : Addr} (h : UsesRelay env c relay s) {f : Plain}
    (hf : f.payload = []) : (sendTunnelVia env c f.bytes s).2 =
      [.proto relay msgProxyRelayData (relayPayload s.cfg.uuid c.peerUuid f.bytes)] := by
  have hlen := f.bytes_length
  rw [hf, List.length_nil] at hlen
  rw [sendTunnelVia_control env c hf, transmit_relay h (by omega)]

def control (type : UInt8) (sessionId : UInt16) : Plain :=
  ⟨type, sessionId, 0, 0, 0, 0, [], by decide, Nat.zero_le _⟩

theorem tickConn_pings {env : Env} {now : UInt64} {relay : Addr} {c : Conn} (h : FallsBack env now relay c s)
    (hc : s.conns[v]? = some c) (hpeer : c.peerUuid = v) :
    ∃ id, Out.proto relay msgProxyRelayData (relayPayload s.cfg.uuid v (control ttPing id).bytes) ∈
      (tickConn env now v s).2 := by
  have hat : connAt s v = c := by rw [connAt, hc]; rfl
  have hpunch : tickConnPunch now v s = (s, []) := by
    rw [tickConnPunch, hat]
    refine if_neg fun hdue => ?_
    simp only [Bool.and_eq_true, decide_eq_true_eq] at hdue
    rcases h.failed with hf | ⟨-, hf⟩
    · simp only [directFailed, Bool.and_eq_true, decide_eq_true_eq] at hf
      exact absurd hdue.1.2 (UInt64.not_lt.mpr hf.1.2)
    · rw [hf] at hdue
      cases hdue.1.1
  have hstays : punchExpired s.cfg now c = false := by
    rcases h.failed with hf | ⟨hf, -⟩
    · simp only [directFailed, Bool.and_eq_true] at hf
      simp [punchExpired, hf.1.1]
    · simp [punchExpired, hf]
  have hneed : (!(s.cfg.forceRelay || directFailed now c)) = false := by
    rcases h.failed with hf | ⟨hf, -⟩ <;> simp [hf]
  have hreg : registerForConn now v s = (s, []) := by
    rw [registerForConn, h.registered]
    simp
  have hdue : (s.cfg.autoRelay && !s.relay.proxies.isEmpty && decide (now ≥ c.relay.nextRelayPing)) = true := by
    rw [h.auto, h.toUsesRelay.proxies]
    simpa using h.due
  refine ⟨(sessionFor c.peerUuid s).1.sessionId, ?_⟩
  have hsession := ((sessionFor_made (s := s) c.peerUuid).calm rfl).1
  have huses : UsesRelay env c relay (sessionFor c.peerUuid s).2 :=
    usesRelay_kept h.toUsesRelay hsession.cfg hsession.proxies hsession.relayRegistered
  have hsent := sendTunnelVia_relay huses (f := control ttPing (sessionFor c.peerUuid s).1.sessionId) rfl
  rw [hsession.cfg] at hsent
  have hways : tickConn env now v s = andThen (pingRelay env now v) (tickConnFsm v) s := by
    rw [tickConn, andThen, hpunch]
    dsimp only
    rw [hat, hstays, hneed, if_neg Bool.false_ne_true, if_neg Bool.false_ne_true, andThen, hreg]
    dsimp only
    rw [hat, if_pos hdue]
    rfl
  rw [hways]
  refine List.mem_append_left _ (List.mem_append_left _ ?_)
  change _ ∈ (sendTunnelVia env (connAt s v) (control ttPing (sessionFor (connAt s v).peerUuid s).1.sessionId).bytes
    (sessionFor (connAt s v).peerUuid s).2).2
  rw [hat, hsent, hpeer]
  exact List.mem_singleton.mpr rfl

theorem tick_pings {env : Env} {now : UInt64} {relay : Addr} {c : Conn} (hn : Named s)
    (hc : s.conns[v]? = some c) (h : FallsBack env now relay c s)
    (hstay : ∀ k c', k ≠ v → s.conns[k]? = some c' → ¬Closing now s c') :
    ∃ id, Out.proto relay msgProxyRelayData (relayPayload s.cfg.uuid v (control ttPing id).bytes) ∈
      (tick env now s).2 := by
  have hproxies : s.relay.proxies ≠ [] := by simpa using h.toUsesRelay.proxies
  obtain ⟨t, ht, hout⟩ := tick_reaches env now hn hc h.wants hproxies hstay
  have hfalls : FallsBack env now relay c t :=
    ⟨usesRelay_kept h.toUsesRelay ht.cfg ht.proxies ht.registered, h.wants, by rw [ht.cfg]; exact h.auto,
      by rw [ht.cfg]; exact h.failed, h.due⟩
  have hct := ht.conn.trans hc
  obtain ⟨id, hping⟩ := tickConn_pings hfalls hct (hn v c hc h.wants.1)
  refine ⟨id, hout _ ?_⟩
  rw [← ht.cfg]
  exact hping

def adopted (u : Bytes) (c : Conn) : Conn := if c.peerUuid.isEmpty then { c with peerUuid := u } else c

theorem handlePacket_relayed (env : Env) (src : Addr) (hu : P2PProxy.Proper u) (hv : P2PProxy.Proper t.cfg.uuid)
    {tx : Bytes} (hlen : 14 ≤ tx.length ∧ tx.length ≤ 1242) {m : Memory} {len : ℕ}
    (hm : m.read 0 len = relayData u t.cfg.uuid tx) : ∃ m' : Memory, m'.read 0 tx.length = tx ∧
      handlePacket env m len src t = andThen (onTunnelFrame env u m' tx.length) (provePath true u)
        (setConn u (adopted u (connAt t u)) t) := by
  have hsize := relayPayload_length u t.cfg.uuid tx
  obtain ⟨hsrc, hdst⟩ := uuidAt_relayPayload hu hv tx
  have hread : NatServer.readDatagram (m.read 0 len) = some (msgProxyRelayData, relayPayload u t.cfg.uuid tx) := by
    rw [hm]
    exact NatServer.readDatagram_datagram _ (by omega)
  obtain ⟨plen, hp, he⟩ := P2PClient.handlePacket_message env src t (P2PClient.protoOf_of_readDatagram hread)
  have hplen := congrArg List.length hp
  rw [Memory.read_length, hsize] at hplen
  subst hplen
  have hproto : handleProto env msgProxyRelayData (m.offset 8) (66 + tx.length) =
      onRelayData env (m.offset 8) (66 + tx.length) := rfl
  have hmine : ¬textAt (relayPayload u t.cfg.uuid tx) 33 maxUuidLen ≠ (cstr t.cfg.uuid).take maxUuidLen := by
    rw [hv.text, List.take_of_length_le hv.short]
    exact not_not.mpr hdst
  have htail : ((m.offset 8).offset relayFrameSize).read 0 tx.length = tx := by
    have hw : window ((m.offset 8).read 0 (66 + tx.length)) 66 tx.length = (m.offset 8).read 66 tx.length := by
      rw [Memory.window_read _ le_rfl]
    rw [hp, window, relayPayload, List.drop_left' (by simp), List.take_length] at hw
    rw [Memory.read_offset, relayFrameSize]
    exact hw.symm
  refine ⟨_, htail, ?_⟩
  rw [he, hproto, onRelayData, if_neg (by rw [relayFrameSize]; omega)]
  dsimp only
  rw [hp, if_neg hmine, hsrc, if_neg (by simpa using hu.nonempty), relayFrameSize, Nat.add_sub_cancel_left]
  rfl

/-- The client knows the way over the relay, and has told its application of a new connection. -/
structure Heard (u : Bytes) (s : P2PClient) (r : P2PClient × List Out) : Prop where
  knows : (connAt r.1 u).relay.relayOk = true
  connects : s.callbacks.onConnected = true → (connAt s u).relay.relayOk = false → (connAt s u).connected = false →
    (connAt r.1 u).connected = true ∧ Out.connected u true ∈ r.2

theorem provePath_heard {r : P2PClient × List Out} (hat : (connAt r.1 u).relay.relayOk = (connAt s u).relay.relayOk ∧
    (connAt r.1 u).connected = (connAt s u).connected) (hcb : r.1.callbacks = s.callbacks) :
    Heard u s ((provePath true u r.1).1, r.2 ++ (provePath true u r.1).2) := by
  unfold provePath
  dsimp only
  have hproven : pathProven true (connAt r.1 u) = (connAt r.1 u).relay.relayOk := rfl
  rw [hproven]
  by_cases hknown : (connAt r.1 u).relay.relayOk = true
  · rw [if_pos hknown]
    refine ⟨hknown, fun _ hnew => ?_⟩
    rw [← hat.1, hknown] at hnew
    cases hnew
  · rw [if_neg hknown]
    split
    · refine ⟨by rw [connAt_setConn]; rfl, fun _ _ _ => ⟨by rw [connAt_setConn], ?_⟩⟩
      exact List.mem_append_right _ (List.mem_singleton.mpr rfl)
    · rename_i hup
      refine ⟨by rw [connAt_setConn]; rfl, fun hwant _ hdown => absurd ?_ hup⟩
      rw [hat.2, hdown, hcb, hwant]
      rfl

theorem adopted_same (u : Bytes) (c : Conn) :
    (adopted u c).relay = c.relay ∧ (adopted u c).connected = c.connected := by
  unfold adopted
  split <;> exact ⟨rfl, rfl⟩

theorem handlePacket_heard (env : Env) (src : Addr) (hu : P2PProxy.Proper u) (hv : P2PProxy.Proper t.cfg.uuid)
    {tx : Bytes} (hlen : 14 ≤ tx.length ∧ tx.length ≤ 1242) {m : Memory} {len : ℕ}
    (hm : m.read 0 len = relayData u t.cfg.uuid tx) : Heard u t (handlePacket env m len src t) := by
  obtain ⟨m', -, he⟩ := handlePacket_relayed env src hu hv hlen hm
  rw [he]
  have hframe : Made [.minor, .opens, .plays] (setConn u (adopted u (connAt t u)) t)
      (onTunnelFrame env u m' tx.length (setConn u (adopted u (connAt t u)) t)) := onTunnelFrame_made u m' tx.length
  have hat : connAt (onTunnelFrame env u m' tx.length (setConn u (adopted u (connAt t u)) t)).1 u =
      adopted u (connAt t u) := by
    rw [connAt, (hframe.links rfl).1, ← connAt, connAt_setConn]
  obtain ⟨hrelay, hconnected⟩ := adopted_same u (connAt t u)
  exact provePath_heard ⟨by rw [hat, hrelay], by rw [hat, hconnected]⟩ hframe.mild.callbacks

theorem onFrame_ping (x : Session) (id : UInt16) :
    x.onFrame (control ttPing id).bytes = (x, [.tx (control ttPong x.sessionId).bytes]) := by
  rw [Session.onFrame, Plain.codecReadTunnel_bytes]
  rfl

theorem handlePacket_pongs {env : Env} (hreach : Reachable client t) (hrun : t.running = true)
    (hu : P2PProxy.Proper u) (hv : P2PProxy.Proper t.cfg.uuid) (hne : u ≠ t.cfg.uuid) {c : Conn} {relay : Addr}
    (hc : t.conns[u]? = some c) (hpeer : c.peerUuid = u) (huses : UsesRelay env c relay t) {id : UInt16}
    {m : Memory} {len : ℕ} (hm : m.read 0 len = relayData u t.cfg.uuid (control ttPing id).bytes) (src : Addr) :
    ∃ id', Out.proto relay msgProxyRelayData (relayPayload t.cfg.uuid u (control ttPong id').bytes) ∈
      (handlePacket env m len src t).2 := by
  have hlen : (control ttPing id).bytes.length = 14 := (control ttPing id).bytes_length
  obtain ⟨m', htx, he⟩ := handlePacket_relayed env src hu hv (by omega) hm
  have hsame : adopted u (connAt t u) = c := by
    rw [adopted, connAt, hc, Option.getD_some, if_neg (by simpa [hpeer] using hu.nonempty)]
  have hopen : m'.read 0 (control ttPing id).bytes.length =
      carried t.cfg.secret t.cfg.uuid u (List.replicate 12 0) (control ttPing id) := by
    rw [htx, carried, if_pos (.inr rfl)]
  have hkeys := keysDerived_reachable hreach
  have henc := guarded_reachable hreach hrun
  obtain ⟨x, hx⟩ := onTunnelFrame_carried (t := setConn u c t) env hkeys henc ⟨hu.nonempty, hne⟩
    List.length_replicate (control ttPing id) hopen
  rw [he, hsame]
  have hconn : ({ setConn u c t with tunnel := x } : P2PClient).conns[u]? = some c :=
    (TreeMaps.insert_get ..).trans (if_pos rfl)
  have hreply := congrArg Prod.snd (onFrame_ping (sessionFor u { setConn u c t with tunnel := x }).1 id)
  obtain ⟨t₁, hout, hsent⟩ :=
    withSession_tx env (g := fun y => y.onFrame (control ttPing id).bytes) hreply hconn
  have hcfg := congrArg P2PClient.cfg hout
  have hrelay := congrArg P2PClient.relay hout
  change t₁.cfg = t.cfg at hcfg
  change t₁.relay = t.relay at hrelay
  have huses₁ : UsesRelay env c relay t₁ :=
    usesRelay_kept huses hcfg (fun _ => congrArg _ hrelay) (congrArg _ hrelay)
  have hpong := hsent.trans (sendTunnelVia_relay huses₁ rfl)
  rw [← hx, hcfg, hpeer] at hpong
  exact ⟨_, List.mem_append_left _ (List.mem_of_mem_head? (congrArg List.head? hpong))⟩

/-- Every relay at which `v` is registered passes the frame on to it. -/
def Forwarded (u v tx : Bytes) : Prop := ∀ (q : P2PProxy) (e : P2PProxy.UuidEntry) (now : ℤ) (src : Addr),
  q.uuid2addr[v]? = some e → (P2PProxy.handle now (relayData u v tx) src q).2 = [⟨e.addr, relayData u v tx⟩]

theorem forwarded_control (hu : P2PProxy.Proper u) (hv : P2PProxy.Proper v) (type : UInt8) (id : UInt16) :
    Forwarded u v (control type id).bytes := by
  intro q e now src he
  have hlen : (control type id).bytes.length = 14 := (control type id).bytes_length
  exact handle_relayData now hu hv (by omega) src he

/-- Whoever is the client `v` and receives the frame of `u` over a relay is connected with `u`. -/
def Connects (u v tx : Bytes) : Prop := ∀ (env : Env) (s : P2PClient) (m : Memory) (len : ℕ) (src : Addr),
  s.cfg.uuid = v → m.read 0 len = relayData u v tx → Heard u s (handlePacket env m len src s)

/-- A client that falls back on the relay, and gives up no other connection in that round, pings its peer over
it. The relay passes the ping on, which connects the peer, and when the peer knows the way it answers in the
same manner, which connects the client. -/
theorem fallback_connects {a b : P2PClient} (h : Ends a b) {env : Env} {now : UInt64} {relay : Addr} {c : Conn}
    (hc : a.conns[b.cfg.uuid]? = some c) (hfalls : FallsBack env now relay c a)
    (hstay : ∀ k c', k ≠ b.cfg.uuid → a.conns[k]? = some c' → ¬Closing now a c') :
    ∃ id, Out.proto relay msgProxyRelayData (relayPayload a.cfg.uuid b.cfg.uuid (control ttPing id).bytes) ∈
        (tick env now a).2 ∧
      Forwarded a.cfg.uuid b.cfg.uuid (control ttPing id).bytes ∧
      Connects a.cfg.uuid b.cfg.uuid (control ttPing id).bytes ∧
      ∀ (env' : Env) (m : Memory) (len : ℕ) (src relay' : Addr) (c' : Conn),
        m.read 0 len = relayData a.cfg.uuid b.cfg.uuid (control ttPing id).bytes →
        b.conns[a.cfg.uuid]? = some c' → c'.peerUuid = a.cfg.uuid → UsesRelay env' c' relay' b →
        ∃ id', Out.proto relay' msgProxyRelayData (relayPayload b.cfg.uuid a.cfg.uuid (control ttPong id').bytes) ∈
            (handlePacket env' m len src b).2 ∧
          Forwarded b.cfg.uuid a.cfg.uuid (control ttPong id').bytes ∧
          Connects b.cfg.uuid a.cfg.uuid (control ttPong id').bytes := by
  have hconnects {u v : Bytes} (hu : P2PProxy.Proper u) (hv : P2PProxy.Proper v) (type : UInt8) (id : UInt16) :
      Connects u v (control type id).bytes := by
    intro env s m len src hs hm
    subst hs
    have hlen : (control type id).bytes.length = 14 := (control type id).bytes_length
    exact handlePacket_heard env src hu hv (by omega) hm
  obtain ⟨id, hping⟩ := tick_pings (named_reachable h.sender.1) hc hfalls hstay
  refine ⟨id, hping, forwarded_control h.own h.peer _ _, hconnects h.own h.peer _ _, ?_⟩
  intro env' m len src relay' c' hm hc' hpeer huses
  obtain ⟨id', hpong⟩ := handlePacket_pongs h.receiver.1 h.receiver.2 h.own h.peer h.different hc' hpeer huses hm src
  exact ⟨id', hpong, forwarded_control h.peer h.own _ _, hconnects h.peer h.own _ _⟩

def answered : P2PClient :=
  let ack := [connectOk] ++ uuidField Samples.uuidV ++
    NatServer.peerAddresses ⟨0x0A000007, 5000⟩ ⟨0x0A000007, 5000⟩ natUnknown ++ List.replicate 55 0
  client.next (client.next (client.next clientU ({}, .connect Samples.uuidV))
    ({}, .packet (.ofBytes (NatServer.datagram msgConnectAck ack) fun _ => 0) 134 ⟨0x0A000009, 4000⟩))
    ({ now := 59000 }, .connect [0x77])

theorem ends_answered : Ends answered clientV where
  sender := ⟨.step (.step (.step ends_registered.sender.1 (by decide +kernel) trivial) (by decide +kernel) trivial)
    (by decide +kernel) trivial, by decide +kernel⟩
  receiver := ends_registered.receiver
  secret := by decide +kernel
  own := by
    rw [show answered.cfg.uuid = Samples.uuidU by decide +kernel]
    exact P2PProxy.proper_uuidU
  peer := P2PProxy.proper_uuidV
  different := by decide +kernel

theorem fallback_connects_answered : ∃ id,
    Out.proto ⟨0x0A000009, 4000⟩ msgProxyRelayData
        (relayPayload answered.cfg.uuid clientV.cfg.uuid (control ttPing id).bytes) ∈
      (tick { now := 60000 } 60000 answered).2 ∧
    Forwarded answered.cfg.uuid clientV.cfg.uuid (control ttPing id).bytes ∧
    Connects answered.cfg.uuid clientV.cfg.uuid (control ttPing id).bytes := by
  have hc : answered.conns[clientV.cfg.uuid]? = some (connAt answered clientV.cfg.uuid) :=
    get_of_contains (by decide +kernel)
  have hfalls : FallsBack { now := 60000 } 60000 ⟨0x0A000009, 4000⟩ (connAt answered clientV.cfg.uuid) answered :=
    { ice := by decide +kernel
      direct := by decide +kernel
      ready := .inr (.inr (by decide +kernel))
      registered := by decide +kernel
      address := by decide +kernel
      wants := by decide +kernel
      auto := by decide +kernel
      failed := .inl (by decide +kernel)
      due := by decide +kernel }
  have hstay : ∀ k c', k ≠ clientV.cfg.uuid → answered.conns[k]? = some c' → ¬Closing 60000 answered c' := by
    intro k c' _ hk hclosing
    have hopen : answered.conns.toList.all (fun kc => !closes 60000 kc.2 answered) = true := by decide +kernel
    have hkc := List.all_eq_true.mp hopen _ (Std.ExtTreeMap.mem_toList_iff_getElem?_eq_some.mpr hk)
    rw [hclosing.2.2] at hkc
    cases hkc
  obtain ⟨id, hping, hforwarded, hconnects, -⟩ := fallback_connects ends_answered hc hfalls hstay
  exact ⟨id, hping, hforwarded, hconnects⟩

end P2PServer.RelayFallback
