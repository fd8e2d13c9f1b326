import P2PServer.ClientRun

/-! What the steps of a client are made of. Every step but a start and a stop is a sequence of writes to
the state, each with its outputs, and the event tells of which kinds they can be. An invariant of the
client is then one case analysis over the writes. -/
namespace P2PServer.P2PClient
open ByteStrings ProtoDef Net Codec Crypto Effects Transitions

inductive Kind
  | minor
  | beat
  | asks
  | login
  | auth
  | adopts
  | granted
  | opens
  | plays
  | conn
  | enters
  | begins
  | acks
  | invites
  | described
  | proves (relay : Bool)
  | rises
  | agent
  | closes
  deriving DecidableEq

def plainRequests : List UInt8 :=
  [msgHeartbeatReq, msgHeartbeatReqEnc, msgNatDetectReq, msgConnectReq, msgIceSdp, msgProxyRelayData]

def registration (uuid : Bytes) : Bytes := uuidField uuid ++ hmacSha256 proxyAuthKey uuid

/-- An output of the client `uuid` that changes nothing for its application or its ICE agents. -/
inductive Out.Plain (uuid : Bytes) : Out → Prop
  | request {id : UInt8} (h : plainRequests.contains id = true) (dst : Addr) (payload : Bytes) :
      Plain uuid (.proto dst id payload)
  | registers (dst : Addr) : Plain uuid (.proto dst msgProxyRegisterReq (registration uuid))
  | raw (dst : Addr) (data : Bytes) : Plain uuid (.raw dst data)
  | juice {call : JuiceCall} (h : ∀ sdp, call ≠ .setRemoteDescription sdp) (peer : Bytes) :
      Plain uuid (.juice peer call)
  | ready (ip : Bytes) (port : UInt16) (nattype : UInt8) : Plain uuid (.ready ip port nattype)
  | error (text : Bytes) : Plain uuid (.error text)
  | erasedUse (peer : Bytes) : Plain uuid (.erasedUse peer)

/-- The fields that the paths of a connection depend on. -/
structure Conn.SamePaths (c c' : Conn) : Prop where
  connected : c'.connected = c.connected
  directOk : c'.punch.directOk = c.punch.directOk
  juice : c'.punch.juice = c.punch.juice
  haveDirect : c'.punch.haveDirect = c.punch.haveDirect
  relayOk : c'.relay.relayOk = c.relay.relayOk

/-- The connections differ in what is only counted, timed or described. -/
structure Conn.Alike (c c' : Conn) : Prop extends SamePaths c c' where
  peerUuid : c'.peerUuid = c.peerUuid
  connecting : c'.connecting = c.connecting

/-- The ways in which a path of the connection under the key is found to work. With `up` the connection
counts as connected from then on. -/
inductive Lifts (s : P2PClient) (key : Bytes) (c : Conn) (up : Bool) : Kind → Conn → Prop
  | direct {a : UInt64} (h : s.addrToPeer[a]? = some key) :
      Lifts s key c up (.proves false) { c with punch := { c.punch with directOk := true }, connected := up }
  | relayed : Lifts s key c up (.proves true) { c with relay := { c.relay with relayOk := true }, connected := up }
  | known (h : c.relay.relayOk = true) : Lifts s key c up .rises { c with connected := up }
  | agent : Lifts s key c up .agent { c with punch := { c.punch with directOk := true }, connected := up }

/-- One write to the state, with the outputs that belong to it. -/
inductive Write : Kind → P2PClient → P2PClient × List Out → Prop
  | puts {s : P2PClient} {o : Out} (h : o.Plain s.cfg.uuid) : Write .minor s (s, [o])
  | sets {s : P2PClient} (detect : NatDetect) (type : UInt8) (next tx rx : UInt64) : Write .minor s
      ({ s with
        natDetect := detect, natType := type, relay := { s.relay with nextRelayReg := next }
        tunnel := { s.tunnel with tunnelEncTx := tx, tunnelEncRx := rx } }, [])
  | derives {s : P2PClient} (peer : Bytes) : Write .minor s
      ({ s with tunnel := { s.tunnel with
        tunnelKeys := s.tunnel.tunnelKeys.insert peer (pairKey s.cfg.secret s.cfg.uuid peer) } }, [])
  | beats {s : P2PClient} {hb : HeartbeatState}
      (h : hb.heartbeatFail = s.hb.heartbeatFail ∨ hb.heartbeatFail = 0) : Write .beat s ({ s with hb := hb }, [])
  | asks {s : P2PClient} : Write .asks s
      ({ s with auth := { s.auth with authInflight := true } }, [challengeOf s])
  | logs {s : P2PClient} : Write .login s (s, [loginOf s])
  | auths {s : P2PClient} (auth : AuthState) : Write .auth s ({ s with auth := auth }, [])
  | adopts {s : P2PClient} (proxies : List ServerAddr) (next : UInt64) (h : s.relay.proxies = []) :
      Write .adopts s ({ s with relay := { s.relay with proxies := proxies, nextRelayReg := next } }, [])
  | grants {s : P2PClient} : Write .granted s
      ({ s with
        relay := { s.relay with relayRegistered := true }
        conns := s.conns.map fun _ c => { c with backoffAttempt := 0 } }, [])
  | opens {s : P2PClient} {peer : Bytes} (h : s.sessions[peer]? = none) : Write .opens s
      ({ s with
        nextSessionId := s.nextSessionId + 1
        sessions := s.sessions.insert peer { sessionId := s.nextSessionId } }, [])
  | plays {s : P2PClient} (peer : Bytes) (x : Session) :
      Write .plays s ({ s with sessions := s.sessions.insert peer x }, [])
  | delivers {s : P2PClient} (peer : Bytes) (channel : UInt8) (data : Bytes) :
      Write .plays s (s, [.message peer channel data])
  | keeps {s : P2PClient} {key : Bytes} {c c' : Conn} (hget : s.conns[key]? = some c) (h : c.Alike c') :
      Write .conn s (setConn key c' s, [])
  | enters {s : P2PClient} {key : Bytes} {c' : Conn} (hname : c'.peerUuid = key) (h : (connAt s key).SamePaths c')
      (hconnecting : (connAt s key).connecting = true → c'.connecting = true) :
      Write .enters s (setConn key c' s, [])
  | finds {s : P2PClient} {a : UInt64} {key : Bytes} (h : s.addrToPeer[a]? = some key) :
      Write .enters s (setConn key (connAt s key) s, [])
  | begins {s : P2PClient} {key : Bytes} {c c' : Conn} (hget : s.conns[key]? = some c)
      (hidle : c.connecting = false) (hdown : c.connected = false) (hname : c'.peerUuid = key)
      (hconnected : c'.connected = false) (hdirect : c'.punch.haveDirect = false) (hrelay : c'.relay.relayOk = false)
      (hjuice : s.cfg.forceRelay = true → c'.punch.juice = c.punch.juice) :
      Write .begins s (setConn key c' s, [])
  | acks {s : P2PClient} {key : Bytes} {c : Conn} (env : Env) (p : Bytes) (hget : s.conns[key]? = some c)
      (hconnecting : c.connecting = true) : Write .acks s
      ({ setConn key (ackConn env s.cfg p c) s with
        addrToPeer := learnAddrs s.cfg key (ackConn env s.cfg p c) s.addrToPeer }, [])
  | invitesRelay {s : P2PClient} {key : Bytes} {c : Conn} (now : UInt64) (hget : s.conns[key]? = some c)
      (hforce : s.cfg.forceRelay = true) (hname : c.peerUuid = key) : Write .invites s
      (setConn key { c with
        connecting := true
        self := true
        punch := { c.punch with directOk := false, haveDirect := false, punchDeadline := now } } s, [])
  | invites {s : P2PClient} {key : Bytes} {c c' : Conn} (a : UInt64) (hget : s.conns[key]? = some c)
      (hforce : s.cfg.forceRelay ≠ true) (hname : c'.peerUuid = key) (hconnected : c'.connected = c.connected)
      (hconnecting : c'.connecting = true) (hdirect : c'.punch.haveDirect = true)
      (hrelay : c'.relay.relayOk = c.relay.relayOk) : Write .invites s
      ({ setConn key c' s with addrToPeer := s.addrToPeer.insert a key, pendingRemoteSdp := [] }, [])
  | applies {s : P2PClient} (peer sdp : Bytes) : Write .described s (s, [.juice peer (.setRemoteDescription sdp)])
  | pends {s : P2PClient} (sdp : Bytes) : Write .described s ({ s with pendingRemoteSdp := sdp }, [])
  | lifts {s : P2PClient} {key name : Bytes} {c c' : Conn} {k : Kind} {up : Bool} (relay : Bool)
      (hget : s.conns[key]? = some c) (h : Lifts s key c up k c') (hup : c.connected = true → up = true)
      (hname : name = key ∨ name = c.peerUuid) :
      Write k s (setConn key c' s,
        if up && !c.connected && s.callbacks.onConnected then [.connected name relay] else [])
  | closes {s : P2PClient} (c : Conn) : Write .closes s (closeConn c s)

/-- The outputs that a write of the kind can have. -/
inductive Emits (s : P2PClient) : Kind → Out → Prop
  | plain {k : Kind} {o : Out} (h : o.Plain s.cfg.uuid) : Emits s k o
  | challenge : Emits s .asks (challengeOf s)
  | login : Emits s .login (loginOf s)
  | message (peer : Bytes) (channel : UInt8) (data : Bytes) : Emits s .plays (.message peer channel data)
  | description (peer sdp : Bytes) : Emits s .described (.juice peer (.setRemoteDescription sdp))
  | connected {k : Kind} (peer : Bytes) (relay : Bool) : Emits s k (.connected peer relay)
  | disconnected (peer : Bytes) : Emits s .closes (.disconnected peer)

/-- The result is a sequence of writes of the kinds `ks`. -/
abbrev Made (ks : List Kind) : P2PClient → P2PClient × List Out → Prop :=
  Composed fun s r => ∃ k ∈ ks, Write k s r

variable {env : Env} {s s' : P2PClient} {r : P2PClient × List Out} {key : Bytes} {c c' : Conn} {k : Kind}
  {ks ks' : List Kind}

theorem Write.emits (h : Write k s r) : ∀ o ∈ r.2, Emits s k o := by
  intro o ho
  cases h with
  | puts h => exact List.mem_singleton.mp ho ▸ .plain h
  | asks => exact List.mem_singleton.mp ho ▸ .challenge
  | logs => exact List.mem_singleton.mp ho ▸ .login
  | delivers => exact List.mem_singleton.mp ho ▸ .message _ _ _
  | applies => exact List.mem_singleton.mp ho ▸ .description _ _
  | lifts =>
    dsimp only at ho
    split at ho
    · exact List.mem_singleton.mp ho ▸ .connected _ _
    · cases ho
  | closes c =>
    unfold closeConn at ho
    rcases List.mem_append.mp ho with ho | ho
    · split at ho
      · exact List.mem_singleton.mp ho ▸ .plain (.juice (by simp) _)
      · cases ho
    · split at ho
      · simp only [List.mem_cons, List.not_mem_nil, or_false] at ho
        rcases ho with rfl | rfl
        · exact .plain (.erasedUse _)
        · exact .disconnected _
      · cases ho
  | _ => cases ho

theorem Write.made (h : Write k s r) (hk : ks.contains k = true) : Made ks s r :=
  .part ⟨k, List.contains_iff_mem.mp hk, h⟩

theorem Made.mono (h : Made ks s r) (hks : ks.all ks'.contains = true) : Made ks' s r :=
  Composed.mono (fun _ _ ⟨k, hk, hw⟩ => ⟨k, List.contains_iff_mem.mp (List.all_eq_true.mp hks k hk), hw⟩) h

theorem Made.andThen {f g : Action} (hf : Made ks s (f s)) (hg : Made ks (f s).1 (g (f s).1)) :
    Made ks s (andThen f g s) := Composed.andThen hf hg

theorem Made.puts {outs : List Out} (h : ∀ o ∈ outs, o.Plain s.cfg.uuid) : Made [.minor] s (s, outs) := by
  induction outs with
  | nil => exact .nothing
  | cons o outs ih =>
    have hfirst : Made [.minor] s (s, [o]) := Write.made (.puts (h o List.mem_cons_self)) rfl
    exact Composed.andThen hfirst (ih fun o' ho' => h o' (List.mem_cons_of_mem o ho'))

theorem onError_made (text : Bytes) : Made [.minor] s (onError text s) := by
  unfold onError
  split
  · exact Write.made (.puts (.error text)) rfl
  · exact .nothing

theorem sendProto_made {dst : Addr} {id : UInt8} {payload : Bytes}
    (h : (Out.proto dst id payload).Plain s.cfg.uuid) : Made [.minor] s (sendProto dst id payload s) := by
  unfold sendProto
  split
  · exact .nothing
  · exact Write.made (.puts h) rfl

theorem sendProtoNat_made {id : UInt8} {payload : Bytes} (h : plainRequests.contains id = true) :
    Made [.minor] s (sendProtoNat id payload s) := sendProto_made (.request h _ _)

theorem sendIceSdp_made (peer sdp : Bytes) : Made [.minor] s (sendIceSdp peer sdp s) := by
  unfold sendIceSdp
  split
  · exact .nothing
  · exact sendProtoNat_made rfl

theorem relayRegister_made : Made [.minor] s (relayRegister s) := by
  unfold relayRegister
  split
  · exact .nothing
  · exact sendProto_made (.registers _)

theorem doHeartbeat_made : Made [.minor] s (doHeartbeat env s) := by
  unfold doHeartbeat
  split <;> exact sendProtoNat_made rfl

def relayPayload (u v tx : Bytes) : Bytes := uuidField u ++ uuidField v ++ tx

/-- The output carries the bytes `tx` from `u` to `v`. -/
inductive Carries (u v tx : Bytes) : Out → Prop
  | ice : Carries u v tx (.juice v (.send tx))
  | direct (dst : Addr) : Carries u v tx (.raw dst tx)
  | relayed (dst : Addr) : Carries u v tx (.proto dst msgProxyRelayData (relayPayload u v tx))

theorem transmit_carries (env : Env) (c : Conn) (tx : Bytes) :
    ∀ o ∈ (transmit env c tx s).2, Carries s.cfg.uuid c.peerUuid tx o := by
  intro o ho
  unfold transmit at ho
  dsimp only at ho
  split at ho
  · rw [List.mem_singleton.mp ho]
    exact .ice
  · split at ho
    · split at ho
      · simp only [List.cons_append, List.nil_append, List.mem_cons, List.not_mem_nil, or_false] at ho
        rcases ho with rfl | rfl <;> exact .direct _
      · rw [List.append_nil, List.mem_singleton] at ho
        rw [ho]
        exact .direct _
    · split at ho
      · split at ho
        · cases ho
        · split at ho
          · cases ho
          · rw [List.mem_singleton.mp ho]
            exact .relayed _
      · cases ho

theorem Carries.plain {u v tx uuid : Bytes} {o : Out} (h : Carries u v tx o) : o.Plain uuid := by
  cases h with
  | ice => exact .juice (by simp) v
  | direct dst => exact .raw dst tx
  | relayed dst => exact .request rfl dst _

theorem transmit_made (c : Conn) (tx : Bytes) : Made [.minor] s (transmit env c tx s) := by
  have hout : Made [.minor] s (s, (transmit env c tx s).2) :=
    .puts fun o ho => (transmit_carries env c tx o ho).plain
  rwa [← Prod.eta (transmit env c tx s), transmit_state]

theorem getTunnelKey_made (peer : Bytes) : Made [.minor] s ((getTunnelKey peer s).2, []) := by
  unfold getTunnelKey
  split
  · exact .nothing
  · split
    · exact .nothing
    · exact Write.made (.derives peer) rfl

theorem encryptTunnelFrame_made (peer frame : Bytes) :
    Made [.minor] s ((encryptTunnelFrame env peer frame s).2, []) := by
  unfold encryptTunnelFrame
  split
  · exact .nothing
  · dsimp only
    split
    · exact .nothing
    · have hkey : Made [.minor] s ((getTunnelKey peer s).2, []) := getTunnelKey_made peer
      split
      · rename_i hk
        rwa [hk] at hkey
      · rename_i hk
        rw [hk] at hkey
        split
        · exact hkey
        · exact hkey.after (Write.made (.sets _ _ _ _ _) rfl)

theorem decryptTunnelFrame_made (peer : Bytes) (frame : Memory) (len : ℕ) :
    Made [.minor] s ((decryptTunnelFrame peer frame len s).2, []) := by
  unfold decryptTunnelFrame
  split
  · exact .nothing
  · dsimp only
    split
    · exact .nothing
    · have hkey : Made [.minor] s ((getTunnelKey peer s).2, []) := getTunnelKey_made peer
      split
      · rename_i hk
        rwa [hk] at hkey
      · rename_i hk
        rw [hk] at hkey
        split
        · exact hkey
        · exact hkey.after (Write.made (.sets _ _ _ _ _) rfl)

theorem sendTunnelVia_made (c : Conn) (frame : Bytes) : Made [.minor] s (sendTunnelVia env c frame s) := by
  unfold sendTunnelVia
  split
  · have henc : Made [.minor] s ((encryptTunnelFrame env c.peerUuid frame s).2, []) :=
      encryptTunnelFrame_made c.peerUuid frame
    split
    · rename_i hx
      rw [hx] at henc
      exact henc.after (transmit_made c _)
    · rename_i hx
      rw [hx] at henc
      exact henc.after (transmit_made c _)
  · exact transmit_made c frame

theorem sessionFor_made (peer : Bytes) : Made [.opens] s ((sessionFor peer s).2, []) := by
  unfold sessionFor
  split
  · exact .nothing
  · rename_i hnone
    exact Write.made (.opens hnone) rfl

theorem sessionOut_made (peer : Bytes) (o : Session.Out) (s : P2PClient) :
    Made [.minor, .plays] s (sessionOut env peer o s) := by
  cases o with
  | tx frame =>
    unfold sessionOut
    dsimp only
    split
    · exact (sendTunnelVia_made _ frame).mono rfl
    · exact .nothing
  | deliver ch payload =>
    unfold sessionOut
    dsimp only
    split
    · exact Write.made (.delivers peer ch payload) rfl
    · exact .nothing

theorem withSession_made (peer : Bytes) (f : Session → Session × List Session.Out) :
    Made [.minor, .opens, .plays] s (withSession env peer f s) := by
  unfold withSession
  refine ((sessionFor_made peer).mono rfl).after ?_
  exact (Write.made (.plays peer _) rfl).after (Composed.forEach (fun o s => (sessionOut_made peer o s).mono rfl) _ _)

theorem onTunnelFrame_made (peer : Bytes) (frame : Memory) (len : ℕ) :
    Made [.minor, .opens, .plays] s (onTunnelFrame env peer frame len s) := by
  unfold onTunnelFrame
  dsimp only
  split
  · exact ((decryptTunnelFrame_made peer frame len).mono rfl).after (withSession_made peer _)
  · exact withSession_made peer _

theorem sendControl_made (type : UInt8) (c : Conn) : Made [.minor, .opens] s (sendControl env type c s) := by
  unfold sendControl
  exact ((sessionFor_made c.peerUuid).mono rfl).after ((sendTunnelVia_made c _).mono rfl)

theorem doAuthChallenge_made : Made [.asks] s (doAuthChallenge s) := by
  rw [doAuthChallenge_eq]
  exact Write.made .asks rfl

theorem doAuthLogin_made : Made [.login] s (doAuthLogin s) := by
  unfold doAuthLogin sendProtoNat sendProto
  split
  · exact .nothing
  · exact Write.made .logs rfl

theorem startNatDetect_made : Made [.minor] s (startNatDetect env s) := by
  unfold startNatDetect
  split
  · exact .nothing
  · refine Made.andThen (Write.made (.sets _ _ _ _ _) rfl) (Write.made (.puts ?_) rfl)
    exact .request rfl _ _

theorem fireReady_made : Made [.minor, .beat] s (fireReady s) := by
  unfold fireReady
  split
  · have hfired : Made [.minor, .beat] s ({ s with hb := { s.hb with readyFired := true } }, []) :=
      Write.made (.beats (.inl rfl)) rfl
    exact hfired.after (Write.made (.puts (.ready _ _ _)) rfl)
  · exact .nothing

theorem proceed_made : Made [.minor, .beat, .asks] s (proceed env s) := by
  unfold proceed
  split
  · exact doAuthChallenge_made.mono rfl
  · exact .andThen (startNatDetect_made.mono rfl) (fireReady_made.mono rfl)

theorem onHeartbeatRsp_made (p : Bytes) : Made [.minor, .beat, .asks] s (onHeartbeatRsp env p s) := by
  have hrsp := onHeartbeatRsp_handles env p s
  generalize onHeartbeatRsp env p s = r at hrsp ⊢
  cases hrsp with
  | ignored => exact .nothing
  | refused text => exact (onError_made text).mono rfl
  | challenged => exact doAuthChallenge_made.mono rfl
  | accepted => exact (Write.made (.beats (.inr rfl)) rfl).after proceed_made

theorem onHeartbeatRspEnc_made (p : Bytes) : Made [.minor, .beat, .asks] s (onHeartbeatRspEnc env p s) := by
  unfold onHeartbeatRspEnc
  split
  · exact .nothing
  · exact onHeartbeatRsp_made _

theorem onAuthChallengeRsp_made (p : Bytes) : Made [.minor, .login, .auth] s (onAuthChallengeRsp env p s) := by
  unfold onAuthChallengeRsp
  dsimp only
  split
  · exact Write.made (.auths _) rfl
  · split
    · split
      · exact (Write.made (.auths _) rfl).after ((onError_made _).mono rfl)
      · split
        · exact (Write.made (.auths _) rfl).after ((onError_made _).mono rfl)
        · exact Write.made (.auths _) rfl
    · exact (Write.made (.auths _) rfl).after (doAuthLogin_made.mono rfl)

/-- One round of the loop in `resendConnects`. -/
def resendOne (kc : Bytes × Conn) : Action := fun s =>
  if kc.2.connecting && !kc.2.punch.haveDirect && !kc.2.relay.relayOk then
    andThen (sendProtoNat msgConnectReq (connectReq s kc.2.peerUuid))
      (Effects.modify (setConn kc.1 { kc.2 with backoffAttempt := kc.2.backoffAttempt + 1 })) s
  else (s, [])

theorem resendOne_made {kc : Bytes × Conn} (hget : s.conns[kc.1]? = some kc.2) :
    Made [.minor, .conn] s (resendOne kc s) := by
  unfold resendOne
  split
  · have hsent : (sendProtoNat msgConnectReq (connectReq s kc.2.peerUuid) s).1.conns[kc.1]? = some kc.2 := by
      rw [sendProtoNat_state, hget]
    exact .andThen ((sendProtoNat_made rfl).mono rfl) (Write.made (.keeps hsent ⟨⟨rfl, rfl, rfl, rfl, rfl⟩, rfl, rfl⟩) rfl)
  · exact .nothing

theorem resendOne_get {kc : Bytes × Conn} {key : Bytes} (h : key ≠ kc.1) :
    (resendOne kc s).1.conns[key]? = s.conns[key]? := by
  unfold resendOne
  split
  · simp only [andThen, Effects.modify, sendProtoNat_state]
    rw [setConn, TreeMaps.insert_get, if_neg h]
  · rfl

/-- The loop finds every connection as it was at its start, since it comes to each once. -/
theorem resendAll_made {kcs : List (Bytes × Conn)} (hnd : (kcs.map Prod.fst).Nodup)
    (h : ∀ kc ∈ kcs, s.conns[kc.1]? = some kc.2) : Made [.minor, .conn] s (forEach resendOne kcs s) := by
  induction kcs generalizing s with
  | nil => exact .nothing
  | cons kc kcs ih =>
    rw [List.map_cons, List.nodup_cons] at hnd
    refine .andThen (resendOne_made (h kc List.mem_cons_self)) (ih hnd.2 fun kc' hmem => ?_)
    have hne : kc'.1 ≠ kc.1 := fun heq => hnd.1 (heq ▸ List.mem_map_of_mem hmem)
    rw [resendOne_get hne]
    exact h kc' (List.mem_cons_of_mem kc hmem)

theorem resendConnects_made : Made [.minor, .conn] s (resendConnects env s) :=
  resendAll_made TreeMaps.Walk.nodup_entries fun _ hmem => TreeMaps.Walk.mem_entries.mp hmem

theorem onAuthLoginRsp_made (p : Bytes) : Made [.minor, .beat, .auth, .conn] s (onAuthLoginRsp env p s) := by
  have hauth (auth : AuthState) : Made [.minor, .beat, .auth, .conn] s ({ s with auth := auth }, []) :=
    Write.made (.auths auth) rfl
  have hbeat (auth : AuthState) : Made [.minor, .beat, .auth, .conn] { s with auth := auth }
      ({ s with auth := auth, hb := { s.hb with nextHeartbeatMs := env.now + 100 } }, []) :=
    Write.made (.beats (.inl rfl)) rfl
  unfold onAuthLoginRsp
  dsimp only
  split
  · exact hauth _
  · split
    · exact (hauth _).after ((hbeat _).after (resendConnects_made.mono rfl))
    · exact (hauth _).after ((onError_made _).mono rfl)

theorem adoptProxies_made (now : UInt64) (cands : List ServerAddr) :
    Made [.adopts] s (adoptProxies now cands s, []) := by
  unfold adoptProxies
  split
  · rename_i h
    simp only [Bool.and_eq_true, List.isEmpty_iff] at h
    exact Write.made (.adopts _ _ h.1) rfl
  · split
    · rename_i h
      simp only [Bool.and_eq_true, List.isEmpty_iff] at h
      exact Write.made (.adopts _ _ h.1) rfl
    · exact .nothing

theorem setConn_get (key : Bytes) (c : Conn) (s : P2PClient) : (setConn key c s).conns[key]? = some c := by
  rw [setConn, TreeMaps.insert_get, if_pos rfl]

theorem setConn_setConn (key : Bytes) (c c' : Conn) (s : P2PClient) :
    setConn key c' (setConn key c s) = setConn key c' s := by
  rw [setConn, setConn, setConn, TreeMaps.insert_insert]

theorem connAt_setConn (key : Bytes) (c : Conn) (s : P2PClient) : connAt (setConn key c s) key = c := by
  rw [connAt, setConn_get, Option.getD_some]

theorem connAt_of_get (h : s.conns[key]? = some c) : connAt s key = c := by
  rw [connAt, h, Option.getD_some]

theorem get_of_contains (h : s.conns.contains key = true) : s.conns[key]? = some (connAt s key) := by
  rw [Std.ExtTreeMap.contains_eq_isSome_getElem?, Option.isSome_iff_exists] at h
  obtain ⟨c, hc⟩ := h
  rw [hc, connAt_of_get hc]

theorem get_of_connAt (h : connAt s key ≠ {}) : s.conns[key]? = some (connAt s key) := by
  cases hc : s.conns[key]? with
  | some c => rw [connAt_of_get hc]
  | none =>
    rw [connAt, hc] at h
    exact absurd rfl h

theorem onConnectAck_made (p : Bytes) :
    Made [.minor, .asks, .adopts, .conn, .enters, .acks, .closes] s (onConnectAck env p s) := by
  unfold onConnectAck
  dsimp only
  generalize p.take connectAckSize = q
  split
  · exact .nothing
  · split
    · split
      · exact doAuthChallenge_made.mono rfl
      · exact .nothing
    · have hentry : Made [.minor, .asks, .adopts, .conn, .enters, .acks, .closes] s
          (setConn (uuidAt q 1) (if (!(connAt s (uuidAt q 1)).connecting) = true then
            { connAt s (uuidAt q 1) with peerUuid := uuidAt q 1, connecting := true }
            else connAt s (uuidAt q 1)) s, []) ∧ (if (!(connAt s (uuidAt q 1)).connecting) = true then
            { connAt s (uuidAt q 1) with peerUuid := uuidAt q 1, connecting := true }
            else connAt s (uuidAt q 1)).connecting = true := by
        split
        · exact ⟨Write.made (.enters rfl ⟨rfl, rfl, rfl, rfl, rfl⟩ fun _ => rfl) rfl, rfl⟩
        · rename_i hon
          rw [Bool.not_eq_true, Bool.not_eq_false'] at hon
          have hget : s.conns[uuidAt q 1]? = some (connAt s (uuidAt q 1)) := get_of_connAt fun h => by
            rw [h] at hon
            cases hon
          exact ⟨Write.made (.keeps hget ⟨⟨rfl, rfl, rfl, rfl, rfl⟩, rfl, rfl⟩) rfl, hon⟩
      generalize (if (!(connAt s (uuidAt q 1)).connecting) = true then
        { connAt s (uuidAt q 1) with peerUuid := uuidAt q 1, connecting := true }
        else connAt s (uuidAt q 1)) = c at hentry
      obtain ⟨hset, hconnecting⟩ := hentry
      split
      · exact hset.after (.andThen ((onError_made _).mono rfl) (Write.made (.closes c) rfl))
      · have hack : Write .acks (setConn (uuidAt q 1) c s) _ := .acks env q (setConn_get _ c s) hconnecting
        rw [setConn_setConn] at hack
        exact hset.after ((Write.made hack rfl).after ((adoptProxies_made _ _).mono rfl))

theorem ensureIceAgent_conn (env : Env) (cfg : Config) (c : Conn) :
    ∃ juice sdp, (ensureIceAgent env cfg c).1 =
      { c with punch := { c.punch with juice := juice, localSdp := sdp } } ∧
      (cfg.forceRelay = true → juice = c.punch.juice) := by
  unfold ensureIceAgent
  split
  · exact ⟨c.punch.juice, c.punch.localSdp, rfl, fun _ => rfl⟩
  · split
    · exact ⟨c.punch.juice, c.punch.localSdp, rfl, fun _ => rfl⟩
    · rename_i hno _
      refine ⟨true, _, rfl, fun hforce => ?_⟩
      simp [hforce] at hno

theorem ensureIceAgent_plain {uuid : Bytes} (cfg : Config) (c : Conn) :
    ∀ o ∈ (ensureIceAgent env cfg c).2, o.Plain uuid := by
  unfold ensureIceAgent
  intro o ho
  split at ho
  · cases ho
  · split at ho
    · rw [List.mem_singleton.mp ho]
      exact .juice (by simp) _
    · simp only [List.mem_cons, List.not_mem_nil, or_false] at ho
      rcases ho with rfl | rfl <;> exact .juice (by simp) _

theorem applyRemoteIceSdp_conn (c : Conn) (sdp : Bytes) :
    ∃ remote, (applyRemoteIceSdp c sdp).1 = { c with punch := { c.punch with remoteSdp := remote } } := by
  unfold applyRemoteIceSdp
  split
  · exact ⟨c.punch.remoteSdp, rfl⟩
  · exact ⟨sdp, rfl⟩

theorem applyRemoteIceSdp_made (c : Conn) (sdp : Bytes) :
    Made [.described] s (s, (applyRemoteIceSdp c sdp).2) := by
  unfold applyRemoteIceSdp
  split
  · exact .nothing
  · exact Write.made (.applies _ _) rfl

theorem onConnectInvite_made (p : Bytes) :
    Made [.minor, .adopts, .enters, .invites, .described] s (onConnectInvite env p s) := by
  unfold onConnectInvite
  dsimp only
  generalize p.take connectInviteSize = q
  split
  · exact .nothing
  · split
    · exact .nothing
    · generalize uuidAt q 0 = peer
      have hset : Made [.minor, .adopts, .enters, .invites, .described] s
          (setConn peer { connAt s peer with peerUuid := peer } s, []) :=
        Write.made (.enters rfl ⟨rfl, rfl, rfl, rfl, rfl⟩ id) rfl
      have hget := setConn_get peer { connAt s peer with peerUuid := peer } s
      split
      · rename_i hforce
        have hinvite : Write .invites (setConn peer { connAt s peer with peerUuid := peer } s) _ :=
          .invitesRelay env.now hget hforce rfl
        rw [setConn_setConn] at hinvite
        exact hset.after ((Write.made hinvite rfl).after ((adoptProxies_made _ _).mono rfl))
      · rename_i hforce
        generalize hmade : ensureIceAgent env s.cfg _ = made
        obtain ⟨juice, sdp, hagent, -⟩ := ensureIceAgent_conn env s.cfg _
        have hplain (uuid : Bytes) : ∀ o ∈ made.2, o.Plain uuid := hmade ▸ ensureIceAgent_plain s.cfg _
        rw [hmade] at hagent
        have happlied : ∃ remote, (if s.pendingRemoteSdp.isEmpty = true then (made.1, ([] : List Out))
            else applyRemoteIceSdp made.1 s.pendingRemoteSdp).1 =
              { made.1 with punch := { made.1.punch with remoteSdp := remote } } := by
          split
          · exact ⟨_, rfl⟩
          · exact applyRemoteIceSdp_conn _ _
        have hsdp (t : P2PClient) : Made [.described] t (t, (if s.pendingRemoteSdp.isEmpty = true then
            (made.1, ([] : List Out)) else applyRemoteIceSdp made.1 s.pendingRemoteSdp).2) := by
          split
          · exact .nothing
          · exact applyRemoteIceSdp_made _ _
        generalize (if s.pendingRemoteSdp.isEmpty = true then (made.1, ([] : List Out))
          else applyRemoteIceSdp made.1 s.pendingRemoteSdp) = applied at happlied hsdp
        obtain ⟨remote, hremote⟩ := happlied
        obtain ⟨hname, hconnected, hconnecting, hdirect, hrelay⟩ : applied.1.peerUuid = peer ∧
            applied.1.connected = (connAt s peer).connected ∧ applied.1.connecting = true ∧
            applied.1.punch.haveDirect = true ∧ applied.1.relay.relayOk = (connAt s peer).relay.relayOk := by
          rw [hremote, hagent]
          exact ⟨rfl, rfl, rfl, rfl, rfl⟩
        have hinvite : Write .invites (setConn peer { connAt s peer with peerUuid := peer } s) _ :=
          .invites (addrKey ((sockaddrFrom (q.drop 33) (u16At q 49)).getD ⟨0, 0⟩)) hget hforce hname hconnected
            hconnecting hdirect hrelay
        rw [setConn_setConn] at hinvite
        have houts (t : P2PClient) :
            Made [.minor, .adopts, .enters, .invites, .described] t (t, made.2 ++ applied.2) :=
          Composed.andThen ((Made.puts (hplain _)).mono rfl) ((hsdp t).mono rfl)
        exact hset.after ((Write.made hinvite rfl).after (((adoptProxies_made _ _).mono rfl).after (houts _)))

theorem onIceSdp_made (p : Bytes) : Made [.conn, .described] s (onIceSdp env p s) := by
  have htarget : ∀ kc ∈ (if uuidAt p 0 = s.cfg.uuid then sdpTarget env s
      else s.conns[uuidAt p 0]?.map fun c => (uuidAt p 0, c)), s.conns[kc.1]? = some kc.2 := by
    intro kc hkc
    split at hkc
    · exact TreeMaps.Walk.mem_entries.mp (List.mem_of_find?_eq_some hkc)
    · obtain ⟨c, hc, rfl⟩ := Option.map_eq_some_iff.mp hkc
      exact hc
  unfold onIceSdp
  dsimp only
  generalize (if uuidAt p 0 = s.cfg.uuid then sdpTarget env s
    else s.conns[uuidAt p 0]?.map fun c => (uuidAt p 0, c)) = target at htarget
  split
  · exact .nothing
  · split
    · exact .nothing
    · cases target with
      | none =>
        dsimp only
        split
        · exact Write.made (.pends _) rfl
        · exact .nothing
      | some kc =>
        dsimp only
        split
        · exact Write.made (.pends _) rfl
        · have hset (sdp : Bytes) : Made [.conn, .described] s (setConn kc.1 (applyRemoteIceSdp kc.2 sdp).1 s, []) := by
            obtain ⟨remote, hremote⟩ := applyRemoteIceSdp_conn kc.2 sdp
            rw [hremote]
            exact Write.made (.keeps (htarget kc rfl) ⟨⟨rfl, rfl, rfl, rfl, rfl⟩, rfl, rfl⟩) rfl
          exact (hset _).after ((applyRemoteIceSdp_made _ _).mono rfl)

theorem onProxyRegisterRsp_made (p : Bytes) : Made [.minor, .granted] s (onProxyRegisterRsp p s) := by
  unfold onProxyRegisterRsp
  split
  · exact .nothing
  · split
    · exact Write.made .grants rfl
    · exact (onError_made _).mono rfl

/-- The kinds that leave the connections alone. -/
def Kind.still : Kind → Bool
  | .minor | .beat | .asks | .login | .auth | .adopts | .opens | .plays => true
  | _ => false

theorem Write.links (h : Write k s r) (hk : k.still = true) :
    r.1.conns = s.conns ∧ r.1.addrToPeer = s.addrToPeer := by
  cases h with
  | puts | sets | derives | beats | asks | logs | auths | adopts | opens | plays | delivers => exact ⟨rfl, rfl⟩
  | lifts _ _ h => cases h <;> cases hk
  | _ => cases hk

theorem Made.links (h : Made ks s r) (hks : ks.all Kind.still = true) :
    r.1.conns = s.conns ∧ r.1.addrToPeer = s.addrToPeer := by
  refine Composed.preserves (I := fun t : P2PClient => t.conns = s.conns ∧ t.addrToPeer = s.addrToPeer)
    (fun t r ⟨k, hk, hw⟩ ht => ?_) h ⟨rfl, rfl⟩
  have hkept := hw.links (List.all_eq_true.mp hks k hk)
  exact ⟨hkept.1.trans ht.1, hkept.2.trans ht.2⟩

theorem Lifts.mark (relay up : Bool) (haddr : relay = false → ∃ a : UInt64, s.addrToPeer[a]? = some key) :
    Lifts s key c up (.proves relay) { markPath relay c with connected := up } := by
  cases relay with
  | true => exact .relayed
  | false =>
    obtain ⟨a, ha⟩ := haddr rfl
    exact .direct ha

theorem provePath_made (relay : Bool) (hin : s.conns.contains key = true)
    (haddr : relay = false → ∃ a : UInt64, s.addrToPeer[a]? = some key) :
    Made [.proves relay] s (provePath relay key s) := by
  have hself : [Kind.proves relay].contains (.proves relay) = true := by simp
  have hget := get_of_contains hin
  unfold provePath
  dsimp only
  generalize connAt s key = c at hget
  split
  · exact .nothing
  · split
    · rename_i hcall
      simp only [Bool.and_eq_true, Bool.not_eq_true'] at hcall
      have hname : (if relay = true then key else c.peerUuid) = key ∨
          (if relay = true then key else c.peerUuid) = c.peerUuid := by
        split
        · exact .inl rfl
        · exact .inr rfl
      have hlift : Write (.proves relay) s (setConn key { markPath relay c with connected := true } s, _) :=
        .lifts relay hget (.mark relay true haddr) (fun _ => rfl) hname
      rw [if_pos (by simp [hcall])] at hlift
      exact Write.made hlift hself
    · have hlift : Write (.proves relay) s
          (setConn key { markPath relay c with connected := c.connected } s, _) :=
        .lifts relay hget (.mark relay c.connected haddr) id (.inl rfl)
      rw [if_neg (by simp)] at hlift
      have hmark : { markPath relay c with connected := c.connected } = markPath relay c := by
        cases relay <;> rfl
      rw [hmark] at hlift
      exact Write.made hlift hself

/-- A frame is handed to the session, and then counts as a proof of its path. -/
theorem frame_made (relay : Bool) (m : Memory) (len : ℕ) (hin : s.conns.contains key = true)
    (haddr : relay = false → ∃ a : UInt64, s.addrToPeer[a]? = some key) :
    Made [.minor, .opens, .plays, .proves relay] s
      (andThen (onTunnelFrame env key m len) (provePath relay key) s) := by
  have hframe : Made [.minor, .opens, .plays] s (onTunnelFrame env key m len s) := onTunnelFrame_made key m len
  obtain ⟨hconns, haddrs⟩ := hframe.links rfl
  refine .andThen (hframe.mono (by simp)) ((provePath_made relay ?_ fun hr => ?_).mono (by simp))
  · rw [hconns, hin]
  · rw [haddrs]
    exact haddr hr

theorem contains_setConn (key : Bytes) (c : Conn) (s : P2PClient) : (setConn key c s).conns.contains key = true := by
  rw [Std.ExtTreeMap.contains_eq_isSome_getElem?, setConn_get, Option.isSome_some]

theorem onRelayData_made (m : Memory) (plen : ℕ) :
    Made [.minor, .opens, .plays, .conn, .enters, .proves true] s (onRelayData env m plen s) := by
  unfold onRelayData
  dsimp only
  split
  · exact .nothing
  · split
    · exact .nothing
    · split
      · exact .nothing
      · generalize uuidAt (m.read 0 plen) 0 = peer
        have hset : Made [.minor, .opens, .plays, .conn, .enters, .proves true] s
            (setConn peer (if (connAt s peer).peerUuid.isEmpty = true then { connAt s peer with peerUuid := peer }
              else connAt s peer) s, []) := by
          split
          · exact Write.made (.enters rfl ⟨rfl, rfl, rfl, rfl, rfl⟩ id) rfl
          · rename_i hnamed
            have hget : s.conns[peer]? = some (connAt s peer) := get_of_connAt fun h => hnamed (by rw [h]; rfl)
            exact Write.made (.keeps hget ⟨⟨rfl, rfl, rfl, rfl, rfl⟩, rfl, rfl⟩) rfl
        rw [andThen_modify]
        refine hset.after ((frame_made true _ _ (contains_setConn peer _ _) ?_).mono rfl)
        exact fun hf => Bool.noConfusion hf

theorem onDirectFrame_made {a : UInt64} (m : Memory) (len : ℕ) (haddr : s.addrToPeer[a]? = some key) :
    Made [.minor, .opens, .plays, .enters, .proves false] s (onDirectFrame env key m len s) := by
  rw [onDirectFrame, andThen_modify]
  refine (Write.made (.finds haddr) rfl).after ((frame_made false m len (contains_setConn _ _ s) fun _ => ?_).mono rfl)
  exact ⟨a, haddr⟩

theorem tickHeartbeat_made (now : UInt64) : Made [.minor, .beat] s (tickHeartbeat env now s) := by
  unfold tickHeartbeat
  split
  · refine .andThen (doHeartbeat_made.mono rfl) ?_
    unfold Effects.modify
    dsimp only
    split
    · exact Write.made (.beats (.inl rfl)) rfl
    · exact Write.made (.beats (.inl rfl)) rfl
  · exact .nothing

theorem tickAuth_made (now : UInt64) : Made [.asks] s (tickAuth now s) := by
  unfold tickAuth
  split
  · exact doAuthChallenge_made
  · exact .nothing

theorem tickNatDetect_made (now : UInt64) : Made [.minor] s (tickNatDetect now s) := by
  have htype : Made [.minor] s (if s.natDetect.isDone && s.natType == natUnknown then
      { s with natType := s.natDetect.nattype } else s, []) := by
    split
    · exact Write.made (.sets _ _ _ _ _) rfl
    · exact .nothing
  unfold tickNatDetect
  refine htype.after ?_
  generalize (if s.natDetect.isDone && s.natType == natUnknown then
    { s with natType := s.natDetect.nattype } else s) = t
  have hset (d : NatDetect) : Made [.minor] t ({ t with natDetect := d }, []) := Write.made (.sets _ _ _ _ _) rfl
  dsimp only
  split
  · exact .nothing
  · split
    · exact (hset _).after (Write.made (.puts (.request rfl _ _)) rfl)
    · exact hset _

theorem tickRelay_made (now : UInt64) : Made [.minor] s (tickRelay now s) := by
  unfold tickRelay
  split
  · exact .andThen relayRegister_made (Write.made (.sets _ _ _ _ _) rfl)
  · exact .nothing

theorem doPunch_made (c : Conn) : Made [.opens] s (doPunch c s) := by
  unfold doPunch
  split
  · exact .nothing
  · exact sessionFor_made c.peerUuid

theorem closeInRound_made (text : Bytes) (c : Conn) : Made [.minor, .closes] s (closeInRound text c s) := by
  unfold closeInRound
  refine .andThen ((onError_made _).mono rfl) (.andThen (Write.made (.closes c) rfl) ?_)
  exact Write.made (.puts (.erasedUse _)) rfl

theorem tickConnPunch_made (now : UInt64) (hin : s.conns.contains key = true) :
    Made [.opens, .conn] s (tickConnPunch now key s) := by
  unfold tickConnPunch
  dsimp only
  split
  · have hpunch : Made [.opens] s (doPunch (connAt s key) s) := doPunch_made _
    have hget : (doPunch (connAt s key) s).1.conns[key]? = some (connAt s key) := by
      rw [(hpunch.links rfl).1, get_of_contains hin]
    exact .andThen (hpunch.mono rfl) (Write.made (.keeps hget ⟨⟨rfl, rfl, rfl, rfl, rfl⟩, rfl, rfl⟩) rfl)
  · exact .nothing

theorem registerForConn_made (now : UInt64) (hin : s.conns.contains key = true) :
    Made [.minor, .conn] s (registerForConn now key s) := by
  unfold registerForConn
  split
  · refine .andThen (relayRegister_made.mono rfl) ?_
    rw [relayRegister_state]
    have hset : Made [.minor, .conn] s (setConn key { connAt s key with
        backoffAttempt := (connAt s key).backoffAttempt + 1 } s, []) :=
      Write.made (.keeps (get_of_contains hin) ⟨⟨rfl, rfl, rfl, rfl, rfl⟩, rfl, rfl⟩) rfl
    exact hset.after (Write.made (.sets _ _ _ _ _) rfl)
  · exact .nothing

theorem pingRelay_made (now : UInt64) (hin : s.conns.contains key = true) :
    Made [.minor, .opens, .conn] s (pingRelay env now key s) := by
  have hping : Made [.minor, .opens] s (sendControl env ttPing (connAt s key) s) := sendControl_made _ _
  have hget : (sendControl env ttPing (connAt s key) s).1.conns[key]? = some (connAt s key) := by
    rw [(hping.links rfl).1, get_of_contains hin]
  have hat := connAt_of_get hget
  refine .andThen (hping.mono rfl) (Write.made (.keeps hget ?_) rfl)
  rw [hat]
  exact ⟨⟨rfl, rfl, rfl, rfl, rfl⟩, rfl, rfl⟩

theorem tickConnFsm_made (hin : s.conns.contains key = true) : Made [.rises] s (tickConnFsm key s) := by
  have hget := get_of_contains hin
  unfold tickConnFsm
  dsimp only
  generalize connAt s key = c at hget
  split
  · rename_i hcall
    simp only [Bool.and_eq_true, Bool.not_eq_true'] at hcall
    have hlift : Write .rises s (setConn key { c with connected := true } s, _) :=
      .lifts true hget (.known hcall.1) (fun _ => rfl) (.inr rfl)
    simp only [hcall.2, Bool.not_false, Bool.and_true, Bool.true_and] at hlift
    exact Write.made hlift rfl
  · exact .nothing

theorem setConn_contains (c : Conn) {v : Bytes} (hin : s.conns.contains v = true) :
    (setConn key c s).conns.contains v = true := by
  rw [setConn, Std.ExtTreeMap.contains_insert, hin, Bool.or_true]

/-- What is there stays there, unless a connection is closed. -/
theorem Write.contains (h : Write k s r) (hk : k ≠ .closes) {v : Bytes} (hin : s.conns.contains v = true) :
    r.1.conns.contains v = true := by
  cases h with
  | puts | sets | derives | beats | asks | logs | auths | adopts | opens | plays | delivers | applies | pends =>
    exact hin
  | grants =>
    rw [Std.ExtTreeMap.contains_eq_isSome_getElem?] at hin ⊢
    rw [Std.ExtTreeMap.getElem?_map, Option.isSome_map, hin]
  | keeps | enters | finds | begins | acks | invitesRelay | invites | lifts => exact setConn_contains _ hin
  | closes => exact absurd rfl hk

theorem Made.contains (h : Made ks s r) (hks : ks.contains .closes = false) {v : Bytes}
    (hin : s.conns.contains v = true) : r.1.conns.contains v = true := by
  refine Composed.preserves (I := fun t : P2PClient => t.conns.contains v = true) (fun t r ⟨k, hk, hw⟩ => ?_) h hin
  refine hw.contains fun heq => ?_
  subst heq
  cases hks.symm.trans (List.contains_iff_mem.mpr hk)

theorem tickConn_made (now : UInt64) (hin : s.conns.contains key = true) :
    Made [.minor, .opens, .conn, .rises, .closes] s (tickConn env now key s) := by
  have hpunch : Made [.opens, .conn] s (tickConnPunch now key s) := tickConnPunch_made now hin
  have hpunched := hpunch.contains rfl hin
  unfold tickConn
  refine .andThen (hpunch.mono rfl) ?_
  generalize (tickConnPunch now key s).1 = t at hpunched
  dsimp only
  split
  · exact (closeInRound_made _ _).mono rfl
  · split
    · exact (tickConnFsm_made hpunched).mono rfl
    · have hreg : Made [.minor, .conn] t (registerForConn now key t) := registerForConn_made now hpunched
      have hregistered := hreg.contains rfl hpunched
      refine .andThen (hreg.mono rfl) ?_
      generalize (registerForConn now key t).1 = u at hregistered
      split
      · have hping : Made [.minor, .opens, .conn] u (pingRelay env now key u) := pingRelay_made now hregistered
        exact .andThen (hping.mono rfl) ((tickConnFsm_made (hping.contains rfl hregistered)).mono rfl)
      · split
        · exact (closeInRound_made _ _).mono rfl
        · exact (tickConnFsm_made hregistered).mono rfl

theorem tickConnections_made (now : UInt64) :
    Made [.minor, .opens, .conn, .rises, .closes] s (tickConnections env now s) :=
  connLoop_closed (fun _ => .nothing) .andThen env now (fun _ _ hin => tickConn_made now hin) _ s

theorem tickSessions_made (now : UInt64) : Made [.minor, .opens, .plays] s (tickSessions env now s) := by
  unfold tickSessions
  refine Composed.forEach (fun peer s => ?_) _ _
  split
  · exact withSession_made peer _
  · exact .nothing

theorem tick_made (now : UInt64) :
    Made [.minor, .beat, .asks, .opens, .plays, .conn, .rises, .closes] s (tick env now s) := by
  unfold tick
  refine .andThen ((tickHeartbeat_made now).mono rfl) (.andThen ((tickAuth_made now).mono rfl) ?_)
  refine .andThen ((tickNatDetect_made now).mono rfl) (.andThen ((tickRelay_made now).mono rfl) ?_)
  exact .andThen ((tickConnections_made now).mono rfl) ((tickSessions_made now).mono rfl)

theorem workerStart_made : Made [.beat, .asks] s (workerStart env s) := by
  unfold workerStart
  split
  · exact Write.made (.beats (.inl rfl)) rfl
  · exact .andThen (doAuthChallenge_made.mono rfl) (Write.made (.beats (.inl rfl)) rfl)

theorem connect_made (peer : Bytes) : Made [.minor, .enters, .begins] s (connect env peer s) := by
  have hset : Made [.minor, .enters, .begins] s (setConn peer { connAt s peer with peerUuid := peer } s, []) :=
    Write.made (.enters rfl ⟨rfl, rfl, rfl, rfl, rfl⟩ id) rfl
  have hget := setConn_get peer { connAt s peer with peerUuid := peer } s
  unfold connect
  dsimp only
  split
  · exact .nothing
  · split
    · exact hset
    · rename_i hidle
      simp only [Bool.or_eq_true, not_or, Bool.not_eq_true] at hidle
      generalize hmade : ensureIceAgent env s.cfg _ = made
      obtain ⟨juice, sdp, hagent, hforced⟩ := ensureIceAgent_conn env s.cfg _
      have hplain (uuid : Bytes) : ∀ o ∈ made.2, o.Plain uuid := hmade ▸ ensureIceAgent_plain s.cfg _
      rw [hmade] at hagent
      obtain ⟨hname, hconnected, hdirect, hrelay, hjuice⟩ : made.1.peerUuid = peer ∧ made.1.connected = false ∧
          made.1.punch.haveDirect = false ∧ made.1.relay.relayOk = false ∧ made.1.punch.juice = juice := by
        rw [hagent]
        exact ⟨rfl, hidle.2, rfl, rfl, rfl⟩
      have hbegin : Write .begins (setConn peer { connAt s peer with peerUuid := peer } s) _ :=
        .begins hget hidle.1 hidle.2 hname hconnected hdirect hrelay fun hf => hjuice.trans (hforced hf)
      rw [setConn_setConn] at hbegin
      have houts (t : P2PClient) : Made [.minor, .enters, .begins] t (t, made.2) := (Made.puts (hplain _)).mono rfl
      refine .andThen (f := fun s => (setConn peer made.1 s, made.2)) ?_ ((sendProtoNat_made rfl).mono rfl)
      exact hset.after ((Write.made hbegin rfl).after (houts _))

theorem disconnect_made (peer : Bytes) : Made [.minor, .opens, .closes] s (disconnect env peer s) := by
  unfold disconnect
  split
  · exact .nothing
  · refine ((sessionFor_made peer).mono rfl).after ?_
    exact .andThen ((sendTunnelVia_made _ _).mono rfl) (Write.made (.closes _) rfl)

theorem send_made (peer : Bytes) (channel : UInt8) (data : Bytes) (reliable : Bool) :
    Made [.minor, .opens, .plays] s (send env peer channel data reliable s).2 := by
  unfold send
  split
  · exact .nothing
  · split
    · exact .nothing
    · dsimp only
      exact withSession_made peer _

theorem onJuiceState_made (peer : Bytes) : Made [.agent] s (onJuiceState peer s) := by
  unfold onJuiceState
  split
  · exact .nothing
  · rename_i c hget
    split
    · exact .nothing
    · have hlift : Write .agent s (setConn peer { c with
          punch := { c.punch with directOk := true }, connected := true } s, _) :=
        .lifts false hget .agent (fun _ => rfl) (.inr rfl)
      rw [Bool.true_and] at hlift
      exact Write.made hlift rfl

theorem onJuiceCandidate_made (peer sdp : Bytes) : Made [.conn] s (onJuiceCandidate peer sdp s) := by
  unfold onJuiceCandidate
  split
  · exact .nothing
  · rename_i c hget
    split
    · exact .nothing
    · exact Write.made (.keeps hget ⟨⟨rfl, rfl, rfl, rfl, rfl⟩, rfl, rfl⟩) rfl

theorem onJuiceGatheringDone_made (peer : Bytes) : Made [.minor, .conn] s (onJuiceGatheringDone env peer s) := by
  unfold onJuiceGatheringDone
  split
  · exact .nothing
  · rename_i c hget
    split
    · exact .nothing
    · have hset : Made [.minor, .conn] s (setConn peer { c with punch := { c.punch with
          localSdp := env.localSdp.getD c.punch.localSdp } } s, []) :=
        Write.made (.keeps hget ⟨⟨rfl, rfl, rfl, rfl, rfl⟩, rfl, rfl⟩) rfl
      exact hset.after ((sendIceSdp_made _ _).mono rfl)

theorem onJuiceRecv_made (peer : Bytes) (m : Memory) (len : ℕ) :
    Made [.minor, .opens, .plays] s (onJuiceRecv env peer m len s) := by
  unfold onJuiceRecv
  split
  · exact .nothing
  · split
    · exact .nothing
    · exact onTunnelFrame_made _ m len

def messageKinds (msgId : UInt8) : List Kind :=
  if msgId = msgHeartbeatRsp ∨ msgId = msgHeartbeatRspEnc then [.minor, .beat, .asks]
  else if msgId = msgAuthChallengeRsp then [.minor, .login, .auth]
  else if msgId = msgAuthLoginRsp then [.minor, .beat, .auth, .conn]
  else if msgId = msgConnectAck then [.minor, .asks, .adopts, .conn, .enters, .acks, .closes]
  else if msgId = msgConnectInvite then [.minor, .adopts, .enters, .invites, .described]
  else if msgId = msgIceSdp then [.conn, .described]
  else if msgId = msgProxyRegisterRsp then [.minor, .granted]
  else if msgId = msgProxyRelayData then [.minor, .opens, .plays, .conn, .enters, .proves true]
  else [.minor]

theorem handleProto_made (msgId : UInt8) (m : Memory) (plen : ℕ) :
    Made (messageKinds msgId) s (handleProto env msgId m plen s) := by
  have hmsg := handleProto_handles env msgId m plen
  generalize handleProto env msgId m plen = act at hmsg ⊢
  cases hmsg with
  | heartbeatRsp => exact onHeartbeatRsp_made _
  | heartbeatRspEnc => exact onHeartbeatRspEnc_made _
  | challengeRsp => exact onAuthChallengeRsp_made _
  | loginRsp => exact onAuthLoginRsp_made _
  | natDetectRsp => exact Write.made (.sets _ _ _ _ _) rfl
  | connectAck => exact onConnectAck_made _
  | connectInvite => exact onConnectInvite_made _
  | iceSdp => exact onIceSdp_made _
  | registerRsp => exact onProxyRegisterRsp_made _
  | relayData => exact onRelayData_made m plen
  | other => exact .nothing

/-- What an event but a start or a stop can bring about. -/
def Event.kinds : Event → List Kind
  | .worker => [.beat, .asks]
  | .tick _ => [.minor, .beat, .asks, .opens, .plays, .conn, .rises, .closes]
  | .packet m len _ =>
    match protoOf m len with
    | some (msgId, _) => messageKinds msgId
    | none => [.minor, .opens, .plays, .enters, .proves false]
  | .connect _ => [.minor, .enters, .begins]
  | .disconnect _ => [.minor, .opens, .closes]
  | .juiceState _ => [.agent]
  | .juiceCandidate .. => [.conn]
  | .juiceGatheringDone _ => [.minor, .conn]
  | .send .. | .juiceRecv .. => [.minor, .opens, .plays]
  | .start _ | .stop | .orphan _ => [.minor]

theorem handlePacket_made (m : Memory) (len : ℕ) (src : Addr) :
    Made (Event.packet m len src).kinds s (handlePacket env m len src s) := by
  have hrecv := handlePacket_receives env m len src s
  generalize handlePacket env m len src s = r at hrecv ⊢
  cases hrecv with
  | message hmsg =>
    rw [Event.kinds, hmsg]
    exact handleProto_made _ _ _
  | frame hnone hpeer =>
    rw [Event.kinds, hnone]
    exact onDirectFrame_made m len hpeer
  | dropped => exact .nothing

/-- Every step but a start and a stop is made of the writes that its event allows. -/
theorem step_made {e : Event} (hstart : ∀ cfg, e ≠ .start cfg) (hstop : e ≠ .stop) :
    Made e.kinds s (step env e s) := by
  cases e with
  | start cfg => exact absurd rfl (hstart cfg)
  | worker => exact workerStart_made
  | tick now => exact tick_made now
  | packet m len src => exact handlePacket_made m len src
  | connect peer => exact connect_made peer
  | disconnect peer => exact disconnect_made peer
  | send peer channel data reliable => exact send_made peer channel data reliable
  | stop => exact absurd rfl hstop
  | juiceState peer => exact onJuiceState_made peer
  | juiceCandidate peer sdp => exact onJuiceCandidate_made peer sdp
  | juiceGatheringDone peer => exact onJuiceGatheringDone_made peer
  | juiceRecv peer m len => exact onJuiceRecv_made peer m len
  | orphan peer => exact Write.made (.puts (.erasedUse peer)) rfl

end P2PServer.P2PClient
