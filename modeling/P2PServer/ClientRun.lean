import P2PServer.ClientLoop
import P2PServer.RecvProcess
import P2PServer.Transitions

/-! The client as a reactive system: its events, what a datagram comes to, and what a start and a stop
make of the state. -/
namespace P2PServer.P2PClient
open ByteStrings ProtoDef Net Codec Crypto Effects Transitions

inductive Event
  | start (cfg : Config)
  | worker
  | tick (now : UInt64)
  | packet (m : Memory) (len : ℕ) (src : Addr)
  | connect (peer : Bytes)
  | disconnect (peer : Bytes)
  | send (peer : Bytes) (channel : UInt8) (data : Bytes) (reliable : Bool)
  | stop
  | juiceState (peer : Bytes)
  | juiceCandidate (peer sdp : Bytes)
  | juiceGatheringDone (peer : Bytes)
  | juiceRecv (peer : Bytes) (m : Memory) (len : ℕ)
  | orphan (peer : Bytes)

def step (env : Env) : Event → Action
  | .start cfg => modify fun s => (start env cfg s).getD s
  | .worker => workerStart env
  | .tick now => tick env now
  | .packet m len src => handlePacket env m len src
  | .connect peer => connect env peer
  | .disconnect peer => disconnect env peer
  | .send peer channel data reliable => fun s => (send env peer channel data reliable s).2
  | .stop => stop
  | .juiceState peer => onJuiceState peer
  | .juiceCandidate peer sdp => onJuiceCandidate peer sdp
  | .juiceGatheringDone peer => onJuiceGatheringDone env peer
  | .juiceRecv peer m len => onJuiceRecv env peer m len
  | .orphan peer => onOrphan peer

/-- The worker and the network act on a running client only. -/
def enabled (s : P2PClient) : Event → Prop
  | .worker | .tick _ | .packet _ _ _ => s.running = true
  | .orphan peer => peer ∈ s.orphans
  | _ => True

def client : System P2PClient (Env × Event) where
  init s := ∃ cfg callbacks, s = { cfg := cfg, callbacks := callbacks }
  enabled s e := enabled s e.2
  next s e := (step e.1 e.2 s).1

/-- The message in a datagram that starts with a message head. -/
def protoOf (m : Memory) (len : ℕ) : Option (UInt8 × Bytes) :=
  (codecReadHead (m.read 0 len)).map fun h =>
    (h.msgId, (m.offset 8).read 0 (if h.length.toNat ≤ len - 8 then h.length.toNat else 0))

theorem protoOf_of_readDatagram {m : Memory} {len : ℕ} {id : UInt8} {p : Bytes}
    (h : NatServer.readDatagram (m.read 0 len) = some (id, p)) : protoOf m len = some (id, p) := by
  unfold NatServer.readDatagram at h
  unfold protoOf
  cases hh : codecReadHead (m.read 0 len) with
  | none =>
    rw [hh] at h
    cases h
  | some head =>
    have hlen := length_of_codecReadHead hh
    rw [Memory.read_length] at hlen
    rw [hh] at h
    dsimp only at h
    rw [Memory.read_length] at h
    split at h
    · cases h
    · rename_i hl
      rw [Memory.window_read m (by omega)] at h
      rw [Option.map_some, if_pos (by omega), ← h]
      refine congrArg some (Prod.ext rfl ?_)
      simp [Memory.read, Memory.offset]

def challengeOf (s : P2PClient) : Out :=
  .proto s.natSock msgAuthChallengeReq (uuidField s.cfg.uuid)

def loginOf (s : P2PClient) : Out := .proto s.natSock msgAuthLoginReq (authLoginReq s)

variable {s : P2PClient}

theorem sendProto_state (dst : Addr) (msgId : UInt8) (payload : Bytes) (s : P2PClient) :
    (sendProto dst msgId payload s).1 = s := by
  unfold sendProto
  split <;> rfl

theorem sendProtoNat_state (msgId : UInt8) (payload : Bytes) (s : P2PClient) :
    (sendProtoNat msgId payload s).1 = s := sendProto_state _ _ _ s

theorem relayRegister_state (s : P2PClient) : (relayRegister s).1 = s := by
  unfold relayRegister
  split
  · rfl
  · exact sendProto_state _ _ _ s

theorem doHeartbeat_state (env : Env) (s : P2PClient) : (doHeartbeat env s).1 = s := by
  unfold doHeartbeat
  split <;> exact sendProtoNat_state _ _ s

theorem transmit_state (env : Env) (c : Conn) (tx : Bytes) (s : P2PClient) : (transmit env c tx s).1 = s := by
  unfold transmit
  dsimp only
  split
  · rfl
  · split
    · rfl
    · split
      · split
        · rfl
        · split <;> rfl
      · rfl

theorem doAuthChallenge_eq (s : P2PClient) :
    doAuthChallenge s = ({ s with auth := { s.auth with authInflight := true } }, [challengeOf s]) := by
  have hl : ¬(uuidField s.cfg.uuid).length + 8 > maxPkt := by
    have h := List.length_take_le maxUuidLen (cstr s.cfg.uuid)
    simp only [uuidField, field, List.length_append, List.length_replicate, maxUuidLen, maxPkt] at *
    omega
  unfold doAuthChallenge sendProtoNat sendProto andThen
  simp only [if_neg hl]
  rfl

/-- What an answer to a heartbeat comes to. -/
inductive HandlesHeartbeatRsp (env : Env) (p : Bytes) (s : P2PClient) : P2PClient × List Out → Prop
  | ignored : HandlesHeartbeatRsp env p s (s, [])
  | refused (text : Bytes) : HandlesHeartbeatRsp env p s (onError text s)
  | challenged : HandlesHeartbeatRsp env p s (doAuthChallenge s)
  | accepted (hlen : 39 ≤ p.length) (h1 : byteAt p 0 ≠ 1) (h2 : byteAt p 0 ≠ 2) :
      HandlesHeartbeatRsp env p s (proceed env (noteHeartbeat p s))

theorem onHeartbeatRsp_handles (env : Env) (p : Bytes) (s : P2PClient) :
    HandlesHeartbeatRsp env p s (onHeartbeatRsp env p s) := by
  unfold onHeartbeatRsp
  split
  · exact .ignored
  split
  · split
    · exact .refused _
    · split
      · exact .challenged
      · exact .ignored
  rename_i h1
  split
  · exact .refused _
  rename_i h2
  split
  · exact .ignored
  · rename_i hlen
    exact .accepted (Nat.not_lt.mp hlen) h1 h2

/-- The dispatch on the message, one case for each handler. -/
inductive Handles (env : Env) (m : Memory) (plen : ℕ) : UInt8 → Action → Prop
  | heartbeatRsp : Handles env m plen msgHeartbeatRsp (onHeartbeatRsp env (m.read 0 plen))
  | heartbeatRspEnc : Handles env m plen msgHeartbeatRspEnc (onHeartbeatRspEnc env (m.read 0 plen))
  | challengeRsp : Handles env m plen msgAuthChallengeRsp (onAuthChallengeRsp env (m.read 0 plen))
  | loginRsp : Handles env m plen msgAuthLoginRsp (onAuthLoginRsp env (m.read 0 plen))
  | natDetectRsp : Handles env m plen msgNatDetectRsp
      (modify fun s => { s with natDetect := s.natDetect.feed m plen })
  | connectAck : Handles env m plen msgConnectAck (onConnectAck env (m.read 0 plen))
  | connectInvite : Handles env m plen msgConnectInvite (onConnectInvite env (m.read 0 plen))
  | iceSdp : Handles env m plen msgIceSdp (onIceSdp env (m.read 0 plen))
  | registerRsp : Handles env m plen msgProxyRegisterRsp (onProxyRegisterRsp (m.read 0 plen))
  | relayData : Handles env m plen msgProxyRelayData (onRelayData env m plen)
  | other {msgId : UInt8} : Handles env m plen msgId skip

theorem Handles.ite {env : Env} {m : Memory} {plen : ℕ} {msgId id : UInt8} {f g : Action}
    (hf : Handles env m plen id f) (hg : Handles env m plen msgId g) :
    Handles env m plen msgId (if msgId = id then f else g) := by
  split
  · rename_i h
    rwa [h]
  · exact hg

theorem handleProto_handles (env : Env) (msgId : UInt8) (m : Memory) (plen : ℕ) :
    Handles env m plen msgId (handleProto env msgId m plen) := by
  unfold handleProto
  refine .ite .heartbeatRsp (.ite .heartbeatRspEnc (.ite .challengeRsp (.ite .loginRsp ?_)))
  refine .ite .natDetectRsp (.ite .connectAck (.ite .connectInvite (.ite .iceSdp ?_)))
  exact .ite .registerRsp (.ite .relayData .other)

theorem handleProto_challengeRsp (env : Env) (m : Memory) (plen : ℕ) (s : P2PClient) :
    handleProto env msgAuthChallengeRsp m plen s = onAuthChallengeRsp env (m.read 0 plen) s := rfl

theorem handleProto_loginRsp (env : Env) (m : Memory) (plen : ℕ) (s : P2PClient) :
    handleProto env msgAuthLoginRsp m plen s = onAuthLoginRsp env (m.read 0 plen) s := rfl

/-- What a datagram comes to: a message, a frame from an address of a peer, or nothing. -/
inductive Receives (env : Env) (m : Memory) (len : ℕ) (src : Addr) (s : P2PClient) : P2PClient × List Out → Prop
  | message {msgId : UInt8} {plen : ℕ} (h : protoOf m len = some (msgId, (m.offset 8).read 0 plen)) :
      Receives env m len src s (handleProto env msgId (m.offset 8) plen s)
  | frame {peer : Bytes} (h : protoOf m len = none) (hpeer : s.addrToPeer[addrKey src]? = some peer) :
      Receives env m len src s (onDirectFrame env peer m len s)
  | dropped (h : protoOf m len = none) : Receives env m len src s (s, [])

theorem handlePacket_receives (env : Env) (m : Memory) (len : ℕ) (src : Addr) (s : P2PClient) :
    Receives env m len src s (handlePacket env m len src s) := by
  unfold handlePacket
  cases hhead : codecReadHead (m.read 0 len) with
  | some head => exact .message (by rw [protoOf, hhead, Option.map_some])
  | none =>
    have hnone : protoOf m len = none := by rw [protoOf, hhead, Option.map_none]
    dsimp only
    split
    · cases hpeer : s.addrToPeer[addrKey src]? with
      | some peer => exact .frame hnone hpeer
      | none => exact .dropped hnone
    · exact .dropped hnone

theorem handlePacket_message (env : Env) (src : Addr) (s : P2PClient) {m : Memory} {len : ℕ} {msgId : UInt8}
    {p : Bytes} (h : protoOf m len = some (msgId, p)) : ∃ plen, (m.offset 8).read 0 plen = p ∧
      handlePacket env m len src s = handleProto env msgId (m.offset 8) plen s := by
  have hrecv := handlePacket_receives env m len src s
  generalize handlePacket env m len src s = r at hrecv ⊢
  cases hrecv with
  | message hmsg =>
    rw [hmsg, Option.some.injEq, Prod.mk.injEq] at h
    obtain ⟨rfl, rfl⟩ := h
    exact ⟨_, rfl, rfl⟩
  | frame hnone => cases hnone.symm.trans h
  | dropped hnone => cases hnone.symm.trans h

/-- What holds of the work for each connection, and of one action after another, holds of the loop. -/
theorem connLoop_closed {T : P2PClient → P2PClient × List Out → Prop} (hskip : ∀ s, T s (s, []))
    (hseq : ∀ {f g : Action} {s}, T s (f s) → T (f s).1 (g (f s).1) → T s (andThen f g s))
    (env : Env) (now : UInt64) (h : ∀ key (s : P2PClient), s.conns.contains key = true → T s (tickConn env now key s))
    (keys : List Bytes) (s : P2PClient) : T s (connLoop env now keys s) := by
  induction keys generalizing s with
  | nil => exact hskip s
  | cons key rest ih =>
    unfold connLoop
    cases hc : s.conns[key]? with
    | none => exact ih s
    | some c =>
      have hin : s.conns.contains key = true := by
        rw [Std.ExtTreeMap.contains_eq_isSome_getElem?, hc]
        rfl
      have hrest (t : P2PClient) :
          T t (if t.conns.contains key || env.resumes then connLoop env now rest t else (t, [])) := by
        split
        · exact ih t
        · exact hskip t
      refine hseq ?_ (hrest _)
      split
      · exact hskip s
      · exact h key s hin

theorem start_spec {env : Env} {cfg : Config} {s' : P2PClient} (h : start env cfg s = some s') :
    s'.cfg = cfg ∧ s'.tunnel.tunnelKeys = ∅ ∧ s'.auth = { s.auth with
      authed := cfg.secret.isEmpty, heartbeatEnc := false, authDenied := false
      authInflight := false } ∧ s'.tunnel.tunnelEnc = !s'.cfg.secret.isEmpty := by
  unfold start at h
  split at h
  · cases h
  · split at h
    · cases h
    · split at h
      · cases h
      · split at h
        · cases h
        · rw [Option.some.injEq] at h
          subst h
          exact ⟨rfl, rfl, rfl, rfl⟩

theorem stop_spec (s : P2PClient) :
    (stop s).1.cfg = s.cfg ∧ (stop s).1.tunnel = s.tunnel ∧ (stop s).1.auth = s.auth ∧
      ∀ o ∈ (stop s).2, ∃ dst payload, o = .proto dst msgProxyUnregisterReq payload := by
  unfold stop
  split
  · exact ⟨rfl, rfl, rfl, by simp⟩
  · unfold andThen sendProto
    dsimp only
    split
    · split
      · exact ⟨rfl, rfl, rfl, by simp [Effects.modify]⟩
      · split
        · exact ⟨rfl, rfl, rfl, by simp [Effects.modify, skip]⟩
        · exact ⟨rfl, rfl, rfl, by simp [Effects.modify, emit]⟩
    · exact ⟨rfl, rfl, rfl, by simp [Effects.modify]⟩

theorem stop_state (hrun : s.running = true) :
    (stop s).1 = { s with
      running := false, conns := ∅, sessions := ∅, addrToPeer := ∅
      orphans := s.orphans ++ (s.conns.filter fun _ c => c.punch.juice).keys } := by
  unfold stop
  simp only [hrun, Bool.not_true, Bool.false_eq_true, if_false, andThen, Effects.modify]
  split
  · split
    · rfl
    · rw [sendProto_state]
  · rfl

theorem stop_running (s : P2PClient) : (stop s).1.running = false := by
  unfold stop
  split
  · rename_i h
    simpa using h
  · rfl

end P2PServer.P2PClient
