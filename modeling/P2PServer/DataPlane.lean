import P2PServer.ClientTunnel
import P2PServer.Fields
import P2PServer.ProxyCapacity
import P2PServer.SessionShape
import P2PServer.TunnelKeys

/-! The way of a frame from one client through the relay to another: encryption, the relay frame
and the message head on one side, their removal on the other. -/
namespace P2PServer.P2PClient
open ByteStrings ProtoDef Net Codec Crypto Effects Transitions

theorem or_and_self (a b : UInt8) : (a ||| b) &&& b = b := by
  apply UInt8.toBitVec_inj.mp
  ext i hi
  simp
  tauto

theorem clear_set {a b : UInt8} (h : a &&& b = 0) : (a ||| b) &&& ~~~b = a := by
  apply UInt8.toBitVec_inj.mp
  ext i hi
  have hb := congrArg (fun x : UInt8 => x.toBitVec[i]) h
  simp at hb
  simp
  grind

/-- The fields of a frame that a session sends, whose payload is not encrypted yet. -/
structure Plain where
  type : UInt8
  sessionId : UInt16
  channelId : UInt8
  flags : UInt8
  seq : UInt16
  ack : UInt16
  payload : Bytes
  clear : flags &&& tfEnc = 0
  short : payload.length ≤ maxTunnelPayload

theorem clear_zero : (0 : UInt8) &&& tfEnc = 0 := by decide

theorem short_letter : ([0x41] : Bytes).length ≤ maxTunnelPayload := by decide

namespace Plain

def bytes (f : Plain) : Bytes :=
  Session.buildFrame f.type f.sessionId f.channelId f.flags f.seq f.ack f.payload

theorem bytes_eq (f : Plain) : f.bytes = tunnelHeader f.type f.sessionId f.channelId f.flags f.seq f.ack
    (UInt16.ofNat f.payload.length) ++ f.payload := by
  have h := f.short
  rw [maxTunnelPayload] at h
  exact Session.buildFrame_eq _ _ _ _ _ _ _ (by omega)

theorem bytes_length (f : Plain) : f.bytes.length = 14 + f.payload.length := by
  rw [bytes_eq, List.length_append, tunnelHeader_length]

theorem payload_toNat (f : Plain) : (UInt16.ofNat f.payload.length).toNat = f.payload.length := by
  have h := f.short
  rw [maxTunnelPayload] at h
  rw [UInt16.toNat_ofNat']
  omega

/-- Nonce, ciphertext and tag. -/
def sealed (f : Plain) (key nonce : Bytes) : Bytes :=
  nonce ++ aes256CtrXor key nonce f.payload ++ aeadTag key nonce (aes256CtrXor key nonce f.payload)

theorem sealed_length (f : Plain) (key : Bytes) {nonce : Bytes} (hn : nonce.length = 12) :
    (f.sealed key nonce).length = 28 + f.payload.length := by
  rw [sealed, List.length_append, List.length_append, aes256CtrXor_length, aeadTag_length, hn]
  omega

def encrypted (f : Plain) (key nonce : Bytes) : Bytes :=
  tunnelHeader f.type f.sessionId f.channelId (f.flags ||| tfEnc) f.seq f.ack
    (UInt16.ofNat (28 + f.payload.length)) ++ f.sealed key nonce

theorem encrypted_length (f : Plain) (key : Bytes) {nonce : Bytes} (hn : nonce.length = 12) :
    (f.encrypted key nonce).length = 42 + f.payload.length := by
  rw [encrypted, List.length_append, tunnelHeader_length, f.sealed_length key hn]
  omega

theorem head_encrypted (f : Plain) (n : UInt16) :
    ((f.bytes.take 14).set 7 (byteAt f.bytes 7 ||| tfEnc)).take 12 ++ be16 n =
      tunnelHeader f.type f.sessionId f.channelId (f.flags ||| tfEnc) f.seq f.ack n := by
  rw [bytes_eq]
  rfl

theorem sealed_toNat (f : Plain) :
    (UInt16.ofNat (28 + f.payload.length)).toNat = 28 + f.payload.length := by
  have h := f.short
  rw [maxTunnelPayload] at h
  rw [UInt16.toNat_ofNat']
  omega

/-- The encrypted frame as it is parsed. -/
def wire (f : Plain) (key nonce : Bytes) : WireTunnel :=
  ⟨f.type, f.sessionId, f.channelId, f.flags ||| tfEnc, f.seq, f.ack, f.sealed key nonce,
    UInt16.ofNat (28 + f.payload.length)⟩

theorem codecReadTunnel_encrypted (f : Plain) (key : Bytes) {nonce : Bytes} (hn : nonce.length = 12) :
    codecReadTunnel (f.encrypted key nonce) = some (f.wire key nonce) := by
  have hs := f.sealed_length key hn
  have hl := f.sealed_toNat
  rw [encrypted, codecReadTunnel_header _ _ _ _ _ _ _ _ (by omega), List.take_of_length_le (by omega)]
  rfl

theorem codecReadTunnel_bytes (f : Plain) :
    codecReadTunnel f.bytes = some ⟨f.type, f.sessionId, f.channelId, f.flags, f.seq, f.ack, f.payload,
      UInt16.ofNat f.payload.length⟩ := by
  have h := f.short
  rw [maxTunnelPayload] at h
  exact Session.codecReadTunnel_buildFrame _ _ _ _ _ _ _ (by omega)

theorem wire_parts (f : Plain) (key : Bytes) {nonce : Bytes} (hn : nonce.length = 12) :
    nonceOf (f.wire key nonce) = nonce ∧
      cipherOf (f.wire key nonce) = aes256CtrXor key nonce f.payload ∧
      tagOf (f.wire key nonce) = aeadTag key nonce (aes256CtrXor key nonce f.payload) := by
  have hc := aes256CtrXor_length key nonce f.payload
  have hlen : (f.wire key nonce).len.toNat - 28 = f.payload.length := by
    rw [wire, f.sealed_toNat]
    omega
  have h0 : (f.sealed key nonce).drop 0 = nonce ++ (aes256CtrXor key nonce f.payload ++
      aeadTag key nonce (aes256CtrXor key nonce f.payload)) := by
    rw [List.drop_zero, sealed, List.append_assoc]
  have h12 := drop_past h0 (j := 12) (by omega)
  have hend := drop_past h12 (j := 12 + f.payload.length) (by omega)
  refine ⟨window_of_drop h0 hn, ?_, ?_⟩
  · rw [cipherOf, hlen]
    exact window_of_drop h12 hc
  · rw [tagOf, hlen]
    refine window_of_drop (b := []) ?_ (aeadTag_length _ _ _)
    rw [List.append_nil]
    exact hend

theorem wire_authentic (f : Plain) (key : Bytes) {nonce : Bytes} (hn : nonce.length = 12) :
    Authentic key (f.wire key nonce) := by
  obtain ⟨h1, h2, h3⟩ := f.wire_parts key hn
  refine ⟨?_, ?_, ?_⟩
  · rw [wire, or_and_self]
    decide
  · rw [wire, f.sealed_toNat]
    omega
  · rw [h1, h2, h3]

theorem openedBytes_wire (f : Plain) (key : Bytes) {nonce : Bytes} (hn : nonce.length = 12)
    {m : Memory} (h : Holds m (f.wire key nonce)) :
    openedBytes m key (f.wire key nonce) = f.bytes := by
  obtain ⟨h1, h2, -⟩ := f.wire_parts key hn
  have hhead : ((m.read 0 14).set 7 (m 7 &&& ~~~tfEnc)).take 12 = [m 0, m 1, m 2, m 3, m 4, m 5, m 6,
    m 7 &&& ~~~tfEnc, m 8, m 9, m 10, m 11] := rfl
  have hflags : (f.wire key nonce).flags &&& ~~~tfEnc = f.flags := clear_set f.clear
  have hframe := h.frame
  have hsid : [m 4, m 5] = be16 f.sessionId := by
    rw [show f.sessionId = rd16 (m 4) (m 5) from (congrArg (·.sessionId) hframe).symm, be16_rd16]
  have hseq : [m 8, m 9] = be16 f.seq := by
    rw [show f.seq = rd16 (m 8) (m 9) from (congrArg (·.seq) hframe).symm, be16_rd16]
  have hack : [m 10, m 11] = be16 f.ack := by
    rw [show f.ack = rd16 (m 10) (m 11) from (congrArg (·.ack) hframe).symm, be16_rd16]
  have htype : m 3 = (f.wire key nonce).type := congrArg (·.type) hframe
  have hchannel : m 6 = (f.wire key nonce).channelId := congrArg (·.channelId) hframe
  have hwire : m 7 = (f.wire key nonce).flags := congrArg (·.flags) hframe
  have hplain : aes256CtrXor key (nonceOf (f.wire key nonce)) (cipherOf (f.wire key nonce)) =
      f.payload := by
    rw [h1, h2, aes256CtrXor_aes256CtrXor]
  rw [openedBytes, hplain, hhead, h.high, h.low, h.version, htype, hchannel, hwire, hflags,
    bytes_eq, tunnelHeader, ← hsid, ← hseq, ← hack]
  rfl

end Plain

/-- The frames that wait for an ack can be sent again. -/
def Stored (x : Session) : Prop := ∀ m ∈ x.pending, ∃ f : Plain, m.data = f.bytes

/-- What an operation stores and sends. -/
def Sound (r : Session × List Session.Out) : Prop :=
  Stored r.1 ∧ ∀ frame ∈ Session.txFrames r.2, ∃ f : Plain, frame = f.bytes

theorem control_plain (type : UInt8) (sessionId ack : UInt16) :
    ∃ f : Plain, Session.buildFrame type sessionId 0 0 0 ack [] = f.bytes :=
  ⟨⟨type, sessionId, 0, 0, 0, ack, [], by decide, Nat.zero_le _⟩, rfl⟩

theorem stored_fresh (sessionId : UInt16) : Stored { sessionId := sessionId } :=
  fun _ hm => absurd hm List.not_mem_nil

theorem send_sound {x : Session} (h : Stored x) (ch : UInt8) (data : Bytes) (reliable : Bool) (now : UInt64) :
    Sound (x.send ch data reliable now).2 := by
  rcases Session.send_cases x ch data reliable now with ⟨r, -, he⟩ | ⟨-, hlen, he⟩ | ⟨-, hlen, -, he⟩ <;>
    rw [he]
  · exact ⟨h, fun _ hf => absurd hf List.not_mem_nil⟩
  · refine ⟨h, fun frame hf => ?_⟩
    obtain rfl := List.mem_singleton.mp hf
    exact ⟨⟨ttData, x.sessionId, ch, 0, 0, 0, data, by decide, hlen⟩, rfl⟩
  · have hframe : ∃ f : Plain,
        Session.buildFrame ttData x.sessionId ch tfReliable x.nextSeq 0 data = f.bytes :=
      ⟨⟨ttData, x.sessionId, ch, tfReliable, x.nextSeq, 0, data, by decide, hlen⟩, rfl⟩
    refine ⟨fun m hm => ?_, fun frame hf => ?_⟩
    · rcases List.mem_append.mp hm with hm | hm
      · exact h m hm
      · rw [List.mem_singleton.mp hm]
        exact hframe
    · rw [List.mem_singleton.mp hf]
      exact hframe

theorem tick_sound {x : Session} (h : Stored x) (now : UInt64) : Sound (x.tick now) := by
  refine ⟨fun m hm => ?_, fun frame hf => ?_⟩
  · rw [Session.tick_pending] at hm
    obtain ⟨m', hm', rfl⟩ := List.mem_map.mp hm
    have hold := h m' hm'
    split <;> exact hold
  · rw [Session.tick_txFrames, List.mem_append] at hf
    rcases hf with hf | hf
    · split at hf
      · rw [List.mem_singleton.mp hf]
        exact control_plain _ _ _
      · cases hf
    · obtain ⟨m, hm, rfl⟩ := List.mem_map.mp hf
      exact h m (List.mem_filter.mp hm).1

theorem onFrame_pending (x : Session) (buf : Bytes) :
    ∀ m ∈ (x.onFrame buf).1.pending, m ∈ x.pending := by
  intro m hm
  unfold Session.onFrame at hm
  split at hm
  · exact hm
  · split at hm
    · rwa [(Session.handleData_sender x _).pending] at hm
    · split at hm
      · exact (List.dropWhile_sublist _).mem hm
      · split at hm
        · exact hm
        · split at hm <;> exact hm

theorem onFrame_sound {x : Session} (h : Stored x) (buf : Bytes) : Sound (x.onFrame buf) := by
  refine ⟨fun m hm => h m (onFrame_pending x buf m hm), fun frame hf => ?_⟩
  rcases Session.onFrame_txFrames x buf hf with rfl | hf
  · exact control_plain _ _ _
  · rw [List.mem_singleton.mp hf]
    exact control_plain _ _ _

theorem call_sound {x : Session} (h : Stored x) (c : Session.Call) : Sound (Session.answered x c) := by
  cases c with
  | send ch data reliable now => exact send_sound h ch data reliable now
  | tick now => exact tick_sound h now
  | frame buf => exact onFrame_sound h buf

/-- Whatever has been done with a session, each frame that it hands to `on_tx` is of this form. -/
theorem handed_plain {x : Session} (h : Reachable Session.calls x) (c : Session.Call) :
    ∀ frame ∈ Session.txFrames (Session.answered x c).2, ∃ f : Plain, frame = f.bytes := by
  have hstored : Stored x := by
    refine h.invariant (I := Stored) ?_ fun _ c hs _ _ => (call_sound hs c).1
    rintro _ ⟨sid, rfl⟩
    exact stored_fresh sid
  exact (call_sound hstored c).2

/-- What travels for a frame from `u` to `v`. -/
def carried (secret u v nonce : Bytes) (f : Plain) : Bytes :=
  if secret = [] ∨ f.payload = [] then f.bytes else f.encrypted (pairKey secret u v) nonce

theorem carried_length (secret u v : Bytes) {nonce : Bytes} (hn : nonce.length = 12) (f : Plain) :
    14 ≤ (carried secret u v nonce f).length ∧ (carried secret u v nonce f).length ≤ 1242 := by
  have hs := f.short
  rw [maxTunnelPayload] at hs
  unfold carried
  split
  · rw [f.bytes_length]
    omega
  · rw [f.encrypted_length _ hn]
    omega

variable {s : P2PClient}

theorem encryptTunnelFrame_empty (env : Env) (peer : Bytes) {f : Plain} (h : f.payload = []) :
    encryptTunnelFrame env peer f.bytes s = (none, s) := by
  have hd : f.bytes.drop 12 = be16 (UInt16.ofNat f.payload.length) ++ f.payload := by
    rw [f.bytes_eq]
    rfl
  have hlen := f.bytes_length
  rw [encryptTunnelFrame, if_neg (by omega), u16At_of_drop hd, f.payload_toNat, h]
  exact if_pos (.inl rfl)

theorem encryptTunnelFrame_plain (env : Env) (hkeys : KeysDerived s) (hsecret : s.cfg.secret ≠ [])
    {peer : Bytes} (hpeer : peer ≠ [] ∧ peer ≠ s.cfg.uuid) {f : Plain} (h : f.payload ≠ [])
    (hn : (env.nonce s.tunnel.tunnelEncTx.toNat).length = 12) :
    ∃ x, encryptTunnelFrame env peer f.bytes s =
      (some (f.encrypted (pairKey s.cfg.secret s.cfg.uuid peer) (env.nonce s.tunnel.tunnelEncTx.toNat)),
        { s with tunnel := x }) := by
  have hshort := f.short
  rw [maxTunnelPayload] at hshort
  have hpos : f.payload.length ≠ 0 := fun hc => h (List.length_eq_zero_iff.mp hc)
  have hlen := f.bytes_length
  have hd : f.bytes.drop 12 = be16 (UInt16.ofNat f.payload.length) ++ f.payload := by
    rw [f.bytes_eq]
    rfl
  have hw : window f.bytes 14 f.payload.length = f.payload := by
    refine window_of_drop (b := []) ?_ rfl
    rw [f.bytes_eq, List.append_nil]
    rfl
  have hkey := getTunnelKey_pairKey hkeys hsecret peer
  rw [if_pos hpeer] at hkey
  obtain ⟨keys, hstate⟩ := getTunnelKey_state peer s
  have hk : getTunnelKey peer s = (some (pairKey s.cfg.secret s.cfg.uuid peer),
      { s with tunnel := { s.tunnel with tunnelKeys := keys } }) := Prod.ext hkey hstate
  have hok : ¬(f.payload.length = 0 ∨ 14 + 12 + f.payload.length + 16 > maxPkt) := by
    rw [maxPkt]
    omega
  have hlong : ¬f.bytes.length < 14 := by omega
  rw [encryptTunnelFrame, if_neg hlong, u16At_of_drop hd, f.payload_toNat]
  dsimp only
  rw [if_neg hok, hk, hw]
  dsimp only
  have hsmall : ¬f.payload.length > 4096 := by omega
  simp only [p2pAeadEncrypt, lt_irrefl, gt_iff_lt, if_false, hsmall]
  refine ⟨_, Prod.ext ?_ rfl⟩
  have hout (o : Bytes) : overwrite [] o = o := by simp [overwrite]
  have hsize : 12 + f.payload.length + 16 = 28 + f.payload.length := by omega
  change some _ = some _
  rw [hout, List.take_of_length_le hn.le, f.head_encrypted, hsize, Plain.encrypted, Plain.sealed]
  simp only [List.append_assoc]

/-- Only the tunnel's counters and keys change, and the frame is encrypted if it has to be. -/
theorem sendTunnelVia_carried (env : Env) (hkeys : KeysDerived s)
    (henc : s.tunnel.tunnelEnc = !s.cfg.secret.isEmpty) {c : Conn}
    (hpeer : c.peerUuid ≠ [] ∧ c.peerUuid ≠ s.cfg.uuid)
    (hn : (env.nonce s.tunnel.tunnelEncTx.toNat).length = 12) (f : Plain) :
    ∃ x, sendTunnelVia env c f.bytes s =
      transmit env c (carried s.cfg.secret s.cfg.uuid c.peerUuid (env.nonce s.tunnel.tunnelEncTx.toNat) f)
        { s with tunnel := x } := by
  unfold sendTunnelVia carried
  by_cases hsecret : s.cfg.secret = []
  · rw [if_neg (by simp [henc, hsecret]), if_pos (.inl hsecret)]
    exact ⟨s.tunnel, rfl⟩
  · rw [if_pos (by simp [henc, hsecret])]
    by_cases hpay : f.payload = []
    · rw [encryptTunnelFrame_empty env _ hpay, if_pos (.inr hpay)]
      exact ⟨s.tunnel, rfl⟩
    · obtain ⟨x, hx⟩ := encryptTunnelFrame_plain env hkeys hsecret hpeer hpay hn
      rw [hx, if_neg (by simp [hsecret, hpay])]
      exact ⟨x, rfl⟩

/-- `send_tunnel_via` takes its last branch and the relay has an address. -/
structure UsesRelay (env : Env) (c : Conn) (relay : Addr) (s : P2PClient) : Prop where
  ice : (c.punch.juice && c.punch.directOk) = false
  direct : (c.punch.directOk && c.punch.haveDirect) = false
  ready : c.relay.relayOk = true ∨ s.cfg.forceRelay = true ∨ env.now ≥ c.punch.punchDeadline
  registered : s.relay.relayRegistered = true
  address : proxyAddr s = some relay

theorem UsesRelay.proxies {env : Env} {c : Conn} {relay : Addr} (h : UsesRelay env c relay s) :
    s.relay.proxies.isEmpty = false := by
  have ha := h.address
  unfold proxyAddr at ha
  split at ha
  · cases ha
  · rename_i hp
    rw [hp]
    rfl

theorem relayPayload_length (u v tx : Bytes) : (relayPayload u v tx).length = 66 + tx.length := by
  simp only [relayPayload, List.length_append, uuidField_length]

theorem transmit_relay {env : Env} {c : Conn} {relay : Addr} (h : UsesRelay env c relay s) {tx : Bytes}
    (hlen : tx.length ≤ 1242) : transmit env c tx s =
      (s, [.proto relay msgProxyRelayData (relayPayload s.cfg.uuid c.peerUuid tx)]) := by
  have hready : (c.relay.relayOk || (s.relay.relayRegistered && !s.relay.proxies.isEmpty &&
      (s.cfg.forceRelay || decide (env.now ≥ c.punch.punchDeadline)))) = true := by
    rw [h.registered, h.proxies]
    simpa using h.ready
  have hfit : ¬8 + relayFrameSize + tx.length > maxPkt := by
    rw [relayFrameSize, maxPkt]
    omega
  unfold transmit
  dsimp only
  rw [hready, h.ice, h.direct, h.registered, h.proxies, h.address, if_neg hfit]
  rfl

theorem relayPayload_drop (u v tx : Bytes) : (relayPayload u v tx).drop 33 = uuidField v ++ tx := by
  rw [relayPayload, List.append_assoc, List.drop_left' (uuidField_length u)]

theorem uuidAt_relayPayload {u v : Bytes} (hu : P2PProxy.Proper u) (hv : P2PProxy.Proper v) (tx : Bytes) :
    uuidAt (relayPayload u v tx) 0 = u ∧ uuidAt (relayPayload u v tx) 33 = v := by
  constructor
  · rw [relayPayload, List.append_assoc, uuidAt_uuidField, hu.text, List.take_of_length_le hu.short]
  · have h := uuidAt_uuidField v tx
    rw [hv.text, List.take_of_length_le hv.short, ← relayPayload_drop u v tx] at h
    conv_rhs => rw [← h]
    simp only [uuidAt, textAt, window, List.drop_drop, Nat.add_zero]

theorem uuidField_ends (u : Bytes) : ∃ a, a.length = maxUuidLen ∧ uuidField u = a ++ [0] := by
  have hle := List.length_take_le maxUuidLen (cstr u)
  obtain ⟨k, hk⟩ := Nat.exists_eq_add_of_le hle
  refine ⟨(cstr u).take maxUuidLen ++ List.replicate k 0, ?_, ?_⟩
  · rw [List.length_append, List.length_replicate, ← hk]
  · have hpad : maxUuidLen + 1 - ((cstr u).take maxUuidLen).length = k + 1 := by omega
    rw [uuidField, field]
    rw [hpad, List.replicate_succ', List.append_assoc]

/-- The bytes that the relay overwrites are zero already. -/
theorem relayPayload_set (u v tx : Bytes) :
    ((relayPayload u v tx).set maxUuidLen 0).set (33 + maxUuidLen) 0 = relayPayload u v tx := by
  obtain ⟨a, ha, hu⟩ := uuidField_ends u
  obtain ⟨b, hb, hv⟩ := uuidField_ends v
  have hset (x y : Bytes) : (x ++ 0 :: y).set x.length 0 = x ++ 0 :: y := by simp
  have h1 : relayPayload u v tx = a ++ 0 :: (uuidField v ++ tx) := by simp [relayPayload, hu]
  have h2 : relayPayload u v tx = (uuidField u ++ b) ++ 0 :: tx := by simp [relayPayload, hv]
  have hl : (uuidField u ++ b).length = 33 + maxUuidLen := by
    rw [List.length_append, uuidField_length, hb]
  have hfirst : (relayPayload u v tx).set maxUuidLen 0 = relayPayload u v tx := by
    rw [h1, ← ha, hset]
  rw [hfirst, h2, ← hl, hset]

def relayData (u v tx : Bytes) : Bytes := NatServer.datagram msgProxyRelayData (relayPayload u v tx)

theorem relayData_length (u v tx : Bytes) : (relayData u v tx).length = 74 + tx.length := by
  rw [relayData, NatServer.datagram, List.length_append, codecWriteHead_length, relayPayload_length]
  omega

theorem handle_relayData (now : ℤ) {u v tx : Bytes} (hu : P2PProxy.Proper u) (hv : P2PProxy.Proper v)
    (hlen : tx.length ≤ 1242) (src : Addr) {q : P2PProxy} {e : P2PProxy.UuidEntry}
    (he : q.uuid2addr[v]? = some e) :
    (P2PProxy.handle now (relayData u v tx) src q).2 = [⟨e.addr, relayData u v tx⟩] := by
  have hsize := relayPayload_length u v tx
  have hread : NatServer.readDatagram (relayData u v tx) = some (msgProxyRelayData, relayPayload u v tx) :=
    NatServer.readDatagram_datagram _ (by omega)
  have hlong : ¬(relayPayload u v tx).length < P2PProxy.relayFrameSize := by
    rw [P2PProxy.relayFrameSize]
    omega
  have hfit : ¬(relayPayload u v tx).length > maxPkt - 8 := by
    rw [maxPkt]
    omega
  have hdispatch : P2PProxy.dispatch now msgProxyRelayData (relayPayload u v tx) src =
      P2PProxy.onRelayData now (relayPayload u v tx) src := rfl
  rw [P2PProxy.handle, hread]
  dsimp only
  rw [hdispatch, P2PProxy.onRelayData, if_neg hlong, relayPayload_set]
  dsimp only
  rw [(uuidAt_relayPayload hu hv tx).2, he]
  dsimp only
  simp only [andThen, P2PProxy.send, if_neg hfit]
  rfl

theorem onTunnelFrame_carried (env : Env) {t : P2PClient} (hkeys : KeysDerived t)
    (henc : t.tunnel.tunnelEnc = !t.cfg.secret.isEmpty) {u : Bytes} (hu : u ≠ [] ∧ u ≠ t.cfg.uuid)
    {nonce : Bytes} (hn : nonce.length = 12) (f : Plain) {m : Memory} {len : ℕ}
    (hm : m.read 0 len = carried t.cfg.secret t.cfg.uuid u nonce f) :
    ∃ x, onTunnelFrame env u m len t = withSession env u (fun a => a.onFrame f.bytes)
      { t with tunnel := x } := by
  obtain ⟨x, hx⟩ := decryptTunnelFrame_state u m len t
  unfold onTunnelFrame
  by_cases hsecret : t.cfg.secret = []
  · rw [if_neg (by simp [henc, hsecret]), hm, carried, if_pos (.inl hsecret)]
    exact ⟨t.tunnel, rfl⟩
  · rw [if_pos (by simp [henc, hsecret])]
    dsimp only
    rw [hx]
    refine ⟨x, ?_⟩
    have hframe : (decryptTunnelFrame u m len t).1.getD (m.read 0 len) = f.bytes := by
      by_cases hpay : f.payload = []
      · rw [carried, if_pos (.inr hpay)] at hm
        obtain ⟨hlen, hholds⟩ := holds_of_codecReadTunnel ((congrArg codecReadTunnel hm).trans f.codecReadTunnel_bytes)
        rw [(hholds.decrypt hlen hkeys hsecret u).1 fun ho => ho.1.1 f.clear, Option.getD_none, hm]
      · rw [carried, if_neg (by simp [hsecret, hpay])] at hm
        obtain ⟨hlen, hholds⟩ := holds_of_codecReadTunnel
          ((congrArg codecReadTunnel hm).trans (f.codecReadTunnel_encrypted _ hn))
        have hshort := f.short
        rw [maxTunnelPayload] at hshort
        have hopens : Opens t u (f.wire (pairKey t.cfg.secret t.cfg.uuid u) nonce) := by
          refine ⟨f.wire_authentic _ hn, ?_, hu⟩
          rw [Plain.wire, f.sealed_toNat, maxPkt]
          omega
        rw [(hholds.decrypt hlen hkeys hsecret u).2 hopens, Option.getD_some, f.openedBytes_wire _ hn hholds]
    rw [hframe]

theorem pairKey_comm (secret u v : Bytes) : pairKey secret u v = pairKey secret v u := by
  rw [pairKey_eq, pairKey_eq, tunnelMessage_comm]

theorem carried_comm (secret u v nonce : Bytes) (f : Plain) :
    carried secret u v nonce f = carried secret v u nonce f := by
  rw [carried, carried, pairKey_comm]

theorem relayData_tail {u v tx : Bytes} {m : Memory} (hm : m.read 0 (74 + tx.length) = relayData u v tx) :
    ((m.offset 8).offset relayFrameSize).read 0 tx.length = tx := by
  have hsplit : relayData u v tx = (codecWriteHead msgProxyRelayData
      (UInt32.ofNat (relayPayload u v tx).length) ++ (uuidField u ++ uuidField v)) ++ tx := by
    simp only [relayData, NatServer.datagram, relayPayload, List.append_assoc]
  have hw : window (m.read 0 (74 + tx.length)) 74 tx.length = m.read 74 tx.length := by
    rw [Memory.window_read m le_rfl, Nat.zero_add]
  rw [hm, hsplit, window, List.drop_left' (by simp), List.take_length] at hw
  rw [Memory.read_offset, Memory.read_offset, relayFrameSize]
  exact hw.symm

theorem handlePacket_relayData (env : Env) {t : P2PClient} {u tx : Bytes} (hu : P2PProxy.Proper u)
    (hv : P2PProxy.Proper t.cfg.uuid) (hlen : 14 ≤ tx.length ∧ tx.length ≤ 1242) {m : Memory}
    (hm : m.read 0 (74 + tx.length) = relayData u t.cfg.uuid tx) (src : Addr) :
    ∃ c, handlePacket env m (74 + tx.length) src t =
      andThen (onTunnelFrame env u ((m.offset 8).offset relayFrameSize) tx.length) (provePath true u)
        (setConn u c t) := by
  have hsize := relayPayload_length u t.cfg.uuid tx
  obtain ⟨hsrc, hdst⟩ := uuidAt_relayPayload hu hv tx
  have hhead : codecReadHead (m.read 0 (74 + tx.length)) =
      some ⟨natMagic, protoVer, msgProxyRelayData, UInt32.ofNat (66 + tx.length)⟩ := by
    rw [hm, relayData, NatServer.datagram, codecReadHead_write, hsize]
  have hnat : (UInt32.ofNat (66 + tx.length)).toNat = 66 + tx.length := by
    rw [UInt32.toNat_ofNat']
    omega
  have hpay : (m.offset 8).read 0 (66 + tx.length) = relayPayload u t.cfg.uuid tx := by
    have hw : window (m.read 0 (74 + tx.length)) 8 (66 + tx.length) = m.read 8 (66 + tx.length) := by
      rw [Memory.window_read m (by omega)]
    rw [hm, relayData, NatServer.datagram, window, List.drop_left' (codecWriteHead_length _ _),
      List.take_of_length_le (by omega)] at hw
    rw [Memory.read_offset, ← hw]
  have hfits : (if (UInt32.ofNat (66 + tx.length)).toNat ≤ 74 + tx.length - 8 then
      (UInt32.ofNat (66 + tx.length)).toNat else 0) = 66 + tx.length := by
    rw [hnat, if_pos (by omega)]
  have hproto (n : ℕ) : handleProto env msgProxyRelayData (m.offset 8) n = onRelayData env (m.offset 8) n := rfl
  have hshort : ¬66 + tx.length < relayFrameSize + 14 := by
    rw [relayFrameSize]
    omega
  have hmine : ¬textAt (relayPayload u t.cfg.uuid tx) 33 maxUuidLen ≠ (cstr t.cfg.uuid).take maxUuidLen := by
    rw [hv.text, List.take_of_length_le hv.short]
    exact not_not.mpr hdst
  have hrest : 66 + tx.length - relayFrameSize = tx.length := by
    rw [relayFrameSize]
    omega
  rw [handlePacket, hhead]
  dsimp only
  rw [hfits, hproto, onRelayData, if_neg hshort]
  dsimp only
  rw [hpay, if_neg hmine, hsrc, if_neg (by simpa using hu.nonempty), hrest]
  exact ⟨_, rfl⟩

/-- Two running clients that share a secret. -/
structure Ends (s t : P2PClient) : Prop where
  sender : Reachable client s ∧ s.running = true
  receiver : Reachable client t ∧ t.running = true
  secret : t.cfg.secret = s.cfg.secret
  own : P2PProxy.Proper s.cfg.uuid
  peer : P2PProxy.Proper t.cfg.uuid
  different : s.cfg.uuid ≠ t.cfg.uuid

/-- A frame goes to the relay as one datagram, which comes out as it went in and has the
receiving session handle exactly that frame. -/
theorem relay_transparent {s t : P2PClient} (h : Ends s t) {env : Env} (hn : ∀ n, (env.nonce n).length = 12)
    {c : Conn} (hpeer : c.peerUuid = t.cfg.uuid) {relay : Addr} (hrelay : UsesRelay env c relay s)
    {q : P2PProxy} {e : P2PProxy.UuidEntry} (hreg : q.uuid2addr[t.cfg.uuid]? = some e) (f : Plain) :
    ∃ tx, (sendTunnelVia env c f.bytes s).2 =
        [.proto relay msgProxyRelayData (relayPayload s.cfg.uuid t.cfg.uuid tx)] ∧
      (∀ now src, (P2PProxy.handle now (relayData s.cfg.uuid t.cfg.uuid tx) src q).2 =
        [⟨e.addr, relayData s.cfg.uuid t.cfg.uuid tx⟩]) ∧
      (∀ (env' : Env) (m : Memory) (len : ℕ) (src : Addr), m.read 0 len = relayData s.cfg.uuid t.cfg.uuid tx →
        ∃ c' x, handlePacket env' m len src t =
          andThen (withSession env' s.cfg.uuid fun a => a.onFrame f.bytes) (provePath true s.cfg.uuid)
            { setConn s.cfg.uuid c' t with tunnel := x }) ∧
      (s.cfg.secret ≠ [] → f.payload ≠ [] → ∃ n,
        tx = f.encrypted (pairKey s.cfg.secret s.cfg.uuid t.cfg.uuid) (env.nonce n)) := by
  have hnonce := hn s.tunnel.tunnelEncTx.toNat
  have hto : c.peerUuid ≠ [] ∧ c.peerUuid ≠ s.cfg.uuid := by
    rw [hpeer]
    exact ⟨h.peer.nonempty, h.different.symm⟩
  obtain ⟨x, hx⟩ := sendTunnelVia_carried env (keysDerived_reachable h.sender.1)
    (guarded_reachable h.sender.1 h.sender.2) hto hnonce f
  have hlen := carried_length s.cfg.secret s.cfg.uuid t.cfg.uuid hnonce f
  have hback : carried t.cfg.secret t.cfg.uuid s.cfg.uuid (env.nonce s.tunnel.tunnelEncTx.toNat) f =
      carried s.cfg.secret s.cfg.uuid t.cfg.uuid (env.nonce s.tunnel.tunnelEncTx.toNat) f := by
    rw [carried_comm, h.secret]
  rw [hpeer] at hx
  generalize htx : carried s.cfg.secret s.cfg.uuid t.cfg.uuid (env.nonce s.tunnel.tunnelEncTx.toNat) f = tx
    at hx hlen hback
  refine ⟨tx, ?_, fun now src => handle_relayData now h.own h.peer hlen.2 src hreg,
    fun env' m len src hm => ?_, fun hsecret hpay => ⟨s.tunnel.tunnelEncTx.toNat, ?_⟩⟩
  · have hrelay' : UsesRelay env c relay { s with tunnel := x } := ⟨hrelay.ice, hrelay.direct, hrelay.ready,
      hrelay.registered, hrelay.address⟩
    rw [hx, transmit_relay hrelay' hlen.2, hpeer]
  · have hsize := congrArg List.length hm
    rw [Memory.read_length, relayData_length] at hsize
    subst hsize
    have hkeys := keysDerived_reachable h.receiver.1
    have henc := guarded_reachable h.receiver.1 h.receiver.2
    obtain ⟨c', hc'⟩ := handlePacket_relayData env' h.own h.peer hlen hm src
    obtain ⟨x', hx'⟩ := onTunnelFrame_carried (t := setConn s.cfg.uuid c' t) env' hkeys henc
      ⟨h.own.nonempty, h.different⟩ hnonce f ((relayData_tail hm).trans hback.symm)
    refine ⟨c', x', ?_⟩
    rw [hc', andThen, hx']
    rfl
  · rw [← htx, carried, if_neg (by simp [hsecret, hpay])]

def relayServer : ServerAddr := ⟨inetNtop 0x0A000009, 4000⟩

def started (uuid : Bytes) : P2PClient :=
  let cfg : Config :=
    { uuid := uuid, secret := [0x6b], natServers := [relayServer], proxyServers := [relayServer] }
  client.next { cfg := cfg } ({}, .start cfg)

def registered (uuid : Bytes) : P2PClient :=
  let rsp : Memory := .ofBytes (NatServer.datagram msgProxyRegisterRsp [0]) fun _ => 0
  client.next (started uuid) ({}, .packet rsp 9 ⟨0x0A000009, 4000⟩)

theorem registered_reachable {uuid : Bytes} (h : (started uuid).running = true) :
    Reachable client (registered uuid) :=
  Reach.step (S := client) (.step (.start ⟨_, _, rfl⟩) trivial trivial) h trivial

def clientU : P2PClient := registered Samples.uuidU

def clientV : P2PClient := registered Samples.uuidV

theorem ends_registered : Ends clientU clientV where
  sender := ⟨registered_reachable (by decide +kernel), by decide +kernel⟩
  receiver := ⟨registered_reachable (by decide +kernel), by decide +kernel⟩
  secret := by decide +kernel
  own := P2PProxy.proper_uuidU
  peer := P2PProxy.proper_uuidV
  different := by decide +kernel

def hello : Plain := ⟨ttData, 1, 0, 0, 0, 0, [0x41], clear_zero, short_letter⟩

def relayedConn : Conn := { peerUuid := Samples.uuidV, relay := { relayOk := true } }

theorem relay_transparent_hello : ∃ tx,
    (sendTunnelVia {} relayedConn hello.bytes clientU).2 = [.proto ⟨0x0A000009, 4000⟩ msgProxyRelayData
      (relayPayload clientU.cfg.uuid clientV.cfg.uuid tx)] ∧
    tx = hello.encrypted (pairKey clientU.cfg.secret clientU.cfg.uuid clientV.cfg.uuid)
      (List.replicate 12 0) := by
  have hrelay : UsesRelay {} relayedConn ⟨0x0A000009, 4000⟩ clientU :=
    ⟨rfl, rfl, .inl rfl, by decide +kernel, by decide +kernel⟩
  obtain ⟨tx, hsent, -, -, hsealed⟩ := relay_transparent ends_registered (fun _ => rfl) rfl hrelay
    (q := P2PProxy.enroll 0 Samples.uuidV Samples.addrB { maxProxy := 10 }) (e := ⟨Samples.addrB, 0⟩)
    (by decide +kernel) hello
  obtain ⟨_, hn⟩ := hsealed (by decide +kernel) (by decide)
  exact ⟨tx, hsent, hn⟩

end P2PServer.P2PClient
