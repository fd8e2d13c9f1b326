import P2PServer.HeartbeatBodies

/-! An encrypted heartbeat and its answer. The key stream is that of the 33-byte uuid buffer, which the
client pads, the server terminates and the answer copies. -/
namespace P2PServer.HeartbeatExchange
open ByteStrings ProtoDef Net NatServer PacketCases HeartbeatBodies
open P2PClient (doHeartbeat uuidReq onHeartbeatRsp onHeartbeatRspEnc noteHeartbeat)

theorem uuidField_terminated (uuid : Bytes) : (uuidField uuid).take maxUuidLen ++ [0] = uuidField uuid := by
  have hshort : ((cstr uuid).take maxUuidLen).length ≤ 32 := List.length_take_le _ _
  change ((cstr uuid).take maxUuidLen ++ List.replicate (33 - ((cstr uuid).take maxUuidLen).length) 0).take 32 ++ [0] =
    (cstr uuid).take maxUuidLen ++ List.replicate (33 - ((cstr uuid).take maxUuidLen).length) 0
  generalize (cstr uuid).take maxUuidLen = t at hshort ⊢
  have htail : List.replicate (33 - t.length) (0 : UInt8) = List.replicate (32 - t.length) 0 ++ [0] := by
    rw [← List.replicate_succ', show 32 - t.length + 1 = 33 - t.length by omega]
  have hlen : (t ++ List.replicate (32 - t.length) 0).length = 32 := by
    rw [List.length_append, List.length_replicate]
    omega
  rw [htail, ← List.append_assoc, List.take_left' hlen]

theorem padded_uuid {uuid : Bytes} (htext : 0 ∉ uuid) (hshort : uuid.length ≤ maxUuidLen) :
    padded (maxUuidLen + 1) uuid = uuidField uuid := by
  have hall : cstr uuid = uuid := cstr_eq_self htext
  rw [uuidField, field, hall, List.take_of_length_le hshort]
  rfl

def builtReq (env : P2PClient.Env) (c : P2PClient) : UuidReq :=
  ⟨uuidField c.cfg.uuid, 2, c.natType, env.localPort, 1, 0⟩

theorem uuidReq_length (env : P2PClient.Env) (c : P2PClient) : (uuidReq env c).length = uuidReqSize := by
  simp [uuidReq, uuidReqSize]

theorem read_uuidReq (env : P2PClient.Env) (c : P2PClient) : UuidReq.read (uuidReq env c) = builtReq env c := by
  have d0 : (uuidReq env c).drop 0 = uuidField c.cfg.uuid ++ ([2, c.natType] ++ (be16 env.localPort ++
      (be32 1 ++ (be16 0 ++ [])))) := by simp [uuidReq]
  have d33 := drop_past d0 (j := 33) (by rw [uuidField_length])
  have d34 := drop_past (a := [_]) d33 (j := 34) rfl
  have d35 := drop_past d33 (j := 35) rfl
  have d37 := drop_past d35 (j := 37) rfl
  have d41 := drop_past d37 (j := 41) rfl
  have hraw : (uuidReq env c).take maxUuidLen = (uuidField c.cfg.uuid).take maxUuidLen := by
    rw [List.drop_zero] at d0
    rw [d0, List.take_append_of_le_length]
    rw [uuidField_length]
    decide
  rw [UuidReq.read, hraw, uuidField_terminated, byteAt_of_drop d33, byteAt_of_drop d34, u16At_of_drop d35,
    u32At_of_drop d37, u16At_of_drop d41]
  rfl

def readRsp (p : Bytes) : ExtInfoRsp :=
  ⟨byteAt p 0, window p 1 maxIpLen, u16At p 17, window p 19 maxIpLen, u16At p 35, u16At p 37⟩

/-- The texts of an `ExtInfoRsp` fill their fields. -/
structure Filled (rsp : ExtInfoRsp) : Prop where
  pubIp : rsp.pubIp.length = maxIpLen
  lanIp : rsp.lanIp.length = maxIpLen

theorem rsp_length {rsp : ExtInfoRsp} (h : Filled rsp) : rsp.bytes.length = 39 := by
  simp only [ExtInfoRsp.bytes, List.length_append, h.pubIp, h.lanIp, be16_length, List.length_singleton, maxIpLen]

theorem readRsp_bytes {rsp : ExtInfoRsp} (h : Filled rsp) : readRsp rsp.bytes = rsp := by
  have d0 : rsp.bytes.drop 0 = [rsp.result] ++ (rsp.pubIp ++ (be16 rsp.pubPort ++ (rsp.lanIp ++
      (be16 rsp.lanPort ++ (be16 rsp.natSock2Port ++ []))))) := by simp [ExtInfoRsp.bytes]
  have d1 := drop_past d0 (j := 1) rfl
  have d17 := drop_past d1 (j := 17) (by rw [h.pubIp, maxIpLen])
  have d19 := drop_past d17 (j := 19) rfl
  have d35 := drop_past d19 (j := 35) (by rw [h.lanIp, maxIpLen])
  have d37 := drop_past d35 (j := 37) rfl
  rw [readRsp, byteAt_of_drop d0, window_of_drop d1 h.pubIp, u16At_of_drop d17, window_of_drop d19 h.lanIp,
    u16At_of_drop d35, u16At_of_drop d37]

/-- A client that encrypts its heartbeats and a server with the same secret. -/
structure Shared (env : P2PClient.Env) (c : P2PClient) (s : NatServer) : Prop where
  secret : s.cfg.authSecret = c.cfg.secret
  named : c.cfg.uuid ≠ []
  short : c.cfg.uuid.length ≤ maxUuidLen
  text : 0 ∉ c.cfg.uuid
  encrypts : c.auth.heartbeatEnc = true
  iv : env.iv.length = 8

/-- The server's handler recovers the request that the client built. -/
def Requested (env : P2PClient.Env) (c : P2PClient) (s : NatServer) : Prop :=
  ∃ payload, (doHeartbeat env c).2 = [.proto c.natSock msgHeartbeatReqEnc payload] ∧
    heartbeatOf s.cfg.authSecret msgHeartbeatReqEnc payload = some (builtReq env c, [], some env.iv)

/-- The address and the second port that the client knows are those of the answer. -/
def Stores (rsp : ExtInfoRsp) (c : P2PClient) : Prop :=
  c.hb.pubIp = rsp.pubIp ∧ c.hb.pubPort = rsp.pubPort ∧ c.hb.altPort = rsp.natSock2Port

/-- A client with the same secret recovers the answer that the server built, and stores it if the
result is one of `kept`. -/
def Answered (kept : UInt8 → Prop) (env : P2PClient.Env) (c : P2PClient) (s : NatServer) : Prop :=
  ∀ (dst : Addr) (rsp : ExtInfoRsp), Filled rsp → ∃ q,
    (sendHeartbeatRsp dst (builtReq env c).uuidRaw rsp (some env.iv) s).2 =
      [.send dst (datagram msgHeartbeatRspEnc q)] ∧
    ∀ (env' : P2PClient.Env) (c' : P2PClient), c'.cfg.secret = c.cfg.secret →
      ∃ body, onHeartbeatRspEnc env' q c' = onHeartbeatRsp env' body c' ∧ readRsp body = rsp ∧
        (kept rsp.result → Stores rsp (onHeartbeatRspEnc env' q c').1)

section
variable {env : P2PClient.Env} {c : P2PClient} {s : NatServer}

theorem doHeartbeat_sealed (h : Shared env c s) : (doHeartbeat env c).2 = [.proto c.natSock msgHeartbeatReqEnc
    (sealedBody c.cfg.secret (uuidField c.cfg.uuid) env.iv (uuidReq env c))] := by
  have hlen := sealedBody_length c.cfg.secret (uuidReq env c) (uuidField_length c.cfg.uuid) h.iv
  rw [uuidReq_length] at hlen
  have hsize : uuidReqSize = 43 := rfl
  have hmax : maxPkt = 2048 := rfl
  rw [doHeartbeat, if_pos h.encrypts, padded_uuid h.text h.short]
  rw [sealedBody, uuidField_terminated] at hlen ⊢
  dsimp only
  rw [P2PClient.sendProtoNat, P2PClient.sendProto, if_neg (by omega)]
  rfl

theorem requested (h : Shared env c s) (hsecret : c.cfg.secret ≠ []) : Requested env c s := by
  have hlen := uuidReq_length env c
  refine ⟨_, doHeartbeat_sealed h, ?_⟩
  rw [h.secret, heartbeatOf_sealed (uuidField_length _) h.iv hlen.ge, opened, if_neg hsecret]
  have hreq : withUuid (uuidField c.cfg.uuid) (uuidReq env c) = builtReq env c := by
    rw [withUuid, uuidField_terminated, read_uuidReq]
    rfl
  have hext : restExt (uuidReq env c) = [] := by
    rw [restExt, hlen, if_pos (by decide), List.drop_eq_nil_of_le hlen.le]
  rw [hreq, hext]

theorem proceed_hb (env : P2PClient.Env) (c : P2PClient) : (P2PClient.proceed env c).1.hb.pubIp = c.hb.pubIp ∧
    (P2PClient.proceed env c).1.hb.pubPort = c.hb.pubPort ∧ (P2PClient.proceed env c).1.hb.altPort = c.hb.altPort := by
  have hready (t : P2PClient) : (P2PClient.fireReady t).1.hb.pubIp = t.hb.pubIp ∧
      (P2PClient.fireReady t).1.hb.pubPort = t.hb.pubPort ∧ (P2PClient.fireReady t).1.hb.altPort = t.hb.altPort := by
    unfold P2PClient.fireReady
    split <;> exact ⟨rfl, rfl, rfl⟩
  have hdetect : (P2PClient.startNatDetect env c).1.hb = c.hb := by
    unfold P2PClient.startNatDetect
    split <;> rfl
  unfold P2PClient.proceed
  split
  · unfold P2PClient.doAuthChallenge P2PClient.sendProtoNat P2PClient.sendProto
    split <;> exact ⟨rfl, rfl, rfl⟩
  · have hlast := hready (P2PClient.startNatDetect env c).1
    rw [hdetect] at hlast
    exact hlast

theorem refused_hb {env : P2PClient.Env} {c : P2PClient} {body : Bytes} (h : (readRsp body).result = 1) :
    (onHeartbeatRsp env body c).1.hb = c.hb := by
  have hresult : byteAt body 0 = 1 := h
  by_cases hshort : body.length < 2
  · rw [onHeartbeatRsp, if_pos hshort]
  · rw [onHeartbeatRsp, if_neg hshort, if_pos hresult]
    split
    · rfl
    · split
      · unfold P2PClient.doAuthChallenge P2PClient.sendProtoNat P2PClient.sendProto
        split <;> rfl
      · rfl

theorem stores_rsp {rsp : ExtInfoRsp} (hrsp : Filled rsp) (h1 : rsp.result ≠ 1) (h2 : rsp.result ≠ 2)
    (env : P2PClient.Env) (c : P2PClient) : Stores rsp (onHeartbeatRsp env rsp.bytes c).1 := by
  have hlen := rsp_length hrsp
  have hread := readRsp_bytes hrsp
  have hresult : (readRsp rsp.bytes).result = rsp.result := by rw [hread]
  change byteAt rsp.bytes 0 = rsp.result at hresult
  rw [onHeartbeatRsp, if_neg (by omega), hresult, if_neg h1, if_neg h2, if_neg (by omega)]
  obtain ⟨hip, hport, halt⟩ := proceed_hb env (noteHeartbeat rsp.bytes c)
  exact ⟨hip.trans (congrArg ExtInfoRsp.pubIp hread), hport.trans (congrArg ExtInfoRsp.pubPort hread),
    halt.trans (congrArg ExtInfoRsp.natSock2Port hread)⟩

theorem answered (h : Shared env c s) (hsecret : c.cfg.secret ≠ []) :
    Answered (fun result => result ≠ 1 ∧ result ≠ 2) env c s := by
  intro dst rsp hrsp
  let uuid := uuidField c.cfg.uuid
  let cipher := Crypto.p2pStreamXor c.cfg.secret uuid env.iv rsp.bytes
  have hu : uuid.length = 33 := uuidField_length _
  have hcipher : cipher.length = 39 := by rw [Crypto.p2pStreamXor_length, rsp_length hrsp]
  have hq : (uuid ++ env.iv ++ cipher).length = 80 := by
    rw [List.length_append, List.length_append, hu, h.iv, hcipher]
  refine ⟨uuid ++ env.iv ++ cipher, ?_, fun env' c' hsecret' => ?_⟩
  · have hempty : s.cfg.authSecret.isEmpty = false := by
      rw [h.secret]
      simpa using hsecret
    have hmax : maxPkt = 2048 := rfl
    rw [sendHeartbeatRsp]
    rw [hempty, if_neg Bool.false_ne_true, h.secret]
    change (sendMsg dst msgHeartbeatRspEnc (uuid ++ env.iv ++ cipher) s).2 = _
    rw [sendMsg, if_neg (by omega)]
    rfl
  · have htake : (uuid ++ env.iv ++ cipher).take 33 = uuid := by
      rw [List.append_assoc, List.take_left' hu]
    have hwindow : window (uuid ++ env.iv ++ cipher) 33 8 = env.iv := by
      have d33 : (uuid ++ env.iv ++ cipher).drop 33 = env.iv ++ cipher := by
        rw [List.append_assoc, List.drop_left' hu]
      exact window_of_drop d33 h.iv
    have hdrop : (uuid ++ env.iv ++ cipher).drop 41 = cipher := by
      refine List.drop_left' ?_
      rw [List.length_append, hu, h.iv]
    have hopen : onHeartbeatRspEnc env' (uuid ++ env.iv ++ cipher) c' = onHeartbeatRsp env' rsp.bytes c' := by
      rw [onHeartbeatRspEnc, if_neg (by omega), htake, hwindow, hdrop, hsecret',
        Crypto.p2pStreamXor_p2pStreamXor]
    refine ⟨rsp.bytes, hopen, readRsp_bytes hrsp, fun hkept => ?_⟩
    rw [hopen]
    exact stores_rsp hrsp hkept.1 hkept.2 env' c'

/-- An encrypted heartbeat and its answer are recovered under any secret that is not empty. A refusal,
with result 1 or 2, is not stored. -/
theorem exchanged (h : Shared env c s) (hsecret : c.cfg.secret ≠ []) :
    Requested env c s ∧ Answered (fun result => result ≠ 1 ∧ result ≠ 2) env c s :=
  ⟨requested h hsecret, answered h hsecret⟩

end

def deviceA (secret : Bytes) : P2PClient :=
  { cfg := { uuid := [0x61], secret := secret, natServers := [] }, auth := { heartbeatEnc := true } }

def serverOf (secret : Bytes) : NatServer := { cfg := { authSecret := secret } }

theorem shared_deviceA (secret : Bytes) : Shared {} (deviceA secret) (serverOf secret) :=
  ⟨rfl, List.cons_ne_nil _ _, by change 1 ≤ 32; omega, by change 0 ∉ [0x61]; decide, rfl, rfl⟩

theorem exchanged_deviceA : Requested {} (deviceA [1]) (serverOf [1]) ∧
    Answered (fun result => result ≠ 1 ∧ result ≠ 2) {} (deviceA [1]) (serverOf [1]) :=
  exchanged (shared_deviceA [1]) (by decide)

/-- Without a secret the client encrypts and the server does not decrypt; and a refusal leaves the
address that the client knew. -/
theorem exchange_not_always :
    (¬∀ (env : P2PClient.Env) (c : P2PClient) (s : NatServer), Shared env c s → Requested env c s) ∧
      ¬∀ (env : P2PClient.Env) (c : P2PClient) (s : NatServer), Shared env c s → c.cfg.secret ≠ [] →
        Answered (fun _ => True) env c s := by
  constructor
  · intro h
    obtain ⟨payload, hsent, hread⟩ := h {} (deviceA []) (serverOf []) (shared_deviceA [])
    rw [doHeartbeat_sealed (shared_deviceA []), List.singleton_inj, P2PClient.Out.proto.injEq] at hsent
    have hgarbled : heartbeatOf [] msgHeartbeatReqEnc (sealedBody [] (uuidField [0x61])
        (List.replicate 8 0) (uuidReq {} (deviceA []))) ≠
          some (builtReq {} (deviceA []), [], some (List.replicate 8 0)) := by decide +kernel
    rw [← hsent.2.2] at hread
    exact hgarbled hread
  · intro h
    have hrefusal : Filled { result := 1 } := ⟨rfl, rfl⟩
    obtain ⟨q, -, hstored⟩ := h {} (deviceA [1]) (serverOf [1]) (shared_deviceA [1]) (by decide) ⟨0, 0⟩
      { result := 1 } hrefusal
    obtain ⟨body, hopen, hbody, hkept⟩ := hstored {} { deviceA [1] with hb := { pubPort := 5 } } rfl
    have hport := (hkept trivial).2.1
    have hresult : (readRsp body).result = 1 := by rw [hbody]
    rw [hopen, refused_hb hresult] at hport
    exact absurd hport (by decide)

end P2PServer.HeartbeatExchange
