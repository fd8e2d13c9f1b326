import P2PServer.Accesses
import P2PServer.ClientTunnel
import P2PServer.Fields

/-! What a client reads of a datagram. Most handlers compare the length of a payload with what they
read of it. The answer to a NAT probe may be shorter than its fields, and the head of an encrypted
frame may state more than has arrived. -/
namespace P2PServer.P2PClient
open ByteStrings ProtoDef Net Codec Crypto Effects Transitions
open Access (Within Agree)

def heartbeatRspReads (p : Bytes) : List Access :=
  if p.length < 2 then []
  else ⟨0, 1⟩ ::
    if byteAt p 0 = 1 ∨ byteAt p 0 = 2 ∨ p.length < 39 then [] else [⟨1, 16⟩, ⟨17, 2⟩, ⟨37, 2⟩]

/-- The plaintext is read from a copy. -/
def heartbeatRspEncReads (p : Bytes) : List Access :=
  if p.length < 33 + 8 + 2 ∨ p.length - 41 > 39 then [] else [⟨0, 33⟩, ⟨33, 8⟩, ⟨41, p.length - 41⟩]

def authChallengeRspReads (p : Bytes) : List Access :=
  if p.length < 19 then [] else ⟨0, 1⟩ :: if byteAt p 0 ≠ 0 then [] else [⟨1, 16⟩]

/-- Of some answers the result is all that is read. -/
def resultReads (p : Bytes) : List Access := if p.length < 1 then [] else [⟨0, 1⟩]

/-- The mapped port is read before the phase is looked at. -/
def feedReads (rsp : Memory) (len : ℕ) (d : NatDetect) : List Access :=
  if len < 3 then []
  else [⟨0, 1⟩, ⟨35, 2⟩] ++ if d.phase = .main ∧ rsp 0 = 0 then [⟨19, 16⟩] else []

def structReads (size : ℕ) (p : Bytes) : List Access := if p.length < size then [] else [⟨0, size⟩]

def iceSdpReads (p : Bytes) : List Access :=
  if p.length < iceSdpHead then []
  else [⟨0, maxUuidLen⟩, ⟨34, 2⟩] ++
    if p.length < iceSdpHead + (u16At p 34).toNat then [] else [⟨36, (u16At p 34).toNat⟩]

def statedLen (frame : Memory) : ℕ := (rd16 (frame 12) (frame 13)).toNat

/-- The head is copied, and nonce, ciphertext and tag stand where the stated length puts them. -/
def decryptReads (peer : Bytes) (frame : Memory) (len : ℕ) (s : P2PClient) : List Access :=
  if len < 14 then []
  else ⟨7, 1⟩ ::
    if frame 7 &&& tfEnc = 0 then []
    else ⟨12, 2⟩ ::
      if statedLen frame < 12 + 16 ∨ 14 + statedLen frame - 12 - 16 > maxPkt then []
      else if (getTunnelKey peer s).1 = none then []
      else [⟨0, 14⟩, ⟨14, 12⟩, ⟨26, statedLen frame - 12 - 16⟩, ⟨26 + (statedLen frame - 12 - 16), 16⟩]

/-- What a session may read of a frame. -/
def frameReads (frame : Memory) (len : ℕ) : List Access :=
  if len < 14 then [] else ⟨0, 14⟩ :: if 14 + statedLen frame > len then [] else [⟨14, statedLen frame⟩]

/-- A decrypted frame is read from a copy. -/
def tunnelReads (peer : Bytes) (frame : Memory) (len : ℕ) (s : P2PClient) : List Access :=
  if s.tunnel.tunnelEnc then
    decryptReads peer frame len s ++
      if (decryptTunnelFrame peer frame len s).1.isSome then [] else frameReads frame len
  else frameReads frame len

def relayDataReads (m : Memory) (plen : ℕ) (s : P2PClient) : List Access :=
  if plen < relayFrameSize + 14 then []
  else
    let p := m.read 0 plen
    ⟨33, maxUuidLen⟩ ::
      if textAt p 33 maxUuidLen ≠ (cstr s.cfg.uuid).take maxUuidLen then []
      else ⟨0, maxUuidLen⟩ ::
        if (uuidAt p 0).isEmpty then []
        else (tunnelReads (uuidAt p 0) (m.offset relayFrameSize) (plen - relayFrameSize) s).map
          (Access.shift relayFrameSize)

def protoReads (msgId : UInt8) (m : Memory) (plen : ℕ) (s : P2PClient) : List Access :=
  let p := m.read 0 plen
  if msgId = msgHeartbeatRsp then heartbeatRspReads p
  else if msgId = msgHeartbeatRspEnc then heartbeatRspEncReads p
  else if msgId = msgAuthChallengeRsp then authChallengeRspReads p
  else if msgId = msgAuthLoginRsp then resultReads p
  else if msgId = msgNatDetectRsp then feedReads m plen s.natDetect
  else if msgId = msgConnectAck then structReads connectAckSize p
  else if msgId = msgConnectInvite then structReads connectInviteSize p
  else if msgId = msgIceSdp then iceSdpReads p
  else if msgId = msgProxyRegisterRsp then resultReads p
  else if msgId = msgProxyRelayData then relayDataReads m plen s
  else []

/-- The accesses of `handle_packet` to a datagram. -/
def packetReads (m : Memory) (len : ℕ) (src : Addr) (s : P2PClient) : List Access :=
  (if len < 8 then [] else [⟨0, 8⟩]) ++
  match codecReadHead (m.read 0 len) with
  | some h => (protoReads h.msgId (m.offset 8)
      (if h.length.toNat ≤ len - 8 then h.length.toNat else 0) s).map (Access.shift 8)
  | none =>
    if len ≥ 2 then
      ⟨0, 2⟩ ::
        if rd16 (m 0) (m 1) = tunnelMagic then
          match s.addrToPeer[addrKey src]? with
          | some peer => tunnelReads peer m len s
          | none => []
        else []
    else []

variable {m m' : Memory} {n size : ℕ} {s : P2PClient}

theorem byteAt_read {i : ℕ} (h : i < n) : byteAt (m.read 0 n) i = m i := by
  rw [byteAt, List.getD_eq_getElem?_getD, Memory.read_getElem? h, Nat.zero_add, Option.getD_some]

theorem u16At_read {i : ℕ} (h : i + 1 < n) : u16At (m.read 0 n) i = rd16 (m i) (m (i + 1)) := by
  rw [u16At, byteAt_read (by omega), byteAt_read h]

theorem window_read {i j : ℕ} (h : i + j ≤ n) : window (m.read 0 n) i j = m.read i j := by
  rw [Memory.window_read m h, Nat.zero_add]

theorem read_take {k : ℕ} (h : k ≤ n) : (m.read 0 n).take k = m.read 0 k := by
  have ht := window_read (m := m) (i := 0) (j := k) (n := n) (by omega)
  rwa [window, List.drop_zero] at ht

theorem read_drop {k : ℕ} (h : k ≤ n) : (m.read 0 n).drop k = m.read k (n - k) := by
  have hd := window_read (m := m) (i := k) (j := n - k) (n := n) (by omega)
  rwa [window, List.take_of_length_le (by simp)] at hd

theorem rd16_of_read {i : ℕ} (h : m'.read i 2 = m.read i 2) : rd16 (m' i) (m' (i + 1)) = rd16 (m i) (m (i + 1)) := by
  rw [Access.byte_in_read h (j := 1) (by decide)]
  exact congrArg (rd16 · _) (Access.byte_in_read h (j := 0) (by decide))

theorem onHeartbeatRsp_reads (env : Env) (h : Agree (heartbeatRspReads (m.read 0 n)) m m') :
    onHeartbeatRsp env (m'.read 0 n) s = onHeartbeatRsp env (m.read 0 n) s := by
  unfold heartbeatRspReads at h
  unfold onHeartbeatRsp
  rw [Memory.read_length] at h ⊢
  rw [Memory.read_length]
  by_cases h2 : n < 2
  · rw [if_pos h2, if_pos h2]
  · rw [if_neg h2, Access.agree_cons] at h
    rw [if_neg h2, if_neg h2]
    have hfirst : byteAt (m'.read 0 n) 0 = byteAt (m.read 0 n) 0 := by
      rw [byteAt_read (by omega), byteAt_read (by omega), Access.byte_of_read h.1]
    rw [hfirst]
    by_cases h1 : byteAt (m.read 0 n) 0 = 1
    · rw [if_pos h1, if_pos h1]
    rw [if_neg h1, if_neg h1]
    by_cases hr : byteAt (m.read 0 n) 0 = 2
    · rw [if_pos hr, if_pos hr]
    rw [if_neg hr, if_neg hr]
    by_cases hl : n < 39
    · rw [if_pos hl, if_pos hl]
    rw [if_neg hl, if_neg hl]
    rw [if_neg (by simp [h1, hr, hl])] at h
    simp only [Access.agree_cons] at h
    have hnote : noteHeartbeat (m'.read 0 n) s = noteHeartbeat (m.read 0 n) s := by
      unfold noteHeartbeat
      rw [window_read (by rw [maxIpLen]; omega), window_read (by rw [maxIpLen]; omega), u16At_read (by omega),
        u16At_read (by omega), u16At_read (by omega), u16At_read (by omega)]
      rw [show maxIpLen = 16 from rfl, h.2.1, rd16_of_read h.2.2.1, rd16_of_read h.2.2.2.1]
    rw [hnote]

theorem heartbeatRspReads_within (p : Bytes) : Within p.length (heartbeatRspReads p) := by
  unfold heartbeatRspReads
  split
  · simp
  · split <;> simp <;> omega

theorem onHeartbeatRspEnc_reads (env : Env) (h : Agree (heartbeatRspEncReads (m.read 0 n)) m m') :
    onHeartbeatRspEnc env (m'.read 0 n) s = onHeartbeatRspEnc env (m.read 0 n) s := by
  unfold heartbeatRspEncReads at h
  unfold onHeartbeatRspEnc
  rw [Memory.read_length] at h ⊢
  rw [Memory.read_length]
  by_cases hl : n < 33 + 8 + 2 ∨ n - 41 > 39
  · rw [if_pos hl, if_pos hl]
  · rw [if_neg hl] at h
    rw [if_neg hl, if_neg hl]
    simp only [Access.agree_cons] at h
    rw [read_take (by omega), read_take (by omega), window_read (by omega), window_read (by omega),
      read_drop (by omega), read_drop (by omega), h.1, h.2.1, h.2.2.1]

theorem heartbeatRspEncReads_within (p : Bytes) : Within p.length (heartbeatRspEncReads p) := by
  unfold heartbeatRspEncReads
  split
  · simp
  · simp
    omega

theorem onAuthChallengeRsp_reads (env : Env) (h : Agree (authChallengeRspReads (m.read 0 n)) m m') :
    onAuthChallengeRsp env (m'.read 0 n) s = onAuthChallengeRsp env (m.read 0 n) s := by
  unfold authChallengeRspReads at h
  unfold onAuthChallengeRsp
  rw [Memory.read_length] at h ⊢
  rw [Memory.read_length]
  by_cases hl : n < 19
  · rw [if_pos hl, if_pos hl]
  · rw [if_neg hl, Access.agree_cons] at h
    rw [if_neg hl, if_neg hl]
    dsimp only
    have hfirst : byteAt (m'.read 0 n) 0 = byteAt (m.read 0 n) 0 := by
      rw [byteAt_read (by omega), byteAt_read (by omega), Access.byte_of_read h.1]
    rw [hfirst]
    by_cases hr : byteAt (m.read 0 n) 0 ≠ 0
    · rw [if_pos hr, if_pos hr]
    · rw [if_neg hr, if_neg hr, window_read (by omega), window_read (by omega)]
      rw [if_neg hr, Access.agree_cons] at h
      rw [h.2.1]

theorem authChallengeRspReads_within (p : Bytes) : Within p.length (authChallengeRspReads p) := by
  unfold authChallengeRspReads
  split
  · simp
  · split <;> simp <;> omega

theorem result_of_agree (h : Agree (resultReads (m.read 0 n)) m m') (hn : ¬n < 1) :
    byteAt (m'.read 0 n) 0 = byteAt (m.read 0 n) 0 := by
  rw [resultReads, Memory.read_length, if_neg hn, Access.agree_cons] at h
  rw [byteAt_read (by omega), byteAt_read (by omega), Access.byte_of_read h.1]

theorem onAuthLoginRsp_reads (env : Env) (h : Agree (resultReads (m.read 0 n)) m m') :
    onAuthLoginRsp env (m'.read 0 n) s = onAuthLoginRsp env (m.read 0 n) s := by
  unfold onAuthLoginRsp
  rw [Memory.read_length, Memory.read_length]
  dsimp only
  by_cases hn : n < 1
  · rw [if_pos hn, if_pos hn]
  · rw [if_neg hn, if_neg hn, result_of_agree h hn]

theorem onProxyRegisterRsp_reads (h : Agree (resultReads (m.read 0 n)) m m') :
    onProxyRegisterRsp (m'.read 0 n) s = onProxyRegisterRsp (m.read 0 n) s := by
  unfold onProxyRegisterRsp
  rw [Memory.read_length, Memory.read_length]
  by_cases hn : n < 1
  · rw [if_pos hn, if_pos hn]
  · rw [if_neg hn, if_neg hn, result_of_agree h hn]

theorem resultReads_within (p : Bytes) : Within p.length (resultReads p) := by
  unfold resultReads
  split
  · simp
  · simp
    omega

theorem struct_of_agree (h : Agree (structReads size (m.read 0 n)) m m') (hn : ¬n < size) :
    (m'.read 0 n).take size = (m.read 0 n).take size := by
  rw [structReads, Memory.read_length, if_neg hn, Access.agree_cons] at h
  rw [read_take (by omega), read_take (by omega), h.1]

theorem onConnectAck_reads (env : Env) (h : Agree (structReads connectAckSize (m.read 0 n)) m m') :
    onConnectAck env (m'.read 0 n) s = onConnectAck env (m.read 0 n) s := by
  unfold onConnectAck
  rw [Memory.read_length, Memory.read_length]
  by_cases hn : n < connectAckSize
  · rw [if_pos hn, if_pos hn]
  · rw [if_neg hn, if_neg hn, struct_of_agree h hn]

theorem onConnectInvite_reads (env : Env) (h : Agree (structReads connectInviteSize (m.read 0 n)) m m') :
    onConnectInvite env (m'.read 0 n) s = onConnectInvite env (m.read 0 n) s := by
  unfold onConnectInvite
  rw [Memory.read_length, Memory.read_length]
  by_cases hn : n < connectInviteSize
  · rw [if_pos hn, if_pos hn]
  · rw [if_neg hn, if_neg hn, struct_of_agree h hn]

theorem structReads_within (size : ℕ) (p : Bytes) : Within p.length (structReads size p) := by
  unfold structReads
  split
  · simp
  · simp
    omega

theorem onIceSdp_reads (env : Env) (h : Agree (iceSdpReads (m.read 0 n)) m m') :
    onIceSdp env (m'.read 0 n) s = onIceSdp env (m.read 0 n) s := by
  unfold iceSdpReads at h
  unfold onIceSdp
  rw [Memory.read_length] at h ⊢
  rw [Memory.read_length]
  by_cases hn : n < iceSdpHead
  · rw [if_pos hn, if_pos hn]
  · rw [if_neg hn, Access.agree_append] at h
    rw [if_neg hn, if_neg hn]
    rw [iceSdpHead] at hn
    obtain ⟨hhead, hbody⟩ := h
    simp only [Access.agree_cons] at hhead
    have hlen : u16At (m'.read 0 n) 34 = u16At (m.read 0 n) 34 := by
      rw [u16At_read (by omega), u16At_read (by omega), rd16_of_read hhead.2.1]
    have hdst : uuidAt (m'.read 0 n) 0 = uuidAt (m.read 0 n) 0 := by
      rw [uuidAt, uuidAt, textAt, textAt, window_read (by rw [maxUuidLen]; omega),
        window_read (by rw [maxUuidLen]; omega), hhead.1]
    rw [hlen, hdst]
    dsimp only
    by_cases hl : n < iceSdpHead + (u16At (m.read 0 n) 34).toNat
    · rw [if_pos hl, if_pos hl]
    · rw [if_neg hl, Access.agree_cons] at hbody
      have hfits : 36 + (u16At (m.read 0 n) 34).toNat ≤ n := by
        rw [iceSdpHead] at hl
        omega
      rw [if_neg hl, if_neg hl, window_read hfits, window_read hfits, hbody.1]

theorem iceSdpReads_within (p : Bytes) : Within p.length (iceSdpReads p) := by
  unfold iceSdpReads
  rw [iceSdpHead]
  split
  · simp
  · split <;> simp [maxUuidLen] <;> omega

theorem feed_reads {d : NatDetect} (h : Agree (feedReads m n d) m m') : d.feed m' n = d.feed m n := by
  unfold feedReads at h
  unfold NatDetect.feed
  by_cases hn : n < 3
  · rw [if_pos hn, if_pos hn]
  · rw [if_neg hn, Access.agree_append] at h
    rw [if_neg hn, if_neg hn]
    obtain ⟨hhead, hip⟩ := h
    simp only [Access.agree_cons] at hhead
    have hidx := Access.byte_of_read hhead.1
    have hport := rd16_of_read hhead.2.1
    dsimp only at hidx hport ⊢
    rw [hidx, hport]
    cases hp : d.phase with
    | main =>
      dsimp only
      by_cases h0 : m 0 = 0
      · rw [if_pos ⟨hp, h0⟩, Access.agree_cons] at hip
        rw [if_pos h0, if_pos h0, hip.1]
      · rw [if_neg h0, if_neg h0]
    | idle | alt | done => rfl

/-- `size` counts what has arrived from the payload on. -/
theorem feedReads_within {d : NatDetect} : Within size (feedReads m n d) ↔ n < 3 ∨ 37 ≤ size := by
  unfold feedReads
  split
  · simp [*]
  · split <;> simp <;> omega

theorem getTunnelKey_none (peer : Bytes) :
    (getTunnelKey peer s).1 = none ↔ s.cfg.secret = [] ∨ peer = [] ∨ peer = s.cfg.uuid := by
  unfold getTunnelKey
  split
  · rename_i h
    simpa [or_assoc] using h
  · rename_i h
    have hno : ¬(s.cfg.secret = [] ∨ peer = [] ∨ peer = s.cfg.uuid) := by simpa [or_assoc] using h
    split <;> simp [hno]

theorem statedLen_of_agree (h : m'.read 12 2 = m.read 12 2) : statedLen m' = statedLen m :=
  congrArg UInt16.toNat (rd16_of_read h)

theorem decryptTunnelFrame_reads (peer : Bytes) (h : Agree (decryptReads peer m n s) m m') :
    decryptTunnelFrame peer m' n s = decryptTunnelFrame peer m n s := by
  unfold decryptReads at h
  unfold decryptTunnelFrame
  by_cases hn : n < 14
  · rw [if_pos (.inl hn), if_pos (.inl hn)]
  · rw [if_neg hn, Access.agree_cons] at h
    have hflags : m' 7 = m 7 := Access.byte_of_read h.1
    rw [hflags]
    by_cases hf : m 7 &&& tfEnc = 0
    · rw [if_pos (.inr hf), if_pos (.inr hf)]
    · rw [if_neg hf, Access.agree_cons] at h
      have hno : ¬(n < 14 ∨ m 7 &&& tfEnc = 0) := by simp [hn, hf]
      rw [if_neg hno, if_neg hno]
      have hlen := statedLen_of_agree h.2.1
      unfold statedLen at hlen h
      rw [hlen]
      dsimp only
      generalize (rd16 (m 12) (m 13)).toNat = plen at h
      by_cases hp : plen < 12 + 16 ∨ 14 + plen - 12 - 16 > maxPkt
      · rw [if_pos hp, if_pos hp]
      · rw [if_neg hp] at h
        rw [if_neg hp, if_neg hp]
        obtain ⟨key, s', hk⟩ : ∃ key s', getTunnelKey peer s = (key, s') := ⟨_, _, rfl⟩
        rw [hk] at h ⊢
        cases key with
        | none => rfl
        | some key =>
          dsimp only
          rw [if_neg (by simp)] at h
          simp only [Access.agree_cons] at h
          obtain ⟨-, -, hhead, hnonce, hcipher, htag, -⟩ := h
          rw [hhead, hnonce, hcipher, htag]

theorem codecReadTunnel_memory (hn : 14 ≤ n) : codecReadTunnel (m.read 0 n) =
    if m 0 ≠ UInt8.ofNat (tunnelMagic.toNat / 256) ∨ m 1 ≠ tunnelMagic.toUInt8 then none
    else if m 2 ≠ tunnelVer then none
    else if statedLen m > n - 14 then none
    else some ⟨m 3, rd16 (m 4) (m 5), m 6, m 7, rd16 (m 8) (m 9), rd16 (m 10) (m 11),
      m.read 14 (statedLen m), rd16 (m 12) (m 13)⟩ := by
  obtain ⟨k, rfl⟩ := Nat.exists_eq_add_of_le hn
  have hhead : m.read 0 14 = [m 0, m 1, m 2, m 3, m 4, m 5, m 6, m 7, m 8, m 9, m 10, m 11, m 12, m 13] := rfl
  rw [Memory.read_add, hhead, Nat.add_sub_cancel_left]
  simp only [List.cons_append, List.nil_append, codecReadTunnel, Memory.read_length, Nat.zero_add]
  have hs : (rd16 (m 12) (m 13)).toNat = statedLen m := rfl
  rw [hs]
  by_cases hl : statedLen m > k
  · rw [if_pos hl, if_pos hl]
  · have htake : (m.read 14 k).take (statedLen m) = m.read 14 (statedLen m) := by
      obtain ⟨j, rfl⟩ := Nat.exists_eq_add_of_le (not_lt.mp hl)
      rw [Memory.read_add, List.take_left' (Memory.read_length m 14 _)]
    rw [if_neg hl, if_neg hl, htake]

theorem codecReadTunnel_reads (h : Agree (frameReads m n) m m') :
    codecReadTunnel (m'.read 0 n) = codecReadTunnel (m.read 0 n) := by
  unfold frameReads at h
  by_cases hn : n < 14
  · have hshort (x : Memory) : codecReadTunnel (x.read 0 n) = none := by
      cases hc : codecReadTunnel (x.read 0 n) with
      | none => rfl
      | some t =>
        have hlen := length_of_codecReadTunnel hc
        rw [Memory.read_length] at hlen
        omega
    rw [hshort, hshort]
  · rw [if_neg hn, Access.agree_cons] at h
    have hbyte (i : ℕ) (hi : i < 14) : m' i = m i := by
      have hb := Access.byte_in_read h.1 hi
      rwa [Nat.zero_add] at hb
    have hlen : statedLen m' = statedLen m := by
      rw [statedLen, statedLen, hbyte 12 (by decide), hbyte 13 (by decide)]
    rw [codecReadTunnel_memory (by omega), codecReadTunnel_memory (by omega), hlen, hbyte 0 (by decide),
      hbyte 1 (by decide), hbyte 2 (by decide)]
    by_cases hl : statedLen m > n - 14
    · rw [if_pos hl, if_pos hl]
    · rw [if_neg (by omega), Access.agree_cons] at h
      rw [if_neg hl, if_neg hl, h.2.1, hbyte 3 (by decide), hbyte 4 (by decide), hbyte 5 (by decide),
        hbyte 6 (by decide), hbyte 7 (by decide), hbyte 8 (by decide), hbyte 9 (by decide), hbyte 10 (by decide),
        hbyte 11 (by decide), hbyte 12 (by decide), hbyte 13 (by decide)]

theorem onFrame_reads (x : Session) (h : Agree (frameReads m n) m m') :
    x.onFrame (m'.read 0 n) = x.onFrame (m.read 0 n) := by
  rw [Session.onFrame, Session.onFrame, codecReadTunnel_reads h]

theorem onTunnelFrame_reads (env : Env) (peer : Bytes) (h : Agree (tunnelReads peer m n s) m m') :
    onTunnelFrame env peer m' n s = onTunnelFrame env peer m n s := by
  unfold tunnelReads at h
  unfold onTunnelFrame
  by_cases he : s.tunnel.tunnelEnc = true
  · rw [if_pos he, Access.agree_append] at h
    rw [if_pos he, if_pos he, decryptTunnelFrame_reads peer h.1]
    dsimp only
    cases hd : (decryptTunnelFrame peer m n s).1 with
    | none =>
      rw [hd, if_neg (by simp)] at h
      simp only [Option.getD_none]
      congr 1
      exact funext fun x => onFrame_reads x h.2
    | some f => rfl
  · rw [if_neg he] at h
    rw [if_neg he, if_neg he]
    dsimp only [Option.getD_none]
    congr 1
    exact funext fun x => onFrame_reads x h

theorem frameReads_within : Within n (frameReads m n) := by
  unfold frameReads
  split
  · simp
  · split <;> simp <;> omega

/-- The inner length of an encrypted frame leads behind the `size` bytes that have arrived from its
start on. -/
structure Overlong (s : P2PClient) (peer : Bytes) (frame : Memory) (len size : ℕ) : Prop where
  enc : s.tunnel.tunnelEnc = true
  head : 14 ≤ len
  flag : frame 7 &&& tfEnc ≠ 0
  stated : 12 + 16 ≤ statedLen frame ∧ 14 + statedLen frame - 12 - 16 ≤ maxPkt
  key : s.cfg.secret ≠ [] ∧ peer ≠ [] ∧ peer ≠ s.cfg.uuid
  beyond : size < 14 + statedLen frame

theorem decryptReads_within (peer : Bytes) (he : s.tunnel.tunnelEnc = true) (hsize : n ≤ size) :
    Within size (decryptReads peer m n s) ↔ ¬Overlong s peer m n size := by
  unfold decryptReads
  by_cases hn : n < 14
  · simp only [if_pos hn, Access.within_nil, true_iff]
    exact fun h => absurd h.head (by omega)
  rw [if_neg hn]
  by_cases hf : m 7 &&& tfEnc = 0
  · rw [if_pos hf, Access.within_cons]
    exact ⟨fun _ h => h.flag hf, fun _ => ⟨.inr (by dsimp only; omega), Access.within_nil⟩⟩
  rw [if_neg hf]
  by_cases hp : statedLen m < 12 + 16 ∨ 14 + statedLen m - 12 - 16 > maxPkt
  · rw [if_pos hp]
    refine ⟨fun _ h => ?_, fun _ => ?_⟩
    · have hs := h.stated
      omega
    · simp
      omega
  rw [if_neg hp]
  by_cases hk : (getTunnelKey peer s).1 = none
  · rw [if_pos hk]
    refine ⟨fun _ h => ?_, fun _ => ?_⟩
    · have hkey := h.key
      rw [getTunnelKey_none] at hk
      tauto
    · simp
      omega
  rw [if_neg hk]
  rw [getTunnelKey_none] at hk
  constructor
  · intro hw h
    have hbeyond := h.beyond
    simp at hw
    omega
  · intro hno
    have hfits : 14 + statedLen m ≤ size := by
      by_contra hc
      exact hno ⟨he, not_lt.mp hn, hf, by omega, by tauto, by omega⟩
    simp
    omega

theorem tunnelReads_within (peer : Bytes) (hsize : n ≤ size) :
    Within size (tunnelReads peer m n s) ↔ ¬Overlong s peer m n size := by
  unfold tunnelReads
  by_cases he : s.tunnel.tunnelEnc = true
  · rw [if_pos he, Access.within_append, decryptReads_within peer he hsize, and_iff_left]
    split
    · exact Access.within_nil
    · exact frameReads_within.mono hsize
  · rw [if_neg he]
    exact ⟨fun _ h => he h.enc, fun _ => frameReads_within.mono hsize⟩

theorem getTunnelKey_setConn (peer key : Bytes) (c : Conn) :
    (getTunnelKey peer (setConn key c s)).1 = (getTunnelKey peer s).1 := by
  unfold getTunnelKey setConn
  dsimp only
  split
  · rfl
  · split <;> rfl

theorem decryptTunnelFrame_setConn (peer key : Bytes) (c : Conn) :
    (decryptTunnelFrame peer m n (setConn key c s)).1 = (decryptTunnelFrame peer m n s).1 := by
  have hk := getTunnelKey_setConn (s := s) peer key c
  unfold decryptTunnelFrame
  split
  · rfl
  · dsimp only
    split
    · rfl
    · rcases hg : getTunnelKey peer s with ⟨k, t⟩
      rcases hg' : getTunnelKey peer (setConn key c s) with ⟨k', t'⟩
      rw [hg, hg'] at hk
      obtain rfl : k' = k := hk
      cases k' with
      | none => rfl
      | some k =>
        dsimp only
        split <;> rfl

theorem tunnelReads_setConn (peer key : Bytes) (c : Conn) :
    tunnelReads peer m n (setConn key c s) = tunnelReads peer m n s := by
  have hd : decryptReads peer m n (setConn key c s) = decryptReads peer m n s := by
    rw [decryptReads, decryptReads, getTunnelKey_setConn]
  rw [tunnelReads, tunnelReads, hd, decryptTunnelFrame_setConn]
  rfl

theorem onRelayData_reads (env : Env) (h : Agree (relayDataReads m n s) m m') :
    onRelayData env m' n s = onRelayData env m n s := by
  unfold relayDataReads at h
  unfold onRelayData
  by_cases hn : n < relayFrameSize + 14
  · rw [if_pos hn, if_pos hn]
  · have hlong : 80 ≤ n := not_lt.mp hn
    rw [if_neg hn] at h
    rw [if_neg hn, if_neg hn]
    dsimp only at h ⊢
    rw [Access.agree_cons] at h
    have hdst : textAt (m'.read 0 n) 33 maxUuidLen = textAt (m.read 0 n) 33 maxUuidLen := by
      rw [textAt, textAt, window_read (by rw [maxUuidLen]; omega), window_read (by rw [maxUuidLen]; omega), h.1]
    rw [hdst]
    by_cases hmine : textAt (m.read 0 n) 33 maxUuidLen ≠ (cstr s.cfg.uuid).take maxUuidLen
    · rw [if_pos hmine, if_pos hmine]
    · rw [if_neg hmine, Access.agree_cons] at h
      rw [if_neg hmine, if_neg hmine]
      have hsrc : uuidAt (m'.read 0 n) 0 = uuidAt (m.read 0 n) 0 := by
        rw [uuidAt, uuidAt, textAt, textAt, window_read (by rw [maxUuidLen]; omega),
          window_read (by rw [maxUuidLen]; omega), h.2.1]
      rw [hsrc]
      by_cases hpeer : (uuidAt (m.read 0 n) 0).isEmpty
      · rw [if_pos hpeer, if_pos hpeer]
      · rw [if_neg hpeer, Access.agree_shift] at h
        rw [if_neg hpeer, if_neg hpeer]
        have hframe (c : Conn) := onTunnelFrame_reads (s := setConn (uuidAt (m.read 0 n) 0) c s) env
          (uuidAt (m.read 0 n) 0) (tunnelReads_setConn (s := s) (uuidAt (m.read 0 n) 0) _ c ▸ h.2.2)
        simp only [andThen, Effects.modify, hframe]

/-- The relayed frame is for this client, and leads behind what has arrived. -/
structure RelayedOverlong (s : P2PClient) (m : Memory) (plen size : ℕ) : Prop where
  head : relayFrameSize + 14 ≤ plen
  mine : textAt (m.read 0 plen) 33 maxUuidLen = (cstr s.cfg.uuid).take maxUuidLen
  frame : Overlong s (uuidAt (m.read 0 plen) 0) (m.offset relayFrameSize) (plen - relayFrameSize)
    (size - relayFrameSize)

theorem relayDataReads_within (hsize : n ≤ size) :
    Within size (relayDataReads m n s) ↔ ¬RelayedOverlong s m n size := by
  unfold relayDataReads
  by_cases hn : n < relayFrameSize + 14
  · rw [if_pos hn]
    exact ⟨fun _ h => absurd h.head (by omega), fun _ => Access.within_nil⟩
  have hlong : 80 ≤ n := not_lt.mp hn
  rw [if_neg hn]
  dsimp only
  rw [Access.within_cons, and_iff_right (.inr (show 33 + maxUuidLen ≤ size by rw [maxUuidLen]; omega))]
  by_cases hmine : textAt (m.read 0 n) 33 maxUuidLen ≠ (cstr s.cfg.uuid).take maxUuidLen
  · rw [if_pos hmine]
    exact ⟨fun _ h => hmine h.mine, fun _ => Access.within_nil⟩
  rw [if_neg hmine, Access.within_cons, and_iff_right (.inr (show 0 + maxUuidLen ≤ size by rw [maxUuidLen]; omega))]
  have hmine := not_not.mp hmine
  by_cases hpeer : (uuidAt (m.read 0 n) 0).isEmpty
  · rw [if_pos hpeer]
    exact ⟨fun _ h => h.frame.key.2.1 (List.isEmpty_iff.mp hpeer), fun _ => Access.within_nil⟩
  rw [if_neg hpeer]
  have hsplit : size = relayFrameSize + (size - relayFrameSize) := by
    rw [relayFrameSize]
    omega
  have hframe := tunnelReads_within (m := m.offset relayFrameSize) (s := s) (uuidAt (m.read 0 n) 0)
    (Nat.sub_le_sub_right hsize relayFrameSize)
  rw [← Access.within_shift (k := relayFrameSize), ← hsplit] at hframe
  rw [hframe]
  exact ⟨fun h hc => h hc.frame, fun h hc => h ⟨not_lt.mp hn, hmine, hc⟩⟩

theorem handleProto_reads (env : Env) (msgId : UInt8) (h : Agree (protoReads msgId m n s) m m') :
    handleProto env msgId m' n s = handleProto env msgId m n s := by
  unfold protoReads at h
  unfold handleProto
  simp only [ite_apply]
  refine h.ite (fun _ h => onHeartbeatRsp_reads env h) fun _ h => ?_
  refine h.ite (fun _ h => onHeartbeatRspEnc_reads env h) fun _ h => ?_
  refine h.ite (fun _ h => onAuthChallengeRsp_reads env h) fun _ h => ?_
  refine h.ite (fun _ h => onAuthLoginRsp_reads env h) fun _ h => ?_
  refine h.ite (fun _ h => by rw [Effects.modify, Effects.modify, feed_reads h]) fun _ h => ?_
  refine h.ite (fun _ h => onConnectAck_reads env h) fun _ h => ?_
  refine h.ite (fun _ h => onConnectInvite_reads env h) fun _ h => ?_
  refine h.ite (fun _ h => onIceSdp_reads env h) fun _ h => ?_
  refine h.ite (fun _ h => onProxyRegisterRsp_reads h) fun _ h => ?_
  exact h.ite (fun _ h => onRelayData_reads env h) fun _ _ => rfl

/-- Two of the messages are read past the end of the datagram. -/
theorem protoReads_within (msgId : UInt8) (hsize : n ≤ size) : Within size (protoReads msgId m n s) ↔
    ¬(msgId = msgNatDetectRsp ∧ 3 ≤ n ∧ size < 37) ∧
      ¬(msgId = msgProxyRelayData ∧ RelayedOverlong s m n size) := by
  have hpayload {rs : Bytes → List Access} (h : ∀ p : Bytes, Within p.length (rs p)) :
      Within size (rs (m.read 0 n)) := by
    have hw := h (m.read 0 n)
    rw [Memory.read_length] at hw
    exact hw.mono hsize
  -- a message other than the two
  have hother {id : UInt8} (hd : id ≠ msgNatDetectRsp) (hr : id ≠ msgProxyRelayData) {rs rest : List Access}
      (hw : Within size rs) (hrest : Within size rest ↔ ¬(msgId = msgNatDetectRsp ∧ 3 ≤ n ∧ size < 37) ∧
        ¬(msgId = msgProxyRelayData ∧ RelayedOverlong s m n size)) :
      Within size (if msgId = id then rs else rest) ↔ ¬(msgId = msgNatDetectRsp ∧ 3 ≤ n ∧ size < 37) ∧
        ¬(msgId = msgProxyRelayData ∧ RelayedOverlong s m n size) := by
    by_cases hid : msgId = id
    · rw [if_pos hid]
      exact iff_of_true hw ⟨fun hc => hd (hid.symm.trans hc.1), fun hc => hr (hid.symm.trans hc.1)⟩
    · rwa [if_neg hid]
  unfold protoReads
  refine hother (by decide) (by decide) (hpayload heartbeatRspReads_within) ?_
  refine hother (by decide) (by decide) (hpayload heartbeatRspEncReads_within) ?_
  refine hother (by decide) (by decide) (hpayload authChallengeRspReads_within) ?_
  refine hother (by decide) (by decide) (hpayload resultReads_within) ?_
  by_cases hdetect : msgId = msgNatDetectRsp
  · have hne : msgNatDetectRsp ≠ msgProxyRelayData := by decide
    subst hdetect
    rw [if_pos rfl, feedReads_within]
    constructor
    · exact fun h => ⟨fun hc => by omega, fun hc => hne hc.1⟩
    · intro h
      have hno : ¬(3 ≤ n ∧ size < 37) := fun hc => h.1 ⟨rfl, hc⟩
      omega
  rw [if_neg hdetect]
  refine hother (by decide) (by decide) (hpayload (structReads_within _)) ?_
  refine hother (by decide) (by decide) (hpayload (structReads_within _)) ?_
  refine hother (by decide) (by decide) (hpayload iceSdpReads_within) ?_
  refine hother (by decide) (by decide) (hpayload resultReads_within) ?_
  by_cases hrelay : msgId = msgProxyRelayData
  · rw [if_pos hrelay, relayDataReads_within hsize]
    tauto
  · rw [if_neg hrelay]
    exact iff_of_true Access.within_nil ⟨fun hc => hdetect hc.1, fun hc => hrelay hc.1⟩

def payloadLen (h : WireHead) (len : ℕ) : ℕ := if h.length.toNat ≤ len - 8 then h.length.toNat else 0

theorem codecReadHead_short {len : ℕ} (h : len < 8) : codecReadHead (m.read 0 len) = none := by
  cases hc : codecReadHead (m.read 0 len) with
  | none => rfl
  | some x =>
    have hlen := length_of_codecReadHead hc
    rw [Memory.read_length] at hlen
    omega

theorem codecReadHead_reads {len : ℕ} (hl : 8 ≤ len) (h : m'.read 0 8 = m.read 0 8) :
    codecReadHead (m'.read 0 len) = codecReadHead (m.read 0 len) := by
  obtain ⟨k, rfl⟩ := Nat.exists_eq_add_of_le hl
  have hcut (x : Memory) : codecReadHead (x.read 0 (8 + k)) = codecReadHead (x.read 0 8) := by
    have hhead : x.read 0 8 = [x 0, x 1, x 2, x 3, x 4, x 5, x 6, x 7] := rfl
    rw [Memory.read_add, hhead]
    rfl
  rw [hcut, hcut, h]

/-- A datagram has no more effect than the bytes that are read. -/
theorem handlePacket_reads (env : Env) {len : ℕ} {src : Addr} (h : Agree (packetReads m len src s) m m') :
    handlePacket env m' len src s = handlePacket env m len src s := by
  unfold packetReads at h
  rw [Access.agree_append] at h
  have hhead : codecReadHead (m'.read 0 len) = codecReadHead (m.read 0 len) := by
    rcases Nat.lt_or_ge len 8 with hl | hl
    · rw [codecReadHead_short hl, codecReadHead_short hl]
    · rw [if_neg (by omega), Access.agree_cons] at h
      exact codecReadHead_reads hl h.1.1
  unfold handlePacket
  rw [hhead]
  cases hh : codecReadHead (m.read 0 len) with
  | some x =>
    rw [hh, Access.agree_shift] at h
    exact handleProto_reads env x.msgId h.2
  | none =>
    rw [hh] at h
    have h := h.2
    dsimp only at h ⊢
    by_cases hl : len ≥ 2
    · rw [if_pos hl, Access.agree_cons] at h
      have hmagic : rd16 (m' 0) (m' 1) = rd16 (m 0) (m 1) := rd16_of_read h.1
      rw [hmagic]
      by_cases ht : rd16 (m 0) (m 1) = tunnelMagic
      · rw [if_pos ht] at h
        rw [if_pos ⟨hl, ht⟩, if_pos ⟨hl, ht⟩]
        cases hp : s.addrToPeer[addrKey src]? with
        | none => rfl
        | some peer =>
          rw [hp] at h
          have hreads := h.2
          dsimp only at hreads
          rw [← tunnelReads_setConn peer peer (connAt s peer)] at hreads
          simp only [onDirectFrame, andThen, Effects.modify, onTunnelFrame_reads env peer hreads]
      · rw [if_neg fun hc => ht hc.2, if_neg fun hc => ht hc.2]
    · rw [if_neg fun hc => hl hc.1, if_neg fun hc => hl hc.1]

/-- The datagrams that are read past their end: an answer to a NAT probe that is too short for its
fields, and an encrypted frame, relayed or direct, that states more than has arrived. -/
inductive Overreads (m : Memory) (len : ℕ) (src : Addr) (s : P2PClient) : Prop
  | detect {h : WireHead} (head : codecReadHead (m.read 0 len) = some h) (id : h.msgId = msgNatDetectRsp)
      (short : 3 ≤ payloadLen h len ∧ len < 45)
  | relayed {h : WireHead} (head : codecReadHead (m.read 0 len) = some h) (id : h.msgId = msgProxyRelayData)
      (frame : RelayedOverlong s (m.offset 8) (payloadLen h len) (len - 8))
  | direct {peer : Bytes} (head : codecReadHead (m.read 0 len) = none) (magic : rd16 (m 0) (m 1) = tunnelMagic)
      (known : s.addrToPeer[addrKey src]? = some peer) (frame : Overlong s peer m len len)

theorem packetReads_within {len : ℕ} {src : Addr} :
    Within len (packetReads m len src s) ↔ ¬Overreads m len src s := by
  have hfirst : Within len (if len < 8 then [] else [⟨0, 8⟩]) := by
    split
    · exact Access.within_nil
    · simp
      omega
  unfold packetReads
  rw [Access.within_append, and_iff_right hfirst]
  cases hh : codecReadHead (m.read 0 len) with
  | some h =>
    have hlen := length_of_codecReadHead hh
    rw [Memory.read_length] at hlen
    obtain ⟨k, rfl⟩ := Nat.exists_eq_add_of_le hlen
    have hfit : payloadLen h (8 + k) ≤ k := by
      unfold payloadLen
      split <;> omega
    dsimp only
    rw [Access.within_shift]
    change Within k (protoReads h.msgId (m.offset 8) (payloadLen h (8 + k)) s) ↔ _
    rw [protoReads_within _ hfit]
    constructor
    · rintro ⟨hdetect, hrelay⟩ hover
      cases hover with
      | detect head id short =>
        obtain rfl := Option.some.inj (head.symm.trans hh)
        exact hdetect ⟨id, short.1, by omega⟩
      | relayed head id frame =>
        obtain rfl := Option.some.inj (head.symm.trans hh)
        rw [Nat.add_sub_cancel_left] at frame
        exact hrelay ⟨id, frame⟩
      | direct head => cases head.symm.trans hh
    · intro hno
      refine ⟨fun hc => hno (.detect hh hc.1 ⟨hc.2.1, by omega⟩), fun hc => hno (.relayed hh hc.1 ?_)⟩
      rw [Nat.add_sub_cancel_left]
      exact hc.2
  | none =>
    have hframe (hover : Overreads m len src s) : ∃ peer, s.addrToPeer[addrKey src]? = some peer ∧
        rd16 (m 0) (m 1) = tunnelMagic ∧ Overlong s peer m len len := by
      cases hover with
      | detect head => cases head.symm.trans hh
      | relayed head => cases head.symm.trans hh
      | direct _ magic known frame => exact ⟨_, known, magic, frame⟩
    dsimp only
    by_cases hl : len ≥ 2
    · rw [if_pos hl, Access.within_cons, and_iff_right (.inr hl)]
      by_cases ht : rd16 (m 0) (m 1) = tunnelMagic
      · rw [if_pos ht]
        cases hp : s.addrToPeer[addrKey src]? with
        | none =>
          refine iff_of_true Access.within_nil fun hover => ?_
          obtain ⟨peer, hpeer, -⟩ := hframe hover
          cases hpeer.symm.trans hp
        | some peer =>
          dsimp only
          rw [tunnelReads_within peer le_rfl]
          refine ⟨fun hno hover => ?_, fun hno hover => hno (.direct hh ht hp hover)⟩
          obtain ⟨peer', hpeer, -, hover⟩ := hframe hover
          obtain rfl := Option.some.inj (hpeer.symm.trans hp)
          exact hno hover
      · rw [if_neg ht]
        exact iff_of_true Access.within_nil fun hover => ht (hframe hover).choose_spec.2.1
    · rw [if_neg hl]
      refine iff_of_true Access.within_nil fun hover => ?_
      have hhead := (hframe hover).choose_spec.2.2.head
      omega

/-- The client reads only what it received, and nothing else has an effect, except of the datagrams
that are read past their end. -/
theorem reads_received_iff (m : Memory) (len : ℕ) (src : Addr) (s : P2PClient) :
    (Within len (packetReads m len src s) ∧ ∀ env m', (∀ i < len, m' i = m i) →
      handlePacket env m' len src s = handlePacket env m len src s) ↔ ¬Overreads m len src s := by
  rw [packetReads_within, and_iff_left_iff_imp]
  exact fun h env m' hm => handlePacket_reads env ((packetReads_within.mpr h).agree hm)

/-- The message is followed by `rest` in the buffer. -/
def received (id : UInt8) (payload : Bytes) (rest : UInt8) : Memory :=
  .ofBytes (NatServer.datagram id payload) fun _ => rest

def detecting : P2PClient :=
  let cfg : Config := { uuid := [0x75], natServers := [⟨inetNtop 0x0A000008, 3000⟩] }
  let started := client.next { cfg := cfg } ({}, .start cfg)
  client.next started ({}, .packet (received msgHeartbeatRsp (List.replicate 39 0) 0) 47 ⟨0x0A000008, 3000⟩)

theorem detecting_reachable : Reachable client detecting :=
  Reach.step (S := client) (.step (.start ⟨_, _, rfl⟩) trivial trivial) (by decide +kernel) trivial

/-- An answer of 11 bytes sets the mapped port to what stands behind it in the buffer. -/
theorem short_answer : ¬∀ s, Reachable client s → s.running = true → ∀ m len src, len ≤ maxPkt →
    Within len (packetReads m len src s) ∧ ∀ env m', (∀ i < len, m' i = m i) →
      handlePacket env m' len src s = handlePacket env m len src s := by
  intro hall
  have h := (hall detecting detecting_reachable (by decide +kernel) (received msgNatDetectRsp [0, 0, 0] 0) 11
    ⟨0x0A000008, 3000⟩ (by decide)).2 {} (received msgNatDetectRsp [0, 0, 0] 1) (by decide +kernel)
  have hport := congrArg (fun r => r.1.natDetect.mappedPortMain) h
  revert hport
  decide +kernel

end P2PServer.P2PClient
