import P2PServer.SdpExchange

/-! The way of an ICE description from one client through the server to another. The limit of
4096 bytes for the text is not the one that counts: each datagram has at most 2048. -/
namespace P2PServer.SdpExchange
open ByteStrings ProtoDef Net NatServer Effects Transitions ServerRun
open P2PClient (descriptionOf sendIceSdp protoOf protoOf_of_readDatagram)

/-- The message that `send_ice_sdp` builds. -/
def iceSdpMsg (peer sdp : Bytes) : Bytes :=
  let n := min sdp.length 4096
  uuidField peer ++ [0] ++ be16 (UInt16.ofNat n) ++ padded (n + 1) (sdp.take n)

/-- The description is sent, goes on to the address of its destination, and is read there. -/
def Carried (uuid sdp : Bytes) (dst : Peer) (c : P2PClient) (env : Env) (src : Addr) (s : NatServer) : Prop :=
  ∃ payload data, (sendIceSdp uuid sdp c).2 = [.proto c.natSock msgIceSdp payload] ∧
    (handlePacket env (datagram msgIceSdp payload) src s).2 = [.send dst.pubAddr data] ∧
    ∀ m : Memory, m.read 0 data.length = data →
      ∃ q, protoOf m data.length = some (msgIceSdp, q) ∧ descriptionOf q = some sdp

variable {uuid sdp : Bytes}

theorem iceSdpMsg_eq (h : sdp.length ≤ 4096) :
    iceSdpMsg uuid sdp = uuidField uuid ++ ([0] ++ (be16 (UInt16.ofNat sdp.length) ++ (sdp ++ [0]))) := by
  have hpad : padded (sdp.length + 1) sdp = sdp ++ [0] := by simp [padded]
  simp [iceSdpMsg, Nat.min_eq_left h, hpad]

theorem iceSdpMsg_length (uuid : Bytes) (h : sdp.length ≤ 4096) : (iceSdpMsg uuid sdp).length = 37 + sdp.length := by
  rw [iceSdpMsg_eq h]
  simp
  omega

theorem sdpLen_iceSdpMsg (h : sdp.length ≤ 4096) : (u16At (iceSdpMsg uuid sdp) 34).toNat = sdp.length := by
  have d0 : (iceSdpMsg uuid sdp).drop 0 = _ := iceSdpMsg_eq h
  have d33 := drop_past d0 (j := 33) (by rw [uuidField_length])
  have d34 := drop_past d33 (j := 34) rfl
  rw [u16At_of_drop d34, UInt16.toNat_ofNat']
  omega

theorem descriptionOf_iceSdpMsg (h : sdp.length ≤ 4096) : descriptionOf (iceSdpMsg uuid sdp) = some sdp := by
  have d0 : (iceSdpMsg uuid sdp).drop 0 = _ := iceSdpMsg_eq h
  have d33 := drop_past d0 (j := 33) (by rw [uuidField_length])
  have d34 := drop_past d33 (j := 34) rfl
  have d36 := drop_past d34 (j := 36) rfl
  have hlen := iceSdpMsg_length uuid h
  have hsize : iceSdpHead = 37 := rfl
  unfold descriptionOf
  rw [sdpLen_iceSdpMsg h, if_neg (by omega), window_of_drop d36 rfl]

theorem uuidAt_iceSdpMsg (h : sdp.length ≤ 4096) :
    uuidAt ((iceSdpMsg uuid sdp).set maxUuidLen 0) 0 = (cstr uuid).take maxUuidLen := by
  have hset : uuidAt ((iceSdpMsg uuid sdp).set maxUuidLen 0) 0 = uuidAt (iceSdpMsg uuid sdp) 0 := by
    unfold uuidAt textAt
    rw [window_set _ (.inr (by decide))]
  rw [hset, iceSdpMsg_eq h, uuidAt_uuidField]

/-- The client sends a description only if it fits a datagram. -/
theorem sendIceSdp_out (c : P2PClient) (huuid : uuid ≠ []) (hne : sdp ≠ []) (h : sdp.length ≤ 4096) :
    (sendIceSdp uuid sdp c).2 =
      if sdp.length ≤ 2003 then [.proto c.natSock msgIceSdp (iceSdpMsg uuid sdp)] else [] := by
  have hsend : sendIceSdp uuid sdp c = P2PClient.sendProtoNat msgIceSdp (iceSdpMsg uuid sdp) c := by
    unfold sendIceSdp
    rw [if_neg (by simp [huuid, hne])]
    rfl
  have hlen := iceSdpMsg_length uuid h
  have hmax : maxPkt = 2048 := rfl
  rw [hsend, P2PClient.sendProtoNat, P2PClient.sendProto]
  by_cases hfit : sdp.length ≤ 2003
  · rw [if_neg (by omega), if_pos hfit]
    rfl
  · rw [if_pos (by omega), if_neg hfit]
    rfl

theorem onIceSdp_out {s : NatServer} {dst : Peer} (hget : s.peers.get ((cstr uuid).take maxUuidLen) = some dst)
    (h : sdp.length ≤ 2003) :
    (onIceSdp (iceSdpMsg uuid sdp) s).2 =
      [.send dst.pubAddr (datagram msgIceSdp ((iceSdpMsg uuid sdp).set maxUuidLen 0))] := by
  have h4096 : sdp.length ≤ 4096 := by omega
  have hlen := iceSdpMsg_length uuid h4096
  have hsize : iceSdpHead = 37 := rfl
  have hmax : maxPkt = 2048 := rfl
  have hat (i : ℕ) (hi : maxUuidLen < i) :
      byteAt ((iceSdpMsg uuid sdp).set maxUuidLen 0) i = byteAt (iceSdpMsg uuid sdp) i :=
    byteAt_set_ne _ (Nat.ne_of_lt hi) 0
  have hu16 : u16At ((iceSdpMsg uuid sdp).set maxUuidLen 0) 34 = u16At (iceSdpMsg uuid sdp) 34 := by
    rw [u16At, u16At, hat 34 (by decide), hat 35 (by decide)]
  unfold onIceSdp
  rw [if_neg (by omega)]
  dsimp only
  rw [hu16, sdpLen_iceSdpMsg h4096, List.length_set, if_neg (by omega), uuidAt_iceSdpMsg h4096, hget]
  dsimp only
  rw [sendMsg, List.length_set, if_neg (by omega)]
  rfl

/-- A description for a registered peer arrives unchanged exactly if it has at most 2003 bytes. -/
theorem carried_iff {s : NatServer} (hs : Reachable (server Started) s) {dst : Peer}
    (hreg : s.peers.get uuid = some dst) (hne : sdp ≠ []) (h4096 : sdp.length ≤ 4096) (c : P2PClient)
    (env : Env) (src : Addr) : Carried uuid sdp dst c env src s ↔ sdp.length ≤ 2003 := by
  have hproper := wellFiled_reach (fun _ h => h.wellFiled) hs uuid dst hreg
  have huuid : uuid ≠ [] := by
    rintro rfl
    exact absurd hproper.valid (by decide)
  constructor
  · rintro ⟨payload, data, hsent, -⟩
    rw [sendIceSdp_out c huuid hne h4096] at hsent
    by_contra hlong
    rw [if_neg hlong] at hsent
    cases hsent
  · intro hfit
    have hname : (cstr uuid).take maxUuidLen = uuid := by
      rw [hproper.text, List.take_of_length_le hproper.short]
    have hlen := iceSdpMsg_length uuid h4096
    have hread : readDatagram (datagram msgIceSdp (iceSdpMsg uuid sdp)) = some (msgIceSdp, iceSdpMsg uuid sdp) :=
      readDatagram_datagram msgIceSdp (by omega)
    have hback : readDatagram (datagram msgIceSdp ((iceSdpMsg uuid sdp).set maxUuidLen 0)) =
        some (msgIceSdp, (iceSdpMsg uuid sdp).set maxUuidLen 0) := by
      apply readDatagram_datagram
      rw [List.length_set]
      omega
    refine ⟨iceSdpMsg uuid sdp, datagram msgIceSdp ((iceSdpMsg uuid sdp).set maxUuidLen 0), ?_, ?_, ?_⟩
    · rw [sendIceSdp_out c huuid hne h4096, if_pos hfit]
    · rw [handlePacket_read hread]
      exact onIceSdp_out (hname.symm ▸ hreg) hfit
    · intro m hm
      refine ⟨_, protoOf_of_readDatagram (hm.symm ▸ hback), ?_⟩
      rw [descriptionOf_set, descriptionOf_iceSdpMsg h4096]

def registered : NatServer := (step {} (.packet {} heartbeat home.addr)).1

def homeRecord : Peer := ⟨home.uuid, home.addr, { home.addr with port := 0 }, 2, 0, 0, 0, 0, 0, []⟩

theorem registered_reachable : Reachable (server Started) registered :=
  reachable_step (Started.reachable ⟨rfl, rfl, rfl⟩) _

theorem registered_home : registered.peers.get home.uuid = some homeRecord := by decide +kernel

/-- A description of one byte. -/
theorem carried_short :
    Carried home.uuid [0x78] homeRecord (dialer peerTwo) {} ⟨0x0A000003, 5000⟩ registered ↔
      ([0x78] : Bytes).length ≤ 2003 :=
  carried_iff registered_reachable registered_home (by decide) (by decide) (dialer peerTwo) {} ⟨0x0A000003, 5000⟩

/-- A description of 2004 bytes is never sent. -/
theorem not_carried : ¬∀ (s : NatServer) (uuid sdp : Bytes) (dst : Peer) (c : P2PClient) (env : Env) (src : Addr),
    Reachable (server Started) s → s.peers.get uuid = some dst → sdp ≠ [] → sdp.length ≤ 4096 →
    Carried uuid sdp dst c env src s := by
  intro h
  have hlen : (List.replicate 2004 (0x78 : UInt8)).length = 2004 := List.length_replicate
  have hne : List.replicate 2004 (0x78 : UInt8) ≠ [] := List.cons_ne_nil 0x78 (List.replicate 2003 0x78)
  obtain ⟨payload, data, hsent, -⟩ := h registered home.uuid (List.replicate 2004 0x78) homeRecord (dialer peerTwo)
    {} ⟨0x0A000003, 5000⟩ registered_reachable registered_home hne (by omega)
  rw [sendIceSdp_out _ (by decide) hne (by omega), hlen, if_neg (by decide)] at hsent
  cases hsent

end P2PServer.SdpExchange
