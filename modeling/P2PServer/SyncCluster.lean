import P2PServer.RecvProcess

/-! Servers that keep their registries in step. A cluster gives every server its own
address, and the datagrams a server sends become packets on the network. -/
namespace P2PServer.SyncCluster
open ByteStrings ProtoDef Net NatServer Effects

structure Packet where
  src : Addr
  dst : Addr
  data : Bytes
  deriving DecidableEq, Repr

/-- What a server at `src` puts on the network. -/
def packets (src : Addr) (outs : List Out) : List Packet :=
  outs.filterMap fun
    | .send dst data => some ⟨src, dst, data⟩
    | .writeFile _ _ => none

@[simp] theorem packets_map_send (src : Addr) (data : Bytes) (as : List Addr) :
    packets src (as.map fun a => .send a data) = as.map fun a => ⟨src, a, data⟩ := by
  simp only [packets, List.filterMap_map]
  exact congrFun List.filterMap_eq_map as

theorem mem_packets {src : Addr} {outs : List Out} {q : Packet} (h : q ∈ packets src outs) :
    Out.send q.dst q.data ∈ outs := by
  unfold packets at h
  obtain ⟨o, ho, hq⟩ := List.mem_filterMap.mp h
  cases o with
  | send dst data =>
    cases hq
    exact ho
  | writeFile => cases hq

def syncMessages : List UInt8 := [msgSyncPeerEntry, msgSyncPeerDel, msgSyncSnapshotReq]

def isSync (data : Bytes) : Bool :=
  match readDatagram data with
  | some (msgId, _) => syncMessages.contains msgId
  | none => false

structure Cluster (ι : Type) where
  addr : ι → Addr
  addr_injective : Function.Injective addr

/-- Servers and what they have put on the network. -/
structure Network (ι : Type) where
  servers : ι → NatServer
  sent : List Packet

/-- Server `j` performs an action, and what it sends joins the network. -/
def Network.act {ι : Type} [DecidableEq ι] (n : Network ι) (C : Cluster ι) (j : ι) (f : Action) : Network ι where
  servers := Function.update n.servers j (f (n.servers j)).1
  sent := n.sent ++ packets (C.addr j) (f (n.servers j)).2

theorem neZero_two : NeZero 2 := ⟨two_ne_zero⟩

theorem length_le_signed (secret payload : Bytes) :
    payload.length ≤ (signed secret payload).length := by
  unfold signed
  split <;> simp

theorem syncVerify_signed (secret payload : Bytes) :
    syncVerify secret (signed secret payload) payload.length = true := by
  unfold syncVerify signed
  by_cases h : secret.isEmpty = true
  · simp [h]
  · simp [h, window]

theorem signed_length_le (secret payload : Bytes) :
    (signed secret payload).length ≤ payload.length + 32 := by
  unfold signed
  split <;> simp

theorem broadcastSyncMsg_eq (msgId : UInt8) {payload : Bytes} (h : payload.length ≤ 2008)
    (except : Addr) (s : NatServer) :
    broadcastSyncMsg msgId payload (some except) s =
      (s, (s.syncAddrs.filter fun a => a ≠ except).map fun a =>
        .send a (datagram msgId (signed s.cfg.syncAuthSecret payload))) := by
  have hl := signed_length_le s.cfg.syncAuthSecret payload
  have hround : ∀ a, (if some except = some a then skip else syncSendMsg a msgId payload) s =
      (s, if a ≠ except then
        [.send a (datagram msgId (signed s.cfg.syncAuthSecret payload))] else []) := by
    intro a
    by_cases ha : a = except
    · simp [ha, skip]
    · have hb : ¬some except = some a := fun hc => ha (Option.some.inj hc).symm
      simp only [hb, if_false, ha, ne_eq, not_false_eq_true, if_true]
      unfold syncSendMsg sendMsg maxPkt
      rw [if_neg (by omega), if_neg (by omega)]
      rfl
  unfold broadcastSyncMsg
  rw [forEach_eq s.syncAddrs hround]
  induction s.syncAddrs with
  | nil => rfl
  | cons a as ih => by_cases ha : a = except <;> simp_all

def deletion (s : NatServer) (uuid : Bytes) : Bytes :=
  signed s.cfg.syncAuthSecret (syncPeerDel uuid)

theorem deletion_peers (s : NatServer) (m : PeerManager) (uuid : Bytes) :
    deletion { s with peers := m } uuid = deletion s uuid := rfl

/-- Server `s` acts on the deletion with this payload. -/
def accepts (s : NatServer) (payload : Bytes) : Bool :=
  s.syncEnabled && (decide (syncPeerDelSize ≤ payload.length) &&
    syncVerify s.cfg.syncAuthSecret payload syncPeerDelSize)

theorem onSyncPeerDel_eq (payload : Bytes) (src : Addr) (s : NatServer) :
    onSyncPeerDel payload src s =
      if accepts s payload then
        ({ s with peers := (s.peers.remove (uuidAt payload 0)).2 },
          (s.syncAddrs.filter fun a => a ≠ src).map fun a =>
            .send a (datagram msgSyncPeerDel (deletion s (uuidAt payload 0))))
      else (s, []) := by
  unfold onSyncPeerDel accepts handleSyncDel
  by_cases hl : payload.length < syncPeerDelSize
  · have hd : ¬syncPeerDelSize ≤ payload.length := by omega
    simp [hl, hd]
  · have hd : syncPeerDelSize ≤ payload.length := by omega
    have hlen : (syncPeerDel (uuidAt payload 0)).length ≤ 2008 := by simp [syncPeerDel]
    have hb := broadcastSyncMsg_eq msgSyncPeerDel hlen src s
    cases hv : syncVerify s.cfg.syncAuthSecret payload syncPeerDelSize <;>
      cases he : s.syncEnabled <;> simp [hl, hd, andThen, Effects.modify, hb, deletion]

end P2PServer.SyncCluster
