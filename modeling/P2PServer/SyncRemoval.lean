import P2PServer.ServerRun

/-! Removals and their propagation. Records leave the registry in three places: the
timer and `handle_sync_del` tell the other servers, `MSG_DELETE_UID_REQ` does not. -/
namespace P2PServer.SyncRemoval
open ByteStrings ProtoDef Net NatServer SyncCluster Registry PacketCases ServerRun Transitions

/-- The datagram is a deletion of `u`: every server that synchronises under this secret
and handles it does not have `u` afterwards. -/
def Deletes (secret data u : Bytes) : Prop :=
  (∃ p, readDatagram data = some (msgSyncPeerDel, p) ∧ uuidAt p 0 = u) ∧
    ∀ (t : NatServer) env src, t.syncEnabled = true → t.cfg.syncAuthSecret = secret →
      (handlePacket env data src t).1.peers.existsPeer u = false

/-- Where a removal comes from. -/
def source : Event → Option Addr
  | .packet _ _ src => some src
  | .timer _ _ _ _ _ => none

/-- If the step removes `u`, it sends a deletion of `u` to all sync peers but the source. -/
def Propagates (s : NatServer) (e : Event) (u : Bytes) : Prop :=
  s.peers.existsPeer u = true → (step s e).1.peers.existsPeer u = false →
    ∀ a ∈ s.syncAddrs, source e ≠ some a →
      ∃ data, Out.send a data ∈ (step s e).2 ∧ Deletes s.cfg.syncAuthSecret data u

/-- The step is a request to delete `u`, which is registered here, and there is a sync
peer beside the one that asks. -/
def Requested (s : NatServer) (u : Bytes) : Event → Prop
  | .packet _ data src => s.peers.existsPeer u = true ∧ (∃ a ∈ s.syncAddrs, a ≠ src) ∧
      ∃ p, readDatagram data = some (msgDeleteUidReq, p) ∧ deleteUuid p = u
  | .timer _ _ _ _ _ => False

theorem deletes_deletion (s : NatServer) {u : Bytes} (hv : PeerManager.validUuid u = true)
    (htext : cstr u = u) :
    Deletes s.cfg.syncAuthSecret (datagram msgSyncPeerDel (deletion s u)) u := by
  have hlen : u.length ≤ maxUuidLen := by
    simp only [PeerManager.validUuid, Bool.not_eq_true', Bool.or_eq_false_iff,
      decide_eq_false_iff_not] at hv
    omega
  have hsl := length_le_signed s.cfg.syncAuthSecret (syncPeerDel u)
  have hsu := signed_length_le s.cfg.syncAuthSecret (syncPeerDel u)
  simp only [syncPeerDel, uuidField_length] at hsl hsu
  have hread : readDatagram (datagram msgSyncPeerDel (deletion s u)) =
      some (msgSyncPeerDel, deletion s u) :=
    readDatagram_datagram msgSyncPeerDel (by unfold deletion syncPeerDel; omega)
  have huuid : uuidAt (deletion s u) 0 = u := by
    have happ : ∃ rest, deletion s u = uuidField u ++ rest := by
      unfold deletion signed syncPeerDel
      split
      · exact ⟨[], (List.append_nil _).symm⟩
      · exact ⟨_, rfl⟩
    obtain ⟨rest, hrest⟩ := happ
    rw [hrest, uuidAt_uuidField, htext, List.take_of_length_le hlen]
  refine ⟨⟨_, hread, huuid⟩, fun t env src hon hsec => ?_⟩
  have hacc : accepts t (deletion s u) = true := by
    have hver := syncVerify_signed s.cfg.syncAuthSecret (syncPeerDel u)
    rw [syncPeerDel, uuidField_length] at hver
    have hge : syncPeerDelSize ≤ (deletion s u).length := hsl
    simp only [accepts, hon, hge, decide_true, Bool.true_and, hsec]
    exact hver
  rw [handlePacket_del hread, onSyncPeerDel_eq, if_pos hacc, huuid]
  simp [PeerManager.existsPeer, PeerManager.remove]

theorem propagates_timer {s : NatServer} (hwf : s.peers.WellFiled) (env : Env)
    (proxyDue snapDue saved : Bool) (reloaded : Option CfgData) (u : Bytes) :
    Propagates s (.timer env proxyDue snapDue saved reloaded) u := by
  intro hin hout a ha _
  obtain ⟨r, hr⟩ := (PeerManager.existsPeer_iff _ _).mp hin
  have hprop := hwf u r hr
  have hdel := deletes_deletion s hprop.valid hprop.text
  refine ⟨_, ?_, hdel⟩
  have htimed : PeerManager.timedOut 90 env.now r = true := by
    by_contra hc
    have hkept : (timerPass env proxyDue snapDue saved reloaded s).1.peers.existsPeer u = true := by
      rw [timerPass_peers, PeerManager.existsPeer_iff]
      have hget := PeerManager.cleanup_get s.peers u env.now
      rw [hr, Option.filter_some, if_pos (by simpa using hc)] at hget
      exact ⟨r, hget⟩
    rw [step, hkept] at hout
    cases hout
  have hkey : u ∈ (s.peers.cleanupTimeoutAndCollect 90 env.now).1 := by
    have hget := TreeMaps.filter_get s.peers.peers (fun p => PeerManager.timedOut 90 env.now p) u
    rw [hr, Option.filter_some, if_pos htimed] at hget
    rw [PeerManager.cleanupTimeoutAndCollect, Std.ExtTreeMap.mem_keys,
      Std.ExtTreeMap.mem_iff_isSome_getElem?, hget]
    rfl
  obtain ⟨-, queries, -, hsent⟩ := timerPass_spec env proxyDue snapDue saved reloaded s
  rw [step, hsent]
  refine List.mem_append_left _ (List.mem_flatMap.mpr ⟨u, hkey, List.mem_flatMap.mpr ⟨a, ha, ?_⟩⟩)
  have hlen : (syncPeerDel u).length ≤ 2008 := by simp [syncPeerDel]
  rw [if_neg (by simp), syncOut_eq s.cfg.syncAuthSecret msgSyncPeerDel hlen]
  exact List.mem_singleton.mpr rfl

theorem propagates_del {s : NatServer} (hwf : s.peers.WellFiled) {env : Env} {data p : Bytes}
    {src : Addr} (hread : readDatagram data = some (msgSyncPeerDel, p)) (u : Bytes) :
    Propagates s (.packet env data src) u := by
  intro hin hout a ha hsrc
  obtain ⟨r, hr⟩ := (PeerManager.existsPeer_iff _ _).mp hin
  have hprop := hwf u r hr
  have hne : a ≠ src := fun hc => hsrc (congrArg some hc.symm)
  refine ⟨_, ?_, deletes_deletion s hprop.valid hprop.text⟩
  rw [step, handlePacket_del hread, onSyncPeerDel_eq] at hout ⊢
  split at hout
  · rename_i hacc
    rw [if_pos hacc]
    have hu : uuidAt p 0 = u := by
      by_contra hc
      have hstill : (s.peers.remove (uuidAt p 0)).2.existsPeer u = true := by
        rw [PeerManager.existsPeer_iff, PeerManager.remove_get, if_neg fun h => hc h.symm]
        exact ⟨r, hr⟩
      rw [hstill] at hout
      cases hout
    rw [hu]
    refine List.mem_map.mpr ⟨a, List.mem_filter.mpr ⟨ha, ?_⟩, rfl⟩
    simpa using hne
  · rw [hin] at hout
    cases hout

/-- The other datagrams remove nothing, apart from requests to delete. -/
theorem existsPeer_packet {s : NatServer} {env : Env} {data : Bytes} {src : Addr} {u : Bytes}
    (hin : s.peers.existsPeer u = true)
    (hout : (handlePacket env data src s).1.peers.existsPeer u = false) :
    (∃ p, readDatagram data = some (msgSyncPeerDel, p)) ∨
      ∃ p, readDatagram data = some (msgDeleteUidReq, p) ∧ deleteUuid p = u := by
  obtain ⟨r, hr⟩ := (PeerManager.existsPeer_iff _ _).mp hin
  have gone {m : PeerManager} (hm : m.existsPeer u = false) : m.peers[u]? = none := by
    cases hx : m.peers[u]? with
    | none => rfl
    | some x =>
      rw [(PeerManager.existsPeer_iff m u).mpr ⟨x, hx⟩] at hm
      cases hm
  have hf := handlePacket_filed env data src s
  generalize (handlePacket env data src s).1.peers = m at hf hout
  have hm := gone hout
  cases hf with
  | kept =>
    rw [hr] at hm
    cases hm
  | heartbeat =>
    rw [PeerManager.upsert_get] at hm
    split at hm
    · cases hm
    · rw [hr] at hm
      cases hm
  | report =>
    rw [PeerManager.upsert_get] at hm
    split at hm
    · cases hm
    · rw [hr] at hm
      cases hm
  | login =>
    rw [PeerManager.setAuthExpire_get, hr] at hm
    split at hm <;> cases hm
  | @delete p hread =>
    rw [PeerManager.remove_get] at hm
    split at hm
    · rename_i hu
      exact .inr ⟨p, hread, hu.symm⟩
    · rw [hr] at hm
      cases hm
  | entry =>
    rw [stored, PeerManager.upsertSynced_get] at hm
    split at hm
    · cases hm
    · rw [hr] at hm
      cases hm
  | @del p hread => exact .inl ⟨p, hread⟩

theorem handlePacket_deleteUid {env : Env} {data p : Bytes} {src : Addr} {s : NatServer}
    (hread : readDatagram data = some (msgDeleteUidReq, p)) :
    handlePacket env data src s = onDeleteUidReq env p s := handlePacket_read hread

theorem onDeleteUidReq_silent (env : Env) (p : Bytes) (s : NatServer) (dst : Addr) (data : Bytes) :
    Out.send dst data ∉ (onDeleteUidReq env p s).2 := by
  unfold onDeleteUidReq saveLicense
  dsimp only
  split
  · split <;> simp
  · simp

/-- In every reachable state of a server that synchronises, a step propagates the removal
of `u` if and only if it is not a request to delete it that another sync peer would have to
hear of. -/
theorem propagates_iff {s : NatServer} (hreach : Reachable (server Started) s)
    (e : Event) (u : Bytes) :
    Propagates s e u ↔ ¬Requested s u e := by
  have hwf : s.peers.WellFiled := wellFiled_reach (fun _ h0 => h0.wellFiled) hreach
  cases e with
  | timer env proxyDue snapDue saved reloaded =>
    exact iff_of_true (propagates_timer hwf env proxyDue snapDue saved reloaded u) id
  | packet env data src =>
    constructor
    · rintro h ⟨hin, ⟨a, ha, hne⟩, p, hread, hu⟩
      have hout : (handlePacket env data src s).1.peers.existsPeer u = false := by
        have hp := congrArg Core.peers (onDeleteUidReq_core env p s)
        simp only [core] at hp
        rw [handlePacket_deleteUid hread, hp, hu]
        simp [PeerManager.existsPeer, PeerManager.remove]
      have hsrc : source (.packet env data src) ≠ some a := fun hc => hne (Option.some.inj hc).symm
      obtain ⟨d, hd, -⟩ := h hin hout a ha hsrc
      rw [step, handlePacket_deleteUid hread] at hd
      exact onDeleteUidReq_silent env p s a d hd
    · intro h hin hout a ha hsrc
      rcases existsPeer_packet hin hout with ⟨p, hread⟩ | ⟨p, hread, hu⟩
      · exact propagates_del hwf hread u hin hout a ha hsrc
      · have hne : a ≠ src := fun hc => hsrc (congrArg some hc.symm)
        exact absurd ⟨hin, ⟨a, ha, hne⟩, p, hread, hu⟩ h

open Samples (uuidU addr2 host)

def withU : NatServer :=
  (step { syncOn := true, syncAddrs := [addr2] }
    (.packet {} (datagram msgHeartbeatReq (uuidField uuidU ++ List.replicate 10 0)) host)).1

theorem withU_reachable : Reachable (server Started) withU :=
  reachable_step (Started.reachable ⟨rfl, rfl, rfl⟩) _

theorem propagates_iff_timeout :
    Propagates withU (.timer { now := 91 } false false false none) uuidU :=
  (propagates_iff withU_reachable _ uuidU).mpr id

/-- A deleted uuid stays registered on the other servers. -/
theorem deleted_not_propagated : ¬∀ s, Reachable (server Started) s → s.syncEnabled = true →
    ∀ e u, Propagates s e u := by
  intro h
  have hread : readDatagram (datagram msgDeleteUidReq (uuidField uuidU)) =
      some (msgDeleteUidReq, uuidField uuidU) := readDatagram_datagram msgDeleteUidReq (by decide)
  have hp := h withU withU_reachable (by decide +kernel)
    (.packet {} (datagram msgDeleteUidReq (uuidField uuidU)) host) uuidU (by decide +kernel)
    (by decide +kernel) addr2 (by decide +kernel) (by decide)
  obtain ⟨d, hd, -⟩ := hp
  rw [step, handlePacket_deleteUid hread] at hd
  exact onDeleteUidReq_silent _ _ _ _ _ hd

end P2PServer.SyncRemoval
