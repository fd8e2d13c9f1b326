import P2PServer.EntryTransport
import P2PServer.RegistryHistory

/-! A snapshot of the registry: the request, the answer with one entry for every record, and what the
answer makes of the registry that asked. Whatever the two have missed of each other before, every record of
the answering server is known to the other once its entry has come in. -/
namespace P2PServer.SnapshotRepair
open ByteStrings ProtoDef Net NatServer PeerManager PacketCases ServerRun SyncCluster EntryBytes SyncOutputs Transitions
open EntryTransport (entryOfRecord entryDatagram entryDatagram_read entryOf_entryBody entryPub_record entryLan_record)
open Expiry Registry RegistryHistory
open SyncConvergence (content)

/-- The difference of two clock readings that are at most 300 seconds apart survives in 32 bits. -/
theorem skew_small {a b : ℤ} (h : |a - b| ≤ 300) :
    ¬((time32 a - time32 b).toInt32 < -300 ∨ (time32 a - time32 b).toInt32 > 300) := by
  obtain ⟨hlo, hhi⟩ := abs_le.mp h
  have hval : (time32 a - time32 b).toInt32.toInt = a - b := by
    have hn : (time32 a - time32 b).toBitVec.toNat =
        (4294967296 - (b % 4294967296).toNat + (a % 4294967296).toNat) % 4294967296 := by
      change (time32 a - time32 b).toNat = _
      have ha : a % 4294967296 < 4294967296 := Int.emod_lt_of_pos _ (by decide)
      have hb : b % 4294967296 < 4294967296 := Int.emod_lt_of_pos _ (by decide)
      rw [UInt32.toNat_sub, time32, time32, UInt32.toNat_ofNat', UInt32.toNat_ofNat']
      change (4294967296 - (b % 4294967296).toNat % 4294967296 + (a % 4294967296).toNat % 4294967296) % 4294967296 = _
      omega
    change (time32 a - time32 b).toBitVec.toInt = a - b
    rw [BitVec.toInt_eq_toNat_cond, hn]
    omega
  have hl : (-300 : Int32).toInt = -300 := by decide
  have hr : (300 : Int32).toInt = 300 := by decide
  rw [Int32.lt_iff_toInt_lt, gt_iff_lt, Int32.lt_iff_toInt_lt, hval, hl, hr]
  omega

theorem snapshotOf_soon (secret : Bytes) {now asked : ℤ} (h : |now - asked| ≤ 300) :
    snapshotOf secret now (signed secret (be32 (time32 asked))) = some (time32 asked) := by
  obtain ⟨mac, hmac⟩ := signed_eq secret (be32 (time32 asked))
  have hlen := length_le_signed secret (be32 (time32 asked))
  have hv := syncVerify_signed secret (be32 (time32 asked))
  rw [be32_length] at hlen hv
  have hts : u32At (signed secret (be32 (time32 asked))) 0 = time32 asked :=
    u32At_of_drop (b := mac) (by rw [hmac, List.drop_zero])
  unfold snapshotOf
  rw [if_neg (by omega), hv, hts]
  exact if_neg (skew_small h)

theorem request_datagram {env : Env} {r : NatServer} {dst : Addr} {data : Bytes}
    (h : Out.send dst data ∈ (requestSyncSnapshot env r).2) :
    data = datagram msgSyncSnapshotReq (signed r.cfg.syncAuthSecret (be32 (time32 env.now))) := by
  rw [requestSyncSnapshot_eq] at h
  split at h
  · obtain ⟨a, -, -, ho⟩ := mem_broadcastOut.mp h
    rw [syncOut_eq r.cfg.syncAuthSecret msgSyncSnapshotReq (by rw [be32_length]; decide), List.mem_singleton,
      Out.send.injEq] at ho
    exact ho.2
  · cases h

/-- The entries of a snapshot. -/
def snapshotEntries (s : NatServer) : List Bytes :=
  s.peers.snapshot.map fun p => entryDatagram s.cfg.syncAuthSecret p syncHopSnap

theorem handlePacket_request {env ask : Env} {s r : NatServer} (hon : s.syncEnabled = true)
    (hsecret : r.cfg.syncAuthSecret = s.cfg.syncAuthSecret) (hsoon : |env.now - ask.now| ≤ 300) {dst src : Addr}
    {data : Bytes} (hasked : Out.send dst data ∈ (requestSyncSnapshot ask r).2) :
    (handlePacket env data src s).2 = (snapshotEntries s).map (Out.send src) := by
  obtain rfl := request_datagram hasked
  have hlen := signed_length_le r.cfg.syncAuthSecret (be32 (time32 ask.now))
  rw [be32_length] at hlen
  rw [handlePacket_read (readDatagram_datagram msgSyncSnapshotReq (by omega))]
  change (onSyncSnapshotReq env _ src s).2 = _
  rw [onSyncSnapshotReq_handed, hsecret, snapshotOf_soon _ hsoon, Option.elim_some, handleSyncSnapshotReq_eq, if_pos hon,
    snapshotEntries, List.map_map, List.map_eq_flatMap]
  refine List.flatMap_congr fun p _ => ?_
  have hbody := (entryBody_length p syncHopSnap).2
  rw [syncOut_eq s.cfg.syncAuthSecret msgSyncPeerEntry (by omega)]
  rfl

theorem mem_snapshot {m : PeerManager} {p : Peer} : p ∈ m.snapshot ↔ ∃ u : Bytes, m.peers[u]? = some p := by
  rw [snapshot]
  refine ⟨TreeMaps.mem_values, fun ⟨u, hu⟩ => ?_⟩
  rw [TreeMaps.values_eq]
  exact List.mem_map.mpr ⟨(u, p), Std.ExtTreeMap.mem_toList_iff_getElem?_eq_some.mpr hu, rfl⟩

/-- The datagram files the record under the uuid at every server that synchronises with this secret. -/
def Files (secret data u : Bytes) (r : Record) : Prop :=
  ∀ (env : Env) (src : Addr) (t : NatServer), t.syncEnabled = true → t.cfg.syncAuthSecret = secret →
    filed t (.packet env data src) = [(u, some r)]

/-- Once the datagram has come in, the record is found until it is more than 90 seconds old, unless
something else is filed under the uuid. -/
def Repairs (secret data u : Bytes) (r : Record) : Prop :=
  ∀ (t : ℤ × NatServer) (env : Env) (src : Addr) (es : List ServerRun.Event), t.2.peers.WellFiled →
    t.2.syncEnabled = true → t.2.cfg.syncAuthSecret = secret →
    Run servers (fun _ _ => True) t (.packet env data src :: es) →
    (∀ w ∈ history (servers.next t (.packet env data src)) es, w.1 = u → w.2 = some r) →
    ∀ now, ((ServerRun.Event.packet env data src :: es).foldl servers.next t).1 ≤ now → now - r.2 ≤ 90 →
      known ((ServerRun.Event.packet env data src :: es).foldl servers.next t).2.peers u = some r

theorem files_entry {u : Bytes} {p : Peer} (h : Proper u p) (hlo : 0 ≤ p.lastHeartbeat)
    (hhi : p.lastHeartbeat < 4294967296) (secret : Bytes) :
    Files secret (entryDatagram secret p syncHopSnap) u (content p, p.lastHeartbeat) := by
  intro env src t hon hsecret
  have hvalid : validUuid p.uuid = true := by
    rw [h.uuid]
    exact h.valid
  have hfresh : (t.syncEnabled && entryFresh env (entryOfRecord p syncHopSnap) src t) = true := by
    rw [hon, entryFresh]
    simpa [entryOfRecord] using hvalid
  have htime : ((time32 p.lastHeartbeat).toNat : ℤ) = p.lastHeartbeat := by
    rw [time32, UInt32.toNat_ofNat']
    have : p.lastHeartbeat.emod 4294967296 = p.lastHeartbeat := Int.emod_eq_of_lt hlo hhi
    omega
  rw [filed, entryDatagram_read]
  dsimp only
  rw [filings, heartbeatOf_other _ (by decide)]
  dsimp only
  rw [if_neg fun hid => absurd hid.1 (by decide), if_neg (by decide), if_pos rfl, hsecret, entryOf_entryBody h]
  dsimp only
  rw [replica, if_pos hfresh, entryPub_record, entryLan_record, ← h.uuid]
  change [(p.uuid, some (_, ((time32 p.lastHeartbeat).toNat : ℤ)))] = _
  rw [htime]
  rfl

theorem Files.repairs {secret data u : Bytes} {r : Record} (h : Files secret data u r) : Repairs secret data u r := by
  intro t env src es ht hon hsecret hr hsame now hnow hage
  have halive : visit.alive now r = true := by simpa [visit] using hage
  refine (run_known ht hr).found.2 ?_ (visit.early hnow halive)
  rw [history, written_append]
  refine written_same ?_ hsame
  rw [h env src t.2 hon hsecret]
  simp [written]

/-- A request for a snapshot that comes in at most 300 seconds off is answered with entries only. Each
files one record of the answering server as it is, and every record is in the answer. -/
theorem snapshot_repairs {s : NatServer} (hs : s.peers.WellFiled) (hon : s.syncEnabled = true)
    (htimes : ∀ u r, known s.peers u = some r → 0 ≤ r.2 ∧ r.2 < 4294967296) {ask : Env} {r : NatServer}
    (hsecret : r.cfg.syncAuthSecret = s.cfg.syncAuthSecret) {dst : Addr} {data : Bytes}
    (hasked : Out.send dst data ∈ (requestSyncSnapshot ask r).2) {env : Env} (hsoon : |env.now - ask.now| ≤ 300)
    (src : Addr) :
    ∃ answer : List Bytes, (handlePacket env data src s).2 = answer.map (Out.send src) ∧
      (∀ entry ∈ answer, ∃ u r, known s.peers u = some r ∧ Files s.cfg.syncAuthSecret entry u r) ∧
      ∀ u r, known s.peers u = some r → ∃ entry ∈ answer, Repairs s.cfg.syncAuthSecret entry u r := by
  have hfiles {u : Bytes} {p : Peer} (hp : s.peers.peers[u]? = some p) :
      known s.peers u = some (content p, p.lastHeartbeat) ∧ Files s.cfg.syncAuthSecret
        (entryDatagram s.cfg.syncAuthSecret p syncHopSnap) u (content p, p.lastHeartbeat) := by
    have hknown : known s.peers u = some (content p, p.lastHeartbeat) := by
      rw [known, hp]
      rfl
    obtain ⟨hlo, hhi⟩ := htimes u _ hknown
    exact ⟨hknown, files_entry (hs u p hp) hlo hhi _⟩
  refine ⟨snapshotEntries s, handlePacket_request hon hsecret hsoon hasked, fun entry hentry => ?_, fun u r hr => ?_⟩
  · obtain ⟨p, hp, rfl⟩ := List.mem_map.mp hentry
    obtain ⟨u, hu⟩ := mem_snapshot.mp hp
    exact ⟨u, _, hfiles hu⟩
  · obtain ⟨p, hp, rfl⟩ := Option.map_eq_some_iff.mp hr
    exact ⟨_, List.mem_map_of_mem (mem_snapshot.mpr ⟨u, hp⟩), (hfiles hp).2.repairs⟩

open Samples (addr1 addr2)

def answering : NatServer := EntryTransport.sender [0x6b]

def request : Bytes := datagram msgSyncSnapshotReq (signed [0x6b] (be32 (time32 90)))

theorem snapshot_repairs_records :
    ∃ answer : List Bytes, (handlePacket { now := 100 } request addr2 answering).2 =
        answer.map (Out.send addr2) ∧
      (∀ entry ∈ answer, ∃ u r, known answering.peers u = some r ∧ Files [0x6b] entry u r) ∧
      ∀ u ∈ [[0x61], [0x62]], ∃ r, known answering.peers u = some r ∧
        ∃ entry ∈ answer, Repairs [0x6b] entry u r := by
  have hs : answering.peers.WellFiled :=
    wellFiled_reach (fun _ h0 => h0.wellFiled) (EntryTransport.sender_reachable [0x6b])
  have hsecret : answering.cfg.syncAuthSecret = [0x6b] := by decide +kernel
  have hnow : ∀ p ∈ answering.peers.snapshot, p.lastHeartbeat = 90 := by decide +kernel
  have htimes : ∀ u r, known answering.peers u = some r → 0 ≤ r.2 ∧ r.2 < 4294967296 := by
    intro u r hr
    obtain ⟨p, hp, rfl⟩ := Option.map_eq_some_iff.mp hr
    have htime := hnow p (mem_snapshot.mpr ⟨u, hp⟩)
    dsimp only
    omega
  have hasked : Out.send addr1 request ∈
      (requestSyncSnapshot { now := 90 } (EntryTransport.receiver [0x6b])).2 := by decide +kernel
  have hsoon : |({ now := 100 } : Env).now - ({ now := 90 } : Env).now| ≤ 300 := by decide
  have hrepairs := snapshot_repairs (r := EntryTransport.receiver [0x6b]) hs (by decide +kernel) htimes hsecret.symm
    hasked hsoon addr2
  rw [hsecret] at hrepairs
  obtain ⟨answer, hsent, hfiles, hall⟩ := hrepairs
  refine ⟨answer, hsent, hfiles, fun u hu => ?_⟩
  have hknown : ∀ u ∈ [[0x61], [0x62]], (known answering.peers u).isSome = true := by decide +kernel
  obtain ⟨r, hr⟩ := Option.isSome_iff_exists.mp (hknown u hu)
  exact ⟨r, hr, hall u r hr⟩

end P2PServer.SnapshotRepair
