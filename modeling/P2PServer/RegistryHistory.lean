import P2PServer.Expiry
import P2PServer.SyncConvergence

/-! The registry over whole runs: what it knows of a uuid is what was last filed under it, by a heartbeat,
a report of the extension text, a deletion or a message of another server. The timer takes out records
that are older than 90 seconds and no others, so that a younger one is always found. -/
namespace P2PServer.RegistryHistory
open ByteStrings ProtoDef Net NatServer Effects Registry PacketCases ServerRun Transitions Expiry
open SyncConvergence (Content content content_upserted content_synced validUuid_iff)

/-- What is known of a uuid: the content of its record and the time of its last heartbeat. -/
abbrev Record := Content × ℤ

def known (m : PeerManager) (u : Bytes) : Option Record := m.peers[u]?.map fun p => (content p, p.lastHeartbeat)

/-- A record may be dropped once its last heartbeat is more than 90 seconds ago. -/
def visit : Lifetime ℤ Record where
  alive now r := now - r.2 ≤ 90
  early h := by
    simp only [decide_eq_true_eq]
    omega

/-- A heartbeat that passes the gates, with the address it came from. -/
def registration (env : Env) (req : UuidReq) (extinfo : Bytes) (src : Addr) (s : NatServer) :
    List (Bytes × Option Record) :=
  if (heartbeatGate env req.uuid s).1 = 0 ∧ req.uuid ≠ [] then
    [(req.uuid, some (⟨src, { src with port := req.lanPort }, req.devType, req.nattype, extinfo⟩, env.now))]
  else []

/-- A new extension text counts as a heartbeat and leaves the addresses. -/
def report (env : Env) (p : Bytes) (s : NatServer) : List (Bytes × Option Record) :=
  match known s.peers (uuidAt p 0) with
  | none => []
  | some r => [(uuidAt p 0, some ({ r.1 with extinfo := reportedExtinfo p }, env.now))]

/-- The record of another server, with its heartbeat time. -/
def replica (env : Env) (e : SyncPeerEntry) (extinfo : Bytes) (src : Addr) (s : NatServer) :
    List (Bytes × Option Record) :=
  if s.syncEnabled && entryFresh env e src s then
    [(e.uuid, some (⟨entryPub e, entryLan e, e.devType, e.nattype, extinfo⟩, e.hbTime.toNat))]
  else []

def filings (env : Env) (msgId : UInt8) (p : Bytes) (src : Addr) (s : NatServer) : List (Bytes × Option Record) :=
  match heartbeatOf s.cfg.authSecret msgId p with
  | some (req, extinfo, _) => registration env req extinfo src s
  | none =>
    if msgId = msgSndExtinfoReq ∧ p.length ≥ 33 then report env p s
    else if msgId = msgDeleteUidReq then [(deleteUuid p, none)]
    else if msgId = msgSyncPeerEntry then
      match entryOf s.cfg.syncAuthSecret p with
      | some (e, extinfo) => replica env e extinfo src s
      | none => []
    else if msgId = msgSyncPeerDel ∧ s.syncEnabled = true then
      (deletionOf s.cfg.syncAuthSecret p).toList.map fun u => (u, none)
    else []

/-- What a step files; `none` takes the record out. -/
def filed (s : NatServer) : Event → List (Bytes × Option Record)
  | .timer .. => []
  | .packet env data src =>
    match readDatagram data with
    | none => []
    | some (msgId, p) => filings env msgId p src s

def history : ℤ × NatServer → List Event → List (Bytes × Option Record)
  | _, [] => []
  | s, e :: es => history (e.now, (step s.2 e).1) es ++ filed s.2 e

section
variable {m : PeerManager} {uuid : Bytes} {pub lan : Addr} {devType nattype : UInt8} {extinfo : Bytes} {now : ℤ}

theorem known_filed {m' : PeerManager} {r : Record} (hu : uuid.length ≤ maxUuidLen)
    (h : ∀ u, known m' u = if u = uuid ∧ PeerManager.validUuid uuid = true then some r else known m u) :
    known m' = written (known m) (if uuid = [] then [] else [(uuid, some r)]) := by
  funext u
  rw [h u]
  by_cases he : uuid = []
  · rw [if_pos he, if_neg fun hc => (validUuid_iff hu).mp hc.2 he]
    rfl
  · rw [if_neg he]
    simp only [(validUuid_iff hu).mpr he, and_true, written, List.foldr_cons, List.foldr_nil, Function.update_apply]

theorem known_upsert (hu : uuid.length ≤ maxUuidLen) (h : extinfo.length ≤ maxExtinfo) :
    known (m.upsert uuid pub lan devType nattype extinfo now).2 =
      written (known m) (if uuid = [] then [] else [(uuid, some (⟨pub, lan, devType, nattype, extinfo⟩, now))]) := by
  refine known_filed hu fun u => ?_
  have hold (old : Option Peer) :
      (PeerManager.upserted old uuid pub lan devType nattype extinfo now).lastHeartbeat = now := by
    cases old <;> rfl
  unfold known
  rw [m.upsert_get uuid u pub lan devType nattype extinfo now]
  split
  · rw [Option.map_some, content_upserted _ h, hold]
  · rfl

theorem known_upsertSynced (hu : uuid.length ≤ maxUuidLen) (h : extinfo.length ≤ maxExtinfo) :
    known (m.upsertSynced uuid pub lan devType nattype extinfo now).2 =
      written (known m) (if uuid = [] then [] else [(uuid, some (⟨pub, lan, devType, nattype, extinfo⟩, now))]) := by
  refine known_filed hu fun u => ?_
  have hold (old : Option Peer) :
      (PeerManager.synced old uuid pub lan devType nattype extinfo now).lastHeartbeat = now := by
    cases old <;> rfl
  unfold known
  rw [m.upsertSynced_get uuid u pub lan devType nattype extinfo now]
  split
  · rw [Option.map_some, content_synced _ h, hold]
  · rfl

theorem known_remove (m : PeerManager) (uuid : Bytes) : known (m.remove uuid).2 = written (known m) [(uuid, none)] := by
  funext u
  simp only [written, List.foldr_cons, List.foldr_nil, Function.update_apply]
  unfold known
  rw [m.remove_get uuid u]
  split <;> rfl

theorem known_setAuthExpire (m : PeerManager) (uuid : Bytes) (expire : ℤ) :
    known (m.setAuthExpire uuid expire) = known m := by
  funext u
  unfold known
  rw [m.setAuthExpire_get uuid u expire]
  split
  · cases m.peers[u]? <;> rfl
  · rfl

theorem known_cleanup (m : PeerManager) (now : ℤ) :
    Pruned visit now (known ((m.cleanupTimeoutAndCollect 90 now).2.cleanupAuthSessions now)) (known m) := by
  intro u
  have hget : known ((m.cleanupTimeoutAndCollect 90 now).2.cleanupAuthSessions now) u =
      (m.peers[u]?.filter fun p => !PeerManager.timedOut 90 now p).map fun p => (content p, p.lastHeartbeat) :=
    congrArg (Option.map _) (m.cleanup_get u now)
  rw [hget, known]
  cases m.peers[u]? with
  | none => exact .inl rfl
  | some p =>
    by_cases hover : now - p.lastHeartbeat > 90
    · refine .inr ⟨?_, ?_⟩
      · rw [Option.filter_some_neg (by simp [PeerManager.timedOut]; omega)]
        rfl
      · exact Option.filter_some_neg (by simp [visit]; omega)
    · rw [Option.filter_some_pos (by simp [PeerManager.timedOut]; omega)]
      exact .inl rfl

end

section
variable {env : Env} {p : Bytes} {src : Addr} {s : NatServer}

theorem handleHeartbeat_known {req : UuidReq} {extinfo : Bytes} {enc : Option Bytes}
    (h : heartbeatOf s.cfg.authSecret msgId p = some (req, extinfo, enc)) :
    known (handleHeartbeat env req extinfo src enc s).1.peers =
      written (known s.peers) (registration env req extinfo src s) := by
  obtain ⟨hu, hext⟩ := heartbeatOf_bounds h
  have hpeers := congrArg Core.peers (handleHeartbeat_core env req extinfo src enc s)
  simp only [core] at hpeers
  rw [hpeers, registration]
  by_cases hgate : (heartbeatGate env req.uuid s).1 = 0
  · rw [if_pos hgate, known_upsert hu hext]
    by_cases hempty : req.uuid = []
    · rw [if_pos hempty, if_neg fun hc => hc.2 hempty]
    · rw [if_neg hempty, if_pos ⟨hgate, hempty⟩]
  · rw [if_neg hgate, if_neg fun hc => hgate hc.1]
    rfl

theorem reportedExtinfo_length (p : Bytes) : (reportedExtinfo p).length ≤ maxExtinfo := by
  unfold reportedExtinfo
  dsimp only
  split
  · exact (window_length_le _ _ _).trans ‹_›
  · exact Nat.zero_le _

theorem onSndExtinfoReq_known (hf : s.peers.WellFiled) :
    known (onSndExtinfoReq env p s).1.peers = written (known s.peers) (report env p s) := by
  have hpeers := congrArg Core.peers (onSndExtinfoReq_core env p s)
  simp only [core] at hpeers
  rw [hpeers, report, known, PeerManager.get]
  cases hself : s.peers.peers[uuidAt p 0]? with
  | none => rfl
  | some self =>
    have hproper := hf _ _ hself
    have hne : uuidAt p 0 ≠ [] := (validUuid_iff hproper.short).mp hproper.valid
    dsimp only
    rw [hproper.uuid, known_upsert hproper.short (reportedExtinfo_length p), if_neg hne]
    rfl

theorem entryOf_bounds {secret : Bytes} {e : SyncPeerEntry} {extinfo : Bytes}
    (h : entryOf secret p = some (e, extinfo)) : e.uuid.length ≤ maxUuidLen ∧ extinfo.length ≤ maxExtinfo := by
  obtain ⟨rfl, rfl, hext, -⟩ := entryOf_eq_some.mp h
  exact ⟨(cstr_length_le _).trans (window_length_le _ _ _), (window_length_le _ _ _).trans hext⟩

theorem stored_known {e : SyncPeerEntry} {extinfo : Bytes} (h : entryOf s.cfg.syncAuthSecret p = some (e, extinfo))
    (hu : e.uuid ≠ []) (hon : s.syncEnabled = true)
    (hnew : e.hop = syncHopSnap ∨ (seenSyncEntry env e.uuid e.hbTime src s).1 = false) :
    known (stored e extinfo s.peers) = written (known s.peers) (replica env e extinfo src s) := by
  obtain ⟨hlen, hext⟩ := entryOf_bounds h
  have hfresh : (s.syncEnabled && entryFresh env e src s) = true := by
    simpa [hon, entryFresh, (validUuid_iff hlen).mpr hu] using hnew
  rw [stored, known_upsertSynced hlen hext, if_neg hu, replica, if_pos hfresh]

theorem onSyncPeerEntry_known : known (onSyncPeerEntry env p src s).1.peers =
    written (known s.peers) (match entryOf s.cfg.syncAuthSecret p with
      | some (e, extinfo) => replica env e extinfo src s
      | none => []) := by
  rw [onSyncPeerEntry_handed]
  cases hent : entryOf s.cfg.syncAuthSecret p with
  | none => rfl
  | some x =>
    obtain ⟨e, extinfo⟩ := x
    have hlen := (entryOf_bounds hent).1
    have hways := handleSyncEntry_entered env e extinfo src s
    dsimp only
    generalize handleSyncEntry env e extinfo src s = r at hways ⊢
    cases hways with
    | ignored h =>
      have hstale : ¬(s.syncEnabled && entryFresh env e src s) = true := by
        rcases h with h | h
        · simp [h]
        · simp [entryFresh, h, PeerManager.validUuid]
      rw [replica, if_neg hstale]
      rfl
    | seen hon hu hhop h =>
      have hstale : ¬(s.syncEnabled && entryFresh env e src s) = true := by
        simp [entryFresh, hhop, h]
      rw [replica, if_neg hstale]
      rfl
    | snapshot hon hu hhop => exact stored_known hent hu hon (.inl hhop)
    | increment hon hu hhop h => exact stored_known hent hu hon (.inr h)

theorem onSyncPeerDel_known : known (onSyncPeerDel p src s).1.peers = written (known s.peers)
    (if s.syncEnabled = true then (deletionOf s.cfg.syncAuthSecret p).toList.map fun u => (u, none) else []) := by
  rw [onSyncPeerDel_handed]
  cases deletionOf s.cfg.syncAuthSecret p with
  | none => simp [written]
  | some uuid =>
    have hpeers := congrArg Core.peers (handleSyncDel_core uuid src s)
    simp only [core] at hpeers
    dsimp only
    rw [hpeers]
    split
    · exact known_remove _ _
    · rfl

theorem onDeleteUidReq_known :
    known (onDeleteUidReq env p s).1.peers = written (known s.peers) [(deleteUuid p, none)] := by
  have hpeers := congrArg Core.peers (onDeleteUidReq_core env p s)
  simp only [core] at hpeers
  rw [hpeers]
  exact known_remove _ _

theorem onAuthLoginReq_known : known (onAuthLoginReq env p src s).1.peers = known s.peers := by
  unfold onAuthLoginReq
  split
  · rfl
  · rw [sendMsg_fst]
    rcases loginResult_cases env p s with ⟨-, hc, -⟩ | ⟨-, r, hr, heq⟩
    · exact congrArg (fun c => known (Core.peers c)) hc
    · rw [heq]
      cases hr with
      | off => exact congrArg known (authGate_peers env _ s)
      | missing => exact congrArg known (authGate_peers env _ s)
      | refused => exact congrArg known (authGate_peers env _ s)
      | granted => exact (known_setAuthExpire _ _ _).trans (congrArg known (authGate_peers env _ s))

end

section
variable {env : Env} {p : Bytes} {src : Addr} {s : NatServer}

theorem heartbeatOf_other {secret : Bytes} {msgId : UInt8} (p : Bytes)
    (h : msgId ∉ [msgHeartbeatReq, msgAddUidReq, msgHeartbeatReqEnc]) : heartbeatOf secret msgId p = none := by
  simp only [List.mem_cons, List.not_mem_nil, or_false, not_or] at h
  simp [heartbeatOf, h]

theorem filings_other {msgId : UInt8} (h : msgId ∉ registryMessages) : filings env msgId p src s = [] := by
  simp only [registryMessages, List.mem_cons, List.not_mem_nil, or_false, not_or] at h
  have hnone : heartbeatOf s.cfg.authSecret msgId p = none := heartbeatOf_other p (by simp [h])
  simp [filings, hnone, h]

theorem filings_heartbeat {msgId : UInt8} {f : Action}
    (hf : f s = match heartbeatOf s.cfg.authSecret msgId p with
      | some (req, extinfo, enc) => handleHeartbeat env req extinfo src enc s
      | none => (s, []))
    (hid : msgId ∈ [msgHeartbeatReq, msgAddUidReq, msgHeartbeatReqEnc]) :
    known (f s).1.peers = written (known s.peers) (filings env msgId p src s) := by
  rw [hf, filings]
  cases h : heartbeatOf s.cfg.authSecret msgId p with
  | some x =>
    obtain ⟨req, extinfo, enc⟩ := x
    exact handleHeartbeat_known h
  | none =>
    simp only [List.mem_cons, List.not_mem_nil, or_false] at hid
    rcases hid with rfl | rfl | rfl <;> rfl

theorem dispatch_known (hf : s.peers.WellFiled) (msgId : UInt8) :
    known (dispatch env msgId p src s).1.peers = written (known s.peers) (filings env msgId p src s) := by
  have other {f : Action} (hid : msgId ∉ registryMessages) (hsame : known (f s).1.peers = known s.peers) :
      known (f s).1.peers = written (known s.peers) (filings env msgId p src s) := by
    rw [filings_other hid, hsame]
    rfl
  have plain {id : UInt8} (hid : id ∉ [msgHeartbeatReq, msgAddUidReq, msgHeartbeatReqEnc]) :
      heartbeatOf s.cfg.authSecret id p = none := heartbeatOf_other p hid
  have hways := dispatch_selects env msgId p src
  generalize dispatch env msgId p src = f at hways ⊢
  cases hways with
  | heartbeat => exact filings_heartbeat (onHeartbeatReq_handed env p src s (.inl rfl)) (by decide)
  | addUid => exact filings_heartbeat (onHeartbeatReq_handed env p src s (.inr rfl)) (by decide)
  | heartbeatEnc => exact filings_heartbeat (onHeartbeatReqEnc_handed env p src s) (by decide)
  | sndExtinfo =>
    rw [onExtinfoReq, filings, plain (by decide)]
    by_cases hlen : p.length ≥ 33
    · simp only [hlen, and_self, if_true]
      exact onSndExtinfoReq_known hf
    · simp only [hlen, and_false, if_false]
      rw [onAskExtinfoReq_peers]
      rfl
  | askExtinfo => exact other (by decide) (by rw [onExtinfoReq, if_neg fun h => absurd h.1 (by decide),
      onAskExtinfoReq_peers])
  | connect => exact other (by decide) (congrArg known (onConnectReq_peers env p src s))
  | iceSdp => exact other (by decide) (congrArg known (onIceSdp_peers p s))
  | getDevList => exact other (by decide) (by rw [onGetDevListReq, sendMsg_fst])
  | getServerList => exact other (by decide) (by rw [onGetServerListReq, sendMsg_fst])
  | deleteUid =>
    rw [onDeleteUidReq_known, filings, plain (by decide)]
    rfl
  | checkUid => exact other (by decide) (by rw [onCheckUidReq, sendMsg_fst])
  | authChallenge => exact other (by decide) (congrArg known (onAuthChallengeReq_peers env p src s))
  | authLogin => exact other (by decide) onAuthLoginReq_known
  | adminStats => exact other (by decide) (by rw [onAdminStatsReq, sendMsg_fst])
  | adminBlacklist => exact other (by decide) (congrArg known (onAdminBlacklistReq_peers env p src s))
  | syncPeerEntry =>
    rw [onSyncPeerEntry_known, filings, plain (by decide)]
    rfl
  | syncPeerDel =>
    rw [onSyncPeerDel_known, filings, plain (by decide)]
    cases s.syncEnabled <;> rfl
  | syncSnapshot => exact other (by decide) (congrArg known (onSyncSnapshotReq_peers env p src s))
  | spAskExtinfo => exact other (by decide) (congrArg known (onSpAskExtinfoRsp_peers env p src s))
  | other h =>
    have hsub : registryMessages ⊆ handledMessages := by decide
    exact other (fun hmem => h (hsub hmem)) rfl

theorem step_known (hf : s.peers.WellFiled) (e : Event) :
    Pruned visit e.now (known (step s e).1.peers) (written (known s.peers) (filed s e)) := by
  cases e with
  | timer env proxyDue snapDue saved reloaded =>
    rw [ServerRun.step, timerPass_peers]
    exact known_cleanup s.peers env.now
  | packet env data src =>
    rw [ServerRun.step, filed]
    cases hread : readDatagram data with
    | none =>
      rw [handlePacket, hread]
      exact .refl
    | some x =>
      obtain ⟨msgId, p⟩ := x
      dsimp only
      rw [handlePacket_read hread, dispatch_known hf]
      exact .refl

end

/-- Servers whose records are in order. -/
abbrev servers : System (ℤ × NatServer) Event := clocked fun s => s.peers.WellFiled

theorem run_clock {s : ℤ × NatServer} {es : List Event} (hr : Run servers (fun _ _ => True) s es) :
    s.1 ≤ (es.foldl servers.next s).1 := by
  induction es generalizing s with
  | nil => exact le_rfl
  | cons e es ih => exact hr.1.trans (ih hr.2.2)

/-- After a run, the registry has what was filed last, but for records that are too old. -/
theorem run_known {s : ℤ × NatServer} (hs : s.2.peers.WellFiled) {es : List Event}
    (hr : Run servers (fun _ _ => True) s es) :
    Pruned visit (es.foldl servers.next s).1 (known (es.foldl servers.next s).2.peers)
      (written (known s.2.peers) (history s es)) := by
  induction es generalizing s with
  | nil => exact .refl
  | cons e es ih =>
    rw [history, written_append, List.foldl_cons]
    have hnext := ih (s := servers.next s e) (wellFiled_step hs e) hr.2.2
    exact hnext.trans (((step_known hs e).later (run_clock hr.2.2)).written _)

/-- In every run, a record that is found is the one that was filed last, and the record that was filed last
is found until it is more than 90 seconds old. -/
theorem record_found_iff {s : ℤ × NatServer} (hs : s.2.peers.WellFiled) {es : List Event}
    (hr : Run servers (fun _ _ => True) s es) (u : Bytes) (r : Record) :
    (known (es.foldl servers.next s).2.peers u = some r → written (known s.2.peers) (history s es) u = some r) ∧
      ∀ now, (es.foldl servers.next s).1 ≤ now → now - r.2 ≤ 90 →
        (known (es.foldl servers.next s).2.peers u = some r ↔ written (known s.2.peers) (history s es) u = some r) := by
  obtain ⟨hlast, hfound⟩ := (run_known hs hr).found (k := u) (d := r)
  refine ⟨hlast, fun now hnow hage => ⟨hlast, fun h => hfound h ?_⟩⟩
  have halive : visit.alive now r = true := by simpa [visit] using hage
  exact visit.early hnow halive

def home : Addr := ⟨0x0A000001, 5000⟩
def away : Addr := ⟨0x0A000002, 6000⟩

def beats (now : ℤ) (src : Addr) : Event :=
  .packet { now := now } (datagram msgHeartbeatReq (uuidField [0x75] ++ [1, 0] ++ be16 7000 ++ be32 1 ++ be16 0)) src

def moving : List Event := [beats 100 home, beats 150 away, .timer { now := 195 } false false false none]

def awayRecord : Record := (⟨away, { away with port := 7000 }, 1, 0, []⟩, 150)

theorem record_found_iff_moving : known (moving.foldl servers.next (0, {})).2.peers [0x75] = some awayRecord := by
  have hs : ((0, {}) : ℤ × NatServer).2.peers.WellFiled := by
    intro u p hp
    simp at hp
  have hr : Run servers (fun _ _ => True) (0, {}) moving :=
    ⟨(by decide : (0 : ℤ) ≤ 100), trivial, (by decide : (100 : ℤ) ≤ 150), trivial, (by decide : (150 : ℤ) ≤ 195),
      trivial, trivial⟩
  refine ((record_found_iff hs hr [0x75] awayRecord).2 240 ?_ ?_).mpr ?_
  · decide +kernel
  · decide
  · decide +kernel

end P2PServer.RegistryHistory
