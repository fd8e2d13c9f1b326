import P2PServer.HandlerSpecs
import P2PServer.PeerRecords
import P2PServer.Transitions

/-! Runs of one server: any datagrams from any senders and passes of the timer. `Filed`
says what a datagram can do to the registry and why. -/
namespace P2PServer.ServerRun
open ByteStrings ProtoDef Net NatServer Effects SyncCluster Registry PacketCases Transitions

inductive Event
  | packet (env : Env) (data : Bytes) (src : Addr)
  | timer (env : Env) (proxyDue snapDue saved : Bool) (reloaded : Option CfgData)

def step (s : NatServer) : Event → NatServer × List Out
  | .packet env data src => handlePacket env data src s
  | .timer env proxyDue snapDue saved reloaded => timerPass env proxyDue snapDue saved reloaded s

/-- Servers that start in a given kind of state. -/
def server (init : NatServer → Prop) : System NatServer Event where
  init := init
  enabled _ _ := True
  next s e := (step s e).1

def Event.now : Event → ℤ
  | .packet env _ _ => env.now
  | .timer env _ _ _ _ => env.now

/-- The same runs with a clock that does not go back; a state is the last reading and the
server. -/
def clocked (init : NatServer → Prop) : System (ℤ × NatServer) Event where
  init s := init s.2
  enabled s e := s.1 ≤ e.now
  next s e := (e.now, (step s.2 e).1)

/-- A server before its first packet: any configuration, and empty tables. -/
structure Started (s : NatServer) : Prop where
  peers : s.peers = {}
  authNonces : s.authNonces = ∅
  syncSeen : s.syncSeen = ∅

theorem Started.reachable {s : NatServer} (h : Started s) : Reachable (server Started) s :=
  Reach.start (S := server Started) h

theorem reachable_step {init : NatServer → Prop} {s : NatServer} (h : Reachable (server init) s)
    (e : Event) : Reachable (server init) (step s e).1 :=
  Reach.step (S := server init) (e := e) h trivial trivial

theorem handlePacket_handled (env : Env) (data : Bytes) (src : Addr) (s : NatServer) :
    handlePacket env data src s = (s, []) ∨
      ∃ msgId p, readDatagram data = some (msgId, p) ∧
        Handled env msgId p src s (handlePacket env data src s) := by
  unfold handlePacket
  cases h : readDatagram data with
  | none => exact .inl rfl
  | some r => exact .inr ⟨r.1, r.2, rfl, dispatch_handled env r.1 r.2 src s⟩

theorem handlePacket_read {env : Env} {data p : Bytes} {src : Addr} {s : NatServer} {msgId : UInt8}
    (hread : readDatagram data = some (msgId, p)) :
    handlePacket env data src s = dispatch env msgId p src s := by
  unfold handlePacket
  rw [hread]

theorem handlePacket_entry {env : Env} {data p : Bytes} {src : Addr} {s : NatServer}
    (hread : readDatagram data = some (msgSyncPeerEntry, p)) :
    handlePacket env data src s = onSyncPeerEntry env p src s := handlePacket_read hread

theorem handlePacket_del {env : Env} {data p : Bytes} {src : Addr} {s : NatServer}
    (hread : readDatagram data = some (msgSyncPeerDel, p)) :
    handlePacket env data src s = onSyncPeerDel p src s := handlePacket_read hread

theorem handlePacket_request {env : Env} {data p : Bytes} {src : Addr} {s : NatServer}
    (hread : readDatagram data = some (msgSyncSnapshotReq, p)) :
    handlePacket env data src s = onSyncSnapshotReq env p src s := handlePacket_read hread

/-- The registries that a datagram can leave behind. -/
inductive Filed (env : Env) (data : Bytes) (src : Addr) (s : NatServer) : PeerManager → Prop
  | kept : Filed env data src s s.peers
  | heartbeat {msgId : UInt8} {p : Bytes} (hread : readDatagram data = some (msgId, p))
      {req : UuidReq} {extinfo : Bytes} {enc : Option Bytes}
      (h : heartbeatOf s.cfg.authSecret msgId p = some (req, extinfo, enc))
      (hgate : (heartbeatGate env req.uuid s).1 = 0) :
      Filed env data src s (s.peers.upsert req.uuid src { src with port := req.lanPort } req.devType
        req.nattype extinfo env.now).2
  | report {p : Bytes} (hread : readDatagram data = some (msgSndExtinfoReq, p)) (hlen : 33 ≤ p.length)
      {self : Peer} (hself : s.peers.peers[uuidAt p 0]? = some self) :
      Filed env data src s (s.peers.upsert self.uuid self.pubAddr self.lanAddr self.devType
        self.nattype (reportedExtinfo p) env.now).2
  | login {p : Bytes} (hread : readDatagram data = some (msgAuthLoginReq, p))
      (hlen : authLoginReqSize ≤ p.length) (hgate : (authGate env (uuidAt p 0) s).1 = 0)
      (hon : s.cfg.authEnabled = true) {expire : ℤ}
      (hnonce : s.authNonces[uuidAt p 0]? = some (window p 33 16, expire))
      (htime : env.now ≤ expire)
      (hmac : Crypto.hmacSha256 s.cfg.authSecret (authMessage (uuidAt p 0) (window p 33 16)) =
        window p 49 32) :
      Filed env data src s (s.peers.setAuthExpire (uuidAt p 0) (env.now + 3600))
  | delete {p : Bytes} (hread : readDatagram data = some (msgDeleteUidReq, p)) :
      Filed env data src s (s.peers.remove (deleteUuid p)).2
  | entry {p : Bytes} (hread : readDatagram data = some (msgSyncPeerEntry, p))
      (hon : s.syncEnabled = true) {e : SyncPeerEntry} {extinfo : Bytes}
      (h : entryOf s.cfg.syncAuthSecret p = some (e, extinfo)) (hu : e.uuid ≠ [])
      (hnew : e.hop = syncHopSnap ∨ (seenSyncEntry env e.uuid e.hbTime src s).1 = false) :
      Filed env data src s (stored e extinfo s.peers)
  | del {p : Bytes} (hread : readDatagram data = some (msgSyncPeerDel, p))
      (hon : s.syncEnabled = true) {uuid : Bytes}
      (h : deletionOf s.cfg.syncAuthSecret p = some uuid) :
      Filed env data src s (s.peers.remove uuid).2

theorem authGate_cases (env : Env) (uuid : Bytes) (s : NatServer) :
    (authGate env uuid s).1 = 0 ∨ (authGate env uuid s).1 = 1 ∨ (authGate env uuid s).1 = 2 := by
  unfold authGate
  dsimp only
  split
  · exact .inr (.inl rfl)
  · split
    · exact .inr (.inr rfl)
    · exact .inl rfl

/-- What a login leaves behind: a gate that refuses changes nothing that matters here. -/
theorem loginResult_cases (env : Env) (p : Bytes) (s : NatServer) :
    ((authGate env (uuidAt p 0) s).1 ≠ 0 ∧ core (loginResult env p s).2 = core s ∧
        (loginResult env p s).1 ≠ authOk) ∨
      (authGate env (uuidAt p 0) s).1 = 0 ∧
        ∃ r, Verified env (uuidAt p 0) (window p 33 16) (window p 49 32)
            (authGate env (uuidAt p 0) s).2 r ∧
          loginResult env p s = (if r.1 then authOk else authBadMac, r.2) := by
  unfold loginResult
  rcases authGate_cases env (uuidAt p 0) s with h | h | h
  · refine .inr ⟨h, _, verifyAuthLogin_verified env _ _ _ _, ?_⟩
    simp only [h]
    rfl
  · left
    simp only [h, if_true]
    exact ⟨by decide, authGate_core env _ s, by decide⟩
  · left
    have h21 : ¬(2 : UInt8) = 1 := by decide
    simp only [h, h21, if_false, if_true]
    exact ⟨by decide, authGate_core env _ s, by decide⟩

theorem loginResult_core (env : Env) (p : Bytes) (s : NatServer) :
    ∃ m n, core (loginResult env p s).2 = { core s with peers := m, authNonces := n } := by
  have hgc := authGate_core env (uuidAt p 0) s
  rcases loginResult_cases env p s with ⟨-, hc, -⟩ | ⟨-, r, hr, heq⟩
  · exact ⟨s.peers, s.authNonces, hc⟩
  · rw [heq, ← hgc]
    cases hr with
    | off => exact ⟨_, _, rfl⟩
    | missing => exact ⟨_, _, rfl⟩
    | refused => exact ⟨_, _, rfl⟩
    | granted => exact ⟨_, _, rfl⟩

theorem onAuthLoginReq_fst (env : Env) (p : Bytes) (src : Addr) (s : NatServer)
    (hlen : authLoginReqSize ≤ p.length) :
    (onAuthLoginReq env p src s).1 = (loginResult env p s).2 := by
  unfold onAuthLoginReq
  rw [if_neg (by omega), sendMsg_fst]

theorem entryOf_text {secret p : Bytes} {e : SyncPeerEntry} {extinfo : Bytes}
    (h : entryOf secret p = some (e, extinfo)) : cstr e.uuid = e.uuid := by
  obtain ⟨rfl, -⟩ := entryOf_eq_some.mp h
  exact cstr_cstr _

theorem handlePacket_filed (env : Env) (data : Bytes) (src : Addr) (s : NatServer) :
    Filed env data src s (handlePacket env data src s).1.peers := by
  have same {r : NatServer} (h : core r = core s) : Filed env data src s r.peers := by
    have hp : r.peers = s.peers := congrArg Core.peers h
    rw [hp]
    exact .kept
  rcases handlePacket_handled env data src s with h | ⟨msgId, p, hread, h⟩
  · rw [h]
    exact .kept
  · generalize handlePacket env data src s = r at h ⊢
    cases h with
    | ignored => exact .kept
    | @heartbeat req extinfo enc h =>
      have hp := congrArg Core.peers (handleHeartbeat_core env req extinfo src enc s)
      simp only [core] at hp
      rw [hp]
      split
      · exact .heartbeat hread h ‹_›
      · exact .kept
    | sndExtinfo hid hlen =>
      have hp := congrArg Core.peers (onSndExtinfoReq_core env p s)
      simp only [core] at hp
      rw [hp]
      cases hself : s.peers.get (uuidAt p 0) with
      | none => exact .kept
      | some self => exact .report (hid ▸ hread) hlen hself
    | connect hid => exact same (onConnectReq_core env p src s)
    | deleteUid hid =>
      have hp := congrArg Core.peers (onDeleteUidReq_core env p s)
      simp only [core] at hp
      rw [hp]
      exact .delete (hid ▸ hread)
    | challenge hid =>
      have hp := congrArg Core.peers (onAuthChallengeReq_core env p src s)
      simp only [core] at hp
      rw [hp]
      exact .kept
    | login hid hlen =>
      rw [onAuthLoginReq_fst env p src s hlen]
      have hgc := authGate_core env (uuidAt p 0) s
      rcases loginResult_cases env p s with ⟨-, hc, -⟩ | ⟨hgate, r, hr, heq⟩
      · exact same hc
      · rw [heq]
        cases hr with
        | off hoff => exact same hgc
        | missing hon hn => exact same hgc
        | refused hon =>
          simp only [authGate_peers]
          exact .kept
        | granted hon hn htime hmac =>
          rw [authGate_authNonces] at hn
          rw [authGate_cfg] at hon hmac
          simp only [authGate_peers]
          exact .login (hid ▸ hread) hlen hgate hon hn htime hmac
    | @entry hid e extinfo h =>
      have he := handleSyncEntry_entered env e extinfo src s
      generalize handleSyncEntry env e extinfo src s = r at he ⊢
      cases he with
      | ignored => exact .kept
      | seen => exact .kept
      | snapshot hon hu hhop => exact .entry (hid ▸ hread) hon h hu (.inl hhop)
      | increment hon hu hhop hs => exact .entry (hid ▸ hread) hon h hu (.inr hs)
    | @del hid uuid h =>
      have hp := congrArg Core.peers (handleSyncDel_core uuid src s)
      simp only [core] at hp
      rw [hp]
      split
      · exact .del (hid ▸ hread) ‹_› h
      · exact .kept
    | snapshot hid h => exact same (handleSyncSnapshotReq_core src s)
    | other hid hcore hplain => exact same hcore

structure SameSetup (s r : NatServer) : Prop where
  cfg : r.cfg = s.cfg
  syncOn : r.syncOn = s.syncOn
  syncAddrs : r.syncAddrs = s.syncAddrs

theorem SameSetup.syncEnabled {s r : NatServer} (h : SameSetup s r) :
    r.syncEnabled = s.syncEnabled := by
  rw [NatServer.syncEnabled, h.syncOn, h.syncAddrs, ← NatServer.syncEnabled]

def licenseAfter (data : Bytes) (s : NatServer) : LicenseMgr :=
  match readDatagram data with
  | none => s.license
  | some (msgId, p) =>
    if msgId = msgDeleteUidReq then
      { s.license with uuids := s.license.uuids.erase (deleteUuid p) }
    else s.license

theorem handlePacket_setup (env : Env) (data : Bytes) (src : Addr) (s : NatServer) :
    SameSetup s (handlePacket env data src s).1 ∧
      (handlePacket env data src s).1.license = licenseAfter data s := by
  have keep {r : NatServer} {m : PeerManager} {n : Std.ExtTreeMap Bytes (Bytes × ℤ)}
      {t : Std.ExtTreeMap Bytes ℤ}
      (h : core r = ⟨s.cfg, s.syncOn, s.syncAddrs, m, s.license, n, t⟩) :
      SameSetup s r ∧ r.license = s.license :=
    ⟨⟨congrArg Core.cfg h, congrArg Core.syncOn h, congrArg Core.syncAddrs h⟩,
      congrArg Core.license h⟩
  have same {r : NatServer} (h : core r = core s) : SameSetup s r ∧ r.license = s.license := keep h
  cases hread : readDatagram data with
  | none =>
    simp only [handlePacket, licenseAfter, hread]
    exact ⟨⟨rfl, rfl, rfl⟩, trivial⟩
  | some r =>
    obtain ⟨msgId, p⟩ := r
    have hh : Handled env msgId p src s (handlePacket env data src s) := by
      have := dispatch_handled env msgId p src s
      simpa only [handlePacket, hread] using this
    by_cases hd : msgId = msgDeleteUidReq
    · have hp : handlePacket env data src s = onDeleteUidReq env p s := by
        unfold handlePacket
        rw [hread, hd]
        rfl
      have hc := onDeleteUidReq_core env p s
      rw [hp]
      simp only [licenseAfter, hread, hd, if_true]
      exact ⟨⟨congrArg Core.cfg hc, congrArg Core.syncOn hc, congrArg Core.syncAddrs hc⟩,
        congrArg Core.license hc⟩
    · simp only [licenseAfter, hread, hd, if_false]
      generalize handlePacket env data src s = r at hh ⊢
      cases hh with
      | ignored => exact same rfl
      | heartbeat h => exact keep (handleHeartbeat_core ..)
      | sndExtinfo => exact keep (onSndExtinfoReq_core ..)
      | connect => exact same (onConnectReq_core ..)
      | deleteUid hid => exact absurd hid hd
      | challenge => exact keep (onAuthChallengeReq_core ..)
      | login hid hlen =>
        rw [onAuthLoginReq_fst env p src s hlen]
        obtain ⟨m, n, h⟩ := loginResult_core env p s
        exact keep h
      | @entry _ e extinfo _ =>
        have he := handleSyncEntry_entered env e extinfo src s
        generalize handleSyncEntry env e extinfo src s = r at he ⊢
        cases he <;> exact ⟨⟨rfl, rfl, rfl⟩, rfl⟩
      | del => exact keep (handleSyncDel_core ..)
      | snapshot => exact same (handleSyncSnapshotReq_core ..)
      | other _ hcore _ => exact same hcore

theorem timerPass_peers (env : Env) (proxyDue snapDue saved : Bool) (reloaded : Option CfgData)
    (s : NatServer) :
    (timerPass env proxyDue snapDue saved reloaded s).1.peers =
      (s.peers.cleanupTimeoutAndCollect 90 env.now).2.cleanupAuthSessions env.now :=
  congrArg Core.peers (timerPass_spec env proxyDue snapDue saved reloaded s).1

theorem wellFiled_step {s : NatServer} (h : s.peers.WellFiled) (e : Event) :
    (step s e).1.peers.WellFiled := by
  cases e with
  | timer env proxyDue snapDue saved reloaded =>
    rw [ServerRun.step, timerPass_peers]
    exact h.cleanup env.now
  | packet env data src =>
    have hf := handlePacket_filed env data src s
    rw [ServerRun.step]
    generalize (handlePacket env data src s).1.peers = m at hf ⊢
    cases hf with
    | kept => exact h
    | heartbeat => exact h.upsert (cstr_cstr _)
    | report hread hlen hself => exact h.upsert ((h _ _ hself).uuid ▸ (h _ _ hself).text)
    | login => exact h.setAuthExpire _ _
    | delete => exact h.remove _
    | entry hread hon he hu hnew => exact h.upsertSynced (entryOf_text he)
    | del => exact h.remove _

theorem wellFiled_reach {init : NatServer → Prop} (hinit : ∀ s, init s → s.peers.WellFiled)
    {ok : NatServer → Event → Prop} {s : NatServer} (h : Reach (server init) ok s) :
    s.peers.WellFiled :=
  h.invariant (I := fun s => s.peers.WellFiled) hinit fun _ e hs _ _ => wellFiled_step hs e

theorem Started.wellFiled {s : NatServer} (h : Started s) : s.peers.WellFiled := by
  intro u p hp
  rw [h.peers] at hp
  simp at hp

end P2PServer.ServerRun
