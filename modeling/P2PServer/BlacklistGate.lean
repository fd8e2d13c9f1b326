import P2PServer.Gates

/-! The blacklist of uuids. Heartbeats, challenges and logins ask it, but
`MSG_SND_EXTINFO_REQ` and `MSG_CONNECT_REQ` do not. -/
namespace P2PServer.BlacklistGate
open ByteStrings ProtoDef Net NatServer SyncCluster Registry PacketCases ServerRun Gates Transitions

/-- A uuid with an entry in `uuid_black_` that has not expired. -/
def Blacklisted (u : Bytes) (now : ℤ) (s : NatServer) : Prop :=
  u ≠ [] ∧ ∃ t, s.abuse.uuidBlack[u]? = some t ∧ now ≤ t

/-- The step does nothing for `u`: it does not create or refresh its record either. -/
structure Shut (u : Bytes) (s : NatServer) (e : Event) : Prop extends Unserved u s e where
  peers : ∀ p, (step s e).1.peers.peers[u]? = some p → s.peers.peers[u]? = some p

/-- A report for the registered `u` that changes its record: its time of the last
heartbeat is not the present second, or the reported text is new. -/
def Reports (u : Bytes) (env : Env) (data : Bytes) (s : NatServer) : Prop :=
  ∃ p self, readDatagram data = some (msgSndExtinfoReq, p) ∧ 33 ≤ p.length ∧ uuidAt p 0 = u ∧
    s.peers.peers[u]? = some self ∧
    ¬(self.lastHeartbeat = env.now ∧
      PeerManager.keepExtinfo self.extinfo (reportedExtinfo p) = self.extinfo)

/-- A request of `u` that passes the two gates of `MSG_CONNECT_REQ` and finds its target. -/
def Connects (u : Bytes) (env : Env) (data : Bytes) (s : NatServer) : Prop :=
  ∃ p, readDatagram data = some (msgConnectReq, p) ∧ uuidAt p 0 = u ∧ connects env p s = true

theorem Blacklisted.hit {u : Bytes} {now : ℤ} {s : NatServer} (h : Blacklisted u now s) :
    (s.abuse.isUuidBlacklisted u now).1 = true := by
  obtain ⟨hu, t, ht, hnow⟩ := h
  have he : u.isEmpty = false := by simpa using hu
  have hn : ¬now > t := by omega
  simp [AntiAbuse.isUuidBlacklisted, he, ht, hn]

theorem Blacklisted.heartbeatGate {u : Bytes} {env : Env} {s : NatServer}
    (h : Blacklisted u env.now s) : (heartbeatGate env u s).1 ≠ 0 := by
  unfold NatServer.heartbeatGate
  split
  · exact (by decide : (1 : UInt8) ≠ 0)
  · simp [h.hit]

theorem Blacklisted.authGate {u : Bytes} {env : Env} {s : NatServer}
    (h : Blacklisted u env.now s) : (authGate env u s).1 ≠ 0 := by
  unfold NatServer.authGate
  simp [h.hit]

theorem upserted_eq_self {u : Bytes} {self : Peer} (h : PeerManager.Proper u self) (ext : Bytes)
    (now : ℤ) :
    PeerManager.upserted (some self) u self.pubAddr self.lanAddr self.devType self.nattype ext now =
        self ↔
      self.lastHeartbeat = now ∧ PeerManager.keepExtinfo self.extinfo ext = self.extinfo := by
  constructor
  · intro heq
    exact ⟨(congrArg Peer.lastHeartbeat heq).symm, congrArg Peer.extinfo heq⟩
  · rintro ⟨hnow, hext⟩
    simp only [PeerManager.upserted, hext, ← h.extlen, ← hnow]

/-- A client's datagram keeps the record of a blacklisted uuid or drops it, unless it is
a report. -/
theorem Blacklisted.peers {u : Bytes} {env : Env} {data : Bytes} {src : Addr} {s : NatServer}
    (h : Blacklisted u env.now s) (hwf : s.peers.WellFiled) (hsync : isSync data = false)
    (hrep : ¬Reports u env data s) (p : Peer)
    (hp : (handlePacket env data src s).1.peers.peers[u]? = some p) :
    s.peers.peers[u]? = some p := by
  have hf := handlePacket_filed env data src s
  generalize (handlePacket env data src s).1.peers = m at hf hp
  cases hf with
  | kept => exact hp
  | heartbeat hread hb hg =>
    rw [PeerManager.upsert_get] at hp
    split at hp
    · rename_i hu
      exact absurd (hu.1 ▸ hg) h.heartbeatGate
    · exact hp
  | @report q hread hlen self hself =>
    have hprop := hwf _ _ hself
    rw [PeerManager.upsert_get] at hp
    split at hp
    · rename_i hu
      have huq : uuidAt q 0 = u := hprop.uuid.symm.trans hu.1.symm
      rw [hprop.uuid, hself] at hp
      rw [huq] at hself hp
      have hsame : self.lastHeartbeat = env.now ∧
          PeerManager.keepExtinfo self.extinfo (reportedExtinfo q) = self.extinfo := by
        by_contra hc
        exact hrep ⟨q, self, hread, hlen, huq, hself, hc⟩
      rw [(upserted_eq_self (huq ▸ hprop) _ _).mpr hsame] at hp
      rw [hself, hp]
    · exact hp
  | login hread hlen hgate =>
    rw [PeerManager.setAuthExpire_get] at hp
    split at hp
    · rename_i hu
      exact absurd (hu ▸ hgate) h.authGate
    · exact hp
  | delete =>
    rw [PeerManager.remove_get] at hp
    split at hp
    · cases hp
    · exact hp
  | entry hread =>
    rw [isSync, hread] at hsync
    have hmem : syncMessages.contains msgSyncPeerEntry = false := hsync
    exact absurd hmem (by decide)
  | del hread =>
    rw [isSync, hread] at hsync
    have hmem : syncMessages.contains msgSyncPeerDel = false := hsync
    exact absurd hmem (by decide)

theorem handlePacket_report {env : Env} {data p : Bytes} {src : Addr} {s : NatServer}
    (hread : readDatagram data = some (msgSndExtinfoReq, p)) (hlen : 33 ≤ p.length) :
    handlePacket env data src s = onSndExtinfoReq env p s := by
  unfold handlePacket
  rw [hread]
  change onExtinfoReq env msgSndExtinfoReq p src s = _
  rw [onExtinfoReq, if_pos ⟨rfl, hlen⟩]

theorem report_refreshes {u : Bytes} {env : Env} {data : Bytes} {src : Addr} {s : NatServer}
    (hwf : s.peers.WellFiled) (hrep : Reports u env data s) :
    ¬Shut u s (.packet env data src) := by
  intro hshut
  obtain ⟨p, self, hread, hlen, hu, hself, hnew⟩ := hrep
  have hprop := hwf _ _ hself
  have hpeers := congrArg Core.peers (onSndExtinfoReq_core env p s)
  simp only [core, hu, PeerManager.get, hself] at hpeers
  have hafter := hshut.peers (PeerManager.upserted (some self) u self.pubAddr self.lanAddr
    self.devType self.nattype (reportedExtinfo p) env.now) (by
      rw [step, handlePacket_report hread hlen, hpeers, PeerManager.upsert_get, hprop.uuid, hself,
        if_pos ⟨rfl, hprop.valid⟩])
  rw [hself, Option.some.injEq] at hafter
  exact hnew ((upserted_eq_self hprop _ _).mp hafter.symm)

/-- In every reachable state, a client's datagram does nothing for a blacklisted uuid if
and only if it is neither a report for it nor a connection request by it that succeeds. -/
theorem blacklisted_shut_iff {s : NatServer} (hreach : Reachable (server Started) s) {u : Bytes}
    {env : Env} (h : Blacklisted u env.now s) {data : Bytes} (hsync : isSync data = false)
    (src : Addr) :
    Shut u s (.packet env data src) ↔ ¬Reports u env data s ∧ ¬Connects u env data s := by
  have hwf : s.peers.WellFiled := wellFiled_reach (fun _ h0 => h0.wellFiled) hreach
  constructor
  · intro hshut
    refine ⟨fun hrep => report_refreshes hwf hrep hshut, ?_⟩
    rintro ⟨p, hread, hu, hc⟩
    refine hshut.connect ⟨p, hread, hu⟩ ?_
    rw [step, handlePacket_connect hread]
    exact onConnectReq_answers hc
  · rintro ⟨hrep, hconn⟩
    have hun : Unserved u s (.packet env data src) := by
      refine unserved_packet h.authGate fun p hread hu => ?_
      by_contra hc
      exact hconn ⟨p, hread, hu, by simpa using hc⟩
    exact ⟨hun, fun p hp => h.peers hwf hsync hrep p hp⟩

open Samples (uuidU uuidV host)

def blacklistServer : NatServer := { abuse := { uuidBlack := {(uuidU, 1000)} } }

def heartbeatReq (uuid : Bytes) : Bytes :=
  datagram msgHeartbeatReq (uuidField uuid ++ List.replicate 10 0)

def connectReq (src dst : Bytes) : Bytes := datagram msgConnectReq (uuidField src ++ uuidField dst)

def withV : NatServer := (step blacklistServer (.packet {} (heartbeatReq uuidV) host)).1

theorem withV_reachable : Reachable (server Started) withV :=
  reachable_step (Started.reachable ⟨rfl, rfl, rfl⟩) _

theorem withV_blacklisted : Blacklisted uuidU 0 withV :=
  ⟨by decide, 1000, by decide +kernel, by decide⟩

theorem blacklisted_shut_iff_heartbeat :
    Shut uuidU withV (.packet {} (heartbeatReq uuidU) host) := by
  have hread : readDatagram (heartbeatReq uuidU) =
      some (msgHeartbeatReq, uuidField uuidU ++ List.replicate 10 0) :=
    readDatagram_datagram msgHeartbeatReq (by decide)
  refine (blacklisted_shut_iff withV_reachable withV_blacklisted (by decide) host).mpr ⟨?_, ?_⟩
  · rintro ⟨p, self, hp, -⟩
    rw [hread, Option.some.injEq, Prod.mk.injEq] at hp
    exact absurd hp.1 (by decide)
  · rintro ⟨p, hp, -⟩
    rw [hread, Option.some.injEq, Prod.mk.injEq] at hp
    exact absurd hp.1 (by decide)

/-- A blacklisted uuid is connected to any registered one. -/
theorem blacklisted_connects : ¬∀ s, Reachable (server Started) s → ∀ u env,
    Blacklisted u env.now s → ∀ data, isSync data = false → ∀ src,
      Shut u s (.packet env data src) := by
  intro h
  have hread : readDatagram (connectReq uuidU uuidV) =
      some (msgConnectReq, uuidField uuidU ++ uuidField uuidV) :=
    readDatagram_datagram msgConnectReq (by decide)
  have hshut := h withV withV_reachable uuidU {} withV_blacklisted (connectReq uuidU uuidV)
    (by decide) host
  refine hshut.connect ⟨_, hread, by decide⟩ ?_
  rw [step, handlePacket_connect hread]
  exact onConnectReq_answers (by decide +kernel)

end P2PServer.BlacklistGate
