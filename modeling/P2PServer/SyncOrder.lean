import P2PServer.ServerRun

/-! The order of heartbeat times under synchronisation. `upsert_synced` overwrites a
record with whatever entry comes last, so an entry that is older than the record takes it
back in time. -/
namespace P2PServer.SyncOrder
open ByteStrings ProtoDef Net NatServer SyncCluster Registry PacketCases ServerRun Transitions

/-- The datagram holds an entry that passes every check and is stored. -/
def Stores (env : Env) (data : Bytes) (src : Addr) (s : NatServer) (e : SyncPeerEntry)
    (extinfo : Bytes) : Prop :=
  s.syncEnabled = true ∧ e.uuid ≠ [] ∧
    (e.hop = syncHopSnap ∨ (seenSyncEntry env e.uuid e.hbTime src s).1 = false) ∧
    ∃ p, readDatagram data = some (msgSyncPeerEntry, p) ∧
      entryOf s.cfg.syncAuthSecret p = some (e, extinfo)

/-- An entry that is older than the record of its uuid leaves that record as it is. -/
def Unmoved (env : Env) (data : Bytes) (src : Addr) (s : NatServer) : Prop :=
  ∀ p r, readDatagram data = some (msgSyncPeerEntry, p) →
    s.peers.peers[(SyncPeerEntry.read p).uuid]? = some r →
    ((SyncPeerEntry.read p).hbTime.toNat : ℤ) < r.lastHeartbeat →
    (handlePacket env data src s).1.peers.peers[(SyncPeerEntry.read p).uuid]? = some r

/-- An entry that is stored is not older than the record of its uuid. -/
def InOrder (env : Env) (data : Bytes) (src : Addr) (s : NatServer) : Prop :=
  ∀ e extinfo, Stores env data src s e extinfo → ∀ r, s.peers.peers[e.uuid]? = some r →
    r.lastHeartbeat ≤ e.hbTime.toNat

/-- An entry that is stored lies between the record of its uuid and the server's clock. -/
def Forward (s : ℤ × NatServer) : Event → Prop
  | .packet env data src => InOrder env data src s.2 ∧
      ∀ e extinfo, Stores env data src s.2 e extinfo → (e.hbTime.toNat : ℤ) ≤ env.now
  | .timer _ _ _ _ _ => True

/-- No record that is there before and after the step loses time. -/
def Advances (s : NatServer) (e : Event) : Prop :=
  ∀ (u : Bytes) (r r' : Peer), s.peers.peers[u]? = some r →
    (step s e).1.peers.peers[u]? = some r' → r.lastHeartbeat ≤ r'.lastHeartbeat

theorem upserted_lastHeartbeat (old : Option Peer) (uuid : Bytes) (pub lan : Addr)
    (devType nattype : UInt8) (extinfo : Bytes) (now : ℤ) :
    (PeerManager.upserted old uuid pub lan devType nattype extinfo now).lastHeartbeat = now := by
  cases old <;> rfl

theorem synced_lastHeartbeat (old : Option Peer) (uuid : Bytes) (pub lan : Addr)
    (devType nattype : UInt8) (extinfo : Bytes) (now : ℤ) :
    (PeerManager.synced old uuid pub lan devType nattype extinfo now).lastHeartbeat = now := by
  cases old <;> rfl

theorem Stores.peers {env : Env} {data : Bytes} {src : Addr} {s : NatServer} {e : SyncPeerEntry}
    {extinfo : Bytes} (h : Stores env data src s e extinfo) :
    (handlePacket env data src s).1.peers = stored e extinfo s.peers := by
  obtain ⟨hon, hu, hnew, p, hread, he⟩ := h
  rw [handlePacket_entry hread, onSyncPeerEntry_handed, he]
  have hent := handleSyncEntry_entered env e extinfo src s
  dsimp only
  generalize handleSyncEntry env e extinfo src s = r at hent ⊢
  cases hent with
  | ignored h =>
    rcases h with h | h
    · rw [hon] at h
      cases h
    · exact absurd h hu
  | seen _ _ hhop hseen =>
    rcases hnew with h | h
    · exact absurd h hhop
    · rw [hseen] at h
      cases h
  | snapshot => rfl
  | increment => rfl

theorem peers_of_not_stores {env : Env} {data p : Bytes} {src : Addr} {s : NatServer}
    (hread : readDatagram data = some (msgSyncPeerEntry, p))
    (h : ∀ extinfo, ¬Stores env data src s (SyncPeerEntry.read p) extinfo) :
    (handlePacket env data src s).1.peers = s.peers := by
  rw [handlePacket_entry hread, onSyncPeerEntry_handed]
  cases he : entryOf s.cfg.syncAuthSecret p with
  | none => rfl
  | some r =>
    obtain ⟨e, extinfo⟩ := r
    have hr := (entryOf_eq_some.mp he).1
    subst hr
    have hent := handleSyncEntry_entered env (SyncPeerEntry.read p) extinfo src s
    dsimp only
    generalize handleSyncEntry env (SyncPeerEntry.read p) extinfo src s = r at hent ⊢
    cases hent with
    | ignored => rfl
    | seen => rfl
    | snapshot hon hu hhop => exact absurd ⟨hon, hu, .inl hhop, p, hread, he⟩ (h extinfo)
    | increment hon hu hhop hseen => exact absurd ⟨hon, hu, .inr hseen, p, hread, he⟩ (h extinfo)

theorem unmoved_iff_inOrder (env : Env) (data : Bytes) (src : Addr) {s : NatServer}
    (hwf : s.peers.WellFiled) : Unmoved env data src s ↔ InOrder env data src s := by
  constructor
  · intro h e extinfo hst r hr
    by_contra hlt
    have hpeers := hst.peers
    obtain ⟨-, -, -, p, hread, he⟩ := hst
    have hep := (entryOf_eq_some.mp he).1
    subst hep
    have hafter := h p r hread hr (by omega)
    rw [hpeers, stored, PeerManager.upsertSynced_get, if_pos ⟨rfl, (hwf _ _ hr).valid⟩,
      Option.some.injEq] at hafter
    have hhb := congrArg Peer.lastHeartbeat hafter
    rw [synced_lastHeartbeat] at hhb
    omega
  · intro h p r hread hr hlt
    rw [peers_of_not_stores hread, hr]
    intro extinfo hst
    have := h _ extinfo hst r hr
    omega

/-- No record is ahead of the clock. -/
def NotAhead (s : ℤ × NatServer) : Prop :=
  ∀ (u : Bytes) (r : Peer), s.2.peers.peers[u]? = some r → r.lastHeartbeat ≤ s.1

/-- What a step in order does to one record: it ends at a time between the old one and
the present, if it was not ahead before. -/
theorem step_record {s : ℤ × NatServer} (hn : NotAhead s) {e : Event} (hclock : s.1 ≤ e.now)
    (hf : Forward s e) {u : Bytes} {r' : Peer} (hr' : (step s.2 e).1.peers.peers[u]? = some r') :
    r'.lastHeartbeat ≤ e.now ∧
      ∀ r, s.2.peers.peers[u]? = some r → r.lastHeartbeat ≤ r'.lastHeartbeat := by
  have same {x : Peer} (hx : s.2.peers.peers[u]? = some x)
      (hhb : x.lastHeartbeat = r'.lastHeartbeat) : r'.lastHeartbeat ≤ e.now ∧
        ∀ r, s.2.peers.peers[u]? = some r → r.lastHeartbeat ≤ r'.lastHeartbeat := by
    refine ⟨hhb ▸ (hn u x hx).trans hclock, fun r hr => ?_⟩
    rw [hx, Option.some.injEq] at hr
    rw [← hr, hhb]
  have present (hhb : r'.lastHeartbeat = e.now) : r'.lastHeartbeat ≤ e.now ∧
      ∀ r, s.2.peers.peers[u]? = some r → r.lastHeartbeat ≤ r'.lastHeartbeat :=
    ⟨hhb.le, fun r hr => hhb ▸ (hn u r hr).trans hclock⟩
  cases e with
  | timer env proxyDue snapDue saved reloaded =>
    rw [step, timerPass_peers] at hr'
    have hr'' : (s.2.peers.cleanupTimeoutAndCollect 90 env.now).2.peers[u]? = some r' := hr'
    rw [PeerManager.cleanup_get] at hr''
    exact same (Option.filter_eq_some_iff.mp hr'').1 rfl
  | packet env data src =>
    have hfiled := handlePacket_filed env data src s.2
    rw [step] at hr'
    generalize (handlePacket env data src s.2).1.peers = m at hfiled hr'
    cases hfiled with
    | kept => exact same hr' rfl
    | heartbeat =>
      rw [PeerManager.upsert_get] at hr'
      split at hr'
      · cases hr'
        exact present (upserted_lastHeartbeat ..)
      · exact same hr' rfl
    | report =>
      rw [PeerManager.upsert_get] at hr'
      split at hr'
      · cases hr'
        exact present (upserted_lastHeartbeat ..)
      · exact same hr' rfl
    | login =>
      rw [PeerManager.setAuthExpire_get] at hr'
      split at hr'
      · obtain ⟨x, hx, rfl⟩ := Option.map_eq_some_iff.mp hr'
        exact same hx rfl
      · exact same hr' rfl
    | delete =>
      rw [PeerManager.remove_get] at hr'
      split at hr'
      · cases hr'
      · exact same hr' rfl
    | @entry p hread hon e extinfo he hu hnew =>
      rw [stored, PeerManager.upsertSynced_get] at hr'
      split at hr'
      · rename_i hue
        cases hr'
        rw [synced_lastHeartbeat]
        have hst : Stores env data src s.2 e extinfo := ⟨hon, hu, hnew, p, hread, he⟩
        exact ⟨hf.2 e extinfo hst, fun r hr => hf.1 e extinfo hst r (hue.1 ▸ hr)⟩
      · exact same hr' rfl
    | del =>
      rw [PeerManager.remove_get] at hr'
      split at hr'
      · cases hr'
      · exact same hr' rfl

theorem notAhead_reach {s : ℤ × NatServer} (h : Reach (clocked Started) Forward s) : NotAhead s := by
  refine h.invariant (I := NotAhead) (fun s h0 u r hr => ?_) fun s e hn hclock hf u r hr => ?_
  · have hs : Started s.2 := h0
    rw [hs.peers] at hr
    simp at hr
  · exact (step_record hn hclock hf hr).1

theorem wellFiled_clocked {ok : ℤ × NatServer → Event → Prop} {s : ℤ × NatServer}
    (h : Reach (clocked Started) ok s) : s.2.peers.WellFiled :=
  h.invariant (I := fun s => s.2.peers.WellFiled) (fun _ h0 => Started.wellFiled h0)
    fun _ e hs _ _ => wellFiled_step hs e

/-- In every reachable state a stale entry leaves the record it names as it is if and only
if no entry that is stored is older than the record. In every run whose stored entries lie
between the record and the clock, no record ever loses time. -/
theorem stale_entry_iff (s : ℤ × NatServer) :
    (Reachable (clocked Started) s → ∀ env data src,
      Unmoved env data src s.2 ↔ InOrder env data src s.2) ∧
    (Reach (clocked Started) Forward s → ∀ e, s.1 ≤ e.now → Forward s e → Advances s.2 e) := by
  refine ⟨fun h env data src => unmoved_iff_inOrder env data src (wellFiled_clocked h), ?_⟩
  intro h e hclock hf u r r' hr hr'
  exact (step_record (notAhead_reach h) hclock hf hr').2 r hr

open Samples (uuidU addr2)

def syncServer : NatServer := { syncOn := true, syncAddrs := [addr2] }

def heartbeatU : Event :=
  .packet { now := 100 } (datagram msgHeartbeatReq (uuidField uuidU ++ List.replicate 10 0))
    ⟨0xC0A80107, 5000⟩

/-- The other server's copy of `u` from 50 seconds before, sent in a snapshot. -/
def staleEntry : Bytes :=
  datagram msgSyncPeerEntry (peerEntryBytes
    ⟨uuidU, ⟨0xC0A80107, 5000⟩, ⟨0xC0A80107, 0⟩, 0, 0, 50, 50, 0, 0, []⟩ syncHopSnap)

def freshEntry : Bytes :=
  datagram msgSyncPeerEntry (peerEntryBytes
    ⟨uuidU, ⟨0xC0A80107, 5000⟩, ⟨0xC0A80107, 0⟩, 0, 0, 100, 100, 0, 0, []⟩ syncHopSnap)

theorem stale_entry_iff_fresh :
    Unmoved { now := 100 } freshEntry addr2 (step syncServer heartbeatU).1 ∧
      Advances (step syncServer heartbeatU).1 (.packet { now := 100 } freshEntry addr2) := by
  have hinit : (clocked Started).init (100, syncServer) := ⟨rfl, rfl, rfl⟩
  have hread : readDatagram freshEntry = some (msgSyncPeerEntry, _) :=
    readDatagram_datagram msgSyncPeerEntry (by decide +kernel)
  have hentry : ∀ (s : NatServer) e extinfo, Stores { now := 100 } freshEntry addr2 s e extinfo →
      e.hbTime = 100 := by
    rintro s e extinfo ⟨-, -, -, p, hp, he⟩
    rw [hread, Option.some.injEq, Prod.mk.injEq] at hp
    rw [(entryOf_eq_some.mp he).1, ← hp.2]
    decide +kernel
  have hbeat : ∀ s e extinfo, ¬Stores { now := 100 } (datagram msgHeartbeatReq
      (uuidField uuidU ++ List.replicate 10 0)) ⟨0xC0A80107, 5000⟩ s e extinfo := by
    rintro s e extinfo ⟨-, -, -, p, hp, -⟩
    rw [readDatagram_datagram msgHeartbeatReq (by decide), Option.some.injEq, Prod.mk.injEq] at hp
    exact absurd hp.1 (by decide)
  have hstart : Forward (100, syncServer) heartbeatU :=
    ⟨fun e extinfo hst => absurd hst (hbeat _ e extinfo),
      fun e extinfo hst => absurd hst (hbeat _ e extinfo)⟩
  have hnext := Reach.step (S := clocked Started) (e := heartbeatU) (Reach.start hinit) (le_refl (100 : ℤ))
    hstart
  have hreach : Reach (clocked Started) Forward (100, (step syncServer heartbeatU).1) := hnext
  have horder : InOrder { now := 100 } freshEntry addr2 (step syncServer heartbeatU).1 := by
    intro e extinfo hst r hr
    rw [hentry _ e extinfo hst]
    exact notAhead_reach hreach _ r hr
  generalize (step syncServer heartbeatU).1 = s at hreach horder ⊢
  obtain ⟨hunmoved, hadvances⟩ := stale_entry_iff (100, s)
  refine ⟨(hunmoved (hreach.mono fun _ _ _ => trivial) _ _ _).mpr horder, ?_⟩
  have hforward : Forward (100, s) (.packet { now := 100 } freshEntry addr2) := by
    refine ⟨horder, fun e extinfo hst => ?_⟩
    rw [hentry _ e extinfo hst]
    decide
  exact hadvances hreach _ (le_refl (100 : ℤ)) hforward

/-- The copy in the snapshot of another server replaces a fresher registration. -/
theorem stale_entry_replaces : ¬∀ s, Reachable (clocked Started) s → s.2.syncEnabled = true →
    ∀ env data src, s.1 ≤ env.now → Unmoved env data src s.2 := by
  intro h
  have hinit : (clocked Started).init (100, syncServer) := ⟨rfl, rfl, rfl⟩
  have hreach : Reachable (clocked Started) ((clocked Started).next (100, syncServer) heartbeatU) :=
    .step (.start hinit) (le_refl (100 : ℤ)) trivial
  have hun := h _ hreach (by decide +kernel) { now := 100 } staleEntry addr2 (le_refl (100 : ℤ))
  have hread : readDatagram staleEntry = some (msgSyncPeerEntry, _) :=
    readDatagram_datagram msgSyncPeerEntry (by decide +kernel)
  have hkept := hun _ ⟨uuidU, ⟨0xC0A80107, 5000⟩, ⟨0xC0A80107, 0⟩, 0, 0, 100, 100, 0, 0, []⟩ hread
    (by decide +kernel) (by decide +kernel)
  revert hkept
  decide +kernel

end P2PServer.SyncOrder
