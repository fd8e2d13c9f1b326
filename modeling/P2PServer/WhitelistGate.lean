import P2PServer.Gates

/-! The whitelist over whole runs. An empty whitelist admits every uuid, and
`MSG_DELETE_UID_REQ` takes uuids out of it without passing a gate. -/
namespace P2PServer.WhitelistGate
open ByteStrings ProtoDef Net NatServer SyncCluster Registry PacketCases ServerRun Gates Transitions

/-- The step does nothing for `u`: it does not register it either. -/
structure Barred (u : Bytes) (s : NatServer) (e : Event) : Prop extends Unserved u s e where
  peers : (step s e).1.peers.existsPeer u = true → s.peers.existsPeer u = true

/-- A server with the whitelist `W`. -/
structure Licensed (W : Std.ExtTreeSet Bytes) (s : NatServer) : Prop where
  enabled : s.cfg.enableLicense = true
  syncOff : s.syncEnabled = false
  whitelist : s.license.uuids = W
  nonempty : W.isEmpty = false
  wellFiled : s.peers.WellFiled

/-- The configuration is not read again. -/
def Constant : Event → Prop
  | .packet _ _ _ => True
  | .timer _ _ _ _ reloaded => reloaded = none

/-- Runs of a server with the whitelist `W` and a constant configuration. -/
def licensed (W : Std.ExtTreeSet Bytes) : System NatServer Event :=
  { server (Licensed W) with enabled := fun _ e => Constant e }

/-- No request deletes the last uuid of the whitelist. -/
def LeavesOne (s : NatServer) : Event → Prop
  | .packet _ data _ => (licenseAfter data s).uuids.isEmpty = false
  | .timer _ _ _ _ _ => True

/-- The whitelist in force is a non-empty part of `W`. -/
structure Inv (W : Std.ExtTreeSet Bytes) (s : NatServer) : Prop where
  enabled : s.cfg.enableLicense = true
  syncOff : s.syncEnabled = false
  within : ∀ u, s.license.uuids.contains u = true → W.contains u = true
  nonempty : s.license.uuids.isEmpty = false
  wellFiled : s.peers.WellFiled

theorem Licensed.inv {W : Std.ExtTreeSet Bytes} {s : NatServer} (h : Licensed W s) : Inv W s where
  enabled := h.enabled
  syncOff := h.syncOff
  within _ hu := h.whitelist ▸ hu
  nonempty := h.whitelist ▸ h.nonempty
  wellFiled := h.wellFiled

theorem licenseAfter_within {data : Bytes} {s : NatServer} {u : Bytes}
    (h : (licenseAfter data s).uuids.contains u = true) : s.license.uuids.contains u = true := by
  unfold licenseAfter at h
  split at h
  · exact h
  · split at h
    · exact Std.ExtTreeSet.contains_of_contains_erase h
    · exact h

theorem Inv.step {W : Std.ExtTreeSet Bytes} {s : NatServer} (h : Inv W s) {e : Event}
    (hc : Constant e) (hl : LeavesOne s e) : Inv W (step s e).1 := by
  have hw := wellFiled_step h.wellFiled e
  cases e with
  | packet env data src =>
    obtain ⟨hsetup, hlic⟩ := handlePacket_setup env data src s
    refine ⟨?_, ?_, fun u hu => ?_, ?_, hw⟩
    · rw [ServerRun.step, hsetup.cfg, h.enabled]
    · rw [ServerRun.step, hsetup.syncEnabled, h.syncOff]
    · rw [ServerRun.step, hlic] at hu
      exact h.within u (licenseAfter_within hu)
    · rw [ServerRun.step, hlic]
      exact hl
  | timer env proxyDue snapDue saved reloaded =>
    have hr : reloaded = none := hc
    subst hr
    have hcore := (timerPass_spec env proxyDue snapDue saved none s).1
    have hsetup : SameSetup s (timerPass env proxyDue snapDue saved none s).1 :=
      ⟨congrArg Core.cfg hcore, congrArg Core.syncOn hcore, congrArg Core.syncAddrs hcore⟩
    have hlic : (timerPass env proxyDue snapDue saved none s).1.license = s.license :=
      congrArg Core.license hcore
    refine ⟨?_, ?_, fun u hu => ?_, ?_, hw⟩
    · rw [ServerRun.step, hsetup.cfg, h.enabled]
    · rw [ServerRun.step, hsetup.syncEnabled, h.syncOff]
    · rw [ServerRun.step, hlic] at hu
      exact h.within u hu
    · rw [ServerRun.step, hlic]
      exact h.nonempty

theorem Inv.not_permits {W : Std.ExtTreeSet Bytes} {s : NatServer} (h : Inv W s) {u : Bytes}
    (hu : W.contains u = false) : s.license.permits u = false := by
  unfold LicenseMgr.permits
  rw [h.nonempty, Bool.false_or]
  by_contra hc
  rw [h.within u (by simpa using hc)] at hu
  cases hu

theorem heartbeatGate_ne {env : Env} {s : NatServer} {u : Bytes}
    (hl : s.cfg.enableLicense = true) (hp : s.license.permits u = false) :
    (heartbeatGate env u s).1 ≠ 0 := by
  unfold heartbeatGate
  split
  · exact (by decide : (1 : UInt8) ≠ 0)
  · simp [hl, hp]

theorem authGate_ne {env : Env} {s : NatServer} {u : Bytes}
    (hl : s.cfg.enableLicense = true) (hp : s.license.permits u = false) :
    (authGate env u s).1 ≠ 0 := by
  unfold authGate
  dsimp only
  split
  · exact (by decide : (1 : UInt8) ≠ 0)
  · simp [hl, hp]

theorem Inv.barred {W : Std.ExtTreeSet Bytes} {s : NatServer} (h : Inv W s) (e : Event) {u : Bytes}
    (hu : W.contains u = false) : Barred u s e := by
  have hp := h.not_permits hu
  cases e with
  | packet env data src =>
    have hun : Unserved u s (.packet env data src) := by
      refine unserved_packet (authGate_ne h.enabled hp) fun p _ hsrc => ?_
      simp [connects, hsrc, h.enabled, hp]
    exact ⟨hun, fun hx =>
      existsPeer_of_refused h.wellFiled h.syncOff (heartbeatGate_ne h.enabled hp) hx⟩
  | timer env proxyDue snapDue saved reloaded =>
    exact ⟨unserved_timer env proxyDue snapDue saved reloaded s u, existsPeer_timer⟩

/-- In every run in which no request deletes the last uuid of the whitelist, no step
registers, challenges, logs in or connects a uuid outside the initial whitelist. -/
theorem outsider_barred {W : Std.ExtTreeSet Bytes} {s : NatServer}
    (h : Reach (licensed W) LeavesOne s) (e : Event) {u : Bytes} (hu : W.contains u = false) :
    Barred u s e := by
  have hi : Inv W s :=
    h.invariant (fun _ h0 => Licensed.inv h0) fun _ _ hi hc hok => hi.step hc hok
  exact hi.barred e hu

/-- A server whose whitelist has the uuid `a` and perhaps `b`. -/
def licensedServer (W : Std.ExtTreeSet Bytes) : NatServer :=
  { cfg := { enableLicense := true }, license := { uuids := W } }

theorem licensedServer_init {W : Std.ExtTreeSet Bytes} (h : W.isEmpty = false) :
    (licensed W).init (licensedServer W) :=
  ⟨rfl, rfl, rfl, h, fun u p hp => by simp [licensedServer] at hp⟩

open Samples (uuidA uuidB uuidU)

def deletionReq (uuid : Bytes) : Event :=
  .packet {} (datagram msgDeleteUidReq (uuidField uuid)) ⟨0xC0A80107, 5000⟩

def heartbeatReq (uuid : Bytes) : Event :=
  .packet {} (datagram msgHeartbeatReq (uuidField uuid ++ List.replicate 10 0)) ⟨0xC0A80107, 5000⟩

instance (s : NatServer) : (e : Event) → Decidable (LeavesOne s e)
  | .packet _ data _ => inferInstanceAs (Decidable ((licenseAfter data s).uuids.isEmpty = false))
  | .timer _ _ _ _ _ => .isTrue trivial

instance (W : Std.ExtTreeSet Bytes) (s : NatServer) :
    (e : Event) → Decidable ((licensed W).enabled s e)
  | .packet _ _ _ => .isTrue trivial
  | .timer _ _ _ _ reloaded => inferInstanceAs (Decidable (reloaded = none))

/-- With two uuids on the whitelist, one of them may be deleted. -/
theorem outsider_barred_twoUuids :
    Barred uuidU ([deletionReq uuidB].foldl (licensed {uuidA, uuidB}).next
      (licensedServer {uuidA, uuidB})) (heartbeatReq uuidU) := by
  have hrun : Run (licensed {uuidA, uuidB}) LeavesOne (licensedServer {uuidA, uuidB})
      [deletionReq uuidB] := by decide +kernel
  have hreach := Reach.run (.start (licensedServer_init (by decide +kernel))) hrun
  exact outsider_barred hreach (heartbeatReq uuidU) (by decide +kernel)

/-- Once the only uuid of the whitelist is deleted, any other one registers. -/
theorem outsider_registers : ¬∀ (W : Std.ExtTreeSet Bytes) (s : NatServer),
    Reachable (licensed W) s → ∀ e, Constant e → ∀ u, W.contains u = false → Barred u s e := by
  intro h
  have hrun : Run (licensed {uuidA}) (fun _ _ => True) (licensedServer {uuidA})
      [deletionReq uuidA] := by decide +kernel
  have hreach := Reach.run (.start (licensedServer_init (by decide +kernel))) hrun
  have hb := h _ _ hreach (heartbeatReq uuidU) trivial uuidU (by decide +kernel)
  have hnew := hb.peers (by decide +kernel)
  revert hnew
  decide +kernel

end P2PServer.WhitelistGate
