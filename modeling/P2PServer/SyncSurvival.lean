import P2PServer.Registry
import P2PServer.Transitions

/-! Registrations under synchronisation: a cluster of servers with one clock, arbitrary
client datagrams, and a network that may deliver any sync message that was ever sent,
any number of times and in any order. -/
namespace P2PServer.SyncSurvival
open ByteStrings ProtoDef Net NatServer SyncCluster Registry Transitions

variable {ι : Type}

/-- `accepted` records the last heartbeat that a server accepted for a uuid, until a
request deletes that uuid there. -/
structure State (ι : Type) extends Network ι where
  now : ℤ
  accepted : ι → Bytes → Option ℤ

def acceptedUuid (env : Env) (data : Bytes) (s : NatServer) : Option Bytes :=
  match readDatagram data with
  | some (msgId, p) => (heartbeatUuid msgId p s).filter fun u => (heartbeatGate env u s).1 = 0
  | none => none

def deletedUuid (data : Bytes) : Option Bytes :=
  match readDatagram data with
  | some (msgId, p) => if msgId = msgDeleteUidReq then some (deleteUuid p) else none
  | none => none

/-- The record of accepted heartbeats after a client datagram. -/
def noteClient (env : Env) (data : Bytes) (s : NatServer) (r : Bytes → Option ℤ) :
    Bytes → Option ℤ :=
  match acceptedUuid env data s, deletedUuid data with
  | some u, _ => Function.update r u (some env.now)
  | none, some u => Function.update r u none
  | none, none => r

inductive Event (ι : Type)
  | tick (now : ℤ)
  | client (j : ι) (env : Env) (data : Bytes) (src : Addr)
  | sync (j : ι) (env : Env) (p : Packet)
  | timer (j : ι) (env : Env) (proxyDue snapDue saved : Bool) (reloaded : Option CfgData)

def next [DecidableEq ι] (C : Cluster ι) (s : State ι) : Event ι → State ι
  | .tick now => { s with now := now }
  | .client j env data src =>
    { s with
      toNetwork := s.act C j (handlePacket env data src)
      accepted := Function.update s.accepted j (noteClient env data (s.servers j) (s.accepted j)) }
  | .sync j env p => { s with toNetwork := s.act C j (handlePacket env p.data p.src) }
  | .timer j env proxyDue snapDue saved reloaded =>
    { s with toNetwork := s.act C j (timerPass env proxyDue snapDue saved reloaded) }

def enabled (C : Cluster ι) (s : State ι) : Event ι → Prop
  | .tick now => s.now ≤ now
  | .client _ env data _ => env.now = s.now ∧ isSync data = false
  | .sync j env p => env.now = s.now ∧ p ∈ s.sent ∧ p.dst = C.addr j ∧ isSync p.data = true
  | .timer _ env _ _ _ _ => env.now = s.now

def cluster [DecidableEq ι] (C : Cluster ι) : System (State ι) (Event ι) where
  init s := s.sent = [] ∧ ∀ j u, s.accepted j u = none
  enabled := enabled C
  next := next C

instance [DecidableEq ι] (C : Cluster ι) (s : State ι) :
    (e : Event ι) → Decidable ((cluster C).enabled s e)
  | .tick now => inferInstanceAs (Decidable (s.now ≤ now))
  | .client _ env data _ => inferInstanceAs (Decidable (env.now = s.now ∧ isSync data = false))
  | .sync j env p => inferInstanceAs
      (Decidable (env.now = s.now ∧ p ∈ s.sent ∧ p.dst = C.addr j ∧ isSync p.data = true))
  | .timer _ env _ _ _ _ => inferInstanceAs (Decidable (env.now = s.now))

/-- The accepted heartbeat of the last 90 seconds, if there is one. -/
def live (s : State ι) (j : ι) (u : Bytes) : Option ℤ :=
  (s.accepted j u).filter fun t => s.now ≤ t + 90

/-- No server has forgotten a peer that is heartbeating to it. -/
def Survives (s : State ι) : Prop :=
  ∀ j u t, live s j u = some t → (s.servers j).peers.existsPeer u = true

def packetChange (env : Env) (data : Bytes) (src : Addr) (s : NatServer) : Change :=
  match readDatagram data with
  | some (msgId, p) => change env msgId p src s
  | none => .keep

/-- A sync message may not delete a live uuid, nor store an older heartbeat time for it. -/
def Spares (s : State ι) (j : ι) : Change → Prop
  | .keep => True
  | .set u hb => ∀ t ∈ live s j u, t ≤ hb
  | .erase u => live s j u = none

instance (s : State ι) (j : ι) : (c : Change) → Decidable (Spares s j c)
  | .keep => .isTrue trivial
  | .set u hb => inferInstanceAs (Decidable (∀ t ∈ live s j u, t ≤ hb))
  | .erase u => inferInstanceAs (Decidable (live s j u = none))

/-- Sync messages spare the live registrations, and a heartbeat names a uuid. -/
def Harmless (s : State ι) : Event ι → Prop
  | .client j env data _ => acceptedUuid env data (s.servers j) ≠ some []
  | .sync j env p => Spares s j (packetChange env p.data p.src (s.servers j))
  | .tick _ | .timer _ _ _ _ _ _ => True

instance (s : State ι) : (e : Event ι) → Decidable (Harmless s e)
  | .client j env data _ => inferInstanceAs (Decidable (acceptedUuid env data (s.servers j) ≠ some []))
  | .sync j env p =>
    inferInstanceAs (Decidable (Spares s j (packetChange env p.data p.src (s.servers j))))
  | .tick _ | .timer _ _ _ _ _ _ => .isTrue trivial

theorem handlePacket_heartbeats (env : Env) (data : Bytes) (src : Addr) (s : NatServer) :
    heartbeats (handlePacket env data src s).1.peers =
      (packetChange env data src s).apply (heartbeats s.peers) := by
  unfold handlePacket packetChange
  cases h : readDatagram data with
  | none => rfl
  | some r => exact dispatch_heartbeats env r.1 r.2 src s

theorem heartbeatUuid_length {msgId : UInt8} {p : Bytes} {s : NatServer} {u : Bytes}
    (h : heartbeatUuid msgId p s = some u) : u.length ≤ maxUuidLen := by
  have hraw : ∀ q : Bytes, (cstr (q.take maxUuidLen ++ [0])).length ≤ maxUuidLen := by
    intro q
    rw [cstr_append_zero]
    exact List.IsPrefix.length_le ( List.takeWhile_prefix _) |>.trans (List.length_take_le _ _)
  unfold heartbeatUuid at h
  split at h
  · split at h
    · cases h
    · cases h
      exact hraw p
  · split at h
    · split at h
      · cases h
      · cases h
        exact hraw p
    · cases h

theorem packetChange_accepted {env : Env} {data : Bytes} {s : NatServer} {u : Bytes} (src : Addr)
    (h : acceptedUuid env data s = some u) (hu : u ≠ []) :
    packetChange env data src s = .set u env.now := by
  unfold acceptedUuid at h
  unfold packetChange
  cases hr : readDatagram data with
  | none => simp [hr] at h
  | some r =>
    simp only [hr] at h ⊢
    obtain ⟨hid, hgate⟩ := Option.filter_eq_some_iff.mp h
    have hv : PeerManager.validUuid u = true := by
      have hl := heartbeatUuid_length hid
      simp [PeerManager.validUuid, hu, hl]
    simp only [decide_eq_true_eq] at hgate
    simp [change, hid, heartbeatChange, hgate, hv]

theorem packetChange_client (env : Env) {data : Bytes} (src : Addr) (s : NatServer)
    (h : isSync data = false) :
    packetChange env data src s = .keep ∨
      (∃ u, packetChange env data src s = .set u env.now) ∨
      ∃ u, packetChange env data src s = .erase u ∧ deletedUuid data = some u := by
  unfold isSync at h
  unfold packetChange deletedUuid
  cases hr : readDatagram data with
  | none => exact .inl rfl
  | some r =>
    obtain ⟨msgId, p⟩ := r
    simp only [hr, syncMessages, List.contains_cons, List.contains_nil, Bool.or_false,
      Bool.or_eq_false_iff, beq_eq_false_iff_ne] at h
    simp only [change, if_neg h.1, if_neg h.2.1]
    cases heartbeatUuid msgId p s with
    | some u =>
      simp only [heartbeatChange]
      split
      · exact .inr (.inl ⟨u, rfl⟩)
      · exact .inl rfl
    | none =>
      by_cases hs : msgId = msgSndExtinfoReq ∧ p.length ≥ 33
      · simp only [if_pos hs, sndExtinfoChange]
        split
        · exact .inl rfl
        · split
          · exact .inr (.inl ⟨_, rfl⟩)
          · exact .inl rfl
      · simp only [if_neg hs]
        by_cases hd : msgId = msgDeleteUidReq
        · simp only [if_pos hd]
          exact .inr (.inr ⟨_, rfl, rfl⟩)
        · simp only [if_neg hd]
          exact .inl trivial

theorem packetChange_deleted {env : Env} {data : Bytes} {s : NatServer} {u : Bytes} (src : Addr)
    (h : deletedUuid data = some u) :
    packetChange env data src s = .erase u ∧ acceptedUuid env data s = none := by
  unfold deletedUuid at h
  unfold packetChange acceptedUuid
  cases hr : readDatagram data with
  | none => simp [hr] at h
  | some r =>
    obtain ⟨msgId, p⟩ := r
    simp only [hr] at h ⊢
    split at h
    · rename_i hid
      subst hid
      cases h
      exact ⟨rfl, rfl⟩
    · cases h

/-- A live uuid is registered (`r`) with a heartbeat time at least as late as the last heartbeat that the
server accepted for it (`a`). -/
def Kept (now : ℤ) (r a : Bytes → Option ℤ) : Prop :=
  ∀ u t, a u = some t → t ≤ now ∧ (now ≤ t + 90 → ∃ hb, r u = some hb ∧ t ≤ hb)

theorem Kept.later {now now' : ℤ} {r a : Bytes → Option ℤ} (h : Kept now r a) (hn : now ≤ now') :
    Kept now' r a := by
  intro u t ha
  obtain ⟨ht, hr⟩ := h u t ha
  exact ⟨by omega, fun hl => hr (by omega)⟩

theorem Kept.set {now : ℤ} {r a : Bytes → Option ℤ} (h : Kept now r a) {v : Bytes} {hb : ℤ}
    (hv : ∀ t, a v = some t → now ≤ t + 90 → t ≤ hb) :
    Kept now ((Change.set v hb).apply r) a := by
  intro u t ha
  obtain ⟨ht, hr⟩ := h u t ha
  refine ⟨ht, fun hl => ?_⟩
  by_cases hu : u = v
  · subst hu
    exact ⟨hb, by simp [Change.apply], hv t ha hl⟩
  · simpa [Change.apply, hu] using hr hl

theorem Kept.erase {now : ℤ} {r a : Bytes → Option ℤ} (h : Kept now r a) {v : Bytes}
    (hv : ∀ t, a v = some t → ¬now ≤ t + 90) : Kept now ((Change.erase v).apply r) a := by
  intro u t ha
  obtain ⟨ht, hr⟩ := h u t ha
  refine ⟨ht, fun hl => ?_⟩
  by_cases hu : u = v
  · subst hu
    exact absurd hl (hv t ha)
  · simpa [Change.apply, hu] using hr hl

theorem Kept.forget {now : ℤ} {r a : Bytes → Option ℤ} (h : Kept now r a) (v : Bytes) :
    Kept now ((Change.erase v).apply r) (Function.update a v none) := by
  intro u t ha
  by_cases hu : u = v
  · subst hu
    simp at ha
  · simp only [Function.update_of_ne hu] at ha
    simpa [Change.apply, hu] using h u t ha

theorem Kept.accept {now : ℤ} {r a : Bytes → Option ℤ} (h : Kept now r a) (v : Bytes) :
    Kept now ((Change.set v now).apply r) (Function.update a v (some now)) := by
  intro u t ha
  by_cases hu : u = v
  · subst hu
    simp only [Function.update_self, Option.some.injEq] at ha
    subst ha
    exact ⟨le_rfl, fun _ => ⟨now, by simp [Change.apply], le_rfl⟩⟩
  · simp only [Function.update_of_ne hu] at ha
    simpa [Change.apply, hu] using h u t ha

theorem Kept.timer {now : ℤ} {r r' a : Bytes → Option ℤ} (h : Kept now r a)
    (hr : ∀ u, r' u = (r u).filter fun hb => !decide (now - hb > 90)) : Kept now r' a := by
  intro u t ha
  obtain ⟨ht, hk⟩ := h u t ha
  refine ⟨ht, fun hl => ?_⟩
  obtain ⟨hb, hb1, hb2⟩ := hk hl
  have hlate : ¬now - hb > 90 := by omega
  exact ⟨hb, by simp [hr, hb1, Option.filter, hlate], hb2⟩

theorem Kept.client {env : Env} {data : Bytes} {s : NatServer} {a : Bytes → Option ℤ}
    (src : Addr) (h : Kept env.now (heartbeats s.peers) a) (hsync : isSync data = false)
    (hne : acceptedUuid env data s ≠ some []) :
    Kept env.now (heartbeats (handlePacket env data src s).1.peers) (noteClient env data s a) := by
  rw [handlePacket_heartbeats]
  unfold noteClient
  cases ha : acceptedUuid env data s with
  | some u =>
    rw [packetChange_accepted src ha (fun hu => hne (hu ▸ ha))]
    exact h.accept u
  | none =>
    cases hd : deletedUuid data with
    | some u =>
      rw [(packetChange_deleted src hd).1]
      exact h.forget u
    | none =>
      rcases packetChange_client env src s hsync with hc | ⟨u, hc⟩ | ⟨u, -, hdu⟩
      · rw [hc]
        exact h
      · rw [hc]
        exact h.set fun t hat _ => (h u t hat).1
      · rw [hd] at hdu
        cases hdu

def Inv (s : State ι) : Prop := ∀ j, Kept s.now (heartbeats (s.servers j).peers) (s.accepted j)

theorem mem_live {s : State ι} {j : ι} {u : Bytes} {t : ℤ} :
    live s j u = some t ↔ s.accepted j u = some t ∧ s.now ≤ t + 90 := by
  simp [live, Option.filter_eq_some_iff]

theorem Inv.survives {s : State ι} (h : Inv s) : Survives s := by
  intro j u t hl
  obtain ⟨ha, hn⟩ := mem_live.mp hl
  obtain ⟨hb, hr, -⟩ := (h j u t ha).2 hn
  unfold heartbeats at hr
  obtain ⟨p, hp, -⟩ := Option.map_eq_some_iff.mp hr
  unfold PeerManager.existsPeer
  rw [Std.ExtTreeMap.contains_eq_isSome_getElem?, hp]
  rfl

/-- An action of server `j` that keeps its own registry in order keeps all of them. -/
theorem Inv.act [DecidableEq ι] {C : Cluster ι} {s : State ι} (h : Inv s) {j : ι} {f : Action}
    (hf : Kept s.now (heartbeats (f (s.servers j)).1.peers) (s.accepted j)) :
    Inv { s with toNetwork := s.act C j f } := by
  intro i
  by_cases hi : i = j
  · subst hi
    simpa [Network.act] using hf
  · simpa [Network.act, hi] using h i

theorem inv_step [DecidableEq ι] {C : Cluster ι} {s : State ι} {e : Event ι} (h : Inv s)
    (he : enabled C s e) (hok : Harmless s e) : Inv (next C s e) := by
  cases e with
  | tick now => exact fun j => (h j).later he
  | client j env data src =>
    obtain ⟨hnow, hsync⟩ := he
    have hj : Kept env.now (heartbeats (s.servers j).peers) (s.accepted j) := hnow ▸ h j
    have hk := hj.client src hsync hok
    intro i
    by_cases hi : i = j
    · subst hi
      simpa [next, Network.act, hnow] using hk
    · simpa [next, Network.act, hi] using h i
  | sync j env p =>
    refine h.act ?_
    rw [handlePacket_heartbeats]
    have hsp : Spares s j (packetChange env p.data p.src (s.servers j)) := hok
    cases hc : packetChange env p.data p.src (s.servers j) with
    | keep => exact h j
    | set u hb =>
      rw [hc] at hsp
      exact (h j).set fun t ha hl => hsp t (mem_live.mpr ⟨ha, hl⟩)
    | erase u =>
      rw [hc] at hsp
      refine (h j).erase fun t ha hl => ?_
      have hl' := mem_live.mpr ⟨ha, hl⟩
      have hnone : live s j u = none := hsp
      rw [hnone] at hl'
      cases hl'
  | timer j env proxyDue snapDue saved reloaded =>
    refine h.act ((h j).timer fun u => ?_)
    rw [timerPass_heartbeats, he]

/-- In every run in which no sync message deletes a live uuid or stores an older time for
it, no server forgets a peer within 90 seconds of an accepted heartbeat. -/
theorem live_registered [DecidableEq ι] (C : Cluster ι) {s : State ι}
    (h : Reach (cluster C) Harmless s) : Survives s := by
  have hi : Inv s := by
    refine h.invariant (fun s h0 j u t ha => ?_) fun s e hi he hok => inv_step hi he hok
    rw [h0.2] at ha
    cases ha
  exact hi.survives

def pair : Cluster (Fin 2) where
  addr i := ⟨UInt32.ofNat (0x0A000001 + i.val), 9000⟩
  addr_injective := by decide

def pairStart : State (Fin 2) where
  now := 0
  servers i := { syncOn := true, syncAddrs := [pair.addr (1 - i)] }
  sent := []
  accepted _ _ := none

theorem pairStart_init : (cluster pair).init pairStart := ⟨rfl, fun _ _ => rfl⟩

def heartbeatU (j : Fin 2) (now : ℤ) : Event (Fin 2) :=
  .client j { now := now } (datagram msgHeartbeatReq (uuidField [0x75] ++ List.replicate 10 0))
    ⟨0xC0A80107, 5000⟩

def timerOf (j : Fin 2) (now : ℤ) : Event (Fin 2) := .timer j { now := now } false false false none

def deletionU (now : ℤ) : Event (Fin 2) :=
  .sync 0 { now := now } ⟨pair.addr 1, pair.addr 0, datagram msgSyncPeerDel (syncPeerDel [0x75])⟩

/-- The peer heartbeats to the second server, whose copy times out. Its deletion reaches
the first server before the peer turns to that one. -/
def quietRun : List (Event (Fin 2)) :=
  [heartbeatU 1 0, .tick 91, timerOf 1 91, deletionU 91, heartbeatU 0 91, .tick 181, timerOf 0 181]

theorem live_registered_quietRun :
    Survives (quietRun.foldl (next pair) pairStart) ∧
      live (quietRun.foldl (next pair) pairStart) 0 [0x75] = some 91 := by
  have hrun : Run (cluster pair) Harmless pairStart quietRun := by decide +kernel
  have hreach : Reach (cluster pair) Harmless (quietRun.foldl (next pair) pairStart) :=
    Reach.run (.start pairStart_init) hrun
  exact ⟨live_registered pair hreach, by decide +kernel⟩

/-- The peer moves to the first server, but the second keeps its old record and its
deletion arrives after the move. -/
def movedRun : List (Event (Fin 2)) :=
  [heartbeatU 1 0, .tick 91, heartbeatU 0 91, timerOf 1 91, deletionU 91]

/-- A timed-out copy elsewhere makes a server forget a peer that is heartbeating to it. -/
theorem live_forgotten : ¬∀ s, Reachable (cluster pair) s → Survives s := by
  intro h
  have hrun : Run (cluster pair) (fun _ _ => True) pairStart movedRun := by decide +kernel
  have hreach : Reachable (cluster pair) (movedRun.foldl (next pair) pairStart) :=
    Reach.run (.start pairStart_init) hrun
  have hlive : live (movedRun.foldl (next pair) pairStart) 0 [0x75] = some 91 := by decide +kernel
  have hgone : ((movedRun.foldl (next pair) pairStart).servers 0).peers.existsPeer [0x75] =
      false := by decide +kernel
  have hs := h _ hreach 0 [0x75] 91 hlive
  rw [hgone] at hs
  cases hs

end P2PServer.SyncSurvival
