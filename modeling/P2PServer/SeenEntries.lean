import P2PServer.Expiry
import P2PServer.SyncConvergence

/-! The table of seen entries (`seen_sync_entry` in `NatServer.cpp`) over whole runs: an incremental
entry is dropped exactly if the same entry from the same server was applied less than 300 seconds
before. That the table is pruned when it grows, and otherwise keeps what is old, makes no difference. -/
namespace P2PServer.SeenEntries
open ByteStrings ProtoDef Net NatServer Effects PacketCases ServerRun Transitions Expiry
open SyncConvergence (append_separator_inj)

/-- An entry is known by its uuid, its heartbeat time and its sender. -/
abbrev Key := Bytes × UInt32 × Addr

/-- The incremental entry that a step hands to `seen_sync_entry`. -/
def increment (s : NatServer) : Event → Option (SyncPeerEntry × Bytes × Addr)
  | .timer .. => none
  | .packet _ data src =>
    match readDatagram data with
    | none => none
    | some (msgId, p) =>
      if msgId = msgSyncPeerEntry ∧ s.syncEnabled = true then
        match entryOf s.cfg.syncAuthSecret p with
        | none => none
        | some (e, extinfo) => if e.uuid ≠ [] ∧ e.hop ≠ syncHopSnap then some (e, extinfo, src) else none
      else none

/-- The entry that a step applies. -/
def applied (s : NatServer) (e : Event) : Option Key :=
  match increment s e with
  | none => none
  | some (entry, _, src) =>
    if (seenSyncEntry { now := e.now } entry.uuid entry.hbTime src s).1 then none
    else some (entry.uuid, entry.hbTime, src)

/-- The times at which an entry was applied in a run. -/
def times (k : Key) : ℤ × NatServer → List Event → List ℤ
  | _, [] => []
  | s, e :: es => (if applied s.2 e = some k then [e.now] else []) ++ times k (e.now, (step s.2 e).1) es

/-- An entry is remembered for 300 seconds. -/
def memory : Lifetime ℤ ℤ where
  alive now t := now - t < 300
  early h := by
    simp only [decide_eq_true_eq]
    omega

def seen (s : NatServer) (k : Key) : Option ℤ := s.syncSeen[seenKey k.1 k.2.1 k.2.2]?

theorem seenKey_injective {u u' : Bytes} {t t' : UInt32} {a a' : Addr} (h : seenKey u t a = seenKey u' t' a') :
    u = u' ∧ t = t' ∧ a = a' := by
  have hcolon (n : ℕ) : (0x3a : UInt8) ∉ decimalNat n := fun hm => absurd (Decimals.ofNat_range hm).2 (by decide)
  have hbar (n : ℕ) : (0x7c : UInt8) ∉ decimalNat n := fun hm => absurd (Decimals.ofNat_range hm).2 (by decide)
  unfold seenKey at h
  rw [List.append_assoc _ [0x3a], List.append_assoc _ [0x3a]] at h
  obtain ⟨hhead, hport⟩ := append_separator_inj (hcolon _) (hcolon _) h
  rw [List.append_assoc _ [0x7c] (decimalNat a.ip.toNat), List.append_assoc _ [0x7c] (decimalNat a'.ip.toNat)] at hhead
  obtain ⟨hhead, hip⟩ := append_separator_inj (hbar _) (hbar _) hhead
  rw [List.append_assoc, List.append_assoc] at hhead
  obtain ⟨hu, ht⟩ := append_separator_inj (hbar _) (hbar _) hhead
  refine ⟨hu, UInt32.toNat_inj.mp (Decimals.ofNat_injective ht), ?_⟩
  obtain ⟨ip, port⟩ := a
  rw [Addr.mk.injEq]
  exact ⟨UInt32.toNat_inj.mp (Decimals.ofNat_injective hip), UInt16.toNat_inj.mp (Decimals.ofNat_injective hport)⟩

theorem seenSyncEntry_shown (env : Env) (uuid : Bytes) (hbTime : UInt32) (src : Addr) (s : NatServer) :
    (seenSyncEntry env uuid hbTime src s).1 = (shown memory env.now (seen s) (uuid, hbTime, src)).isSome := by
  unfold seenSyncEntry
  rw [shown, seen]
  cases h : s.syncSeen[seenKey uuid hbTime src]? with
  | none => simp [h]
  | some t =>
    by_cases ht : env.now - t < 300 <;> simp [h, memory, ht]

/-- A new key, and the pruning of the table. -/
theorem noteSeen_agree {s r : NatServer} {now : ℤ} {k : Key}
    (h : r.syncSeen = noteSeen now (seenKey k.1 k.2.1 k.2.2) s.syncSeen) :
    Agree memory now (seen r) (Function.update (seen s) k (some now)) := by
  have hinsert (j : Key) : (s.syncSeen.insert (seenKey k.1 k.2.1 k.2.2) now)[seenKey j.1 j.2.1 j.2.2]? =
      Function.update (seen s) k (some now) j := by
    rw [TreeMaps.insert_get, Function.update_apply]
    by_cases hj : j = k
    · rw [if_pos hj, if_pos (by rw [hj])]
    · rw [if_neg hj, if_neg]
      · rfl
      · intro hk
        obtain ⟨h1, h2, h3⟩ := seenKey_injective hk
        exact hj (Prod.ext h1 (Prod.ext h2 h3))
  refine .purge fun j => ?_
  rw [← hinsert, seen, h, noteSeen]
  split
  · have hsame : (fun t : ℤ => !decide (now - t ≥ 300)) = memory.alive now := by
      funext t
      rw [Bool.eq_iff_iff]
      simp [memory]
    rw [TreeMaps.filter_get, hsame]
    have hcases := Option.eq_none_or_eq_some
      (((s.syncSeen.insert (seenKey k.1 k.2.1 k.2.2) now)[seenKey j.1 j.2.1 j.2.2]?).filter (memory.alive now))
    rcases hcases with hn | ⟨t, ht⟩
    · exact .inr ⟨hn, hn⟩
    · rw [ht, (Option.filter_eq_some_iff.mp ht).1]
      exact .inl rfl
  · exact .inl rfl

theorem handlePacket_increment {env : Env} {data : Bytes} {src : Addr} {s : NatServer} {e : SyncPeerEntry}
    {extinfo : Bytes} {peer : Addr} (h : increment s (.packet env data src) = some (e, extinfo, peer)) :
    peer = src ∧ e.uuid ≠ [] ∧ e.hop ≠ syncHopSnap ∧ s.syncEnabled = true ∧
      handlePacket env data src s = handleSyncEntry env e extinfo src s := by
  unfold increment at h
  dsimp only at h
  split at h
  · cases h
  · rename_i msgId p hread
    split at h
    · rename_i hid
      split at h
      · cases h
      · rename_i e' extinfo' he
        split at h
        · rename_i hnew
          cases h
          refine ⟨rfl, hnew.1, hnew.2, hid.2, ?_⟩
          rw [handlePacket_entry (hid.1 ▸ hread), onSyncPeerEntry_handed, he]
        · cases h
    · cases h

theorem handlePacket_seen_other {env : Env} {data : Bytes} {src : Addr} {s : NatServer}
    (h : increment s (.packet env data src) = none) : (handlePacket env data src s).1.syncSeen = s.syncSeen := by
  rcases handlePacket_handled env data src s with hh | ⟨msgId, p, hread, hh⟩
  · rw [hh]
  · generalize handlePacket env data src s = r at hh ⊢
    cases hh with
    | ignored => rfl
    | heartbeat => exact congrArg Core.syncSeen (handleHeartbeat_core ..)
    | sndExtinfo => exact congrArg Core.syncSeen (onSndExtinfoReq_core ..)
    | connect => exact congrArg Core.syncSeen (onConnectReq_core ..)
    | deleteUid => exact congrArg Core.syncSeen (onDeleteUidReq_core ..)
    | challenge => exact congrArg Core.syncSeen (onAuthChallengeReq_core ..)
    | login hid hlen =>
      rw [onAuthLoginReq_fst env p src s hlen]
      obtain ⟨m, n, hc⟩ := loginResult_core env p s
      exact congrArg Core.syncSeen hc
    | @entry hid e extinfo he =>
      have hent := handleSyncEntry_entered env e extinfo src s
      generalize handleSyncEntry env e extinfo src s = r at hent ⊢
      cases hent with
      | ignored => rfl
      | seen => rfl
      | snapshot => rfl
      | increment hon hu hhop =>
        simp [increment, hread, hid, hon, he, hu, hhop] at h
    | del => exact congrArg Core.syncSeen (handleSyncDel_core ..)
    | snapshot => exact congrArg Core.syncSeen (handleSyncSnapshotReq_core ..)
    | other _ hcore _ => exact congrArg Core.syncSeen hcore

theorem step_seen (s : NatServer) (e : Event) : Agree memory e.now (seen (step s e).1)
    (written (seen s) ((applied s e).toList.map fun k => (k, some e.now))) := by
  cases e with
  | timer env proxyDue snapDue saved reloaded =>
    have hcore := congrArg Core.syncSeen (timerPass_spec env proxyDue snapDue saved reloaded s).1
    have hsame : seen (step s (.timer env proxyDue snapDue saved reloaded)).1 = seen s := by
      funext k
      rw [seen, show (step s (.timer env proxyDue snapDue saved reloaded)).1.syncSeen = s.syncSeen from hcore]
      rfl
    rw [hsame]
    exact .refl
  | packet env data src =>
    cases hi : increment s (.packet env data src) with
    | none =>
      have hsame : seen (step s (.packet env data src)).1 = seen s := by
        funext k
        rw [seen, show (step s (.packet env data src)).1.syncSeen = s.syncSeen from handlePacket_seen_other hi]
        rfl
      rw [hsame, applied, hi]
      exact .refl
    | some x =>
      obtain ⟨e, extinfo, peer⟩ := x
      obtain ⟨rfl, hu, hhop, hon, hp⟩ := handlePacket_increment hi
      have hent := handleSyncEntry_entered env e extinfo peer s
      rw [ServerRun.step, hp, applied, hi]
      dsimp only
      generalize handleSyncEntry env e extinfo peer s = r at hent ⊢
      have hverdict : (seenSyncEntry { now := (Event.packet env data peer).now } e.uuid e.hbTime peer s).1 =
          (seenSyncEntry env e.uuid e.hbTime peer s).1 := by
        rw [seenSyncEntry_shown, seenSyncEntry_shown]
        rfl
      cases hent with
      | ignored hno =>
        rcases hno with hno | hno
        · rw [hon] at hno
          cases hno
        · exact absurd hno hu
      | seen _ _ _ hseen =>
        rw [hverdict, if_pos hseen]
        exact .refl
      | snapshot _ _ hsnap => exact absurd hsnap hhop
      | increment _ _ _ hnew =>
        have hmiss : ¬(seenSyncEntry { now := (Event.packet env data peer).now } e.uuid e.hbTime peer s).1 = true := by
          rw [hverdict, hnew]
          decide
        rw [if_neg hmiss]
        exact noteSeen_agree (k := (e.uuid, e.hbTime, peer)) rfl

theorem times_append (k : Key) (s : ℤ × NatServer) (es : List Event) (e : Event) :
    times k s (es ++ [e]) = times k s es ++
      if applied (es.foldl (clocked Started).next s).2 e = some k then [e.now] else [] := by
  induction es generalizing s with
  | nil =>
    rw [List.nil_append, times, times, times, List.append_nil, List.nil_append]
    exact if_congr Iff.rfl rfl rfl
  | cons e' es ih =>
    rw [List.cons_append, times, ih, times, List.append_assoc]
    rfl

def lastTime (s : ℤ × NatServer) (es : List Event) (k : Key) : Option ℤ := (times k s es).getLast?

theorem lastTime_append (s : ℤ × NatServer) (es : List Event) (e : Event) :
    lastTime s (es ++ [e]) = written (lastTime s es)
      ((applied (es.foldl (clocked Started).next s).2 e).toList.map fun k => (k, some e.now)) := by
  funext k
  rw [lastTime, times_append]
  cases applied (es.foldl (clocked Started).next s).2 e with
  | none => simp [written, lastTime]
  | some j =>
    by_cases hj : j = k
    · simp [written, hj]
    · simp [written, hj, lastTime, Ne.symm hj]

theorem seen_agree {s : ℤ × NatServer} (hs : Started s.2) {es : List Event}
    (hr : Run (clocked Started) (fun _ _ => True) s es) :
    Agree memory (es.foldl (clocked Started).next s).1 (seen (es.foldl (clocked Started).next s).2)
      (lastTime s es) := by
  refine (Run.history (J := fun es r => r = es.foldl (clocked Started).next s ∧
    Agree memory r.1 (seen r.2) (lastTime s es)) ⟨rfl, ?_⟩ ?_ hr).2
  · refine .purge fun k => .inl ?_
    rw [seen, List.foldl_nil, hs.syncSeen]
    rfl
  · rintro es r e ⟨rfl, h⟩ can -
    rw [List.foldl_append, lastTime_append]
    exact ⟨rfl, (step_seen _ e).trans ((h.later can).written _)⟩

/-- In every run, an incremental entry that arrives is applied unless it was applied less than 300
seconds before. -/
theorem entry_applied_iff {s : ℤ × NatServer} (hs : Started s.2) {es : List Event}
    (hr : Run (clocked Started) (fun _ _ => True) s es) {env : Env} {data : Bytes} {src : Addr}
    (hnow : (es.foldl (clocked Started).next s).1 ≤ env.now) {e : SyncPeerEntry} {extinfo : Bytes}
    (h : increment (es.foldl (clocked Started).next s).2 (.packet env data src) = some (e, extinfo, src)) :
    (∀ t ∈ lastTime s es (e.uuid, e.hbTime, src), env.now - t < 300 →
        handlePacket env data src (es.foldl (clocked Started).next s).2 =
          ((es.foldl (clocked Started).next s).2, [])) ∧
      ((∀ t ∈ lastTime s es (e.uuid, e.hbTime, src), 300 ≤ env.now - t) →
        (handlePacket env data src (es.foldl (clocked Started).next s).2).1.peers =
          stored e extinfo (es.foldl (clocked Started).next s).2.peers) := by
  have hshown := congrFun (seen_agree hs hr env.now hnow) (e.uuid, e.hbTime, src)
  generalize es.foldl (clocked Started).next s = r at *
  have hverdict := seenSyncEntry_shown env e.uuid e.hbTime src r.2
  rw [hshown] at hverdict
  obtain ⟨-, hu, hhop, hon, hp⟩ := handlePacket_increment h
  have hent := handleSyncEntry_entered env e extinfo src r.2
  rw [hp]
  generalize handleSyncEntry env e extinfo src r.2 = out at hent ⊢
  cases hent with
  | ignored hno =>
    rcases hno with hno | hno
    · rw [hon] at hno
      cases hno
    · exact absurd hno hu
  | snapshot _ _ hsnap => exact absurd hsnap hhop
  | seen _ _ _ hseen =>
    refine ⟨fun _ _ _ => rfl, fun hold => ?_⟩
    rw [hseen] at hverdict
    obtain ⟨t, ht⟩ := Option.isSome_iff_exists.mp hverdict.symm
    obtain ⟨hlast, halive⟩ := shown_some.mp ht
    have hlong := hold t hlast
    simp only [memory, decide_eq_true_eq] at halive
    omega
  | increment _ _ _ hnew =>
    refine ⟨fun t ht hshort => ?_, fun _ => rfl⟩
    rw [hnew] at hverdict
    have hsome : shown memory env.now (lastTime s es) (e.uuid, e.hbTime, src) = some t :=
      shown_some.mpr ⟨ht, by simpa [memory] using hshort⟩
    rw [hsome] at hverdict
    cases hverdict

def origin : Addr := ⟨0x0A000001, 9000⟩

def announced : Bytes :=
  peerEntryBytes ⟨[0x75], ⟨0xC0A80107, 5000⟩, ⟨0xC0A80107, 0⟩, 0, 0, 100, 100, 0, 0, []⟩ 1

def arrivesAt (now : ℤ) : Event := .packet { now := now } (datagram msgSyncPeerEntry announced) origin

theorem entry_applied_iff_repeated : ∃ r : NatServer,
    handlePacket { now := 399 } (datagram msgSyncPeerEntry announced) origin r = (r, []) ∧
      (handlePacket { now := 400 } (datagram msgSyncPeerEntry announced) origin r).1.peers =
        stored (SyncPeerEntry.read announced) [] r.peers := by
  have hs : Started ({ syncOn := true, syncAddrs := [origin] } : NatServer) := ⟨rfl, rfl, rfl⟩
  have hr : Run (clocked Started) (fun _ _ => True) (0, { syncOn := true, syncAddrs := [origin] }) [arrivesAt 100] :=
    ⟨(by decide : (0 : ℤ) ≤ 100), trivial, trivial⟩
  have hlast : lastTime (0, { syncOn := true, syncAddrs := [origin] }) [arrivesAt 100]
      ((SyncPeerEntry.read announced).uuid, (SyncPeerEntry.read announced).hbTime, origin) = some 100 := by
    decide +kernel
  have hent : increment ([arrivesAt 100].foldl (clocked Started).next (0, { syncOn := true, syncAddrs := [origin] })).2
      (.packet { now := 399 } (datagram msgSyncPeerEntry announced) origin) =
        some (SyncPeerEntry.read announced, [], origin) := by
    decide +kernel
  refine ⟨_, (entry_applied_iff hs hr (by decide +kernel) hent).1 100 hlast (by decide),
    (entry_applied_iff hs hr (by decide +kernel) (by decide +kernel)).2 fun t ht => ?_⟩
  rw [hlast, Option.mem_some_iff] at ht
  rw [← ht]
  decide

end P2PServer.SeenEntries
