import P2PServer.PeerRecords
import P2PServer.Transitions

/-! The two ways to ask who is authenticated: `authed` looks at the sessions and at the records,
`authed_count` at the records only. They agree as long as no record is filed with an earlier end than
the session of its uuid. -/
namespace P2PServer.PeerManager
open ByteStrings ProtoDef Net Transitions

/-- The registered uuids for which `authed` returns true. -/
def authedPeers (m : PeerManager) (now : ℤ) : ℕ := (m.peers.filter fun u _ => m.authed u now).size

/-- Of a live session there is a live record, if the uuid is registered. -/
def Recorded (m : PeerManager) (now : ℤ) : Prop :=
  ∀ (u : Bytes) (p : Peer) (t : ℤ), m.peers[u]? = some p → m.authSessions[u]? = some t → now < t →
    now < p.authExpire

theorem countP_eq_iff {α : Type*} {p q : α → Bool} {l : List α} (h : ∀ x ∈ l, p x = true → q x = true) :
    l.countP p = l.countP q ↔ ∀ x ∈ l, q x = true → p x = true := by
  induction l with
  | nil => simp
  | cons x l ih =>
    have hl : ∀ y ∈ l, p y = true → q y = true := fun y hy => h y (List.mem_cons_of_mem x hy)
    have hle : l.countP p ≤ l.countP q := List.countP_mono_left hl
    have hx := h x List.mem_cons_self
    rw [List.countP_cons, List.countP_cons, List.forall_mem_cons, ← ih hl]
    cases hp : p x <;> cases hq : q x <;> simp_all
    omega

theorem mem_toList_iff {m : PeerManager} {kv : Bytes × Peer} :
    kv ∈ m.peers.toList ↔ m.peers[kv.1]? = some kv.2 := by
  obtain ⟨u, p⟩ := kv
  exact Std.ExtTreeMap.mem_toList_iff_getElem?_eq_some

/-- The counts agree at an instant exactly if every live session of a registered uuid has a live
record. -/
theorem authedCount_eq_iff (m : PeerManager) (now : ℤ) :
    m.authedCount now = m.authedPeers now ↔ m.Recorded now := by
  have hsize (f : Bytes → Peer → Bool) :
      (m.peers.filter f).size = m.peers.toList.countP fun kv => f kv.1 kv.2 := by
    rw [← Std.ExtTreeMap.length_toList, Std.ExtTreeMap.toList_filter, List.countP_eq_length_filter]
  rw [authedCount, countWhere, authedPeers, hsize, hsize, countP_eq_iff]
  · constructor
    · intro h u p t hp ht hlive
      have := h (u, p) (mem_toList_iff.mpr hp) ((authed_iff m u now).mpr (.inl ⟨t, ht, hlive⟩))
      simpa using this
    · intro h kv hkv hq
      have hp := mem_toList_iff.mp hkv
      rcases (authed_iff m kv.1 now).mp hq with ⟨t, ht, hlive⟩ | ⟨p, hp', hlive⟩
      · simpa using h kv.1 kv.2 t hp ht hlive
      · rw [hp, Option.some.injEq] at hp'
        simpa [hp'] using hlive
  · intro kv hkv hlive
    exact (authed_iff m kv.1 now).mpr (.inr ⟨kv.2, mem_toList_iff.mp hkv, by simpa using hlive⟩)

def cleanupTimeout (m : PeerManager) (timeoutSec now : ℤ) : PeerManager :=
  { m with peers := m.peers.filter fun _ p => !timedOut timeoutSec now p }

/-- Later instants than `floor` are still to come; none are ruled out while it is `⊥`. -/
structure State where
  m : PeerManager := {}
  floor : WithBot ℤ := ⊥

inductive Event
  | upsert (uuid : Bytes) (pub lan : Addr) (devType nattype : UInt8) (extinfo : Bytes) (now : ℤ)
  | upsertSynced (uuid : Bytes) (pub lan : Addr) (devType nattype : UInt8) (extinfo : Bytes)
    (hbTime : ℤ)
  | remove (uuid : Bytes)
  | setAuthExpire (uuid : Bytes) (expire : ℤ)
  | cleanupAuthSessions (now : ℤ)
  | cleanupTimeout (timeoutSec now : ℤ)
  | cleanupTimeoutAndCollect (timeoutSec now : ℤ)

def Event.reading : Event → Option ℤ
  | .upsert _ _ _ _ _ _ now => some now
  | .cleanupAuthSessions now => some now
  | .cleanupTimeout _ now => some now
  | .cleanupTimeoutAndCollect _ now => some now
  | .upsertSynced .. | .remove _ | .setAuthExpire .. => none

def apply (m : PeerManager) : Event → PeerManager
  | .upsert uuid pub lan devType nattype extinfo now =>
    (m.upsert uuid pub lan devType nattype extinfo now).2
  | .upsertSynced uuid pub lan devType nattype extinfo hbTime =>
    (m.upsertSynced uuid pub lan devType nattype extinfo hbTime).2
  | .remove uuid => (m.remove uuid).2
  | .setAuthExpire uuid expire => m.setAuthExpire uuid expire
  | .cleanupAuthSessions now => m.cleanupAuthSessions now
  | .cleanupTimeout timeoutSec now => m.cleanupTimeout timeoutSec now
  | .cleanupTimeoutAndCollect timeoutSec now => (m.cleanupTimeoutAndCollect timeoutSec now).2

/-- A steady clock does not go back behind the readings that were made; another one may. -/
def floorAfter (steady : Bool) (s : State) (e : Event) : WithBot ℤ :=
  match e.reading with
  | some now => if steady then now else s.floor
  | none => s.floor

def next (steady : Bool) (s : State) (e : Event) : State := ⟨apply s.m e, floorAfter steady s e⟩

def managing (steady : Bool) : System State Event where
  init s := s = {}
  enabled s e := ∀ now, e.reading = some now → s.floor ≤ now
  next := next steady

/-- A record is filed with an end that is not before the one of the uuid's session, or the session has
run out. -/
def Covers (steady : Bool) (s : State) (e : Event) : Prop :=
  match e with
  | .upsert uuid _ _ _ _ _ _ => validUuid uuid = true → s.m.peers[uuid]? = none →
      ∀ t : ℤ, s.m.authSessions[uuid]? = some t → t ≤ 0 ∨ (t : WithBot ℤ) ≤ floorAfter steady s e
  | .upsertSynced uuid _ _ _ _ _ hbTime => validUuid uuid = true →
      ∀ t : ℤ, s.m.authSessions[uuid]? = some t →
        t ≤ hbTime + 3600 ∨ (t : WithBot ℤ) ≤ floorAfter steady s e
  | _ => True

/-- No session outlasts the record of its uuid. -/
def Covered (s : State) : Prop :=
  ∀ (u : Bytes) (p : Peer) (t : ℤ), s.m.peers[u]? = some p → s.m.authSessions[u]? = some t →
    t ≤ p.authExpire ∨ (t : WithBot ℤ) ≤ s.floor

theorem agree_iff (s : State) :
    (∀ now : ℤ, s.floor ≤ now → s.m.authedCount now = s.m.authedPeers now) ↔ Covered s := by
  simp only [authedCount_eq_iff]
  constructor
  · intro h u p t hp ht
    by_contra! hc
    obtain ⟨hrec, hfloor⟩ := hc
    -- the later one of the floor and the end of the record
    obtain ⟨now, hnow, hdead, hlive⟩ : ∃ now : ℤ, s.floor ≤ now ∧ p.authExpire ≤ now ∧ now < t := by
      cases hf : s.floor with
      | bot => exact ⟨p.authExpire, bot_le, le_rfl, hrec⟩
      | coe f =>
        rw [hf, WithBot.coe_lt_coe] at hfloor
        exact ⟨max f p.authExpire, WithBot.coe_le_coe.mpr (le_max_left _ _), le_max_right _ _,
          max_lt hfloor hrec⟩
    have := h now hnow u p t hp ht hlive
    omega
  · intro h now hnow u p t hp ht hlive
    rcases h u p t hp ht with hle | hle
    · omega
    · have := WithBot.coe_le_coe.mp (hle.trans hnow)
      omega

section
variable {steady : Bool} {s : State} {e : Event}

theorem floor_le (can : (managing steady).enabled s e) : s.floor ≤ floorAfter steady s e := by
  unfold floorAfter
  split
  · rename_i now hnow
    split
    · exact can now hnow
    · exact le_rfl
  · exact le_rfl

theorem Covered.drop (h : Covered s) (can : (managing steady).enabled s e)
    (hp : ∀ (u : Bytes) (p : Peer), (apply s.m e).peers[u]? = some p → s.m.peers[u]? = some p)
    (hs : ∀ (u : Bytes) (t : ℤ), (apply s.m e).authSessions[u]? = some t →
      s.m.authSessions[u]? = some t) : Covered (next steady s e) := by
  intro u p t hpt hst
  exact (h u p t (hp u p hpt) (hs u t hst)).imp_right fun hle => hle.trans (floor_le can)

theorem filter_some {α : Type*} {o : Option α} {f : α → Bool} {a : α} (h : o.filter f = some a) :
    o = some a := (Option.filter_eq_some_iff.mp h).1

/-- An operation that files one record keeps the cover exactly if the record is not short of the
session of its uuid. -/
theorem Covered.file_iff (h : Covered s) (can : (managing steady).enabled s e) {uuid : Bytes} {p : Peer}
    (hpeers : ∀ u : Bytes, (apply s.m e).peers[u]? =
      if u = uuid ∧ validUuid uuid = true then some p else s.m.peers[u]?)
    (hsess : (apply s.m e).authSessions = s.m.authSessions) :
    Covered (next steady s e) ↔ (validUuid uuid = true → ∀ t : ℤ, s.m.authSessions[uuid]? = some t →
      t ≤ p.authExpire ∨ (t : WithBot ℤ) ≤ floorAfter steady s e) := by
  constructor
  · intro h' hv t ht
    have hput := hpeers uuid
    rw [if_pos ⟨rfl, hv⟩] at hput
    exact h' uuid p t hput ((congrArg (·[uuid]?) hsess).trans ht)
  · intro hc u q t hq ht
    replace hq := (hpeers u).symm.trans hq
    replace ht := (congrArg (·[u]?) hsess).symm.trans ht
    split at hq
    · rename_i hu
      obtain ⟨rfl, hv⟩ := hu
      cases hq
      exact hc hv t ht
    · exact (h u q t hq ht).imp_right fun hle => hle.trans (floor_le can)

/-- An operation keeps the cover exactly if it files no record that is short of one. -/
theorem covered_next_iff (h : Covered s) (can : (managing steady).enabled s e) :
    Covered (next steady s e) ↔ Covers steady s e := by
  cases e with
  | upsert uuid pub lan devType nattype extinfo now =>
    have hfile := h.file_iff can (fun u => upsert_get s.m uuid u pub lan devType nattype extinfo now)
      (upsert_sessions s.m uuid pub lan devType nattype extinfo now)
    rw [hfile]
    refine forall_congr' fun hv => ?_
    cases hold : s.m.peers[uuid]? with
    | none => exact ⟨fun hc _ => hc, fun hc => hc rfl⟩
    | some q =>
      -- a record that is there keeps its end
      refine iff_of_true (fun t ht => ?_) fun hnew => by cases hnew
      exact (h uuid q t hold ht).imp_right fun hle => hle.trans (floor_le can)
  | upsertSynced uuid pub lan devType nattype extinfo hbTime =>
    have hend (old : Option Peer) :
        (synced old uuid pub lan devType nattype extinfo hbTime).authExpire = hbTime + 3600 := by
      cases old <;> rfl
    have hfile := h.file_iff can (fun u => upsertSynced_get s.m uuid u pub lan devType nattype extinfo hbTime)
      (upsertSynced_sessions s.m uuid pub lan devType nattype extinfo hbTime)
    rw [hfile, hend]
    exact Iff.rfl
  | remove uuid =>
    refine iff_of_true (h.drop can (fun u p hp => ?_) fun _ _ ht => ht) trivial
    change (s.m.remove uuid).2.peers[u]? = some p at hp
    rw [remove_get] at hp
    split at hp
    · cases hp
    · exact hp
  | setAuthExpire uuid expire =>
    refine iff_of_true (fun u p t hp ht => ?_) trivial
    change (s.m.setAuthExpire uuid expire).peers[u]? = some p at hp
    change (s.m.setAuthExpire uuid expire).authSessions[u]? = some t at ht
    rw [setAuthExpire_get] at hp
    rw [setAuthExpire_sessions] at ht
    split at hp
    · rename_i hu
      obtain ⟨q, -, rfl⟩ := Option.map_eq_some_iff.mp hp
      rw [if_pos hu, Option.some.injEq] at ht
      exact .inl ht.ge
    · rename_i hu
      rw [if_neg hu] at ht
      exact (h u p t hp ht).imp_right fun hle => hle.trans (floor_le can)
  | cleanupAuthSessions now =>
    refine iff_of_true (h.drop can (fun _ _ hp => hp) fun u t ht => ?_) trivial
    change (s.m.cleanupAuthSessions now).authSessions[u]? = some t at ht
    rw [cleanupAuthSessions_sessions] at ht
    exact filter_some ht
  | cleanupTimeout timeoutSec now =>
    refine iff_of_true (h.drop can (fun u p hp => ?_) fun _ _ ht => ht) trivial
    change (s.m.peers.filter fun _ p => !timedOut timeoutSec now p)[u]? = some p at hp
    rw [TreeMaps.filter_get] at hp
    exact filter_some hp
  | cleanupTimeoutAndCollect timeoutSec now =>
    refine iff_of_true (h.drop can (fun u p hp => ?_) fun _ _ ht => ht) trivial
    change (s.m.peers.filter fun _ p => !timedOut timeoutSec now p)[u]? = some p at hp
    rw [TreeMaps.filter_get] at hp
    exact filter_some hp

end

theorem covered {steady : Bool} {s : State} (h : Reach (managing steady) (Covers steady) s) :
    Covered s := by
  refine h.invariant ?_ fun s e hs can hc => (covered_next_iff hs can).mpr hc
  rintro s rfl u p t hp
  simp at hp

/-- In a run that files no record short of the session of its uuid the counts agree at every instant,
and they still do after one more operation exactly if that one files none either. -/
theorem counts_agree (steady : Bool) :
    (∀ s, Reach (managing steady) (Covers steady) s →
      ∀ now : ℤ, s.floor ≤ now → s.m.authedCount now = s.m.authedPeers now) ∧
    ∀ s e, Reach (managing steady) (Covers steady) s → (managing steady).enabled s e →
      ((∀ now : ℤ, (next steady s e).floor ≤ now →
        (next steady s e).m.authedCount now = (next steady s e).m.authedPeers now) ↔
          Covers steady s e) :=
  ⟨fun s h => (agree_iff s).mpr (covered h),
    fun _ _ h can => (agree_iff _).trans (covered_next_iff (covered h) can)⟩

def registered : List Event :=
  [.upsert [0x75] ⟨1, 2⟩ ⟨3, 4⟩ 1 0 [] 100, .setAuthExpire [0x75] 3700]

theorem counts_agree_registered :
    (registered.foldl (next true) {}).m.authedCount 100 =
      (registered.foldl (next true) {}).m.authedPeers 100 := by
  have hrun : Run (managing true) (Covers true) {} registered := by
    refine ⟨fun _ _ => bot_le, fun _ _ t ht => ?_, fun _ hread => ?_, trivial, trivial⟩
    · simp at ht
    · cases hread
  exact (counts_agree true).1 _ (Reach.run (S := managing true) (.start rfl) hrun) 100
    (by decide +kernel)

/-- The uuid logs in first, as clients do, and is registered with its heartbeat. -/
theorem counts_differ : ¬∀ s, Reachable (managing true) s →
    ∀ now : ℤ, s.floor ≤ now → s.m.authedCount now = s.m.authedPeers now := by
  intro h
  have hrun : Run (managing true) (fun _ _ => True) {}
      [.setAuthExpire [0x75] 3700, .upsert [0x75] ⟨1, 2⟩ ⟨3, 4⟩ 1 0 [] 100] := by
    refine ⟨fun _ hread => ?_, trivial, fun _ _ => bot_le, trivial, trivial⟩
    cases hread
  have := h _ (Reach.run (S := managing true) (.start rfl) hrun) 100 (by decide +kernel)
  revert this
  decide +kernel

end P2PServer.PeerManager
