import P2PServer.PeerManage
import P2PServer.TreeMaps

/-! The registry record by record: what each operation of the peer manager does to the
record of one uuid, and the records that ever get into it. -/
namespace P2PServer.PeerManager
open ByteStrings ProtoDef Net TreeMaps

/-- The record that `upsert` files in the place of `old`. -/
def upserted (old : Option Peer) (uuid : Bytes) (pub lan : Addr) (devType nattype : UInt8)
    (extinfo : Bytes) (now : ℤ) : Peer :=
  match old with
  | none =>
    let ext := keepExtinfo [] extinfo
    ⟨uuid, pub, lan, devType, nattype, now, now, 0, UInt16.ofNat ext.length, ext⟩
  | some old =>
    let ext := keepExtinfo old.extinfo extinfo
    { old with
      pubAddr := pub, lanAddr := lan, devType := devType, nattype := nattype
      lastHeartbeat := now, extinfo := ext, extlen := UInt16.ofNat ext.length }

/-- The record that `upsert_synced` files in the place of `old`. -/
def synced (old : Option Peer) (uuid : Bytes) (pub lan : Addr) (devType nattype : UInt8)
    (extinfo : Bytes) (hbTime : ℤ) : Peer :=
  match old with
  | none =>
    let ext := keepExtinfo [] extinfo
    ⟨uuid, pub, lan, devType, nattype, hbTime, hbTime, hbTime + 3600, UInt16.ofNat ext.length, ext⟩
  | some old =>
    let ext := keepExtinfo old.extinfo extinfo
    { old with
      pubAddr := pub, lanAddr := lan, devType := devType, nattype := nattype
      lastHeartbeat := hbTime, extinfo := ext, extlen := UInt16.ofNat ext.length
      authExpire := hbTime + 3600 }

variable (m : PeerManager) (uuid u : Bytes) (pub lan : Addr) (devType nattype : UInt8)
  (extinfo : Bytes) (now expire : ℤ)

theorem upsert_get :
    (m.upsert uuid pub lan devType nattype extinfo now).2.peers[u]? =
      if u = uuid ∧ validUuid uuid = true then
        some (upserted m.peers[uuid]? uuid pub lan devType nattype extinfo now)
      else m.peers[u]? := by
  unfold upsert
  cases hv : validUuid uuid with
  | false => simp
  | true =>
    simp only [Bool.not_true, Bool.false_eq_true, if_false, and_true, insert_get]
    rfl

theorem upsertSynced_get :
    (m.upsertSynced uuid pub lan devType nattype extinfo now).2.peers[u]? =
      if u = uuid ∧ validUuid uuid = true then
        some (synced m.peers[uuid]? uuid pub lan devType nattype extinfo now)
      else m.peers[u]? := by
  unfold upsertSynced
  cases hv : validUuid uuid with
  | false => simp
  | true =>
    simp only [Bool.not_true, Bool.false_eq_true, if_false, and_true, insert_get]
    rfl

theorem remove_get : (m.remove uuid).2.peers[u]? = if u = uuid then none else m.peers[u]? :=
  erase_get m.peers uuid u

theorem setAuthExpire_get :
    (m.setAuthExpire uuid expire).peers[u]? =
      if u = uuid then m.peers[u]?.map fun p => { p with authExpire := expire }
      else m.peers[u]? := by
  unfold setAuthExpire
  by_cases hu : u = uuid
  · subst hu
    cases h : m.peers[u]? with
    | none => simp [h]
    | some p => simp
  · cases h : m.peers[uuid]? with
    | none => simp [hu]
    | some p => simp [insert_get, hu]

theorem cleanup_get :
    (m.cleanupTimeoutAndCollect 90 now).2.peers[u]? =
      m.peers[u]?.filter fun p => !timedOut 90 now p :=
  filter_get m.peers _ u

@[simp] theorem upsert_sessions :
    (m.upsert uuid pub lan devType nattype extinfo now).2.authSessions = m.authSessions := by
  unfold upsert
  split <;> rfl

@[simp] theorem upsertSynced_sessions :
    (m.upsertSynced uuid pub lan devType nattype extinfo now).2.authSessions = m.authSessions := by
  unfold upsertSynced
  split <;> rfl

theorem setAuthExpire_sessions :
    (m.setAuthExpire uuid expire).authSessions[u]? =
      if u = uuid then some expire else m.authSessions[u]? :=
  insert_get m.authSessions uuid expire u

theorem cleanupAuthSessions_sessions :
    (m.cleanupAuthSessions now).authSessions[u]? = m.authSessions[u]?.filter fun t => !(t ≤ now) :=
  filter_get m.authSessions _ u

theorem existsPeer_iff : m.existsPeer u = true ↔ ∃ p, m.peers[u]? = some p := by
  unfold existsPeer
  rw [Std.ExtTreeMap.contains_eq_isSome_getElem?, Option.isSome_iff_exists]

/-- An authenticated uuid has a session of its own or a record that says so. -/
theorem authed_iff :
    m.authed u now = true ↔ (∃ t, m.authSessions[u]? = some t ∧ now < t) ∨
      ∃ p, m.peers[u]? = some p ∧ now < p.authExpire := by
  have hrec : authed.authedPeer m u now = true ↔ ∃ p, m.peers[u]? = some p ∧ now < p.authExpire := by
    unfold authed.authedPeer
    cases m.peers[u]? <;> simp
  unfold authed
  cases hs : m.authSessions[u]? with
  | none => simp [hrec]
  | some t =>
    by_cases ht : t > now
    · simp [ht]
    · simp [ht, hrec]

structure Proper (u : Bytes) (p : Peer) : Prop where
  uuid : p.uuid = u
  valid : validUuid u = true
  text : cstr u = u
  extinfo : p.extinfo.length ≤ maxExtinfo
  extlen : p.extlen = UInt16.ofNat p.extinfo.length

theorem Proper.short {u : Bytes} {p : Peer} (h : Proper u p) : u.length ≤ maxUuidLen := by
  have hv := h.valid
  simp only [validUuid, Bool.not_eq_true', Bool.or_eq_false_iff, decide_eq_false_iff_not] at hv
  omega

def WellFiled (m : PeerManager) : Prop := ∀ u p, m.peers[u]? = some p → Proper u p

theorem keepExtinfo_length {old new : Bytes} (h : old.length ≤ maxExtinfo) :
    (keepExtinfo old new).length ≤ maxExtinfo := by
  unfold keepExtinfo
  split
  · assumption
  · exact h

variable {m uuid u pub lan devType nattype extinfo now expire} {m' : PeerManager} {q : Peer}

theorem WellFiled.file (h : WellFiled m)
    (hm : ∀ u, m'.peers[u]? = if u = uuid ∧ validUuid uuid = true then some q else m.peers[u]?)
    (hq : validUuid uuid = true → Proper uuid q) : WellFiled m' := by
  intro u p hp
  rw [hm] at hp
  split at hp
  · rename_i hu
    cases hp
    exact hu.1 ▸ hq hu.2
  · exact h u p hp

theorem WellFiled.drop (h : WellFiled m)
    (hm : ∀ (u : Bytes) (p : Peer), m'.peers[u]? = some p → m.peers[u]? = some p) :
    WellFiled m' :=
  fun u p hp => h u p (hm u p hp)

theorem WellFiled.upsert (h : WellFiled m) (htext : cstr uuid = uuid) :
    WellFiled (m.upsert uuid pub lan devType nattype extinfo now).2 := by
  refine h.file (fun u => upsert_get m uuid u pub lan devType nattype extinfo now) fun hv => ?_
  unfold upserted
  cases hold : m.peers[uuid]? with
  | none => exact ⟨rfl, hv, htext, keepExtinfo_length (Nat.zero_le _), rfl⟩
  | some old =>
    have ho := h uuid old hold
    exact ⟨ho.uuid, hv, htext, keepExtinfo_length ho.extinfo, rfl⟩

theorem WellFiled.upsertSynced (h : WellFiled m) (htext : cstr uuid = uuid) :
    WellFiled (m.upsertSynced uuid pub lan devType nattype extinfo now).2 := by
  refine h.file (fun u => upsertSynced_get m uuid u pub lan devType nattype extinfo now) fun hv => ?_
  unfold synced
  cases hold : m.peers[uuid]? with
  | none => exact ⟨rfl, hv, htext, keepExtinfo_length (Nat.zero_le _), rfl⟩
  | some old =>
    have ho := h uuid old hold
    exact ⟨ho.uuid, hv, htext, keepExtinfo_length ho.extinfo, rfl⟩

theorem WellFiled.remove (h : WellFiled m) (uuid : Bytes) : WellFiled (m.remove uuid).2 := by
  refine h.drop fun u p hp => ?_
  rw [remove_get] at hp
  split at hp
  · cases hp
  · exact hp

theorem WellFiled.setAuthExpire (h : WellFiled m) (uuid : Bytes) (expire : ℤ) :
    WellFiled (m.setAuthExpire uuid expire) := by
  intro u p hp
  rw [setAuthExpire_get] at hp
  split at hp
  · obtain ⟨q, hq, rfl⟩ := Option.map_eq_some_iff.mp hp
    have ho := h u q hq
    exact ⟨ho.uuid, ho.valid, ho.text, ho.extinfo, ho.extlen⟩
  · exact h u p hp

theorem WellFiled.cleanup (h : WellFiled m) (now : ℤ) :
    WellFiled ((m.cleanupTimeoutAndCollect 90 now).2.cleanupAuthSessions now) := by
  refine h.drop fun u p hp => ?_
  have hp' : (m.cleanupTimeoutAndCollect 90 now).2.peers[u]? = some p := hp
  rw [cleanup_get] at hp'
  exact (Option.filter_eq_some_iff.mp hp').1

end P2PServer.PeerManager
