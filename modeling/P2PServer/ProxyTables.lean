import P2PServer.P2PProxy
import P2PServer.Transitions
import P2PServer.TreeMaps

/-! The two registration tables of the relay over whole runs, with the sections of its timer as
separate steps. A uuid that registers again from another address leaves its old address behind,
and a registration that comes between the two sections of a pass loses its address. -/
namespace P2PServer.P2PProxy
open ByteStrings ProtoDef Net Crypto Effects Transitions

structure Packet where
  now : ℤ
  data : Bytes
  src : Addr

def step (p : Packet) (s : P2PProxy) : P2PProxy := (handle p.now p.data p.src s).1

/-- The uuid of a registration request that the proxy would accept. -/
def registers (s : P2PProxy) (p : Packet) : Option Bytes :=
  match NatServer.readDatagram p.data with
  | none => none
  | some (msgId, q) =>
    let uuid := uuidAt q 0
    if msgId = msgProxyRegisterReq ∧ proxyRegReqSize ≤ q.length ∧ uuid ≠ [] ∧
        hmacSha256 proxyAuthKey uuid = window q 33 32 ∧ s.full uuid = false then some uuid
    else none

/-- Nothing but the paths and the counters differs. -/
structure SameTables (s s' : P2PProxy) : Prop where
  maxProxy : s'.maxProxy = s.maxProxy
  uuid2addr : s'.uuid2addr = s.uuid2addr
  addr2uuid : s'.addr2uuid = s.addr2uuid

theorem send_state (dst : Addr) (msgId : UInt8) (payload : Bytes) (s : P2PProxy) :
    (send dst msgId payload s).1 = s := by
  unfold send
  split <;> rfl

theorem doRegister_state (now : ℤ) (uuid : Bytes) (src : Addr) (hmac : Bytes) (s : P2PProxy) :
    (doRegister now uuid src true (some hmac) s).1 =
      if uuid ≠ [] ∧ hmacSha256 proxyAuthKey uuid = hmac ∧ s.full uuid = false then
        s.enroll now uuid src else s := by
  unfold doRegister
  dsimp only
  by_cases hu : uuid = []
  · rw [hu]
    simp [send_state]
  · rw [if_neg (by simpa using hu)]
    by_cases hm : hmacSha256 proxyAuthKey uuid = hmac
    · rw [if_neg (not_not.mpr hm)]
      cases hf : s.full uuid <;> simp [send_state, hu, hm]
    · simp [send_state, hm]

theorem onRelayData_tables (now : ℤ) (p : Bytes) (src : Addr) (s : P2PProxy) :
    SameTables s (onRelayData now p src s).1 := by
  unfold onRelayData
  split
  · exact ⟨rfl, rfl, rfl⟩
  · dsimp only
    split
    · exact ⟨rfl, rfl, rfl⟩
    · simp only [andThen, Effects.modify, send_state]
      exact ⟨rfl, rfl, rfl⟩

theorem onPunchHelper_state (p : Bytes) (src : Addr) (s : P2PProxy) :
    (onPunchHelper p src s).1 = s := by
  unfold onPunchHelper
  split
  · rfl
  · split <;> exact send_state _ _ _ _

/-- A packet enrols a uuid, takes one back, or leaves the tables alone. -/
inductive Effect (p : Packet) (s : P2PProxy) : Prop
  | enrolled (uuid : Bytes) (h : registers s p = some uuid) (e : step p s = s.enroll p.now uuid p.src)
  | unregistered (uuid : Bytes) (h : registers s p = none) (e : step p s = s.unregister uuid p.src)
  | other (h : registers s p = none) (e : SameTables s (step p s))

theorem step_cases (p : Packet) (s : P2PProxy) : Effect p s := by
  have none_of (h : registers s p = none) (e : step p s = s) : Effect p s :=
    .other h (by rw [e]; exact ⟨rfl, rfl, rfl⟩)
  cases hd : NatServer.readDatagram p.data with
  | none => exact none_of (by rw [registers, hd]) (by rw [step, handle, hd])
  | some mq =>
    obtain ⟨msgId, q⟩ := mq
    have hreg (h : msgId ≠ msgProxyRegisterReq) : registers s p = none := by
      rw [registers, hd]
      exact if_neg fun hc => h hc.1
    have hstep : step p s = (dispatch p.now msgId q p.src s).1 := by rw [step, handle, hd]
    unfold dispatch at hstep
    by_cases hR : msgId = msgProxyRegisterReq
    · subst hR
      rw [if_pos rfl, onRegister] at hstep
      by_cases hl : q.length < proxyRegReqSize
      · rw [if_pos hl] at hstep
        refine none_of ?_ hstep
        rw [registers, hd]
        exact if_neg fun hc => absurd hc.2.1 (not_le.mpr hl)
      · rw [if_neg hl, doRegister_state] at hstep
        by_cases hok : uuidAt q 0 ≠ [] ∧ hmacSha256 proxyAuthKey (uuidAt q 0) = window q 33 32 ∧
            s.full (uuidAt q 0) = false
        · rw [if_pos hok] at hstep
          refine .enrolled (uuidAt q 0) ?_ hstep
          rw [registers, hd]
          exact if_pos ⟨rfl, not_lt.mp hl, hok⟩
        · rw [if_neg hok] at hstep
          refine none_of ?_ hstep
          rw [registers, hd]
          exact if_neg fun hc => hok hc.2.2
    · have hnone := hreg hR
      rw [if_neg hR] at hstep
      by_cases hU : msgId = msgProxyUnregisterReq
      · rw [if_pos hU] at hstep
        exact .unregistered _ hnone hstep
      · rw [if_neg hU] at hstep
        by_cases hD : msgId = msgProxyRelayData
        · rw [if_pos hD] at hstep
          exact .other hnone (hstep ▸ onRelayData_tables p.now q p.src s)
        · rw [if_neg hD] at hstep
          by_cases hP : msgId = msgProxyPunchHelper
          · rw [if_pos hP, onPunchHelper_state] at hstep
            exact none_of hnone hstep
          · rw [if_neg hP] at hstep
            split at hstep
            · rw [onSpAskExtinfo, send_state] at hstep
              exact none_of hnone hstep
            · exact none_of hnone hstep

theorem enroll_addr2uuid (now : ℤ) (uuid : Bytes) (src : Addr) (s : P2PProxy) (k : UInt64) :
    (s.enroll now uuid src).addr2uuid[k]? = if k = addrToU64 src then some uuid else s.addr2uuid[k]? := by
  rw [enroll, TreeMaps.insert_get]

/-- The uuid at the address of a registration is dropped, unless it is the one that registers. -/
theorem enroll_uuid2addr (now : ℤ) (uuid : Bytes) (src : Addr) (s : P2PProxy) (u : Bytes) :
    (s.enroll now uuid src).uuid2addr[u]? = if u = uuid then some ⟨src, now⟩
      else if s.addr2uuid[addrToU64 src]? = some u then none else s.uuid2addr[u]? := by
  unfold enroll
  dsimp only
  rw [TreeMaps.insert_get]
  by_cases hu : u = uuid
  · rw [if_pos hu, if_pos hu]
  · rw [if_neg hu, if_neg hu]
    cases ho : s.addr2uuid[addrToU64 src]? with
    | none => rfl
    | some old =>
      dsimp only
      by_cases hold : old = u
      · subst hold
        rw [if_pos hu, if_pos rfl, TreeMaps.erase_get, if_pos rfl]
      · rw [if_neg (fun hc => hold (Option.some.inj hc))]
        split
        · rw [TreeMaps.erase_get, if_neg (Ne.symm hold)]
        · rfl

theorem unregister_cases (uuid : Bytes) (src : Addr) (s : P2PProxy) :
    (SameTables s (s.unregister uuid src)) ∨
      ∃ e, s.uuid2addr[uuid]? = some e ∧ e.addr = src ∧
        (s.unregister uuid src).maxProxy = s.maxProxy ∧
        (s.unregister uuid src).uuid2addr = s.uuid2addr.erase uuid ∧
        (s.unregister uuid src).addr2uuid = s.addr2uuid.erase (addrToU64 src) := by
  unfold unregister
  cases he : s.uuid2addr[uuid]? with
  | none => exact .inl ⟨rfl, rfl, rfl⟩
  | some e =>
    dsimp only
    by_cases ha : e.addr = src
    · rw [if_neg (not_not.mpr ha)]
      exact .inr ⟨e, rfl, ha, rfl, rfl, by rw [ha]⟩
    · rw [if_pos ha]
      exact .inl ⟨rfl, rfl, rfl⟩

theorem foldl_erase_get (dead : List UInt64) (m : Std.ExtTreeMap UInt64 Bytes) (k : UInt64) :
    (dead.foldl (fun m k => m.erase k) m)[k]? = if k ∈ dead then none else m[k]? := by
  induction dead generalizing m with
  | nil => rfl
  | cons d dead ih =>
    rw [List.foldl_cons, ih, TreeMaps.erase_get]
    by_cases hk : k = d
    · simp [hk]
    · simp [hk]

theorem eraseKeys_get (dead : List UInt64) (s : P2PProxy) (k : UInt64) :
    (eraseKeys dead s).addr2uuid[k]? = if k ∈ dead then none else s.addr2uuid[k]? :=
  foldl_erase_get dead s.addr2uuid k

theorem expire_get (now : ℤ) (s : P2PProxy) (u : Bytes) :
    (expire now s).uuid2addr[u]? = s.uuid2addr[u]?.filter fun e => !expired now e :=
  TreeMaps.filter_get s.uuid2addr _ u

theorem mem_collected {now : ℤ} {s : P2PProxy} {k : UInt64} :
    k ∈ collected now s ↔
      ∃ (u : Bytes) (e : UuidEntry), s.uuid2addr[u]? = some e ∧ expired now e = true ∧ addrToU64 e.addr = k := by
  unfold collected
  simp only [List.mem_map, List.mem_filter]
  constructor
  · rintro ⟨⟨u, e⟩, ⟨hmem, hexp⟩, hk⟩
    exact ⟨u, e, Std.ExtTreeMap.mem_toList_iff_getElem?_eq_some.mp hmem, hexp, hk⟩
  · rintro ⟨u, e, hget, hexp, hk⟩
    exact ⟨(u, e), ⟨Std.ExtTreeMap.mem_toList_iff_getElem?_eq_some.mpr hget, hexp⟩, hk⟩

/-- `dead` holds the keys that a timer pass has collected, while it is between its sections. -/
structure State where
  proxy : P2PProxy
  dead : Option (List UInt64) := none

inductive Event
  | packet (p : Packet)
  | expire (now : ℤ)
  | erase

def next (s : State) : Event → State
  | .packet p => { s with proxy := step p s.proxy }
  | .expire now => ⟨expire now s.proxy, some (collected now s.proxy)⟩
  | .erase => ⟨eraseKeys (s.dead.getD []) s.proxy, none⟩

/-- There is one timer, whose two sections alternate. -/
def enabled (s : State) : Event → Prop
  | .packet _ => True
  | .expire _ => s.dead = none
  | .erase => s.dead.isSome

def system (maxProxy : UInt16) : System State Event where
  init s := s = { proxy := { maxProxy := maxProxy } }
  enabled := enabled
  next := next

/-- No registration comes from an address that the pass under way has collected. -/
def Undisturbed (s : State) : Event → Prop
  | .packet p => ∀ u, registers s.proxy p = some u → addrToU64 p.src ∉ s.dead.getD []
  | .expire _ | .erase => True

/-- Nor does a registered uuid register from another address. -/
def Stationary (s : State) (e : Event) : Prop :=
  Undisturbed s e ∧ match e with
    | .packet p => ∀ u, registers s.proxy p = some u →
        ∀ e, s.proxy.uuid2addr[u]? = some e → e.addr = p.src
    | .expire _ | .erase => True

/-- The address of every registered uuid leads back to it. -/
def Owned (s : P2PProxy) : Prop :=
  ∀ u e, s.uuid2addr[u]? = some e → s.addr2uuid[addrToU64 e.addr]? = some u

theorem Owned.same {s s' : P2PProxy} (h : Owned s) (hs : SameTables s s') : Owned s' := by
  unfold Owned
  rw [hs.uuid2addr, hs.addr2uuid]
  exact h

theorem Owned.enroll {s : P2PProxy} (h : Owned s) (now : ℤ) (uuid : Bytes) (src : Addr) :
    Owned (s.enroll now uuid src) := by
  intro u e he
  rw [enroll_uuid2addr] at he
  rw [enroll_addr2uuid]
  split at he
  · rename_i hu
    rw [Option.some.injEq] at he
    rw [← he, if_pos rfl, hu]
  · split at he
    · cases he
    · rename_i hkept
      have hown := h u e he
      rw [if_neg, hown]
      intro hk
      rw [hk] at hown
      exact hkept hown

theorem Owned.unregister {s : P2PProxy} (h : Owned s) (uuid : Bytes) (src : Addr) :
    Owned (s.unregister uuid src) := by
  rcases unregister_cases uuid src s with hs | ⟨e₀, he₀, ha, -, hu, hk⟩
  · exact h.same hs
  · intro u e he
    rw [hu, TreeMaps.erase_get] at he
    rw [hk, TreeMaps.erase_get]
    split at he
    · cases he
    · rename_i hne
      have hown := h u e he
      rw [if_neg, hown]
      intro hc
      have hown₀ := h uuid e₀ he₀
      rw [ha, ← hc, hown] at hown₀
      exact hne (Option.some.inj hown₀)

theorem Owned.step {s : P2PProxy} (h : Owned s) (p : Packet) : Owned (step p s) := by
  cases step_cases p s with
  | enrolled uuid _ e => exact e ▸ h.enroll p.now uuid p.src
  | unregistered uuid _ e => exact e ▸ h.unregister uuid p.src
  | other _ e => exact h.same e

theorem Owned.expire {s : P2PProxy} (h : Owned s) (now : ℤ) : Owned (expire now s) := by
  intro u e he
  rw [expire_get, Option.filter_eq_some_iff] at he
  exact h u e he.1

/-- Whoever is left after the first section has an address that was not collected. -/
theorem Owned.not_collected {s : P2PProxy} (h : Owned s) {now : ℤ} {u : Bytes} {e : UuidEntry}
    (he : (P2PProxy.expire now s).uuid2addr[u]? = some e) : addrToU64 e.addr ∉ collected now s := by
  rw [expire_get, Option.filter_eq_some_iff] at he
  intro hc
  obtain ⟨u', e', he', hexp, hk⟩ := mem_collected.mp hc
  have hu := h u e he.1
  rw [← hk, h u' e' he', Option.some.injEq] at hu
  rw [hu, he.1, Option.some.injEq] at he'
  rw [← he'] at hexp
  rw [hexp] at he
  exact absurd he.2 (by decide)

theorem Owned.eraseKeys {s : P2PProxy} (h : Owned s) {dead : List UInt64}
    (hd : ∀ (u : Bytes) (e : UuidEntry), s.uuid2addr[u]? = some e → addrToU64 e.addr ∉ dead) :
    Owned (P2PProxy.eraseKeys dead s) := by
  intro u e he
  rw [eraseKeys_get, if_neg (hd u e he)]
  exact h u e he

theorem Owned.timerPass {s : P2PProxy} (h : Owned s) (now : ℤ) : Owned (P2PProxy.timerPass now s) :=
  (h.expire now).eraseKeys fun _ _ he => h.not_collected he

/-- A uuid is registered at an address if and only if the address leads to the uuid. The keys in
`dead` are about to be erased and count as absent. -/
def Inverse (dead : List UInt64) (s : P2PProxy) : Prop :=
  ∀ (u : Bytes) (a : Addr), (∃ e, s.uuid2addr[u]? = some e ∧ e.addr = a) ↔
    s.addr2uuid[addrToU64 a]? = some u ∧ addrToU64 a ∉ dead

section
variable {s s' : P2PProxy} {dead : List UInt64}

theorem Inverse.owned (h : Inverse dead s) : Owned s :=
  fun u e he => ((h u e.addr).mp ⟨e, he, rfl⟩).1

theorem Inverse.same (h : Inverse dead s) (hs : SameTables s s') : Inverse dead s' := by
  unfold Inverse
  rw [hs.uuid2addr, hs.addr2uuid]
  exact h

theorem Inverse.enroll (h : Inverse dead s) (now : ℤ) {uuid : Bytes} {src : Addr}
    (hfree : addrToU64 src ∉ dead)
    (hstay : ∀ e, s.uuid2addr[uuid]? = some e → e.addr = src) :
    Inverse dead (s.enroll now uuid src) := by
  intro u a
  rw [enroll_uuid2addr, enroll_addr2uuid]
  by_cases ha : a = src
  · subst ha
    rw [if_pos rfl]
    by_cases hu : u = uuid
    · rw [if_pos hu, hu]
      exact ⟨fun _ => ⟨rfl, hfree⟩, fun _ => ⟨_, rfl, rfl⟩⟩
    · rw [if_neg hu]
      constructor
      · rintro ⟨e, he, hea⟩
        split at he
        · cases he
        · rename_i hkept
          exact absurd ((h u a).mp ⟨e, he, hea⟩).1 hkept
      · rintro ⟨hk, -⟩
        exact absurd (Option.some.inj hk).symm hu
  · have hkey : addrToU64 a ≠ addrToU64 src := fun hc => ha (addrToU64_inj hc)
    rw [if_neg hkey, ← h u a]
    by_cases hu : u = uuid
    · rw [if_pos hu, hu]
      constructor
      · rintro ⟨e, he, hea⟩
        rw [← Option.some.inj he] at hea
        exact absurd hea.symm ha
      · rintro ⟨e, he, hea⟩
        exact absurd (hea.symm.trans (hstay e he)) ha
    · rw [if_neg hu]
      by_cases hold : s.addr2uuid[addrToU64 src]? = some u
      · rw [if_pos hold]
        obtain ⟨e₀, he₀, hsrc⟩ := (h u src).mpr ⟨hold, hfree⟩
        constructor
        · rintro ⟨e, he, -⟩
          cases he
        · rintro ⟨e, he, hea⟩
          rw [he₀, Option.some.injEq] at he
          rw [← he, hsrc] at hea
          exact absurd hea.symm ha
      · rw [if_neg hold]

theorem Inverse.unregister (h : Inverse dead s) (uuid : Bytes) (src : Addr) :
    Inverse dead (s.unregister uuid src) := by
  rcases unregister_cases uuid src s with hs | ⟨e₀, he₀, hsrc, -, hu, hk⟩
  · exact h.same hs
  · intro u a
    rw [hu, hk, TreeMaps.erase_get, TreeMaps.erase_get]
    have howner := ((h uuid src).mp ⟨e₀, he₀, hsrc⟩).1
    by_cases ha : a = src
    · subst ha
      rw [if_pos rfl]
      constructor
      · rintro ⟨e, he, hea⟩
        split at he
        · cases he
        · rename_i hne
          have hu' := ((h u a).mp ⟨e, he, hea⟩).1
          rw [howner] at hu'
          exact absurd (Option.some.inj hu').symm hne
      · rintro ⟨hc, -⟩
        cases hc
    · rw [if_neg fun hc => ha (addrToU64_inj hc), ← h u a]
      by_cases hne : u = uuid
      · rw [if_pos hne, hne]
        constructor
        · rintro ⟨e, he, -⟩
          cases he
        · rintro ⟨e, he, hea⟩
          rw [he₀, Option.some.injEq] at he
          rw [← he, hsrc] at hea
          exact absurd hea.symm ha
      · rw [if_neg hne]

theorem Inverse.expire (h : Inverse [] s) (now : ℤ) :
    Inverse (collected now s) (P2PProxy.expire now s) := by
  intro u a
  constructor
  · rintro ⟨e, he, hea⟩
    have hfree := h.owned.not_collected he
    rw [hea] at hfree
    rw [expire_get, Option.filter_eq_some_iff] at he
    exact ⟨((h u a).mp ⟨e, he.1, hea⟩).1, hfree⟩
  · rintro ⟨hk, hfree⟩
    obtain ⟨e, he, hea⟩ := (h u a).mpr ⟨hk, List.not_mem_nil⟩
    refine ⟨e, ?_, hea⟩
    rw [expire_get, he, Option.filter_eq_some_iff]
    refine ⟨rfl, ?_⟩
    cases hexp : expired now e with
    | false => rfl
    | true => exact absurd (mem_collected.mpr ⟨u, e, he, hexp, congrArg addrToU64 hea⟩) hfree

theorem Inverse.erase (h : Inverse dead s) : Inverse [] (eraseKeys dead s) := by
  intro u a
  rw [eraseKeys_get]
  refine (h u a).trans ?_
  by_cases hd : addrToU64 a ∈ dead
  · rw [if_pos hd]
    exact ⟨fun hc => absurd hd hc.2, fun hc => nomatch hc.1⟩
  · rw [if_neg hd]
    exact ⟨fun hc => ⟨hc.1, List.not_mem_nil⟩, fun hc => ⟨hc.1, hd⟩⟩

end

theorem inverse_init (maxProxy : UInt16) : Inverse [] { maxProxy := maxProxy } := by
  intro u a
  simp

theorem inverse_next {s : State} {e : Event} (h : Inverse (s.dead.getD []) s.proxy)
    (hen : enabled s e) (hok : Stationary s e) :
    Inverse ((next s e).dead.getD []) (next s e).proxy := by
  cases e with
  | packet p =>
    change Inverse _ (step p s.proxy)
    cases step_cases p s.proxy with
    | enrolled uuid hreg e =>
      rw [e]
      exact h.enroll p.now (hok.1 uuid hreg) (hok.2 uuid hreg)
    | unregistered uuid _ e =>
      rw [e]
      exact h.unregister uuid p.src
    | other _ e => exact h.same e
  | expire now =>
    have hd : s.dead = none := hen
    rw [hd] at h
    exact h.expire now
  | erase => exact h.erase

/-- In every run without moving uuids and disturbed passes: the tables are inverse, and a
registration removes another uuid only from its own address. -/
theorem tables_inverse {maxProxy : UInt16} {s : State} (h : Reach (system maxProxy) Stationary s) :
    Inverse (s.dead.getD []) s.proxy ∧ ∀ p v, Stationary s (.packet p) → registers s.proxy p = some v →
      ∀ u ≠ v, ∀ e, s.proxy.uuid2addr[u]? = some e → (step p s.proxy).uuid2addr[u]? = none →
        e.addr = p.src := by
  have hinv : Inverse (s.dead.getD []) s.proxy :=
    Reach.invariant (S := system maxProxy) (I := fun s => Inverse (s.dead.getD []) s.proxy)
      (fun s h0 => by subst h0; exact inverse_init maxProxy) (fun _ _ hi hen hok => inverse_next hi hen hok) h
  refine ⟨hinv, fun p v hok hreg u hne e he hgone => ?_⟩
  cases step_cases p s.proxy with
  | enrolled uuid hreg' hs =>
    rw [hreg, Option.some.injEq] at hreg'
    rw [hs, enroll_uuid2addr, if_neg (hreg' ▸ hne)] at hgone
    split at hgone
    · rename_i hold
      obtain ⟨e', he', hsrc⟩ := (hinv u p.src).mpr ⟨hold, hok.1 v hreg⟩
      rw [he, Option.some.injEq] at he'
      rw [he']
      exact hsrc
    · rw [he] at hgone
      cases hgone
  | unregistered _ hnone _ => rw [hreg] at hnone; cases hnone
  | other hnone _ => rw [hreg] at hnone; cases hnone

theorem inverse_step_iff {s : P2PProxy} (h : Inverse [] s) (p : Packet) :
    Inverse [] (step p s) ↔ ∀ u, registers s p = some u →
      ∀ e, s.uuid2addr[u]? = some e → e.addr = p.src := by
  constructor
  · intro h' u hreg e he
    cases step_cases p s with
    | enrolled uuid hreg' hs =>
      rw [hreg, Option.some.injEq] at hreg'
      subst hreg'
      rw [hs] at h'
      by_contra hne
      have hkey : addrToU64 e.addr ≠ addrToU64 p.src := fun hc => hne (addrToU64_inj hc)
      have hstale : (s.enroll p.now u p.src).addr2uuid[addrToU64 e.addr]? = some u := by
        rw [enroll_addr2uuid, if_neg hkey]
        exact h.owned u e he
      obtain ⟨e', he', ha⟩ := (h' u e.addr).mpr ⟨hstale, List.not_mem_nil⟩
      rw [enroll_uuid2addr, if_pos rfl, Option.some.injEq] at he'
      rw [← he'] at ha
      exact hne ha.symm
    | unregistered _ hnone _ => rw [hreg] at hnone; cases hnone
    | other hnone _ => rw [hreg] at hnone; cases hnone
  · intro hstay
    cases step_cases p s with
    | enrolled uuid hreg e =>
      rw [e]
      exact h.enroll p.now List.not_mem_nil (hstay uuid hreg)
    | unregistered uuid _ e =>
      rw [e]
      exact h.unregister uuid p.src
    | other _ e => exact h.same e

def regPacket (now : ℤ) (uuid : Bytes) (src : Addr) : Packet :=
  ⟨now, NatServer.datagram msgProxyRegisterReq (uuidField uuid ++ hmacSha256 proxyAuthKey uuid), src⟩

/-- The uuids that fit their field. -/
structure Proper (uuid : Bytes) : Prop where
  nonempty : uuid ≠ []
  short : uuid.length ≤ maxUuidLen
  text : cstr uuid = uuid

theorem registers_of_read {s : P2PProxy} {p : Packet} {q : Bytes}
    (h : NatServer.readDatagram p.data = some (msgProxyRegisterReq, q)) :
    registers s p = if proxyRegReqSize ≤ q.length ∧ uuidAt q 0 ≠ [] ∧
      hmacSha256 proxyAuthKey (uuidAt q 0) = window q 33 32 ∧ s.full (uuidAt q 0) = false then
        some (uuidAt q 0) else none := by
  rw [registers, h]
  exact if_congr (and_iff_right rfl) rfl rfl

theorem regPacket_read {uuid : Bytes} (hu : Proper uuid) (now : ℤ) (src : Addr) :
    ∃ q, NatServer.readDatagram (regPacket now uuid src).data = some (msgProxyRegisterReq, q) ∧
      proxyRegReqSize ≤ q.length ∧ uuidAt q 0 = uuid ∧
      window q 33 32 = hmacSha256 proxyAuthKey uuid := by
  have hmac := hmacSha256_length proxyAuthKey uuid
  have hlen : (uuidField uuid ++ hmacSha256 proxyAuthKey uuid).length = 65 := by
    rw [List.length_append, uuidField_length, hmac]
  refine ⟨_, NatServer.readDatagram_datagram msgProxyRegisterReq (by omega), hlen.ge, ?_, ?_⟩
  · rw [uuidAt_uuidField, hu.text, List.take_of_length_le hu.short]
  · rw [window, List.drop_left' (uuidField_length uuid), List.take_of_length_le hmac.le]

theorem registers_regPacket {uuid : Bytes} (hu : Proper uuid) (now : ℤ) (src : Addr) (s : P2PProxy) :
    registers s (regPacket now uuid src) = if s.full uuid = false then some uuid else none := by
  obtain ⟨q, hread, hlen, hat, hmac⟩ := regPacket_read hu now src
  rw [registers_of_read hread, hat, hmac]
  refine if_congr ?_ rfl rfl
  exact ⟨fun h => h.2.2.2, fun h => ⟨hlen, hu.nonempty, rfl, h⟩⟩

theorem step_regPacket {uuid : Bytes} (hu : Proper uuid) (now : ℤ) (src : Addr) {s : P2PProxy}
    (hroom : s.full uuid = false) : step (regPacket now uuid src) s = s.enroll now uuid src := by
  have hreg := registers_regPacket hu now src s
  rw [if_pos hroom] at hreg
  cases step_cases (regPacket now uuid src) s with
  | enrolled uuid' h e =>
    rw [hreg, Option.some.injEq] at h
    rw [e, h]
    rfl
  | unregistered _ h _ => rw [hreg] at h; cases h
  | other h _ => rw [hreg] at h; cases h

open Samples (uuidU uuidV addrA addrB)

theorem proper_uuidU : Proper uuidU := ⟨by decide, by decide, by decide⟩

theorem proper_uuidV : Proper uuidV := ⟨by decide, by decide, by decide⟩

theorem reach_packet {maxProxy : UInt16} {ok : State → Event → Prop} {s : State} {s' : P2PProxy} {p : Packet}
    (h : Reach (system maxProxy) ok s) (hok : ok s (.packet p)) (hs : step p s.proxy = s') :
    Reach (system maxProxy) ok { s with proxy := s' } := by
  subst hs
  exact Reach.step (S := system maxProxy) (e := .packet p) h trivial hok

def one : State := { proxy := P2PProxy.enroll 0 uuidU addrA { maxProxy := 10 } }

theorem one_reach : Reach (system 10) Stationary one := by
  have h0 : Reach (system 10) Stationary { proxy := { maxProxy := 10 } } := .start rfl
  exact reach_packet h0 ⟨fun _ _ => List.not_mem_nil, fun u _ e he => by simp at he⟩
    (step_regPacket proper_uuidU 0 addrA (by decide +kernel))

/-- A second client that registers from its own address leaves the first one alone. -/
theorem tables_inverse_two :
    Inverse [] one.proxy ∧ (step (regPacket 1 uuidV addrB) one.proxy).uuid2addr[uuidU]? ≠ none := by
  obtain ⟨hinv, hother⟩ := tables_inverse one_reach
  have hroom : one.proxy.full uuidV = false := by decide +kernel
  have hreg := registers_regPacket proper_uuidV 1 addrB one.proxy
  rw [if_pos hroom] at hreg
  refine ⟨hinv, fun hgone => ?_⟩
  have hnew : one.proxy.uuid2addr[uuidV]? = none := by decide +kernel
  have hold : one.proxy.uuid2addr[uuidU]? = some ⟨addrA, 0⟩ := by decide +kernel
  have hcalm : Stationary one (.packet (regPacket 1 uuidV addrB)) := by
    refine ⟨fun _ _ => List.not_mem_nil, fun u hu e he => ?_⟩
    rw [hreg, Option.some.injEq] at hu
    rw [← hu, hnew] at he
    cases he
  exact absurd (hother _ _ hcalm hreg uuidU (by decide) ⟨addrA, 0⟩ hold hgone) (by decide)

/-- A client that registers again from another address leaves its old one in the table. -/
theorem moved_not_inverse : ¬∀ s, Reachable (system 10) s → s.dead = none → Inverse [] s.proxy := by
  intro h
  have hone : Reachable (system 10) one := one_reach.mono fun _ _ _ => trivial
  have hmoved := h _ (reach_packet hone trivial
    (step_regPacket proper_uuidU 1 addrB (by decide +kernel))) rfl
  obtain ⟨e, he, ha⟩ := (hmoved uuidU addrA).mpr ⟨by decide +kernel, List.not_mem_nil⟩
  have hnow : (one.proxy.enroll 1 uuidU addrB).uuid2addr[uuidU]? = some ⟨addrB, 1⟩ := by decide +kernel
  rw [hnow, Option.some.injEq] at he
  rw [← he] at ha
  exact absurd ha (by decide)

def run (ps : List Packet) (s : P2PProxy) : P2PProxy := ps.foldl (fun s p => step p s) s

/-- The packets `ps` are handled between the sections of a pass. -/
def splitPass (now : ℤ) (ps : List Packet) (s : P2PProxy) : P2PProxy :=
  eraseKeys (collected now s) (run ps (expire now s))

/-- The tables are those of a whole pass before the packets, or after them. -/
def Harmless (now : ℤ) (ps : List Packet) (s : P2PProxy) : Prop :=
  SameTables (run ps (timerPass now s)) (splitPass now ps s) ∨
    SameTables (timerPass now (run ps s)) (splitPass now ps s)

/-- No packet registers a uuid from an address whose key is in `dead`. -/
def Apart (dead : List UInt64) : P2PProxy → List Packet → Prop
  | _, [] => True
  | s, p :: ps => (∀ u, registers s p = some u → addrToU64 p.src ∉ dead) ∧ Apart dead (step p s) ps

theorem Apart.of_prefix {dead : List UInt64} {qs ps : List Packet} {s : P2PProxy} (h : Apart dead s ps)
    (hq : qs <+: ps) : Apart dead s qs := by
  induction ps generalizing s qs with
  | nil =>
    rw [List.prefix_nil] at hq
    rw [hq]
    exact trivial
  | cons p ps ih =>
    cases qs with
    | nil => exact trivial
    | cons q qs =>
      obtain ⟨rfl, hrest⟩ := List.cons_prefix_cons.mp hq
      exact ⟨h.1, ih h.2 hrest⟩

section
variable {dead : List UInt64} {s : P2PProxy}

theorem foldl_erase_insert {k : UInt64} (hk : k ∉ dead) (u : Bytes) (m : Std.ExtTreeMap UInt64 Bytes) :
    dead.foldl (fun m k => m.erase k) (m.insert k u) =
      (dead.foldl (fun m k => m.erase k) m).insert k u := by
  apply Std.ExtTreeMap.ext_getElem?
  intro j
  rw [foldl_erase_get, TreeMaps.insert_get, TreeMaps.insert_get, foldl_erase_get]
  by_cases hj : j = k
  · rw [if_pos hj, if_pos hj, if_neg (hj ▸ hk)]
  · rw [if_neg hj, if_neg hj]

theorem foldl_erase_erase (k : UInt64) (m : Std.ExtTreeMap UInt64 Bytes) :
    dead.foldl (fun m k => m.erase k) (m.erase k) = (dead.foldl (fun m k => m.erase k) m).erase k := by
  apply Std.ExtTreeMap.ext_getElem?
  intro j
  rw [foldl_erase_get, TreeMaps.erase_get, TreeMaps.erase_get, foldl_erase_get]
  by_cases hj : j = k
  · rw [if_pos hj, if_pos hj, ite_self]
  · rw [if_neg hj, if_neg hj]

theorem enroll_eraseKeys (now : ℤ) (uuid : Bytes) {src : Addr} (h : addrToU64 src ∉ dead) :
    (eraseKeys dead s).enroll now uuid src = eraseKeys dead (s.enroll now uuid src) := by
  have hget : (eraseKeys dead s).addr2uuid[addrToU64 src]? = s.addr2uuid[addrToU64 src]? := by
    rw [eraseKeys_get, if_neg h]
  unfold enroll
  dsimp only
  rw [hget]
  simp only [eraseKeys, foldl_erase_insert h]

theorem unregister_eraseKeys (uuid : Bytes) (src : Addr) :
    (eraseKeys dead s).unregister uuid src = eraseKeys dead (s.unregister uuid src) := by
  have hsame : (eraseKeys dead s).uuid2addr = s.uuid2addr := rfl
  unfold unregister
  rw [hsame]
  split
  · rfl
  · split
    · rfl
    · simp only [eraseKeys, foldl_erase_erase]

theorem onRelayData_eraseKeys (now : ℤ) (p : Bytes) (src : Addr) :
    (onRelayData now p src (eraseKeys dead s)).1 = eraseKeys dead (onRelayData now p src s).1 := by
  have hsame : (eraseKeys dead s).uuid2addr = s.uuid2addr := rfl
  unfold onRelayData
  rw [hsame]
  split
  · rfl
  · dsimp only
    split
    · rfl
    · simp only [andThen, Effects.modify, send_state]
      rfl

/-- Erasing other keys may come before a packet or after it. -/
theorem step_eraseKeys {p : Packet} (h : ∀ u, registers s p = some u → addrToU64 p.src ∉ dead) :
    step p (eraseKeys dead s) = eraseKeys dead (step p s) := by
  unfold step handle
  cases hd : NatServer.readDatagram p.data with
  | none => rfl
  | some mq =>
    obtain ⟨msgId, q⟩ := mq
    dsimp only
    unfold dispatch
    by_cases hR : msgId = msgProxyRegisterReq
    · subst hR
      rw [if_pos rfl, onRegister, onRegister]
      by_cases hl : q.length < proxyRegReqSize
      · rw [if_pos hl, if_pos hl]
      · rw [if_neg hl, if_neg hl, doRegister_state, doRegister_state]
        have hfull : (eraseKeys dead s).full (uuidAt q 0) = s.full (uuidAt q 0) := rfl
        rw [hfull]
        by_cases hok : uuidAt q 0 ≠ [] ∧ hmacSha256 proxyAuthKey (uuidAt q 0) = window q 33 32 ∧
            s.full (uuidAt q 0) = false
        · rw [if_pos hok, if_pos hok]
          refine enroll_eraseKeys _ _ (h (uuidAt q 0) ?_)
          rw [registers_of_read hd]
          exact if_pos ⟨not_lt.mp hl, hok⟩
        · rw [if_neg hok, if_neg hok]
    · rw [if_neg hR]
      by_cases hU : msgId = msgProxyUnregisterReq
      · rw [if_pos hU]
        exact unregister_eraseKeys _ _
      · rw [if_neg hU]
        by_cases hD : msgId = msgProxyRelayData
        · rw [if_pos hD]
          exact onRelayData_eraseKeys _ _ _
        · rw [if_neg hD]
          by_cases hP : msgId = msgProxyPunchHelper
          · rw [if_pos hP, onPunchHelper_state, onPunchHelper_state]
          · rw [if_neg hP]
            split
            · rw [onSpAskExtinfo, onSpAskExtinfo, send_state, send_state]
            · rfl

theorem run_eraseKeys {ps : List Packet} (h : Apart dead s ps) :
    run ps (eraseKeys dead s) = eraseKeys dead (run ps s) := by
  induction ps generalizing s with
  | nil => rfl
  | cons p ps ih =>
    change run ps (step p (eraseKeys dead s)) = eraseKeys dead (run ps (step p s))
    rw [step_eraseKeys h.1, ih h.2]

end

theorem Owned.run {s : P2PProxy} (h : Owned s) (ps : List Packet) : Owned (run ps s) := by
  induction ps generalizing s with
  | nil => exact h
  | cons p ps ih => exact ih (h.step p)

/-- If the addresses are owned after every prefix, no packet registered at an erased address. -/
theorem apart_of_owned {dead : List UInt64} {ps : List Packet} {s : P2PProxy}
    (h : ∀ qs, qs <+: ps → Owned (eraseKeys dead (run qs s))) : Apart dead s ps := by
  induction ps generalizing s with
  | nil => exact trivial
  | cons p ps ih =>
    refine ⟨fun u hreg hdead => ?_, ih fun qs hq => h (p :: qs) (List.cons_prefix_cons.mpr ⟨rfl, hq⟩)⟩
    have hown : Owned (eraseKeys dead (step p s)) := h [p] (List.cons_prefix_cons.mpr ⟨rfl, List.nil_prefix⟩)
    cases step_cases p s with
    | enrolled uuid hreg' e =>
      rw [e] at hown
      have hentry : (eraseKeys dead (s.enroll p.now uuid p.src)).uuid2addr[uuid]? = some ⟨p.src, p.now⟩ := by
        change (s.enroll p.now uuid p.src).uuid2addr[uuid]? = _
        rw [enroll_uuid2addr, if_pos rfl]
      have hback := hown uuid _ hentry
      rw [eraseKeys_get, if_pos hdead] at hback
      cases hback
    | unregistered _ hnone _ => rw [hreg] at hnone; cases hnone
    | other hnone _ => rw [hreg] at hnone; cases hnone

theorem owned_next {s : State} {e : Event}
    (h : Owned s.proxy ∧ ∀ (u : Bytes) (x : UuidEntry), s.proxy.uuid2addr[u]? = some x →
      addrToU64 x.addr ∉ s.dead.getD []) (hok : Undisturbed s e) :
    Owned (next s e).proxy ∧ ∀ (u : Bytes) (x : UuidEntry), (next s e).proxy.uuid2addr[u]? = some x →
      addrToU64 x.addr ∉ (next s e).dead.getD [] := by
  cases e with
  | packet p =>
    refine ⟨h.1.step p, fun u x hx => ?_⟩
    change (step p s.proxy).uuid2addr[u]? = some x at hx
    cases step_cases p s.proxy with
    | enrolled uuid hreg e =>
      rw [e, enroll_uuid2addr] at hx
      split at hx
      · rw [Option.some.injEq] at hx
        rw [← hx]
        exact hok uuid hreg
      · split at hx
        · cases hx
        · exact h.2 u x hx
    | unregistered uuid _ e =>
      rw [e] at hx
      rcases unregister_cases uuid p.src s.proxy with hs | ⟨_, _, _, _, hu, _⟩
      · rw [hs.uuid2addr] at hx
        exact h.2 u x hx
      · rw [hu, TreeMaps.erase_get] at hx
        split at hx
        · cases hx
        · exact h.2 u x hx
    | other _ hs =>
      rw [hs.uuid2addr] at hx
      exact h.2 u x hx
  | expire now => exact ⟨h.1.expire now, fun _ _ hx => h.1.not_collected hx⟩
  | erase => exact ⟨h.1.eraseKeys h.2, fun _ _ _ => List.not_mem_nil⟩

/-- In every run whose earlier passes were not disturbed: splitting a pass is harmless at every
moment before its second section, exactly when no packet registers from a collected address. -/
theorem split_harmless_iff {maxProxy : UInt16} {s : State} (h : Reach (system maxProxy) Undisturbed s)
    (now : ℤ) (ps : List Packet) :
    (∀ qs, qs <+: ps → Harmless now qs s.proxy) ↔
      Apart (collected now s.proxy) (expire now s.proxy) ps := by
  have hown : Owned s.proxy :=
    (Reach.invariant (S := system maxProxy) (I := fun s => Owned s.proxy ∧ ∀ (u : Bytes) (x : UuidEntry),
        s.proxy.uuid2addr[u]? = some x → addrToU64 x.addr ∉ s.dead.getD [])
      (fun s h0 => by
        subst h0
        exact ⟨(inverse_init maxProxy).owned, fun _ _ _ => List.not_mem_nil⟩)
      (fun _ _ hi _ hok => owned_next hi hok) h).1
  constructor
  · intro hq
    refine apart_of_owned fun qs hpre => ?_
    rcases hq qs hpre with hs | hs
    · exact ((hown.timerPass now).run qs).same hs
    · exact ((hown.run qs).timerPass now).same hs
  · intro hapart qs hpre
    refine .inl ?_
    rw [splitPass, ← run_eraseKeys (hapart.of_prefix hpre)]
    exact ⟨rfl, rfl, rfl⟩

/-- The second client registers while the entry of the first one expires. -/
theorem split_harmless_other : Harmless 121 [regPacket 121 uuidV addrB] one.proxy := by
  have hreach : Reach (system 10) Undisturbed one := one_reach.mono fun _ _ h => h.1
  refine (split_harmless_iff hreach 121 [regPacket 121 uuidV addrB]).mpr ?_ _ (List.prefix_refl _)
  exact ⟨fun _ _ => by decide +kernel, trivial⟩

/-- The first client registers again between the sections that expire it. -/
theorem split_harmful : ¬∀ s, Reachable (system 10) s → s.dead = none →
    ∀ now ps, Harmless now ps s.proxy := by
  intro h
  have hone : Reachable (system 10) one := one_reach.mono fun _ _ _ => trivial
  have hh := h one hone rfl 121 [regPacket 121 uuidU addrA]
  have hstep {s : P2PProxy} (hroom : s.full uuidU = false) :
      run [regPacket 121 uuidU addrA] s = s.enroll 121 uuidU addrA :=
    step_regPacket proper_uuidU 121 addrA hroom
  unfold Harmless splitPass at hh
  rw [hstep (by decide +kernel), hstep (by decide +kernel), hstep (by decide +kernel)] at hh
  rcases hh with hs | hs
  · have hk := congrArg (fun m => m[addrToU64 addrA]?) hs.addr2uuid
    revert hk
    decide +kernel
  · have hk := congrArg (fun m => m[addrToU64 addrA]?) hs.addr2uuid
    revert hk
    decide +kernel

end P2PServer.P2PProxy
