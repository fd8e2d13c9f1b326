import P2PServer.ProxyTables

/-! The paths of the relay over whole runs: every path has its way back with the same count, and a
path that nobody uses is gone after three passes of the timer. -/
namespace P2PServer.P2PProxy
open ByteStrings ProtoDef Net Samples Effects Transitions

/-- The path from one address key to another. -/
def pathAt (paths : Std.ExtTreeMap UInt64 Paths) (k d : UInt64) : Option PathInfo :=
  paths[k]?.bind fun m => m[d]?

/-- Where a packet is forwarded to, if it holds relay data for a registered uuid. -/
def relays (s : P2PProxy) (p : Packet) : Option Addr :=
  match NatServer.readDatagram p.data with
  | none => none
  | some (msgId, q) =>
    if msgId = msgProxyRelayData ∧ relayFrameSize ≤ q.length then
      s.uuid2addr[uuidAt ((q.set maxUuidLen 0).set (33 + maxUuidLen) 0) 33]?.map (·.addr)
    else none

/-- Both rows and columns of an address are deleted. -/
def cutPaths (ua : UInt64) (paths : Std.ExtTreeMap UInt64 Paths) : Std.ExtTreeMap UInt64 Paths :=
  (paths.erase ua).map fun _ m => m.erase ua

section
variable (paths : Std.ExtTreeMap UInt64 Paths) (k d : UInt64)

/-- The path that relaying leaves behind. -/
def touched (now : ℤ) (dst : Addr) (uuid : Bytes) : Option PathInfo → PathInfo
  | none => ⟨dst, 3, uuid, now⟩
  | some p => { p with count := 3, lastActive := now }

theorem relayPath_pathAt (now : ℤ) (src dst : Addr) (uuid : Bytes) :
    pathAt (relayPath now src dst uuid paths) k d =
      if k = addrToU64 src ∧ d = addrToU64 dst then
        some (touched now dst uuid (pathAt paths (addrToU64 src) (addrToU64 dst)))
      else pathAt paths k d := by
  have hold : pathAt paths (addrToU64 src) (addrToU64 dst) =
      ((paths[addrToU64 src]?).getD ∅)[addrToU64 dst]? := by
    unfold pathAt
    cases paths[addrToU64 src]? <;> simp
  have htouch : touchPath now dst uuid ((paths[addrToU64 src]?).getD ∅) =
      ((paths[addrToU64 src]?).getD ∅).insert (addrToU64 dst)
        (touched now dst uuid (pathAt paths (addrToU64 src) (addrToU64 dst))) := by
    rw [touchPath, hold]
    cases ((paths[addrToU64 src]?).getD ∅)[addrToU64 dst]? <;> rfl
  rw [relayPath, htouch]
  unfold pathAt
  rw [TreeMaps.insert_get]
  by_cases hk : k = addrToU64 src
  · subst hk
    rw [if_pos rfl, Option.bind_some, TreeMaps.insert_get]
    by_cases hd : d = addrToU64 dst
    · rw [if_pos hd, if_pos ⟨rfl, hd⟩]
    · rw [if_neg hd, if_neg fun hc => hd hc.2]
      cases paths[addrToU64 src]? <;> simp
  · rw [if_neg hk, if_neg fun hc => hk hc.1]

theorem cutPaths_pathAt (ua : UInt64) : pathAt (cutPaths ua paths) k d =
    if k = ua ∨ d = ua then none else pathAt paths k d := by
  unfold pathAt cutPaths
  rw [Std.ExtTreeMap.getElem?_map, TreeMaps.erase_get]
  by_cases hk : k = ua
  · rw [if_pos hk, if_pos (.inl hk)]
    rfl
  · rw [if_neg hk]
    cases paths[k]? with
    | none => simp
    | some m =>
      simp only [Option.map_some, Option.bind_some, TreeMaps.erase_get, hk, false_or]

theorem decayPaths_get (now : ℤ) (m : Paths) :
    ((decayPaths now m).bind fun m => m[d]?) = m[d]?.bind (decay now) := by
  have hfilter : (m.filterMap fun _ p => decay now p)[d]? = m[d]?.bind (decay now) :=
    Std.ExtTreeMap.getElem?_filterMap'
  unfold decayPaths
  dsimp only
  split
  · rename_i hempty
    rw [← hfilter, Std.ExtTreeMap.isEmpty_iff.mp hempty]
    rfl
  · exact hfilter

theorem expire_pathAt (now : ℤ) (s : P2PProxy) :
    pathAt (expire now s).srcpaths k d = (pathAt s.srcpaths k d).bind (decay now) := by
  unfold pathAt expire
  dsimp only
  rw [Std.ExtTreeMap.getElem?_filterMap']
  cases s.srcpaths[k]? with
  | none => rfl
  | some m => exact decayPaths_get d now m

end

theorem decay_some {now : ℤ} {p q : PathInfo} (h : decay now p = some q) (hp : 0 < p.count) :
    q = { p with count := p.count - 1 } ∧ p.count ≠ 1 ∧ now - p.lastActive ≤ regTtl := by
  unfold decay at h
  dsimp only at h
  rw [if_pos hp] at h
  split at h
  · cases h
  · rename_i hc
    push Not at hc
    cases h
    refine ⟨rfl, fun h1 => hc.1 ?_, hc.2⟩
    simp [h1]

theorem decay_of {now : ℤ} {p : PathInfo} (hp : 0 < p.count) (h1 : p.count ≠ 1)
    (hact : now - p.lastActive ≤ regTtl) : decay now p = some { p with count := p.count - 1 } := by
  unfold decay
  dsimp only
  rw [if_pos hp, if_neg]
  push Not
  refine ⟨fun h0 => h1 ?_, hact⟩
  rw [← sub_eq_zero]
  exact h0

inductive PathEffect (p : Packet) (s : P2PProxy) : Prop
  | relayed (dst : Addr) (u v : Bytes) (h : relays s p = some dst)
    (e : (step p s).srcpaths =
      relayPath p.now dst p.src v (relayPath p.now p.src dst u s.srcpaths))
  | cut (a : Addr) (h : relays s p = none) (e : (step p s).srcpaths = cutPaths (addrToU64 a) s.srcpaths)
  | kept (h : relays s p = none) (e : (step p s).srcpaths = s.srcpaths)

theorem unregister_paths (uuid : Bytes) (src : Addr) (s : P2PProxy) :
    (s.unregister uuid src).srcpaths = s.srcpaths ∨
      ∃ a : Addr, (s.unregister uuid src).srcpaths = cutPaths (addrToU64 a) s.srcpaths := by
  unfold unregister
  split
  · exact .inl rfl
  · rename_i e _
    split
    · exact .inl rfl
    · exact .inr ⟨e.addr, rfl⟩

theorem doRegister_paths (now : ℤ) (uuid : Bytes) (src : Addr) (hmac : Bytes) (s : P2PProxy) :
    (doRegister now uuid src true (some hmac) s).1.srcpaths = s.srcpaths := by
  rw [doRegister_state]
  split <;> rfl

/-- Of the messages that relay nothing only the one that takes a registration back touches the
paths. -/
theorem dispatch_paths (now : ℤ) (q : Bytes) (src : Addr) (s : P2PProxy) {msgId : UInt8}
    (hD : msgId ≠ msgProxyRelayData) :
    (dispatch now msgId q src s).1.srcpaths = s.srcpaths ∨
      ∃ a : Addr, (dispatch now msgId q src s).1.srcpaths = cutPaths (addrToU64 a) s.srcpaths := by
  unfold dispatch
  by_cases hR : msgId = msgProxyRegisterReq
  · rw [if_pos hR, onRegister]
    split
    · exact .inl rfl
    · exact .inl (doRegister_paths ..)
  rw [if_neg hR]
  by_cases hU : msgId = msgProxyUnregisterReq
  · rw [if_pos hU]
    exact unregister_paths _ src s
  rw [if_neg hU, if_neg hD]
  by_cases hP : msgId = msgProxyPunchHelper
  · rw [if_pos hP, onPunchHelper_state]
    exact .inl rfl
  rw [if_neg hP]
  split
  · rw [onSpAskExtinfo, send_state]
    exact .inl rfl
  · exact .inl rfl

theorem step_paths (p : Packet) (s : P2PProxy) : PathEffect p s := by
  cases hd : NatServer.readDatagram p.data with
  | none => exact .kept (by rw [relays, hd]) (by rw [step, handle, hd])
  | some mq =>
    obtain ⟨msgId, q⟩ := mq
    have hstep : step p s = (dispatch p.now msgId q p.src s).1 := by rw [step, handle, hd]
    by_cases hD : msgId = msgProxyRelayData
    · subst hD
      have hdata : step p s = (onRelayData p.now q p.src s).1 := hstep
      unfold onRelayData at hdata
      split at hdata
      · rename_i hl
        refine .kept ?_ (by rw [hdata])
        rw [relays, hd]
        exact if_neg fun hc => absurd hc.2 (not_le.mpr hl)
      · rename_i hl
        have hrel : relays s p =
            s.uuid2addr[uuidAt ((q.set maxUuidLen 0).set (33 + maxUuidLen) 0) 33]?.map (·.addr) := by
          rw [relays, hd]
          exact if_pos ⟨rfl, not_lt.mp hl⟩
        dsimp only at hdata
        split at hdata
        · rename_i hnone
          exact .kept (by rw [hrel, hnone]; rfl) (by rw [hdata])
        · rename_i e he
          have hpaths : (step p s).srcpaths =
              relayPath p.now e.addr p.src (uuidAt ((q.set maxUuidLen 0).set (33 + maxUuidLen) 0) 0)
                (relayPath p.now p.src e.addr
                  (uuidAt ((q.set maxUuidLen 0).set (33 + maxUuidLen) 0) 33) s.srcpaths) := by
            rw [hdata]
            simp only [andThen, Effects.modify, send_state]
          exact .relayed e.addr _ _ (by rw [hrel, he]; rfl) hpaths
    · have hnone : relays s p = none := by
        rw [relays, hd]
        exact if_neg fun hc => hD hc.1
      rcases dispatch_paths p.now q p.src s hD with hk | ⟨a, hc⟩
      · exact .kept hnone (by rw [hstep, hk])
      · exact .cut a hnone (by rw [hstep, hc])

/-- Every path carries the address of its target. -/
def Targeted (paths : Std.ExtTreeMap UInt64 Paths) : Prop :=
  ∀ k d p, pathAt paths k d = some p → addrToU64 p.dst = d

/-- A path is renewed and counted down together with the way back. -/
structure Twins (p q : PathInfo) : Prop where
  count : q.count = p.count
  lastActive : q.lastActive = p.lastActive

/-- The counts are one to three, and every path has a way back with the same count and age. -/
def Paired (paths : Std.ExtTreeMap UInt64 Paths) : Prop :=
  ∀ k d p, pathAt paths k d = some p →
    1 ≤ p.count.toNat ∧ p.count.toNat ≤ 3 ∧ ∃ q, pathAt paths d k = some q ∧ Twins p q

section
variable {paths : Std.ExtTreeMap UInt64 Paths}

theorem Targeted.cut (h : Targeted paths) (ua : UInt64) : Targeted (cutPaths ua paths) := by
  intro k d p hp
  rw [cutPaths_pathAt] at hp
  split at hp
  · cases hp
  · exact h k d p hp

theorem Targeted.relayPath (h : Targeted paths) (now : ℤ) (src dst : Addr) (uuid : Bytes) :
    Targeted (relayPath now src dst uuid paths) := by
  intro k d p hp
  rw [relayPath_pathAt] at hp
  split at hp
  · rename_i hkd
    cases hp
    rw [hkd.2]
    cases ho : pathAt paths (addrToU64 src) (addrToU64 dst) with
    | none => rfl
    | some p => exact h _ _ p ho
  · exact h k d p hp

theorem Targeted.expire {s : P2PProxy} (h : Targeted s.srcpaths) (hp : Paired s.srcpaths) (now : ℤ) :
    Targeted (P2PProxy.expire now s).srcpaths := by
  intro k d q hq
  rw [expire_pathAt] at hq
  obtain ⟨p, hget, hdecay⟩ := Option.bind_eq_some_iff.mp hq
  obtain ⟨hpos, -⟩ := hp k d p hget
  obtain ⟨rfl, -⟩ := decay_some hdecay (UInt32.lt_iff_toNat_lt.mpr hpos)
  exact h k d p hget

theorem Paired.cut (h : Paired paths) (ua : UInt64) : Paired (cutPaths ua paths) := by
  intro k d p hp
  rw [cutPaths_pathAt] at hp
  split at hp
  · cases hp
  · rename_i hne
    obtain ⟨hpos, hle, q, hq, htwin⟩ := h k d p hp
    refine ⟨hpos, hle, q, ?_, htwin⟩
    rw [cutPaths_pathAt, if_neg fun hc => hne hc.symm, hq]

theorem relayPath_renewed (paths : Std.ExtTreeMap UInt64 Paths) (now : ℤ) (src dst : Addr)
    (uuid : Bytes) : ∃ p, pathAt (relayPath now src dst uuid paths) (addrToU64 src) (addrToU64 dst) =
      some p ∧ p.count = 3 ∧ p.lastActive = now := by
  refine ⟨_, (relayPath_pathAt ..).trans (if_pos ⟨rfl, rfl⟩), ?_⟩
  cases pathAt paths (addrToU64 src) (addrToU64 dst) <;> exact ⟨rfl, rfl⟩

/-- The two ways of a packet after it was relayed. They are one entry when a sender relays to
itself. -/
theorem relayed_renewed (paths : Std.ExtTreeMap UInt64 Paths) (now : ℤ) (src dst : Addr)
    (u v : Bytes) {k d : UInt64}
    (hkd : k = addrToU64 src ∧ d = addrToU64 dst ∨ k = addrToU64 dst ∧ d = addrToU64 src) :
    ∃ p, pathAt (relayPath now dst src v (relayPath now src dst u paths)) k d = some p ∧
      p.count = 3 ∧ p.lastActive = now := by
  by_cases hback : k = addrToU64 dst ∧ d = addrToU64 src
  · obtain ⟨rfl, rfl⟩ := hback
    exact relayPath_renewed _ now dst src v
  · obtain ⟨rfl, rfl⟩ := hkd.resolve_right hback
    rw [relayPath_pathAt, if_neg hback]
    exact relayPath_renewed paths now src dst u

theorem relayed_other (paths : Std.ExtTreeMap UInt64 Paths) (now : ℤ) (src dst : Addr)
    (u v : Bytes) {k d : UInt64}
    (hkd : ¬(k = addrToU64 src ∧ d = addrToU64 dst ∨ k = addrToU64 dst ∧ d = addrToU64 src)) :
    pathAt (relayPath now dst src v (relayPath now src dst u paths)) k d = pathAt paths k d := by
  push Not at hkd
  rw [relayPath_pathAt, if_neg fun hc => hkd.2 hc.1 hc.2, relayPath_pathAt,
    if_neg fun hc => hkd.1 hc.1 hc.2]

theorem Paired.relay (h : Paired paths) (now : ℤ) (src dst : Addr) (u v : Bytes) :
    Paired (P2PProxy.relayPath now dst src v (P2PProxy.relayPath now src dst u paths)) := by
  intro k d p hp
  by_cases hkd : k = addrToU64 src ∧ d = addrToU64 dst ∨ k = addrToU64 dst ∧ d = addrToU64 src
  · obtain ⟨p', hp', hcount, hact⟩ := relayed_renewed paths now src dst u v hkd
    obtain ⟨q, hq, hcount', hact'⟩ := relayed_renewed paths now src dst u v (k := d) (d := k)
      (hkd.symm.imp And.symm And.symm)
    rw [hp, Option.some.injEq] at hp'
    subst hp'
    rw [hcount]
    exact ⟨by decide, by decide, q, hq, hcount'.trans hcount.symm, hact'.trans hact.symm⟩
  · rw [relayed_other paths now src dst u v hkd] at hp
    obtain ⟨hpos, hle, q, hq, htwin⟩ := h k d p hp
    refine ⟨hpos, hle, q, ?_, htwin⟩
    rw [relayed_other paths now src dst u v fun hc => hkd (hc.symm.imp And.symm And.symm), hq]

/-- A pass takes one count off both ways, or drops both. -/
theorem Paired.expire {s : P2PProxy} (h : Paired s.srcpaths) (now : ℤ) :
    Paired (P2PProxy.expire now s).srcpaths := by
  intro k d p' hp'
  rw [expire_pathAt] at hp'
  obtain ⟨p, hget, hdecay⟩ := Option.bind_eq_some_iff.mp hp'
  obtain ⟨hpos, hle, q, hq, htwin⟩ := h k d p hget
  have hp0 : 0 < p.count := UInt32.lt_iff_toNat_lt.mpr hpos
  obtain ⟨rfl, hne, hact⟩ := decay_some hdecay hp0
  have hback := decay_of (htwin.count ▸ hp0) (htwin.count ▸ hne) (htwin.lastActive ▸ hact)
  have hone : p.count.toNat ≠ 1 := fun hc => hne (UInt32.toNat_inj.mp hc)
  have hsub : (p.count - 1).toNat = p.count.toNat - 1 := by
    rw [UInt32.toNat_sub_of_le _ _ (show 1 ≤ p.count from UInt32.le_iff_toNat_le.mpr hpos)]
    rfl
  dsimp only
  rw [hsub]
  refine ⟨by omega, by omega, { q with count := q.count - 1 }, ?_, ?_, htwin.lastActive⟩
  · rw [expire_pathAt, hq]
    exact hback
  · dsimp only
    rw [htwin.count]

end

/-- The paths of a reachable state. -/
structure Mirrored (paths : Std.ExtTreeMap UInt64 Paths) : Prop where
  targeted : Targeted paths
  paired : Paired paths

theorem Mirrored.next {s : State} (h : Mirrored s.proxy.srcpaths) (e : Event) :
    Mirrored (next s e).proxy.srcpaths := by
  cases e with
  | packet p =>
    cases step_paths p s.proxy with
    | relayed dst u v _ e =>
      change Mirrored (step p s.proxy).srcpaths
      rw [e]
      exact ⟨(h.targeted.relayPath p.now p.src dst u).relayPath p.now dst p.src v,
        h.paired.relay p.now p.src dst u v⟩
    | cut a _ e =>
      change Mirrored (step p s.proxy).srcpaths
      rw [e]
      exact ⟨h.targeted.cut _, h.paired.cut _⟩
    | kept _ e =>
      change Mirrored (step p s.proxy).srcpaths
      rw [e]
      exact h
  | expire now => exact ⟨h.targeted.expire h.paired now, h.paired.expire now⟩
  | erase => exact h

theorem mirrored {maxProxy : UInt16} {s : State} (h : Reachable (system maxProxy) s) :
    Mirrored s.proxy.srcpaths := by
  refine h.invariant (I := fun s => Mirrored s.proxy.srcpaths) ?_ fun s e hs _ _ => hs.next e
  intro s hs
  rw [show s = _ from hs]
  constructor <;> intro k d p hp <;> simp [pathAt] at hp

/-- A packet that is relayed between the two addresses, in either direction, uses the path. -/
def Uses (k d : UInt64) (s : State) : Event → Prop
  | .packet p => ∃ dst, relays s.proxy p = some dst ∧
      (k = addrToU64 p.src ∧ d = addrToU64 dst ∨ k = addrToU64 dst ∧ d = addrToU64 p.src)
  | .expire _ | .erase => False

def passes (es : List Event) : ℕ :=
  es.countP fun e => match e with
    | .expire _ => true
    | _ => false

/-- The path has at least `n` fewer counts than a new one, if it is there. -/
def Spent (n : ℕ) (o : Option PathInfo) : Prop := ∀ p, o = some p → p.count.toNat + n ≤ 3

theorem Spent.next {k d : UInt64} {n : ℕ} {s : State} (hm : Mirrored s.proxy.srcpaths)
    (h : Spent n (pathAt s.proxy.srcpaths k d)) {e : Event} (hu : ¬Uses k d s e) :
    Spent (n + passes [e]) (pathAt (P2PProxy.next s e).proxy.srcpaths k d) := by
  cases e with
  | packet p =>
    change Spent n (pathAt (step p s.proxy).srcpaths k d)
    cases step_paths p s.proxy with
    | relayed dst u v hrel he =>
      rw [he, relayed_other _ _ _ _ u v fun hc => hu ⟨dst, hrel, hc⟩]
      exact h
    | cut a _ he =>
      intro q hq
      rw [he, cutPaths_pathAt] at hq
      split at hq
      · cases hq
      · exact h q hq
    | kept _ he =>
      rw [he]
      exact h
  | expire now =>
    intro q hq
    change pathAt (P2PProxy.expire now s.proxy).srcpaths k d = some q at hq
    rw [expire_pathAt] at hq
    obtain ⟨p, hget, hdecay⟩ := Option.bind_eq_some_iff.mp hq
    obtain ⟨hpos, -⟩ := hm.paired k d p hget
    have hpos' : 1 ≤ p.count := UInt32.le_iff_toNat_le.mpr hpos
    obtain ⟨rfl, -⟩ := decay_some hdecay (UInt32.lt_iff_toNat_lt.mpr hpos)
    have hsub : (p.count - 1).toNat = p.count.toNat - 1 := UInt32.toNat_sub_of_le _ _ hpos'
    have hle := h p hget
    change (p.count - 1).toNat + (n + 1) ≤ 3
    omega
  | erase => exact h

/-- Over a run in which nobody uses the path, it loses one count in each pass. -/
theorem Spent.run {k d : UInt64} {maxProxy : UInt16} {es : List Event} {n : ℕ} {s : State}
    (hs : Reachable (system maxProxy) s) (h : Spent n (pathAt s.proxy.srcpaths k d))
    (hr : Run (system maxProxy) (fun s e => ¬Uses k d s e) s es) :
    Spent (n + passes es) (pathAt (es.foldl P2PProxy.next s).proxy.srcpaths k d) := by
  induction es generalizing n s with
  | nil => exact h
  | cons e es ih =>
    obtain ⟨can, hu, hr⟩ := hr
    have := ih (hs.step can trivial) (h.next (mirrored hs) hu) hr
    rwa [Nat.add_assoc, passes, passes, ← List.countP_append] at this

/-- Paths are there in both directions, with one count of one to three, one age, and the address of
the target; and a path that nobody uses during three passes is absent after them. -/
theorem paths_mirrored {maxProxy : UInt16} {s : State} (h : Reachable (system maxProxy) s) :
    (∀ k d, (pathAt s.proxy.srcpaths k d).isSome ↔ (pathAt s.proxy.srcpaths d k).isSome) ∧
    (∀ k d p q, pathAt s.proxy.srcpaths k d = some p → pathAt s.proxy.srcpaths d k = some q →
      p.count = q.count ∧ p.count.toNat ∈ [1, 2, 3] ∧ p.lastActive = q.lastActive ∧
        addrToU64 p.dst = d) ∧
    ∀ k d es, Run (system maxProxy) (fun s e => ¬Uses k d s e) s es → 3 ≤ passes es →
      pathAt (es.foldl next s).proxy.srcpaths k d = none := by
  have hm := mirrored h
  have hback {k d : UInt64} (hs : (pathAt s.proxy.srcpaths k d).isSome) :
      (pathAt s.proxy.srcpaths d k).isSome := by
    obtain ⟨p, hp⟩ := Option.isSome_iff_exists.mp hs
    obtain ⟨-, -, q, hq, -⟩ := hm.paired k d p hp
    rw [hq]
    rfl
  refine ⟨fun k d => ⟨hback, hback⟩, fun k d p q hp hq => ?_, fun k d es hr hthree => ?_⟩
  · obtain ⟨hpos, hle, q', hq', htwin⟩ := hm.paired k d p hp
    rw [hq, Option.some.injEq] at hq'
    subst hq'
    refine ⟨htwin.count.symm, ?_, htwin.lastActive.symm, hm.targeted k d p hp⟩
    simp only [List.mem_cons, List.not_mem_nil, or_false]
    omega
  · have hfresh : Spent 0 (pathAt s.proxy.srcpaths k d) := fun p hp => (hm.paired k d p hp).2.1
    have hspent := hfresh.run h hr
    rw [Option.eq_none_iff_forall_ne_some]
    intro p hp
    have hend := mirrored (h.run (hr.mono fun _ _ _ => trivial))
    obtain ⟨hpos, -⟩ := hend.paired k d p hp
    have := hspent p hp
    omega

def relayed : Packet :=
  ⟨7, NatServer.datagram msgProxyRelayData (uuidField uuidV ++ uuidField uuidU), addrB⟩

/-- The way back is there with the first frame, and gone after three passes. -/
theorem paths_mirrored_relayed :
    (pathAt (next one (.packet relayed)).proxy.srcpaths (addrToU64 addrA) (addrToU64 addrB)).isSome ∧
    pathAt ([.expire 17, .erase, .expire 27, .erase, .expire 37].foldl next
      (next one (.packet relayed))).proxy.srcpaths (addrToU64 addrA) (addrToU64 addrB) = none := by
  have hrel : relays one.proxy relayed = some addrA := by decide +kernel
  have hone : Reachable (system 10) one := one_reach.mono fun _ _ _ => trivial
  have hs : Reachable (system 10) (next one (.packet relayed)) :=
    Reach.step (S := system 10) (e := .packet relayed) hone trivial trivial
  obtain ⟨hboth, -, hgone⟩ := paths_mirrored hs
  refine ⟨(hboth _ _).mp ?_, hgone _ _ _ ?_ (by decide)⟩
  · cases step_paths relayed one.proxy with
    | relayed dst u v h he =>
      rw [hrel, Option.some.injEq] at h
      subst h
      change (pathAt (step relayed one.proxy).srcpaths (addrToU64 addrB) (addrToU64 addrA)).isSome
      obtain ⟨p, hp, -⟩ := relayed_renewed one.proxy.srcpaths relayed.now relayed.src addrA u v
        (.inl ⟨rfl, rfl⟩)
      rw [he]
      exact Option.isSome_iff_exists.mpr ⟨p, hp⟩
    | cut a h _ => rw [hrel] at h; cases h
    | kept h _ => rw [hrel] at h; cases h
  · exact ⟨rfl, id, rfl, id, rfl, id, rfl, id, rfl, id, trivial⟩

end P2PServer.P2PProxy
