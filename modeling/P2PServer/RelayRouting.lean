import P2PServer.ProxyCapacity

/-! Where the relay forwards to, over whole runs. A uuid is at the address from which it registered last. Frames
for it go there and nowhere else, and they do go there while the registration is young, has not been taken
back, and no other uuid has come to an address that this one was the last to register from. -/
namespace P2PServer.RelayRouting
open ByteStrings ProtoDef Net Transitions P2PProxy

/-- What the relay has taken: a registration, or a request to take one back. -/
inductive Notice
  | registered (uuid : Bytes) (addr : Addr) (now : ℤ)
  | withdrawn (uuid : Bytes) (addr : Addr)

/-- The uuid that a packet takes back. -/
def withdraws (p : Packet) : Option Bytes :=
  match NatServer.readDatagram p.data with
  | none => none
  | some (msgId, q) =>
    if msgId = msgProxyUnregisterReq then some (if q.length ≥ proxyRegReqSize then uuidAt q 0 else []) else none

def notice (s : P2PProxy) (p : Packet) : List Notice :=
  match registers s p with
  | some uuid => [.registered uuid p.src p.now]
  | none => (withdraws p).toList.map fun uuid => .withdrawn uuid p.src

def noticed (s : State) : Event → List Notice
  | .packet p => notice s.proxy p
  | .expire _ | .erase => []

def notices : State → List Event → List Notice
  | _, [] => []
  | s, e :: es => notices (P2PProxy.next s e) es ++ noticed s e

/-- Where a uuid is: at its last registration, if it has not taken that back from there. -/
def seat : List Notice → Bytes → Option UuidEntry
  | [], _ => none
  | .registered uuid addr now :: ns, u => if u = uuid then some ⟨addr, now⟩ else seat ns u
  | .withdrawn uuid addr :: ns, u => if u = uuid then (seat ns u).filter (·.addr ≠ addr) else seat ns u

/-- The uuid that registered from an address last. -/
def tenant : List Notice → Addr → Option Bytes
  | [], _ => none
  | .registered uuid addr _ :: ns, a => if a = addr then some uuid else tenant ns a
  | .withdrawn .. :: ns, a => tenant ns a

/-- Since it registered, no other uuid has come to an address that this one was the last to register from. -/
def Alone (u : Bytes) : List Notice → Prop
  | [] => True
  | .registered uuid addr _ :: ns => uuid = u ∨ tenant ns addr ≠ some u ∧ Alone u ns
  | .withdrawn .. :: ns => Alone u ns

/-- The table has nothing but where the uuids are, and misses only what is too old or was pushed out. -/
structure Kept (ns : List Notice) (now : ℤ) (s : P2PProxy) : Prop where
  seated {u : Bytes} {e : UuidEntry} : s.uuid2addr[u]? = some e → seat ns u = some e
  tenants {a : Addr} {u : Bytes} : s.addr2uuid[addrToU64 a]? = some u → tenant ns a = some u
  found {u : Bytes} {e : UuidEntry} : Alone u ns → seat ns u = some e → now - e.lastReg ≤ regTtl →
    s.uuid2addr[u]? = some e

section
variable {ns : List Notice} {now t : ℤ} {s s' : P2PProxy}

theorem Kept.later (h : Kept ns now s) (ht : now ≤ t) : Kept ns t s :=
  ⟨h.seated, h.tenants, fun halone hseat hage => h.found halone hseat (by omega)⟩

theorem Kept.same (h : Kept ns now s) (hs : SameTables s s') : Kept ns now s' where
  seated := by
    rw [hs.uuid2addr]
    exact h.seated
  tenants := by
    rw [hs.addr2uuid]
    exact h.tenants
  found := by
    rw [hs.uuid2addr]
    exact h.found

/-- A registration pushes out no uuid but the one that registered from its address before. -/
theorem Kept.enroll (h : Kept ns now s) (uuid : Bytes) (src : Addr) :
    Kept (.registered uuid src t :: ns) now (s.enroll t uuid src) where
  seated {u e} he := by
    rw [enroll_uuid2addr] at he
    rw [seat]
    by_cases hu : u = uuid
    · rwa [if_pos hu] at he ⊢
    · rw [if_neg hu] at he ⊢
      split at he
      · cases he
      · exact h.seated he
  tenants {a u} hu := by
    rw [enroll_addr2uuid] at hu
    rw [tenant]
    by_cases ha : a = src
    · rw [if_pos (congrArg addrToU64 ha)] at hu
      rwa [if_pos ha]
    · rw [if_neg fun hk => ha (addrToU64_inj hk)] at hu
      rw [if_neg ha]
      exact h.tenants hu
  found {u e} halone hseat hage := by
    rw [seat] at hseat
    rw [enroll_uuid2addr]
    by_cases hu : u = uuid
    · rwa [if_pos hu] at hseat ⊢
    · rw [if_neg hu] at hseat ⊢
      rcases halone with huuid | ⟨htenant, halone⟩
      · exact absurd huuid.symm hu
      · rw [if_neg fun hk => htenant (h.tenants hk)]
        exact h.found halone hseat hage

theorem seat_withdrawn (uuid : Bytes) (src : Addr) (u : Bytes) : seat (.withdrawn uuid src :: ns) u =
    if u = uuid then (seat ns u).filter (·.addr ≠ src) else seat ns u := rfl

/-- Only the address that registered may take the uuid back. -/
theorem Kept.stays (h : Kept ns now s) {uuid : Bytes} {src : Addr}
    (hother : ∀ e, s.uuid2addr[uuid]? = some e → e.addr ≠ src) : Kept (.withdrawn uuid src :: ns) now s where
  seated {u e} he := by
    rw [seat_withdrawn, h.seated he]
    by_cases hu : u = uuid
    · subst hu
      rw [if_pos rfl, Option.filter_some_pos (by simpa using hother e he)]
    · rw [if_neg hu]
  tenants := h.tenants
  found {u e} halone hseat hage := by
    refine h.found halone ?_ hage
    rw [seat_withdrawn] at hseat
    split at hseat
    · exact (Option.filter_eq_some_iff.mp hseat).1
    · exact hseat

theorem Kept.leaves (h : Kept ns now s) {uuid : Bytes} {e₀ : UuidEntry} (he₀ : s.uuid2addr[uuid]? = some e₀)
    (htable : s'.uuid2addr = s.uuid2addr.erase uuid)
    (hkeys : s'.addr2uuid = s.addr2uuid.erase (addrToU64 e₀.addr)) :
    Kept (.withdrawn uuid e₀.addr :: ns) now s' where
  seated {u e} he := by
    rw [htable, TreeMaps.erase_get] at he
    split at he
    · cases he
    · rename_i hu
      rw [seat_withdrawn, if_neg hu, h.seated he]
  tenants {a u} hu := by
    rw [hkeys, TreeMaps.erase_get] at hu
    split at hu
    · cases hu
    · exact h.tenants hu
  found {u e} halone hseat hage := by
    rw [htable, TreeMaps.erase_get]
    rw [seat_withdrawn] at hseat
    by_cases hu : u = uuid
    · subst hu
      rw [if_pos rfl, h.seated he₀, Option.filter_some_neg (by simp)] at hseat
      cases hseat
    · rw [if_neg hu] at hseat ⊢
      exact h.found halone hseat hage

theorem Kept.unregister (h : Kept ns now s) (uuid : Bytes) (src : Addr) :
    Kept (.withdrawn uuid src :: ns) now (s.unregister uuid src) := by
  unfold P2PProxy.unregister
  split
  · rename_i hnone
    refine h.stays fun e he => ?_
    rw [hnone] at he
    cases he
  · rename_i e₀ he₀
    split
    · rename_i ha
      refine h.stays fun e he => ?_
      rw [he₀, Option.some.injEq] at he
      rwa [← he]
    · rename_i ha
      obtain rfl := not_not.mp ha
      exact h.leaves he₀ rfl rfl

theorem Kept.expire (h : Kept ns now s) : Kept ns now (P2PProxy.expire now s) where
  seated {u e} he := by
    rw [expire_get, Option.filter_eq_some_iff] at he
    exact h.seated he.1
  tenants := h.tenants
  found {u e} halone hseat hage := by
    rw [expire_get, Option.filter_eq_some_iff]
    exact ⟨h.found halone hseat hage, by simpa [expired] using hage⟩

theorem Kept.eraseKeys (h : Kept ns now s) (dead : List UInt64) : Kept ns now (P2PProxy.eraseKeys dead s) where
  seated := h.seated
  tenants {a u} hu := by
    rw [eraseKeys_get] at hu
    split at hu
    · cases hu
    · exact h.tenants hu
  found := h.found

end

section
variable {p : Packet} {s : P2PProxy}

theorem step_read {msgId : UInt8} {q : Bytes} (hd : NatServer.readDatagram p.data = some (msgId, q)) :
    step p s = (dispatch p.now msgId q p.src s).1 := by
  rw [step, handle, hd]

theorem step_withdraws {uuid : Bytes} (h : withdraws p = some uuid) : step p s = s.unregister uuid p.src := by
  unfold withdraws at h
  split at h
  · cases h
  · rename_i msgId q hd
    split at h
    · rename_i hid
      rw [step_read hd, hid, ← Option.some.inj h]
      rfl
    · cases h

theorem step_same (hr : registers s p = none) (hw : withdraws p = none) : SameTables s (step p s) := by
  cases hd : NatServer.readDatagram p.data with
  | none =>
    rw [step, handle, hd]
    exact ⟨rfl, rfl, rfl⟩
  | some mq =>
    obtain ⟨msgId, q⟩ := mq
    rw [step_read hd]
    unfold dispatch
    by_cases hR : msgId = msgProxyRegisterReq
    · subst hR
      rw [registers_of_read hd] at hr
      rw [if_pos rfl, onRegister]
      split
      · exact ⟨rfl, rfl, rfl⟩
      · rename_i hlen
        rw [doRegister_state, if_neg fun hok => ?_]
        · exact ⟨rfl, rfl, rfl⟩
        · rw [if_pos ⟨not_lt.mp hlen, hok⟩] at hr
          cases hr
    rw [if_neg hR]
    by_cases hU : msgId = msgProxyUnregisterReq
    · rw [withdraws, hd] at hw
      dsimp only at hw
      rw [if_pos hU] at hw
      cases hw
    rw [if_neg hU]
    by_cases hD : msgId = msgProxyRelayData
    · rw [if_pos hD]
      exact onRelayData_tables p.now q p.src s
    rw [if_neg hD]
    by_cases hP : msgId = msgProxyPunchHelper
    · rw [if_pos hP, onPunchHelper_state]
      exact ⟨rfl, rfl, rfl⟩
    rw [if_neg hP]
    split
    · rw [onSpAskExtinfo, send_state]
      exact ⟨rfl, rfl, rfl⟩
    · exact ⟨rfl, rfl, rfl⟩

theorem Kept.step {ns : List Notice} {now : ℤ} (h : Kept ns now s) (hnow : now ≤ p.now) :
    Kept (notice s p ++ ns) p.now (P2PProxy.step p s) := by
  unfold notice
  cases hr : registers s p with
  | some uuid =>
    cases step_cases p s with
    | enrolled uuid' hr' e =>
      rw [hr, Option.some.injEq] at hr'
      rw [e, ← hr']
      exact (h.later hnow).enroll uuid p.src
    | unregistered _ hr' _ =>
      rw [hr] at hr'
      cases hr'
    | other hr' _ =>
      rw [hr] at hr'
      cases hr'
  | none =>
    cases hw : withdraws p with
    | some uuid =>
      rw [step_withdraws hw]
      exact (h.later hnow).unregister uuid p.src
    | none => exact (h.later hnow).same (step_same hr hw)

end

def stamp (clock : ℤ) : Event → ℤ
  | .packet p => p.now
  | .expire now => now
  | .erase => clock

/-- The relay and its clock, which does not go back. -/
def timed (maxProxy : UInt16) : System (ℤ × State) Event where
  init s := (P2PProxy.system maxProxy).init s.2
  enabled s e := enabled s.2 e ∧ s.1 ≤ stamp s.1 e
  next s e := (stamp s.1 e, P2PProxy.next s.2 e)

theorem Kept.next {ns : List Notice} {s : ℤ × State} {maxProxy : UInt16} {e : Event} (h : Kept ns s.1 s.2.proxy)
    (hcan : (timed maxProxy).enabled s e) :
    Kept (noticed s.2 e ++ ns) ((timed maxProxy).next s e).1 ((timed maxProxy).next s e).2.proxy := by
  cases e with
  | packet p => exact h.step hcan.2
  | expire now => exact (h.later hcan.2).expire
  | erase => exact h.eraseKeys _

theorem notices_append (s : State) (es : List Event) (e : Event) :
    notices s (es ++ [e]) = noticed (es.foldl P2PProxy.next s) e ++ notices s es := by
  induction es generalizing s with
  | nil => simp [notices]
  | cons e' es ih => simp [notices, ih]

section
variable {maxProxy : UInt16} {s : ℤ × State} {es : List Event}

theorem foldl_timed (maxProxy : UInt16) (s : ℤ × State) (es : List Event) :
    (es.foldl (timed maxProxy).next s).2 = es.foldl P2PProxy.next s.2 := by
  induction es generalizing s with
  | nil => rfl
  | cons e es ih => exact ih _

theorem run_owned (hs : (timed maxProxy).init s)
    (hr : Run (timed maxProxy) (fun s e => Undisturbed s.2 e) s es) :
    Owned (es.foldl (timed maxProxy).next s).2.proxy := by
  have hinit : s.2 = { proxy := { maxProxy := maxProxy } } := hs
  have h0 : Owned s.2.proxy ∧ ∀ (u : Bytes) (x : UuidEntry), s.2.proxy.uuid2addr[u]? = some x →
      addrToU64 x.addr ∉ s.2.dead.getD [] := by
    rw [hinit]
    exact ⟨(inverse_init maxProxy).owned, fun _ _ _ => List.not_mem_nil⟩
  exact (Run.history (J := fun _ s => Owned s.2.proxy ∧ ∀ (u : Bytes) (x : UuidEntry),
    s.2.proxy.uuid2addr[u]? = some x → addrToU64 x.addr ∉ s.2.dead.getD []) h0
    (fun _ _ _ h _ hok => owned_next h hok) hr).1

theorem run_kept (hs : (timed maxProxy).init s) (hr : Run (timed maxProxy) (fun _ _ => True) s es) :
    Kept (notices s.2 es) (es.foldl (timed maxProxy).next s).1 (es.foldl (timed maxProxy).next s).2.proxy := by
  induction es using List.reverseRecOn with
  | nil =>
    have hinit : s.2 = { proxy := { maxProxy := maxProxy } } := hs
    refine ⟨fun {u e} he => ?_, fun {a u} hu => ?_, fun _ hseat => ?_⟩
    · simp [hinit] at he
    · simp [hinit] at hu
    · cases hseat
  | append_singleton es e ih =>
    obtain ⟨hes, hcan, -, -⟩ := Run.append.mp hr
    rw [List.foldl_append, notices_append, ← foldl_timed maxProxy]
    exact (ih hes).next hcan

end

/-- A frame as the relay forwards it, with both uuids terminated. -/
def forwarded (q : Bytes) : Bytes := (q.set maxUuidLen 0).set (33 + maxUuidLen) 0

/-- The uuid that a frame is for. -/
def target (q : Bytes) : Bytes := uuidAt (forwarded q) 33

theorem handle_frame {p : Packet} {q : Bytes}
    (hp : NatServer.readDatagram p.data = some (msgProxyRelayData, q)) (s : P2PProxy) :
    (handle p.now p.data p.src s).2 = if relayFrameSize ≤ q.length ∧ q.length ≤ maxPkt - 8 then
      (s.uuid2addr[target q]?).toList.map fun e => answer e.addr msgProxyRelayData (forwarded q) else [] := by
  have hdispatch : dispatch p.now msgProxyRelayData q p.src = onRelayData p.now q p.src := rfl
  have hlen : (forwarded q).length = q.length := by simp [forwarded]
  rw [handle, hp]
  dsimp only
  rw [hdispatch, onRelayData]
  by_cases hlong : q.length < relayFrameSize
  · rw [if_pos hlong, if_neg fun hc => absurd hc.1 (not_le.mpr hlong)]
  rw [if_neg hlong]
  dsimp only
  rw [← forwarded, ← target]
  cases s.uuid2addr[target q]? with
  | none => simp
  | some e =>
    dsimp only
    by_cases hfits : q.length ≤ maxPkt - 8
    · rw [if_pos ⟨not_lt.mp hlong, hfits⟩, Effects.andThen, send_small (by rw [hlen]; exact hfits)]
      rfl
    · rw [if_neg fun hc => hfits hc.2, Effects.andThen, send, if_pos (by rw [hlen]; exact not_le.mp hfits)]
      rfl

/-- Where a frame goes, by the history. -/
structure Routed (ns : List Notice) (now : ℤ) (q : Bytes) (outs : List Out) : Prop where
  only {o : Out} : o ∈ outs → o.data = NatServer.datagram msgProxyRelayData (forwarded q) ∧
    ∃ t, seat ns (target q) = some ⟨o.dst, t⟩
  reaches {e : UuidEntry} : seat ns (target q) = some e → now - e.lastReg ≤ regTtl → Alone (target q) ns →
    relayFrameSize ≤ q.length → q.length ≤ maxPkt - 8 →
    outs = [⟨e.addr, NatServer.datagram msgProxyRelayData (forwarded q)⟩]

/-- A frame is forwarded as it is to where its target registered last, and nowhere else. It is forwarded if the
registration is at most two minutes old, was not taken back, and no other uuid has come to an address of
the target. While no registration comes between the sections of a timer pass that collected its address, a
frame goes to no address from which another uuid has registered since. -/
theorem frame_routed {maxProxy : UInt16} {s : ℤ × State} (hs : (timed maxProxy).init s) {es : List Event}
    (hr : Run (timed maxProxy) (fun _ _ => True) s es) {p : Packet} {q : Bytes}
    (hp : NatServer.readDatagram p.data = some (msgProxyRelayData, q))
    (hnow : (es.foldl (timed maxProxy).next s).1 ≤ p.now) :
    Routed (notices s.2 es) p.now q (handle p.now p.data p.src (es.foldl (timed maxProxy).next s).2.proxy).2 ∧
      (Run (timed maxProxy) (fun s e => Undisturbed s.2 e) s es →
        ∀ o ∈ (handle p.now p.data p.src (es.foldl (timed maxProxy).next s).2.proxy).2,
          tenant (notices s.2 es) o.dst = some (target q)) := by
  have hkept := (run_kept hs hr).later hnow
  rw [handle_frame hp]
  refine ⟨⟨fun {o} ho => ?_, fun {e} hseat hage halone hlong hfits => ?_⟩, fun hcalm o ho => ?_⟩
  · split at ho
    · obtain ⟨e, he, rfl⟩ := List.mem_map.mp ho
      exact ⟨rfl, e.lastReg, hkept.seated (Option.mem_toList.mp he)⟩
    · cases ho
  · rw [if_pos ⟨hlong, hfits⟩, hkept.found halone hseat hage]
    rfl
  · split at ho
    · obtain ⟨e, he, rfl⟩ := List.mem_map.mp ho
      exact hkept.tenants ((run_owned hs hcalm) _ _ (Option.mem_toList.mp he))
    · cases ho

open Samples (uuidU uuidV addrA addrB addrC)

def start : ℤ × State := (0, { proxy := { maxProxy := 10 } })

/-- The first client registers at a second address, and the timer passes. -/
def moving : List Event := [.packet (regPacket 0 uuidU addrA), .packet (regPacket 1 uuidV addrB),
  .packet (regPacket 2 uuidU addrC), .expire 110, .erase]

def letter : Bytes := uuidField uuidV ++ uuidField uuidU ++ [0x41]

theorem notice_regPacket {uuid : Bytes} (hu : Proper uuid) (now : ℤ) (src : Addr) {s : P2PProxy}
    (hroom : s.full uuid = false) : notice s (regPacket now uuid src) = [.registered uuid src now] := by
  rw [notice, registers_regPacket hu, if_pos hroom]
  rfl

theorem notices_moving : notices start.2 moving =
    [.registered uuidU addrC 2, .registered uuidV addrB 1, .registered uuidU addrA 0] := by
  have hroom1 : start.2.proxy.full uuidU = false := by decide +kernel
  have hone := step_regPacket proper_uuidU 0 addrA hroom1
  have hroom2 : (start.2.proxy.enroll 0 uuidU addrA).full uuidV = false := by decide +kernel
  have htwo := step_regPacket proper_uuidV 1 addrB hroom2
  have hroom3 : ((start.2.proxy.enroll 0 uuidU addrA).enroll 1 uuidV addrB).full uuidU = false := by decide +kernel
  simp only [moving, notices, noticed, P2PProxy.next, notice_regPacket proper_uuidU 0 addrA hroom1, hone,
    notice_regPacket proper_uuidV 1 addrB hroom2, htwo, notice_regPacket proper_uuidU 2 addrC hroom3,
    List.nil_append, List.append_nil, List.cons_append]

def posted : Packet := ⟨115, NatServer.datagram msgProxyRelayData letter, addrB⟩

theorem frame_routed_moving :
    (handle 115 (NatServer.datagram msgProxyRelayData letter) addrB
      (moving.foldl (timed 10).next start).2.proxy).2 =
        [⟨addrC, NatServer.datagram msgProxyRelayData letter⟩] := by
  have hs : (timed 10).init start := rfl
  have hr : Run (timed 10) (fun _ _ => True) start moving :=
    ⟨⟨trivial, le_rfl⟩, trivial, ⟨trivial, (by decide : (0 : ℤ) ≤ 1)⟩, trivial,
      ⟨trivial, (by decide : (1 : ℤ) ≤ 2)⟩, trivial, ⟨rfl, (by decide : (2 : ℤ) ≤ 110)⟩, trivial,
      ⟨rfl, le_rfl⟩, trivial, trivial⟩
  have hlen : letter.length = 67 := by simp [letter]
  have hread : NatServer.readDatagram posted.data = some (msgProxyRelayData, letter) :=
    NatServer.readDatagram_datagram _ (by omega)
  have hframe : forwarded letter = letter := by decide
  have htarget : target letter = uuidU := by decide
  have hlong : relayFrameSize ≤ letter.length := by rw [hlen, relayFrameSize]; omega
  have hfits : letter.length ≤ maxPkt - 8 := by rw [hlen, maxPkt]; omega
  have hage : posted.now - (⟨addrC, 2⟩ : UuidEntry).lastReg ≤ regTtl := by decide
  have hrouted := (frame_routed (p := posted) hs hr hread (by decide : (110 : ℤ) ≤ 115)).1
  rw [notices_moving] at hrouted
  have hout := hrouted.reaches (e := ⟨addrC, 2⟩) (by rw [htarget]; rfl) hage (by rw [htarget]; exact .inl rfl)
    hlong hfits
  rwa [hframe] at hout

end P2PServer.RelayRouting
