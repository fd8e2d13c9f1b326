import P2PServer.Fields
import P2PServer.ProxyTables

/-! The capacity of the relay. Admission and the availability that it reports look at the same
table, which never outgrows its limit. -/
namespace P2PServer.P2PProxy
open ByteStrings ProtoDef Net Samples Crypto Effects Transitions

theorem enroll_size {s : P2PProxy} {uuid : Bytes} (hroom : s.full uuid = false)
    (hle : s.uuid2addr.size ≤ s.maxProxy.toNat) (now : ℤ) (src : Addr) :
    (s.enroll now uuid src).uuid2addr.size ≤ s.maxProxy.toNat := by
  have hcleared (m : Std.ExtTreeMap Bytes UuidEntry) (hm : m.size ≤ s.uuid2addr.size)
      (hkept : uuid ∈ s.uuid2addr → uuid ∈ m) (e : UuidEntry) :
      (m.insert uuid e).size ≤ s.maxProxy.toNat := by
    rw [Std.ExtTreeMap.size_insert]
    split
    · omega
    · rename_i hnew
      have hnot : s.uuid2addr.contains uuid = false := by
        rw [← Bool.not_eq_true, ← Std.ExtTreeMap.mem_iff_contains]
        exact fun hc => hnew (hkept hc)
      rw [full, hnot, Bool.not_false, Bool.and_true, decide_eq_false_iff_not] at hroom
      omega
  unfold enroll
  dsimp only
  split
  · rename_i old _
    split
    · rename_i hne
      refine hcleared _ Std.ExtTreeMap.size_erase_le (fun hm => ?_) _
      rw [Std.ExtTreeMap.mem_erase]
      exact ⟨fun hc => hne (Std.LawfulEqOrd.compare_eq_iff_eq.mp hc), hm⟩
    · exact hcleared _ le_rfl id _
  · exact hcleared _ le_rfl id _

structure Fits (maxProxy : UInt16) (s : P2PProxy) : Prop where
  limit : s.maxProxy = maxProxy
  size : s.uuid2addr.size ≤ maxProxy.toNat

theorem Fits.step {maxProxy : UInt16} {s : P2PProxy} (h : Fits maxProxy s) (p : Packet) :
    Fits maxProxy (step p s) := by
  obtain ⟨rfl, hsize⟩ := h
  cases step_cases p s with
  | enrolled uuid hreg e =>
    have hroom : s.full uuid = false := by
      unfold registers at hreg
      split at hreg
      · cases hreg
      · dsimp only at hreg
        split at hreg
        · rename_i hok
          rw [Option.some.injEq] at hreg
          exact hreg ▸ hok.2.2.2.2
        · cases hreg
    rw [e]
    exact ⟨rfl, enroll_size hroom hsize _ _⟩
  | unregistered uuid _ e =>
    rw [e]
    rcases unregister_cases uuid p.src s with hs | ⟨_, _, _, hmax, hu, _⟩
    · exact ⟨hs.maxProxy, hs.uuid2addr ▸ hsize⟩
    · exact ⟨hmax, hu ▸ Std.ExtTreeMap.size_erase_le.trans hsize⟩
  | other _ hs => exact ⟨hs.maxProxy, hs.uuid2addr ▸ hsize⟩

theorem fits_next {maxProxy : UInt16} {s : State} (h : Fits maxProxy s.proxy) (e : Event) :
    Fits maxProxy (next s e).proxy := by
  cases e with
  | packet p => exact h.step p
  | expire now => exact ⟨h.limit, Std.ExtTreeMap.size_filter_le_size.trans h.size⟩
  | erase => exact ⟨h.limit, h.size⟩

/-- A registration request for `uuid` with the right MAC. -/
structure Requests (p : Packet) (uuid : Bytes) : Prop where
  nonempty : uuid ≠ []
  read : ∃ q, NatServer.readDatagram p.data = some (msgProxyRegisterReq, q) ∧
    proxyRegReqSize ≤ q.length ∧ uuidAt q 0 = uuid ∧ window q 33 32 = hmacSha256 proxyAuthKey uuid

def answer (dst : Addr) (msgId : UInt8) (payload : Bytes) : Out := ⟨dst, NatServer.datagram msgId payload⟩

theorem send_small {payload : Bytes} (h : payload.length ≤ 2040) (dst : Addr) (msgId : UInt8)
    (s : P2PProxy) : send dst msgId payload s = (s, [answer dst msgId payload]) := by
  unfold send
  rw [if_neg (by rw [maxPkt]; omega)]
  rfl

theorem regRsp_length (result : UInt8) (pub : Option Addr) : (regRsp result pub).length = 19 := by
  cases pub with
  | none => rfl
  | some a => simp [regRsp, ipField_length]

theorem send_regRsp (result : UInt8) (pub : Option Addr) (dst : Addr) (s : P2PProxy) :
    send dst msgProxyRegisterRsp (regRsp result pub) s =
      (s, [answer dst msgProxyRegisterRsp (regRsp result pub)]) :=
  send_small (by rw [regRsp_length]; decide) _ _ _

theorem handle_request {p : Packet} {uuid : Bytes} (h : Requests p uuid) (s : P2PProxy) :
    handle p.now p.data p.src s =
      if s.full uuid then (s, [answer p.src msgProxyRegisterRsp (regRsp 1 none)])
      else (s.enroll p.now uuid p.src, [answer p.src msgProxyRegisterRsp (regRsp 0 (some p.src))]) := by
  obtain ⟨hne, q, hread, hlen, hu, hmac⟩ := h
  rw [handle, hread]
  dsimp only
  rw [dispatch, if_pos rfl, onRegister, if_neg (not_lt.mpr hlen), hu, hmac, doRegister]
  dsimp only
  rw [if_neg (by simpa using hne), if_neg (not_not.mpr rfl)]
  cases s.full uuid with
  | true => exact send_regRsp 1 none p.src s
  | false => exact send_regRsp 0 (some p.src) p.src (s.enroll p.now uuid p.src)

/-- The request is granted: the answer says so and the table leads to the sender. -/
structure Accepts (s : P2PProxy) (p : Packet) (uuid : Bytes) : Prop where
  reply : (handle p.now p.data p.src s).2 = [answer p.src msgProxyRegisterRsp (regRsp 0 (some p.src))]
  entry : (step p s).uuid2addr[uuid]? = some ⟨p.src, p.now⟩

theorem accepts_iff {p : Packet} {uuid : Bytes} (h : Requests p uuid) (s : P2PProxy) :
    Accepts s p uuid ↔ s.full uuid = false := by
  have hh := handle_request h s
  constructor
  · intro ha
    by_contra hf
    rw [Bool.not_eq_false] at hf
    rw [if_pos hf] at hh
    have hr := ha.reply
    rw [hh, List.cons.injEq, answer, answer, Out.mk.injEq, NatServer.datagram, NatServer.datagram] at hr
    have hbytes := (List.append_inj hr.1.2 rfl).2
    cases hbytes
  · intro hf
    rw [hf] at hh
    refine ⟨by rw [hh]; rfl, ?_⟩
    rw [step, hh]
    change (s.enroll p.now uuid p.src).uuid2addr[uuid]? = _
    rw [enroll_uuid2addr, if_pos rfl]

theorem handle_askExtinfo {now : ℤ} {data q : Bytes} {src : Addr}
    (h : NatServer.readDatagram data = some (msgSpAskExtinfoReq, q)) (s : P2PProxy) :
    handle now data src s = (s, [answer src msgSpAskExtinfoRsp (availRsp s)]) := by
  rw [handle, h]
  have hsmall : (availRsp s).length ≤ 2040 := by simp [availRsp]
  exact send_small hsmall _ _ _

/-- In every reachable state: the table fits the limit, so that the reported number is exact; the
proxy reports itself available exactly when it would accept a new uuid; and it accepts every uuid
that it already has. -/
theorem availability {maxProxy : UInt16} {s : State} (h : Reachable (system maxProxy) s) :
    s.proxy.uuid2addr.size ≤ maxProxy.toNat ∧
      (∀ now data q src, NatServer.readDatagram data = some (msgSpAskExtinfoReq, q) →
        ∃ rsp, (handle now data src s.proxy).2 = [answer src msgSpAskExtinfoRsp rsp] ∧
          (u16At rsp 1).toNat = s.proxy.uuid2addr.size ∧
          ∀ p uuid, Requests p uuid → uuid ∉ s.proxy.uuid2addr →
            (byteAt rsp 0 = 1 ↔ Accepts s.proxy p uuid)) ∧
      ∀ p uuid, Requests p uuid → uuid ∈ s.proxy.uuid2addr → Accepts s.proxy p uuid := by
  have hfits : Fits maxProxy s.proxy :=
    Reach.invariant (S := system maxProxy) (I := fun s => Fits maxProxy s.proxy)
      (fun s h0 => by
        subst h0
        exact ⟨rfl, Nat.zero_le _⟩)
      (fun _ e hi _ _ => fits_next hi e) h
  obtain ⟨hmax, hsize⟩ := hfits
  refine ⟨hsize, fun now data q src hd => ⟨availRsp s.proxy, ?_, ?_, ?_⟩, ?_⟩
  · rw [handle_askExtinfo hd]
  · have hlt := maxProxy.toNat_lt
    have hused : u16At (availRsp s.proxy) 1 = UInt16.ofNat s.proxy.uuid2addr.size := rd16_be16 _
    rw [hused, UInt16.toNat_ofNat']
    omega
  · intro p uuid hp hnew
    have hnot : s.proxy.uuid2addr.contains uuid = false := by
      rwa [← Bool.not_eq_true, ← Std.ExtTreeMap.mem_iff_contains]
    have havail : byteAt (availRsp s.proxy) 0 =
        if s.proxy.uuid2addr.size < s.proxy.maxProxy.toNat then 1 else 0 := rfl
    rw [accepts_iff hp, full, hnot, Bool.not_false, Bool.and_true, decide_eq_false_iff_not, havail]
    constructor
    · intro hc
      by_contra hge
      rw [if_neg (by omega)] at hc
      exact absurd hc (by decide)
    · intro hc
      rw [if_pos (by omega)]
  · intro p uuid hp hold
    have hhas : s.proxy.uuid2addr.contains uuid = true := hold
    rw [accepts_iff hp, full, hhas, Bool.not_true, Bool.and_false]

theorem availability_refresh :
    one.proxy.uuid2addr.size ≤ 10 ∧ Accepts one.proxy (regPacket 1 uuidU addrA) uuidU := by
  have hreach : Reachable (system 10) one := one_reach.mono fun _ _ _ => trivial
  obtain ⟨hsize, -, hrefresh⟩ := availability hreach
  have hold : uuidU ∈ one.proxy.uuid2addr := by decide +kernel
  exact ⟨hsize, hrefresh _ uuidU ⟨proper_uuidU.nonempty, regPacket_read proper_uuidU 1 addrA⟩ hold⟩

end P2PServer.P2PProxy
