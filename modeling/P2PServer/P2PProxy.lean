import P2PServer.RecvProcess

/-! The relay (`P2PProxy.cpp`): registrations in two tables, the paths between addresses, the
packet handler and the two sections of a timer pass. Each section under the lock is one step, and
packets sent are outputs. -/
namespace P2PServer
open ByteStrings ProtoDef Net Codec Crypto Effects

namespace P2PProxy

structure PathInfo where
  dst : Addr
  count : UInt32
  uuid : Bytes
  lastActive : ℤ
  deriving DecidableEq, Repr

structure UuidEntry where
  addr : Addr
  lastReg : ℤ
  deriving DecidableEq, Repr

/-- The paths that start at one address, by the key of their target. -/
abbrev Paths := Std.ExtTreeMap UInt64 PathInfo

end P2PProxy

open P2PProxy in
structure P2PProxy where
  maxProxy : UInt16
  uuid2addr : Std.ExtTreeMap Bytes UuidEntry := ∅
  addr2uuid : Std.ExtTreeMap UInt64 Bytes := ∅
  srcpaths : Std.ExtTreeMap UInt64 Paths := ∅
  relayPkts : UInt64 := 0
  relayBytes : UInt64 := 0

namespace P2PProxy

structure Out where
  dst : Addr
  data : Bytes
  deriving DecidableEq, Repr

abbrev Action := Eff P2PProxy Out

def regTtl : ℤ := 120

/-- The key `p2p-proxy-auth-2024`. -/
def proxyAuthKey : Bytes :=
  [0x70, 0x32, 0x70, 0x2d, 0x70, 0x72, 0x6f, 0x78, 0x79, 0x2d, 0x61, 0x75, 0x74, 0x68, 0x2d,
    0x32, 0x30, 0x32, 0x34]

def send (dst : Addr) (msgId : UInt8) (payload : Bytes) : Action :=
  if payload.length > maxPkt - 8 then skip else emit ⟨dst, NatServer.datagram msgId payload⟩

/-- A `ProxyRegRsp`, with the address if there is one to report. -/
def regRsp (result : UInt8) (pub : Option Addr) : Bytes :=
  match pub with
  | none => [result] ++ List.replicate 18 0
  | some a => [result] ++ ipField a.ip ++ be16 a.port

/-- An accepted registration. The uuid that was known at this address is dropped first. -/
def enroll (now : ℤ) (uuid : Bytes) (src : Addr) (s : P2PProxy) : P2PProxy :=
  let key := addrToU64 src
  let cleared := match s.addr2uuid[key]? with
    | some old => if old ≠ uuid then s.uuid2addr.erase old else s.uuid2addr
    | none => s.uuid2addr
  { s with
    uuid2addr := cleared.insert uuid ⟨src, now⟩
    addr2uuid := s.addr2uuid.insert key uuid }

def full (s : P2PProxy) (uuid : Bytes) : Bool :=
  s.uuid2addr.size ≥ s.maxProxy.toNat && !s.uuid2addr.contains uuid

def doRegister (now : ℤ) (uuid : Bytes) (src : Addr) (withRsp : Bool) (hmac : Option Bytes) :
    Action := fun s =>
  let reply (result : UInt8) (pub : Option Addr) : Action :=
    if withRsp then send src msgProxyRegisterRsp (regRsp result pub) else skip
  if uuid.isEmpty then reply 2 none s
  else
    match hmac with
    | none => reply 3 none s
    | some hmac =>
      if hmacSha256 proxyAuthKey uuid ≠ hmac then reply 3 none s
      else if s.full uuid then reply 1 none s
      else reply 0 (some src) (s.enroll now uuid src)

/-- Only the address that registered may take the uuid back. -/
def unregister (uuid : Bytes) (src : Addr) (s : P2PProxy) : P2PProxy :=
  match s.uuid2addr[uuid]? with
  | none => s
  | some e =>
    if e.addr ≠ src then s
    else
      let ua := addrToU64 e.addr
      { s with
        addr2uuid := s.addr2uuid.erase ua
        srcpaths := (s.srcpaths.erase ua).map fun _ m => m.erase ua
        uuid2addr := s.uuid2addr.erase uuid }

/-- The path to an address is created or renewed. -/
def touchPath (now : ℤ) (dst : Addr) (uuid : Bytes) (m : Paths) : Paths :=
  match m[addrToU64 dst]? with
  | none => m.insert (addrToU64 dst) ⟨dst, 3, uuid, now⟩
  | some p => m.insert (addrToU64 dst) { p with count := 3, lastActive := now }

def relayPath (now : ℤ) (src dst : Addr) (uuid : Bytes) (paths : Std.ExtTreeMap UInt64 Paths) :
    Std.ExtTreeMap UInt64 Paths :=
  paths.insert (addrToU64 src) (touchPath now dst uuid ((paths[addrToU64 src]?).getD ∅))

def proxyRegReqSize : ℕ := 65
def relayFrameSize : ℕ := 66

def onRegister (now : ℤ) (p : Bytes) (src : Addr) : Action := fun s =>
  if p.length < proxyRegReqSize then (s, [])
  else doRegister now (uuidAt p 0) src true (some (window p 33 32)) s

def onUnregister (p : Bytes) (src : Addr) : Action :=
  modify (unregister (if p.length ≥ proxyRegReqSize then uuidAt p 0 else []) src)

/-- Both uuid fields are terminated inside the packet before it is forwarded. -/
def onRelayData (now : ℤ) (p : Bytes) (src : Addr) : Action := fun s =>
  if p.length < relayFrameSize then (s, [])
  else
    let q := (p.set maxUuidLen 0).set (33 + maxUuidLen) 0
    match s.uuid2addr[uuidAt q 33]? with
    | none => (s, [])
    | some e =>
      let there := relayPath now src e.addr (uuidAt q 33) s.srcpaths
      let back := relayPath now e.addr src (uuidAt q 0) there
      andThen (send e.addr msgProxyRelayData q) (modify fun s => { s with
        relayPkts := s.relayPkts + 1
        relayBytes := s.relayBytes + UInt64.ofNat q.length }) { s with srcpaths := back }

def onPunchHelper (p : Bytes) (src : Addr) : Action := fun s =>
  if p.length < relayFrameSize then (s, [])
  else
    match s.uuid2addr[uuidAt p 33]? with
    | none => send src msgProxyRegisterRsp (regRsp 1 none) s
    | some e => send src msgProxyRegisterRsp (regRsp 0 (some e.addr)) s

def availRsp (s : P2PProxy) : Bytes :=
  [if s.uuid2addr.size < s.maxProxy.toNat then 1 else 0] ++ be16 (UInt16.ofNat s.uuid2addr.size) ++
    be16 s.maxProxy

def onSpAskExtinfo (src : Addr) : Action := fun s => send src msgSpAskExtinfoRsp (availRsp s) s

/-- The dispatch on `msg_id`. -/
def dispatch (now : ℤ) (msgId : UInt8) (p : Bytes) (src : Addr) : Action :=
  if msgId = msgProxyRegisterReq then onRegister now p src
  else if msgId = msgProxyUnregisterReq then onUnregister p src
  else if msgId = msgProxyRelayData then onRelayData now p src
  else if msgId = msgProxyPunchHelper then onPunchHelper p src
  else if msgId = msgSpAskExtinfoReq then onSpAskExtinfo src
  else skip

def handle (now : ℤ) (data : Bytes) (src : Addr) : Action := fun s =>
  match NatServer.readDatagram data with
  | none => (s, [])
  | some (msgId, p) => dispatch now msgId p src s

/-- A path loses one count, and is dropped when none is left or it was idle for too long. -/
def decay (now : ℤ) (p : PathInfo) : Option PathInfo :=
  let p := if p.count > 0 then { p with count := p.count - 1 } else p
  if p.count = 0 ∨ now - p.lastActive > regTtl then none else some p

def decayPaths (now : ℤ) (m : Paths) : Option Paths :=
  let m := m.filterMap fun _ p => decay now p
  if m.isEmpty then none else some m

def expired (now : ℤ) (e : UuidEntry) : Bool := now - e.lastReg > regTtl

/-- The address keys of the registrations that are too old. -/
def collected (now : ℤ) (s : P2PProxy) : List UInt64 :=
  (s.uuid2addr.toList.filter fun kv => expired now kv.2).map fun kv => addrToU64 kv.2.addr

/-- The first section of a timer pass. -/
def expire (now : ℤ) (s : P2PProxy) : P2PProxy :=
  { s with
    srcpaths := s.srcpaths.filterMap fun _ m => decayPaths now m
    uuid2addr := s.uuid2addr.filter fun _ e => !expired now e }

/-- The second section of a timer pass. -/
def eraseKeys (dead : List UInt64) (s : P2PProxy) : P2PProxy :=
  { s with addr2uuid := dead.foldl (fun m k => m.erase k) s.addr2uuid }

/-- A timer pass with nothing between its sections. -/
def timerPass (now : ℤ) (s : P2PProxy) : P2PProxy := eraseKeys (collected now s) (expire now s)

theorem sAddr_eq (a : Addr) : a.sAddr = rd32 a.ip.toUInt8 (UInt8.ofNat (a.ip.toNat / 256))
    (UInt8.ofNat (a.ip.toNat / 65536)) (UInt8.ofNat (a.ip.toNat / 16777216)) := rfl

theorem sAddr_inj {a b : Addr} (h : a.sAddr = b.sAddr) : a.ip = b.ip := by
  have hbytes := congrArg be32 h
  rw [sAddr_eq, sAddr_eq, be32_rd32, be32_rd32] at hbytes
  simp only [List.cons.injEq, and_true] at hbytes
  rw [← rd32_be32 a.ip, ← rd32_be32 b.ip, hbytes.2.2.2, hbytes.2.2.1, hbytes.2.1, hbytes.1]

theorem addrToU64_toNat (a : Addr) :
    (addrToU64 a).toNat = a.sAddr.toNat * 4294967296 + a.port.toNat := by
  have hs := a.sAddr.toNat_lt
  have hp := a.port.toNat_lt
  have h32 : (32 : UInt64).toNat % 64 = 32 := rfl
  have hsmall : a.sAddr.toNat * 2 ^ 32 < 2 ^ 64 := by omega
  have hshift : (a.sAddr.toUInt64 <<< 32).toNat = a.sAddr.toNat <<< 32 := by
    rw [UInt64.toNat_shiftLeft, UInt32.toNat_toUInt64, h32, Nat.shiftLeft_eq, Nat.mod_eq_of_lt hsmall]
  rw [addrToU64, UInt64.toNat_or, hshift, UInt16.toNat_toUInt64,
    ← Nat.shiftLeft_add_eq_or_of_lt (by omega), Nat.shiftLeft_eq]

theorem addrToU64_inj {a b : Addr} (h : addrToU64 a = addrToU64 b) : a = b := by
  have hn := congrArg UInt64.toNat h
  rw [addrToU64_toNat, addrToU64_toNat] at hn
  have ha := a.port.toNat_lt
  have hb := b.port.toNat_lt
  have hip : a.ip = b.ip := sAddr_inj (UInt32.toNat_inj.mp (by omega))
  have hport : a.port = b.port := UInt16.toNat_inj.mp (by omega)
  obtain ⟨i, p⟩ := a
  obtain ⟨j, q⟩ := b
  exact congrArg₂ Addr.mk hip hport

end P2PProxy

end P2PServer
