import P2PServer.Net

/-! The registry of online peers (`PeerManage.cpp`). Every operation takes the clock
reading it makes as an argument. -/
namespace P2PServer
open ByteStrings ProtoDef Net

structure Peer where
  uuid : Bytes
  pubAddr : Addr
  lanAddr : Addr
  devType : UInt8
  nattype : UInt8
  lastHeartbeat : ℤ
  registerTime : ℤ
  authExpire : ℤ
  extlen : UInt16
  extinfo : Bytes
  deriving DecidableEq, Repr

structure PeerManager where
  peers : Std.ExtTreeMap Bytes Peer := ∅
  authSessions : Std.ExtTreeMap Bytes ℤ := ∅
  deriving DecidableEq

namespace PeerManager

/-- Extension text longer than `MAX_EXTINFO` leaves the old text in place. -/
def keepExtinfo (old new : Bytes) : Bytes := if new.length ≤ maxExtinfo then new else old

/-- The check at the head of `upsert` and `upsert_synced`. -/
def validUuid (uuid : Bytes) : Bool := !(uuid.isEmpty || uuid.length > maxUuidLen)

def upsert (m : PeerManager) (uuid : Bytes) (pub lan : Addr) (devType nattype : UInt8)
    (extinfo : Bytes) (now : ℤ) : Bool × PeerManager :=
  if !validUuid uuid then (false, m)
  else
    let p : Peer := match m.peers[uuid]? with
      | none =>
        let ext := keepExtinfo [] extinfo
        ⟨uuid, pub, lan, devType, nattype, now, now, 0, UInt16.ofNat ext.length, ext⟩
      | some old =>
        let ext := keepExtinfo old.extinfo extinfo
        { old with
          pubAddr := pub, lanAddr := lan, devType := devType, nattype := nattype
          lastHeartbeat := now, extinfo := ext, extlen := UInt16.ofNat ext.length }
    (true, { m with peers := m.peers.insert uuid p })

def upsertSynced (m : PeerManager) (uuid : Bytes) (pub lan : Addr) (devType nattype : UInt8)
    (extinfo : Bytes) (hbTime : ℤ) : Bool × PeerManager :=
  if !validUuid uuid then (false, m)
  else
    let p : Peer := match m.peers[uuid]? with
      | none =>
        let ext := keepExtinfo [] extinfo
        ⟨uuid, pub, lan, devType, nattype, hbTime, hbTime, hbTime + 3600,
          UInt16.ofNat ext.length, ext⟩
      | some old =>
        let ext := keepExtinfo old.extinfo extinfo
        { old with
          pubAddr := pub, lanAddr := lan, devType := devType, nattype := nattype
          lastHeartbeat := hbTime, extinfo := ext, extlen := UInt16.ofNat ext.length
          authExpire := hbTime + 3600 }
    (true, { m with peers := m.peers.insert uuid p })

def remove (m : PeerManager) (uuid : Bytes) : Bool × PeerManager :=
  (m.peers.contains uuid, { m with peers := m.peers.erase uuid })

def existsPeer (m : PeerManager) (uuid : Bytes) : Bool := m.peers.contains uuid

def get (m : PeerManager) (uuid : Bytes) : Option Peer := m.peers[uuid]?

def setAuthExpire (m : PeerManager) (uuid : Bytes) (expire : ℤ) : PeerManager :=
  { m with
    authSessions := m.authSessions.insert uuid expire
    peers := match m.peers[uuid]? with
      | some p => m.peers.insert uuid { p with authExpire := expire }
      | none => m.peers }

def authed (m : PeerManager) (uuid : Bytes) (now : ℤ) : Bool :=
  match m.authSessions[uuid]? with
  | some t => if t > now then true else authedPeer
  | none => authedPeer
where
  authedPeer : Bool :=
    match m.peers[uuid]? with
    | some p => p.authExpire > now
    | none => false

def cleanupAuthSessions (m : PeerManager) (now : ℤ) : PeerManager :=
  { m with authSessions := m.authSessions.filter fun _ t => !(t ≤ now) }

def size (m : PeerManager) : ℕ := m.peers.size

def countWhere (m : PeerManager) (f : Peer → Bool) : ℕ := (m.peers.filter fun _ p => f p).size

def deviceCount (m : PeerManager) : ℕ := m.countWhere fun p => p.devType = 1

def clientCount (m : PeerManager) : ℕ := m.countWhere fun p => p.devType = 2

def authedCount (m : PeerManager) (now : ℤ) : ℕ := m.countWhere fun p => p.authExpire > now

/-- `now - last_heartbeat > timeout_sec`. -/
def timedOut (timeoutSec now : ℤ) (p : Peer) : Bool := now - p.lastHeartbeat > timeoutSec

def cleanupTimeoutAndCollect (m : PeerManager) (timeoutSec now : ℤ) : List Bytes × PeerManager :=
  ((m.peers.filter fun _ p => timedOut timeoutSec now p).keys,
    { m with peers := m.peers.filter fun _ p => !timedOut timeoutSec now p })

def snapshot (m : PeerManager) : List Peer := m.peers.values

end PeerManager

end P2PServer
