import P2PServer.Net

/-! Flood detection and the blacklists (`AntiAbuse.cpp`). -/
namespace P2PServer
open ByteStrings ProtoDef Net

structure AntiAbuse where
  floodThreshold : UInt32 := 200
  blacklistSec : UInt32 := 60
  flood : Std.ExtTreeMap UInt32 (List ℤ) := ∅
  ipBlack : Std.ExtTreeMap UInt32 ℤ := ∅
  uuidBlack : Std.ExtTreeMap Bytes ℤ := ∅
  dirty : Bool := false
  droppedFlood : UInt64 := 0
  deriving DecidableEq

namespace AntiAbuse

def configure (a : AntiAbuse) (floodThreshold blacklistSec : UInt32) : AntiAbuse :=
  { a with floodThreshold := floodThreshold, blacklistSec := blacklistSec }

def banUntil (a : AntiAbuse) (now : ℤ) : ℤ := now + a.blacklistSec.toNat

def checkFlood (a : AntiAbuse) (ip : UInt32) (now : ℤ) : Bool × AntiAbuse :=
  if a.ipBlack.contains ip then (true, a)
  else
    let dq := (((a.flood[ip]?).getD []).dropWhile fun t => now - t ≥ 1) ++ [now]
    if dq.length > a.floodThreshold.toNat then
      (true, { a with
        ipBlack := a.ipBlack.insert ip (a.banUntil now)
        flood := a.flood.insert ip []
        dirty := true
        droppedFlood := a.droppedFlood + a.floodThreshold.toUInt64 })
    else (false, { a with flood := a.flood.insert ip dq })

/-- A hit after the end of the ban removes the entry. -/
def isIpBlacklistedIp (a : AntiAbuse) (ip : UInt32) (now : ℤ) : Bool × AntiAbuse :=
  match a.ipBlack[ip]? with
  | none => (false, a)
  | some t =>
    if now > t then (false, { a with ipBlack := a.ipBlack.erase ip, dirty := true }) else (true, a)

def isUuidBlacklisted (a : AntiAbuse) (uuid : Bytes) (now : ℤ) : Bool × AntiAbuse :=
  if uuid.isEmpty then (false, a)
  else
    match a.uuidBlack[uuid]? with
    | none => (false, a)
    | some t =>
      if now > t then (false, { a with uuidBlack := a.uuidBlack.erase uuid, dirty := true })
      else (true, a)

def blacklistIp (a : AntiAbuse) (ip : UInt32) (now : ℤ) : AntiAbuse :=
  { a with ipBlack := a.ipBlack.insert ip (a.banUntil now), dirty := true }

def blacklistUuid (a : AntiAbuse) (uuid : Bytes) (now : ℤ) : AntiAbuse :=
  { a with uuidBlack := a.uuidBlack.insert uuid (a.banUntil now), dirty := true }

def unblacklistIp (a : AntiAbuse) (ip : UInt32) : AntiAbuse :=
  if a.ipBlack.contains ip then { a with ipBlack := a.ipBlack.erase ip, dirty := true } else a

def unblacklistUuid (a : AntiAbuse) (uuid : Bytes) : AntiAbuse :=
  if a.uuidBlack.contains uuid then { a with uuidBlack := a.uuidBlack.erase uuid, dirty := true }
  else a

/-- The addresses as text with the ends of their bans, in the order of the text. -/
def ipBlacklistSnapshot (a : AntiAbuse) : List (Bytes × ℤ) :=
  (a.ipBlack.toList.foldl (fun (out : Std.ExtTreeMap Bytes ℤ) kv =>
    out.insert (inetNtop kv.1) kv.2) ∅).toList

def uuidBlacklistSnapshot (a : AntiAbuse) : List (Bytes × ℤ) := a.uuidBlack.toList

def sweep (a : AntiAbuse) (now : ℤ) : AntiAbuse :=
  let ips := a.ipBlack.filter fun _ t => !(now > t)
  let uuids := a.uuidBlack.filter fun _ t => !(now > t)
  { a with
    ipBlack := ips
    uuidBlack := uuids
    dirty := a.dirty || ips.size < a.ipBlack.size || uuids.size < a.uuidBlack.size }

/-- Unless the mark is set, the lists and the mark are as before. -/
def Marks (a a' : AntiAbuse) : Prop :=
  a'.dirty = true ∨ a'.dirty = a.dirty ∧ a'.ipBlack = a.ipBlack ∧ a'.uuidBlack = a.uuidBlack

theorem Marks.refl (a : AntiAbuse) : Marks a a := .inr ⟨rfl, rfl, rfl⟩

theorem Marks.trans {a a' a'' : AntiAbuse} (h : Marks a a') (h' : Marks a' a'') : Marks a a'' := by
  rcases h' with hd | ⟨hd, hi, hu⟩
  · exact .inl hd
  · rcases h with hd' | ⟨hd', hi', hu'⟩
    · exact .inl (hd.trans hd')
    · exact .inr ⟨hd.trans hd', hi.trans hi', hu.trans hu'⟩

theorem checkFlood_marks (a : AntiAbuse) (ip : UInt32) (now : ℤ) : Marks a (a.checkFlood ip now).2 := by
  simp only [checkFlood]
  split
  · exact .refl a
  · split
    · exact .inl rfl
    · exact .inr ⟨rfl, rfl, rfl⟩

theorem isIpBlacklistedIp_marks (a : AntiAbuse) (ip : UInt32) (now : ℤ) :
    Marks a (a.isIpBlacklistedIp ip now).2 := by
  unfold isIpBlacklistedIp
  split
  · exact .refl a
  · split
    · exact .inl rfl
    · exact .refl a

theorem isUuidBlacklisted_marks (a : AntiAbuse) (uuid : Bytes) (now : ℤ) :
    Marks a (a.isUuidBlacklisted uuid now).2 := by
  unfold isUuidBlacklisted
  split
  · exact .refl a
  · split
    · exact .refl a
    · split
      · exact .inl rfl
      · exact .refl a

theorem unblacklistIp_marks (a : AntiAbuse) (ip : UInt32) : Marks a (a.unblacklistIp ip) := by
  unfold unblacklistIp
  split
  · exact .inl rfl
  · exact .refl a

theorem unblacklistUuid_marks (a : AntiAbuse) (uuid : Bytes) : Marks a (a.unblacklistUuid uuid) := by
  unfold unblacklistUuid
  split
  · exact .inl rfl
  · exact .refl a

theorem filter_eq_of_size {κ : Type} [Ord κ] [Std.TransOrd κ] {m : Std.ExtTreeMap κ ℤ} {f : ℤ → Bool}
    (h : ¬(m.filter fun _ t => f t).size < m.size) : (m.filter fun _ t => f t) = m :=
  Std.ExtTreeMap.filter_eq_self_iff.mpr (Std.ExtTreeMap.size_filter_eq_size_iff.mp
    (le_antisymm Std.ExtTreeMap.size_filter_le_size (not_lt.mp h)))

theorem sweep_marks (a : AntiAbuse) (now : ℤ) : Marks a (a.sweep now) := by
  by_cases hips : (a.ipBlack.filter fun _ t => !(now > t)).size < a.ipBlack.size
  · exact .inl (by simp [sweep, hips])
  · by_cases huuids : (a.uuidBlack.filter fun _ t => !(now > t)).size < a.uuidBlack.size
    · exact .inl (by simp [sweep, huuids])
    · refine .inr ⟨by simp [sweep, hips, huuids], ?_, ?_⟩
      · exact filter_eq_of_size hips
      · exact filter_eq_of_size huuids

end AntiAbuse

end P2PServer
