import P2PServer.Decimals
import P2PServer.NatServer

/-! The configuration file of the NAT server (`CfgFile.cpp`). -/
namespace P2PServer
open ByteStrings

/-- `CfgData` with the fields that are read at the start only. -/
structure CfgFile extends CfgData where
  allowedUuids : List Bytes := []
  licenseFile : Bytes := []
  licensePass : Bytes := []
  syncEnabled : Bool := false
  syncAddrs : List Bytes := []
  blacklistFile : Bytes := []
  blacklistPass : Bytes := []
  procWorkers : ℤ := 4
  recvThreads : ℤ := 2
  natSock2Port : UInt16 := 0
  cfgPath : Bytes := []
  loaded : Bool := false
  deriving DecidableEq

namespace CfgFile

def newline : UInt8 := 0x0a
def carriageReturn : UInt8 := 0x0d
def comma : UInt8 := 0x2c
def colon : UInt8 := 0x3a
def equals : UInt8 := 0x3d
def hash : UInt8 := 0x23

def isBlank (b : UInt8) : Bool := b == 0x20 || b == 0x09 || b == carriageReturn || b == newline

def trim (s : Bytes) : Bytes := (s.rdropWhile isBlank).dropWhile isBlank

/-- One character of `valid_ip`: the digits of the group, its value and the dots. -/
def validIpStep (st : Option (ℕ × ℕ × ℕ)) (c : UInt8) : Option (ℕ × ℕ × ℕ) :=
  match st with
  | none => none
  | some (seg, num, dots) =>
    if c = Net.dot then some (0, 0, dots + 1)
    else if 0x30 ≤ c ∧ c ≤ 0x39 then
      let num := num * 10 + (c.toNat - 0x30)
      if num > 255 then none else if seg + 1 > 3 then none else some (seg + 1, num, dots)
    else none

def validIp (ip : Bytes) : Bool :=
  if ip.isEmpty ∨ ip.length > 15 then false
  else
    match ip.foldl validIpStep (some (0, 0, 0)) with
    | some (seg, _, dots) => dots == 3 && seg > 0
    | none => false

/-- `ip[:port]`: whether the address is valid, the address and the port. -/
def splitIpPort (input : Bytes) : Bool × Bytes × UInt16 :=
  let ip := trim input
  let host := ip.takeWhile (· != colon)
  if host.length < ip.length then
    let port := UInt16.ofInt (Decimals.atoi (cstr (ip.drop (host.length + 1))))
    let host := trim host
    (validIp host, host, port)
  else (validIp ip, ip, 0)

/-- One character of a list with commas: the finished items and the one being read. -/
def commaStep (st : List Bytes × Bytes) (c : UInt8) : List Bytes × Bytes :=
  if c = comma then (if st.2.isEmpty then st.1 else st.1 ++ [st.2], []) else (st.1, st.2 ++ [c])

def commaList (val : Bytes) : List Bytes :=
  let st := val.foldl commaStep ([], [])
  if st.2.isEmpty then st.1 else st.1 ++ [st.2]

def isOn (val : Bytes) : Bool := val == ascii "1" || val == ascii "true" || val == ascii "yes"

def parseValue (out : CfgFile) (key val : Bytes) : CfgFile :=
  let n := Decimals.atoi (cstr val)
  if (ascii "NatServer").isPrefixOf key then
    let r := splitIpPort val
    if r.1 then { out with natIps := out.natIps ++ [r.2.1] } else out
  else if (ascii "Proxy").isPrefixOf key then
    let r := splitIpPort val
    if r.1 then { out with proxyIps := out.proxyIps ++ [r.2.1] } else out
  else if key = ascii "AuthSecret" then { out with authSecret := val }
  else if key = ascii "EnableAuth" then { out with enableAuth := isOn val }
  else if key = ascii "EnableLicense" then { out with enableLicense := isOn val }
  else if key = ascii "LicenseFile" then { out with licenseFile := val }
  else if key = ascii "LicensePass" then { out with licensePass := val }
  else if key = ascii "AllowedUuids" ∨ key = ascii "WhitelistUuids" then
    { out with
      allowedUuids := commaList val
      -- the alias also enables the whitelist
      enableLicense := if key = ascii "WhitelistUuids" then true else out.enableLicense }
  else if key = ascii "ProcWorkers" then
    if n ≥ 1 ∧ n ≤ 64 then { out with procWorkers := n } else out
  else if key = ascii "RecvThreads" then
    if n ≥ 1 ∧ n ≤ 16 then { out with recvThreads := n } else out
  else if key = ascii "FloodPktThreshold" then
    if UInt32.ofInt n ≥ 1 then { out with floodPktThreshold := UInt32.ofInt n } else out
  else if key = ascii "BlacklistSeconds" then
    if UInt32.ofInt n ≥ 1 then { out with blacklistSeconds := UInt32.ofInt n } else out
  else if key = ascii "NatSock2Port" then
    if UInt16.ofInt n > 0 then { out with natSock2Port := UInt16.ofInt n } else out
  else if key = ascii "SyncPeers" then { out with syncEnabled := isOn val }
  else if key = ascii "SyncAddrs" then { out with syncAddrs := commaList val }
  else if key = ascii "SyncAuthSecret" then { out with syncAuthSecret := val }
  else if key = ascii "AdminSecret" then { out with adminSecret := val }
  else if key = ascii "BlacklistFile" then { out with blacklistFile := val }
  else if key = ascii "BlacklistPass" then { out with blacklistPass := val }
  else out

/-- What `fgets` puts into a buffer of 512 bytes: a line with its newline, or 511 bytes of it. -/
def fgets (content : Bytes) : Bytes :=
  content.take (min 511 ((content.takeWhile (· != newline)).length + 1))

/-- One pass of the loop in `parse_file`; the line ends at its first NUL. -/
def parseLine (out : CfgFile) (line : Bytes) : CfgFile :=
  let s := trim (cstr line)
  if s.isEmpty ∨ s.head? = some hash then out
  else
    let key := s.takeWhile (· != equals)
    if key.length < s.length then
      let val := trim (s.drop (key.length + 1))
      let key := trim key
      if key.isEmpty then out else parseValue out key val
    else out

/-- `while (fgets(line, sizeof(line), fp))`. -/
def parseLoop : ℕ → Bytes → CfgFile → CfgFile
  | 0, _, out => out
  | fuel + 1, content, out =>
    if content.isEmpty then out
    else parseLoop fuel (content.drop (fgets content).length) (parseLine out (fgets content))

def localhost : Bytes := ascii "127.0.0.1"

/-- `file` is the content of the file at `path`, `none` if it cannot be opened. -/
def parseFile (path : Bytes) (file : Option Bytes) : Option CfgFile :=
  match file with
  | none => none
  | some content =>
    let fresh := parseLoop content.length content { cfgPath := path }
    some { fresh with
      natIps := if fresh.natIps.isEmpty then [localhost] else fresh.natIps
      proxyIps := if fresh.proxyIps.isEmpty then [localhost] else fresh.proxyIps
      loaded := true }

def loadServerSet (out : CfgFile) (path : Bytes) (file : Option Bytes) : Bool × CfgFile :=
  match parseFile path file with
  | some fresh => (true, fresh)
  | none => (false, { out with natIps := [localhost], proxyIps := [localhost], cfgPath := path })

/-- Whether the file was read again, the last modification time and the configuration. A missing
file has the time 0. -/
def reloadIfChanged (out : CfgFile) (path : Bytes) (mtime : ℕ) (file : Option Bytes) (lastMtime : ℕ) :
    Bool × ℕ × CfgFile :=
  if mtime = 0 ∨ mtime = lastMtime then (false, lastMtime, out)
  else
    match parseFile path file with
    | some fresh => (true, mtime, fresh)
    | none => (false, mtime, out)

theorem commaList_ne_nil {val item : Bytes} (h : item ∈ commaList val) : item ≠ [] := by
  have hfold (st : List Bytes × Bytes) (hst : ∀ i ∈ st.1, i ≠ []) :
      ∀ i ∈ (val.foldl commaStep st).1, i ≠ [] := by
    clear h
    induction val generalizing st with
    | nil => exact hst
    | cons c val ih =>
      refine ih _ ?_
      unfold commaStep
      split
      · dsimp only
        split
        · exact hst
        next hne =>
          intro i hi
          rcases List.mem_append.mp hi with hi | hi
          · exact hst i hi
          · rw [List.mem_singleton.mp hi]
            simpa using hne
      · exact hst
  have hitems := hfold ([], []) (by simp)
  unfold commaList at h
  dsimp only at h
  split at h
  · exact hitems item h
  next hne =>
    rcases List.mem_append.mp h with h | h
    · exact hitems item h
    · rw [List.mem_singleton.mp h]
      simpa using hne

theorem parseValue_allowedUuids (out : CfgFile) (key val : Bytes) :
    (parseValue out key val).allowedUuids ∈ [out.allowedUuids, commaList val] := by
  simp only [parseValue, apply_ite CfgFile.allowedUuids, ite_self]
  split_ifs <;> simp

theorem parseLine_cases (out : CfgFile) (line : Bytes) :
    parseLine out line = out ∨ ∃ key val, parseLine out line = parseValue out key val := by
  unfold parseLine
  dsimp only
  split_ifs
  · exact .inl rfl
  · exact .inl rfl
  · exact .inr ⟨_, _, rfl⟩
  · exact .inl rfl

theorem parseLoop_invariant {P : CfgFile → Prop} (h : ∀ out key val, P out → P (parseValue out key val))
    (fuel : ℕ) (content : Bytes) {out : CfgFile} (hout : P out) : P (parseLoop fuel content out) := by
  induction fuel generalizing content out with
  | zero => exact hout
  | succ fuel ih =>
    unfold parseLoop
    split
    · exact hout
    · apply ih
      rcases parseLine_cases out (fgets content) with hl | ⟨key, val, hl⟩ <;> rw [hl]
      · exact hout
      · exact h out key val hout

/-- A whitelist in the configuration has no empty uuid. -/
theorem loadServerSet_allowedUuids {path : Bytes} {file : Option Bytes} {u : Bytes}
    (h : u ∈ (loadServerSet {} path file).2.allowedUuids) : u ≠ [] := by
  unfold loadServerSet parseFile at h
  cases file with
  | none => simp at h
  | some content =>
    refine parseLoop_invariant (P := fun out => ∀ u ∈ out.allowedUuids, u ≠ []) ?_ content.length content
      (show ∀ u ∈ ({ cfgPath := path } : CfgFile).allowedUuids, u ≠ [] by simp) u h
    intro out key val hout u hu
    rcases List.mem_pair.mp (parseValue_allowedUuids out key val) with hv | hv <;> rw [hv] at hu
    · exact hout u hu
    · exact commaList_ne_nil hu

theorem loadServerSet_cfgPath (path : Bytes) (file : Option Bytes) :
    (loadServerSet {} path file).2.cfgPath = path := by
  unfold loadServerSet parseFile
  cases file with
  | none => rfl
  | some content =>
    refine parseLoop_invariant (P := fun out => out.cfgPath = path) ?_ content.length content rfl
    intro out key val hout
    simp only [parseValue, apply_ite CfgFile.cfgPath, ite_self]
    exact hout

/-- There is always an address of a server and one of a proxy. -/
theorem loadServerSet_addresses (path : Bytes) (file : Option Bytes) :
    (loadServerSet {} path file).2.natIps ≠ [] ∧ (loadServerSet {} path file).2.proxyIps ≠ [] := by
  unfold loadServerSet parseFile
  cases file with
  | none => exact ⟨List.cons_ne_nil _ _, List.cons_ne_nil _ _⟩
  | some content =>
    constructor <;> dsimp only <;> split
    · exact List.cons_ne_nil _ _
    next h => simpa using h
    · exact List.cons_ne_nil _ _
    next h => simpa using h

example : (parseLine {} (ascii " EnableLicense = yes ")).enableLicense = true := by decide

end CfgFile

end P2PServer
