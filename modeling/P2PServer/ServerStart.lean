import P2PServer.BlacklistFile
import P2PServer.CfgFile

/-! `NatServer::init`: the configuration, the blacklists, the license and the sockets. -/
namespace P2PServer
open ByteStrings Net NatServer

namespace LicenseMgr

/-- A call followed by another one, which is not reached if the first does not return. -/
def Op.bind {α β : Type} (x : Op α) (f : α → Op β) : Op β := fun m =>
  match x m with
  | (some a, m') => f a m'
  | (none, m') => (none, m')

def Op.pure {α : Type} (a : α) : Op α := fun m => (some a, m)

def addAll : List Bytes → Op Unit
  | [] => .pure ()
  | u :: us => (add u).bind fun _ => addAll us

end LicenseMgr

namespace ServerStart
open LicenseMgr

/-- What `init` finds: the files (`none` if they cannot be opened), the modification time of the
configuration, the port of the second socket and whether the other sockets could be bound. -/
structure Machine where
  cfgFile : Option Bytes := none
  mtime : ℕ := 0
  blacklistFile : Option Bytes := none
  licenseFile : Option Bytes := none
  natcheck : Option UInt16 := some 0
  recvSockets : Bool := true

/-- The server with what it needs to read its configuration again. -/
structure Process where
  cfg : CfgFile := {}
  mtime : ℕ := 0
  blacklistPath : Bytes := []
  blacklistPass : Bytes := []
  server : NatServer := {}

def defaultLicense : Bytes := ascii "/tmp/licensep2p_clean.dat"

/-- The license part of `init`. The result is the new content of the license file, `none` where it
is not touched. -/
def initLicense (env : Env) (cfg : CfgFile) (file : Option Bytes) : Op (Option Bytes) :=
  (setPath (if cfg.licenseFile.isEmpty then defaultLicense else cfg.licenseFile)).bind fun _ =>
  (setPassword cfg.licensePass).bind fun _ =>
  if !cfg.enableLicense then .pure none
  else
    (if cfg.licenseFile.isEmpty then .pure false else load cfg.licenseFile file).bind fun loaded =>
    -- a whitelist that was loaded is only counted for the log
    (if loaded then count.bind fun _ => .pure () else addAll cfg.allowedUuids).bind fun _ =>
    if cfg.licenseFile.isEmpty then .pure none
    else count.bind fun n =>
      if n > 0 then (save env.canOpen env.salt env.iv).bind fun r => .pure r.2 else .pure none

/-- A peer of the list, unless it is this server. -/
def syncPeer (selfIp : Bytes) (selfPort : UInt16) (s : Bytes) : Option Addr :=
  let host := s.takeWhile (· != CfgFile.colon)
  let ip := if host.length < s.length then host else s
  let port := if host.length < s.length then
      UInt16.ofInt (Decimals.atoi (cstr (s.drop (host.length + 1)))) else selfPort
  if ip = selfIp ∧ port = selfPort then none else sockaddrFrom ip port

def setupSyncPeers (cfg : CfgFile) (s : NatServer) : NatServer :=
  if !cfg.syncEnabled then { s with syncAddrs := [], syncOn := false }
  else
    let list := if cfg.syncAddrs.isEmpty then cfg.natIps else cfg.syncAddrs
    let selfIp := if s.wanIp = ascii "0.0.0.0" then CfgFile.localhost else s.wanIp
    { s with syncAddrs := list.filterMap (syncPeer selfIp s.natPort), syncOn := true }

/-- The blacklists as `init` leaves them. -/
def initBlacklist (cfg : CfgFile) (file : Option Bytes) : BlacklistStore :=
  let abuse := ({} : AntiAbuse).configure cfg.floodPktThreshold cfg.blacklistSeconds
  if cfg.blacklistFile.isEmpty then { abuse := abuse }
  else (BlacklistStore.load file
    { abuse := abuse, path := cfg.blacklistFile, pass := cfg.blacklistPass }).2

/-- The result code, the server and the files it has written. The code is `none` if the call waits
for a mutex of its own thread. -/
def init (env : Env) (cfgPath : Bytes) (natPort proxyPort : UInt16) (wanIp : Bytes) (m : Machine) :
    Option ℤ × Process × List Out :=
  let cfg := (CfgFile.loadServerSet {} cfgPath m.cfgFile).2
  let s : NatServer := { cfg := cfg.toCfgData, natPort := natPort, proxyPort := proxyPort, wanIp := wanIp }
  if cfg.natIps.isEmpty ∨ cfg.proxyIps.isEmpty then (some (-1), { cfg := cfg, server := s }, [])
  else
    let black := initBlacklist cfg m.blacklistFile
    let license := initLicense env cfg m.licenseFile {}
    let p : Process := {
      cfg := cfg
      mtime := m.mtime
      blacklistPath := black.path
      blacklistPass := black.pass
      server := { s with abuse := black.abuse, license := license.2 } }
    match license.1 with
    | none => (none, p, [])
    | some written =>
      let outs := written.toList.map fun content => .writeFile license.2.path content
      match m.natcheck with
      | none => (some (-1), p, outs)
      | some altPort =>
        let p := { p with server := setupSyncPeers cfg { p.server with altPort := altPort } }
        if m.recvSockets then (some 0, p, outs) else (some (-1), p, outs)

theorem bind_some {α β : Type} {x : Op α} {f : α → Op β} {m m' : LicenseMgr} {a : α}
    (h : x m = (some a, m')) : x.bind f m = f a m' := by
  simp [Op.bind, h]

section
variable {m : LicenseMgr} (hm : m.held = false)
include hm

theorem setPath_free (path : Bytes) : setPath path m = (some true, { m with path := path }) := by
  obtain ⟨_, _, _, held⟩ := m
  subst hm
  rfl

theorem setPassword_free (pass : Bytes) : setPassword pass m = (some (), { m with pass := pass }) := by
  obtain ⟨_, _, _, held⟩ := m
  subst hm
  rfl

theorem count_free : count m = (some m.uuids.size, m) := by
  obtain ⟨_, _, _, held⟩ := m
  subst hm
  rfl

def enter (uuids : Std.ExtTreeSet Bytes) (u : Bytes) : Std.ExtTreeSet Bytes :=
  if u.isEmpty then uuids else uuids.insert u

theorem add_free (u : Bytes) : ∃ fresh, add u m = (some fresh, { m with uuids := enter m.uuids u }) := by
  obtain ⟨_, _, uuids, held⟩ := m
  subst hm
  unfold add enter
  split
  · exact ⟨false, rfl⟩
  · exact ⟨!uuids.contains u, rfl⟩

theorem addAll_free (us : List Bytes) : addAll us m = (some (), { m with uuids := us.foldl enter m.uuids }) := by
  induction us generalizing m with
  | nil => rfl
  | cons u us ih =>
    obtain ⟨fresh, hadd⟩ := add_free hm u
    exact (bind_some hadd).trans (ih hm)

theorem save_const (canOpen : Bool) (salt iv : Bytes) : (save canOpen salt iv m).2 = m := by
  obtain ⟨path, pass, uuids, held⟩ := m
  subst hm
  by_cases hp : path = []
  · simp [save, locked, hp]
  · cases canOpen with
    | false => simp [save, locked, hp]
    | true =>
      rcases save_spec (m := ⟨path, pass, uuids, false⟩) rfl hp salt iv with ⟨hpass, -⟩ | ⟨hpass, c, hc, -⟩
      · obtain rfl : pass = [] := hpass
        simp [save, locked, hp]
      · simp [save, locked, hp, hpass, hc]

theorem save_closed (salt iv : Bytes) : (save false salt iv m).1 = some (false, none) := by
  simp [save, locked, hm]

theorem save_written (hpath : m.path ≠ []) (salt iv : Bytes) :
    ∃ raw, (save true salt iv m).1 = some (true, some raw) := by
  rcases save_spec hm hpath salt iv with ⟨-, h⟩ | ⟨-, cipher, -, h⟩
  · exact ⟨_, h⟩
  · exact ⟨_, h⟩

theorem load_refused {path raw : Bytes} (h : (load path (some raw) m).1 = some false) :
    load path (some raw) m = (some false, { m with path := path }) := by
  by_cases hmagic : raw.take 4 = encMagic
  · cases hdec : decodeEncrypted m.pass raw with
    | some content =>
      rw [load_encrypted hm path hmagic hdec] at h
      cases h
    | none =>
      have hlen : raw.length ≥ 4 := by
        have hl := congrArg List.length hmagic
        rw [List.length_take] at hl
        change min 4 raw.length = 4 at hl
        omega
      obtain ⟨_, _, _, held⟩ := m
      subst hm
      simp [load, locked, hmagic, hlen, hdec]
  · rw [load_plain hm path hmagic] at h
    cases h

end

def whitelist (us : List Bytes) : Std.ExtTreeSet Bytes := us.foldl enter ∅

theorem mem_whitelist {us : List Bytes} {u : Bytes} : u ∈ whitelist us ↔ u ∈ us ∧ u ≠ [] := by
  have hfold (uuids : Std.ExtTreeSet Bytes) : u ∈ us.foldl enter uuids ↔ (u ∈ us ∧ u ≠ []) ∨ u ∈ uuids := by
    induction us generalizing uuids with
    | nil => simp
    | cons v us ih =>
      rw [List.foldl_cons, ih, enter]
      split
      next hv =>
        rw [List.isEmpty_iff] at hv
        subst hv
        rw [List.mem_cons]
        tauto
      next hv =>
        rw [List.isEmpty_iff] at hv
        rw [Std.ExtTreeSet.mem_insert, Std.LawfulEqOrd.compare_eq_iff_eq, List.mem_cons]
        constructor
        · rintro (h | rfl | h)
          · exact .inl ⟨.inr h.1, h.2⟩
          · exact .inl ⟨.inl rfl, hv⟩
          · exact .inr h
        · rintro (⟨rfl | h, hne⟩ | h)
          · exact .inr (.inl rfl)
          · exact .inl ⟨h, hne⟩
          · exact .inr (.inr h)
  rw [whitelist, hfold]
  simp

/-- A server that has started runs with the configuration and the whitelist of the start. -/
theorem init_spec {env : Env} {cfgPath : Bytes} {natPort proxyPort : UInt16} {wanIp : Bytes} {m : Machine}
    {p : Process} {outs : List Out} (h : init env cfgPath natPort proxyPort wanIp m = (some 0, p, outs)) :
    p.cfg = (CfgFile.loadServerSet {} cfgPath m.cfgFile).2 ∧ p.server.cfg = p.cfg.toCfgData ∧
      p.server.license = (initLicense env p.cfg m.licenseFile {}).2 := by
  have hsync (cfg : CfgFile) (s : NatServer) :
      (setupSyncPeers cfg s).cfg = s.cfg ∧ (setupSyncPeers cfg s).license = s.license := by
    unfold setupSyncPeers
    split <;> exact ⟨rfl, rfl⟩
  unfold init at h
  dsimp only at h
  split at h
  · simp at h
  · split at h
    · simp at h
    · split at h
      · simp at h
      · split at h
        · obtain ⟨-, rfl, -⟩ := h
          exact ⟨rfl, (hsync _ _).1, (hsync _ _).2⟩
        · simp at h

/-- No file that `save` writes is refused by `load`. -/
theorem save_not_refused {m m' : LicenseMgr} (hm : m.held = false) (hm' : m'.held = false)
    (hpass : m'.pass = m.pass) {salt iv raw : Bytes} (hsalt : salt.length = 16) (hiv : iv.length = 16)
    (path : Bytes) (hsave : (save true salt iv m).1 = some (true, some raw)) :
    (load path (some raw) m').1 ≠ some false := by
  have hpath : m.path ≠ [] := by
    intro hp
    simp [save, locked, hm, hp] at hsave
  rcases save_spec hm hpath salt iv with ⟨-, hs⟩ | ⟨hp, cipher, hc, hs⟩
  · obtain rfl : plainText m.uuids = raw := by simpa using hs.symm.trans hsave
    rw [load_plain hm' path]
    · simp
    · change [0x23, 0x50, 0x32, 0x50] ≠ encMagic
      decide
  · obtain rfl : encryptedFile salt iv cipher = raw := by simpa using hs.symm.trans hsave
    have hdec := decodeEncrypted_saved m.pass salt iv m.uuids hp hsalt hiv hc
    rw [load_encrypted hm' path rfl (hpass ▸ hdec)]
    simp

def initial (cfg : CfgFile) : LicenseMgr :=
  { path := if cfg.licenseFile.isEmpty then defaultLicense else cfg.licenseFile, pass := cfg.licensePass }

theorem initLicense_off {env : Env} {cfg : CfgFile} (file : Option Bytes) (h : cfg.enableLicense = false) :
    initLicense env cfg file {} = (some none, initial cfg) := by
  simp only [initLicense]
  rw [bind_some (setPath_free rfl _), bind_some (setPassword_free rfl _), if_pos (by simp [h])]
  rfl

def inlined (cfg : CfgFile) : LicenseMgr := { initial cfg with uuids := whitelist cfg.allowedUuids }

theorem initLicense_inlined {env : Env} {cfg : CfgFile} {file : Option Bytes} (h : cfg.enableLicense = true)
    (hload : (if cfg.licenseFile.isEmpty then Op.pure false else load cfg.licenseFile file) (initial cfg) =
      (some false, initial cfg)) :
    initLicense env cfg file {} =
      (if cfg.licenseFile.isEmpty then Op.pure none
      else count.bind fun n =>
        if n > 0 then (save env.canOpen env.salt env.iv).bind fun r => .pure r.2 else .pure none)
      (inlined cfg) := by
  simp only [initLicense]
  rw [bind_some (setPath_free rfl _), bind_some (setPassword_free rfl _), if_neg (by simp [h])]
  refine (bind_some hload).trans ?_
  simp only [Bool.false_eq_true, if_false]
  exact bind_some (addAll_free rfl _)

theorem initLicense_inline {env : Env} {cfg : CfgFile} (file : Option Bytes) (h : cfg.enableLicense = true)
    (hfile : cfg.licenseFile = []) : initLicense env cfg file {} = (some none, inlined cfg) := by
  rw [initLicense_inlined h (by simp [hfile, Op.pure]), if_pos (by simp [hfile])]
  rfl

theorem initLicense_refused (env : Env) {cfg : CfgFile} {raw : Bytes} (h : cfg.enableLicense = true)
    (hfile : cfg.licenseFile ≠ []) (hload : (load cfg.licenseFile (some raw) (initial cfg)).1 = some false) :
    initLicense env cfg (some raw) {} =
      if (whitelist cfg.allowedUuids).size > 0 then
        ((save env.canOpen env.salt env.iv).bind fun r => .pure r.2) (inlined cfg)
      else (some none, inlined cfg) := by
  have hne : cfg.licenseFile.isEmpty = false := by simpa using hfile
  have hrefused := load_refused (m := initial cfg) rfl hload
  have hpath : ({ initial cfg with path := cfg.licenseFile } : LicenseMgr) = initial cfg := by
    simp [initial, hne]
  rw [hpath] at hrefused
  rw [initLicense_inlined h (by simpa [hne] using hrefused), if_neg (by simp [hne]),
    bind_some (count_free rfl)]
  by_cases hn : (whitelist cfg.allowedUuids).size > 0
  · exact (congrFun (if_pos hn) _).trans (if_pos hn).symm
  · exact (congrFun (if_neg hn) _).trans (if_neg hn).symm

/-- A file after the writes of a call. -/
def contentAfter (path raw : Bytes) (outs : List Out) : Bytes :=
  outs.foldl (fun content o =>
    match o with
    | .writeFile p written => if p = path then written else content
    | .send _ _ => content) raw

theorem init_outs (env : Env) (cfgPath : Bytes) (natPort proxyPort : UInt16) (wanIp : Bytes) (m : Machine)
    {written : Option Bytes} {license : LicenseMgr}
    (h : initLicense env (CfgFile.loadServerSet {} cfgPath m.cfgFile).2 m.licenseFile {} =
      (some written, license)) :
    (init env cfgPath natPort proxyPort wanIp m).2.2 =
      written.toList.map fun content => .writeFile license.path content := by
  obtain ⟨hnat, hproxy⟩ := CfgFile.loadServerSet_addresses cfgPath m.cfgFile
  unfold init
  dsimp only
  rw [if_neg (by simp [hnat, hproxy]), h]
  dsimp only
  split
  · rfl
  · split <;> rfl

theorem whitelist_size (us : List Bytes) (h : ∀ u ∈ us, u ≠ []) : (whitelist us).size > 0 ↔ us ≠ [] := by
  constructor
  · rintro hsize rfl
    exact absurd hsize (by decide)
  · intro hne
    obtain ⟨u, hu⟩ := List.exists_mem_of_ne_nil us hne
    by_contra hsize
    have hempty : whitelist us = ∅ := Std.ExtTreeSet.eq_empty_iff_size_eq_zero.mpr (by omega)
    exact Std.ExtTreeSet.not_mem_empty (hempty ▸ mem_whitelist.mpr ⟨hu, h u hu⟩)

/-- A license file that `load` refuses is left alone by `init` exactly if the whitelist is not
enabled, the configuration has no uuids for it, or the file cannot be opened for writing. -/
theorem init_keeps_iff (env : Env) (hsalt : env.salt.length = 16) (hiv : env.iv.length = 16) (cfgPath : Bytes)
    (natPort proxyPort : UInt16) (wanIp : Bytes) (m : Machine) {raw : Bytes} {cfg : CfgFile}
    (hcfg : (CfgFile.loadServerSet {} cfgPath m.cfgFile).2 = cfg) (hraw : m.licenseFile = some raw)
    (hfile : cfg.licenseFile ≠ []) (hload : (load cfg.licenseFile (some raw) (initial cfg)).1 = some false) :
    contentAfter cfg.licenseFile raw (init env cfgPath natPort proxyPort wanIp m).2.2 = raw ↔
      cfg.enableLicense = false ∨ cfg.allowedUuids = [] ∨ env.canOpen = false := by
  have hpath : (initial cfg).path = cfg.licenseFile := by simp [initial, hfile]
  have hus : ∀ u ∈ cfg.allowedUuids, u ≠ [] :=
    fun u hu => CfgFile.loadServerSet_allowedUuids (hcfg ▸ hu)
  have houts {written : Option Bytes} {license : LicenseMgr}
      (h : initLicense env cfg (some raw) {} = (some written, license)) :=
    init_outs env cfgPath natPort proxyPort wanIp m (hcfg.symm ▸ hraw.symm ▸ h)
  cases hon : cfg.enableLicense with
  | false =>
    rw [houts (initLicense_off _ hon)]
    simp [contentAfter]
  | true =>
    have hrefused := initLicense_refused env hon hfile hload
    by_cases hne : cfg.allowedUuids = []
    · rw [if_neg (mt (whitelist_size _ hus).mp (not_not.mpr hne))] at hrefused
      rw [houts hrefused]
      simp [contentAfter, hne]
    · rw [if_pos ((whitelist_size _ hus).mpr hne)] at hrefused
      have hsave {r : Bool × Option Bytes} (h : (save env.canOpen env.salt env.iv (inlined cfg)).1 = some r) :
          initLicense env cfg (some raw) {} = (some r.2, inlined cfg) :=
        hrefused.trans (bind_some (Prod.ext h (save_const rfl _ _ _)))
      cases hopen : env.canOpen with
      | false =>
        rw [houts (hsave (hopen ▸ save_closed rfl _ _))]
        simp [contentAfter]
      | true =>
        have hplace : (inlined cfg).path ≠ [] := by
          rw [inlined, hpath]
          exact hfile
        obtain ⟨written, hw⟩ := save_written (m := inlined cfg) rfl hplace env.salt env.iv
        have hchanged : written ≠ raw := by
          rintro rfl
          refine save_not_refused (m := inlined cfg) ?_ ?_ ?_ hsalt hiv cfg.licenseFile hw hload <;> rfl
        rw [houts (hsave (hopen ▸ hw))]
        have hafter : (inlined cfg).path = cfg.licenseFile := hpath
        simp [contentAfter, hafter, hchanged, hne]

/-- A truncated license file, which has the magic only. -/
def truncated (cfg : String) : Machine := { cfgFile := some (ascii cfg), licenseFile := some encMagic }

/-- A whitelist that is not enabled leaves the file alone. -/
theorem init_keeps_off : contentAfter (ascii "l") encMagic
    (init {} (ascii "c") 9000 9001 (ascii "10.0.0.1") (truncated "LicenseFile=l\nAllowedUuids=a\n")).2.2 =
      encMagic :=
  (init_keeps_iff {} (by decide) (by decide) (ascii "c") 9000 9001 (ascii "10.0.0.1")
    (truncated "LicenseFile=l\nAllowedUuids=a\n") rfl rfl (by decide +kernel) (by decide +kernel)).mpr
    (.inl (by decide +kernel))

/-- An enabled whitelist is written over the file. -/
theorem init_overwrites : ¬∀ (env : Env) (cfgPath : Bytes) (natPort proxyPort : UInt16) (wanIp : Bytes)
    (m : Machine) (raw : Bytes), env.salt.length = 16 → env.iv.length = 16 → m.licenseFile = some raw →
    (CfgFile.loadServerSet {} cfgPath m.cfgFile).2.licenseFile ≠ [] →
    (load (CfgFile.loadServerSet {} cfgPath m.cfgFile).2.licenseFile (some raw)
      (initial (CfgFile.loadServerSet {} cfgPath m.cfgFile).2)).1 = some false →
    contentAfter (CfgFile.loadServerSet {} cfgPath m.cfgFile).2.licenseFile raw
      (init env cfgPath natPort proxyPort wanIp m).2.2 = raw := by
  intro h
  have hkept := h {} (ascii "c") 9000 9001 (ascii "10.0.0.1")
    (truncated "EnableLicense=1\nLicenseFile=l\nAllowedUuids=a\n") encMagic (by decide) (by decide) rfl
    (by decide +kernel) (by decide +kernel)
  revert hkept
  decide +kernel

end ServerStart

end P2PServer
