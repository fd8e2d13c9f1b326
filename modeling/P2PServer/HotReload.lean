import P2PServer.Gates
import P2PServer.ServerStart

/-! A configuration that the timer reads again takes the place of the one the server was started
with, but the whitelist was copied at the start. -/
namespace P2PServer.HotReload
open ByteStrings ProtoDef Net NatServer PacketCases ServerRun Gates ServerStart

inductive Event
  | packet (env : Env) (data : Bytes) (src : Addr)
  /-- A pass of the timer that finds the configuration file with its modification time. -/
  | timer (env : Env) (proxyDue snapDue saved : Bool) (mtime : ℕ) (file : Option Bytes)

/-- The timer copies the configuration, reads it again if the file has changed, and swaps it. -/
def step (p : Process) : Event → Process × List Out
  | .packet env data src =>
    let r := handlePacket env data src p.server
    ({ p with server := r.1 }, r.2)
  | .timer env proxyDue snapDue saved mtime file =>
    let cur := CfgFile.reloadIfChanged p.cfg p.cfg.cfgPath mtime file p.mtime
    let r := timerPass env proxyDue snapDue saved (if cur.1 then some cur.2.2.toCfgData else none) p.server
    ({ p with cfg := cur.2.2, mtime := cur.2.1, server := r.1 }, r.2)

def run (p : Process) (es : List Event) : Process := es.foldl (fun p e => (step p e).1) p

/-- The gates of two servers let a uuid through in the same way, if their other tables agree. -/
structure SameAccess (s s' : NatServer) (u : Bytes) : Prop where
  required : s.cfg.authEnabled = s'.cfg.authEnabled
  heartbeat : ∀ env peers abuse, (heartbeatGate env u { s with peers := peers, abuse := abuse }).1 =
    (heartbeatGate env u { s' with peers := peers, abuse := abuse }).1
  /-- `MSG_AUTH_CHALLENGE_REQ` and `MSG_AUTH_LOGIN_REQ`. -/
  auth : ∀ env abuse, (authGate env u { s with abuse := abuse }).1 =
    (authGate env u { s' with abuse := abuse }).1
  connect : ∀ env p peers, uuidAt p 0 = u →
    connects env p { s with peers := peers } = connects env p { s' with peers := peers }

/-- The test that all four gates make. -/
def whitelisted (s : NatServer) (u : Bytes) : Bool := !(s.cfg.enableLicense && !s.license.permits u)

theorem sameAccess_iff {s s' : NatServer} {u : Bytes} (hauth : s.cfg.authEnabled = s'.cfg.authEnabled) :
    SameAccess s s' u ↔ whitelisted s u = whitelisted s' u := by
  constructor
  · intro h
    have hgate := h.auth {} {}
    have hfree (s : NatServer) : (authGate {} u { s with abuse := {} }).1 =
        if whitelisted s u then 0 else 2 := by
      have hblack : (({} : AntiAbuse).isUuidBlacklisted u 0).1 = false := by
        by_cases hu : u = [] <;> simp [AntiAbuse.isUuidBlacklisted, hu]
      by_cases hw : whitelisted s u
      · have hw' := hw
        simp only [whitelisted, Bool.not_eq_true'] at hw'
        simp only [authGate, hblack, hw', hw]
        rfl
      · have hw' := hw
        simp only [whitelisted, Bool.not_eq_true', Bool.not_eq_false] at hw'
        simp only [authGate, hblack, hw', hw]
        rfl
    rw [hfree, hfree] at hgate
    cases hs : whitelisted s u <;> cases hs' : whitelisted s' u <;> simp [hs, hs'] at hgate ⊢
  · intro h
    have hw : (s.cfg.enableLicense && !s.license.permits u) = (s'.cfg.enableLicense && !s'.license.permits u) :=
      Bool.not_inj h
    refine ⟨hauth, fun env peers abuse => ?_, fun env abuse => ?_, fun env p peers hp => ?_⟩
    · simp only [heartbeatGate, hauth, hw]
      split
      · rfl
      · split <;> rfl
    · simp only [authGate, hw]
      split
      · rfl
      · split <;> rfl
    · simp only [connects, hp, hauth, hw]

theorem step_license (p : Process) (e : Event) :
    (step p e).1.server.license = match e with
      | .packet _ data _ => licenseAfter data p.server
      | .timer .. => p.server.license := by
  cases e with
  | packet env data src => exact (handlePacket_setup env data src p.server).2
  | timer env proxyDue snapDue saved mtime file =>
    exact congrArg Core.license (timerPass_spec env proxyDue snapDue saved _ p.server).1

def Deletes : Event → Prop
  | .packet _ data _ => ∃ p, readDatagram data = some (msgDeleteUidReq, p)
  | .timer .. => False

/-- Only deletions change the whitelist of a running server. -/
theorem run_license (p : Process) (es : List Event) (h : ∀ e ∈ es, ¬Deletes e) :
    (run p es).server.license = p.server.license := by
  induction es generalizing p with
  | nil => rfl
  | cons e es ih =>
    have hstep : (step p e).1.server.license = p.server.license := by
      rw [step_license]
      cases e with
      | timer => rfl
      | packet env data src =>
        have hkeep := h _ List.mem_cons_self
        simp only [licenseAfter]
        split
        · rfl
        next msgId body hread =>
          rw [if_neg]
          rintro rfl
          exact hkeep ⟨body, hread⟩
    exact (ih _ fun e' he' => h e' (List.mem_cons_of_mem e he')).trans hstep

theorem step_cfgPath {p : Process} {path : Bytes} (h : p.cfg.cfgPath = path) (e : Event) :
    (step p e).1.cfg.cfgPath = path := by
  cases e with
  | packet => exact h
  | timer env proxyDue snapDue saved mtime file =>
    simp only [step, CfgFile.reloadIfChanged]
    split
    · exact h
    · cases file with
      | none => exact h
      | some content =>
        rw [h]
        exact CfgFile.loadServerSet_cfgPath path (some content)

theorem run_cfgPath {p : Process} {path : Bytes} (h : p.cfg.cfgPath = path) (es : List Event) :
    (run p es).cfg.cfgPath = path := by
  induction es generalizing p with
  | nil => exact h
  | cons e es ih => exact ih (step_cfgPath h e)

theorem step_reload {p : Process} (env : Env) (proxyDue snapDue saved : Bool) {mtime : ℕ}
    (content : Bytes) (hm : mtime ≠ 0) (hchanged : mtime ≠ p.mtime) :
    let s := (step p (.timer env proxyDue snapDue saved mtime (some content))).1.server
    s.cfg = (CfgFile.loadServerSet {} p.cfg.cfgPath (some content)).2.toCfgData ∧
      s.license = p.server.license := by
  refine ⟨?_, step_license p (.timer env proxyDue snapDue saved mtime (some content))⟩
  simp only [step, CfgFile.reloadIfChanged, if_neg (not_or.mpr ⟨hm, hchanged⟩)]
  exact congrArg Core.cfg (timerPass_spec env proxyDue snapDue saved _ p.server).1

theorem exists_not_contains (s : Std.ExtTreeSet Bytes) : ∃ u, s.contains u = false := by
  obtain ⟨u, hu⟩ := Infinite.exists_notMem_finset s.toList.toFinset
  refine ⟨u, ?_⟩
  rw [List.mem_toFinset, Std.ExtTreeSet.mem_toList] at hu
  exact Bool.eq_false_of_not_eq_true fun hc => hu (Std.ExtTreeSet.contains_iff_mem.mp hc)

theorem permits_inj {l l' : LicenseMgr} (h : ∀ u, l.permits u = l'.permits u) : l.uuids = l'.uuids := by
  have hempty {l l' : LicenseMgr} (h : ∀ u, l.permits u = l'.permits u) (hl : l.uuids.isEmpty = true) :
      l'.uuids.isEmpty = true := by
    obtain ⟨u, hu⟩ := exists_not_contains l'.uuids
    have hp := h u
    simp only [LicenseMgr.permits, hl, hu, Bool.true_or, Bool.or_false] at hp
    exact hp.symm
  by_cases hl : l.uuids.isEmpty = true
  · rw [Std.ExtTreeSet.isEmpty_iff.mp hl, Std.ExtTreeSet.isEmpty_iff.mp (hempty h hl)]
  · have hl' : ¬l'.uuids.isEmpty = true := fun hc => hl (hempty (fun u => (h u).symm) hc)
    refine Std.ExtTreeSet.ext_contains fun u => ?_
    have hp := h u
    simp only [LicenseMgr.permits, Bool.eq_false_of_not_eq_true hl, Bool.eq_false_of_not_eq_true hl',
      Bool.false_or] at hp
    exact hp

/-- After the timer has read a second configuration, the server treats every uuid like one that was
started with it exactly if the second configuration has no whitelist, or its uuids are those that
the server has had in memory before. -/
theorem reload_restart_iff {cfgPath wanIp content : Bytes} {natPort proxyPort : UInt16} {env₁ env₂ : Env}
    {m₁ m₂ : Machine} {p fresh : Process} {outs₁ outs₂ : List Out}
    (hstart : init env₁ cfgPath natPort proxyPort wanIp m₁ = (some 0, p, outs₁))
    (hfresh : init env₂ cfgPath natPort proxyPort wanIp m₂ = (some 0, fresh, outs₂))
    (hcontent : m₂.cfgFile = some content) (hfile : fresh.cfg.licenseFile = []) (es : List Event) {env : Env}
    {proxyDue snapDue saved : Bool} {mtime : ℕ} (hm : mtime ≠ 0) (hchanged : mtime ≠ (run p es).mtime) :
    (∀ u, SameAccess (step (run p es) (.timer env proxyDue snapDue saved mtime (some content))).1.server
        fresh.server u) ↔
      fresh.cfg.enableLicense = false ∨
        (run p es).server.license.uuids = whitelist fresh.cfg.allowedUuids := by
  obtain ⟨hcfg₁, -, -⟩ := init_spec hstart
  obtain ⟨hcfg₂, hserver₂, hlicense₂⟩ := init_spec hfresh
  have hpath : (run p es).cfg.cfgPath = cfgPath :=
    run_cfgPath (by rw [hcfg₁, CfgFile.loadServerSet_cfgPath]) es
  obtain ⟨hcfg, hlicense⟩ := step_reload (p := run p es) env proxyDue snapDue saved content hm hchanged
  rw [← hlicense]
  generalize (step (run p es) (.timer env proxyDue snapDue saved mtime (some content))).1.server = s
    at hcfg hlicense ⊢
  have hsame : s.cfg = fresh.cfg.toCfgData := by rw [hcfg, hpath, hcfg₂, hcontent]
  have hiff (u : Bytes) : SameAccess s fresh.server u ↔ whitelisted s u = whitelisted fresh.server u :=
    sameAccess_iff (by rw [hsame, hserver₂])
  rw [forall_congr' hiff]
  simp only [whitelisted, hsame, hserver₂]
  cases hon : fresh.cfg.enableLicense with
  | false => simp
  | true =>
    rw [initLicense_inline m₂.licenseFile hon hfile] at hlicense₂
    have huuids : fresh.server.license.uuids = whitelist fresh.cfg.allowedUuids := by
      rw [hlicense₂, inlined]
    simp only [Bool.true_and, Bool.not_not, Bool.true_eq_false, false_or]
    constructor
    · intro h
      exact (permits_inj h).trans huuids
    · intro h u
      rw [LicenseMgr.permits, LicenseMgr.permits, h, huuids]

def launched (cfg : String) : Option ℤ × Process × List Out :=
  init {} (ascii "c") 9000 9001 (ascii "10.0.0.1") { cfgFile := some (ascii cfg), mtime := 1 }

def edited (cfg : String) : Event := .timer {} false false false 2 (some (ascii cfg))

/-- A second configuration without a whitelist. -/
theorem reload_off : SameAccess
    (step (launched "EnableLicense=1\nAllowedUuids=a\n").2.1 (edited "EnableAuth=1\n")).1.server
    (launched "EnableAuth=1\n").2.1.server (ascii "b") :=
  (reload_restart_iff (p := (launched "EnableLicense=1\nAllowedUuids=a\n").2.1)
    (Prod.ext (by decide +kernel) rfl) (Prod.ext (by decide +kernel) rfl) rfl (by decide +kernel) []
    (by decide) (by decide +kernel)).mpr (.inl (by decide +kernel)) (ascii "b")

/-- A uuid that the second configuration admits is still refused. -/
theorem reload_keeps_whitelist : ¬∀ (cfg₁ cfg₂ : String) (u : Bytes), SameAccess
    (step (launched cfg₁).2.1 (edited cfg₂)).1.server (launched cfg₂).2.1.server u := by
  intro h
  have hgate := (h "EnableLicense=1\nAllowedUuids=a\n" "EnableLicense=1\nAllowedUuids=b\n" (ascii "b")).auth {} {}
  revert hgate
  decide +kernel

end P2PServer.HotReload
