import P2PServer.ProxySchedule

/-! The probing of the proxies in time. A pass of the timer that is due asks every proxy and then, by a second
reading of the clock, marks the ones whose last answer is ten seconds old or more; what it has just asked for
cannot count. -/
namespace P2PServer.ProxyProbing
open ByteStrings ProtoDef Net NatServer Effects ServerRun ProxySchedule Transitions

/-- One entry for each proxy, under the port of the proxies. -/
structure Table (s : NatServer) : Prop where
  ports : ∀ h ∈ s.proxyHealth, h.port = s.proxyPort
  distinct : (s.proxyHealth.map (·.ip)).Nodup

def entryOf (env : Env) (src : Addr) (rsp : ProxyAvailRsp) (s : NatServer) : ProxyHealth :=
  ⟨inetNtop src.ip, s.proxyPort, rsp.available, rsp.used, rsp.maxProxy, env.now, 0⟩

section
variable {env : Env} {src : Addr} {rsp : ProxyAvailRsp} {s : NatServer}

theorem collect_cases (env : Env) (src : Addr) (rsp : ProxyAvailRsp) (hs : Table s) :
    (∃ i, ∃ hi : i < s.proxyHealth.length, s.proxyHealth[i].ip = inetNtop src.ip ∧
        (collectProxyAvail env src rsp s).proxyHealth = s.proxyHealth.set i (entryOf env src rsp s)) ∨
      (∀ h ∈ s.proxyHealth, h.ip ≠ inetNtop src.ip) ∧
        (collectProxyAvail env src rsp s).proxyHealth = s.proxyHealth ++ [entryOf env src rsp s] := by
  unfold collectProxyAvail
  dsimp only
  split
  next i hfind =>
    obtain ⟨hi, hp, -⟩ := List.findIdx?_eq_some_iff_getElem.mp hfind
    simp only [Bool.and_eq_true, decide_eq_true_eq] at hp
    exact .inl ⟨i, hi, hp.1, rfl⟩
  next hfind =>
    refine .inr ⟨fun h hh hip => ?_, rfl⟩
    have hp := List.findIdx?_eq_none_iff.mp hfind h hh
    simp [hip, hs.ports h hh] at hp

theorem mem_collect (hs : Table s) {h : ProxyHealth} :
    h ∈ (collectProxyAvail env src rsp s).proxyHealth ↔
      h = entryOf env src rsp s ∨ (h ∈ s.proxyHealth ∧ h.ip ≠ inetNtop src.ip) := by
  rcases collect_cases env src rsp hs with ⟨i, hi, hip, hset⟩ | ⟨hnew, happend⟩
  · rw [hset]
    constructor
    · intro hmem
      obtain ⟨j, hj, rfl⟩ := List.mem_iff_getElem.mp hmem
      rw [List.length_set] at hj
      rw [List.getElem_set]
      by_cases hij : i = j
      · exact .inl (if_pos hij)
      · rw [if_neg hij]
        refine .inr ⟨List.getElem_mem hj, fun hsame => hij ?_⟩
        have hi' : i < (s.proxyHealth.map (·.ip)).length := by simpa using hi
        have hj' : j < (s.proxyHealth.map (·.ip)).length := by simpa using hj
        have hkeys : (s.proxyHealth.map (·.ip))[i] = (s.proxyHealth.map (·.ip))[j] := by
          rw [List.getElem_map, List.getElem_map, hip, hsame]
        exact (List.Nodup.getElem_inj_iff hs.distinct).mp hkeys
    · rintro (rfl | ⟨hmem, hne⟩)
      · exact List.mem_set hi _
      · obtain ⟨j, hj, rfl⟩ := List.mem_iff_getElem.mp hmem
        have hij : i ≠ j := fun hij => hne (by subst hij; exact hip)
        exact List.mem_iff_getElem.mpr ⟨j, by simpa using hj, List.getElem_set_ne hij _⟩
  · rw [happend, List.mem_append, List.mem_singleton, or_comm]
    exact or_congr_right (iff_self_and.mpr (hnew h))

theorem Table.collect (hs : Table s) : Table (collectProxyAvail env src rsp s) := by
  have hport : (collectProxyAvail env src rsp s).proxyPort = s.proxyPort := by
    rw [collectProxyAvail_eq]
  refine ⟨fun h hh => ?_, ?_⟩
  · rw [hport]
    rcases (mem_collect hs).mp hh with rfl | ⟨hh, -⟩
    · rfl
    · exact hs.ports h hh
  · rcases collect_cases env src rsp hs with ⟨i, hi, hip, hset⟩ | ⟨hnew, happend⟩
    · have hsame : (s.proxyHealth.map (·.ip)).set i (inetNtop src.ip) = s.proxyHealth.map (·.ip) := by
        rw [← hip, ← List.map_set, List.set_getElem_self]
      rw [hset, List.map_set]
      change ((s.proxyHealth.map (·.ip)).set i (inetNtop src.ip)).Nodup
      rw [hsame]
      exact hs.distinct
    · rw [happend, List.map_append]
      refine List.nodup_append.mpr ⟨hs.distinct, List.nodup_singleton _, fun a ha b hb => ?_⟩
      obtain ⟨h, hh, rfl⟩ := List.mem_map.mp ha
      rw [List.mem_singleton.mp hb]
      exact hnew h hh

/-- What `mark_proxy_stale` makes of an entry. -/
def marked (now : ℤ) (h : ProxyHealth) : ProxyHealth :=
  if now - h.lastSeen ≥ 10 then { h with down := if h.down < 255 then h.down + 1 else h.down, available := 0 }
  else h

theorem markProxyStale_health : (markProxyStale env s).proxyHealth = s.proxyHealth.map (marked env.now) := rfl

theorem marked_ip (now : ℤ) (h : ProxyHealth) : (marked now h).ip = h.ip := by
  unfold marked
  split <;> rfl

theorem marked_port (now : ℤ) (h : ProxyHealth) : (marked now h).port = h.port := by
  unfold marked
  split <;> rfl

theorem Table.mark (hs : Table s) : Table (markProxyStale env s) := by
  refine ⟨fun k hk => ?_, ?_⟩
  · obtain ⟨h, hh, rfl⟩ := List.mem_map.mp hk
    exact (marked_port env.now h).trans (hs.ports h hh)
  · have hkeys : (markProxyStale env s).proxyHealth.map (·.ip) = s.proxyHealth.map (·.ip) := by
      rw [markProxyStale_health, List.map_map]
      exact List.map_congr_left fun h _ => marked_ip env.now h
    exact hkeys ▸ hs.distinct

theorem Table.congr {t : NatServer} (hs : Table s) (hport : t.proxyPort = s.proxyPort)
    (hhealth : t.proxyHealth = s.proxyHealth) : Table t :=
  ⟨by rw [hport, hhealth]; exact hs.ports, by rw [hhealth]; exact hs.distinct⟩

end

/-- A pass as far as its questions. -/
def passStart (env : Env) (proxyDue saved : Bool) (reloaded : Option CfgData) : Action :=
  andThen (timerPass env false false saved reloaded)
    (if proxyDue then fun s => forEach sendProxyAvailQuery s.cfg.proxyIps s else skip)

def passEnd (env : Env) (proxyDue snapDue : Bool) : Action :=
  andThen (if proxyDue then Effects.modify (markProxyStale env) else skip)
    (if snapDue then requestSyncSnapshot env else skip)

/-- With nothing in between, and with one reading of the clock, the two are a pass. -/
theorem timerPass_split (env : Env) (proxyDue snapDue saved : Bool) (reloaded : Option CfgData) :
    timerPass env proxyDue snapDue saved reloaded =
      andThen (passStart env proxyDue saved reloaded) (passEnd env proxyDue snapDue) := by
  funext s
  cases proxyDue <;> simp [timerPass, passStart, passEnd, andThen, skip]

theorem passStart_schedule (env : Env) (proxyDue saved : Bool) (reloaded : Option CfgData) (s : NatServer) :
    schedule (passStart env proxyDue saved reloaded s).1 = (reloaded.getD s.cfg, s.proxyPort, s.proxyHealth) := by
  have hpass := (timerPass_schedule env false false saved reloaded s).1
  cases proxyDue with
  | false => exact hpass
  | true =>
    have hqueries (t : NatServer) : Aside t (forEach sendProxyAvailQuery t.cfg.proxyIps t) :=
      Within.forEach (fun ip t => sendMsg_aside (by decide)) _ _
    exact (hqueries _).1.trans hpass

theorem passEnd_schedule (env : Env) (proxyDue snapDue : Bool) (s : NatServer) :
    schedule (passEnd env proxyDue snapDue s).1 =
      (s.cfg, s.proxyPort, if proxyDue then s.proxyHealth.map (marked env.now) else s.proxyHealth) := by
  have hsnap (t : NatServer) : SameSchedule t ((if snapDue then requestSyncSnapshot env else skip : Action) t).1 := by
    split
    · unfold requestSyncSnapshot
      split
      · exact Std.Refl.refl t
      · exact (broadcastSyncMsg_aside (by decide)).1
    · exact Std.Refl.refl t
  cases proxyDue with
  | false => exact hsnap s
  | true => exact hsnap (markProxyStale env s)

/-- The server with the clock of its timer, and what a run has seen of the proxies: the time and the
flag of the last answer of each, and who has not answered the last query. Of a pass that is under way it
is known whether the proxies are probed. -/
structure Prober where
  server : NatServer
  clock : ℤ := 0
  lastPass : ℤ := 0
  lastProxyQ : ℤ := 0
  underway : Option Bool := none
  answers : Bytes → Option (ℤ × UInt8) := fun _ => none
  waiting : List Bytes := []

/-- Packets are handled before, between and after the two parts of a pass. -/
inductive Event
  | packet (env : Env) (data : Bytes) (src : Addr)
  | start (env : Env) (saved : Bool) (reloaded : Option CfgData)
  | finish (env : Env) (snapDue : Bool)

def Prober.due (p : Prober) (now : ℤ) : Bool := now - p.lastProxyQ ≥ 10

def Prober.probing (p : Prober) : Bool := p.underway = some true

def next (p : Prober) : Event → Prober
  | .packet env data src =>
    { p with
      server := (handlePacket env data src p.server).1
      clock := env.now
      answers := match reportOf data with
        | some rsp => fun ip => if ip = inetNtop src.ip then some (env.now, rsp.available) else p.answers ip
        | none => p.answers
      waiting := match reportOf data with
        | some _ => p.waiting.filter (· ≠ inetNtop src.ip)
        | none => p.waiting }
  | .start env saved reloaded =>
    let server := (passStart env (p.due env.now) saved reloaded p.server).1
    { p with
      server := server
      clock := env.now
      lastPass := env.now
      lastProxyQ := if p.due env.now then env.now else p.lastProxyQ
      underway := some (p.due env.now)
      waiting := if p.due env.now then server.cfg.proxyIps else p.waiting }
  | .finish env snapDue =>
    { p with
      server := (passEnd env p.probing snapDue p.server).1
      clock := env.now
      underway := none }

/-- The clock does not go back, passes are a second apart, and the proxy at `ip` answers each query
before the next one is due. -/
def responsive (ip : Bytes) : System Prober Event where
  init p := p.server.proxyHealth = [] ∧ p.answers = (fun _ => none) ∧ p.lastProxyQ = 0 ∧ p.underway = none
  enabled p e := match e with
    | .packet env _ _ => p.clock ≤ env.now
    | .start env _ _ => p.clock ≤ env.now ∧ p.lastPass + 1 ≤ env.now ∧ p.underway = none ∧
        (p.due env.now → ip ∉ p.waiting)
    | .finish env _ => p.clock ≤ env.now ∧ p.underway.isSome
  next := next

/-- The proxy at `ip` is not counted as down and has the flag that it reported last. -/
def Kept (ip : Bytes) (p : Prober) : Prop :=
  ∀ h ∈ p.server.proxyHealth, h.ip = ip → h.down = 0 ∧ ∃ t, p.answers ip = some (t, h.available)

/-- The last answer of the proxy at `ip` is less than ten seconds old. -/
def Recent (ip : Bytes) (p : Prober) (now : ℤ) : Prop :=
  ∀ t flag, p.answers ip = some (t, flag) → now - t < 10

/-- No marking finds an answer that is ten seconds old. -/
def Prompt (ip : Bytes) (p : Prober) : Event → Prop
  | .packet _ _ _ | .start _ _ _ => True
  | .finish env _ => p.probing → Recent ip p env.now

/-- What a run keeps: the entry of the proxy at `ip` is its last answer. -/
structure Probed (ip : Bytes) (p : Prober) : Prop where
  table : Table p.server
  entry : ∀ h ∈ p.server.proxyHealth, h.ip = ip → h.down = 0 ∧ p.answers ip = some (h.lastSeen, h.available)
  found : ∀ t flag, p.answers ip = some (t, flag) → ∃ h ∈ p.server.proxyHealth, h.ip = ip

theorem Probed.packet {ip : Bytes} {p : Prober} (hp : Probed ip p) (env : Env) (data : Bytes) (src : Addr) :
    Probed ip (next p (.packet env data src)) := by
  have hsched := handlePacket_schedule env data src p.server
  have hport : (handlePacket env data src p.server).1.proxyPort = p.server.proxyPort :=
    congrArg (fun x => x.2.1) hsched
  have hhealth : (handlePacket env data src p.server).1.proxyHealth = healthAfter env data src p.server :=
    congrArg (fun x => x.2.2) hsched
  rw [healthAfter] at hhealth
  unfold next
  dsimp only
  cases hrep : reportOf data with
  | none =>
    rw [hrep] at hhealth
    refine ⟨hp.table.congr hport hhealth, ?_, ?_⟩ <;> dsimp only <;> rw [hhealth]
    · exact hp.entry
    · exact hp.found
  | some rsp =>
    rw [hrep] at hhealth
    have hcollect : (collectProxyAvail env src rsp p.server).proxyPort = p.server.proxyPort := by
      rw [collectProxyAvail_eq]
    have htable : Table (collectProxyAvail env src rsp p.server) := hp.table.collect
    refine ⟨htable.congr (hport.trans hcollect.symm) hhealth, fun h hh hip => ?_, fun t flag hans => ?_⟩
    · dsimp only at hh ⊢
      rw [hhealth] at hh
      rcases (mem_collect hp.table).mp hh with rfl | ⟨hh, hne⟩
      · have hsrc : ip = inetNtop src.ip := hip.symm
        rw [if_pos hsrc]
        exact ⟨rfl, rfl⟩
      · rw [if_neg fun hsrc => hne (hip.trans hsrc)]
        exact hp.entry h hh hip
    · dsimp only at hans ⊢
      rw [hhealth]
      by_cases hsrc : ip = inetNtop src.ip
      · exact ⟨_, (mem_collect hp.table).mpr (.inl rfl), hsrc.symm⟩
      · rw [if_neg hsrc] at hans
        obtain ⟨h, hh, hip⟩ := hp.found t flag hans
        exact ⟨h, (mem_collect hp.table).mpr (.inr ⟨hh, fun hne => hsrc (hip.symm.trans hne)⟩), hip⟩

section
variable {ip : Bytes} {p : Prober} {env : Env} {snapDue saved : Bool} {reloaded : Option CfgData}

theorem Probed.start (hp : Probed ip p) : Probed ip (next p (.start env saved reloaded)) := by
  have hsched := passStart_schedule env (p.due env.now) saved reloaded p.server
  have hport : (next p (.start env saved reloaded)).server.proxyPort = p.server.proxyPort :=
    congrArg (fun x => x.2.1) hsched
  have hhealth : (next p (.start env saved reloaded)).server.proxyHealth = p.server.proxyHealth :=
    congrArg (fun x => x.2.2) hsched
  refine ⟨hp.table.congr hport hhealth, ?_, ?_⟩ <;> rw [hhealth]
  · exact hp.entry
  · exact hp.found

theorem finish_health (p : Prober) (env : Env) (snapDue : Bool) :
    (next p (.finish env snapDue)).server.proxyHealth =
      if p.probing then p.server.proxyHealth.map (marked env.now) else p.server.proxyHealth :=
  congrArg (fun x => x.2.2) (passEnd_schedule env p.probing snapDue p.server)

theorem finish_port (p : Prober) (env : Env) (snapDue : Bool) :
    (next p (.finish env snapDue)).server.proxyPort = p.server.proxyPort :=
  congrArg (fun x => x.2.1) (passEnd_schedule env p.probing snapDue p.server)

theorem marked_recent (hp : Probed ip p) {now : ℤ} (hrecent : Recent ip p now) {h : ProxyHealth}
    (hh : h ∈ p.server.proxyHealth) (hip : h.ip = ip) : marked now h = h := by
  have hage := hrecent _ _ (hp.entry h hh hip).2
  exact if_neg (by omega)

theorem Probed.finish (hp : Probed ip p) (hprompt : p.probing → Recent ip p env.now) :
    Probed ip (next p (.finish env snapDue)) := by
  have hhealth := finish_health p env snapDue
  have hport := finish_port p env snapDue
  by_cases hdue : p.probing = true
  · rw [if_pos hdue] at hhealth
    have hmark : Table (markProxyStale env p.server) := hp.table.mark
    refine ⟨hmark.congr hport hhealth, fun k hk hip => ?_, fun t flag hans => ?_⟩
    · rw [hhealth] at hk
      obtain ⟨h, hh, rfl⟩ := List.mem_map.mp hk
      rw [marked_ip] at hip
      rw [marked_recent hp (hprompt hdue) hh hip]
      exact hp.entry h hh hip
    · obtain ⟨h, hh, hip⟩ := hp.found t flag hans
      rw [hhealth]
      exact ⟨_, List.mem_map_of_mem hh, (marked_ip env.now h).trans hip⟩
  · rw [if_neg hdue] at hhealth
    refine ⟨hp.table.congr hport hhealth, ?_, ?_⟩ <;> rw [hhealth]
    · exact hp.entry
    · exact hp.found

/-- The end of a pass leaves the proxy as reported exactly if it marks nothing or finds a recent answer. -/
theorem kept_finish_iff (hp : Probed ip p) : Kept ip (next p (.finish env snapDue)) ↔
    (p.probing → Recent ip p env.now) := by
  constructor
  · intro hkept hdue t flag hans
    by_contra! hold
    obtain ⟨h, hh, hip⟩ := hp.found t flag hans
    obtain ⟨hdown, hentry⟩ := hp.entry h hh hip
    rw [hans, Option.some.injEq, Prod.mk.injEq] at hentry
    have hmarked : marked env.now h =
        { h with down := if h.down < 255 then h.down + 1 else h.down, available := 0 } :=
      if_pos (by omega)
    have hmem : marked env.now h ∈ (next p (.finish env snapDue)).server.proxyHealth := by
      rw [finish_health, if_pos hdue]
      exact List.mem_map_of_mem hh
    have hdown' := (hkept _ hmem ((marked_ip env.now h).trans hip)).1
    rw [hmarked, hdown] at hdown'
    dsimp only at hdown'
    exact absurd hdown' (by decide)
  · intro hprompt h hh hip
    have hpass : Probed ip (next p (.finish env snapDue)) := hp.finish hprompt
    obtain ⟨hdown, hentry⟩ := hpass.entry h hh hip
    exact ⟨hdown, _, hentry⟩

end

theorem probed_reach {ip : Bytes} {p : Prober} (h : Reach (responsive ip) (Prompt ip) p) : Probed ip p := by
  refine h.invariant (I := Probed ip) (fun p h0 => ?_) fun p e hp _ hprompt => ?_
  · obtain ⟨hhealth, hanswers, -⟩ := h0
    refine ⟨⟨?_, ?_⟩, ?_, ?_⟩ <;> simp [hhealth, hanswers]
  · cases e with
    | packet env data src => exact hp.packet env data src
    | start env saved reloaded => exact hp.start
    | finish env snapDue => exact hp.finish hprompt

/-- If no marking finds an answer that is ten seconds old, the proxy is never marked; and the end of the next
pass marks it exactly if it does. -/
theorem kept_of_prompt {ip : Bytes} {p : Prober} (h : Reach (responsive ip) (Prompt ip) p) :
    Kept ip p ∧ ∀ env snapDue, Kept ip (next p (.finish env snapDue)) ↔ Prompt ip p (.finish env snapDue) := by
  have hp := probed_reach h
  refine ⟨fun h hh hip => ?_, fun env snapDue => kept_finish_iff hp⟩
  obtain ⟨hdown, hentry⟩ := hp.entry h hh hip
  exact ⟨hdown, _, hentry⟩

/-- A proxy that is asked at 100 seconds, answers, and is asked again at 110 seconds. -/
def asked (answered : ℤ) : Prober :=
  [.start { now := 100 } false none, .finish { now := 100 } false,
    .packet { now := answered } (datagram msgSpAskExtinfoRsp ([1] ++ be16 0 ++ be16 1000)) ⟨0x7f000001, 7000⟩,
    .start { now := 110 } false none].foldl next { server := freshServer }

theorem asked_reach {answered : ℤ} (h : 100 ≤ answered ∧ answered ≤ 110) :
    Reach (responsive CfgFile.localhost) (Prompt CfgFile.localhost) (asked answered) := by
  have h0 : Reach (responsive CfgFile.localhost) (Prompt CfgFile.localhost) { server := freshServer } :=
    .start ⟨rfl, rfl, rfl, rfl⟩
  have h1 := Reach.step (S := responsive CfgFile.localhost) (e := .start { now := 100 } false none) h0
    ⟨by decide, by decide, rfl, fun _ => by decide⟩ trivial
  have h2 := Reach.step (S := responsive CfgFile.localhost) (e := .finish { now := 100 } false) h1
    ⟨le_rfl, rfl⟩ fun _ t flag hans => by cases hans
  have h3 := Reach.step (S := responsive CfgFile.localhost) (e := .packet { now := answered }
    (datagram msgSpAskExtinfoRsp ([1] ++ be16 0 ++ be16 1000)) ⟨0x7f000001, 7000⟩) h2 h.1 trivial
  refine Reach.step (S := responsive CfgFile.localhost) (e := .start { now := 110 } false none) h3
    ⟨h.2, by change (100 : ℤ) + 1 ≤ 110; decide, rfl, fun _ => ?_⟩ trivial
  change CfgFile.localhost ∉ List.filter (· ≠ inetNtop 0x7f000001) _
  decide +kernel

/-- An answer of second 101 is nine seconds old when the proxies are marked. -/
theorem kept_of_prompt_asked : (∃ h ∈ (next (asked 101) (.finish { now := 110 } false)).server.proxyHealth,
      h.ip = CfgFile.localhost) ∧ Kept CfgFile.localhost (next (asked 101) (.finish { now := 110 } false)) := by
  refine ⟨by decide +kernel, ((kept_of_prompt (asked_reach (by decide))).2 { now := 110 } false).mpr ?_⟩
  intro _ t flag hans
  have hanswer : (asked 101).answers CfgFile.localhost = some (101, 1) := by decide +kernel
  rw [hanswer, Option.some.injEq, Prod.mk.injEq] at hans
  rw [← hans.1]
  decide

/-- A proxy that answers at once is marked after the next query. -/
theorem responsive_marked : ¬∀ ip p, Reachable (responsive ip) p → Kept ip p := by
  intro h
  have hasked : Reachable (responsive CfgFile.localhost) (asked 100) :=
    (asked_reach (by decide)).mono fun _ _ _ => trivial
  have hreach := Reach.step (S := responsive CfgFile.localhost) (e := .finish { now := 110 } false) hasked
    ⟨le_refl (110 : ℤ), rfl⟩ trivial
  have hmarked : ∃ h ∈ (next (asked 100) (.finish { now := 110 } false)).server.proxyHealth,
      h.ip = CfgFile.localhost ∧ h.down ≠ 0 := by decide +kernel
  obtain ⟨entry, hmem, hip, hdown⟩ := hmarked
  exact hdown (h CfgFile.localhost _ hreach entry hmem hip).1

end P2PServer.ProxyProbing
