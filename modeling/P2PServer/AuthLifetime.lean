import P2PServer.LoginHistory
import P2PServer.SyncConvergence
import P2PServer.SyncSurvival

/-! How long a login lasts in a cluster. A login opens a session of 3600 seconds on one
server. Every sync entry that is stored authenticates its uuid for 3600 seconds after the
heartbeat it reports, and an authenticated uuid may send further heartbeats. -/
namespace P2PServer.AuthLifetime
open ByteStrings ProtoDef Net NatServer SyncCluster Registry PacketCases ServerRun SyncOutputs
open EntryBytes Transitions

variable {ι : Type}

/-- Servers with one clock, what they have put on the network, and the logins that they have
accepted with their times. -/
structure State (ι : Type) extends Network ι where
  now : ℤ
  logins : List (Bytes × ℤ)

inductive Event (ι : Type)
  | tick (now : ℤ)
  | packet (j : ι) (env : Env) (data : Bytes) (src : Addr)
  | timer (j : ι) (env : Env) (proxyDue snapDue saved : Bool) (reloaded : Option CfgData)

/-- The uuid whose login this datagram is, if the server accepts it. -/
def loginOf (env : Env) (data : Bytes) (s : NatServer) : Option Bytes :=
  match readDatagram data with
  | none => none
  | some (msgId, p) =>
    if msgId = msgAuthLoginReq ∧ authLoginReqSize ≤ p.length ∧ (loginResult env p s).1 = authOk then
      some (uuidAt p 0)
    else none

def next [DecidableEq ι] (C : Cluster ι) (s : State ι) : Event ι → State ι
  | .tick now => { s with now := now }
  | .packet j env data src =>
    { s with
      toNetwork := s.act C j (handlePacket env data src)
      logins := s.logins ++ (loginOf env data (s.servers j)).toList.map fun u => (u, s.now) }
  | .timer j env proxyDue snapDue saved reloaded =>
    { s with toNetwork := s.act C j (timerPass env proxyDue snapDue saved reloaded) }

/-- Sync messages come from the servers. The network may lose, delay, reorder and repeat
them. -/
def enabled (C : Cluster ι) (s : State ι) : Event ι → Prop
  | .tick now => s.now ≤ now
  | .packet j env data src => env.now = s.now ∧ (isSync data = true → ⟨src, C.addr j, data⟩ ∈ s.sent)
  | .timer _ env _ _ _ reloaded => env.now = s.now ∧ ∀ cfg ∈ reloaded, cfg.authEnabled = true

structure Initial (s : State ι) : Prop where
  clock : 0 ≤ s.now
  auth : ∀ j, (s.servers j).cfg.authEnabled = true
  started : ∀ j, Started (s.servers j)
  silent : s.sent = []
  none : s.logins = []

def cluster [DecidableEq ι] (C : Cluster ι) : System (State ι) (Event ι) where
  init := Initial
  enabled := enabled C
  next := next C

/-- A login for `u` that lies at most `d` seconds before `t`. -/
def Recent (logins : List (Bytes × ℤ)) (u : Bytes) (d t : ℤ) : Prop :=
  ∃ l, (u, l) ∈ logins ∧ t ≤ l + d

/-- The uuids whose records a datagram of a client refreshes: an accepted heartbeat, or a
report of extension text for a registered uuid. -/
inductive Refreshes (env : Env) (data : Bytes) (s : NatServer) : Bytes → Prop
  | heartbeat {msgId : UInt8} {p : Bytes} {req : UuidReq} {extinfo : Bytes} {enc : Option Bytes}
      (hread : readDatagram data = some (msgId, p))
      (h : heartbeatOf s.cfg.authSecret msgId p = some (req, extinfo, enc))
      (hgate : (heartbeatGate env req.uuid s).1 = 0) (hu : req.uuid ≠ []) :
      Refreshes env data s req.uuid
  | report {p : Bytes} {self : Peer} (hread : readDatagram data = some (msgSndExtinfoReq, p))
      (hlen : 33 ≤ p.length) (hself : s.peers.peers[uuidAt p 0]? = some self) :
      Refreshes env data s (uuidAt p 0)

/-- Whatever refreshes a record comes within 3600 seconds after a login of its uuid. -/
def Timely (s : State ι) : Event ι → Prop
  | .packet j env data _ => ∀ u, Refreshes env data (s.servers j) u → Recent s.logins u 3600 s.now
  | .tick _ | .timer _ _ _ _ _ _ => True

theorem Recent.mono {logins logins' : List (Bytes × ℤ)} {u : Bytes} {d t : ℤ}
    (h : Recent logins u d t) (hsub : logins ⊆ logins') : Recent logins' u d t := by
  obtain ⟨l, hl, ht⟩ := h
  exact ⟨l, hsub hl, ht⟩

/-- Sessions, records and heartbeat times go back to a login. -/
structure Bounded (logins : List (Bytes × ℤ)) (m : PeerManager) : Prop where
  session : ∀ (u : Bytes) (t : ℤ), m.authSessions[u]? = some t → Recent logins u 3600 t
  expire : ∀ (u : Bytes) (r : Peer), m.peers[u]? = some r →
    r.authExpire ≤ 0 ∨ Recent logins u 7200 r.authExpire
  beat : ∀ (u : Bytes) (r : Peer), m.peers[u]? = some r →
    0 ≤ r.lastHeartbeat ∧ Recent logins u 3600 r.lastHeartbeat

variable {logins logins' : List (Bytes × ℤ)} {m m' : PeerManager}

theorem Bounded.mono (h : Bounded logins m) (hsub : logins ⊆ logins') : Bounded logins' m where
  session u t ht := (h.session u t ht).mono hsub
  expire u r hr := (h.expire u r hr).imp id fun hx => hx.mono hsub
  beat u r hr := ⟨(h.beat u r hr).1, (h.beat u r hr).2.mono hsub⟩

theorem Bounded.drop (h : Bounded logins m)
    (hs : ∀ (u : Bytes) (t : ℤ), m'.authSessions[u]? = some t → m.authSessions[u]? = some t)
    (hp : ∀ (u : Bytes) (r : Peer), m'.peers[u]? = some r → m.peers[u]? = some r) :
    Bounded logins m' where
  session u t ht := h.session u t (hs u t ht)
  expire u r hr := h.expire u r (hp u r hr)
  beat u r hr := h.beat u r (hp u r hr)

theorem Bounded.file (h : Bounded logins m) {uuid : Bytes} {q : Peer}
    (hs : m'.authSessions = m.authSessions)
    (hm : ∀ u, m'.peers[u]? = if u = uuid ∧ PeerManager.validUuid uuid = true then some q
      else m.peers[u]?)
    (hq : uuid ≠ [] → (q.authExpire ≤ 0 ∨ Recent logins uuid 7200 q.authExpire) ∧
      0 ≤ q.lastHeartbeat ∧ Recent logins uuid 3600 q.lastHeartbeat) : Bounded logins m' := by
  have hne : PeerManager.validUuid uuid = true → uuid ≠ [] := by
    rintro hv rfl
    exact absurd hv (by decide)
  refine ⟨fun u t ht => h.session u t (hs ▸ ht), fun u r hr => ?_, fun u r hr => ?_⟩
  · rw [hm] at hr
    split at hr
    · rename_i hu
      cases hr
      exact hu.1 ▸ (hq (hne hu.2)).1
    · exact h.expire u r hr
  · rw [hm] at hr
    split at hr
    · rename_i hu
      cases hr
      exact hu.1 ▸ (hq (hne hu.2)).2
    · exact h.beat u r hr

section
variable {uuid : Bytes} {pub lan : Addr} {devType nattype : UInt8} {extinfo : Bytes} {now : ℤ}

theorem Bounded.upsert (h : Bounded logins m) (h0 : 0 ≤ now)
    (hr : uuid ≠ [] → Recent logins uuid 3600 now) :
    Bounded logins (m.upsert uuid pub lan devType nattype extinfo now).2 := by
  refine h.file ?_ (fun u => m.upsert_get uuid u pub lan devType nattype extinfo now) fun hu => ?_
  · unfold PeerManager.upsert
    split <;> rfl
  · unfold PeerManager.upserted
    cases hold : m.peers[uuid]? with
    | none => exact ⟨.inl (le_refl 0), h0, hr hu⟩
    | some old => exact ⟨h.expire uuid old hold, h0, hr hu⟩

theorem Bounded.upsertSynced (h : Bounded logins m) (h0 : 0 ≤ now)
    (hr : uuid ≠ [] → Recent logins uuid 3600 now) :
    Bounded logins (m.upsertSynced uuid pub lan devType nattype extinfo now).2 := by
  refine h.file ?_ (fun u => m.upsertSynced_get uuid u pub lan devType nattype extinfo now)
    fun hu => ?_
  · unfold PeerManager.upsertSynced
    split <;> rfl
  · have hexp : Recent logins uuid 7200 (now + 3600) := by
      obtain ⟨l, hl, ht⟩ := hr hu
      exact ⟨l, hl, by omega⟩
    unfold PeerManager.synced
    cases hold : m.peers[uuid]? with
    | none => exact ⟨.inr hexp, h0, hr hu⟩
    | some old => exact ⟨.inr hexp, h0, hr hu⟩

theorem Bounded.remove (h : Bounded logins m) (uuid : Bytes) : Bounded logins (m.remove uuid).2 := by
  refine h.drop (fun u t ht => ht) fun u r hr => ?_
  rw [PeerManager.remove_get] at hr
  split at hr
  · cases hr
  · exact hr

theorem Bounded.setAuthExpire (h : Bounded logins m) {uuid : Bytes} {now : ℤ}
    (hl : (uuid, now) ∈ logins) : Bounded logins (m.setAuthExpire uuid (now + 3600)) := by
  refine ⟨fun u t ht => ?_, fun u r hr => ?_, fun u r hr => ?_⟩
  · rw [PeerManager.setAuthExpire_sessions] at ht
    split at ht
    · rename_i hu
      cases ht
      exact ⟨now, hu ▸ hl, le_refl _⟩
    · exact h.session u t ht
  · rw [PeerManager.setAuthExpire_get] at hr
    split at hr
    · rename_i hu
      obtain ⟨q, hq, rfl⟩ := Option.map_eq_some_iff.mp hr
      refine .inr ⟨now, hu ▸ hl, ?_⟩
      change now + 3600 ≤ now + 7200
      omega
    · exact h.expire u r hr
  · rw [PeerManager.setAuthExpire_get] at hr
    split at hr
    · obtain ⟨q, hq, rfl⟩ := Option.map_eq_some_iff.mp hr
      exact h.beat u q hq
    · exact h.beat u r hr

theorem Bounded.cleanup (h : Bounded logins m) (now : ℤ) :
    Bounded logins ((m.cleanupTimeoutAndCollect 90 now).2.cleanupAuthSessions now) := by
  refine h.drop (fun u t ht => ?_) fun u r hr => ?_
  · rw [PeerManager.cleanupAuthSessions_sessions] at ht
    exact (Option.filter_eq_some_iff.mp ht).1
  · have hr' : (m.cleanupTimeoutAndCollect 90 now).2.peers[u]? = some r := hr
    rw [PeerManager.cleanup_get] at hr'
    exact (Option.filter_eq_some_iff.mp hr').1

end

/-- An entry on the network reports a heartbeat that goes back to a login. -/
def EntryOk (logins : List (Bytes × ℤ)) (data : Bytes) : Prop :=
  ∀ payload, readDatagram data = some (msgSyncPeerEntry, payload) →
    (SyncPeerEntry.read payload).uuid ≠ [] →
    Recent logins (SyncPeerEntry.read payload).uuid 3600 (SyncPeerEntry.read payload).hbTime.toNat

theorem EntryOk.mono {data : Bytes} (h : EntryOk logins data) (hsub : logins ⊆ logins') :
    EntryOk logins' data := fun payload hread hu => (h payload hread hu).mono hsub

theorem entryOk_of_not_sync {data : Bytes} (h : isSync data = false) : EntryOk logins data := by
  intro payload hread
  rw [isSync, hread] at h
  cases h

theorem entryOk_of_id {data payload : Bytes} {id : UInt8} (hread : readDatagram data = some (id, payload))
    (hid : id ≠ msgSyncPeerEntry) : EntryOk logins data := by
  intro payload' hread'
  rw [hread, Option.some.injEq, Prod.mk.injEq] at hread'
  exact absurd hread'.1 hid

/-- An entry is as good as the body that was signed. -/
theorem entryOk_signed {secret body data : Bytes}
    (hread : readDatagram data = some (msgSyncPeerEntry, signed secret body))
    (hlen : syncPeerEntrySize ≤ body.length)
    (h : (SyncPeerEntry.read body).uuid ≠ [] →
      Recent logins (SyncPeerEntry.read body).uuid 3600 (SyncPeerEntry.read body).hbTime.toNat) :
    EntryOk logins data := by
  intro payload hread' hu
  rw [hread, Option.some.injEq, Prod.mk.injEq] at hread'
  rw [← hread'.2, read_signed secret hlen] at hu ⊢
  exact h hu

theorem time32_le {t : ℤ} (h : 0 ≤ t) : ((time32 t).toNat : ℤ) ≤ t := by
  have hmod : t.emod 4294967296 = t % 4294967296 := rfl
  rw [time32, UInt32.toNat_ofNat', hmod]
  omega

theorem Recent.earlier {u : Bytes} {d t t' : ℤ} (h : Recent logins u d t) (ht : t' ≤ t) :
    Recent logins u d t' := by
  obtain ⟨l, hl, hle⟩ := h
  exact ⟨l, hl, ht.trans hle⟩

theorem recent_entryBody {p : Peer} (htext : cstr p.uuid = p.uuid) (hlen : p.uuid.length ≤ maxUuidLen)
    (h0 : 0 ≤ p.lastHeartbeat) (h : p.uuid ≠ [] → Recent logins p.uuid 3600 p.lastHeartbeat)
    (hop : UInt8) (hu : (SyncPeerEntry.read (entryBody p hop)).uuid ≠ []) :
    Recent logins (SyncPeerEntry.read (entryBody p hop)).uuid 3600
      (SyncPeerEntry.read (entryBody p hop)).hbTime.toNat := by
  have hread := read_peerEntryBytes p hop
    (if 0 < p.extlen.toNat ∧ p.extlen.toNat ≤ maxExtinfo then p.extinfo.take p.extlen.toNat else [])
  rw [← entryBody, htext, List.take_of_length_le hlen] at hread
  rw [hread] at hu ⊢
  exact (h hu).earlier (time32_le h0)

/-- What a server signs when it handles a datagram goes back to a login if everything that it
reads does. -/
theorem entryOk_signs {env : Env} {data : Bytes} {src : Addr} {s : NatServer} {id : UInt8}
    {body : Bytes} (hs : Signs env data src s id body) (h0 : 0 ≤ env.now) (hwf : s.peers.WellFiled)
    (hb : Bounded logins s.peers) (he : EntryOk logins data)
    (hr : ∀ u, Refreshes env data s u → Recent logins u 3600 env.now) {secret data' : Bytes}
    (hread' : readDatagram data' = some (id, signed secret body)) : EntryOk logins data' := by
  cases hs with
  | @heartbeat msgId p req extinfo enc hread h hgate =>
    refine entryOk_signed hread' (entryBody_length _ _).1 (recent_entryBody ?_ ?_ h0 ?_ 1)
    · exact cstr_cstr _
    · exact (heartbeatOf_bounds h).1
    · exact fun hu => hr req.uuid (.heartbeat hread h hgate hu)
  | forward hread h _ =>
    refine entryOk_signed hread' ?_ ?_
    · rw [(forwardedBody_length h env).1]
      exact Nat.le_add_right _ _
    · intro hu
      rw [read_forwardedBody h env] at hu ⊢
      have hp := he _ hread
      rw [← (entryOf_eq_some.mp h).1] at hp
      exact hp hu
  | del => exact entryOk_of_id hread' (by decide)
  | @snapshot p r hread hmem =>
    obtain ⟨u, hu⟩ := TreeMaps.mem_values hmem
    have hprop := hwf u r hu
    have hbeat := hb.beat u r hu
    refine entryOk_signed hread' (entryBody_length _ _).1 (recent_entryBody ?_ ?_ hbeat.1 ?_ _)
    · rw [hprop.uuid]
      exact hprop.text
    · rw [hprop.uuid]
      exact hprop.short
    · intro _
      rw [hprop.uuid]
      exact hbeat.2

structure Inv (s : State ι) : Prop where
  clock : 0 ≤ s.now
  auth : ∀ j, (s.servers j).cfg.authEnabled = true
  wellFiled : ∀ j, (s.servers j).peers.WellFiled
  bounded : ∀ j, Bounded s.logins (s.servers j).peers
  entries : ∀ p ∈ s.sent, EntryOk s.logins p.data

theorem inv_init {s : State ι} (h : Initial s) : Inv s where
  clock := h.clock
  auth := h.auth
  wellFiled j := (h.started j).wellFiled
  bounded j := by
    rw [(h.started j).peers]
    exact ⟨fun u t ht => by simp at ht, fun u r hr => by simp at hr, fun u r hr => by simp at hr⟩
  entries p hp := by
    rw [h.silent] at hp
    cases hp

theorem Inv.act [DecidableEq ι] {C : Cluster ι} {s : State ι} (h : Inv s) {j : ι} {f : Action}
    {logins : List (Bytes × ℤ)} (hsub : s.logins ⊆ logins)
    (hauth : (f (s.servers j)).1.cfg.authEnabled = true)
    (hwf : (f (s.servers j)).1.peers.WellFiled) (hb : Bounded logins (f (s.servers j)).1.peers)
    (hout : ∀ dst data, Out.send dst data ∈ (f (s.servers j)).2 → EntryOk logins data) :
    Inv { s with toNetwork := s.act C j f, logins := logins } := by
  refine ⟨h.clock, fun i => ?_, fun i => ?_, fun i => ?_, fun p hp => ?_⟩
  · by_cases hi : i = j
    · subst hi
      simpa [Network.act] using hauth
    · simpa [Network.act, hi] using h.auth i
  · by_cases hi : i = j
    · subst hi
      simpa [Network.act] using hwf
    · simpa [Network.act, hi] using h.wellFiled i
  · by_cases hi : i = j
    · subst hi
      simpa [Network.act] using hb
    · simpa [Network.act, hi] using (h.bounded i).mono hsub
  · rcases List.mem_append.mp hp with hp | hp
    · exact (h.entries p hp).mono hsub
    · exact hout _ _ (mem_packets hp)

theorem loginOf_granted {env : Env} {data p : Bytes} {s : NatServer}
    (hread : readDatagram data = some (msgAuthLoginReq, p)) (hlen : authLoginReqSize ≤ p.length)
    (h : (loginResult env p s).1 = authOk) : loginOf env data s = some (uuidAt p 0) := by
  unfold loginOf
  rw [hread]
  exact if_pos ⟨rfl, hlen, h⟩

theorem Inv.bounded_packet {s : State ι} (h : Inv s) {j : ι} {env : Env} {data : Bytes} (src : Addr)
    (henv : env.now = s.now) (he : EntryOk s.logins data)
    (hr : ∀ u, Refreshes env data (s.servers j) u → Recent s.logins u 3600 env.now) :
    Bounded (s.logins ++ (loginOf env data (s.servers j)).toList.map fun u => (u, s.now))
      (handlePacket env data src (s.servers j)).1.peers := by
  have hsub : s.logins ⊆ s.logins ++ (loginOf env data (s.servers j)).toList.map
      fun u => (u, s.now) := List.subset_append_left _ _
  have h0 : 0 ≤ env.now := henv ▸ h.clock
  have hb := h.bounded j
  have hf := handlePacket_filed env data src (s.servers j)
  generalize (handlePacket env data src (s.servers j)).1.peers = m at hf ⊢
  cases hf with
  | kept => exact hb.mono hsub
  | heartbeat hread hreq hgate =>
    exact (hb.upsert h0 fun hu => hr _ (.heartbeat hread hreq hgate hu)).mono hsub
  | report hread hlen hself =>
    have hprop := h.wellFiled j _ _ hself
    refine (hb.upsert h0 fun _ => ?_).mono hsub
    rw [hprop.uuid]
    exact hr _ (.report hread hlen hself)
  | @login p hread hlen hgate hon expire hnonce htime hmac =>
    have hres := LoginHistory.loginResult_granted hgate hon hnonce htime hmac
    have hlog := loginOf_granted hread hlen (congrArg Prod.fst hres)
    refine (hb.mono hsub).setAuthExpire ?_
    rw [hlog, henv]
    exact List.mem_append_right _ (List.mem_singleton_self _)
  | delete => exact (hb.remove _).mono hsub
  | @entry p hread hon e extinfo hent hu hnew =>
    refine (hb.upsertSynced (Int.natCast_nonneg _) fun hne => ?_).mono hsub
    have hp := he p hread
    rw [← (entryOf_eq_some.mp hent).1] at hp
    exact hp hne
  | del => exact (hb.remove _).mono hsub

theorem inv_packet [DecidableEq ι] {C : Cluster ι} {s : State ι} (h : Inv s) {j : ι} {env : Env}
    {data : Bytes} {src : Addr} (hen : enabled C s (.packet j env data src))
    (hok : Timely s (.packet j env data src)) : Inv (next C s (.packet j env data src)) := by
  obtain ⟨henv, hgen⟩ := hen
  have he : EntryOk s.logins data := by
    cases hs : isSync data with
    | false => exact entryOk_of_not_sync hs
    | true => exact h.entries _ (hgen hs)
  have hr : ∀ u, Refreshes env data (s.servers j) u → Recent s.logins u 3600 env.now :=
    fun u hu => henv ▸ hok u hu
  have hset := (handlePacket_setup env data src (s.servers j)).1
  refine h.act (List.subset_append_left _ _) (by rw [hset.cfg]; exact h.auth j)
    (wellFiled_step (h.wellFiled j) (.packet env data src)) (h.bounded_packet src henv he hr) ?_
  intro dst data' hmem
  refine EntryOk.mono ?_ (List.subset_append_left _ _)
  rcases handlePacket_carries env data src (s.servers j) _ hmem with hplain | ⟨a, id, body, hsig, hout⟩
  · exact entryOk_of_not_sync (hplain dst data' rfl)
  · obtain ⟨hsend, hread⟩ := mem_syncOut hout
    rw [Out.send.injEq] at hsend
    rw [← hsend.2] at hread
    exact entryOk_signs hsig (henv ▸ h.clock) (h.wellFiled j) (h.bounded j) he hr hread

theorem inv_timer [DecidableEq ι] {C : Cluster ι} {s : State ι} (h : Inv s) {j : ι} {env : Env}
    {proxyDue snapDue saved : Bool} {reloaded : Option CfgData}
    (hen : enabled C s (.timer j env proxyDue snapDue saved reloaded)) :
    Inv (next C s (.timer j env proxyDue snapDue saved reloaded)) := by
  have hcfg : (timerPass env proxyDue snapDue saved reloaded (s.servers j)).1.cfg =
      reloaded.getD (s.servers j).cfg :=
    congrArg Core.cfg (timerPass_spec env proxyDue snapDue saved reloaded (s.servers j)).1
  refine h.act (List.Subset.refl _) ?_
    (wellFiled_step (h.wellFiled j) (.timer env proxyDue snapDue saved reloaded)) ?_ ?_
  · rw [hcfg]
    cases reloaded with
    | none => exact h.auth j
    | some cfg => exact hen.2 cfg rfl
  · rw [timerPass_peers]
    exact (h.bounded j).cleanup env.now
  · intro dst data hmem
    have hbody {secret : Bytes} (hc : Carries secret (TimerSigns env (s.servers j)) (.send dst data)) :
        EntryOk s.logins data := by
      rcases hc with hplain | ⟨a, id, body, hsig, hout⟩
      · exact entryOk_of_not_sync (hplain dst data rfl)
      · obtain ⟨hsend, hread⟩ := mem_syncOut hout
        rw [Out.send.injEq] at hsend
        rw [← hsend.2] at hread
        refine entryOk_of_id hread ?_
        cases hsig <;> decide
    rcases timerPass_carries env proxyDue snapDue saved reloaded (s.servers j) _ hmem with hc | hc
    · exact hbody hc
    · exact hbody hc

theorem inv_step [DecidableEq ι] {C : Cluster ι} {s : State ι} {e : Event ι} (h : Inv s)
    (hen : enabled C s e) (hok : Timely s e) : Inv (next C s e) := by
  cases e with
  | tick now => exact ⟨h.clock.trans hen, h.auth, h.wellFiled, h.bounded, h.entries⟩
  | packet j env data src => exact inv_packet h hen hok
  | timer j env proxyDue snapDue saved reloaded => exact inv_timer h hen

/-- In every run in which records are refreshed only within 3600 seconds after a login of
their uuid: whoever is authenticated on some server has logged in on some server less than
7200 seconds ago. -/
theorem authed_recent [DecidableEq ι] (C : Cluster ι) {s : State ι}
    (h : Reach (cluster C) Timely s) (j : ι) (u : Bytes)
    (ha : (s.servers j).peers.authed u s.now = true) :
    ∃ l, (u, l) ∈ s.logins ∧ s.now - 7200 < l := by
  have hi : Inv s := Reach.invariant (S := cluster C) (I := Inv) (fun _ => inv_init)
    (fun _ _ hi hen hok => inv_step hi hen hok) h
  rcases (PeerManager.authed_iff _ _ _).mp ha with ⟨t, ht, hlt⟩ | ⟨r, hr, hlt⟩
  · obtain ⟨l, hl, hle⟩ := (hi.bounded j).session u t ht
    exact ⟨l, hl, by omega⟩
  · have h0 := hi.clock
    rcases (hi.bounded j).expire u r hr with hz | ⟨l, hl, hle⟩
    · omega
    · exact ⟨l, hl, by omega⟩

open Samples (uuidU secretK host)
open LoginHistory (nonceZero loginOfU loginOfU_length loginOfU_uuid loginOfU_nonce
  loginOfU_mac)
open SyncConvergence (message message_read)

instance [DecidableEq ι] (C : Cluster ι) (s : State ι) :
    (e : Event ι) → Decidable ((cluster C).enabled s e)
  | .tick now => inferInstanceAs (Decidable (s.now ≤ now))
  | .packet j env data src => inferInstanceAs
      (Decidable (env.now = s.now ∧ (isSync data = true → ⟨src, C.addr j, data⟩ ∈ s.sent)))
  | .timer _ env _ _ _ reloaded => inferInstanceAs
      (Decidable (env.now = s.now ∧ ∀ cfg ∈ reloaded, cfg.authEnabled = true))

attribute [local instance] neZero_two

def two : Cluster (Fin 2) := SyncSurvival.pair

def syncKey : Bytes := [0x73]

def member (i : Fin 2) : NatServer where
  cfg := { enableAuth := true, authSecret := secretK, syncAuthSecret := syncKey }
  syncOn := true
  syncAddrs := [two.addr (1 - i)]

def idle : State (Fin 2) := { servers := member, sent := [], now := 0, logins := [] }

def challengeU : Event (Fin 2) :=
  .packet 0 {} (datagram msgAuthChallengeReq (uuidField uuidU)) host

def loginU : Event (Fin 2) := .packet 0 {} (datagram msgAuthLoginReq loginOfU) host

def beatPayload : Bytes := uuidField uuidU ++ List.replicate 10 0

def beatU (j : Fin 2) (now : ℤ) : Event (Fin 2) :=
  .packet j { now := now } (datagram msgHeartbeatReq beatPayload) host

def recordU (now : ℤ) : Peer := announced { now := now } (UuidReq.read beatPayload) [] host

def entryU (j : Fin 2) (now : ℤ) : Event (Fin 2) :=
  .packet j { now := now } (message syncKey (recordU now)) (two.addr (1 - j))

def takenU (now : ℤ) : SyncPeerEntry := SyncPeerEntry.read (entryBody (recordU now) 1)

def granted : NatServer := { member 0 with
  peers := ({} : PeerManager).setAuthExpire uuidU 3600
  authNonces := ((∅ : Std.ExtTreeMap Bytes (Bytes × ℤ)).insert uuidU (nonceZero, 30)).erase uuidU }

def entered (j : Fin 2) (now : ℤ) (s : NatServer) : NatServer :=
  { s with
    syncSeen := noteSeen now (seenKey (takenU now).uuid (takenU now).hbTime (two.addr (1 - j))) s.syncSeen
    peers := stored (takenU now) [] s.peers }

def challenged : State (Fin 2) := next two idle challengeU

def loggedIn : State (Fin 2) := next two challenged loginU

theorem loggedIn_eq : loggedIn =
    ⟨⟨Function.update challenged.servers 0 granted, loggedIn.sent⟩, 0, [(uuidU, 0)]⟩ := by
  have hread : readDatagram (datagram msgAuthLoginReq loginOfU) = some (msgAuthLoginReq, loginOfU) :=
    readDatagram_datagram msgAuthLoginReq (by rw [loginOfU_length]; decide)
  have hlen : authLoginReqSize ≤ loginOfU.length := by
    rw [loginOfU_length]
    decide
  have hserver : challenged.servers 0 = { member 0 with
      authNonces := (∅ : Std.ExtTreeMap Bytes (Bytes × ℤ)).insert uuidU (nonceZero, 30) } := by
    decide +kernel
  have hgate : authGate {} uuidU (challenged.servers 0) = (0, challenged.servers 0) := by
    decide +kernel
  have hnonce : (challenged.servers 0).authNonces[uuidAt loginOfU 0]? =
      some (window loginOfU 33 16, 30) := by
    rw [loginOfU_uuid, loginOfU_nonce]
    decide +kernel
  have hmac : Crypto.hmacSha256 (challenged.servers 0).cfg.authSecret
      (authMessage (uuidAt loginOfU 0) (window loginOfU 33 16)) = window loginOfU 49 32 := by
    have hcfg : (challenged.servers 0).cfg.authSecret = secretK := by decide +kernel
    rw [hcfg, loginOfU_uuid, loginOfU_nonce, loginOfU_mac]
  have hres : loginResult {} loginOfU (challenged.servers 0) = _ :=
    LoginHistory.loginResult_granted (by rw [loginOfU_uuid, hgate]) (by decide +kernel) hnonce
      (by decide) hmac
  rw [loginOfU_uuid, hgate] at hres
  have hafter : (handlePacket {} (datagram msgAuthLoginReq loginOfU) host (challenged.servers 0)).1 =
      granted := by
    rw [Gates.handlePacket_login hread, onAuthLoginReq_fst _ _ _ _ hlen, hres, hserver]
    rfl
  have hlogins : (next two challenged loginU).logins = [(uuidU, 0)] := by
    have hlog := loginOf_granted hread hlen (congrArg Prod.fst hres)
    rw [loginU, next, hlog, loginOfU_uuid]
    rfl
  calc loggedIn = ⟨⟨Function.update challenged.servers 0 (handlePacket {}
        (datagram msgAuthLoginReq loginOfU) host (challenged.servers 0)).1, loggedIn.sent⟩, 0,
        (next two challenged loginU).logins⟩ := rfl
    _ = _ := by rw [hafter, hlogins]

theorem entryBody_recordU (now : ℤ) : entryBody (recordU now) 1 = peerEntryBytes (recordU now) 1 ++ [] :=
  rfl

theorem takenU_eq (now : ℤ) : (takenU now).uuid = uuidU ∧ (takenU now).hop = 1 ∧
    (takenU now).hbTime = time32 now ∧ (takenU now).extlen = 0 := by
  have hread := read_peerEntryBytes (recordU now) 1 []
  rw [takenU, entryBody_recordU, hread]
  have hu : (cstr (recordU now).uuid).take maxUuidLen = uuidU := by
    have : (recordU now).uuid = (UuidReq.read beatPayload).uuid := rfl
    rw [this]
    decide +kernel
  exact ⟨hu, rfl, rfl, rfl⟩

theorem next_entryU {s : State (Fin 2)} {j : Fin 2} {now : ℤ}
    (hkey : (s.servers j).cfg.syncAuthSecret = syncKey) (hon : (s.servers j).syncEnabled = true)
    (hnew : (seenSyncEntry { now := now } uuidU (time32 now) (two.addr (1 - j))
      (s.servers j)).1 = false) :
    next two s (entryU j now) = { s with
      servers := Function.update s.servers j (entered j now (s.servers j))
      sent := (next two s (entryU j now)).sent } := by
  obtain ⟨hu, hhop, htime, hext⟩ := takenU_eq now
  have htaken : entryOf syncKey (signed syncKey (entryBody (recordU now) 1)) =
      some (takenU now, []) := by
    have hlen : (entryBody (recordU now) 1).length = 79 := by
      rw [entryBody_recordU, List.append_nil, peerEntryBytes_length]
    rw [entryOf_signed, ← takenU, List.drop_of_length_le (by rw [hlen]; decide)]
    · rw [← takenU, hext, hlen]
      rfl
    · rw [← takenU, hext]
      decide
  have hread := message_read syncKey (recordU now)
  obtain ⟨data, hdata⟩ : ∃ data, data = message syncKey (recordU now) := ⟨_, rfl⟩
  rw [← hdata] at hread
  rw [entryU, ← hdata]
  have hafter : (handlePacket { now := now } data (two.addr (1 - j)) (s.servers j)).1 =
      entered j now (s.servers j) := by
    rw [handlePacket_entry hread, onSyncPeerEntry_handed, hkey, htaken]
    have hent := handleSyncEntry_entered { now := now } (takenU now) [] (two.addr (1 - j)) (s.servers j)
    dsimp only
    generalize handleSyncEntry { now := now } (takenU now) [] (two.addr (1 - j)) (s.servers j) = r
      at hent ⊢
    cases hent with
    | ignored h =>
      rw [hon, hu] at h
      exact absurd h (by decide)
    | seen _ _ _ h =>
      rw [hu, htime, hnew] at h
      cases h
    | snapshot _ _ h =>
      rw [hhop] at h
      exact absurd h (by decide)
    | increment => rfl
  have hlogins : loginOf { now := now } data (s.servers j) = none := by
    rw [loginOf, hread]
    rfl
  rw [next, hlogins, Network.act, hafter]
  simp

theorem mem_packets_send {src dst : Addr} {data : Bytes} {outs : List Out}
    (h : Out.send dst data ∈ outs) : (⟨src, dst, data⟩ : Packet) ∈ packets src outs :=
  List.mem_filterMap.mpr ⟨_, h, rfl⟩

theorem mem_messagesTo {a : Addr} {data : Bytes} {outs : List Out}
    (h : data ∈ SyncConvergence.messagesTo a outs) : Out.send a data ∈ outs := by
  obtain ⟨o, ho, hd⟩ := List.mem_filterMap.mp h
  cases o with
  | writeFile => cases hd
  | send dst d =>
    dsimp only at hd
    split at hd
    · rename_i hc
      cases hd
      exact hc.1 ▸ ho
    · cases hd

theorem readDatagram_beat : readDatagram (datagram msgHeartbeatReq beatPayload) =
    some (msgHeartbeatReq, beatPayload) := readDatagram_datagram _ (by decide)

theorem heartbeatOf_beat (secret : Bytes) : heartbeatOf secret msgHeartbeatReq beatPayload =
    some (UuidReq.read beatPayload, [], none) := rfl

theorem beatPayload_uuid : (UuidReq.read beatPayload).uuid = uuidU := by decide +kernel

theorem sent_beatU {s : State (Fin 2)} {i j : Fin 2} (hij : 1 - j = i)
    (hkey : (s.servers i).cfg.syncAuthSecret = syncKey) (hon : (s.servers i).syncOn = true)
    (haddr : (s.servers i).syncAddrs = [two.addr j])
    (hgate : (heartbeatGate { now := s.now } uuidU (s.servers i)).1 = 0) :
    (cluster two).enabled (next two s (beatU i s.now)) (entryU j s.now) := by
  refine ⟨rfl, fun _ => List.mem_append_right _ ?_⟩
  have hmsg : SyncConvergence.messagesTo (two.addr j) (handleHeartbeat { now := s.now }
      (UuidReq.read beatPayload) [] host none (s.servers i)).2 = [message syncKey (recordU s.now)] := by
    rw [SyncConvergence.messagesTo_handleHeartbeat (beatPayload_uuid ▸ hgate) hon haddr, hkey]
    rfl
  rw [SyncConvergence.handlePacket_heartbeat readDatagram_beat (heartbeatOf_beat _), hij]
  refine mem_packets_send (mem_messagesTo ?_)
  rw [hmsg]
  exact List.mem_singleton_self _

/-- A login at one server, and a heartbeat there in the last second of its session. -/
def lastBeat : State (Fin 2) :=
  next two ⟨⟨Function.update challenged.servers 0 granted, loggedIn.sent⟩, 3599, [(uuidU, 0)]⟩
    (beatU 0 3599)

theorem not_refreshes {env : Env} {data p : Bytes} {s : NatServer} {msgId : UInt8}
    (hread : readDatagram data = some (msgId, p))
    (hb : heartbeatOf s.cfg.authSecret msgId p = none) (hid : msgId ≠ msgSndExtinfoReq) (u : Bytes) :
    ¬Refreshes env data s u := by
  intro h
  cases h with
  | heartbeat hread' h =>
    rw [hread, Option.some.injEq, Prod.mk.injEq] at hread'
    rw [← hread'.1, ← hread'.2, hb] at h
    cases h
  | report hread' =>
    rw [hread, Option.some.injEq, Prod.mk.injEq] at hread'
    exact hid hread'.1

theorem refreshes_beat {env : Env} {s : NatServer} {u : Bytes}
    (h : Refreshes env (datagram msgHeartbeatReq beatPayload) s u) : u = uuidU := by
  cases h with
  | heartbeat hread h =>
    rw [readDatagram_beat, Option.some.injEq, Prod.mk.injEq] at hread
    rw [← hread.1, ← hread.2, heartbeatOf_beat, Option.some.injEq, Prod.mk.injEq] at h
    rw [← h.1, beatPayload_uuid]
  | report hread =>
    rw [readDatagram_beat, Option.some.injEq, Prod.mk.injEq] at hread
    exact absurd hread.1 (by decide)

theorem lastBeat_reach : Reach (cluster two) Timely lastBeat := by
  have h0 : (cluster two).init idle :=
    ⟨le_refl 0, fun j => by decide +revert, fun j => ⟨rfl, rfl, rfl⟩, rfl, rfl⟩
  have hread1 : readDatagram (datagram msgAuthChallengeReq (uuidField uuidU)) =
      some (msgAuthChallengeReq, uuidField uuidU) := readDatagram_datagram _ (by decide)
  have hread2 : readDatagram (datagram msgAuthLoginReq loginOfU) = some (msgAuthLoginReq, loginOfU) :=
    readDatagram_datagram msgAuthLoginReq (by rw [loginOfU_length]; decide)
  have hplain : isSync (datagram msgAuthLoginReq loginOfU) = false := by
    rw [isSync, hread2]
    rfl
  have h1 : Reach (cluster two) Timely challenged :=
    Reach.step (S := cluster two) (e := challengeU) (Reach.start h0) (by decide +kernel)
      fun u hu => absurd hu (not_refreshes hread1 rfl (by decide) u)
  have h2 : Reach (cluster two) Timely loggedIn :=
    Reach.step (S := cluster two) (e := loginU) h1
      ⟨rfl, fun hs => absurd (hplain.symm.trans hs) (by decide)⟩
      fun u hu => absurd hu (not_refreshes hread2 rfl (by decide) u)
  rw [loggedIn_eq] at h2
  have h3 := Reach.step (S := cluster two) (e := .tick 3599) h2 (by decide) trivial
  refine Reach.step (S := cluster two) (e := beatU 0 3599) h3 (by decide +kernel) fun u hu => ?_
  rw [refreshes_beat hu]
  exact ⟨0, List.mem_singleton_self _, by decide⟩

/-- The state after `entryU j now`, written out. -/
def withEntry (s : State (Fin 2)) (j : Fin 2) (now : ℤ) : State (Fin 2) :=
  { s with
    servers := Function.update s.servers j (entered j now (s.servers j))
    sent := (next two s (entryU j now)).sent }

def heard : State (Fin 2) := withEntry lastBeat 1 3599

theorem heard_reach : Reach (cluster two) Timely heard := by
  have hread := message_read syncKey (recordU 3599)
  have hnext : next two lastBeat (entryU 1 3599) = heard :=
    next_entryU (by decide +kernel) (by decide +kernel) (by decide +kernel)
  rw [← hnext]
  refine Reach.step (S := cluster two) (e := entryU 1 3599) lastBeat_reach
    (sent_beatU (j := 1) (by decide) (by decide +kernel) (by decide +kernel) (by decide +kernel)
      (by decide +kernel)) fun u hu => ?_
  exact absurd hu (not_refreshes hread rfl (by decide) u)

theorem authed_recent_heard :
    (heard.servers 1).peers.authed uuidU heard.now = true ∧
      ∃ l, (uuidU, l) ∈ heard.logins ∧ heard.now - 7200 < l := by
  have ha : (heard.servers 1).peers.authed uuidU heard.now = true := by decide +kernel
  exact ⟨ha, authed_recent two heard_reach 1 uuidU ha⟩

def timerOf (j : Fin 2) (now : ℤ) : Event (Fin 2) := .timer j { now := now } false false false none

/-- The peer turns to server `j`; both servers run their timers. -/
def turn (j : Fin 2) (now : ℤ) : List (Event (Fin 2)) :=
  [.tick now, timerOf 0 now, timerOf 1 now, beatU j now]

/-- A heartbeat at the second server, and the first hears of it. -/
def heardBack : State (Fin 2) := withEntry ((turn 1 3689).foldl (next two) heard) 0 3689

/-- A heartbeat at the first server every 90 seconds. -/
def stays : List (Event (Fin 2)) :=
  ((List.range 39).flatMap fun k => turn 0 (3779 + 90 * k)) ++ [.tick 7200]

theorem heardBack_reachable : Reachable (cluster two) heardBack := by
  have h : Reachable (cluster two) heard := heard_reach.mono fun _ _ _ => trivial
  have hrun : Run (cluster two) (fun _ _ => True) heard ([.tick 3689, timerOf 0 3689,
      timerOf 1 3689]) := by decide +kernel
  have h1 := h.run hrun
  have h2 := Reach.step (S := cluster two) (e := beatU 1 3689) h1 (by decide +kernel) trivial
  have hnext : next two ((turn 1 3689).foldl (next two) heard) (entryU 0 3689) = heardBack :=
    next_entryU (by decide +kernel) (by decide +kernel) (by decide +kernel)
  rw [← hnext]
  exact Reach.step (S := cluster two) (e := entryU 0 3689) h2
    (sent_beatU (j := 0) (by decide) (by decide +kernel) (by decide +kernel) (by decide +kernel)
      (by decide +kernel)) trivial

/-- Heartbeats and their announcements alone carry a login beyond 7200 seconds. -/
theorem authed_forever : ¬∀ s, Reachable (cluster two) s → ∀ j u,
    (s.servers j).peers.authed u s.now = true → ∃ l, (u, l) ∈ s.logins ∧ s.now - 7200 < l := by
  intro h
  have hrun : Run (cluster two) (fun _ _ => True) heardBack stays := by decide +kernel
  have hauthed : ((stays.foldl (next two) heardBack).servers 0).peers.authed uuidU
      (stays.foldl (next two) heardBack).now = true := by decide +kernel
  have hlogins : (stays.foldl (next two) heardBack).logins = [(uuidU, 0)] := by decide +kernel
  have hnow : (stays.foldl (next two) heardBack).now = 7200 := by decide +kernel
  have hreach : Reachable (cluster two) (stays.foldl (next two) heardBack) :=
    Reach.run heardBack_reachable hrun
  obtain ⟨l, hl, hlt⟩ := h _ hreach 0 uuidU hauthed
  rw [hlogins, List.mem_singleton, Prod.mk.injEq] at hl
  rw [hnow, hl.2] at hlt
  exact absurd hlt (by decide)

end P2PServer.AuthLifetime
