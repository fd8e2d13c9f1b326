import P2PServer.Decimals
import P2PServer.Replication
import P2PServer.SyncOutputs

/-! Two servers, one of which takes heartbeats and announces them to the other over a link
that neither loses nor reorders. The receiver drops entries whose uuid, heartbeat time and
sender it has seen in the last 300 seconds, and the time is in whole seconds. -/
namespace P2PServer.SyncConvergence
open ByteStrings ProtoDef Net NatServer Effects SyncCluster Registry PacketCases ServerRun
open SyncOutputs EntryBytes Replication Transitions

/-- What the two servers are to agree on. -/
structure Content where
  pubAddr : Addr
  lanAddr : Addr
  devType : UInt8
  nattype : UInt8
  extinfo : Bytes
  deriving DecidableEq, Repr

def content (p : Peer) : Content := ⟨p.pubAddr, p.lanAddr, p.devType, p.nattype, p.extinfo⟩

def contents (m : PeerManager) : Bytes → Option Content := fun u => m.peers[u]?.map content

/-- `sent` collects the uuids and heartbeat times that were announced. -/
structure State where
  s1 : NatServer
  s2 : NatServer
  link : List Bytes
  sent : List (Bytes × UInt32)

inductive Event
  | heartbeat (env : Env) (data : Bytes) (src : Addr)
  | deliver (env : Env)

/-- The request and the extension text of a heartbeat that passes the gates. -/
def accepted (env : Env) (data : Bytes) (s : NatServer) : Option (UuidReq × Bytes) :=
  match readDatagram data with
  | none => none
  | some (msgId, p) =>
    match heartbeatOf s.cfg.authSecret msgId p with
    | none => none
    | some (req, extinfo, _) =>
      if (heartbeatGate env req.uuid s).1 = 0 then some (req, extinfo) else none

/-- The sync messages among the outputs that go to this address. -/
def messagesTo (a : Addr) (outs : List Out) : List Bytes :=
  outs.filterMap fun
    | .send dst data => if dst = a ∧ isSync data = true then some data else none
    | .writeFile _ _ => none

def next (a1 a2 : Addr) (s : State) : Event → State
  | .heartbeat env data src =>
    let r := handlePacket env data src s.s1
    { s with
      s1 := r.1
      link := s.link ++ messagesTo a2 r.2
      sent := s.sent ++ (accepted env data s.s1).toList.map fun h => (h.1.uuid, time32 env.now) }
  | .deliver env =>
    match s.link with
    | [] => s
    | data :: rest => { s with s2 := (handlePacket env data a1 s.s2).1, link := rest }

def enabled (s : State) : Event → Prop
  | .heartbeat env data _ => (accepted env data s.s1).isSome = true
  | .deliver _ => s.link ≠ []

/-- The servers list each other and share the secret. The first has no records yet and the
second has seen no entries. -/
structure Initial (a1 a2 : Addr) (s : State) : Prop where
  on1 : s.s1.syncOn = true
  on2 : s.s2.syncOn = true
  addrs1 : s.s1.syncAddrs = [a2]
  addrs2 : s.s2.syncAddrs = [a1]
  secret : s.s1.cfg.syncAuthSecret = s.s2.cfg.syncAuthSecret
  blank : s.s1.peers.peers = ∅
  unseen : s.s2.syncSeen = ∅
  idle : s.link = []
  silent : s.sent = []

def pair (a1 a2 : Addr) : System State Event where
  init := Initial a1 a2
  enabled := enabled
  next := next a1 a2

/-- A heartbeat in a second that its uuid has used before repeats the present record. -/
def Repeats (s : State) : Event → Prop
  | .heartbeat env data src => ∀ req extinfo, accepted env data s.s1 = some (req, extinfo) →
      req.uuid ≠ [] → (req.uuid, time32 env.now) ∈ s.sent →
      contents s.s1.peers req.uuid = some (content (announced env req extinfo src))
  | .deliver _ => True

/-- What follows the last separator is determined. -/
theorem append_separator_inj {α : Type} [DecidableEq α] {x : α} {a a' b b' : List α}
    (hb : x ∉ b) (hb' : x ∉ b') (h : a ++ x :: b = a' ++ x :: b') : a = a' ∧ b = b' := by
  have hrev := congrArg (fun l => (List.reverse l).takeWhile (· ≠ x)) h
  have htail {a b : List α} (hn : x ∉ b) :
      (List.reverse (a ++ x :: b)).takeWhile (· ≠ x) = b.reverse := by
    rw [List.reverse_append, List.reverse_cons, List.append_assoc, List.takeWhile_append_of_pos]
    · simp
    · intro y hy
      have hne : y ≠ x := fun hc => hn (hc ▸ List.mem_reverse.mp hy)
      simpa using hne
  simp only [htail hb, htail hb', List.reverse_inj] at hrev
  subst hrev
  exact ⟨List.append_cancel_right h, rfl⟩

/-- Entries from one server have the same key only if uuid and heartbeat time agree. -/
theorem seenKey_inj {u u' : Bytes} {t t' : UInt32} {a : Addr}
    (h : seenKey u t a = seenKey u' t' a) : u = u' ∧ t = t' := by
  have hbar (n : ℕ) : (0x7c : UInt8) ∉ decimalNat n := by
    intro hm
    have hr := (Decimals.ofNat_range hm).2
    exact absurd hr (by decide)
  unfold seenKey at h
  have h1 := List.append_cancel_right (List.append_cancel_right
    (List.append_cancel_right (List.append_cancel_right h)))
  rw [List.append_assoc, List.append_assoc] at h1
  obtain ⟨hu, ht⟩ := append_separator_inj (hbar _) (hbar _) h1
  exact ⟨hu, UInt32.toNat_inj.mp (Decimals.ofNat_injective ht)⟩

theorem handlePacket_heartbeat {env : Env} {data p : Bytes} {src : Addr} {s : NatServer}
    {msgId : UInt8} (hread : readDatagram data = some (msgId, p)) {req : UuidReq} {extinfo : Bytes}
    {enc : Option Bytes} (h : heartbeatOf s.cfg.authSecret msgId p = some (req, extinfo, enc)) :
    handlePacket env data src s = handleHeartbeat env req extinfo src enc s := by
  rw [handlePacket_read hread]
  unfold dispatch
  by_cases h1 : msgId = msgHeartbeatReq ∨ msgId = msgAddUidReq
  · rw [if_pos h1, onHeartbeatReq_handed env p src s h1, h]
  · by_cases h2 : msgId = msgHeartbeatReqEnc
    · subst h2
      rw [if_neg h1, if_pos rfl, onHeartbeatReqEnc_handed, h]
    · rw [heartbeatOf, if_neg h1, if_neg h2] at h
      cases h

theorem accepted_eq_some {env : Env} {data : Bytes} {s : NatServer} {req : UuidReq}
    {extinfo : Bytes} (h : accepted env data s = some (req, extinfo)) :
    ∃ msgId p enc, readDatagram data = some (msgId, p) ∧
      heartbeatOf s.cfg.authSecret msgId p = some (req, extinfo, enc) ∧
      (heartbeatGate env req.uuid s).1 = 0 := by
  unfold accepted at h
  split at h
  · cases h
  · rename_i msgId p hread
    split at h
    · cases h
    · rename_i req' extinfo' enc hb
      split at h
      · cases h
        exact ⟨msgId, p, enc, hread, hb, ‹_›⟩
      · cases h

def message (secret : Bytes) (p : Peer) : Bytes :=
  datagram msgSyncPeerEntry (signed secret (entryBody p 1))

theorem message_read (secret : Bytes) (p : Peer) :
    readDatagram (message secret p) = some (msgSyncPeerEntry, signed secret (entryBody p 1)) := by
  have hsigned := signed_entryBody_length secret p 1
  exact readDatagram_datagram _ (by omega)

theorem message_isSync (secret : Bytes) (p : Peer) : isSync (message secret p) = true := by
  rw [isSync, message_read]
  rfl

theorem messagesTo_plain {a : Addr} {outs : List Out} (h : ∀ o ∈ outs, Plain o) :
    messagesTo a outs = [] := by
  refine List.filterMap_eq_nil_iff.mpr fun o ho => ?_
  cases o with
  | writeFile => rfl
  | send dst data =>
    have hs := h _ ho dst data rfl
    simp [hs]

theorem messagesTo_append (a : Addr) (outs outs' : List Out) :
    messagesTo a (outs ++ outs') = messagesTo a outs ++ messagesTo a outs' :=
  List.filterMap_append

theorem messagesTo_send (a : Addr) {data : Bytes} (h : isSync data = true) :
    messagesTo a [.send a data] = [data] := by
  simp [messagesTo, h]

theorem messagesTo_handleHeartbeat {env : Env} {req : UuidReq} {extinfo : Bytes} {src a : Addr}
    {enc : Option Bytes} {s : NatServer} (hgate : (heartbeatGate env req.uuid s).1 = 0)
    (hon : s.syncOn = true) (haddr : s.syncAddrs = [a]) :
    messagesTo a (handleHeartbeat env req extinfo src enc s).2 =
      [message s.cfg.syncAuthSecret (announced env req extinfo src)] := by
  have hc := heartbeatGate_core env req.uuid s
  have hcfg : (heartbeatGate env req.uuid s).2.cfg = s.cfg := congrArg Core.cfg hc
  have hsync : (heartbeatGate env req.uuid s).2.syncOn = s.syncOn := congrArg Core.syncOn hc
  have haddrs : (heartbeatGate env req.uuid s).2.syncAddrs = s.syncAddrs :=
    congrArg Core.syncAddrs hc
  have hlen := (entryBody_length (announced env req extinfo src) 1).2
  unfold handleHeartbeat
  simp only [hgate, ne_eq, not_true_eq_false, if_false, andThen, Effects.modify, List.nil_append,
    broadcastPeerEntry_eq, messagesTo_append]
  rw [messagesTo_plain sendHeartbeatRsp_plain, List.append_nil]
  simp only [syncEnabled, hsync, haddrs, hon, haddr, hcfg, List.isEmpty_cons, Bool.not_false,
    Bool.and_self, if_true, List.flatMap_cons, List.flatMap_nil, List.append_nil]
  rw [syncOut_eq _ _ (by omega), ← message]
  exact messagesTo_send a (message_isSync _ _)

theorem validUuid_iff {u : Bytes} (h : u.length ≤ maxUuidLen) :
    PeerManager.validUuid u = true ↔ u ≠ [] := by
  simp [PeerManager.validUuid, h]

theorem keepExtinfo_eq {old new : Bytes} (h : new.length ≤ maxExtinfo) :
    PeerManager.keepExtinfo old new = new := if_pos h

section
variable {m : PeerManager} {uuid : Bytes} {pub lan : Addr} {devType nattype : UInt8}
  {extinfo : Bytes} {now : ℤ}

theorem content_upserted (old : Option Peer) (h : extinfo.length ≤ maxExtinfo) :
    content (PeerManager.upserted old uuid pub lan devType nattype extinfo now) =
      ⟨pub, lan, devType, nattype, extinfo⟩ := by
  cases old <;> simp [content, PeerManager.upserted, keepExtinfo_eq h]

theorem content_synced (old : Option Peer) (h : extinfo.length ≤ maxExtinfo) :
    content (PeerManager.synced old uuid pub lan devType nattype extinfo now) =
      ⟨pub, lan, devType, nattype, extinfo⟩ := by
  cases old <;> simp [content, PeerManager.synced, keepExtinfo_eq h]

theorem contents_filed {m' : PeerManager} {r : Peer} (hu : uuid.length ≤ maxUuidLen)
    (h : ∀ u, m'.peers[u]? = if u = uuid ∧ PeerManager.validUuid uuid = true then some r
      else m.peers[u]?) :
    contents m' = if uuid = [] then contents m
      else Function.update (contents m) uuid (some (content r)) := by
  funext u
  have hv := validUuid_iff hu
  unfold contents
  rw [h u]
  by_cases he : uuid = []
  · have hn : ¬PeerManager.validUuid uuid = true := fun hc => hv.mp hc he
    rw [if_neg fun hc => hn hc.2, if_pos he]
  · by_cases hk : u = uuid
    · subst hk
      simp [hv, he]
    · simp [he, hk]

theorem contents_upsert (hu : uuid.length ≤ maxUuidLen) (h : extinfo.length ≤ maxExtinfo) :
    contents (m.upsert uuid pub lan devType nattype extinfo now).2 =
      if uuid = [] then contents m
      else Function.update (contents m) uuid (some ⟨pub, lan, devType, nattype, extinfo⟩) := by
  have hf := contents_filed hu fun u => m.upsert_get uuid u pub lan devType nattype extinfo now
  rwa [content_upserted _ h] at hf

theorem contents_upsertSynced (hu : uuid.length ≤ maxUuidLen) (h : extinfo.length ≤ maxExtinfo) :
    contents (m.upsertSynced uuid pub lan devType nattype extinfo now).2 =
      if uuid = [] then contents m
      else Function.update (contents m) uuid (some ⟨pub, lan, devType, nattype, extinfo⟩) := by
  have hf := contents_filed hu fun u => m.upsertSynced_get uuid u pub lan devType nattype extinfo now
  rwa [content_synced _ h] at hf

end

/-- What holds of every record that a heartbeat announces. -/
structure Announced (p : Peer) : Prop where
  text : cstr p.uuid = p.uuid
  short : p.uuid.length ≤ maxUuidLen
  size : p.extlen.toNat = p.extinfo.length
  fits : p.extinfo.length ≤ maxExtinfo

theorem announced_ok {env : Env} {req : UuidReq} {extinfo : Bytes} {src : Addr}
    (hu : req.uuid.length ≤ maxUuidLen) (h : extinfo.length ≤ maxExtinfo) :
    Announced (announced env req extinfo src) where
  text := cstr_cstr _
  short := hu
  size := by
    unfold maxExtinfo at h
    simp only [announced, UInt16.toNat_ofNat']
    omega
  fits := h

theorem entryBody_announced {p : Peer} (h : Announced p) (hop : UInt8) :
    entryBody p hop = peerEntryBytes p hop ++ p.extinfo := by
  have hfits := h.fits
  have hsize := h.size
  unfold entryBody
  split
  · rw [hsize, List.take_length]
  · rename_i hn
    have h0 : p.extinfo = [] := by
      rw [← List.length_eq_zero_iff]
      omega
    rw [h0]

/-- The update that a record makes. -/
def toUpdate (p : Peer) : Update Bytes Content UInt32 := ⟨p.uuid, content p, time32 p.lastHeartbeat⟩

theorem entryOf_message (secret : Bytes) {p : Peer} (h : Announced p) :
    ∃ e, entryOf secret (signed secret (entryBody p 1)) = some (e, p.extinfo) ∧
      e.uuid = p.uuid ∧ e.hop = 1 ∧ e.hbTime = time32 p.lastHeartbeat ∧
      (⟨entryPub e, entryLan e, e.devType, e.nattype, p.extinfo⟩ : Content) = content p := by
  have hbody := entryBody_announced h 1
  have hread := read_peerEntryBytes p 1 p.extinfo
  have hlen := peerEntryBytes_length p 1
  have hfits := h.fits
  rw [h.text, List.take_of_length_le h.short] at hread
  refine ⟨SyncPeerEntry.read (peerEntryBytes p 1 ++ p.extinfo), ?_, ?_⟩
  · rw [hbody, entryOf_signed]
    · rw [show syncPeerEntrySize = 79 from rfl, List.drop_left' hlen]
    · rw [hread, List.length_append, hlen, h.size]
      rfl
    · rw [hread, h.size]
      exact hfits
  · rw [hread]
    refine ⟨rfl, rfl, rfl, ?_⟩
    simp only [entryPub, entryLan, inetPton_inetNtop, Option.getD_some]
    rfl

/-- The uuids and times that the table of seen entries holds for this sender. -/
def seenIds (a : Addr) (s : NatServer) : Set (Bytes × UInt32) :=
  {x | ∃ t, s.syncSeen[seenKey x.1 x.2 a]? = some t}

theorem mem_seenIds {env : Env} {uuid : Bytes} {t : UInt32} {a : Addr} {s : NatServer}
    (h : (seenSyncEntry env uuid t a s).1 = true) : (uuid, t) ∈ seenIds a s := by
  unfold seenSyncEntry at h
  cases hs : s.syncSeen[seenKey uuid t a]? with
  | none => simp [hs] at h
  | some t0 => exact ⟨t0, hs⟩

theorem seenIds_noteSeen {now : ℤ} {uuid : Bytes} {t : UInt32} {a : Addr} {s r : NatServer}
    (h : r.syncSeen = noteSeen now (seenKey uuid t a) s.syncSeen) :
    seenIds a r ⊆ insert (uuid, t) (seenIds a s) := by
  rintro ⟨u, t'⟩ ⟨v, hv⟩
  have hins : ∃ w, (s.syncSeen.insert (seenKey uuid t a) now)[seenKey u t' a]? = some w := by
    rw [h, noteSeen] at hv
    dsimp only at hv
    split at hv
    · rw [TreeMaps.filter_get] at hv
      exact ⟨v, (Option.filter_eq_some_iff.mp hv).1⟩
    · exact ⟨v, hv⟩
  obtain ⟨w, hw⟩ := hins
  rw [TreeMaps.insert_get] at hw
  split at hw
  · rename_i hk
    obtain ⟨rfl, rfl⟩ := seenKey_inj hk
    exact Set.mem_insert _ _
  · exact Set.mem_insert_of_mem _ ⟨w, hw⟩

/-- The updates among the announced records; an empty uuid makes none. -/
def updates (q : List Peer) : List (Update Bytes Content UInt32) :=
  (q.filter fun p => p.uuid ≠ []).map toUpdate

theorem updates_append (q r : List Peer) : updates (q ++ r) = updates q ++ updates r := by
  simp [updates]

theorem updates_singleton (p : Peer) :
    updates [p] = if p.uuid = [] then [] else [toUpdate p] := by
  unfold updates
  split <;> simp [*]

theorem updates_cons (p : Peer) (q : List Peer) :
    updates (p :: q) = if p.uuid = [] then updates q else toUpdate p :: updates q := by
  unfold updates
  split <;> simp [*]

structure Inv (a1 a2 : Addr) (s : State) : Prop where
  on1 : s.s1.syncOn = true
  on2 : s.s2.syncEnabled = true
  addrs1 : s.s1.syncAddrs = [a2]
  secret : s.s1.cfg.syncAuthSecret = s.s2.cfg.syncAuthSecret
  follows : ∃ q : List Peer, s.link = q.map (message s.s2.cfg.syncAuthSecret) ∧
    (∀ p ∈ q, Announced p) ∧
    Follows (contents s.s1.peers) (contents s.s2.peers) (updates q) (seenIds a1 s.s2)
      {x | x ∈ s.sent}

theorem inv_init {a1 a2 : Addr} {s : State} (h : Initial a1 a2 s) : Inv a1 a2 s where
  on1 := h.on1
  on2 := by simp [syncEnabled, h.on2, h.addrs2]
  addrs1 := h.addrs1
  secret := h.secret
  follows := by
    refine ⟨[], h.idle, List.forall_mem_nil _, ?_⟩
    have hseen : seenIds a1 s.s2 = ∅ := by
      ext x
      simp [seenIds, h.unseen]
    rw [hseen]
    exact Follows.start fun u => by simp [contents, h.blank]

theorem handlePacket_accepted {env : Env} {data : Bytes} {s : NatServer} {req : UuidReq}
    {extinfo : Bytes} (h : accepted env data s = some (req, extinfo)) (src : Addr) {a : Addr}
    (hon : s.syncOn = true) (haddr : s.syncAddrs = [a]) :
    Announced (announced env req extinfo src) ∧
      messagesTo a (handlePacket env data src s).2 =
        [message s.cfg.syncAuthSecret (announced env req extinfo src)] ∧
      contents (handlePacket env data src s).1.peers = if req.uuid = [] then contents s.peers
        else (toUpdate (announced env req extinfo src)).apply (contents s.peers) := by
  obtain ⟨msgId, p, enc, hread, hb, hgate⟩ := accepted_eq_some h
  obtain ⟨hu, hext⟩ := heartbeatOf_bounds hb
  have hpeers := congrArg Core.peers (handleHeartbeat_core env req extinfo src enc s)
  simp only [core, hgate, if_true] at hpeers
  rw [handlePacket_heartbeat hread hb, hpeers, contents_upsert hu hext]
  exact ⟨announced_ok hu hext, messagesTo_handleHeartbeat hgate hon haddr, rfl⟩

/-- The ways in which an announcement changes the server that receives it. -/
inductive Received (p : Peer) (a : Addr) (s : NatServer) : NatServer → Prop
  | ignored (he : p.uuid = []) : Received p a s s
  | dropped (he : p.uuid ≠ []) (hseen : (toUpdate p).id ∈ seenIds a s) : Received p a s s
  | stored {r : NatServer} (he : p.uuid ≠ [])
      (hcon : contents r.peers = (toUpdate p).apply (contents s.peers))
      (hsub : seenIds a r ⊆ insert (toUpdate p).id (seenIds a s)) : Received p a s r

theorem handleSyncEntry_received {p : Peer} (hp : Announced p) {s : NatServer}
    (hon : s.syncEnabled = true) {e : SyncPeerEntry} (hu : e.uuid = p.uuid) (hhop : e.hop = 1)
    (ht : e.hbTime = time32 p.lastHeartbeat)
    (hc : (⟨entryPub e, entryLan e, e.devType, e.nattype, p.extinfo⟩ : Content) = content p)
    (env : Env) (a : Addr) : Received p a s (handleSyncEntry env e p.extinfo a s).1 := by
  have hent := handleSyncEntry_entered env e p.extinfo a s
  generalize handleSyncEntry env e p.extinfo a s = r at hent ⊢
  cases hent with
  | ignored h =>
    rcases h with h | h
    · rw [hon] at h
      cases h
    · exact .ignored (hu ▸ h)
  | seen _ hne _ h =>
    have hm := mem_seenIds h
    rw [hu, ht] at hm
    exact .dropped (hu ▸ hne) hm
  | snapshot _ _ h =>
    rw [hhop] at h
    exact absurd h (by decide)
  | increment _ hne _ _ =>
    have hstored : contents (PacketCases.stored e p.extinfo s.peers) =
        if p.uuid = [] then contents s.peers else (toUpdate p).apply (contents s.peers) := by
      rw [PacketCases.stored, contents_upsertSynced (hu ▸ hp.short) hp.fits, hc, hu]
      rfl
    have hpu : p.uuid ≠ [] := hu ▸ hne
    rw [if_neg hpu] at hstored
    refine .stored hpu hstored ?_
    have hid : (toUpdate p).id = (e.uuid, e.hbTime) := by
      rw [hu, ht]
      rfl
    rw [hid]
    exact seenIds_noteSeen rfl

/-- An announcement is ignored, dropped as seen or stored. -/
theorem handlePacket_received {p : Peer} (hp : Announced p) {s : NatServer}
    (hon : s.syncEnabled = true) {data : Bytes} (hdata : data = message s.cfg.syncAuthSecret p)
    (env : Env) (a : Addr) : Received p a s (handlePacket env data a s).1 := by
  obtain ⟨e, he, hu, hhop, ht, hc⟩ := entryOf_message s.cfg.syncAuthSecret hp
  have hread := message_read s.cfg.syncAuthSecret p
  rw [← hdata] at hread
  rw [handlePacket_entry hread, onSyncPeerEntry_handed, he]
  exact handleSyncEntry_received hp hon hu hhop ht hc env a

theorem inv_heartbeat {a1 a2 : Addr} {s : State} (h : Inv a1 a2 s) {env : Env} {data : Bytes}
    {src : Addr} (hen : enabled s (.heartbeat env data src))
    (hok : Repeats s (.heartbeat env data src)) :
    Inv a1 a2 (next a1 a2 s (.heartbeat env data src)) := by
  obtain ⟨⟨req, extinfo⟩, hacc⟩ := Option.isSome_iff_exists.mp hen
  obtain ⟨hann, hout, hcon⟩ := handlePacket_accepted hacc src h.on1 h.addrs1
  have hset := (handlePacket_setup env data src s.s1).1
  obtain ⟨q, hlink, hq, hf⟩ := h.follows
  rw [h.secret] at hout
  have hcfg : (handlePacket env data src s.s1).1.cfg.syncAuthSecret = s.s1.cfg.syncAuthSecret := by
    rw [hset.cfg]
  refine ⟨hset.syncOn.trans h.on1, h.on2, hset.syncAddrs.trans h.addrs1, hcfg.trans h.secret,
    q ++ [announced env req extinfo src], ?_, ?_, ?_⟩
  · change s.link ++ messagesTo a2 (handlePacket env data src s.s1).2 = _
    rw [hout, hlink, List.map_append, List.map_cons, List.map_nil]
    rfl
  · intro p hp
    rcases List.mem_append.mp hp with hp | hp
    · exact hq p hp
    · exact List.mem_singleton.mp hp ▸ hann
  · have hsent : {x | x ∈ s.sent ++ (accepted env data s.s1).toList.map fun h =>
        (h.1.uuid, time32 env.now)} =
        insert (toUpdate (announced env req extinfo src)).id {x | x ∈ s.sent} := by
      ext x
      simp only [hacc, Option.toList_some, List.map_cons, List.map_nil, Set.mem_ofPred_eq,
        List.mem_append, List.mem_singleton, Set.mem_insert_iff]
      exact or_comm
    rw [updates_append, updates_singleton]
    simp only [next, hsent, hcon]
    by_cases he : req.uuid = []
    · have he' : (announced env req extinfo src).uuid = [] := he
      rw [if_pos he, if_pos he', List.append_nil]
      exact hf.sent_mono (Set.subset_insert _ _)
    · have he' : (announced env req extinfo src).uuid ≠ [] := he
      rw [if_neg he, if_neg he']
      exact hf.push fun hs => hok req extinfo hacc he hs

theorem next_deliver {a1 a2 : Addr} {s : State} {env : Env} {data : Bytes} {rest : List Bytes}
    (h : s.link = data :: rest) : next a1 a2 s (.deliver env) =
      { s with s2 := (handlePacket env data a1 s.s2).1, link := rest } := by
  simp only [next, h]

theorem inv_deliver {a1 a2 : Addr} {s : State} (h : Inv a1 a2 s) {env : Env}
    (hen : enabled s (.deliver env)) : Inv a1 a2 (next a1 a2 s (.deliver env)) := by
  obtain ⟨q, hlink, hq, hf⟩ := h.follows
  cases q with
  | nil => exact absurd hlink hen
  | cons p q =>
    rw [List.map_cons] at hlink
    obtain ⟨data, hdata⟩ : ∃ data, data = message s.s2.cfg.syncAuthSecret p := ⟨_, rfl⟩
    rw [← hdata] at hlink
    rw [next_deliver hlink]
    have hrec := handlePacket_received (hq p (.head _)) h.on2 hdata env a1
    have hset := (handlePacket_setup env data a1 s.s2).1
    have hcfg := congrArg CfgData.syncAuthSecret hset.cfg
    refine ⟨h.on1, hset.syncEnabled.trans h.on2, h.addrs1, h.secret.trans hcfg.symm, q, ?_,
      fun p hp => hq p (.tail _ hp), ?_⟩
    · dsimp only
      rw [hcfg]
    · dsimp only
      rw [updates_cons] at hf
      generalize (handlePacket env data a1 s.s2).1 = r at hrec ⊢
      cases hrec with
      | ignored he =>
        rw [if_pos he] at hf
        exact hf
      | dropped he hseen =>
        rw [if_neg he] at hf
        exact hf.drop hseen
      | stored he hcon hsub =>
        rw [if_neg he] at hf
        rw [hcon]
        exact hf.applied hsub

def Converged (s : State) : Prop :=
  ∀ (u : Bytes) (r : Peer), s.s1.peers.peers[u]? = some r →
    ∃ r', s.s2.peers.peers[u]? = some r' ∧ content r' = content r

/-- If the next entry on the link is dropped as seen, its content is there already. -/
def DropsOnlyKnown (a1 : Addr) (s : State) : Prop :=
  ∀ env data rest p e extinfo, s.link = data :: rest →
    readDatagram data = some (msgSyncPeerEntry, p) →
    entryOf s.s2.cfg.syncAuthSecret p = some (e, extinfo) → e.uuid ≠ [] →
    (seenSyncEntry env e.uuid e.hbTime a1 s.s2).1 = true →
    ∃ r, s.s2.peers.peers[e.uuid]? = some r ∧
      content r = ⟨entryPub e, entryLan e, e.devType, e.nattype, extinfo⟩

theorem Inv.converged {a1 a2 : Addr} {s : State} (h : Inv a1 a2 s) (hl : s.link = []) :
    Converged s := by
  obtain ⟨q, hlink, -, hf⟩ := h.follows
  rw [hl, eq_comm, List.map_eq_nil_iff] at hlink
  subst hlink
  intro u r hr
  have hc : contents s.s1.peers u = some (content r) := by
    rw [contents, hr]
    rfl
  obtain ⟨r', hr', hcr⟩ := Option.map_eq_some_iff.mp (hf.converged hc)
  exact ⟨r', hr', hcr⟩

theorem Inv.dropsOnlyKnown {a1 a2 : Addr} {s : State} (h : Inv a1 a2 s) : DropsOnlyKnown a1 s := by
  intro env data rest p e extinfo hl hread he hu hseen
  obtain ⟨q, hlink, hq, hf⟩ := h.follows
  cases q with
  | nil =>
    rw [hl] at hlink
    cases hlink
  | cons r q =>
    rw [hl, List.map_cons, List.cons.injEq] at hlink
    have hr := message_read s.s2.cfg.syncAuthSecret r
    rw [← hlink.1, hread, Option.some.injEq, Prod.mk.injEq] at hr
    obtain ⟨e', he', hu', -, ht', hc'⟩ := entryOf_message s.s2.cfg.syncAuthSecret (hq r (.head _))
    rw [← hr.2, he, Option.some.injEq, Prod.mk.injEq] at he'
    obtain ⟨rfl, rfl⟩ := he'
    have hm := mem_seenIds hseen
    rw [hu', ht'] at hm
    rw [updates_cons, if_neg (hu' ▸ hu)] at hf
    obtain ⟨r', hr', hcr⟩ := Option.map_eq_some_iff.mp (hf.dropped hm)
    exact ⟨r', hu' ▸ hr', hcr.trans hc'.symm⟩

/-- In every run in which a heartbeat in a used second repeats the present record: once the
link is empty, the servers agree on every uuid registered at the first, and what the second
drops as seen is already in its records. -/
theorem converges {a1 a2 : Addr} {s : State} (h : Reach (pair a1 a2) Repeats s) :
    (s.link = [] → Converged s) ∧ DropsOnlyKnown a1 s := by
  have hinv : Inv a1 a2 s := by
    refine Reach.invariant (S := pair a1 a2) (I := Inv a1 a2) (fun _ => inv_init) ?_ h
    intro s e hi hen hok
    cases e with
    | heartbeat => exact inv_heartbeat hi hen hok
    | deliver => exact inv_deliver hi hen
  exact ⟨hinv.converged, hinv.dropsOnlyKnown⟩

open Samples (addr1 addr2)

def startPair : State :=
  ⟨{ syncOn := true, syncAddrs := [addr2] }, { syncOn := true, syncAddrs := [addr1] }, [], []⟩

theorem startPair_initial : Initial addr1 addr2 startPair := ⟨rfl, rfl, rfl, rfl, rfl, rfl, rfl, rfl, rfl⟩

def beat (now : ℤ) (port : UInt16) : Event :=
  .heartbeat { now := now } (datagram msgHeartbeatReq (uuidField [0x75] ++ List.replicate 10 0))
    ⟨0xC0A80107, port⟩

instance (s : State) : (e : Event) → Decidable (enabled s e)
  | .heartbeat env data _ => inferInstanceAs (Decidable ((accepted env data s.s1).isSome = true))
  | .deliver _ => inferInstanceAs (Decidable (s.link ≠ []))

instance (s : State) (e : Event) : Decidable ((pair addr1 addr2).enabled s e) :=
  inferInstanceAs (Decidable (enabled s e))

theorem converges_beat : Converged ([beat 100 5000, .deliver { now := 100 }].foldl
    (next addr1 addr2) startPair) := by
  have h1 : Reach (pair addr1 addr2) Repeats (next addr1 addr2 startPair (beat 100 5000)) :=
    Reach.step (S := pair addr1 addr2) (e := beat 100 5000) (.start startPair_initial)
      (by decide +kernel : enabled startPair (beat 100 5000)) fun _ _ _ _ hm => by cases hm
  have h2 := Reach.step (S := pair addr1 addr2) (e := .deliver { now := 100 }) h1
    (by decide +kernel : enabled (next addr1 addr2 startPair (beat 100 5000)) (.deliver { now := 100 }))
    trivial
  exact (converges h2).1 (by decide +kernel)

/-- `u` moves to another port within a second. -/
def moved : List Event :=
  [beat 100 5000, beat 100 6000, .deliver { now := 100 }, .deliver { now := 100 }]

/-- The second heartbeat within a second never reaches the other server's records. -/
theorem moved_not_converged :
    ¬∀ s, Reachable (pair addr1 addr2) s → s.link = [] → Converged s := by
  intro h
  have hrun : Run (pair addr1 addr2) (fun _ _ => True) startPair moved :=
    ⟨by decide +kernel, trivial, by decide +kernel, trivial, by decide +kernel, trivial,
      by decide +kernel, trivial, trivial⟩
  have hc := h _ (Reach.run (.start startPair_initial) hrun) (by decide +kernel)
  obtain ⟨r, hr, hcr⟩ := hc [0x75]
    ⟨[0x75], ⟨0xC0A80107, 6000⟩, ⟨0xC0A80107, 0⟩, 0, 0, 100, 100, 0, 0, []⟩ (by decide +kernel)
  have hold : (moved.foldl (pair addr1 addr2).next startPair).s2.peers.peers[([0x75] : Bytes)]? =
      some ⟨[0x75], ⟨0xC0A80107, 5000⟩, ⟨0xC0A80107, 0⟩, 0, 0, 100, 100, 3700, 0, []⟩ := by
    decide +kernel
  rw [hold, Option.some.injEq] at hr
  subst hr
  exact absurd hcr (by decide)

end P2PServer.SyncConvergence
