import P2PServer.SyncOutputs

/-! A record on its way to another server: what is sent for it fits a datagram, is accepted under the
same secret, and is stored as it was. -/
namespace P2PServer.EntryTransport
open ByteStrings ProtoDef Net NatServer PeerManager PacketCases ServerRun SyncCluster EntryBytes SyncOutputs Transitions

/-- The receiver stores entries, and it has not handled this one from the same sender lately, unless it
belongs to a snapshot. -/
def Takes (env : Env) (r : NatServer) (p : Peer) (hop : UInt8) (src : Addr) : Prop :=
  r.syncEnabled = true ∧
    (hop = syncHopSnap ∨ (seenSyncEntry env p.uuid (time32 p.lastHeartbeat) src r).1 = false)

/-- A copy of the record; the time of the heartbeat has 32 bits. -/
structure CopyOf (p q : Peer) : Prop where
  uuid : q.uuid = p.uuid
  pubAddr : q.pubAddr = p.pubAddr
  lanAddr : q.lanAddr = p.lanAddr
  devType : q.devType = p.devType
  nattype : q.nattype = p.nattype
  extinfo : q.extinfo = p.extinfo
  lastHeartbeat : q.lastHeartbeat % 4294967296 = p.lastHeartbeat % 4294967296

/-- What is sent for the record fits a datagram and is accepted by the receiver. -/
def Accepted (s r : NatServer) (p : Peer) (hop : UInt8) (dst : Addr) (data : Bytes) : Prop :=
  (sendPeerEntry dst p hop s).2 = [.send dst data] ∧ data.length ≤ maxPkt ∧
    ∃ payload e, readDatagram data = some (msgSyncPeerEntry, payload) ∧
      entryOf r.cfg.syncAuthSecret payload = some (e, p.extinfo)

def Stored (env : Env) (r : NatServer) (p : Peer) (src : Addr) (data : Bytes) : Prop :=
  ∃ q, (handlePacket env data src r).1.peers.get p.uuid = some q ∧ CopyOf p q

/-- The representation invariant of a record under the key `u`. -/
structure Represented (u : Bytes) (p : Peer) : Prop where
  key : u = p.uuid
  named : 1 ≤ p.uuid.length
  short : p.uuid.length ≤ 32
  extlen : p.extlen.toNat = p.extinfo.length
  extinfo : p.extinfo.length ≤ 1024

theorem represented_of_proper {u : Bytes} {p : Peer} (h : Proper u p) : Represented u p := by
  have hne : u ≠ [] := by
    rintro rfl
    cases h.valid
  have hpos := List.length_pos_of_ne_nil hne
  have hshort : u.length ≤ 32 := h.short
  have hext : p.extinfo.length ≤ 1024 := h.extinfo
  refine ⟨h.uuid.symm, ?_, ?_, ?_, hext⟩
  · rw [h.uuid]
    exact hpos
  · rw [h.uuid]
    exact hshort
  · rw [h.extlen, UInt16.toNat_ofNat']
    omega

section
variable {p : Peer} {u : Bytes}

theorem entryBody_proper (h : Proper u p) (hop : UInt8) : entryBody p hop = peerEntryBytes p hop ++ p.extinfo := by
  have hrep := represented_of_proper h
  have hlen := hrep.extlen
  have hmax : maxExtinfo = 1024 := rfl
  have hext := hrep.extinfo
  rw [entryBody]
  split
  · rw [hlen, List.take_length]
  next hnone =>
    have hnil : p.extinfo = [] := List.length_eq_zero_iff.mp (by omega)
    rw [hnil]

def entryOfRecord (p : Peer) (hop : UInt8) : SyncPeerEntry where
  uuid := p.uuid
  pubIp := inetNtop p.pubAddr.ip
  pubPort := p.pubAddr.port
  lanIp := inetNtop p.lanAddr.ip
  lanPort := p.lanAddr.port
  devType := p.devType
  nattype := p.nattype
  hop := hop
  hbTime := time32 p.lastHeartbeat
  extlen := p.extlen
  raw := (peerEntryBytes p hop).set maxUuidLen 0

theorem read_entryBody (h : Proper u p) (hop : UInt8) : SyncPeerEntry.read (entryBody p hop) = entryOfRecord p hop := by
  have huuid : (cstr p.uuid).take maxUuidLen = p.uuid := by
    rw [h.uuid, h.text, List.take_of_length_le h.short]
  rw [entryBody_proper h, read_peerEntryBytes, huuid]
  rfl

theorem entryOf_entryBody (h : Proper u p) (hop : UInt8) (secret : Bytes) :
    entryOf secret (signed secret (entryBody p hop)) = some (entryOfRecord p hop, p.extinfo) := by
  have hrep := represented_of_proper h
  have hlen : (entryBody p hop).length = syncPeerEntrySize + p.extlen.toNat := by
    rw [entryBody_proper h, List.length_append, peerEntryBytes_length, hrep.extlen]
    rfl
  have hread := read_entryBody h hop
  have hdrop : (entryBody p hop).drop syncPeerEntrySize = p.extinfo := by
    rw [entryBody_proper h]
    exact List.drop_left' (peerEntryBytes_length p hop)
  have hextlen : (SyncPeerEntry.read (entryBody p hop)).extlen = p.extlen := by rw [hread]; rfl
  rw [entryOf_signed secret (by rw [hextlen]; exact hlen) (by rw [hextlen, hrep.extlen]; exact hrep.extinfo),
    hread, hdrop]

def entryDatagram (secret : Bytes) (p : Peer) (hop : UInt8) : Bytes :=
  datagram msgSyncPeerEntry (signed secret (entryBody p hop))

theorem entryDatagram_read (secret : Bytes) (p : Peer) (hop : UInt8) :
    readDatagram (entryDatagram secret p hop) = some (msgSyncPeerEntry, signed secret (entryBody p hop)) := by
  have hsigned := signed_entryBody_length secret p hop
  exact readDatagram_datagram _ (by omega)

theorem entryDatagram_length (secret : Bytes) (p : Peer) (hop : UInt8) :
    (entryDatagram secret p hop).length ≤ maxPkt := by
  have hsigned := signed_entryBody_length secret p hop
  rw [entryDatagram, datagram, List.length_append, Codec.codecWriteHead_length, maxPkt]
  omega

theorem accepted (h : Proper u p) (hop : UInt8) (dst : Addr) {s r : NatServer}
    (hsecret : r.cfg.syncAuthSecret = s.cfg.syncAuthSecret) :
    Accepted s r p hop dst (entryDatagram s.cfg.syncAuthSecret p hop) := by
  have hbody := (entryBody_length p hop).2
  refine ⟨?_, entryDatagram_length s.cfg.syncAuthSecret p hop, _, entryOfRecord p hop,
    entryDatagram_read s.cfg.syncAuthSecret p hop, ?_⟩
  · rw [sendPeerEntry_eq, syncOut_eq s.cfg.syncAuthSecret msgSyncPeerEntry (by omega)]
    rfl
  · rw [hsecret]
    exact entryOf_entryBody h hop s.cfg.syncAuthSecret

theorem entryPub_record (p : Peer) (hop : UInt8) : entryPub (entryOfRecord p hop) = p.pubAddr := by
  simp only [entryPub, entryOfRecord, inetPton_inetNtop, Option.getD_some]

theorem entryLan_record (p : Peer) (hop : UInt8) : entryLan (entryOfRecord p hop) = p.lanAddr := by
  simp only [entryLan, entryOfRecord, inetPton_inetNtop, Option.getD_some]

theorem keepExtinfo_proper (h : Proper u p) (old : Bytes) : keepExtinfo old p.extinfo = p.extinfo :=
  if_pos h.extinfo

theorem synced_copy (h : Proper u p) (hop : UInt8) {m : PeerManager} (hm : m.WellFiled) :
    CopyOf p (synced m.peers[p.uuid]? p.uuid (entryPub (entryOfRecord p hop)) (entryLan (entryOfRecord p hop))
      p.devType p.nattype p.extinfo (time32 p.lastHeartbeat).toNat) := by
  have htime : ((time32 p.lastHeartbeat).toNat : ℤ) % 4294967296 = p.lastHeartbeat % 4294967296 := by
    rw [time32, UInt32.toNat_ofNat']
    have hpos : 0 ≤ p.lastHeartbeat.emod 4294967296 := Int.emod_nonneg _ (by decide)
    have hlt : p.lastHeartbeat.emod 4294967296 < 4294967296 := Int.emod_lt_of_pos _ (by decide)
    change _ = p.lastHeartbeat.emod 4294967296
    omega
  rw [entryPub_record, entryLan_record]
  cases hold : m.peers[p.uuid]? with
  | none => exact ⟨rfl, rfl, rfl, rfl, rfl, keepExtinfo_proper h [], htime⟩
  | some old => exact ⟨(hm p.uuid old hold).uuid, rfl, rfl, rfl, rfl, keepExtinfo_proper h old.extinfo, htime⟩

theorem stored_copy (h : Proper u p) (hop : UInt8) {m : PeerManager} (hm : m.WellFiled) :
    ∃ q, (stored (entryOfRecord p hop) p.extinfo m).get p.uuid = some q ∧ CopyOf p q := by
  have hvalid : validUuid p.uuid = true := by
    rw [h.uuid]
    exact h.valid
  refine ⟨_, ?_, synced_copy h hop hm⟩
  exact (upsertSynced_get ..).trans (if_pos ⟨rfl, hvalid⟩)

theorem handlePacket_stored (h : Proper u p) {hop : UInt8} {env : Env} {src : Addr} {r : NatServer}
    (hr : r.peers.WellFiled) (htakes : Takes env r p hop src) :
    Stored env r p src (entryDatagram r.cfg.syncAuthSecret p hop) := by
  have hrep := represented_of_proper h
  have hnamed : p.uuid ≠ [] := List.ne_nil_of_length_pos hrep.named
  obtain ⟨hon, hfresh⟩ := htakes
  obtain ⟨q, hq, hcopy⟩ := stored_copy h hop hr
  refine ⟨q, ?_, hcopy⟩
  rw [handlePacket_entry (entryDatagram_read r.cfg.syncAuthSecret p hop), onSyncPeerEntry_handed,
    entryOf_entryBody h hop r.cfg.syncAuthSecret]
  dsimp only
  have hent := handleSyncEntry_entered env (entryOfRecord p hop) p.extinfo src r
  generalize handleSyncEntry env (entryOfRecord p hop) p.extinfo src r = out at hent ⊢
  cases hent with
  | ignored hoff =>
    rcases hoff with hoff | hoff
    · rw [hon] at hoff
      cases hoff
    · exact absurd hoff hnamed
  | seen _ _ hhop hseen =>
    rcases hfresh with hsnap | hfresh
    · exact absurd hsnap hhop
    · rw [show (entryOfRecord p hop).uuid = p.uuid from rfl,
        show (entryOfRecord p hop).hbTime = time32 p.lastHeartbeat from rfl, hfresh] at hseen
      cases hseen
  | snapshot => exact hq
  | increment => exact hq

end

/-- Every record of a server is well represented, and what it sends for the record is accepted by a
server with the same secret and stored there. -/
theorem transported {s : NatServer} (hs : Reachable (server Started) s) {u : Bytes} {p : Peer}
    (hp : s.peers.get u = some p) :
    Represented u p ∧ ∀ r, Reachable (server Started) r → r.cfg.syncAuthSecret = s.cfg.syncAuthSecret →
      ∀ (hop : UInt8) (dst : Addr) (env : Env) (src : Addr),
        Accepted s r p hop dst (entryDatagram s.cfg.syncAuthSecret p hop) ∧
          (Takes env r p hop src → Stored env r p src (entryDatagram s.cfg.syncAuthSecret p hop)) := by
  have hproper : Proper u p := wellFiled_reach (fun _ h0 => h0.wellFiled) hs u p hp
  refine ⟨represented_of_proper hproper, fun r hr hsecret hop dst env src => ⟨?_, fun htakes => ?_⟩⟩
  · exact accepted hproper hop dst hsecret
  · have hwell : r.peers.WellFiled := wellFiled_reach (fun _ h0 => h0.wellFiled) hr
    rw [← hsecret]
    exact handlePacket_stored hproper hwell htakes

open Samples (addr1 addr2 host)

def synced (secret : Bytes) (dst : Addr) : NatServer :=
  { cfg := { syncAuthSecret := secret }, syncOn := true, syncAddrs := [dst] }

theorem started_synced (secret : Bytes) (dst : Addr) : Reachable (server Started) (synced secret dst) :=
  Started.reachable ⟨rfl, rfl, rfl⟩

def heartbeat (uuid text : Bytes) : ServerRun.Event :=
  .packet { now := 90 } (datagram msgHeartbeatReq
    (uuidField uuid ++ [1, 0, 0, 0, 0, 0, 0, 1] ++ be16 (UInt16.ofNat text.length) ++ text)) host

def sender (secret : Bytes) : NatServer :=
  (step (step (synced secret addr2) (heartbeat [0x61] [0x63, 0x61, 0x6d])).1 (heartbeat [0x62] [])).1

theorem sender_reachable (secret : Bytes) : Reachable (server Started) (sender secret) :=
  reachable_step (reachable_step (started_synced _ _) _) _

def receiver (secret : Bytes) : NatServer := synced secret addr1

def record : Peer := ⟨[0x61], host, { host with port := 0 }, 1, 0, 90, 90, 0, 3, [0x63, 0x61, 0x6d]⟩

theorem transported_record :
    Represented [0x61] record ∧ Stored {} (receiver [0x6b]) record addr1 (entryDatagram [0x6b] record 1) := by
  have hrecord : (sender [0x6b]).peers.get [0x61] = some record := by decide +kernel
  have hsecret : (sender [0x6b]).cfg.syncAuthSecret = [0x6b] := by decide +kernel
  obtain ⟨hrep, hsent⟩ := transported (sender_reachable [0x6b]) hrecord
  have htakes : Takes {} (receiver [0x6b]) record 1 addr1 := ⟨by decide, .inr (by decide +kernel)⟩
  rw [hsecret] at hsent
  exact ⟨hrep, (hsent (receiver [0x6b]) (started_synced _ _) rfl 1 addr2 {} addr1).2 htakes⟩

/-- The receiver has the record, and is told to delete it. -/
def deleted : NatServer :=
  (step (step (receiver []) (.packet {} (entryDatagram [] record 1) addr1)).1
    (.packet {} (datagram msgSyncPeerDel (signed [] (syncPeerDel [0x61]))) addr1)).1

theorem deleted_reachable : Reachable (server Started) deleted :=
  reachable_step (reachable_step (started_synced _ _) _) _

/-- A server that does not synchronise stores nothing, and an entry that was seen is not stored again. -/
theorem not_stored :
    (¬∀ (s r : NatServer) (u : Bytes) (p : Peer) (hop : UInt8) (env : Env) (src : Addr),
      Reachable (server Started) s → Reachable (server Started) r → s.peers.get u = some p →
      r.cfg.syncAuthSecret = s.cfg.syncAuthSecret →
      Stored env r p src (entryDatagram s.cfg.syncAuthSecret p hop)) ∧
    ¬∀ (s r : NatServer) (u : Bytes) (p : Peer) (hop : UInt8) (env : Env) (src : Addr),
      Reachable (server Started) s → Reachable (server Started) r → s.peers.get u = some p →
      r.cfg.syncAuthSecret = s.cfg.syncAuthSecret → r.syncEnabled = true →
      Stored env r p src (entryDatagram s.cfg.syncAuthSecret p hop) := by
  constructor
  · intro h
    obtain ⟨q, hq, -⟩ := h (sender []) {} [0x61] record 1 {} addr1 (sender_reachable [])
      (Started.reachable ⟨rfl, rfl, rfl⟩) (by decide +kernel) (by decide +kernel)
    have hnone : (handlePacket {} (entryDatagram (sender []).cfg.syncAuthSecret record 1) addr1 {}).1.peers.get
        record.uuid = none := by decide +kernel
    rw [hnone] at hq
    cases hq
  · intro h
    obtain ⟨q, hq, -⟩ := h (sender []) deleted [0x61] record 1 {} addr1 (sender_reachable []) deleted_reachable
      (by decide +kernel) (by decide +kernel) (by decide +kernel)
    have hnone : (handlePacket {} (entryDatagram (sender []).cfg.syncAuthSecret record 1) addr1 deleted).1.peers.get
        record.uuid = none := by decide +kernel
    rw [hnone] at hq
    cases hq

end P2PServer.EntryTransport
