import P2PServer.Gates

/-! The bytes of a sync entry: what is read back from an entry that a server writes and
from one that it passes on. -/
namespace P2PServer.EntryBytes
open ByteStrings ProtoDef Net NatServer SyncCluster Registry PacketCases Gates

/-- Two payloads that agree on the 79 bytes of an entry, apart from its hop count and the
byte after the uuid, hold the same entry otherwise. -/
theorem read_congr {p q : Bytes}
    (hw : ∀ i n, i + n ≤ 79 → (32 < i ∨ i + n ≤ 32) → (71 < i ∨ i + n ≤ 71) →
      window q i n = window p i n)
    (hb : ∀ i, i < 79 → i ≠ 32 → i ≠ 71 → byteAt q i = byteAt p i) :
    SyncPeerEntry.read q = { SyncPeerEntry.read p with
      hop := byteAt q 71, raw := (q.take syncPeerEntrySize).set maxUuidLen 0 } := by
  have hu : uuidAt q 0 = uuidAt p 0 := by
    unfold uuidAt textAt maxUuidLen
    rw [hw 0 32 (by omega) (by omega) (by omega)]
  have ht1 : textAt q 33 16 = textAt p 33 16 := by
    unfold textAt
    rw [hw 33 16 (by omega) (by omega) (by omega)]
  have ht2 : textAt q 51 16 = textAt p 51 16 := by
    unfold textAt
    rw [hw 51 16 (by omega) (by omega) (by omega)]
  have h16 : ∀ i, i + 1 < 79 → i ≠ 32 → i + 1 ≠ 32 → i ≠ 71 → i + 1 ≠ 71 →
      u16At q i = u16At p i := by
    intro i h1 h2 h3 h4 h5
    unfold u16At
    rw [hb i (by omega) h2 h4, hb (i + 1) h1 h3 h5]
  have h32 : u32At q 73 = u32At p 73 := by
    unfold u32At
    rw [hb 73 (by omega) (by omega) (by omega), hb 74 (by omega) (by omega) (by omega),
      hb 75 (by omega) (by omega) (by omega), hb 76 (by omega) (by omega) (by omega)]
  unfold SyncPeerEntry.read
  rw [hu, ht1, ht2, h32, h16 49 (by omega) (by omega) (by omega) (by omega) (by omega),
    h16 67 (by omega) (by omega) (by omega) (by omega) (by omega),
    h16 77 (by omega) (by omega) (by omega) (by omega) (by omega),
    hb 69 (by omega) (by omega) (by omega), hb 70 (by omega) (by omega) (by omega)]

theorem read_rewritten {p : Bytes} (hlen : 79 ≤ p.length) (hop : UInt8) (rest : Bytes) :
    SyncPeerEntry.read ((SyncPeerEntry.read p).raw.set 71 hop ++ rest) =
      { SyncPeerEntry.read p with hop := hop, raw := (SyncPeerEntry.read p).raw.set 71 hop } := by
  have hraw : (SyncPeerEntry.read p).raw = (p.take 79).set 32 0 := rfl
  have hl : ((p.take 79).set 32 0).length = 79 := by
    rw [List.length_set, List.length_take]
    omega
  have hl' : (((p.take 79).set 32 0).set 71 hop).length = 79 := by rw [List.length_set, hl]
  have hhop : byteAt (((p.take 79).set 32 0).set 71 hop ++ rest) 71 = hop := by
    rw [byteAt_append_left rest (by omega), byteAt_set_self (by omega)]
  have hset : ((((p.take 79).set 32 0).set 71 hop ++ rest).take syncPeerEntrySize).set maxUuidLen 0 =
      ((p.take 79).set 32 0).set 71 hop := by
    rw [syncPeerEntrySize, List.take_left' hl', maxUuidLen, List.set_comm _ _ (by omega),
      List.set_set]
  rw [hraw, read_congr (p := p), hhop, hset]
  · intro i n h1 h2 h3
    rw [window_append_left rest (by omega), window_set _ (by omega), window_set _ (by omega),
      window_take p (by omega)]
  · intro i h1 h2 h3
    rw [byteAt_append_left rest (by omega), byteAt_set_ne _ (by omega), byteAt_set_ne _ (by omega),
      byteAt_take h1]

theorem peerEntryBytes_length (p : Peer) (hop : UInt8) : (peerEntryBytes p hop).length = 79 := by
  simp [peerEntryBytes, ipField_length]

theorem read_peerEntryBytes (p : Peer) (hop : UInt8) (rest : Bytes) :
    SyncPeerEntry.read (peerEntryBytes p hop ++ rest) =
      { uuid := (cstr p.uuid).take maxUuidLen
        pubIp := inetNtop p.pubAddr.ip, pubPort := p.pubAddr.port
        lanIp := inetNtop p.lanAddr.ip, lanPort := p.lanAddr.port
        devType := p.devType, nattype := p.nattype, hop := hop
        hbTime := time32 p.lastHeartbeat, extlen := p.extlen
        raw := (peerEntryBytes p hop).set maxUuidLen 0 } := by
  have d0 : (peerEntryBytes p hop ++ rest).drop 0 = uuidField p.uuid ++ (ipField p.pubAddr.ip ++
      (be16 p.pubAddr.port ++ (ipField p.lanAddr.ip ++ (be16 p.lanAddr.port ++ (p.devType ::
        p.nattype :: hop :: 0 :: (be32 (time32 p.lastHeartbeat) ++ (be16 p.extlen ++ rest))))))) := by
    simp [peerEntryBytes, time32]
  have d33 := drop_past d0 (j := 33) (by rw [uuidField_length])
  have d49 := drop_past d33 (j := 49) (by rw [ipField_length])
  have d51 := drop_past d49 (j := 51) rfl
  have d67 := drop_past d51 (j := 67) (by rw [ipField_length])
  have d69 := drop_past d67 (j := 69) rfl
  have d70 := drop_past (a := [_]) d69 (j := 70) rfl
  have d71 := drop_past (a := [_]) d70 (j := 71) rfl
  have d73 : (peerEntryBytes p hop ++ rest).drop 73 =
      be32 (time32 p.lastHeartbeat) ++ (be16 p.extlen ++ rest) := drop_past (a := [_, _]) d71 rfl
  have d77 := drop_past d73 (j := 77) rfl
  have hu : uuidAt (peerEntryBytes p hop ++ rest) 0 = (cstr p.uuid).take maxUuidLen := by
    rw [List.drop_zero] at d0
    rw [d0, uuidAt_uuidField]
  have hraw : (peerEntryBytes p hop ++ rest).take syncPeerEntrySize = peerEntryBytes p hop :=
    List.take_left' (peerEntryBytes_length p hop)
  unfold SyncPeerEntry.read
  rw [hu, hraw, textAt_ipField d33, u16At_of_drop d49, textAt_ipField d51, u16At_of_drop d67,
    byteAt_of_drop d69, byteAt_of_drop d70, byteAt_of_drop d71, u32At_of_drop d73,
    u16At_of_drop d77]

theorem read_append {body : Bytes} (h : syncPeerEntrySize ≤ body.length) (rest : Bytes) :
    SyncPeerEntry.read (body ++ rest) = SyncPeerEntry.read body := by
  have hle : 79 ≤ body.length := h
  rw [read_congr (p := body)]
  · rw [byteAt_append_left rest (by omega), List.take_append_of_le_length h]
    rfl
  · intro i n h1 _ _
    exact window_append_left rest (by omega)
  · intro i h1 _ _
    exact byteAt_append_left rest (by omega)

theorem signed_eq (secret body : Bytes) : ∃ mac, signed secret body = body ++ mac := by
  unfold signed
  split
  · exact ⟨[], (List.append_nil body).symm⟩
  · exact ⟨_, rfl⟩

theorem read_signed (secret : Bytes) {body : Bytes} (h : syncPeerEntrySize ≤ body.length) :
    SyncPeerEntry.read (signed secret body) = SyncPeerEntry.read body := by
  obtain ⟨mac, hmac⟩ := signed_eq secret body
  rw [hmac, read_append h]

/-- A server takes an entry from the bytes that were signed. -/
theorem entryOf_signed (secret : Bytes) {body : Bytes}
    (hlen : body.length = syncPeerEntrySize + (SyncPeerEntry.read body).extlen.toNat)
    (hmax : (SyncPeerEntry.read body).extlen.toNat ≤ maxExtinfo) :
    entryOf secret (signed secret body) =
      some (SyncPeerEntry.read body, body.drop syncPeerEntrySize) := by
  obtain ⟨mac, hmac⟩ := signed_eq secret body
  have hread : SyncPeerEntry.read (signed secret body) = SyncPeerEntry.read body :=
    read_signed secret (by omega)
  refine entryOf_eq_some.mpr ⟨hread.symm, ?_, hmax, ?_, ?_⟩
  · rw [hmac, window_append_left mac (by omega), window, List.take_of_length_le]
    rw [List.length_drop]
    omega
  · rw [hmac, List.length_append]
    omega
  · rw [← hlen]
    exact syncVerify_signed secret body

theorem raw_length {p : Bytes} (h : syncPeerEntrySize ≤ p.length) (hop : UInt8) :
    ((SyncPeerEntry.read p).raw.set 71 hop).length = 79 := by
  have hle : 79 ≤ p.length := h
  rw [List.length_set]
  change ((p.take 79).set 32 0).length = 79
  rw [List.length_set, List.length_take]
  omega

theorem forwardedBody_length {secret p : Bytes} {e : SyncPeerEntry} {extinfo : Bytes}
    (h : entryOf secret p = some (e, extinfo)) (env : Env) :
    (forwardedBody env e extinfo).length = 79 + extinfo.length ∧ extinfo.length ≤ 1024 := by
  obtain ⟨rfl, rfl, hmax, hlen, -⟩ := entryOf_eq_some.mp h
  unfold forwardedBody
  constructor
  · rw [List.length_append, raw_length (by omega), List.length_map, List.length_range]
  · exact le_trans (List.length_take_le _ _) hmax

/-- A forwarded entry is the received one with one hop more, whatever stands for its text. -/
theorem read_forwardedBody {secret p : Bytes} {e : SyncPeerEntry} {extinfo : Bytes}
    (h : entryOf secret p = some (e, extinfo)) (env : Env) :
    SyncPeerEntry.read (forwardedBody env e extinfo) =
      { e with hop := e.hop + 1, raw := e.raw.set 71 (e.hop + 1) } := by
  obtain ⟨rfl, -, -, hlen, -⟩ := entryOf_eq_some.mp h
  have hle : 79 ≤ p.length := le_trans (Nat.le_add_right _ _) hlen
  exact read_rewritten hle _ _

end P2PServer.EntryBytes
