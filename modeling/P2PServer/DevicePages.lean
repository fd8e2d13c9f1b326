import P2PServer.Chunks
import P2PServer.Fields
import P2PServer.ServerRun

/-! Reading the device list page by page. The size of a page is limited to 100 entries where the
request is read, but a datagram has room for 39. -/
namespace P2PServer.DevicePages
open ByteStrings ProtoDef Net NatServer Chunks Transitions ServerRun

/-- What an entry says about a peer. -/
structure Listed where
  uuid : Bytes
  addr : Option Addr
  devType : UInt8
  deriving DecidableEq, Repr

def devListEntrySize : ℕ := 52

def Listed.read (e : Bytes) : Listed :=
  ⟨uuidAt e 0, (inetPton (textAt e 33 16)).map fun ip => ⟨ip, u16At e 49⟩, byteAt e 51⟩

def Listed.ofPeer (p : Peer) : Listed := ⟨p.uuid, some p.pubAddr, p.devType⟩

def total (rsp : Bytes) : ℕ := (u16At rsp 0).toNat

def count (rsp : Bytes) : ℕ := (u16At rsp 2).toNat

def entries (rsp : Bytes) : List Listed := (records devListEntrySize (count rsp) (rsp.drop 6)).map Listed.read

def devListReq (start want : ℕ) : Bytes :=
  datagram msgGetDevListReq (be16 (UInt16.ofNat start) ++ be16 (UInt16.ofNat want))

/-- One response, which carries as many entries as it says. -/
structure Answered (env : Env) (src : Addr) (s : NatServer) (want start : ℕ) (rsp : Bytes) : Prop where
  sent : handlePacket env (devListReq start want) src s = (s, [.send src (datagram msgGetDevListRsp rsp)])
  total : total rsp = s.peers.size
  carried : rsp.length = 6 + devListEntrySize * count rsp

/-- The requests for all pages of `want` entries are answered, and the answers list every peer. -/
def Paged (env : Env) (src : Addr) (s : NatServer) (want : ℕ) : Prop :=
  ∃ rsps : List Bytes, List.Forall₂ (Answered env src s want) (starts want s.peers.size) rsps ∧
    rsps.flatMap entries = s.peers.snapshot.map Listed.ofPeer

theorem devListEntry_length (p : Peer) : (devListEntry p).length = devListEntrySize := by
  simp [devListEntry, devListEntrySize, ipField_length]

theorem read_devListEntry {p : Peer} (htext : cstr p.uuid = p.uuid) (hshort : p.uuid.length ≤ maxUuidLen) :
    Listed.read (devListEntry p) = Listed.ofPeer p := by
  have d0 : (devListEntry p).drop 0 = uuidField p.uuid ++ (ipField p.pubAddr.ip ++
      (be16 p.pubAddr.port ++ (p.devType :: []))) := by simp [devListEntry]
  have d33 := drop_past d0 (j := 33) (by rw [uuidField_length])
  have d49 := drop_past d33 (j := 49) (by rw [ipField_length])
  have d51 := drop_past d49 (j := 51) rfl
  have hu : uuidAt (devListEntry p) 0 = p.uuid := by
    rw [List.drop_zero] at d0
    rw [d0, uuidAt_uuidField, htext, List.take_of_length_le hshort]
  rw [Listed.read, hu, textAt_ipField d33, inetPton_inetNtop, u16At_of_drop d49, byteAt_of_drop d51]
  rfl

def devListRsp (s : NatServer) (want start : ℕ) : Bytes :=
  be16 (UInt16.ofNat s.peers.snapshot.length) ++
    be16 (UInt16.ofNat (page s.peers.snapshot want start).length) ++ be16 (UInt16.ofNat start) ++
      ((page s.peers.snapshot want start).map devListEntry).flatten

theorem snapshot_length (m : PeerManager) : m.snapshot.length = m.size := by
  rw [PeerManager.snapshot, TreeMaps.values_eq, List.length_map, Std.ExtTreeMap.length_toList, PeerManager.size]

section
variable {env : Env} {src : Addr} {s : NatServer} {want start : ℕ}

theorem handlePacket_devList {data p : Bytes} (hread : readDatagram data = some (msgGetDevListReq, p)) :
    handlePacket env data src s = onGetDevListReq p src s := by
  rw [handlePacket_read hread, dispatch, if_neg (by decide), if_neg (by decide), if_neg (by decide),
    if_neg (by decide), if_neg (by decide), if_pos rfl]

theorem handlePacket_devListReq (h1 : 1 ≤ want) (h100 : want ≤ 100) (hstart : start < 65536) :
    handlePacket env (devListReq start want) src s =
      sendMsg src msgGetDevListRsp (devListRsp s want start) s := by
  have hread : readDatagram (devListReq start want) =
      some (msgGetDevListReq, be16 (UInt16.ofNat start) ++ be16 (UInt16.ofNat want)) :=
    readDatagram_datagram _ (by simp)
  have d0 : (be16 (UInt16.ofNat start) ++ be16 (UInt16.ofNat want)).drop 0 =
      be16 (UInt16.ofNat start) ++ be16 (UInt16.ofNat want) := rfl
  have d2 : (be16 (UInt16.ofNat start) ++ be16 (UInt16.ofNat want)).drop 2 = be16 (UInt16.ofNat want) ++ [] := rfl
  have hstart' : (UInt16.ofNat start).toNat = start := by
    rw [UInt16.toNat_ofNat']
    omega
  have hwant : (UInt16.ofNat want).toNat = want := by
    rw [UInt16.toNat_ofNat']
    omega
  have hkeep : ¬(UInt16.ofNat want = 0 ∨ UInt16.ofNat want > 100) := by
    rintro (h | h)
    · have h0 := congrArg UInt16.toNat h
      rw [hwant] at h0
      exact absurd h0 (by change want ≠ 0; omega)
    · rw [gt_iff_lt, UInt16.lt_iff_toNat_lt, hwant] at h
      exact absurd h (by change ¬100 < want; omega)
  rw [handlePacket_devList hread]
  unfold onGetDevListReq
  rw [u16At_of_drop d0, u16At_of_drop d2, if_pos (by simp), if_pos (by simp)]
  dsimp only
  rw [if_neg hkeep, hstart', hwant]
  rfl

theorem devListRsp_length (s : NatServer) (want start : ℕ) :
    (devListRsp s want start).length = 6 + devListEntrySize * (page s.peers.snapshot want start).length := by
  have hflat := length_flatten devListEntrySize ((page s.peers.snapshot want start).map devListEntry)
    fun r hr => by obtain ⟨p, -, rfl⟩ := List.mem_map.mp hr; exact devListEntry_length p
  rw [List.length_map] at hflat
  simp only [devListRsp, List.length_append, be16_length, hflat]

theorem answered_of_fits (env : Env) (src : Addr) (hwell : s.peers.WellFiled) (hn : s.peers.size ≤ 65535) (h1 : 1 ≤ want)
    (h100 : want ≤ 100) (hstart : start < s.peers.size)
    (hfit : (page s.peers.snapshot want start).length ≤ 39) :
    Answered env src s want start (devListRsp s want start) ∧
      entries (devListRsp s want start) = (page s.peers.snapshot want start).map Listed.ofPeer := by
  have hlen := devListRsp_length s want start
  have hsize : devListEntrySize = 52 := rfl
  have hmax : maxPkt = 2048 := rfl
  have d0 : (devListRsp s want start).drop 0 = be16 (UInt16.ofNat s.peers.snapshot.length) ++
      (be16 (UInt16.ofNat (page s.peers.snapshot want start).length) ++ (be16 (UInt16.ofNat start) ++
        ((page s.peers.snapshot want start).map devListEntry).flatten)) := by
    simp [devListRsp]
  have d2 := drop_past d0 (j := 2) rfl
  have d4 := drop_past d2 (j := 4) rfl
  have d6 := drop_past d4 (j := 6) rfl
  have hcount : count (devListRsp s want start) = (page s.peers.snapshot want start).length := by
    rw [count, u16At_of_drop d2, UInt16.toNat_ofNat']
    omega
  refine ⟨⟨?_, ?_, ?_⟩, ?_⟩
  · rw [hsize] at hlen
    rw [handlePacket_devListReq h1 h100 (by omega), sendMsg, if_neg (by omega)]
    rfl
  · rw [total, u16At_of_drop d0, UInt16.toNat_ofNat', snapshot_length]
    omega
  · rw [hlen, hcount]
  · have hrec := records_flatten devListEntrySize ((page s.peers.snapshot want start).map devListEntry)
      fun r hr => by obtain ⟨p, -, rfl⟩ := List.mem_map.mp hr; exact devListEntry_length p
    rw [List.length_map] at hrec
    rw [entries, hcount, d6, hrec, List.map_map]
    refine List.map_congr_left fun p hp => ?_
    have hsnap : p ∈ s.peers.snapshot := List.mem_of_mem_drop (List.mem_of_mem_take hp)
    obtain ⟨u, hu⟩ := TreeMaps.mem_values hsnap
    have hproper := hwell u p hu
    have htext : cstr p.uuid = p.uuid := by rw [hproper.uuid, hproper.text]
    have hshort : p.uuid.length ≤ maxUuidLen := by
      rw [hproper.uuid]
      exact hproper.short
    exact read_devListEntry htext hshort

end

/-- A page of more than 39 entries is not sent. -/
theorem short_of_paged {s : NatServer} {want : ℕ} (h1 : 1 ≤ want) (h100 : want ≤ 100) {env : Env} {src : Addr}
    (h : Paged env src s want) : want ≤ 39 ∨ s.peers.size ≤ 39 := by
  obtain ⟨rsps, hanswered, -⟩ := h
  have hsnap := snapshot_length s.peers
  by_contra! hlong
  obtain ⟨rest, hrest⟩ := starts_cons (w := want) (n := s.peers.size) (by omega)
  rw [hrest] at hanswered
  obtain ⟨rsp, rsps', hfirst, -, -⟩ := List.forall₂_cons_left_iff.mp hanswered
  have hsent := hfirst.sent
  have hlen := devListRsp_length s want 0
  have hsize : devListEntrySize = 52 := rfl
  have hmax : maxPkt = 2048 := rfl
  rw [page_length, hsnap, hsize] at hlen
  rw [handlePacket_devListReq h1 h100 (by omega), sendMsg, if_pos (by omega)] at hsent
  cases congrArg Prod.snd hsent

/-- The device list can be read page by page exactly if no page has more than 39 entries. -/
theorem paged_iff {s : NatServer} (hs : Reachable (server Started) s) (hn : s.peers.size ≤ 65535) {want : ℕ}
    (h1 : 1 ≤ want) (h100 : want ≤ 100) (env : Env) (src : Addr) :
    Paged env src s want ↔ want ≤ 39 ∨ s.peers.size ≤ 39 := by
  have hwell : s.peers.WellFiled := wellFiled_reach (fun _ h => h.wellFiled) hs
  have hsnap := snapshot_length s.peers
  refine ⟨short_of_paged h1 h100, fun hfit => ?_⟩
  have hpage : ∀ start ∈ starts want s.peers.size, (page s.peers.snapshot want start).length ≤ 39 := by
    intro start _
    rw [page_length, hsnap]
    omega
  refine ⟨(starts want s.peers.size).map (devListRsp s want), ?_, ?_⟩
  · rw [List.forall₂_map_right_iff, List.forall₂_same]
    exact fun start hstart =>
      (answered_of_fits env src hwell hn h1 h100 (starts_lt hstart) (hpage start hstart)).1
  · rw [List.flatMap_map, ← hsnap]
    conv_rhs => rw [← flatMap_page (l := s.peers.snapshot) (w := want) h1]
    rw [List.map_flatMap, hsnap]
    refine List.flatMap_congr fun start hstart => ?_
    exact (answered_of_fits env src hwell hn h1 h100 (starts_lt hstart) (hpage start hstart)).2

def deviceReq (n : ℕ) : Bytes := uuidField [UInt8.ofNat (n + 1)] ++ [1, 0, 0, 0, 0, 0, 0, 1, 0, 0]

def deviceHeartbeat (n : ℕ) : Event :=
  .packet {} (datagram msgHeartbeatReq (deviceReq n)) ⟨0x0A000001, 5000⟩

def devices (n : ℕ) : NatServer := (List.range n).foldl (fun s i => (step s (deviceHeartbeat i)).1) {}

theorem devices_succ (n : ℕ) : devices (n + 1) = (step (devices n) (deviceHeartbeat n)).1 := by
  rw [devices, List.range_succ, List.foldl_append, List.foldl_cons, List.foldl_nil, devices]

theorem devices_reachable (n : ℕ) : Reachable (server Started) (devices n) := by
  induction n with
  | zero => exact Started.reachable ⟨rfl, rfl, rfl⟩
  | succ n ih =>
    rw [devices_succ]
    exact reachable_step ih _

/-- The first `n` devices have registered with a server that asks nobody for a login. -/
structure Fleet (n : ℕ) (s : NatServer) : Prop where
  cfg : s.cfg = {}
  abuse : s.abuse = {}
  size : s.peers.size = n
  absent : ∀ k, n ≤ k → k < 255 → s.peers.peers[[UInt8.ofNat (k + 1)]]? = none

theorem device_ne {n k : ℕ} (hn : n < 255) (hk : k < 255) (h : n ≠ k) :
    UInt8.ofNat (n + 1) ≠ UInt8.ofNat (k + 1) := by
  intro he
  have heq := congrArg UInt8.toNat he
  rw [UInt8.toNat_ofNat', UInt8.toNat_ofNat'] at heq
  omega

theorem device_ne_zero {n : ℕ} (hn : n < 255) : UInt8.ofNat (n + 1) ≠ 0 := by
  intro h0
  have hz := congrArg UInt8.toNat h0
  rw [UInt8.toNat_ofNat'] at hz
  change (n + 1) % 256 = 0 at hz
  omega

theorem read_deviceReq {n : ℕ} (hn : n < 255) : (UuidReq.read (deviceReq n)).uuid = [UInt8.ofNat (n + 1)] := by
  have hne := device_ne_zero hn
  generalize hb : UInt8.ofNat (n + 1) = b at hne
  have hfield : uuidField [b] = b :: List.replicate 32 0 := by
    simp [uuidField, field, cstr, hne, maxUuidLen]
  rw [UuidReq.uuid, UuidReq.read, deviceReq, hb, hfield]
  simp [cstr, hne, maxUuidLen]

theorem handleHeartbeat_open {env : Env} {req : UuidReq} {extinfo : Bytes} {src : Addr} {enc : Option Bytes}
    {s : NatServer} (h : heartbeatGate env req.uuid s = (0, s)) :
    (handleHeartbeat env req extinfo src enc s).1 = { s with
      peers := (s.peers.upsert req.uuid src { src with port := req.lanPort } req.devType req.nattype
        extinfo env.now).2 } := by
  unfold handleHeartbeat
  simp only [h, ne_eq, not_true_eq_false, if_false, Effects.andThen, Effects.modify,
    Registry.broadcastPeerEntry_fst, Registry.sendHeartbeatRsp_fst]

theorem Fleet.next {n : ℕ} {s : NatServer} (h : Fleet n s) (hn : n < 255) :
    Fleet (n + 1) (step s (deviceHeartbeat n)).1 := by
  have hread : readDatagram (datagram msgHeartbeatReq (deviceReq n)) = some (msgHeartbeatReq, deviceReq n) :=
    readDatagram_datagram _ (by simp [deviceReq])
  have hlong : ¬(deviceReq n).length < uuidReqSize := by
    simp [deviceReq, uuidReqSize]
  have hgate : heartbeatGate {} [UInt8.ofNat (n + 1)] s = (0, s) := by
    obtain ⟨cfg, _, _, _, _, _, abuse, _, _, _, _, _, _, _, _, _⟩ := s
    obtain rfl : cfg = {} := h.cfg
    obtain rfl : abuse = {} := h.abuse
    rfl
  have hstep : ∃ ext, (step s (deviceHeartbeat n)).1 =
      (handleHeartbeat {} (UuidReq.read (deviceReq n)) ext ⟨0x0A000001, 5000⟩ none s).1 := by
    rw [deviceHeartbeat, step, handlePacket_read hread]
    change ∃ ext, (onHeartbeatReq _ _ _ _).1 = _
    rw [onHeartbeatReq, if_neg hlong]
    exact ⟨_, rfl⟩
  obtain ⟨ext, hstep⟩ := hstep
  rw [handleHeartbeat_open (by rw [read_deviceReq hn]; exact hgate), read_deviceReq hn] at hstep
  rw [hstep]
  have habsent : s.peers.peers.contains [UInt8.ofNat (n + 1)] = false := by
    rw [Std.ExtTreeMap.contains_eq_isSome_getElem?, h.absent n le_rfl hn]
    rfl
  refine ⟨h.cfg, h.abuse, ?_, fun k hk hk255 => ?_⟩
  · change Std.ExtTreeMap.size (PeerManager.peers (PeerManager.upsert _ _ _ _ _ _ _ _).2) = n + 1
    rw [PeerManager.upsert, if_neg (by simp [PeerManager.validUuid, maxUuidLen])]
    dsimp only
    rw [Std.ExtTreeMap.size_insert, habsent, if_neg Bool.false_ne_true]
    exact congrArg (· + 1) h.size
  · change (PeerManager.peers (PeerManager.upsert _ _ _ _ _ _ _ _).2)[[UInt8.ofNat (k + 1)]]? = none
    rw [PeerManager.upsert_get, if_neg]
    · exact h.absent k (by omega) hk255
    · rintro ⟨he, -⟩
      exact device_ne hk255 hn (by omega) (List.singleton_inj.mp he)

theorem devices_fleet {n : ℕ} (hn : n ≤ 255) : Fleet n (devices n) := by
  induction n with
  | zero => exact ⟨rfl, rfl, rfl, fun k _ _ => rfl⟩
  | succ n ih =>
    rw [devices_succ]
    exact (ih (by omega)).next (by omega)

/-- Of 40 devices 39 are on the first page and one is on the second. -/
theorem paged_devices : Paged {} ⟨0x0A000001, 5000⟩ (devices 40) 39 := by
  have hsize := (devices_fleet (n := 40) (by omega)).size
  exact (paged_iff (devices_reachable 40) (by omega) (by decide) (by decide) {} ⟨0x0A000001, 5000⟩).mpr (.inl le_rfl)

/-- A page of 40 entries is not sent. -/
theorem not_paged : ¬∀ (s : NatServer) (want : ℕ) (env : Env) (src : Addr), Reachable (server Started) s →
    s.peers.size ≤ 65535 → 1 ≤ want → want ≤ 100 → Paged env src s want := by
  intro h
  have hsize := (devices_fleet (n := 40) (by omega)).size
  have hpaged := h (devices 40) 40 {} ⟨0x0A000001, 5000⟩ (devices_reachable 40) (by omega) (by decide) (by decide)
  have hshort := short_of_paged (by decide) (by decide) hpaged
  rw [hsize] at hshort
  exact absurd hshort (by decide)

end P2PServer.DevicePages
