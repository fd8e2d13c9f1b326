import P2PServer.SyncCluster

/-! Deletions among synchronised servers. `handle_sync_del` forwards every deletion it
accepts to all sync peers but the sender, with no hop count and no record of what has
been seen, so whether deletions die out depends on the topology alone. -/
namespace P2PServer.SyncDeletion
open ByteStrings ProtoDef Net NatServer Effects SyncCluster Relation

variable {ι : Type}

structure State (ι : Type) where
  servers : ι → NatServer
  flight : Multiset Packet

/-- One packet in flight reaches the server at its destination, which handles it. -/
def Delivers [DecidableEq ι] (C : Cluster ι) (s s' : State ι) : Prop :=
  ∃ (env : Env) (j : ι) (p : Packet) (rest : Multiset Packet),
    s.flight = p ::ₘ rest ∧ p.dst = C.addr j ∧
    s' = ⟨Function.update s.servers j (handlePacket env p.data p.src (s.servers j)).1,
      rest + packets (C.addr j) (handlePacket env p.data p.src (s.servers j)).2⟩

def IsDeletion (p : Packet) : Prop := ∃ payload, readDatagram p.data = some (msgSyncPeerDel, payload)

/-- No run of deliveries alone goes on forever, whatever deletions are in flight. -/
def DiesOut [DecidableEq ι] (C : Cluster ι) (servers : ι → NatServer) : Prop :=
  ∀ flight : Multiset Packet, (∀ p ∈ flight, IsDeletion p) →
    ¬∃ run : ℕ → State ι, run 0 = ⟨servers, flight⟩ ∧ ∀ n, Delivers C (run n) (run (n + 1))

/-- A deletion of `uuid` that goes along the edge `e` is passed on along the edge `f`: the
receiver of `e` accepts what the sender of `e` signs and lists the receiver of `f`, which
is not the sender of `e`. -/
def passes (C : Cluster ι) (servers : ι → NatServer) (uuid : Bytes) (e f : ι × ι) : Prop :=
  f.1 = e.2 ∧ accepts (servers e.2) (deletion (servers e.1) uuid) = true ∧
    C.addr f.2 ∈ (servers e.2).syncAddrs ∧ f.2 ≠ e.1

/-- The packets that replace a delivered deletion. -/
def forwarded (C : Cluster ι) (s : NatServer) (j : ι) (src : Addr) (payload : Bytes) :
    List Packet :=
  if accepts s payload then
    (s.syncAddrs.filter fun a => a ≠ src).map fun a =>
      ⟨C.addr j, a, datagram msgSyncPeerDel (deletion s (uuidAt payload 0))⟩
  else []

theorem handlePacket_deletion {env : Env} {data payload : Bytes}
    (h : readDatagram data = some (msgSyncPeerDel, payload)) (src : Addr) :
    handlePacket env data src = onSyncPeerDel payload src := by
  unfold handlePacket
  rw [h]
  rfl

/-- A delivered deletion changes the registry of one server and is replaced by the
packets that this server forwards. -/
theorem delivers_cases [DecidableEq ι] (C : Cluster ι) {s s' : State ι}
    (hdel : ∀ p ∈ s.flight, IsDeletion p) (h : Delivers C s s') :
    ∃ (j : ι) (p : Packet) (payload : Bytes) (rest : Multiset Packet) (m : PeerManager),
      s.flight = p ::ₘ rest ∧ p.dst = C.addr j ∧
      readDatagram p.data = some (msgSyncPeerDel, payload) ∧
      s'.servers = Function.update s.servers j { s.servers j with peers := m } ∧
      s'.flight = rest + forwarded C (s.servers j) j p.src payload := by
  obtain ⟨env, j, p, rest, hf, hdst, rfl⟩ := h
  obtain ⟨payload, hread⟩ := hdel p (by simp [hf])
  rw [handlePacket_deletion hread, onSyncPeerDel_eq]
  by_cases ha : accepts (s.servers j) payload = true
  · refine ⟨j, p, payload, rest, _, hf, hdst, hread, by simp only [ha, if_true]; rfl, ?_⟩
    simp [forwarded, ha]
  · refine ⟨j, p, payload, rest, (s.servers j).peers, hf, hdst, hread, by simp [ha], ?_⟩
    simp [forwarded, ha, packets]

theorem mem_forwarded {C : Cluster ι} {s : NatServer} {j : ι} {src : Addr} {payload : Bytes}
    {p : Packet} : p ∈ forwarded C s j src payload ↔ accepts s payload = true ∧
      ∃ a ∈ s.syncAddrs, a ≠ src ∧
        p = ⟨C.addr j, a, datagram msgSyncPeerDel (deletion s (uuidAt payload 0))⟩ := by
  unfold forwarded
  by_cases ha : accepts s payload = true
  · simp only [ha, if_true, List.mem_map, List.mem_filter, decide_eq_true_eq, true_and]
    constructor
    · rintro ⟨a, ⟨hm, hne⟩, rfl⟩
      exact ⟨a, hm, hne, rfl⟩
    · rintro ⟨a, hm, hne, rfl⟩
      exact ⟨a, ⟨hm, hne⟩, rfl⟩
  · simp [ha]

/-- Forwarding keeps the uuid that is deleted. -/
theorem deletion_uuidAt (s s' : NatServer) (uuid : Bytes) :
    deletion s' (uuidAt (deletion s uuid) 0) = deletion s' uuid := by
  have h : ∃ rest, deletion s uuid = uuidField uuid ++ rest := by
    unfold deletion signed syncPeerDel
    split
    · exact ⟨[], (List.append_nil _).symm⟩
    · exact ⟨_, rfl⟩
  obtain ⟨rest, hr⟩ := h
  unfold deletion at hr ⊢
  rw [hr, uuidAt_uuidField]
  unfold syncPeerDel
  rw [uuidField_take]

theorem readDatagram_deletion (s : NatServer) (uuid : Bytes) :
    readDatagram (datagram msgSyncPeerDel (deletion s uuid)) =
      some (msgSyncPeerDel, deletion s uuid) := by
  apply readDatagram_datagram
  have h := signed_length_le s.cfg.syncAuthSecret (syncPeerDel uuid)
  simp only [syncPeerDel, uuidField_length] at h
  unfold deletion syncPeerDel
  omega

def edgePacket (C : Cluster ι) (servers : ι → NatServer) (uuid : Bytes) (e : ι × ι) : Packet :=
  ⟨C.addr e.1, C.addr e.2, datagram msgSyncPeerDel (deletion (servers e.1) uuid)⟩

/-- The delivery of `p` puts `p'` in flight. -/
def Spawns (C : Cluster ι) (servers : ι → NatServer) (p' p : Packet) : Prop :=
  ∃ (j : ι) (payload : Bytes), p.dst = C.addr j ∧
    readDatagram p.data = some (msgSyncPeerDel, payload) ∧
    p' ∈ forwarded C (servers j) j p.src payload

variable {C : Cluster ι} {servers : ι → NatServer}

/-- What the delivery on an edge puts in flight goes to an edge that the deletion
passes on to, or leaves the cluster. -/
theorem spawns_edgePacket {uuid : Bytes} {e : ι × ι} {p : Packet}
    (h : Spawns C servers p (edgePacket C servers uuid e)) :
    (∃ f, passes C servers uuid e f ∧ p = edgePacket C servers uuid f) ∨
      ∀ j, p.dst ≠ C.addr j := by
  obtain ⟨j, payload, hdst, hread, hp⟩ := h
  have hj : e.2 = j := C.addr_injective hdst
  simp only [edgePacket, readDatagram_deletion, Option.some.injEq, Prod.mk.injEq, true_and] at hread
  subst hj hread
  obtain ⟨ha, a, hm, hne, rfl⟩ := mem_forwarded.mp hp
  rw [deletion_uuidAt]
  by_cases hk : ∃ k, C.addr k = a
  · obtain ⟨k, rfl⟩ := hk
    refine .inl ⟨(e.2, k), ⟨rfl, ha, hm, ?_⟩, rfl⟩
    rintro rfl
    exact hne rfl
  · exact .inr fun k hc => hk ⟨k, hc.symm⟩

theorem acc_spawns_outside {p : Packet} (h : ∀ j, p.dst ≠ C.addr j) : Acc (Spawns C servers) p :=
  .intro p fun _ ⟨j, _, hdst, _⟩ => absurd hdst (h j)

theorem acc_spawns_edgePacket {uuid : Bytes} {e : ι × ι}
    (h : Acc (Function.swap (passes C servers uuid)) e) :
    Acc (Spawns C servers) (edgePacket C servers uuid e) := by
  induction h with
  | intro e _ ih =>
    refine .intro _ fun p hp => ?_
    rcases spawns_edgePacket hp with ⟨f, hf, rfl⟩ | hout
    · exact ih f hf
    · exact acc_spawns_outside hout

/-- Arbitrary deletions may start the run, but what they put in flight is signed by a
server of the cluster. -/
theorem wellFounded_spawns
    (h : ∀ uuid, WellFounded (Function.swap (passes C servers uuid))) :
    WellFounded (Spawns C servers) := by
  refine ⟨fun p => .intro p fun p' hp => ?_⟩
  obtain ⟨j, payload, hdst, hread, hp⟩ := hp
  obtain ⟨-, a, -, -, rfl⟩ := mem_forwarded.mp hp
  by_cases hk : ∃ k, C.addr k = a
  · obtain ⟨k, rfl⟩ := hk
    exact acc_spawns_edgePacket ((h (uuidAt payload 0)).apply (j, k))
  · exact acc_spawns_outside fun k hc => hk ⟨k, hc.symm⟩

/-- Only registries differ from the given servers, and only deletions are in flight. -/
structure OnlyDeletions (servers : ι → NatServer) (s : State ι) : Prop where
  config : ∀ i, ∃ m, s.servers i = { servers i with peers := m }
  deletions : ∀ p ∈ s.flight, IsDeletion p

theorem OnlyDeletions.delivers [DecidableEq ι] {s s' : State ι} (hs : OnlyDeletions servers s)
    (h : Delivers C s s') :
    OnlyDeletions servers s' ∧ CutExpand (Spawns C servers) s'.flight s.flight := by
  obtain ⟨j, p, payload, rest, m, hf, hdst, hread, hserv, hflight⟩ := delivers_cases C hs.deletions h
  obtain ⟨mj, hj⟩ := hs.config j
  have hfw : forwarded C (s.servers j) j p.src payload =
      forwarded C (servers j) j p.src payload := by
    rw [hj]
    rfl
  rw [hfw] at hflight
  refine ⟨⟨fun i => ?_, fun q hq => ?_⟩, ?_⟩
  · by_cases hi : i = j
    · subst hi
      exact ⟨m, by simp [hserv, hj]⟩
    · obtain ⟨mi, hmi⟩ := hs.config i
      exact ⟨mi, by simp [hserv, hi, hmi]⟩
  · rw [hflight, Multiset.mem_add] at hq
    rcases hq with hq | hq
    · exact hs.deletions q (by simp [hf, hq])
    · obtain ⟨-, a, -, -, rfl⟩ := mem_forwarded.mp (Multiset.mem_coe.mp hq)
      exact ⟨_, readDatagram_deletion _ _⟩
  · refine ⟨forwarded C (servers j) j p.src payload, p, fun q hq => ?_, ?_⟩
    · exact ⟨j, payload, hdst, hread, Multiset.mem_coe.mp hq⟩
    · rw [hflight, hf, ← Multiset.singleton_add p rest, add_comm, add_assoc]

theorem diesOut_of_wellFounded [DecidableEq ι]
    (h : ∀ uuid, WellFounded (Function.swap (passes C servers uuid))) : DiesOut C servers := by
  rintro flight hdel ⟨run, h0, hstep⟩
  have honly : ∀ n, OnlyDeletions servers (run n) := by
    intro n
    induction n with
    | zero => exact h0 ▸ ⟨fun i => ⟨_, rfl⟩, hdel⟩
    | succ n ih => exact (ih.delivers (hstep n)).1
  have hcut : ∀ n, CutExpand (Spawns C servers) (run (n + 1)).flight (run n).flight :=
    fun n => ((honly n).delivers (hstep n)).2
  have hwf := (wellFounded_spawns h).cutExpand
  exact (wellFounded_iff_isEmpty_descending_chain.mp hwf).false ⟨fun n => (run n).flight, hcut⟩

theorem exists_delivers [DecidableEq ι] {uuid : Bytes} {e f : ι × ι} {s : State ι}
    (hs : OnlyDeletions servers s) (he : edgePacket C servers uuid e ∈ s.flight)
    (h : passes C servers uuid e f) :
    ∃ s', Delivers C s s' ∧ edgePacket C servers uuid f ∈ s'.flight := by
  obtain ⟨rest, hrest⟩ := Multiset.exists_cons_of_mem he
  obtain ⟨m, hm⟩ := hs.config e.2
  obtain ⟨hf, hacc, haddr, hne⟩ := h
  refine ⟨_, ⟨{}, e.2, _, rest, hrest, rfl, rfl⟩, Multiset.mem_add.mpr (.inr ?_)⟩
  have hread := readDatagram_deletion (servers e.1) uuid
  have hacc' : accepts (s.servers e.2) (deletion (servers e.1) uuid) = true := by
    rw [hm]
    exact hacc
  simp only [edgePacket]
  rw [handlePacket_deletion hread, onSyncPeerDel_eq, if_pos hacc', packets_map_send,
    Multiset.mem_coe]
  refine List.mem_map.mpr ⟨C.addr f.2, List.mem_filter.mpr ⟨by rw [hm]; exact haddr, ?_⟩, ?_⟩
  · simpa using fun hc => hne (C.addr_injective hc)
  · rw [deletion_uuidAt, hm, hf, deletion_peers]

theorem acc_passes [DecidableEq ι] {s : State ι} (h : Acc (fun s' s => Delivers C s s') s) :
    OnlyDeletions servers s → ∀ {uuid : Bytes} {e : ι × ι},
      edgePacket C servers uuid e ∈ s.flight →
        Acc (Function.swap (passes C servers uuid)) e := by
  induction h with
  | intro s _ ih =>
    intro hs uuid e he
    refine .intro e fun f hf => ?_
    obtain ⟨s', hd, hf'⟩ := exists_delivers hs he hf
    exact ih s' hd (hs.delivers hd).1 hf'

theorem wellFounded_of_diesOut [DecidableEq ι] (h : DiesOut C servers) (uuid : Bytes) :
    WellFounded (Function.swap (passes C servers uuid)) := by
  refine ⟨fun e => ?_⟩
  have hdel : ∀ p ∈ ({edgePacket C servers uuid e} : Multiset Packet), IsDeletion p := by
    intro p hp
    rw [Multiset.mem_singleton] at hp
    exact hp ▸ ⟨_, readDatagram_deletion _ _⟩
  have hacc : Acc (fun s' s => Delivers C s s') ⟨servers, {edgePacket C servers uuid e}⟩ := by
    rw [acc_iff_isEmpty_descending_chain]
    exact ⟨fun ⟨run, h0, hrun⟩ => h _ hdel ⟨run, h0, hrun⟩⟩
  exact acc_passes hacc ⟨fun i => ⟨_, rfl⟩, hdel⟩ (Multiset.mem_singleton_self _)

/-- Among finitely many servers a relation without cycles is well founded. -/
theorem wellFounded_passes_iff [Finite ι] {uuid : Bytes} :
    WellFounded (Function.swap (passes C servers uuid)) ↔
      ∀ e, ¬TransGen (passes C servers uuid) e e := by
  constructor
  · intro h e hcyc
    exact h.transGen.irrefl.irrefl e (transGen_swap.mpr hcyc)
  · intro h
    have : Std.Irrefl (TransGen (Function.swap (passes C servers uuid))) :=
      ⟨fun e hcyc => h e (transGen_swap.mp hcyc)⟩
    exact Subrelation.wf (fun hr => TransGen.single hr)
      (Finite.wellFounded_of_trans_of_irrefl (TransGen (Function.swap (passes C servers uuid))))

/-- Deletions die out in a cluster if and only if none can go round: no deletion returns
to an edge it went along. -/
theorem diesOut_iff_acyclic [Fintype ι] [DecidableEq ι] (C : Cluster ι)
    (servers : ι → NatServer) :
    DiesOut C servers ↔ ∀ uuid e, ¬TransGen (passes C servers uuid) e e := by
  constructor
  · intro h uuid
    exact wellFounded_passes_iff.mp (wellFounded_of_diesOut h uuid)
  · intro h
    exact diesOut_of_wellFounded fun uuid => wellFounded_passes_iff.mpr (h uuid)

def mesh : Cluster (Fin 3) where
  addr i := ⟨UInt32.ofNat (0x0A000001 + i.val), 9000⟩
  addr_injective := by decide

def meshServer (i : Fin 3) : NatServer :=
  { cfg := { syncAuthSecret := [0x6b] }
    syncOn := true
    syncAddrs := ((List.finRange 3).filter (· ≠ i)).map mesh.addr }

theorem meshServer_passes {uuid : Bytes} {i j k : Fin 3} (hj : j ≠ k) (hk : k ≠ i) :
    passes mesh meshServer uuid (i, j) (j, k) := by
  refine ⟨rfl, ?_, ?_, hk⟩
  · have hv := syncVerify_signed [0x6b] (syncPeerDel uuid)
    have hl := length_le_signed [0x6b] (syncPeerDel uuid)
    have hn : (syncPeerDel uuid).length = syncPeerDelSize := uuidField_length uuid
    rw [hn] at hv hl
    have he : ∀ j, (meshServer j).syncEnabled = true := by decide
    unfold accepts deletion
    simp only [he, Bool.true_and, Bool.and_eq_true, decide_eq_true_eq]
    exact ⟨hl, hv⟩
  · refine List.mem_map_of_mem (List.mem_filter.mpr ⟨List.mem_finRange k, ?_⟩)
    simpa using hj.symm

/-- In a full mesh of three servers a single deletion circulates forever. -/
theorem mesh_not_diesOut : ¬DiesOut mesh meshServer := by
  intro h
  have h01 : passes mesh meshServer [0x75] (0, 1) (1, 2) := meshServer_passes (by decide) (by decide)
  have h12 : passes mesh meshServer [0x75] (1, 2) (2, 0) := meshServer_passes (by decide) (by decide)
  have h20 : passes mesh meshServer [0x75] (2, 0) (0, 1) := meshServer_passes (by decide) (by decide)
  exact wellFounded_passes_iff.mp (wellFounded_of_diesOut h [0x75]) (0, 1)
    (((TransGen.single h01).tail h12).tail h20)

end P2PServer.SyncDeletion
