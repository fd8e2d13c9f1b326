import P2PServer.SyncDeletion
import P2PServer.SyncOutputs

/-! Entries and snapshot requests among synchronised servers. A request is answered with
entries that go no further, and an entry is forwarded only while its hop count is below
`SYNC_HOP_MAX`, so both die out on every topology. -/
namespace P2PServer.SyncEntries
open ByteStrings ProtoDef Net NatServer SyncCluster SyncDeletion PacketCases ServerRun SyncOutputs
open EntryBytes Relation

variable {ι : Type}

def IsEntry (hop : UInt8) (p : Packet) : Prop :=
  ∃ payload, readDatagram p.data = some (msgSyncPeerEntry, payload) ∧
    (SyncPeerEntry.read payload).hop = hop

def IsRequest (p : Packet) : Prop :=
  ∃ payload, readDatagram p.data = some (msgSyncSnapshotReq, payload)

def Spreads (p : Packet) : Prop := (∃ hop, IsEntry hop p) ∨ IsRequest p

/-- The server at the destination of `p`, in whatever state it is, puts `q` on the network
when it handles `p`. -/
def Causes (C : Cluster ι) (p q : Packet) : Prop :=
  ∃ (env : Env) (j : ι) (s : NatServer), p.dst = C.addr j ∧
    q ∈ packets (C.addr j) (handlePacket env p.data p.src s).2

/-- How many further packets in a row an entry with this hop count can cause. -/
def reach (hop : UInt8) : ℕ := if hop < syncHopMax then 3 - hop.toNat else 0

/-- What decreases along every delivery. -/
def rank (p : Packet) : ℕ :=
  match readDatagram p.data with
  | some (msgId, payload) =>
    if msgId = msgSyncPeerEntry then reach (SyncPeerEntry.read payload).hop + 1 else 5
  | none => 0

theorem IsEntry.rank {hop : UInt8} {p : Packet} (h : IsEntry hop p) : rank p = reach hop + 1 := by
  obtain ⟨payload, hread, rfl⟩ := h
  simp only [SyncEntries.rank, hread, if_true]

theorem IsRequest.rank {p : Packet} (h : IsRequest p) : rank p = 5 := by
  obtain ⟨payload, hread⟩ := h
  have hne : msgSyncSnapshotReq ≠ msgSyncPeerEntry := by decide
  simp only [SyncEntries.rank, hread, if_neg hne]

theorem reach_le (hop : UInt8) : reach hop ≤ 3 := by
  unfold reach
  split <;> omega

theorem reach_succ {hop : UInt8} (h : hop < syncHopMax) : reach (hop + 1) + 1 = reach hop := by
  have hlt : hop.toNat < 3 := UInt8.lt_iff_toNat_lt.mp h
  have hsucc : (hop + 1).toNat = hop.toNat + 1 := by
    rw [UInt8.toNat_add]
    change (hop.toNat + 1) % 256 = _
    omega
  unfold reach
  rw [if_pos h, hsucc]
  split
  · omega
  · rename_i hge
    have : 3 ≤ (hop + 1).toNat := by
      rw [UInt8.lt_iff_toNat_lt] at hge
      change ¬(hop + 1).toNat < 3 at hge
      omega
    omega

theorem IsEntry.causes {C : Cluster ι} {hop : UInt8} {p q : Packet} (h : IsEntry hop p)
    (hc : Causes C p q) : hop < syncHopMax ∧ IsEntry (hop + 1) q := by
  obtain ⟨payload, hread, rfl⟩ := h
  obtain ⟨env, j, s, -, hq⟩ := hc
  have ho := mem_packets hq
  rw [handlePacket_entry hread, onSyncPeerEntry_handed] at ho
  cases he : entryOf s.cfg.syncAuthSecret payload with
  | none =>
    rw [he] at ho
    cases ho
  | some r =>
    obtain ⟨e, extinfo⟩ := r
    rw [he] at ho
    obtain ⟨hhop, ho⟩ := handleSyncEntry_sends _ ho
    obtain ⟨a, -, -, ho⟩ := mem_broadcastOut.mp ho
    obtain ⟨hsend, hrd⟩ := mem_syncOut ho
    rw [Out.send.injEq] at hsend
    have hr := (entryOf_eq_some.mp he).1
    have hlen : syncPeerEntrySize ≤ (forwardedBody env e extinfo).length := by
      rw [(forwardedBody_length he env).1]
      exact Nat.le_add_right _ _
    refine ⟨hr ▸ hhop, _, hsend.2 ▸ hrd, ?_⟩
    rw [read_signed _ hlen, read_forwardedBody he env, hr]

theorem IsRequest.causes {C : Cluster ι} {p q : Packet} (h : IsRequest p) (hc : Causes C p q) :
    IsEntry syncHopSnap q := by
  obtain ⟨payload, hread⟩ := h
  obtain ⟨env, j, s, -, hq⟩ := hc
  have ho := mem_packets hq
  rw [handlePacket_request hread, onSyncSnapshotReq_handed] at ho
  cases hs : snapshotOf s.cfg.syncAuthSecret env.now payload with
  | none =>
    rw [hs] at ho
    cases ho
  | some ts =>
    rw [hs] at ho
    obtain ⟨r, -, ho⟩ := handleSyncSnapshotReq_sends _ ho
    obtain ⟨hsend, hrd⟩ := mem_syncOut ho
    rw [Out.send.injEq] at hsend
    refine ⟨_, hsend.2 ▸ hrd, ?_⟩
    rw [read_signed _ (entryBody_length r syncHopSnap).1, entryBody, read_peerEntryBytes]

theorem Spreads.causes {C : Cluster ι} {p q : Packet} (h : Spreads p) (hc : Causes C p q) :
    Spreads q ∧ rank q < rank p := by
  rcases h with ⟨hop, h⟩ | h
  · obtain ⟨hhop, hq⟩ := h.causes hc
    refine ⟨.inl ⟨_, hq⟩, ?_⟩
    rw [h.rank, hq.rank]
    have := reach_succ hhop
    omega
  · have hq := h.causes hc
    refine ⟨.inl ⟨_, hq⟩, ?_⟩
    rw [h.rank, hq.rank]
    have := reach_le syncHopSnap
    omega

theorem spreads_delivers [DecidableEq ι] {C : Cluster ι} {s s' : State ι}
    (hs : ∀ p ∈ s.flight, Spreads p) (h : Delivers C s s') :
    (∀ p ∈ s'.flight, Spreads p) ∧
      CutExpand (InvImage (· < ·) rank) s'.flight s.flight := by
  obtain ⟨env, j, p, rest, hf, hdst, rfl⟩ := h
  have hp : Spreads p := hs p (by rw [hf]; exact Multiset.mem_cons_self p rest)
  have hcause : ∀ q ∈ packets (C.addr j) (handlePacket env p.data p.src (s.servers j)).2,
      Spreads q ∧ rank q < rank p := fun q hq => hp.causes ⟨env, j, s.servers j, hdst, hq⟩
  constructor
  · intro q hq
    rcases Multiset.mem_add.mp hq with hq | hq
    · exact hs q (by rw [hf]; exact Multiset.mem_cons_of_mem hq)
    · exact (hcause q (Multiset.mem_coe.mp hq)).1
  · refine ⟨packets (C.addr j) (handlePacket env p.data p.src (s.servers j)).2, p,
      fun q hq => (hcause q (Multiset.mem_coe.mp hq)).2, ?_⟩
    rw [hf, ← Multiset.singleton_add p rest, add_comm, add_assoc]

theorem no_infinite_run [DecidableEq ι] (C : Cluster ι) {run : ℕ → State ι}
    (h0 : ∀ p ∈ (run 0).flight, Spreads p) : ¬∀ n, Delivers C (run n) (run (n + 1)) := by
  intro hstep
  have hspreads : ∀ n, ∀ p ∈ (run n).flight, Spreads p := by
    intro n
    induction n with
    | zero => exact h0
    | succ n ih => exact (spreads_delivers ih (hstep n)).1
  have hwf : WellFounded (CutExpand (InvImage (· < ·) rank)) :=
    (InvImage.wf rank wellFounded_lt).cutExpand
  exact (wellFounded_iff_isEmpty_descending_chain.mp hwf).false
    ⟨fun n => (run n).flight, fun n => (spreads_delivers (hspreads n) (hstep n)).2⟩

/-- A chain of packets, each caused by the one before, is as long as its hop count allows. -/
theorem chain_length_le {C : Cluster ι} {p : Packet} {route : List Packet}
    (h : (p :: route).IsChain (Causes C)) {hop : UInt8} (hp : IsEntry hop p) :
    route.length ≤ reach hop := by
  induction route generalizing p hop with
  | nil => exact Nat.zero_le _
  | cons q route ih =>
    rw [List.isChain_cons_cons] at h
    obtain ⟨hhop, hq⟩ := hp.causes h.1
    have hlen := ih h.2 hq
    have := reach_succ hhop
    rw [List.length_cons]
    omega

/-- Entries and snapshot requests die out, whatever the servers, their peers, their tables
and the hop counts in flight; and an increment that starts with hop 1 goes over at most
`SYNC_HOP_MAX` links. -/
theorem entries_die_out [Fintype ι] [DecidableEq ι] (C : Cluster ι) :
    (∀ (servers : ι → NatServer) (flight : Multiset Packet), (∀ p ∈ flight, Spreads p) →
      ¬∃ run : ℕ → State ι, run 0 = ⟨servers, flight⟩ ∧ ∀ n, Delivers C (run n) (run (n + 1))) ∧
    ∀ (p : Packet) (route : List Packet), IsEntry 1 p → (p :: route).IsChain (Causes C) →
      (p :: route).length ≤ syncHopMax.toNat := by
  constructor
  · rintro servers flight hf ⟨run, h0, hstep⟩
    exact no_infinite_run C (by rw [h0]; exact hf) hstep
  · intro p route hp h
    have hlen := chain_length_le h hp
    have h1 : reach 1 = 2 := by decide
    have h3 : syncHopMax.toNat = 3 := by decide
    rw [List.length_cons]
    omega

end P2PServer.SyncEntries
