import P2PServer.EntryBytes

/-! Passing a sync entry on. A server that receives an increment stores it and sends it to
its other peers. It sends as many bytes as the entry and its extension text had together,
but behind its copy of the entry lies whatever the stack holds. -/
namespace P2PServer.SyncForward
open ByteStrings ProtoDef Net NatServer SyncCluster PacketCases ServerRun Gates EntryBytes

/-- The entry and the extension text that the packet handler takes from a datagram and hands
to `handle_sync_entry`. -/
def handedEntry (secret data : Bytes) : Option (SyncPeerEntry × Bytes) :=
  match readDatagram data with
  | some (msgId, p) => if msgId = msgSyncPeerEntry then entryOf secret p else none
  | none => none

theorem handedEntry_eq_some {secret data : Bytes} {r : SyncPeerEntry × Bytes} :
    handedEntry secret data = some r ↔
      ∃ p, readDatagram data = some (msgSyncPeerEntry, p) ∧ entryOf secret p = some r := by
  unfold handedEntry
  constructor
  · intro h
    split at h
    · rename_i msgId p hread
      split at h
      · rename_i hid
        exact ⟨p, hid ▸ hread, h⟩
      · cases h
    · cases h
  · rintro ⟨p, hread, h⟩
    rw [hread]
    exact h

theorem handlePacket_of_handedEntry {env : Env} {data : Bytes} {src : Addr} {s : NatServer}
    {e : SyncPeerEntry} {extinfo : Bytes}
    (h : handedEntry s.cfg.syncAuthSecret data = some (e, extinfo)) :
    handlePacket env data src s = handleSyncEntry env e extinfo src s := by
  obtain ⟨p, hread, he⟩ := handedEntry_eq_some.mp h
  rw [handlePacket_entry hread, onSyncPeerEntry_handed, he]

/-- The datagram that a faithful copy of the entry makes: the received bytes with the hop
count increased, then the received text. -/
def copied (secret : Bytes) (e : SyncPeerEntry) (extinfo : Bytes) : Bytes :=
  datagram msgSyncPeerEntry (signed secret (e.raw.set 71 (e.hop + 1) ++ extinfo))

/-- The entry reaches peer `a`: something is sent to it, and whatever is sent is made of the
received bytes alone and is handed on, by any server with the same secret, as the received
entry with its hop count increased by one. -/
def Arrives (secret : Bytes) (e : SyncPeerEntry) (extinfo : Bytes) (a : Addr) (outs : List Out) :
    Prop :=
  (∃ data, Out.send a data ∈ outs) ∧ ∀ data, Out.send a data ∈ outs →
    data = copied secret e extinfo ∧ handedEntry secret data =
      some ({ e with hop := e.hop + 1, raw := e.raw.set 71 (e.hop + 1) }, extinfo)

theorem send_mem_broadcastOut {s : NatServer} {msgId : UInt8} {payload : Bytes}
    (hlen : payload.length ≤ 2008) {src a : Addr} (hne : a ≠ src) {data : Bytes} :
    Out.send a data ∈ broadcastOut s msgId payload (some src) ↔
      a ∈ s.syncAddrs ∧ data = datagram msgId (signed s.cfg.syncAuthSecret payload) := by
  simp only [mem_broadcastOut, syncOut_eq _ _ hlen, List.mem_singleton, Out.send.injEq]
  constructor
  · rintro ⟨b, hb, -, rfl, hd⟩
    exact ⟨hb, hd⟩
  · rintro ⟨ha, hd⟩
    exact ⟨a, ha, fun hc => hne (Option.some.inj hc).symm, rfl, hd⟩

theorem handleSyncEntry_forwards {env : Env} {e : SyncPeerEntry} {extinfo : Bytes} {src : Addr}
    {s : NatServer} (hon : s.syncEnabled = true) (hu : e.uuid ≠ []) (hhop : e.hop < syncHopMax)
    (hnew : (seenSyncEntry env e.uuid e.hbTime src s).1 = false) :
    (handleSyncEntry env e extinfo src s).2 =
      broadcastOut s msgSyncPeerEntry (forwardedBody env e extinfo) (some src) := by
  have hsnap : e.hop ≠ syncHopSnap := by
    intro hc
    rw [hc] at hhop
    exact absurd hhop (by decide)
  have hent := handleSyncEntry_entered env e extinfo src s
  generalize handleSyncEntry env e extinfo src s = r at hent ⊢
  cases hent with
  | ignored h =>
    rcases h with h | h
    · rw [hon] at h
      cases h
    · exact absurd h hu
  | seen _ _ _ h =>
    rw [hnew] at h
    cases h
  | snapshot _ _ h => exact absurd h hsnap
  | increment => exact if_pos hhop

/-- A server with the same secret takes the forwarded entry as it was received, but takes the
bytes of the stack for its text. -/
theorem entryOf_forwarded {secret p : Bytes} {e : SyncPeerEntry} {extinfo : Bytes}
    (h : entryOf secret p = some (e, extinfo)) (env : Env) :
    entryOf secret (signed secret (forwardedBody env e extinfo)) =
      some ({ e with hop := e.hop + 1, raw := e.raw.set 71 (e.hop + 1) },
        (List.range extinfo.length).map env.stack) := by
  have hread := read_forwardedBody h env
  have hlen := (forwardedBody_length h env).1
  obtain ⟨rfl, rfl, hmax, hle, -⟩ := entryOf_eq_some.mp h
  have hext : (window p syncPeerEntrySize (SyncPeerEntry.read p).extlen.toNat).length =
      (SyncPeerEntry.read p).extlen.toNat := by
    rw [window, List.length_take, List.length_drop]
    omega
  rw [entryOf_signed, hread, forwardedBody]
  · have hraw := raw_length (p := p) (by omega) ((SyncPeerEntry.read p).hop + 1)
    rw [show syncPeerEntrySize = 79 from rfl, List.drop_left' hraw]
  · rw [hread, hlen, hext]
    rfl
  · rw [hread]
    exact hmax

theorem signed_inj {secret a b : Bytes} (hlen : a.length = b.length)
    (h : signed secret a = signed secret b) : a = b := by
  unfold signed at h
  split at h
  · exact h
  · exact (List.append_inj h hlen).1

/-- An accepted increment reaches the server's other peers as it was received, whatever lies on
the stack, if and only if it has no extension text. -/
theorem arrives_iff {env : Env} {data : Bytes} {src a : Addr} {s : NatServer} {e : SyncPeerEntry}
    {extinfo : Bytes} (hrecv : handedEntry s.cfg.syncAuthSecret data = some (e, extinfo))
    (hon : s.syncEnabled = true) (hu : e.uuid ≠ []) (hhop : e.hop < syncHopMax)
    (hnew : (seenSyncEntry env e.uuid e.hbTime src s).1 = false)
    (ha : a ∈ s.syncAddrs) (hne : a ≠ src) :
    (∀ stack, Arrives s.cfg.syncAuthSecret e extinfo a
      (handlePacket { env with stack := stack } data src s).2) ↔ extinfo = [] := by
  obtain ⟨p, -, he⟩ := handedEntry_eq_some.mp hrecv
  have hout (stack : ℕ → UInt8) : (handlePacket { env with stack := stack } data src s).2 =
      broadcastOut s msgSyncPeerEntry (forwardedBody { env with stack := stack } e extinfo)
        (some src) := by
    rw [handlePacket_of_handedEntry hrecv]
    exact handleSyncEntry_forwards hon hu hhop hnew
  have hsize (stack : ℕ → UInt8) :
      (forwardedBody { env with stack := stack } e extinfo).length ≤ 2008 := by
    have h := forwardedBody_length he { env with stack := stack }
    omega
  constructor
  · intro h
    -- a stack that differs from the text in every byte
    let stack : ℕ → UInt8 := fun i => extinfo.getD i 0 + 1
    have hd := ((h stack).2 _ (by
      rw [hout]
      exact (send_mem_broadcastOut (hsize stack) hne).mpr ⟨ha, rfl⟩)).1
    have hbody := signed_inj (by simp [forwardedBody]) (datagram_inj hd).2
    have htext := (List.append_inj hbody rfl).2
    by_contra hext
    obtain ⟨b, rest, rfl⟩ := List.exists_cons_of_ne_nil hext
    have hhead := congrArg List.head? htext
    simp [List.range_succ_eq_map, stack] at hhead
  · rintro rfl stack
    rw [hout]
    refine ⟨⟨_, (send_mem_broadcastOut (hsize stack) hne).mpr ⟨ha, rfl⟩⟩, fun d hd => ?_⟩
    obtain ⟨-, rfl⟩ := (send_mem_broadcastOut (hsize stack) hne).mp hd
    refine ⟨rfl, handedEntry_eq_some.mpr ⟨_, readDatagram_datagram _ ?_, ?_⟩⟩
    · have h1 := signed_length_le s.cfg.syncAuthSecret (forwardedBody { env with stack := stack } e [])
      have h2 := hsize stack
      omega
    · exact entryOf_forwarded he { env with stack := stack }

def peerS1 : Addr := ⟨0x0A000001, 9000⟩
def peerS3 : Addr := ⟨0x0A000003, 9000⟩

def serverS2 : NatServer := { syncOn := true, syncAddrs := [peerS1, peerS3] }

/-- The increment for `u` with this extension text, as the server at its origin sends it. -/
def increment (extinfo : Bytes) : Bytes :=
  datagram msgSyncPeerEntry (peerEntryBytes ⟨[0x75], ⟨0xC0A80107, 5000⟩, ⟨0xC0A80107, 0⟩, 0, 0, 100,
    100, 0, UInt16.ofNat extinfo.length, extinfo⟩ 1 ++ extinfo)

def entryU (extinfo : Bytes) : SyncPeerEntry :=
  SyncPeerEntry.read (window (increment extinfo) 8 (79 + extinfo.length))

theorem arrives_iff_empty :
    (seenSyncEntry { now := 100 } (entryU []).uuid (entryU []).hbTime peerS1 serverS2).1 = false ∧
      ∀ stack, Arrives [] (entryU []) [] peerS3
        (handlePacket { now := 100, stack := stack } (increment []) peerS1 serverS2).2 := by
  have hnew : (seenSyncEntry { now := 100 } (entryU []).uuid (entryU []).hbTime peerS1
      serverS2).1 = false := by decide +kernel
  exact ⟨hnew, (arrives_iff (s := serverS2) (by decide +kernel) rfl (by decide +kernel)
    (by decide +kernel) hnew (by decide) (by decide)).mpr rfl⟩

/-- The text of one byte that `u` reported is replaced by a byte of the stack. -/
theorem text_lost : ¬∀ env data src a (s : NatServer) e extinfo,
    handedEntry s.cfg.syncAuthSecret data = some (e, extinfo) → s.syncEnabled = true →
    e.uuid ≠ [] → e.hop < syncHopMax → (seenSyncEntry env e.uuid e.hbTime src s).1 = false →
    a ∈ s.syncAddrs → a ≠ src →
    Arrives s.cfg.syncAuthSecret e extinfo a (handlePacket env data src s).2 := by
  intro h
  have harr := h { now := 100 } (increment [0x41]) peerS1 peerS3 serverS2 (entryU [0x41]) [0x41]
    (by decide +kernel) rfl (by decide +kernel) (by decide +kernel) (by decide +kernel)
    (by decide) (by decide)
  have hsent : Out.send peerS3 (copied [] (entryU [0x41]) [0]) ∈
      (handlePacket { now := 100 } (increment [0x41]) peerS1 serverS2).2 := by decide +kernel
  have hsame := (harr.2 _ hsent).1
  revert hsame
  decide +kernel

end P2PServer.SyncForward
