import P2PServer.SyncOutputs

/-! The origin of sync messages. The MAC covers the body but not the message id, and the
body of an entry has no fixed length. The three kinds of bodies differ in length, so a body
that was signed for one kind of message is never taken for another. -/
namespace P2PServer.SyncSigned
open ByteStrings ProtoDef Net NatServer SyncCluster PacketCases ServerRun SyncOutputs EntryBytes
open Transitions

variable {ι : Type}

/-- What the packet handler passes on to one of the three handlers of sync messages. -/
inductive Passed
  | entry (e : SyncPeerEntry) (extinfo : Bytes)
  | del (uuid : Bytes)
  | request (ts : UInt32)

/-- The sync message that a server under this secret takes from a datagram. -/
def passedOn (secret : Bytes) (now : ℤ) (data : Bytes) : Option Passed :=
  match readDatagram data with
  | none => none
  | some (msgId, p) =>
    if msgId = msgSyncPeerEntry then (entryOf secret p).map fun r => .entry r.1 r.2
    else if msgId = msgSyncPeerDel then (deletionOf secret p).map .del
    else if msgId = msgSyncSnapshotReq then (snapshotOf secret now p).map .request
    else none

def Passed.handle (env : Env) (src : Addr) : Passed → Action
  | .entry e extinfo => handleSyncEntry env e extinfo src
  | .del uuid => handleSyncDel uuid src
  | .request _ => handleSyncSnapshotReq src

def content (msgId : UInt8) (body : Bytes) : Option Passed :=
  if msgId = msgSyncPeerEntry then
    some (.entry (SyncPeerEntry.read body) (body.drop syncPeerEntrySize))
  else if msgId = msgSyncPeerDel then some (.del (uuidAt body 0))
  else if msgId = msgSyncSnapshotReq then some (.request (u32At body 0))
  else none

/-- The body whose MAC the packet handler compares. -/
def checkedBody (msgId : UInt8) (p : Bytes) : Bytes :=
  if msgId = msgSyncPeerEntry then p.take (syncPeerEntrySize + (SyncPeerEntry.read p).extlen.toNat)
  else if msgId = msgSyncPeerDel then p.take syncPeerDelSize
  else p.take 4

theorem passedOn_entry {data p : Bytes} (secret : Bytes) (now : ℤ)
    (hread : readDatagram data = some (msgSyncPeerEntry, p)) :
    passedOn secret now data = (entryOf secret p).map fun r => .entry r.1 r.2 := by
  unfold passedOn
  rw [hread]
  dsimp only
  rw [if_pos rfl]

theorem passedOn_del {data p : Bytes} (secret : Bytes) (now : ℤ)
    (hread : readDatagram data = some (msgSyncPeerDel, p)) :
    passedOn secret now data = (deletionOf secret p).map .del := by
  unfold passedOn
  rw [hread]
  dsimp only
  rw [if_neg (by decide), if_pos rfl]

theorem passedOn_request {data p : Bytes} (secret : Bytes) (now : ℤ)
    (hread : readDatagram data = some (msgSyncSnapshotReq, p)) :
    passedOn secret now data = (snapshotOf secret now p).map .request := by
  unfold passedOn
  rw [hread]
  dsimp only
  rw [if_neg (by decide), if_neg (by decide), if_pos rfl]

theorem handlePacket_passedOn (env : Env) {data : Bytes} (src : Addr) (s : NatServer)
    (h : isSync data = true) :
    handlePacket env data src s = (passedOn s.cfg.syncAuthSecret env.now data).elim (s, [])
      fun m => m.handle env src s := by
  cases hread : readDatagram data with
  | none => simp [isSync, hread] at h
  | some r =>
    obtain ⟨msgId, p⟩ := r
    have hid : msgId = msgSyncPeerEntry ∨ msgId = msgSyncPeerDel ∨ msgId = msgSyncSnapshotReq := by
      simpa [isSync, hread, syncMessages] using h
    rcases hid with rfl | rfl | rfl
    · rw [handlePacket_entry hread, onSyncPeerEntry_handed, passedOn_entry _ _ hread]
      generalize entryOf s.cfg.syncAuthSecret p = r
      cases r with
      | none => rfl
      | some r => rfl
    · rw [handlePacket_del hread, onSyncPeerDel_handed, passedOn_del _ _ hread]
      generalize deletionOf s.cfg.syncAuthSecret p = r
      cases r with
      | none => rfl
      | some uuid => rfl
    · rw [handlePacket_request hread, onSyncSnapshotReq_handed, passedOn_request _ _ hread]
      generalize snapshotOf s.cfg.syncAuthSecret env.now p = r
      cases r with
      | none => rfl
      | some ts => rfl

/-- The servers and the log of what they have signed: the message and the body. -/
structure State (ι : Type) where
  servers : ι → NatServer
  log : List (UInt8 × Bytes)

/-- The attacker sends any bytes from any address. -/
inductive Event (ι : Type)
  | packet (j : ι) (env : Env) (data : Bytes) (src : Addr)
  | timer (j : ι) (env : Env) (proxyDue snapDue saved : Bool) (reloaded : Option CfgData)

/-- The message and the body in a sync datagram: what stands before the 32 bytes of the MAC. -/
def bodyOf (data : Bytes) : Option (UInt8 × Bytes) :=
  match readDatagram data with
  | some (msgId, payload) =>
    if syncMessages.contains msgId then some (msgId, payload.take (payload.length - 32)) else none
  | none => none

def signedBody : Out → Option (UInt8 × Bytes)
  | .send _ data => bodyOf data
  | .writeFile _ _ => none

def act [DecidableEq ι] (s : State ι) (j : ι) (f : Action) : State ι :=
  ⟨Function.update s.servers j (f (s.servers j)).1,
    s.log ++ (f (s.servers j)).2.filterMap signedBody⟩

def next [DecidableEq ι] (s : State ι) : Event ι → State ι
  | .packet j env data src => act s j (handlePacket env data src)
  | .timer j env proxyDue snapDue saved reloaded =>
    act s j (timerPass env proxyDue snapDue saved reloaded)

/-- A configuration that is read again has the same secret. -/
def enabled (secret : Bytes) : Event ι → Prop
  | .packet _ _ _ _ => True
  | .timer _ _ _ _ _ reloaded => ∀ cfg ∈ reloaded, cfg.syncAuthSecret = secret

def cluster [DecidableEq ι] (secret : Bytes) : System (State ι) (Event ι) where
  init s := (∀ j, (s.servers j).cfg.syncAuthSecret = secret) ∧ s.log = []
  enabled _ e := enabled secret e
  next := next

/-- A MAC that verifies belongs to a body that some server has signed, for whatever
message. -/
def Unforged (secret : Bytes) (s : State ι) : Event ι → Prop
  | .packet _ _ data _ => ∀ msgId p, readDatagram data = some (msgId, p) →
      syncVerify secret p (checkedBody msgId p).length = true →
      ∃ id, (id, checkedBody msgId p) ∈ s.log
  | .timer _ _ _ _ _ _ => True

/-- The length of a body tells its message. -/
inductive Sized : UInt8 → Bytes → Prop
  | entry {body : Bytes} (h : 79 ≤ body.length) : Sized msgSyncPeerEntry body
  | del {body : Bytes} (h : body.length = 33) : Sized msgSyncPeerDel body
  | request {body : Bytes} (h : body.length = 4) : Sized msgSyncSnapshotReq body

theorem sized_of_signs {env : Env} {data : Bytes} {src : Addr} {s : NatServer} {id : UInt8}
    {body : Bytes} (h : Signs env data src s id body) : Sized id body := by
  cases h with
  | heartbeat => exact .entry (entryBody_length _ _).1
  | forward _ h =>
    have hlen := (forwardedBody_length h env).1
    exact .entry (by omega)
  | del => exact .del (uuidField_length _)
  | snapshot => exact .entry (entryBody_length _ _).1

theorem sized_of_timerSigns {env : Env} {s : NatServer} {id : UInt8} {body : Bytes}
    (h : TimerSigns env s id body) : Sized id body := by
  cases h with
  | del => exact .del (uuidField_length _)
  | request => exact .request (be32_length _)

theorem signed_take {secret : Bytes} (hs : secret ≠ []) (body : Bytes) :
    (signed secret body).take ((signed secret body).length - 32) = body := by
  have hsigned : signed secret body = body ++ Crypto.hmacSha256 secret body := by
    rw [signed, if_neg (by simpa using hs)]
  have hlen : (signed secret body).length = body.length + 32 := by
    rw [hsigned, List.length_append, Crypto.hmacSha256_length]
  rw [hlen, Nat.add_sub_cancel, hsigned, List.take_left]

theorem bodyOf_signed {secret : Bytes} (hs : secret ≠ []) {id : UInt8} {body data : Bytes}
    (hread : readDatagram data = some (id, signed secret body))
    (hid : syncMessages.contains id = true) : bodyOf data = some (id, body) := by
  unfold bodyOf
  rw [hread]
  dsimp only
  rw [if_pos hid, signed_take hs]

theorem signedBody_syncOut {secret : Bytes} (hs : secret ≠ []) {id : UInt8} {body : Bytes}
    {dst : Addr} {o : Out} (h : o ∈ syncOut secret id body dst)
    (hid : syncMessages.contains id = true) : signedBody o = some (id, body) := by
  obtain ⟨rfl, hread⟩ := mem_syncOut h
  exact bodyOf_signed hs hread hid

theorem bodyOf_eq_none {data : Bytes} (h : isSync data = false) : bodyOf data = none := by
  unfold isSync at h
  unfold bodyOf
  split
  · rename_i msgId payload hread
    rw [hread] at h
    simp only at h
    rw [h]
    rfl
  · rfl

theorem sized_of_carries {secret : Bytes} (hs : secret ≠ []) {Q : UInt8 → Bytes → Prop}
    (hQ : ∀ id body, Q id body → Sized id body) {o : Out} (h : Carries secret Q o) {id : UInt8}
    {body : Bytes} (ho : signedBody o = some (id, body)) : Sized id body := by
  rcases h with hplain | ⟨dst, id', body', hq, hmem⟩
  · cases o with
    | writeFile => cases ho
    | send dst data =>
      change bodyOf data = _ at ho
      rw [bodyOf_eq_none (hplain dst data rfl)] at ho
      cases ho
  · have hsized := hQ id' body' hq
    have hid : syncMessages.contains id' = true := by cases hsized <;> rfl
    rw [signedBody_syncOut hs hmem hid] at ho
    cases ho
    exact hsized

/-- Servers share the secret, and every logged body has the length of its message. -/
structure Inv (secret : Bytes) (s : State ι) : Prop where
  shared : ∀ j, (s.servers j).cfg.syncAuthSecret = secret
  sized : ∀ id body, (id, body) ∈ s.log → Sized id body

theorem Inv.act [DecidableEq ι] {secret : Bytes} {s : State ι} (h : Inv secret s) {j : ι}
    {f : Action} (hcfg : (f (s.servers j)).1.cfg.syncAuthSecret = secret)
    (hout : ∀ o ∈ (f (s.servers j)).2, ∀ id body, signedBody o = some (id, body) → Sized id body) :
    Inv secret (act s j f) := by
  constructor
  · intro i
    by_cases hi : i = j
    · subst hi
      simpa [SyncSigned.act] using hcfg
    · simpa [SyncSigned.act, hi] using h.shared i
  · intro id body hmem
    rcases List.mem_append.mp hmem with hmem | hmem
    · exact h.sized id body hmem
    · obtain ⟨o, ho, hb⟩ := List.mem_filterMap.mp hmem
      exact hout o ho id body hb

theorem inv_step [DecidableEq ι] {secret : Bytes} (hs : secret ≠ []) {s : State ι} {e : Event ι}
    (h : Inv secret s) (hen : enabled secret e) : Inv secret (next s e) := by
  cases e with
  | packet j env data src =>
    have hset := (handlePacket_setup env data src (s.servers j)).1
    refine h.act (by rw [hset.cfg, h.shared j]) fun o ho id body hb => ?_
    have hc := handlePacket_carries env data src (s.servers j) o ho
    rw [h.shared j] at hc
    exact sized_of_carries hs (fun _ _ => sized_of_signs) hc hb
  | timer j env proxyDue snapDue saved reloaded =>
    have hspec := (timerPass_spec env proxyDue snapDue saved reloaded (s.servers j)).1
    have hcfg : (timerPass env proxyDue snapDue saved reloaded (s.servers j)).1.cfg =
        reloaded.getD (s.servers j).cfg := congrArg Core.cfg hspec
    have hsec : (reloaded.getD (s.servers j).cfg).syncAuthSecret = secret := by
      cases reloaded with
      | none => exact h.shared j
      | some cfg => exact hen cfg rfl
    refine h.act (by rw [hcfg, hsec]) fun o ho id body hb => ?_
    have hc := timerPass_carries env proxyDue snapDue saved reloaded (s.servers j) o ho
    rw [h.shared j, hsec, or_self] at hc
    exact sized_of_carries hs (fun _ _ => sized_of_timerSigns) hc hb

theorem deletionOf_eq_some {secret p uuid : Bytes} (h : deletionOf secret p = some uuid) :
    syncPeerDelSize ≤ p.length ∧ syncVerify secret p syncPeerDelSize = true ∧
      uuid = uuidAt p 0 := by
  unfold deletionOf at h
  split at h
  · cases h
  · split at h
    · cases h
    · rename_i hlen hv
      exact ⟨by omega, by simpa using hv, (Option.some.inj h).symm⟩

theorem snapshotOf_eq_some {secret p : Bytes} {now : ℤ} {ts : UInt32}
    (h : snapshotOf secret now p = some ts) :
    4 ≤ p.length ∧ syncVerify secret p 4 = true ∧ ts = u32At p 0 := by
  unfold snapshotOf at h
  split at h
  · cases h
  · split at h
    · cases h
    · rename_i hlen hv
      dsimp only at h
      split at h
      · cases h
      · exact ⟨by omega, by simpa using hv, (Option.some.inj h).symm⟩

/-- The datagram holds a body that was signed for its own message, and `m` is what that body
says. -/
def Genuine (s : State ι) (secret data : Bytes) (m : Passed) : Prop :=
  ∃ msgId body rest, readDatagram data = some (msgId, body ++ rest) ∧
    syncVerify secret (body ++ rest) body.length = true ∧ (msgId, body) ∈ s.log ∧
    content msgId body = some m

theorem genuine_of_checked {secret : Bytes} {s : State ι} (h : Inv secret s) {data p : Bytes}
    {msgId : UInt8} (hread : readDatagram data = some (msgId, p)) {n : ℕ} (hn : n ≤ p.length)
    (hbody : checkedBody msgId p = p.take n) (hv : syncVerify secret p n = true)
    (hun : ∀ msgId p, readDatagram data = some (msgId, p) →
      syncVerify secret p (checkedBody msgId p).length = true →
      ∃ id, (id, checkedBody msgId p) ∈ s.log)
    (hsize : ∀ id, Sized id (p.take n) → id = msgId) {m : Passed}
    (hm : content msgId (p.take n) = some m) : Genuine s secret data m := by
  have hlen : (p.take n).length = n := List.length_take_of_le hn
  obtain ⟨id, hid⟩ := hun msgId p hread (by rw [hbody, hlen]; exact hv)
  rw [hbody] at hid
  have heq := hsize id (h.sized id _ hid)
  subst heq
  refine ⟨id, p.take n, p.drop n, ?_, ?_, hid, hm⟩
  · rw [List.take_append_drop]
    exact hread
  · rw [List.take_append_drop, hlen]
    exact hv

theorem Inv.genuine {secret : Bytes} {s : State ι} (h : Inv secret s) {j : ι} {env : Env}
    {data : Bytes} {src : Addr} (hun : Unforged secret s (.packet j env data src)) {m : Passed}
    (hm : passedOn secret env.now data = some m) : Genuine s secret data m := by
  cases hread : readDatagram data with
  | none => simp [passedOn, hread] at hm
  | some r =>
    obtain ⟨msgId, p⟩ := r
    by_cases hE : msgId = msgSyncPeerEntry
    · subst hE
      rw [passedOn_entry _ _ hread, Option.map_eq_some_iff] at hm
      obtain ⟨⟨e, extinfo⟩, he, rfl⟩ := hm
      obtain ⟨rfl, rfl, hmax, hlen, hv⟩ := entryOf_eq_some.mp he
      refine genuine_of_checked h hread hlen rfl hv hun ?_ ?_
      · intro id hid
        have hl := List.length_take_of_le hlen
        unfold syncPeerEntrySize at hid hl
        cases hid with
        | entry => rfl
        | del h33 => omega
        | request h4 => omega
      · have hr : SyncPeerEntry.read p = SyncPeerEntry.read (p.take (syncPeerEntrySize +
            (SyncPeerEntry.read p).extlen.toNat)) := by
          have htake : syncPeerEntrySize ≤ (p.take (syncPeerEntrySize +
              (SyncPeerEntry.read p).extlen.toNat)).length := by
            rw [List.length_take_of_le hlen]
            omega
          have happ := read_append htake (p.drop (syncPeerEntrySize +
            (SyncPeerEntry.read p).extlen.toNat))
          rwa [List.take_append_drop] at happ
        rw [content, if_pos rfl, ← hr, List.drop_take, Nat.add_sub_cancel_left, window]
    · by_cases hD : msgId = msgSyncPeerDel
      · subst hD
        rw [passedOn_del _ _ hread, Option.map_eq_some_iff] at hm
        obtain ⟨uuid, hu, rfl⟩ := hm
        obtain ⟨hlen, hv, rfl⟩ := deletionOf_eq_some hu
        refine genuine_of_checked h hread hlen rfl hv hun ?_ ?_
        · intro id hid
          have hl := List.length_take_of_le hlen
          unfold syncPeerDelSize at hid hl
          cases hid with
          | entry h79 => omega
          | del => rfl
          | request h4 => omega
        · rw [content, if_neg hE, if_pos rfl, uuidAt, uuidAt, textAt, textAt,
            window_take p (by decide)]
      · by_cases hR : msgId = msgSyncSnapshotReq
        · subst hR
          rw [passedOn_request _ _ hread, Option.map_eq_some_iff] at hm
          obtain ⟨ts, hts, rfl⟩ := hm
          obtain ⟨hlen, hv, rfl⟩ := snapshotOf_eq_some hts
          refine genuine_of_checked h hread hlen rfl hv hun ?_ ?_
          · intro id hid
            have hl := List.length_take_of_le hlen
            cases hid with
            | entry h79 => omega
            | del h33 => omega
            | request => rfl
          · rw [content, if_neg hE, if_neg hD, if_pos rfl, u32At, u32At]
            simp only [byteAt_take (a := p) (n := 4) (by decide : 0 < 4),
              byteAt_take (a := p) (n := 4) (by decide : 0 + 1 < 4),
              byteAt_take (a := p) (n := 4) (by decide : 0 + 2 < 4),
              byteAt_take (a := p) (n := 4) (by decide : 0 + 3 < 4)]
        · simp [passedOn, hread, hE, hD, hR] at hm

/-- Whatever bytes an attacker sends: when the packet handler passes a message on to one of
the handlers of sync messages, its body was signed by a server of the cluster for the same
message, and what is passed on is what that body says. -/
theorem passed_on_genuine [DecidableEq ι] {secret : Bytes} (hs : secret ≠ []) {s : State ι}
    (h : Reach (cluster secret) (Unforged secret) s) {j : ι} {env : Env} {data : Bytes} {src : Addr}
    (hun : Unforged secret s (.packet j env data src)) {m : Passed}
    (hm : passedOn (s.servers j).cfg.syncAuthSecret env.now data = some m) :
    handlePacket env data src (s.servers j) = m.handle env src (s.servers j) ∧
      Genuine s secret data m := by
  have hinv : Inv secret s := by
    refine Reach.invariant (S := cluster secret) (I := Inv secret) ?_
      (fun s e hi hen _ => inv_step hs hi hen) h
    rintro s ⟨hshared, hlog⟩
    refine ⟨hshared, fun id body hmem => ?_⟩
    rw [hlog] at hmem
    cases hmem
  rw [hinv.shared j] at hm
  have hgen := hinv.genuine hun hm
  refine ⟨?_, hgen⟩
  obtain ⟨msgId, body, rest, hread, -, hlog, -⟩ := hgen
  have hsync : isSync data = true := by
    have hsized := hinv.sized msgId body hlog
    rw [isSync, hread]
    cases hsized <;> rfl
  rw [handlePacket_passedOn env src _ hsync, hinv.shared j, hm]
  rfl

theorem snapshotOf_signed (secret : Bytes) (now : ℤ) :
    snapshotOf secret now (signed secret (be32 (time32 now))) = some (time32 now) := by
  obtain ⟨mac, hmac⟩ := signed_eq secret (be32 (time32 now))
  have hlen := length_le_signed secret (be32 (time32 now))
  have hv := syncVerify_signed secret (be32 (time32 now))
  rw [be32_length] at hlen hv
  have hts : u32At (signed secret (be32 (time32 now))) 0 = time32 now :=
    u32At_of_drop (b := mac) (by rw [hmac, List.drop_zero])
  unfold snapshotOf
  rw [if_neg (by omega), hv, hts, sub_self]
  exact if_neg (by decide)

open Samples (secretK)

def serverK : NatServer :=
  { cfg := { syncAuthSecret := secretK }, syncOn := true, syncAddrs := [⟨0x0A000002, 9000⟩] }

attribute [local instance] neZero_two

def startK : State (Fin 2) := ⟨fun _ => serverK, []⟩

def askedK : State (Fin 2) := next startK (.timer 0 { now := 100 } false true false none)

def requestK : Bytes := datagram msgSyncSnapshotReq (signed secretK (be32 (time32 100)))

theorem requestK_read :
    readDatagram requestK = some (msgSyncSnapshotReq, signed secretK (be32 (time32 100))) := by
  have h := signed_length_le secretK (be32 (time32 100))
  rw [be32_length] at h
  exact readDatagram_datagram _ (by omega)

theorem askedK_log : (msgSyncSnapshotReq, be32 (time32 100)) ∈ askedK.log := by
  obtain ⟨-, queries, -, hsent⟩ :=
    timerPass_spec { now := 100 } false true false none (startK.servers 0)
  refine List.mem_append_right _ (List.mem_filterMap.mpr
    ⟨.send ⟨0x0A000002, 9000⟩ requestK, ?_, bodyOf_signed (by decide) requestK_read (by decide)⟩)
  rw [hsent]
  refine List.mem_append_right _ (List.mem_append_right _ ?_)
  rw [if_pos (by decide)]
  refine List.mem_flatMap.mpr ⟨⟨0x0A000002, 9000⟩, List.mem_singleton_self _, ?_⟩
  rw [if_neg nofun, syncOut_eq _ _ (by rw [be32_length]; decide)]
  exact List.mem_singleton_self _

theorem passed_on_genuine_request : Genuine askedK secretK requestK (.request (time32 100)) := by
  have hreach : Reach (cluster secretK) (Unforged secretK) askedK :=
    Reach.step (S := cluster secretK) (e := .timer 0 { now := 100 } false true false none)
      (.start ⟨fun _ => rfl, rfl⟩) (fun cfg hc => by cases hc) trivial
  have hun : Unforged secretK askedK (.packet 1 { now := 100 } requestK ⟨0x0A000001, 9000⟩) := by
    intro msgId p hread _
    rw [requestK_read, Option.some.injEq, Prod.mk.injEq] at hread
    obtain ⟨rfl, rfl⟩ := hread
    obtain ⟨mac, hmac⟩ := signed_eq secretK (be32 (time32 100))
    have hbody : checkedBody msgSyncSnapshotReq (signed secretK (be32 (time32 100))) =
        be32 (time32 100) := by
      change (signed secretK (be32 (time32 100))).take 4 = _
      rw [hmac, List.take_left' (be32_length _)]
    exact ⟨msgSyncSnapshotReq, hbody ▸ askedK_log⟩
  have hpassed : passedOn (askedK.servers 1).cfg.syncAuthSecret 100 requestK =
      some (.request (time32 100)) := by
    change passedOn secretK 100 requestK = _
    rw [passedOn_request _ _ requestK_read, snapshotOf_signed]
    rfl
  exact (passed_on_genuine (by decide) hreach hun hpassed).2

end P2PServer.SyncSigned
