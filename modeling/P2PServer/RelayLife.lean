import P2PServer.ClientSpeech
import P2PServer.DataPlane

/-! A client and the relay that it registers with, over whole runs with any interleaving. The client
registers until one registration is granted and never again; the relay drops a registration that
nothing has renewed. -/
namespace P2PServer.RelayLife
open ByteStrings ProtoDef Net Effects Transitions
open P2PClient (Config Talks registration requests protoOf relayData)
open P2PProxy (Packet UuidEntry enroll_uuid2addr enroll_addr2uuid handle_request SameTables)

/-- A client by its settings, and the addresses of both sides. -/
structure Party where
  cfg : Config
  client : Addr
  relay : Addr
  proper : P2PProxy.Proper cfg.uuid

/-- `toRelay` and `toClient` hold what was ever sent between the two. -/
structure State where
  client : P2PClient
  relay : P2PProxy.State
  toRelay : List Bytes := []
  toClient : List Bytes := []

inductive Event
  | client (env : P2PClient.Env) (e : P2PClient.Event)
  | deliver (now : ℤ) (data : Bytes)
  | other (p : Packet)
  | expire (now : ℤ)
  | erase

/-- A frame without a message head is nothing to the relay. -/
def sentToRelay (K : Party) (outs : List P2PClient.Out) : List Bytes :=
  outs.filterMap fun
    | .proto dst id payload => if dst = K.relay then some (NatServer.datagram id payload) else none
    | _ => none

def sentToClient (K : Party) (outs : List P2PProxy.Out) : List Bytes :=
  (outs.filter fun o => o.dst = K.client).map fun o => o.data

/-- The relay handles a packet, and what it sends to the client joins the network. -/
def act (K : Party) (s : State) (p : Packet) : State :=
  { s with
    relay := P2PProxy.next s.relay (.packet p)
    toClient := s.toClient ++ sentToClient K (P2PProxy.handle p.now p.data p.src s.relay.proxy).2 }

def next (K : Party) (s : State) : Event → State
  | .client env e =>
    { s with
      client := (P2PClient.step env e s.client).1
      toRelay := s.toRelay ++ sentToRelay K (P2PClient.step env e s.client).2 }
  | .deliver now data => act K s ⟨now, data, K.client⟩
  | .other p => act K s p
  | .expire now => { s with relay := P2PProxy.next s.relay (.expire now) }
  | .erase => { s with relay := P2PProxy.next s.relay .erase }

/-- The client runs until the end and hears of its registration from the relay only. -/
def clientEnabled (K : Party) (s : State) : P2PClient.Event → Prop
  | .start cfg => cfg = K.cfg
  | .stop => False
  | .packet m len _ => s.client.running = true ∧
      ∀ p, protoOf m len = some (msgProxyRegisterRsp, p) → m.read 0 len ∈ s.toClient
  | e => P2PClient.enabled s.client e

def enabled (K : Party) (s : State) : Event → Prop
  | .client _ e => clientEnabled K s e
  | .deliver _ data => data ∈ s.toRelay
  | .other p => p.src ≠ K.client
  | .expire now => P2PProxy.enabled s.relay (.expire now)
  | .erase => P2PProxy.enabled s.relay .erase

def system (K : Party) : System State Event where
  init s := ∃ callbacks maxProxy, s =
    { client := { cfg := K.cfg, callbacks := callbacks }, relay := { proxy := { maxProxy := maxProxy } } }
  enabled := enabled K
  next := next K

/-- The relay maps the uuid of the client to its address. -/
def Mapped (K : Party) (q : P2PProxy) : Prop := ∃ e, q.uuid2addr[K.cfg.uuid]? = some e ∧ e.addr = K.client

/-- No timer pass finds the registration too old, and no other host registers the uuid. -/
def Kept (K : Party) (s : State) : Event → Prop
  | .expire now => ∀ e, s.relay.proxy.uuid2addr[K.cfg.uuid]? = some e → P2PProxy.expired now e = false
  | .other p => P2PProxy.registers s.relay.proxy p ≠ some K.cfg.uuid
  | .client _ _ | .deliver _ _ | .erase => True

variable {K : Party} {s : State}

/-- Nobody else holds the address of the client's uuid. -/
def Backed (K : Party) (q : P2PProxy) : Prop :=
  ∀ k, q.addr2uuid[k]? = some K.cfg.uuid → k = addrToU64 K.client

/-- What the relay keeps of the client. -/
structure Keeps (K : Party) (q q' : P2PProxy) : Prop where
  mapped : Mapped K q → Mapped K q'
  backed : Backed K q → Backed K q'

theorem Keeps.same {q q' : P2PProxy} (h : SameTables q q') : Keeps K q q' := by
  constructor
  · unfold Mapped
    rw [h.uuid2addr]
    exact id
  · unfold Backed
    rw [h.addr2uuid]
    exact id

theorem mapped_enroll (now : ℤ) (q : P2PProxy) : Mapped K (q.enroll now K.cfg.uuid K.client) :=
  ⟨⟨K.client, now⟩, by rw [enroll_uuid2addr, if_pos rfl], rfl⟩

theorem Backed.enroll {q : P2PProxy} (h : Backed K q) (now : ℤ) :
    Backed K (q.enroll now K.cfg.uuid K.client) := by
  intro k hk
  rw [enroll_addr2uuid] at hk
  split at hk
  · assumption
  · exact h k hk

theorem keeps_enroll {q : P2PProxy} (hback : Backed K q) (now : ℤ) {uuid : Bytes} (hu : uuid ≠ K.cfg.uuid)
    {src : Addr} (hsrc : src ≠ K.client) : Keeps K q (q.enroll now uuid src) := by
  constructor
  · rintro ⟨e, he, ha⟩
    refine ⟨e, ?_, ha⟩
    have hfree : q.addr2uuid[addrToU64 src]? ≠ some K.cfg.uuid := fun hc =>
      hsrc (P2PProxy.addrToU64_inj (hback _ hc))
    rw [enroll_uuid2addr, if_neg hu.symm, if_neg hfree, he]
  · intro _ k hk
    rw [enroll_addr2uuid] at hk
    split at hk
    · exact absurd (Option.some.inj hk) hu
    · exact hback k hk

theorem keeps_unregister {q : P2PProxy} (uuid : Bytes) {src : Addr} (hsrc : src ≠ K.client) :
    Keeps K q (q.unregister uuid src) := by
  rcases P2PProxy.unregister_cases uuid src q with hs | ⟨e₀, he₀, ha₀, -, hu, hk⟩
  · exact .same hs
  · constructor
    · rintro ⟨e, he, ha⟩
      refine ⟨e, ?_, ha⟩
      rw [hu, TreeMaps.erase_get, if_neg, he]
      rintro rfl
      rw [he, Option.some.injEq] at he₀
      exact hsrc (ha₀.symm.trans ((congrArg UuidEntry.addr he₀).symm.trans ha))
    · intro hback k hget
      rw [hk, TreeMaps.erase_get] at hget
      split at hget
      · cases hget
      · exact hback k hget

theorem keeps_other {q : P2PProxy} (hback : Backed K q) {p : Packet} (hsrc : p.src ≠ K.client)
    (hreg : P2PProxy.registers q p ≠ some K.cfg.uuid) : Keeps K q (P2PProxy.step p q) := by
  cases P2PProxy.step_cases p q with
  | enrolled uuid h e =>
    rw [e]
    exact keeps_enroll hback p.now (fun hc => hreg (hc ▸ h)) hsrc
  | unregistered uuid _ e =>
    rw [e]
    exact keeps_unregister uuid hsrc
  | other _ e => exact .same e

theorem keeps_expire {q : P2PProxy} {now : ℤ}
    (h : ∀ e, q.uuid2addr[K.cfg.uuid]? = some e → P2PProxy.expired now e = false) :
    Keeps K q (P2PProxy.expire now q) := by
  refine ⟨?_, id⟩
  rintro ⟨e, he, ha⟩
  refine ⟨e, ?_, ha⟩
  rw [P2PProxy.expire_get, he, Option.filter_some, h e he]
  rfl

theorem keeps_erase {q : P2PProxy} (dead : List UInt64) : Keeps K q (P2PProxy.eraseKeys dead q) := by
  refine ⟨id, fun hback k hk => ?_⟩
  rw [P2PProxy.eraseKeys_get] at hk
  split at hk
  · cases hk
  · exact hback k hk

/-- What the client says is one of its requests, or registers its own uuid. -/
def Spoken (K : Party) (data : Bytes) : Prop :=
  ∀ id p, NatServer.readDatagram data = some (id, p) →
    requests.contains id = true ∨ id = msgProxyRegisterReq ∧ p = registration K.cfg.uuid

/-- An answer is a whole message, and one that grants the registration is true of the table. -/
structure Answered (K : Party) (q : P2PProxy) (data : Bytes) : Prop where
  read : ∃ id p, NatServer.readDatagram data = some (id, p)
  granted : ∀ p, NatServer.readDatagram data = some (msgProxyRegisterRsp, p) → 1 ≤ p.length →
    byteAt p 0 = 0 → Mapped K q

theorem registration_length (uuid : Bytes) : (registration uuid).length = 65 := by
  rw [registration, List.length_append, uuidField_length, Crypto.hmacSha256_length]

theorem spoken_of_ordinary {dst : Addr} {id : UInt8} {payload : Bytes}
    (h : (P2PClient.Out.proto dst id payload).ordinary K.cfg.uuid = true) :
    Spoken K (NatServer.datagram id payload) := by
  intro id' p hread
  obtain rfl := NatServer.readDatagram_id hread
  simp only [P2PClient.Out.ordinary, Bool.or_eq_true, Bool.and_eq_true, beq_iff_eq] at h
  rcases h with h | ⟨hid, rfl⟩
  · exact .inl h
  · rw [NatServer.readDatagram_datagram _ (by rw [registration_length]; decide), Option.some.injEq,
      Prod.mk.injEq] at hread
    exact .inr ⟨hid, hread.2.symm⟩

theorem mem_sentToRelay {outs : List P2PClient.Out} {data : Bytes} (h : data ∈ sentToRelay K outs) :
    ∃ id payload, .proto K.relay id payload ∈ outs ∧ data = NatServer.datagram id payload := by
  obtain ⟨o, ho, hd⟩ := List.mem_filterMap.mp h
  cases o with
  | proto dst id payload =>
    dsimp only at hd
    split at hd
    · rename_i hdst
      cases hd
      exact ⟨id, payload, hdst ▸ ho, rfl⟩
    · cases hd
  | raw | juice | ready | connected | message | disconnected | error | erasedUse => cases hd

theorem mem_sentToClient {outs : List P2PProxy.Out} {data : Bytes} (h : data ∈ sentToClient K outs) :
    ∃ o ∈ outs, o.dst = K.client ∧ o.data = data := by
  obtain ⟨o, ho, hd⟩ := List.mem_map.mp h
  rw [List.mem_filter] at ho
  exact ⟨o, ho.1, of_decide_eq_true ho.2, hd⟩

theorem answered_relayData (q : P2PProxy) {p : Bytes} (hp : p.length ≤ 2040) :
    Answered K q (NatServer.datagram msgProxyRelayData p) := by
  have hread := NatServer.readDatagram_datagram msgProxyRelayData (show p.length < 4294967296 by omega)
  refine ⟨⟨_, _, hread⟩, fun p' hp' => ?_⟩
  exact absurd (NatServer.readDatagram_id hp') (by decide)

/-- What the relay sends is an answer to the sender, or forwarded. -/
structure Forwards (src : Addr) (o : P2PProxy.Out) : Prop where
  back : o.dst = src ∨ ∃ p, p.length ≤ 2040 ∧ o.data = NatServer.datagram msgProxyRelayData p

theorem send_outs (dst : Addr) (id : UInt8) (p : Bytes) (q : P2PProxy) :
    ∀ o ∈ (P2PProxy.send dst id p q).2, o.dst = dst ∧ p.length ≤ 2040 ∧ o.data = NatServer.datagram id p := by
  unfold P2PProxy.send
  intro o ho
  split at ho
  · cases ho
  · rename_i hlen
    rw [maxPkt] at hlen
    rw [List.mem_singleton.mp ho]
    exact ⟨rfl, by omega, rfl⟩

theorem onRelayData_outs (now : ℤ) (p : Bytes) (src : Addr) (q : P2PProxy) :
    ∀ o ∈ (P2PProxy.onRelayData now p src q).2,
      ∃ p', p'.length ≤ 2040 ∧ o.data = NatServer.datagram msgProxyRelayData p' := by
  unfold P2PProxy.onRelayData
  intro o ho
  split at ho
  · cases ho
  · dsimp only at ho
    split at ho
    · cases ho
    · rcases mem_andThen.mp ho with ho | ho
      · obtain ⟨-, hlen, hdata⟩ := send_outs _ _ _ _ o ho
        exact ⟨_, hlen, hdata⟩
      · cases ho

theorem handle_forwards (now : ℤ) (data : Bytes) (src : Addr) (q : P2PProxy) :
    ∀ o ∈ (P2PProxy.handle now data src q).2, Forwards src o := by
  have hsend (id : UInt8) (p : Bytes) (q : P2PProxy) : ∀ o ∈ (P2PProxy.send src id p q).2, Forwards src o :=
    fun o ho => ⟨.inl (send_outs _ _ _ _ o ho).1⟩
  have hnone (q : P2PProxy) : ∀ o ∈ ((q, []) : P2PProxy × List P2PProxy.Out).2, Forwards src o := nofun
  unfold P2PProxy.handle
  split
  · exact hnone q
  · unfold P2PProxy.dispatch
    split
    · unfold P2PProxy.onRegister
      split
      · exact hnone q
      · unfold P2PProxy.doRegister
        dsimp only
        simp only [if_true]
        split
        · exact hsend _ _ _
        · split
          · exact hsend _ _ _
          · split <;> exact hsend _ _ _
    split
    · exact hnone _
    split
    · exact fun o ho => ⟨.inr (onRelayData_outs now _ src q o ho)⟩
    split
    · unfold P2PProxy.onPunchHelper
      split
      · exact hnone q
      · split <;> exact hsend _ _ _
    split
    · exact hsend _ _ _
    · exact hnone q

theorem requests_registration {now : ℤ} {data : Bytes}
    (hread : NatServer.readDatagram data = some (msgProxyRegisterReq, registration K.cfg.uuid)) :
    P2PProxy.Requests ⟨now, data, K.client⟩ K.cfg.uuid := by
  obtain ⟨q, hq, hlen, hat, hmac⟩ := P2PProxy.regPacket_read K.proper now K.client
  have hsame : NatServer.readDatagram (P2PProxy.regPacket now K.cfg.uuid K.client).data =
      some (msgProxyRegisterReq, registration K.cfg.uuid) :=
    NatServer.readDatagram_datagram _ (lt_of_eq_of_lt (registration_length K.cfg.uuid) (by decide))
  rw [hsame, Option.some.injEq, Prod.mk.injEq] at hq
  exact ⟨K.proper.nonempty, registration K.cfg.uuid, hread, hq.2 ▸ hlen, hq.2 ▸ hat, hq.2 ▸ hmac⟩

/-- Of the client's requests, the relay knows the frames to forward only. -/
theorem dispatch_request (now : ℤ) {id : UInt8} (p : Bytes) (src : Addr) (h : requests.contains id = true) :
    P2PProxy.dispatch now id p src = P2PProxy.onRelayData now p src ∨
      P2PProxy.dispatch now id p src = skip := by
  have hother (id' : UInt8) (hid : requests.contains id' = false) : id ≠ id' := by
    rintro rfl
    rw [h] at hid
    cases hid
  unfold P2PProxy.dispatch
  rw [if_neg (hother msgProxyRegisterReq rfl), if_neg (hother msgProxyUnregisterReq rfl)]
  split
  · exact .inl rfl
  · rw [if_neg (hother msgProxyPunchHelper rfl), if_neg (hother msgSpAskExtinfoReq rfl)]
    exact .inr rfl

/-- A step of the relay that keeps the client, and whose answers are true afterwards. -/
structure Serves (K : Party) (q : P2PProxy) (r : P2PProxy × List P2PProxy.Out) : Prop where
  keeps : Keeps K q r.1
  answered : ∀ data ∈ sentToClient K r.2, Answered K r.1 data

theorem serves_nothing (q : P2PProxy) : Serves K q (q, []) := ⟨.same ⟨rfl, rfl, rfl⟩, nofun⟩

theorem serves_relayData (now : ℤ) (p : Bytes) (src : Addr) (q : P2PProxy) :
    Serves K q (P2PProxy.onRelayData now p src q) := by
  refine ⟨.same (P2PProxy.onRelayData_tables now p src q), fun data hd => ?_⟩
  obtain ⟨o, ho, -, rfl⟩ := mem_sentToClient hd
  obtain ⟨p', hlen, hdata⟩ := onRelayData_outs now p src q o ho
  rw [hdata]
  exact answered_relayData _ hlen

theorem answered_regRsp {q : P2PProxy} (result : UInt8) (pub : Option Addr) (h : result = 0 → Mapped K q) :
    Answered K q (NatServer.datagram msgProxyRegisterRsp (P2PProxy.regRsp result pub)) := by
  have hread := NatServer.readDatagram_datagram msgProxyRegisterRsp
    (lt_of_eq_of_lt (P2PProxy.regRsp_length result pub) (by decide))
  have hfirst : byteAt (P2PProxy.regRsp result pub) 0 = result := by
    cases pub <;> rfl
  refine ⟨⟨_, _, hread⟩, fun p hp _ hzero => ?_⟩
  rw [hread, Option.some.injEq, Prod.mk.injEq] at hp
  rw [← hp.2, hfirst] at hzero
  exact h hzero

theorem serves_registration {now : ℤ} {data : Bytes} {q : P2PProxy}
    (h : P2PProxy.Requests ⟨now, data, K.client⟩ K.cfg.uuid) :
    Serves K q (P2PProxy.handle now data K.client q) := by
  have hh := P2PProxy.handle_request h q
  dsimp only at hh
  rw [hh]
  split
  · refine ⟨.same ⟨rfl, rfl, rfl⟩, fun d hd => ?_⟩
    obtain ⟨o, ho, -, rfl⟩ := mem_sentToClient hd
    rw [List.mem_singleton.mp ho]
    exact answered_regRsp 1 none fun hc => absurd hc (by decide)
  · refine ⟨⟨fun _ => mapped_enroll now q, fun hback => hback.enroll now⟩, fun d hd => ?_⟩
    obtain ⟨o, ho, -, rfl⟩ := mem_sentToClient hd
    rw [List.mem_singleton.mp ho]
    exact answered_regRsp 0 _ fun _ => mapped_enroll now q

theorem serves_spoken (now : ℤ) {data : Bytes} (q : P2PProxy) (h : Spoken K data) :
    Serves K q (P2PProxy.handle now data K.client q) := by
  cases hread : NatServer.readDatagram data with
  | none =>
    rw [P2PProxy.handle, hread]
    exact serves_nothing q
  | some m =>
    obtain ⟨id, p⟩ := m
    rcases h id p hread with hid | ⟨rfl, rfl⟩
    · rw [P2PProxy.handle, hread]
      dsimp only
      rcases dispatch_request now p K.client hid with hd | hd <;> rw [hd]
      · exact serves_relayData now p K.client q
      · exact serves_nothing q
    · exact serves_registration (requests_registration hread)

/-- What other hosts send makes the relay forward frames to the client, and nothing else. -/
theorem serves_other {q : P2PProxy} (hback : Backed K q) {p : Packet} (hsrc : p.src ≠ K.client)
    (hreg : P2PProxy.registers q p ≠ some K.cfg.uuid) :
    Serves K q (P2PProxy.handle p.now p.data p.src q) := by
  refine ⟨keeps_other hback hsrc hreg, fun data hd => ?_⟩
  obtain ⟨o, ho, hdst, rfl⟩ := mem_sentToClient hd
  rcases (handle_forwards p.now p.data p.src q o ho).back with hc | ⟨p', hlen, hdata⟩
  · exact absurd (hc.symm.trans hdst) hsrc
  · rw [hdata]
    exact answered_relayData _ hlen

structure Inv (K : Party) (s : State) : Prop where
  cfg : s.client.cfg = K.cfg
  said : ∀ data ∈ s.toRelay, Spoken K data
  answers : ∀ data ∈ s.toClient, Answered K s.relay.proxy data
  believes : s.client.relay.relayRegistered = true → Mapped K s.relay.proxy
  backed : Backed K s.relay.proxy

theorem Answered.keeps {q q' : P2PProxy} {data : Bytes} (h : Answered K q data) (hk : Keeps K q q') :
    Answered K q' data :=
  ⟨h.read, fun p hp hlen hzero => hk.mapped (h.granted p hp hlen hzero)⟩

theorem Inv.serves (h : Inv K s) {r : P2PProxy × List P2PProxy.Out} (hr : Serves K s.relay.proxy r)
    (dead : Option (List UInt64)) :
    Inv K { s with relay := ⟨r.1, dead⟩, toClient := s.toClient ++ sentToClient K r.2 } := by
  refine ⟨h.cfg, h.said, fun data hd => ?_, fun hreg => hr.keeps.mapped (h.believes hreg), hr.keeps.backed h.backed⟩
  rcases List.mem_append.mp hd with hd | hd
  · exact (h.answers data hd).keeps hr.keeps
  · exact hr.answered data hd

theorem Inv.keeps (h : Inv K s) {q : P2PProxy} (hq : Keeps K s.relay.proxy q) (dead : Option (List UInt64)) :
    Inv K { s with relay := ⟨q, dead⟩ } :=
  ⟨h.cfg, h.said, fun data hd => (h.answers data hd).keeps hq, fun hreg => hq.mapped (h.believes hreg),
    hq.backed h.backed⟩

theorem Inv.speaks (h : Inv K s) {r : P2PClient × List P2PClient.Out} (hcfg : r.1.cfg = K.cfg)
    (hreg : r.1.relay.relayRegistered = true → Mapped K s.relay.proxy)
    (hout : ∀ o ∈ r.2, o.ordinary K.cfg.uuid = true) :
    Inv K { s with client := r.1, toRelay := s.toRelay ++ sentToRelay K r.2 } := by
  refine ⟨hcfg, fun data hd => ?_, h.answers, hreg, h.backed⟩
  rcases List.mem_append.mp hd with hd | hd
  · exact h.said data hd
  · obtain ⟨id, payload, ho, rfl⟩ := mem_sentToRelay hd
    exact spoken_of_ordinary (hout _ ho)

theorem start_fresh (env : P2PClient.Env) (cfg : Config) (c : P2PClient) :
    P2PClient.start env cfg c = none ∨ ∃ c', P2PClient.start env cfg c = some c' ∧ c'.cfg = cfg ∧
      c'.relay.relayRegistered = false := by
  cases hs : P2PClient.start env cfg c with
  | none => exact .inl rfl
  | some c' =>
    unfold P2PClient.start at hs
    split at hs
    · cases hs
    · split at hs
      · cases hs
      · split at hs
        · cases hs
        · split at hs
          · cases hs
          · cases hs
            exact .inr ⟨_, rfl, rfl, rfl⟩

theorem inv_client (h : Inv K s) (env : P2PClient.Env) {e : P2PClient.Event} (can : clientEnabled K s e) :
    Inv K (next K s (.client env e)) := by
  by_cases hstart : ∃ cfg, e = .start cfg
  · obtain ⟨cfg, rfl⟩ := hstart
    obtain rfl : cfg = K.cfg := can
    rcases start_fresh env K.cfg s.client with hs | ⟨c', hs, hcfg, hreg⟩
    · refine h.speaks ?_ ?_ (fun o ho => absurd ho List.not_mem_nil) <;>
        simp only [P2PClient.step, Effects.modify, hs, Option.getD_none]
      · exact h.cfg
      · exact h.believes
    · refine h.speaks ?_ ?_ (fun o ho => absurd ho List.not_mem_nil) <;>
        simp only [P2PClient.step, Effects.modify, hs, Option.getD_some]
      · exact hcfg
      · rw [hreg]
        exact fun h => absurd h Bool.false_ne_true
  by_cases hans : e.answers
  · cases e with
    | packet m len src =>
      obtain ⟨p, hp⟩ := hans
      have hmem := can.2 p hp
      obtain ⟨⟨id, p', hread⟩, hgranted⟩ := h.answers _ hmem
      have heq := (P2PClient.protoOf_of_readDatagram hread).symm.trans hp
      rw [Option.some.injEq, Prod.mk.injEq] at heq
      obtain ⟨rfl, rfl⟩ := heq
      obtain ⟨hcfg, hreg, hout⟩ := P2PClient.onProxyRegisterRsp_state (s := s.client) p'
      have hstep : P2PClient.step env (.packet m len src) s.client = P2PClient.onProxyRegisterRsp p' s.client :=
        P2PClient.handlePacket_registerRsp env src hp
      rw [← hstep] at hcfg hreg hout
      refine h.speaks (hcfg.trans h.cfg) (fun hr => ?_) (h.cfg ▸ hout)
      rcases hreg hr with hr | ⟨hlen, hzero⟩
      · exact h.believes hr
      · exact hgranted p' hread hlen hzero
    | _ => exact hans.elim
  · have ht := P2PClient.step_talks (s := s.client) env (fun cfg hc => hstart ⟨cfg, hc⟩)
      (fun hc => by subst hc; exact can) hans
    exact h.speaks (ht.cfg.trans h.cfg) (fun hr => h.believes (ht.registered ▸ hr)) (h.cfg ▸ ht.outs)

theorem inv_step {e : Event} (h : Inv K s) (can : enabled K s e) (hk : Kept K s e) : Inv K (next K s e) := by
  cases e with
  | client env e => exact inv_client h env can
  | deliver now data => exact h.serves (serves_spoken now s.relay.proxy (h.said data can)) s.relay.dead
  | other p => exact h.serves (serves_other h.backed can hk) s.relay.dead
  | expire now => exact h.keeps (keeps_expire hk) _
  | erase => exact h.keeps (keeps_erase _) _

theorem inv_init (hs : (system K).init s) : Inv K s := by
  obtain ⟨callbacks, maxProxy, rfl⟩ := hs
  refine ⟨rfl, nofun, nofun, nofun, fun k hk => ?_⟩
  rw [Std.ExtTreeMap.getElem?_empty] at hk
  cases hk

theorem inv_reach (h : Reach (system K) (Kept K) s) : Inv K s :=
  h.invariant (fun _ => inv_init) fun _ _ => inv_step

/-- A frame for the client comes out of the relay at its address. -/
def Forwarded (K : Party) (q : P2PProxy) : Prop :=
  ∀ now src p, P2PProxy.relayFrameSize ≤ p.length → p.length ≤ maxPkt - 8 →
    uuidAt ((p.set maxUuidLen 0).set (33 + maxUuidLen) 0) 33 = K.cfg.uuid →
    (P2PProxy.handle now (NatServer.datagram msgProxyRelayData p) src q).2 =
      [⟨K.client, NatServer.datagram msgProxyRelayData ((p.set maxUuidLen 0).set (33 + maxUuidLen) 0)⟩]

theorem Mapped.forwarded {q : P2PProxy} (h : Mapped K q) : Forwarded K q := by
  obtain ⟨e, he, ha⟩ := h
  intro now src p hlong hfits hto
  rw [maxPkt] at hfits
  have hread := NatServer.readDatagram_datagram msgProxyRelayData (show p.length < 4294967296 by omega)
  have hdispatch : P2PProxy.dispatch now msgProxyRelayData p src = P2PProxy.onRelayData now p src := rfl
  rw [P2PProxy.handle, hread]
  dsimp only
  rw [hdispatch, P2PProxy.onRelayData, if_neg (not_lt.mpr hlong)]
  dsimp only
  rw [hto, he]
  dsimp only
  rw [andThen, P2PProxy.send_small (by simpa using hfits), ha]
  rfl

theorem step_registers {q : P2PProxy} {p : Packet} {uuid : Bytes} (h : P2PProxy.registers q p = some uuid) :
    P2PProxy.step p q = q.enroll p.now uuid p.src := by
  cases P2PProxy.step_cases p q with
  | enrolled uuid' h' e =>
    rw [h, Option.some.injEq] at h'
    rw [e, h']
  | unregistered _ h' _ =>
    rw [h] at h'
    cases h'
  | other h' _ =>
    rw [h] at h'
    cases h'

/-- A step that the condition excludes takes the registration away. -/
theorem kept_of_mapped {e : Event} (can : enabled K s e) (h : Mapped K (next K s e).relay.proxy) : Kept K s e := by
  obtain ⟨x, hx, ha⟩ := h
  cases e with
  | expire now =>
    intro y hy
    change (P2PProxy.expire now s.relay.proxy).uuid2addr[K.cfg.uuid]? = some x at hx
    rw [P2PProxy.expire_get, hy, Option.filter_some] at hx
    cases hexp : P2PProxy.expired now y with
    | false => rfl
    | true =>
      rw [hexp] at hx
      cases hx
  | other p =>
    intro hreg
    change (P2PProxy.step p s.relay.proxy).uuid2addr[K.cfg.uuid]? = some x at hx
    rw [step_registers hreg, P2PProxy.enroll_uuid2addr, if_pos rfl, Option.some.injEq] at hx
    exact can ((congrArg UuidEntry.addr hx).trans ha)
  | client | deliver | erase => trivial

theorem mapped_next {e : Event} (h : Inv K s) (hreg : s.client.relay.relayRegistered = true)
    (can : enabled K s e) (hk : Kept K s e) : Mapped K (next K s e).relay.proxy := by
  have hi := inv_step h can hk
  cases e with
  | client env e => exact h.believes hreg
  | deliver | other | expire | erase => exact hi.believes hreg

/-- While every timer pass comes in time, the client believes what is true: the relay maps its uuid
to its address, and forwards the frames that are for it. A pass that comes later ends this. -/
theorem registration_alive (h : Reach (system K) (Kept K) s) (hreg : s.client.relay.relayRegistered = true) :
    Mapped K s.relay.proxy ∧ Forwarded K s.relay.proxy ∧
      ∀ e, enabled K s e → (Mapped K (next K s e).relay.proxy ↔ Kept K s e) := by
  have hi := inv_reach h
  have hmapped := hi.believes hreg
  exact ⟨hmapped, hmapped.forwarded, fun _ can => ⟨kept_of_mapped can, mapped_next hi hreg can⟩⟩

theorem tickRelay_says {now : UInt64} {c : P2PClient} {dst : Addr} (hdst : P2PClient.proxyAddr c = some dst)
    (h : (c.cfg.autoRelay && !c.relay.relayRegistered && !c.relay.proxies.isEmpty &&
      now ≥ c.relay.nextRelayReg) = true) :
    .proto dst msgProxyRegisterReq (registration c.cfg.uuid) ∈ (P2PClient.tickRelay now c).2 := by
  rw [P2PClient.tickRelay, if_pos h]
  refine mem_andThen.mpr (.inl ?_)
  rw [P2PClient.relayRegister, hdst]
  change _ ∈ (P2PClient.sendProto dst msgProxyRegisterReq (registration c.cfg.uuid) c).2
  rw [P2PClient.sendProto, if_neg (by rw [registration_length]; decide)]
  exact List.mem_singleton.mpr rfl

def relayAddr : Addr := ⟨0x0A000009, 4000⟩

def partyU : Party where
  cfg :=
    { uuid := Samples.uuidU
      natServers := [⟨inetNtop 0x0A000008, 3000⟩]
      proxyServers := [⟨inetNtop 0x0A000009, 4000⟩] }
  client := Samples.addrA
  relay := relayAddr
  proper := P2PProxy.proper_uuidU

def fresh : State := { client := { cfg := partyU.cfg }, relay := { proxy := { maxProxy := 10 } } }

def started : State := next partyU fresh (.client {} (.start partyU.cfg))

def asked : State := next partyU started (.client {} (.tick 0))

def registrationData : Bytes := NatServer.datagram msgProxyRegisterReq (registration Samples.uuidU)

def served : State := next partyU asked (.deliver 0 registrationData)

def grantData : Bytes := NatServer.datagram msgProxyRegisterRsp (P2PProxy.regRsp 0 (some Samples.addrA))

def granted : State :=
  next partyU served (.client {} (.packet (.ofBytes grantData fun _ => 0) grantData.length relayAddr))

theorem fresh_reach (ok : State → Event → Prop) : Reach (system partyU) ok fresh := .start ⟨{}, 10, rfl⟩

theorem registrationData_sent : registrationData ∈ asked.toRelay := by
  have hout : .proto relayAddr msgProxyRegisterReq (registration Samples.uuidU) ∈
      (P2PClient.tick {} 0 started.client).2 := by
    refine mem_andThen.mpr (.inr (mem_andThen.mpr (.inr (mem_andThen.mpr (.inr (mem_andThen.mpr (.inl ?_)))))))
    exact tickRelay_says (by decide +kernel) (by decide +kernel)
  refine List.mem_append_right _ (List.mem_filterMap.mpr ⟨_, hout, ?_⟩)
  exact if_pos rfl

theorem served_relay : P2PProxy.handle 0 registrationData Samples.addrA asked.relay.proxy =
    (P2PProxy.enroll 0 Samples.uuidU Samples.addrA { maxProxy := 10 }, [⟨Samples.addrA, grantData⟩]) := by
  have hread : NatServer.readDatagram registrationData =
      some (msgProxyRegisterReq, registration partyU.cfg.uuid) :=
    NatServer.readDatagram_datagram _ (lt_of_eq_of_lt (registration_length Samples.uuidU) (by decide))
  exact P2PProxy.handle_request (requests_registration hread) asked.relay.proxy

theorem deliver_relay (K : Party) (s : State) (now : ℤ) (data : Bytes) :
    (next K s (.deliver now data)).relay.proxy = (P2PProxy.handle now data K.client s.relay.proxy).1 ∧
      (next K s (.deliver now data)).relay.dead = s.relay.dead := ⟨rfl, rfl⟩

theorem client_tick (K : Party) (s : State) (env : P2PClient.Env) (now : UInt64) :
    (next K s (.client env (.tick now))).client = (P2PClient.tick env now s.client).1 := by
  rw [next, P2PClient.step]

theorem pass_client (K : Party) (s : State) (now : ℤ) : (next K s (.expire now)).client = s.client := rfl

theorem client_relay (K : Party) (s : State) (env : P2PClient.Env) (e : P2PClient.Event) :
    (next K s (.client env e)).relay = s.relay := rfl

theorem served_table : served.relay.proxy = P2PProxy.enroll 0 Samples.uuidU Samples.addrA { maxProxy := 10 } :=
  (deliver_relay partyU asked 0 registrationData).1.trans (congrArg Prod.fst served_relay)

theorem grantData_sent : grantData ∈ served.toClient := by
  refine List.mem_append_right _ ?_
  change grantData ∈ sentToClient partyU (P2PProxy.handle 0 registrationData Samples.addrA asked.relay.proxy).2
  rw [served_relay]
  exact List.mem_singleton.mpr rfl

theorem served_running : served.client.running = true :=
  (P2PClient.tick_made 0).mild.running.trans (by decide +kernel)

theorem grantData_read : P2PClient.protoOf (.ofBytes grantData fun _ => 0) grantData.length =
    some (msgProxyRegisterRsp, P2PProxy.regRsp 0 (some Samples.addrA)) := by
  apply P2PClient.protoOf_of_readDatagram
  rw [Memory.read_ofBytes]
  exact NatServer.readDatagram_datagram _ (lt_of_eq_of_lt (P2PProxy.regRsp_length 0 _) (by decide))

theorem granted_registered : granted.client.relay.relayRegistered = true := by
  have hstep := P2PClient.handlePacket_registerRsp (s := served.client) {} relayAddr grantData_read
  change (P2PClient.handlePacket {} (.ofBytes grantData fun _ => 0) grantData.length relayAddr
    served.client).1.relay.relayRegistered = true
  rw [hstep, P2PClient.onProxyRegisterRsp, if_neg (by rw [P2PProxy.regRsp_length]; decide)]
  rfl

theorem granted_running : granted.client.running = true := by
  rcases P2PClient.step_mild (s := served.client) {} (.packet (.ofBytes grantData fun _ => 0) grantData.length
    relayAddr) with ⟨_, hc⟩ | hc | hm
  · cases hc
  · cases hc
  · exact hm.running.trans served_running

/-- Nothing in this run depends on the time of a timer pass or on another host. -/
theorem granted_reach {ok : State → Event → Prop} (hok : ∀ s env e, ok s (.client env e))
    (hdeliver : ∀ s now data, ok s (.deliver now data)) : Reach (system partyU) ok granted := by
  have hrun : started.client.running = true := by decide +kernel
  have h1 : Reach (system partyU) ok started :=
    Reach.step (S := system partyU) (e := .client {} (.start partyU.cfg)) (fresh_reach ok) rfl (hok _ _ _)
  have h2 : Reach (system partyU) ok asked :=
    Reach.step (S := system partyU) (e := .client {} (.tick 0)) h1 hrun (hok _ _ _)
  have h3 : Reach (system partyU) ok served :=
    Reach.step (S := system partyU) (e := .deliver 0 registrationData) h2 registrationData_sent (hdeliver _ _ _)
  refine Reach.step (S := system partyU) (e := .client {} (.packet _ _ _)) h3 ⟨served_running, fun p _ => ?_⟩
    (hok _ _ _)
  rw [Memory.read_ofBytes]
  exact grantData_sent

theorem registration_alive_granted : Mapped partyU granted.relay.proxy ∧ Forwarded partyU granted.relay.proxy :=
  have h := registration_alive (K := partyU) (s := granted)
    (granted_reach (fun _ _ _ => trivial) fun _ _ _ => trivial) granted_registered
  ⟨h.1, h.2.1⟩

def ticked : State := next partyU granted (.client {} (.tick 121000))

theorem ticked_relay : ticked.relay = served.relay := by
  rw [ticked, client_relay, granted, client_relay]

theorem served_dead : served.relay.dead = none :=
  (deliver_relay partyU asked 0 registrationData).2.trans rfl

/-- The client goes on ticking, but the relay drops its registration after two minutes. -/
theorem registration_dropped : ¬∀ K s, Reachable (system K) s → s.client.relay.relayRegistered = true →
    Mapped K s.relay.proxy := by
  intro hall
  have hreach : Reachable (system partyU) granted := granted_reach (fun _ _ _ => trivial) fun _ _ _ => trivial
  have htick : Reachable (system partyU) ticked :=
    Reach.step (S := system partyU) (e := .client {} (.tick 121000)) hreach granted_running trivial
  have hidle : ticked.relay.dead = none := by rw [ticked_relay, served_dead]
  have hpass : Reachable (system partyU) (next partyU ticked (.expire 121)) :=
    Reach.step (S := system partyU) (e := .expire 121) htick hidle trivial
  have hreg : ticked.client.relay.relayRegistered = true := by
    rw [ticked, client_tick, ((P2PClient.tick_made 121000).talks rfl).registered, granted_registered]
  obtain ⟨e, he, -⟩ := hall partyU (next partyU ticked (.expire 121)) hpass (by rw [pass_client, hreg])
  change (P2PProxy.expire 121 ticked.relay.proxy).uuid2addr[Samples.uuidU]? = some e at he
  rw [ticked_relay, served_table, P2PProxy.expire_get, P2PProxy.enroll_uuid2addr, if_pos rfl] at he
  cases he

end P2PServer.RelayLife
