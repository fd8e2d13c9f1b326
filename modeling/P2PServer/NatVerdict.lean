import P2PServer.ClientLoop
import P2PServer.NatTypeCheck

/-! The verdict of a probe behind a NAT: the client's phases, the answers of the server and what
the NAT lets through. -/
namespace P2PServer.NatDetect
open ByteStrings ProtoDef Net Codec

/-- A NAT in front of the client's socket. -/
structure Gateway where
  ip : UInt32
  mapping : Addr → UInt16
  filtered : Bool

namespace Gateway

/-- The address under which a destination sees the client. -/
def external (g : Gateway) (dst : Addr) : Addr := ⟨g.ip, g.mapping dst⟩

/-- Whether a datagram comes in, after the client has sent to the endpoints `sent`. -/
def passes (g : Gateway) (sent : List Addr) (src dst : Addr) : Bool :=
  sent.any fun e => g.external e = dst && (!g.filtered || e = src)

end Gateway

inductive Kind
  | fullCone
  | portRestricted
  | symmetric
  deriving DecidableEq, Repr

def Kind.code : Kind → UInt8
  | .fullCone => natFullCone
  | .portRestricted => natPortRestricted
  | .symmetric => natSymmetric

/-- The class of a NAT. Of a symmetric one it matters that it tells these two endpoints apart. -/
def Gateway.Is (g : Gateway) (a b : Addr) : Kind → Prop
  | .fullCone => (∀ d e, g.mapping d = g.mapping e) ∧ g.filtered = false
  | .portRestricted => (∀ d e, g.mapping d = g.mapping e) ∧ g.filtered = true
  | .symmetric => g.mapping a ≠ g.mapping b ∧ g.filtered = true

def answers (g : Gateway) (server : NatTypeCheck) (host : UInt32) (sent : List Addr) (dst : Addr) :
    List Bytes :=
  (((server.tryFastHandle NatTypeCheck.request (g.external dst)).getD []).filter fun o =>
    g.passes (sent ++ [dst]) ⟨host, o.port⟩ o.dst).map (·.data)

/-- `handle_packet` of an answer, which stands at the start of the receive buffer. -/
def receive (behind : Memory) (d : NatDetect) (data : Bytes) : NatDetect :=
  d.feed ((Memory.ofBytes data behind).offset 8) (data.length - 8)

/-- The retry period after the deadline has passed. -/
def Due (d : NatDetect) (now : UInt64) : Prop := now ≥ d.deadline + d.retryMs.toUInt64

/-- A probe of the main port, its answers `rs`, the timeout, and the answers to what it sends. -/
structure Run (g : Gateway) (server : NatTypeCheck) (host : UInt32) where
  detect : NatDetect
  startMs : UInt64
  timeoutMs : UInt64
  behind : Memory
  first : List Bytes
  second : List Bytes

namespace Run

variable {g : Gateway} {server : NatTypeCheck} {host : UInt32}

def afterMain (r : Run g server host) : NatDetect :=
  r.first.foldl (receive r.behind) (r.detect.start r.startMs)

def ticked (r : Run g server host) : NatDetect × Option UInt16 :=
  if r.afterMain.isDone then (r.afterMain, none)
  else r.afterMain.tick server.mainPort server.altPort r.timeoutMs

def final (r : Run g server host) : NatDetect := r.second.foldl (receive r.behind) r.ticked.1

/-- Every answer that the NAT lets through is delivered, in any order, and the timeout comes. -/
structure Lawful (r : Run g server host) : Prop where
  first : r.first.Perm (answers g server host [] ⟨host, server.mainPort⟩)
  timeout : r.afterMain.isDone = false → Due r.afterMain r.timeoutMs
  second : r.second.Perm (match r.ticked.2 with
    | some port => answers g server host [⟨host, server.mainPort⟩] ⟨host, port⟩
    | none => [])

end Run

/-- An answer with this index and mapped port, as `feed` reads it. -/
structure Answer (m : Memory) (index : UInt8) (port : UInt16) : Prop where
  index : m 0 = index
  port : rd16 (m 35) (m 36) = port

theorem receive_sendRsp (server : NatTypeCheck) (port : UInt16) (dst : Addr) (index : UInt8)
    (behind : Memory) : ∃ m, Answer m index dst.port ∧
      ∀ d, receive behind d (server.sendRsp port dst index).data = d.feed m 41 := by
  obtain ⟨h0, -, h35⟩ := NatTypeCheck.detectRsp_fields index ⟨0, port⟩ dst server.mainPort server.altPort
  have hlen := NatTypeCheck.detectRsp_length index ⟨0, port⟩ dst server.mainPort server.altPort
  generalize hp : NatTypeCheck.detectRsp index ⟨0, port⟩ dst server.mainPort server.altPort = p at h0 h35 hlen
  have hdata : (server.sendRsp port dst index).data = NatServer.datagram msgNatDetectRsp p := by
    rw [NatTypeCheck.sendRsp, hp]
  have hbyte {i : ℕ} (hi : i < 41) :
      (Memory.ofBytes (NatServer.datagram msgNatDetectRsp p) behind).offset 8 i = byteAt p i := by
    have hget : (NatServer.datagram msgNatDetectRsp p)[8 + i]? = p[i]? := by
      rw [NatServer.datagram, List.getElem?_append_right (by simp)]
      simp
    rw [Memory.offset, Memory.ofBytes, hget, List.getElem?_eq_getElem (by omega), byteAt,
      List.getD_eq_getElem _ _ (by omega)]
    rfl
  refine ⟨_, ⟨(hbyte (by omega)).trans h0, ?_⟩, fun d => ?_⟩
  · rw [hbyte (by omega), hbyte (by omega)]
    exact h35
  · rw [receive, hdata, NatServer.datagram, List.length_append, codecWriteHead_length, hlen]

/-- The client's packet handler does nothing else with an answer. -/
theorem handlePacket_sendRsp (env : P2PClient.Env) (server : NatTypeCheck) (port : UInt16) (dst : Addr)
    (index : UInt8) (behind : Memory) (src : Addr) (s : P2PClient) :
    let data := (server.sendRsp port dst index).data
    P2PClient.handlePacket env (.ofBytes data behind) data.length src s =
      ({ s with natDetect := receive behind s.natDetect data }, []) := by
  intro data
  have hdata : data = NatServer.datagram msgNatDetectRsp
      (NatTypeCheck.detectRsp index ⟨0, port⟩ dst server.mainPort server.altPort) := rfl
  have hlen : data.length = 49 := by
    rw [hdata, NatServer.datagram, List.length_append, codecWriteHead_length, NatTypeCheck.detectRsp_length]
  have hhead : codecReadHead ((Memory.ofBytes data behind).read 0 data.length) =
      some ⟨natMagic, protoVer, msgNatDetectRsp, 41⟩ := by
    rw [Memory.read_ofBytes, hdata, NatServer.datagram, codecReadHead_write, NatTypeCheck.detectRsp_length]
    rfl
  rw [P2PClient.handlePacket, hhead, receive, hlen]
  rfl

section
variable {m : Memory} {d : NatDetect} {port : UInt16}

theorem feed_done (h : d.phase = .done) (m : Memory) (len : ℕ) : d.feed m len = d := by
  unfold feed
  rw [h]
  split <;> rfl

/-- The answer from the main port while nothing else has arrived. -/
theorem feed_main_zero (h : d.phase = .main) (h1 : d.gotMainIdx1 = false) (hm : Answer m 0 port) :
    d.feed m 41 = { d with gotMainIdx0 := true, mappedIpMain := m.read 19 16, mappedPortMain := port } := by
  simp [feed, h, h1, hm.index, hm.port]

theorem feed_main_one (h : d.phase = .main) (h0 : d.gotMainIdx0 = false) (hm : Answer m 1 port) :
    d.feed m 41 = { d with gotMainIdx1 := true } := by
  simp [feed, h, h0, hm.index]

/-- The second of the two answers makes the verdict. -/
theorem feed_main_both (h : d.phase = .main) {index : UInt8} (hm : Answer m index port)
    (hgot : index = 0 ∧ d.gotMainIdx1 = true ∨ index = 1 ∧ d.gotMainIdx0 = true) :
    (d.feed m 41).phase = .done ∧ (d.feed m 41).nattype = natFullCone := by
  rcases hgot with ⟨rfl, hg⟩ | ⟨rfl, hg⟩ <;> simp [feed, h, hg, hm.index]

theorem feed_alt_zero (h : d.phase = .alt) (hm : Answer m 0 port) :
    d.feed m 41 = classify { d with gotAlt := true, mappedPortAlt := port } := by
  simp [feed, h, hm.index, hm.port]

/-- The answer from the second port itself is not taken. -/
theorem feed_alt_one (h : d.phase = .alt) (hm : Answer m 1 port) : d.feed m 41 = d := by
  simp [feed, h, hm.index]

end

section
variable {g : Gateway} {server : NatTypeCheck} {host : UInt32}

/-- The answer to a probe of `dst` from the main socket, and the one from the other socket. -/
def zero (g : Gateway) (server : NatTypeCheck) (dst : Addr) : Bytes :=
  (server.sendRsp server.mainPort (g.external dst) 0).data

def one (g : Gateway) (server : NatTypeCheck) (dst : Addr) : Bytes :=
  (server.sendRsp server.altPort (g.external dst) 1).data

theorem answers_eq (sent : List Addr) (dst : Addr) : answers g server host sent dst =
    (if g.passes (sent ++ [dst]) ⟨host, server.mainPort⟩ (g.external dst) then [zero g server dst] else []) ++
      if g.passes (sent ++ [dst]) ⟨host, server.altPort⟩ (g.external dst) then [one g server dst] else [] := by
  simp only [answers, NatTypeCheck.tryFastHandle_request, Option.getD_some, NatTypeCheck.dualReply,
    List.filter_cons, List.filter_nil, NatTypeCheck.sendRsp]
  split <;> split <;> rfl

theorem answers_open (h : g.filtered = false) (sent : List Addr) (dst : Addr) :
    answers g server host sent dst = [zero g server dst, one g server dst] := by
  simp [answers_eq, Gateway.passes, h]

/-- A filter that has seen one mapping lets those through that were sent to. -/
theorem answers_restricted (hm : ∀ d e, g.mapping d = g.mapping e) (h : g.filtered = true)
    (sent : List Addr) (dst : Addr) : answers g server host sent dst =
      (if (⟨host, server.mainPort⟩ : Addr) ∈ sent ++ [dst] then [zero g server dst] else []) ++
        if (⟨host, server.altPort⟩ : Addr) ∈ sent ++ [dst] then [one g server dst] else [] := by
  have hext (e : Addr) : g.external e = g.external dst := by rw [Gateway.external, hm e dst, Gateway.external]
  have hpass (src : Addr) : g.passes (sent ++ [dst]) src (g.external dst) = true ↔ src ∈ sent ++ [dst] := by
    simp only [Gateway.passes, h, hext, List.any_eq_true]
    simp
  rw [answers_eq]
  simp only [hpass]

theorem answers_symmetric {sent : List Addr} {dst : Addr} (h : g.filtered = true)
    (hm : ∀ e ∈ sent, g.mapping e ≠ g.mapping dst) : answers g server host sent dst =
      (if (⟨host, server.mainPort⟩ : Addr) = dst then [zero g server dst] else []) ++
        if (⟨host, server.altPort⟩ : Addr) = dst then [one g server dst] else [] := by
  have hpass (src : Addr) : g.passes (sent ++ [dst]) src (g.external dst) = true ↔ src = dst := by
    simp only [Gateway.passes, h, List.any_append, List.any_cons, List.any_nil]
    have hold : (sent.any fun e => decide (g.external e = g.external dst) && (!true || decide (e = src))) = false := by
      rw [List.any_eq_false]
      intro e he
      have hne : g.external e ≠ g.external dst := fun hc => hm e he (congrArg Addr.port hc)
      simp [hne]
    rw [hold]
    simp [eq_comm]
  rw [answers_eq]
  simp only [hpass]

end

theorem perm_pair {α : Type*} {l : List α} {a b : α} (h : l.Perm [a, b]) : l = [a, b] ∨ l = [b, a] := by
  have hmem := List.mem_permutations.mpr h
  simpa [List.permutations] using hmem

section
variable {g : Gateway} {server : NatTypeCheck} {host : UInt32} {r : Run g server host}

def Correct (k : Kind) (d : NatDetect) : Prop := d.isDone = true ∧ d.nattype = k.code

theorem afterMain_zero (h : r.first = [zero g server ⟨host, server.mainPort⟩]) :
    ∃ ip, r.afterMain = { r.detect.start r.startMs with
      gotMainIdx0 := true, mappedIpMain := ip, mappedPortMain := g.mapping ⟨host, server.mainPort⟩ } := by
  obtain ⟨m, hm, hr⟩ := receive_sendRsp server server.mainPort (g.external ⟨host, server.mainPort⟩) 0 r.behind
  refine ⟨m.read 19 16, ?_⟩
  rw [Run.afterMain, h, List.foldl_cons, List.foldl_nil, zero, hr]
  exact feed_main_zero rfl rfl hm

theorem ticked_zero (hl : r.Lawful) (h : r.first = [zero g server ⟨host, server.mainPort⟩]) :
    r.ticked.2 = some server.altPort ∧ r.ticked.1.phase = .alt ∧
      r.ticked.1.mappedPortMain = g.mapping ⟨host, server.mainPort⟩ := by
  obtain ⟨ip, hmain⟩ := afterMain_zero h
  have hopen : r.afterMain.isDone = false := by rw [hmain]; rfl
  have hdue := hl.timeout hopen
  unfold Run.ticked
  rw [hopen, if_neg Bool.false_ne_true]
  rw [hmain] at hdue ⊢
  unfold Due at hdue
  simp only [tick, hdue, if_true]
  exact ⟨rfl, rfl, rfl⟩

theorem correct_fullCone (hl : r.Lawful) (h : g.filtered = false) : Correct .fullCone r.final := by
  have hfirst := hl.first
  rw [answers_open h] at hfirst
  obtain ⟨m₀, hm₀, hr₀⟩ := receive_sendRsp server server.mainPort (g.external ⟨host, server.mainPort⟩) 0 r.behind
  obtain ⟨m₁, hm₁, hr₁⟩ := receive_sendRsp server server.altPort (g.external ⟨host, server.mainPort⟩) 1 r.behind
  have hmain : r.afterMain.phase = .done ∧ r.afterMain.nattype = natFullCone := by
    unfold Run.afterMain
    rcases perm_pair hfirst with hp | hp
    · rw [hp, List.foldl_cons, List.foldl_cons, List.foldl_nil, zero, one, hr₀, hr₁,
        feed_main_zero rfl rfl hm₀]
      exact feed_main_both rfl hm₁ (.inr ⟨rfl, rfl⟩)
    · rw [hp, List.foldl_cons, List.foldl_cons, List.foldl_nil, zero, one, hr₀, hr₁,
        feed_main_one rfl rfl hm₁]
      exact feed_main_both rfl hm₀ (.inl ⟨rfl, rfl⟩)
  have hdone : r.afterMain.isDone = true := decide_eq_true hmain.1
  have hticked : r.ticked = (r.afterMain, none) := if_pos hdone
  have hsecond := hl.second
  rw [hticked] at hsecond
  have hfinal : r.final = r.afterMain := by
    rw [Run.final, hticked, List.perm_nil.mp hsecond]
    rfl
  rw [Correct, hfinal]
  exact ⟨hdone, hmain.2⟩

/-- The main socket answers the second probe with the same mapped port. -/
theorem correct_portRestricted (hl : r.Lawful) (hports : server.mainPort ≠ server.altPort)
    (hm : ∀ d e, g.mapping d = g.mapping e) (h : g.filtered = true) : Correct .portRestricted r.final := by
  have hfirst := hl.first
  rw [answers_restricted hm h] at hfirst
  have hother : (⟨host, server.altPort⟩ : Addr) ≠ ⟨host, server.mainPort⟩ :=
    fun hc => hports (congrArg Addr.port hc).symm
  simp only [List.nil_append, List.mem_singleton, if_true, if_neg hother, List.append_nil] at hfirst
  obtain ⟨hport, hphase, hmapped⟩ := ticked_zero hl (List.perm_singleton.mp hfirst)
  have hsecond := hl.second
  rw [hport] at hsecond
  dsimp only at hsecond
  rw [answers_restricted hm h] at hsecond
  simp only [List.singleton_append, List.mem_cons, true_or, or_true, if_true] at hsecond
  obtain ⟨m₀, hm₀, hr₀⟩ := receive_sendRsp server server.mainPort (g.external ⟨host, server.altPort⟩) 0 r.behind
  obtain ⟨m₁, hm₁, hr₁⟩ := receive_sendRsp server server.altPort (g.external ⟨host, server.altPort⟩) 1 r.behind
  have hclass : Correct .portRestricted (r.ticked.1.feed m₀ 41) := by
    have hsame : (g.external ⟨host, server.altPort⟩).port = r.ticked.1.mappedPortMain := by
      rw [hmapped]
      exact hm _ _
    rw [feed_alt_zero hphase hm₀, hsame]
    simp [Correct, classify, isDone, Kind.code]
  unfold Run.final
  rcases perm_pair hsecond with hp | hp
  · rw [hp, List.foldl_cons, List.foldl_cons, List.foldl_nil, zero, one, hr₀, hr₁,
      feed_done (of_decide_eq_true hclass.1)]
    exact hclass
  · rw [hp, List.foldl_cons, List.foldl_cons, List.foldl_nil, zero, one, hr₀, hr₁, feed_alt_one hphase hm₁]
    exact hclass

/-- The only answer to the second probe is the one that is not taken. -/
theorem symmetric_unfinished (hl : r.Lawful) (hports : server.mainPort ≠ server.altPort)
    (hm : g.mapping ⟨host, server.mainPort⟩ ≠ g.mapping ⟨host, server.altPort⟩) (h : g.filtered = true) :
    r.final.isDone = false := by
  have hfirst := hl.first
  rw [answers_symmetric h (by simp)] at hfirst
  have hother : (⟨host, server.altPort⟩ : Addr) ≠ ⟨host, server.mainPort⟩ :=
    fun hc => hports (congrArg Addr.port hc).symm
  simp only [if_true, if_neg hother, List.append_nil] at hfirst
  obtain ⟨hport, hphase, -⟩ := ticked_zero hl (List.perm_singleton.mp hfirst)
  have hsecond := hl.second
  rw [hport] at hsecond
  dsimp only at hsecond
  rw [answers_symmetric h (by simpa using hm)] at hsecond
  simp only [if_true, if_neg hother.symm, List.nil_append] at hsecond
  obtain ⟨m₁, hm₁, hr₁⟩ := receive_sendRsp server server.altPort (g.external ⟨host, server.altPort⟩) 1 r.behind
  rw [Run.final, List.perm_singleton.mp hsecond, List.foldl_cons, List.foldl_nil, one, hr₁,
    feed_alt_one hphase hm₁]
  simp [isDone, hphase]

/-- A run of a fresh client in which the answers come in the order in which they were sent. -/
def orderly (g : Gateway) (server : NatTypeCheck) (host : UInt32) : Run g server host where
  detect := {}
  startMs := 0
  timeoutMs := 3000
  behind := fun _ => 0
  first := answers g server host [] ⟨host, server.mainPort⟩
  second := answers g server host [⟨host, server.mainPort⟩] ⟨host, server.altPort⟩

theorem orderly_lawful (hports : server.mainPort ≠ server.altPort) (h : g.filtered = true) :
    (orderly g server host).Lawful := by
  have hother : (⟨host, server.altPort⟩ : Addr) ≠ ⟨host, server.mainPort⟩ :=
    fun hc => hports (congrArg Addr.port hc).symm
  have hfirst : (orderly g server host).first = [zero g server ⟨host, server.mainPort⟩] := by
    rw [orderly, answers_symmetric h (by simp)]
    simp [hother]
  obtain ⟨ip, hmain⟩ := afterMain_zero hfirst
  have hdue : Due (orderly g server host).afterMain (orderly g server host).timeoutMs := by
    rw [hmain]
    change (3000 : UInt64) ≥ 0 + 2500 + 500
    decide
  have hticked : (orderly g server host).ticked.2 = some server.altPort := by
    unfold Run.ticked
    unfold Due at hdue
    rw [hmain] at hdue ⊢
    simp only [tick, hdue, if_true]
    rfl
  refine ⟨.refl _, fun _ => hdue, ?_⟩
  rw [hticked]
  exact .refl _

/-- Exactly the symmetric NAT is not recognised, in whatever order the answers come. -/
theorem correct_iff {k : Kind} (hk : g.Is ⟨host, server.mainPort⟩ ⟨host, server.altPort⟩ k)
    (hports : server.mainPort ≠ server.altPort) :
    (∀ r : Run g server host, r.Lawful → Correct k r.final) ↔ k ≠ .symmetric := by
  cases k with
  | fullCone => exact ⟨fun _ => by decide, fun _ r hl => correct_fullCone hl hk.2⟩
  | portRestricted =>
    exact ⟨fun _ => by decide, fun _ r hl => correct_portRestricted hl hports hk.1 hk.2⟩
  | symmetric =>
    refine ⟨fun h => ?_, fun h => absurd rfl h⟩
    have hl : (orderly g server host).Lawful := orderly_lawful hports hk.2
    have hdone := (h _ hl).1
    rw [symmetric_unfinished hl hports hk.1 hk.2] at hdone
    cases hdone

end

/-- Each destination port has its own external port. -/
def perPort : Gateway := ⟨0xCB007101, fun dst => dst.port, true⟩

def twoPorts : NatTypeCheck := ⟨7000, 7001⟩

theorem perPort_symmetric : perPort.Is ⟨0, twoPorts.mainPort⟩ ⟨0, twoPorts.altPort⟩ .symmetric :=
  ⟨by decide, rfl⟩

/-- One external port for every destination. -/
def onePort : Gateway := ⟨0xCB007101, fun _ => 40000, true⟩

theorem onePort_cone : onePort.Is ⟨0, twoPorts.mainPort⟩ ⟨0, twoPorts.altPort⟩ .portRestricted :=
  ⟨fun _ _ => rfl, rfl⟩

theorem correct_iff_gateways :
    Correct .portRestricted (orderly onePort twoPorts 0).final ∧
    ¬∀ r : Run perPort twoPorts 0, r.Lawful → Correct .symmetric r.final := by
  have hcone := correct_iff onePort_cone (by decide)
  have hsymmetric := correct_iff perPort_symmetric (by decide)
  exact ⟨hcone.mpr (by decide) _ (orderly_lawful (by decide) onePort_cone.2),
    fun h => hsymmetric.mp h rfl⟩

theorem symmetric_not_correct : ¬∀ (g : Gateway) (server : NatTypeCheck) (host : UInt32) (k : Kind),
    g.Is ⟨host, server.mainPort⟩ ⟨host, server.altPort⟩ k → server.mainPort ≠ server.altPort →
    ∀ r : Run g server host, r.Lawful → Correct k r.final := by
  intro h
  have hports : twoPorts.mainPort ≠ twoPorts.altPort := by decide
  have hl : (orderly perPort twoPorts 0).Lawful := orderly_lawful hports perPort_symmetric.2
  have hdone := (h perPort twoPorts 0 .symmetric perPort_symmetric hports _ hl).1
  rw [symmetric_unfinished hl hports perPort_symmetric.1 perPort_symmetric.2] at hdone
  cases hdone

end P2PServer.NatDetect
