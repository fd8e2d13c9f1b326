import P2PServer.Codec

/-! The tunnel session of `Session.h`: logical channels over a reliable datagram
protocol with sequence numbers, cumulative acks, retransmission and an
out-of-order buffer. Frames are whole byte strings and both callbacks are outputs. -/
namespace P2PServer
open ByteStrings ProtoDef Codec

structure Session.Msg where
  seq : UInt16
  channelId : UInt8
  flags : UInt8
  data : Bytes
  sentMs : UInt64
  deriving DecidableEq, Repr

structure Session where
  sessionId : UInt16
  active : Bool := true
  nextSeq : UInt16 := 0
  expectedSeq : UInt16 := 0
  rtoMs : UInt32 := 400
  lastPingMs : UInt64 := 0
  pending : List Session.Msg := []
  ooo : Std.ExtTreeMap UInt16 Bytes := ∅
  slotChannel : Std.ExtTreeMap UInt16 UInt8 := ∅
  txBytes : UInt64 := 0
  rxBytes : UInt64 := 0
  deriving DecidableEq

namespace Session

/-- `tx` is a call of `on_tx`; `deliver` is a call of `deliver`, which hands the
payload to `on_data` only when it is not empty. -/
inductive Out
  | tx (frame : Bytes)
  | deliver (channelId : UInt8) (payload : Bytes)
  deriving DecidableEq, Repr

def txFrames (outs : List Out) : List Bytes :=
  outs.filterMap fun
    | .tx f => some f
    | .deliver _ _ => none

def delivered (outs : List Out) : List (UInt8 × Bytes) :=
  outs.filterMap fun
    | .tx _ => none
    | .deliver ch p => some (ch, p)

/-- The calls of `on_data`: `if (on_data && len > 0)`. -/
def onData (outs : List Out) : List (UInt8 × Bytes) :=
  (delivered outs).filter fun d => !d.2.isEmpty

/-- A zeroed vector of `14 + len` bytes filled by `codec_write_tunnel`. -/
def buildFrame (type : UInt8) (sessionId : UInt16) (channelId flags : UInt8)
    (seq ack : UInt16) (payload : Bytes) : Bytes :=
  let frame := List.replicate (14 + payload.length) 0
  match codecWriteTunnel frame.length type sessionId channelId flags seq ack payload
      (UInt16.ofNat payload.length) with
  | some w => overwrite frame w
  | none => frame

inductive SendResult
  | ok
  | badLength
  | windowFull
  deriving DecidableEq, Repr

/-- `send`: 0, -1 (payload too long) or -2 (window full). -/
def send (s : Session) (channelId : UInt8) (data : Bytes) (reliable : Bool) (now : UInt64) :
    SendResult × Session × List Out :=
  if data.length > maxTunnelPayload then (.badLength, s, [])
  else if reliable then
    if s.pending.length ≥ 64 then (.windowFull, s, [])
    else
      let seq := s.nextSeq
      let frame := buildFrame ttData s.sessionId channelId tfReliable seq 0 data
      let m : Msg := ⟨seq, channelId, tfReliable, frame, now⟩
      (.ok, { s with nextSeq := s.nextSeq + 1, pending := s.pending ++ [m] }, [.tx frame])
  else
    let frame := buildFrame ttData s.sessionId channelId 0 0 0 data
    (.ok, s, [.tx frame])

def deliver (s : Session) (payload : Bytes) (channelId : UInt8) : Session × List Out :=
  ({ s with rxBytes := s.rxBytes + UInt64.ofNat payload.length }, [.deliver channelId payload])

/-- One pass of the loop that empties the out-of-order buffer from its smallest key. -/
def drainStep (s : Session) (seq : UInt16) (payload : Bytes) : Session × List Out :=
  let ch := (s.slotChannel[seq]?).getD 0
  let r := deliver s payload ch
  ({ r.1 with
      slotChannel := r.1.slotChannel.erase seq
      ooo := r.1.ooo.erase seq
      expectedSeq := r.1.expectedSeq + 1 }, r.2)

/-- `while (!ooo_.empty() && ooo_.begin()->first == expected_seq_)`, run for at
most `fuel` passes. -/
def drainLoop : ℕ → Session → Session × List Out
  | 0, s => (s, [])
  | fuel + 1, s =>
    match s.ooo.toList.head? with
    | none => (s, [])
    | some (seq, payload) =>
      if seq = s.expectedSeq then
        let r := drainStep s seq payload
        let r' := drainLoop fuel r.1
        (r'.1, r.2 ++ r'.2)
      else (s, [])

/-- Each pass removes one entry, so the size of the buffer bounds the passes. -/
def drain (s : Session) : Session × List Out := drainLoop s.ooo.size s

def sendAck (s : Session) : List Out :=
  let ack := if s.expectedSeq > 0 then s.expectedSeq - 1 else 0
  [.tx (buildFrame ttAck s.sessionId 0 0 0 ack [])]

def handleData (s : Session) (t : WireTunnel) : Session × List Out :=
  let s := { s with txBytes := s.txBytes + t.len.toUInt64 }
  if t.flags &&& tfReliable ≠ 0 then
    if t.seq = s.expectedSeq then
      let r := deliver s t.payload t.channelId
      let r' := drain { r.1 with expectedSeq := r.1.expectedSeq + 1 }
      (r'.1, r.2 ++ r'.2 ++ sendAck r'.1)
    else if t.seq > s.expectedSeq ∧ s.ooo.size < 64 then
      let s' := { s with
        ooo := s.ooo.insert t.seq t.payload
        slotChannel := s.slotChannel.insert t.seq t.channelId }
      (s', sendAck s')
    else (s, sendAck s)
  else deliver s t.payload t.channelId

/-- `(int16_t)(seq - ack) <= 0`. -/
def acked (seq ack : UInt16) : Bool := (seq - ack).toInt16 ≤ 0

def handleAck (s : Session) (ack : UInt16) : Session :=
  { s with pending := s.pending.dropWhile fun m => acked m.seq ack }

def replyPong (s : Session) : List Out := [.tx (buildFrame ttPong s.sessionId 0 0 0 0 [])]

def onFrame (s : Session) (buf : Bytes) : Session × List Out :=
  match codecReadTunnel buf with
  | none => (s, [])
  | some t =>
    if t.type = ttData then handleData s t
    else if t.type = ttAck then (handleAck s t.ack, [])
    else if t.type = ttPing then (s, replyPong s)
    else if t.type = ttClose then ({ s with active := false }, [])
    else (s, [])

/-- `now - m.sent_ms >= rto_ms_` in 64-bit arithmetic. -/
def due (s : Session) (now : UInt64) (m : Msg) : Bool := now - m.sentMs ≥ s.rtoMs.toUInt64

def tick (s : Session) (now : UInt64) : Session × List Out :=
  let ping := now - s.lastPingMs ≥ 15000
  let s1 := if ping then { s with lastPingMs := now } else s
  let outs := if ping then [Out.tx (buildFrame ttPing s.sessionId 0 0 0 0 [])] else []
  ({ s1 with pending := s1.pending.map fun m => if due s1 now m then { m with sentMs := now } else m },
    outs ++ (s1.pending.filter (due s1 now)).map fun m => .tx m.data)

theorem buildFrame_eq (type : UInt8) (sessionId : UInt16) (channelId flags : UInt8)
    (seq ack : UInt16) (payload : Bytes) (h : payload.length < 65536) :
    buildFrame type sessionId channelId flags seq ack payload =
      tunnelHeader type sessionId channelId flags seq ack (UInt16.ofNat payload.length) ++ payload := by
  have hl : (UInt16.ofNat payload.length).toNat = payload.length := by
    rw [UInt16.toNat_ofNat']
    omega
  have hw : codecWriteTunnel (List.replicate (14 + payload.length) (0 : UInt8)).length type
      sessionId channelId flags seq ack payload (UInt16.ofNat payload.length) =
      some (tunnelHeader type sessionId channelId flags seq ack
        (UInt16.ofNat payload.length) ++ payload) := by
    rw [codecWriteTunnel, hl, List.take_length, if_neg]
    rw [List.length_replicate]
    omega
  simp only [buildFrame, hw, overwrite]
  rw [List.drop_eq_nil_of_le, List.append_nil]
  simp

theorem codecReadTunnel_buildFrame (type : UInt8) (sessionId : UInt16) (channelId flags : UInt8)
    (seq ack : UInt16) (payload : Bytes) (h : payload.length < 65536) :
    codecReadTunnel (buildFrame type sessionId channelId flags seq ack payload) =
      some ⟨type, sessionId, channelId, flags, seq, ack, payload, UInt16.ofNat payload.length⟩ := by
  have hl : (UInt16.ofNat payload.length).toNat = payload.length := by
    rw [UInt16.toNat_ofNat']
    omega
  rw [buildFrame_eq _ _ _ _ _ _ _ h, codecReadTunnel_header _ _ _ _ _ _ _ _ hl.le, hl,
    List.take_length]

end Session

end P2PServer
