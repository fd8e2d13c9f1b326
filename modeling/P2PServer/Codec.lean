import P2PServer.ProtoDef

/-! Building and parsing of XN message heads and PT tunnel frames (`Codec.h`). -/
namespace P2PServer.Codec
open ByteStrings ProtoDef

structure WireHead where
  magic : UInt16
  version : UInt8
  msgId : UInt8
  length : UInt32
  deriving DecidableEq, Repr

def codecWriteHead (msgId : UInt8) (payloadLen : UInt32) : Bytes :=
  be16 natMagic ++ [protoVer, msgId] ++ be32 payloadLen

def codecReadHead : Bytes → Option WireHead
  | b0 :: b1 :: b2 :: b3 :: b4 :: b5 :: b6 :: b7 :: _ =>
    let h : WireHead := ⟨rd16 b0 b1, b2, b3, rd32 b4 b5 b6 b7⟩
    if h.magic ≠ natMagic then none
    else if h.version ≠ protoVer then none
    else some h
  | _ => none

structure WireTunnel where
  type : UInt8
  sessionId : UInt16
  channelId : UInt8
  flags : UInt8
  seq : UInt16
  ack : UInt16
  payload : Bytes
  len : UInt16
  deriving DecidableEq, Repr

def tunnelHeader (type : UInt8) (sessionId : UInt16) (channelId flags : UInt8)
    (seq ack len : UInt16) : Bytes :=
  be16 tunnelMagic ++ [tunnelVer, type] ++ be16 sessionId ++ [channelId, flags] ++
    be16 seq ++ be16 ack ++ be16 len

/-- The bytes stored from `buf[0]` on; `none` is the return value -1, and a
result otherwise has the returned length `14 + len`. -/
def codecWriteTunnel (cap : ℤ) (type : UInt8) (sessionId : UInt16) (channelId flags : UInt8)
    (seq ack : UInt16) (payload : Bytes) (len : UInt16) : Option Bytes :=
  if 8 + (len.toNat : ℤ) > cap then none
  else some (tunnelHeader type sessionId channelId flags seq ack len ++ payload.take len.toNat)

/-- `payload` is the part of the buffer the parsed frame points at. -/
def codecReadTunnel : Bytes → Option WireTunnel
  | b0 :: b1 :: b2 :: b3 :: b4 :: b5 :: b6 :: b7 :: b8 :: b9 :: b10 :: b11 :: b12 :: b13 :: rest =>
    if b0 ≠ UInt8.ofNat (tunnelMagic.toNat / 256) ∨ b1 ≠ tunnelMagic.toUInt8 then none
    else if b2 ≠ tunnelVer then none
    else
      let len := rd16 b12 b13
      if len.toNat > rest.length then none
      else some ⟨b3, rd16 b4 b5, b6, b7, rd16 b8 b9, rd16 b10 b11, rest.take len.toNat, len⟩
  | _ => none

@[simp] theorem codecWriteHead_length (msgId : UInt8) (n : UInt32) :
    (codecWriteHead msgId n).length = 8 := rfl

@[simp] theorem tunnelHeader_length (type : UInt8) (sessionId : UInt16) (channelId flags : UInt8)
    (seq ack len : UInt16) :
    (tunnelHeader type sessionId channelId flags seq ack len).length = 14 := rfl

theorem codecReadHead_write (msgId : UInt8) (n : UInt32) (tail : Bytes) :
    codecReadHead (codecWriteHead msgId n ++ tail) = some ⟨natMagic, protoVer, msgId, n⟩ := by
  simp [codecWriteHead, codecReadHead, be16, be32]

theorem length_of_codecReadHead {b : Bytes} {h : WireHead} (hh : codecReadHead b = some h) :
    8 ≤ b.length := by
  unfold codecReadHead at hh
  split at hh
  · simp
  · cases hh

theorem codecReadTunnel_header (type : UInt8) (sessionId : UInt16) (channelId flags : UInt8)
    (seq ack len : UInt16) (payload : Bytes) (h : len.toNat ≤ payload.length) :
    codecReadTunnel (tunnelHeader type sessionId channelId flags seq ack len ++ payload) =
      some ⟨type, sessionId, channelId, flags, seq, ack, payload.take len.toNat, len⟩ := by
  simp [tunnelHeader, codecReadTunnel, be16, h]

end P2PServer.Codec
