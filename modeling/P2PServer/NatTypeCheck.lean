import P2PServer.Fields
import P2PServer.NatDetect
import P2PServer.NatServer

/-! The NAT type service (`NatTypeCheck.cpp`). Each probe is answered from both sockets, and an
answer tells where it was sent to. -/
namespace P2PServer
open ByteStrings ProtoDef Net Codec

structure NatTypeCheck where
  mainPort : UInt16
  altPort : UInt16
  deriving DecidableEq, Repr

namespace NatTypeCheck

/-- A datagram with the port of the socket that sends it. -/
structure Out where
  port : UInt16
  dst : Addr
  data : Bytes
  deriving DecidableEq, Repr

def detectRsp (serverIndex : UInt8) (self peer : Addr) (mainPort altPort : UInt16) : Bytes :=
  [serverIndex] ++ ipField self.ip ++ be16 self.port ++ ipField peer.ip ++ be16 peer.port ++
    be16 mainPort ++ be16 altPort

/-- Both sockets are bound to every address, so that their own address is 0.0.0.0. -/
def sendRsp (s : NatTypeCheck) (port : UInt16) (peer : Addr) (serverIndex : UInt8) : Out :=
  ⟨port, peer, NatServer.datagram msgNatDetectRsp
    (detectRsp serverIndex ⟨0, port⟩ peer s.mainPort s.altPort)⟩

/-- The socket that was asked makes no difference. -/
def dualReply (s : NatTypeCheck) (src : Addr) : List Out :=
  [s.sendRsp s.mainPort src 0, s.sendRsp s.altPort src 1]

/-- `none` leaves the datagram to others. Only the first four bytes of the head are read. -/
def tryFastHandle (s : NatTypeCheck) (data : Bytes) (src : Addr) : Option (List Out) :=
  if data.length < 8 then none
  else if u16At data 0 ≠ natMagic ∨ byteAt data 2 ≠ protoVer then none
  else if byteAt data 3 ≠ msgNatDetectReq then none
  else some (s.dualReply src)

theorem detectRsp_length (serverIndex : UInt8) (self peer : Addr) (mainPort altPort : UInt16) :
    (detectRsp serverIndex self peer mainPort altPort).length = 41 := by
  simp only [detectRsp, List.length_append, List.length_singleton, ipField_length, be16_length]

theorem detectRsp_fields (serverIndex : UInt8) (self peer : Addr) (mainPort altPort : UInt16) :
    byteAt (detectRsp serverIndex self peer mainPort altPort) 0 = serverIndex ∧
      window (detectRsp serverIndex self peer mainPort altPort) 19 16 = ipField peer.ip ∧
      u16At (detectRsp serverIndex self peer mainPort altPort) 35 = peer.port := by
  have h0 : (detectRsp serverIndex self peer mainPort altPort).drop 0 = serverIndex ::
      (ipField self.ip ++ (be16 self.port ++ (ipField peer.ip ++ (be16 peer.port ++
        (be16 mainPort ++ be16 altPort))))) := by
    simp [detectRsp]
  have h1 := drop_past (a := [_]) h0 (j := 1) rfl
  have h17 := drop_past h1 (j := 17) (by rw [ipField_length])
  have h19 := drop_past h17 (j := 19) rfl
  have h35 := drop_past h19 (j := 35) (by rw [ipField_length])
  exact ⟨byteAt_of_drop h0, window_of_drop h19 (ipField_length _), u16At_of_drop h35⟩

def request : Bytes := codecWriteHead msgNatDetectReq 0

theorem tryFastHandle_request (s : NatTypeCheck) (src : Addr) :
    s.tryFastHandle request src = some (s.dualReply src) := rfl

end NatTypeCheck

end P2PServer
