import P2PServer.ByteStrings

/-! Constants of the wire protocol: message ids, tunnel frame types and flags, size
limits and result codes, under the names of `common/ProtoDef.h`. -/
namespace P2PServer.ProtoDef
open ByteStrings

def natMagic : UInt16 := 0x584E
def protoVer : UInt8 := 0x02

def maxUuidLen : ℕ := 32
def maxIpLen : ℕ := 16
def maxPkt : ℕ := 2048
def maxExtinfo : ℕ := 1024

/-- `sizeof(IceSdpMsg) - 1`. The structure is not packed: the length is at offset 34, the
text at offset 36, and the size is rounded up to an even number. -/
def iceSdpHead : ℕ := 37

def msgHeartbeatReq : UInt8 := 0x01
def msgHeartbeatRsp : UInt8 := 0x02
def msgSndExtinfoReq : UInt8 := 0x03
def msgAskExtinfoReq : UInt8 := 0x04
def msgAskExtinfoRsp : UInt8 := 0x05
def msgConnectReq : UInt8 := 0x06
def msgConnectAck : UInt8 := 0x07
def msgConnectInvite : UInt8 := 0x08
def msgGetDevListReq : UInt8 := 0x09
def msgGetDevListRsp : UInt8 := 0x0A
def msgGetServerListReq : UInt8 := 0x0B
def msgGetServerListRsp : UInt8 := 0x0C
def msgAddUidReq : UInt8 := 0x0D
def msgDeleteUidReq : UInt8 := 0x0E
def msgCheckUidReq : UInt8 := 0x0F
def msgSpAskExtinfoReq : UInt8 := 0x10
def msgSpAskExtinfoRsp : UInt8 := 0x11
def msgCheckUidRsp : UInt8 := 0x12
def msgNatDetectReq : UInt8 := 0x13
def msgNatDetectRsp : UInt8 := 0x14
def msgAuthChallengeReq : UInt8 := 0x15
def msgAuthChallengeRsp : UInt8 := 0x16
def msgAuthLoginReq : UInt8 := 0x17
def msgAuthLoginRsp : UInt8 := 0x18
def msgAdminStatsReq : UInt8 := 0x19
def msgAdminStatsRsp : UInt8 := 0x1A
def msgHeartbeatReqEnc : UInt8 := 0x1B
def msgHeartbeatRspEnc : UInt8 := 0x1C
def msgAdminBlacklistReq : UInt8 := 0x1D
def msgAdminBlacklistRsp : UInt8 := 0x1E
def msgIceSdp : UInt8 := 0x1F
def msgProxyRegisterReq : UInt8 := 0x20
def msgProxyRegisterRsp : UInt8 := 0x21
def msgProxyUnregisterReq : UInt8 := 0x22
def msgProxyRelayData : UInt8 := 0x23
def msgProxyPunchHelper : UInt8 := 0x24
def msgSyncPeerEntry : UInt8 := 0x30
def msgSyncPeerDel : UInt8 := 0x31
def msgSyncSnapshotReq : UInt8 := 0x32

def natUnknown : UInt8 := 0
def natFullCone : UInt8 := 1
def natPortRestricted : UInt8 := 2
def natSymmetric : UInt8 := 3

def tunnelMagic : UInt16 := 0x5054
def tunnelVer : UInt8 := 0x01
def maxTunnelPayload : ℕ := 1200

def ttData : UInt8 := 0
def ttAck : UInt8 := 1
def ttPing : UInt8 := 2
def ttPong : UInt8 := 3
def ttClose : UInt8 := 4

def tfReliable : UInt8 := 0x01
def tfEnc : UInt8 := 0x02

def syncHopMax : UInt8 := 3
def syncHopSnap : UInt8 := 0xFF

def connectOk : UInt8 := 0
def connectNotFound : UInt8 := 2

def authOk : UInt8 := 0
def authBadNonce : UInt8 := 1
def authBadMac : UInt8 := 2
def authBlacklist : UInt8 := 3
def authWhitelistRej : UInt8 := 4

end P2PServer.ProtoDef
