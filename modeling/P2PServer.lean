import P2PServer.SessionAck
import P2PServer.RecvProcess
import P2PServer.SyncCluster
import P2PServer.SyncDeletion
import P2PServer.Registry
import P2PServer.SyncSurvival
import P2PServer.NatDetect
import P2PServer.P2PClient
import P2PServer.ClientLoop
import P2PServer.ClientFrame
import P2PServer.ClientRun
import P2PServer.ClientAuthRetry
import P2PServer.ClientSessions
import P2PServer.PacketCases
import P2PServer.HandlerSpecs
import P2PServer.PeerRecords
import P2PServer.ServerRun
import P2PServer.Fields
import P2PServer.Gates
import P2PServer.WhitelistGate
import P2PServer.BlacklistGate
import P2PServer.LoginHistory
import P2PServer.SyncOrder
import P2PServer.SyncRemoval
import P2PServer.EntryBytes
import P2PServer.SyncForward
import P2PServer.SyncOutputs
import P2PServer.SyncEntries
import P2PServer.SyncSigned
import P2PServer.Replication
import P2PServer.SyncConvergence
import P2PServer.AuthLifetime
import P2PServer.ClientTunnel
import P2PServer.AuthAnswers
import P2PServer.AuthDenial
import P2PServer.TunnelKeys
import P2PServer.P2PProxy
import P2PServer.ProxyTables
import P2PServer.ProxyCapacity
import P2PServer.DataPlane
import P2PServer.NatTypeCheck
import P2PServer.NatVerdict
import P2PServer.ConnNames
import P2PServer.ConnTick
import P2PServer.SdpExchange
import P2PServer.KeyStreams
import P2PServer.Memory
import P2PServer.CbcInverse
import P2PServer.AeadCalls
import P2PServer.Encryptors
import P2PServer.Fips180
import P2PServer.Sha256Standard
import P2PServer.MacStandards
import P2PServer.KeyDerivation
import P2PServer.TextLines
import P2PServer.Decimals
import P2PServer.SealedFiles
import P2PServer.BlacklistFile
import P2PServer.BlacklistPersist
import P2PServer.CfgFile
import P2PServer.ServerStart
import P2PServer.HotReload
import P2PServer.RemoteClose
import P2PServer.ClientSpeech
import P2PServer.RelayLife
import P2PServer.Accesses
import P2PServer.ClientReads
import P2PServer.SequenceWrap
import P2PServer.SdpTransport
import P2PServer.Chunks
import P2PServer.DevicePages
import P2PServer.CfgLines
import P2PServer.ProxyCandidates
import P2PServer.ProxySchedule
import P2PServer.ProxyProbing
import P2PServer.HeartbeatBodies
import P2PServer.HeartbeatExchange
import P2PServer.EntryTransport
import P2PServer.TunnelCodec
import P2PServer.LicenseLock
import P2PServer.AeadTraces
import P2PServer.RelayPaths
import P2PServer.FloodCounter
import P2PServer.AuthedCount
import P2PServer.TruncatedDatagrams
import P2PServer.HeartbeatRetry
import P2PServer.ConnWiring
import P2PServer.SendPath
import P2PServer.SessionShape
import P2PServer.DottedQuads
import P2PServer.SessionProgress
import P2PServer.Expiry
import P2PServer.BoundedQueue
import P2PServer.PacketQueue
import P2PServer.BanHistory
import P2PServer.SeenEntries
import P2PServer.SessionSteps
import P2PServer.ClientPair
import P2PServer.RegistryHistory
import P2PServer.Rendezvous
import P2PServer.LoginExchange
import P2PServer.SnapshotRepair
import P2PServer.Tracking
import P2PServer.CallbackOrder
import P2PServer.RelayRouting
import P2PServer.RelayFallback
