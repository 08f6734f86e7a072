import StorageNode.Prog
import StorageNode.RelyGuarantee
import StorageNode.ThreadPool
import StorageNode.Discipline
import StorageNode.Inevitable
import StorageNode.TotalCorrectness
import StorageNode.Restart
import StorageNode.EventRun
import StorageNode.Binary64
import StorageNode.PyStr
import StorageNode.Json
import StorageNode.JsonText
import StorageNode.JsonRoundTrip
import StorageNode.JsonPrefix
import StorageNode.JsonEquality
import StorageNode.FileStore
import StorageNode.NodeOps
import StorageNode.ChunkTransfer
import StorageNode.Link
import StorageNode.UploadWorld
import StorageNode.UploadProtocol
import StorageNode.UploadReceive
import StorageNode.OwnFiles
import StorageNode.UploadIntegrity
import StorageNode.LiveUpload
import StorageNode.UploadCompletion
import StorageNode.ConcurrentUploads
import StorageNode.DownloadWorld
import StorageNode.DownloadProtocol
import StorageNode.DownloadServing
import StorageNode.DownloadIntegrity
import StorageNode.LiveDownload
import StorageNode.DownloadCompletion
import StorageNode.ConnectionLedger
import StorageNode.LedgerCalls
import StorageNode.LedgerAtomicity
import StorageNode.LedgerAlone
import StorageNode.LedgerLinearizability
import StorageNode.LedgerProgress
import StorageNode.SessionWorld
import StorageNode.SessionCleanup
import StorageNode.ReceiverCleanup
import StorageNode.SenderCleanup
import StorageNode.ProgLog
import StorageNode.RequestDispatcher
import StorageNode.NodeRun
import StorageNode.PortOwnership
import StorageNode.DispatchLedger
import StorageNode.Bookkeeping
import StorageNode.PosixPath
import StorageNode.FileConfinement
import StorageNode.UnserviceableRequests
import StorageNode.CommandListener
import StorageNode.RequestFraming
import StorageNode.CoordinationClient
import StorageNode.ContractEnforcer
import StorageNode.PurgeCycle
import StorageNode.PurgeRace
import StorageNode.NetworkWatcher
import StorageNode.AddressChange
import StorageNode.PortScanner
import StorageNode.PortAllocation
import StorageNode.PortUniqueness
import StorageNode.PortProbe
import StorageNode.PrimarySearch
import StorageNode.UrlParse
import StorageNode.RouterGateway
import StorageNode.LegacyPortForwarder
import StorageNode.GatewayNetwork
import StorageNode.GatewayFaults
import StorageNode.GatewayOrder
import StorageNode.ForwarderAgreement
import StorageNode.SsdpScan
import StorageNode.GatewayDiscovery
import StorageNode.LocationHeader
import StorageNode.WanService
import StorageNode.ConfigFile
import StorageNode.ConfigRuns
import StorageNode.NodeStart
import StorageNode.StartOrder
import StorageNode.UriReference
import StorageNode.WithdrawalUrl
import StorageNode.ControlUrl
import StorageNode.LateFrames
import StorageNode.LateIntegrity
import StorageNode.ShardSharing
import StorageNode.AckedChunks
import StorageNode.ShardAudits
import StorageNode.CrashRecovery
