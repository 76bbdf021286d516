import BtSniffer.Address
import BtSniffer.Clock
import BtSniffer.Collection.Admission
import BtSniffer.Collection.Backfill
import BtSniffer.Collection.Backpressure
import BtSniffer.Collection.CatalogExact
import BtSniffer.Collection.CatalogMerge
import BtSniffer.Collection.CatalogSweep
import BtSniffer.Collection.ClaimChoice
import BtSniffer.Collection.ClaimRotation
import BtSniffer.Collection.IdentityInv
import BtSniffer.Collection.IdentityRun
import BtSniffer.Collection.IdentityStore
import BtSniffer.Collection.Ingest
import BtSniffer.Collection.IngestRun
import BtSniffer.Collection.JobInv
import BtSniffer.Collection.JobLease
import BtSniffer.Collection.JobOps
import BtSniffer.Collection.JobRun
import BtSniffer.Collection.JobTable
import BtSniffer.Collection.Jobs
import BtSniffer.Collection.MetadataStore
import BtSniffer.Collection.Observations
import BtSniffer.Collection.PeerSearch
import BtSniffer.Collection.PeerSearchInv
import BtSniffer.Collection.PeerSearchRun
import BtSniffer.Collection.Quota
import BtSniffer.Collection.QuotaRun
import BtSniffer.Collection.TcpLimits
import BtSniffer.Collection.TcpLimitsInv
import BtSniffer.Collection.TcpLimitsRun
import BtSniffer.Collection.TcpLimitsSteps
import BtSniffer.Collection.Worker
import BtSniffer.Collection.WorkerRun
import BtSniffer.Dht.Consensus
import BtSniffer.Dht.Cooldown
import BtSniffer.Dht.CooldownProtocol
import BtSniffer.Dht.CooldownRules
import BtSniffer.Dht.CooldownRun
import BtSniffer.Dht.Dispatcher
import BtSniffer.Dht.DispatcherAccounts
import BtSniffer.Dht.DispatcherCancel
import BtSniffer.Dht.DispatcherIdentity
import BtSniffer.Dht.DispatcherRotation
import BtSniffer.Dht.Lookup
import BtSniffer.Dht.LookupInv
import BtSniffer.Dht.LookupProgress
import BtSniffer.Dht.LookupRun
import BtSniffer.Dht.Ordering
import BtSniffer.Dht.PeerStore
import BtSniffer.Dht.PeerStoreInv
import BtSniffer.Dht.PeerStoreRun
import BtSniffer.Dht.Recovery
import BtSniffer.Dht.RecoveryRun
import BtSniffer.Dht.RoutingInsert
import BtSniffer.Dht.RoutingInv
import BtSniffer.Dht.RoutingRefresh
import BtSniffer.Dht.RoutingRun
import BtSniffer.Dht.Sampler
import BtSniffer.Dht.SamplerBackoff
import BtSniffer.Dht.SamplerFallback
import BtSniffer.Dht.SamplerInv
import BtSniffer.Dht.SamplerOps
import BtSniffer.Dht.SamplerOutcome
import BtSniffer.Dht.SamplerRun
import BtSniffer.Dht.SamplerSchedule
import BtSniffer.Dht.SamplerSession
import BtSniffer.Dht.SamplerUnsent
import BtSniffer.Dht.SamplerWaiting
import BtSniffer.Dht.SamplerWakeup
import BtSniffer.Dht.Security
import BtSniffer.Dht.Shortlist
import BtSniffer.Dht.Token
import BtSniffer.Dht.Traffic
import BtSniffer.Dht.TrafficForget
import BtSniffer.Dht.TrafficQuota
import BtSniffer.Dht.TrafficReference
import BtSniffer.Dht.TrafficRun
import BtSniffer.Dht.Transaction
import BtSniffer.Dht.TransactionRun
import BtSniffer.Krpc.Compact
import BtSniffer.Krpc.Encoding
import BtSniffer.Krpc.FitResponse
import BtSniffer.Krpc.Message
import BtSniffer.Krpc.Replies
import BtSniffer.Krpc.Responder
import BtSniffer.Krpc.ResponderRun
import BtSniffer.Krpc.Silence
import BtSniffer.Krpc.Trimming
import BtSniffer.Lib.Align
import BtSniffer.Lib.Bencode
import BtSniffer.Lib.BencodeTree
import BtSniffer.Lib.Blocks
import BtSniffer.Lib.LexPrefix
import BtSniffer.Lib.Octets
import BtSniffer.Lib.Prog
import BtSniffer.Lib.SetIndex
import BtSniffer.Lib.Sweep
import BtSniffer.Lib.Table
import BtSniffer.Metainfo.Analyze
import BtSniffer.Metainfo.Files
import BtSniffer.Metainfo.Layout
import BtSniffer.Metainfo.Paths
import BtSniffer.Metainfo.Reasons
import BtSniffer.Metainfo.Tree
import BtSniffer.Metainfo.Value
import BtSniffer.Metainfo.Version
import BtSniffer.Peer.Pieces
import BtSniffer.Peer.Session
import BtSniffer.Peer.SessionRun
import BtSniffer.Storage.CatalogCounters
import BtSniffer.Storage.Frame
import BtSniffer.Storage.Migration
import BtSniffer.Storage.Schema
import BtSniffer.Storage.Statement
import BtSniffer.Web.EventBuffer
import BtSniffer.Web.EventBufferInv
import BtSniffer.Web.EventBufferRun
import BtSniffer.Wire.Extension
import BtSniffer.Wire.ExtensionSpec
import BtSniffer.Wire.Inspection
import BtSniffer.Wire.InspectionSpec
import BtSniffer.Wire.Ordering
import BtSniffer.Wire.OrderingSpec
