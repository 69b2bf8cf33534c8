import WgMesh.FiniteRuns
import WgMesh.TextScan
import WgMesh.NetAddress
import WgMesh.NetAddressText
import WgMesh.Base64Text
import WgMesh.CivilTime
import WgMesh.Transactions
import WgMesh.RowTables
import WgMesh.KeyedTotals
import WgMesh.StoreSchema
import WgMesh.StoreSetupKeys
import WgMesh.StoreVisibility
import WgMesh.StoreAddresses
import WgMesh.StoreNetwork
import WgMesh.StoreDNS
import WgMesh.StoreEnroll
import WgMesh.StorePeers
import WgMesh.StorePolicy
import WgMesh.StoreReports
import WgMesh.StoreMachine
import WgMesh.AddressAllocation
import WgMesh.SetupKeyAccounting
import WgMesh.AddressConcurrency
import WgMesh.PairKeys
import WgMesh.ServerCandidates
import WgMesh.ServerEntries
import WgMesh.ServerPunches
import WgMesh.ServerHandlers
import WgMesh.UserSessions
import WgMesh.AgentSync
import WgMesh.ControlPlane
import WgMesh.SyncAcceptance
import WgMesh.MutualVisibility
import WgMesh.ExitAssignments
import WgMesh.TokenHistory
import WgMesh.TokenExpiry
import WgMesh.FaultFreeReports
import WgMesh.TrafficDeltas
import WgMesh.RelayAuthorization
import WgMesh.RelayHub
import WgMesh.RelayForwarding
import WgMesh.RelayPorts
import WgMesh.AgentDevice
import WgMesh.AgentRelay
import WgMesh.RelayRuns
import WgMesh.RelayCoherence
import WgMesh.HoldDown
import WgMesh.RelayEndpoints
import WgMesh.DirectReports
import WgMesh.RemovedPeers
import WgMesh.PunchFreshness
import WgMesh.PunchBudget
import WgMesh.QUICFragments
import WgMesh.AllowedRoutes
import WgMesh.KeyIdentity
import WgMesh.EnrollReportAgreement
import WgMesh.CommandScripts
import WgMesh.SelfAssignment
import WgMesh.CommandCrashes
import WgMesh.ResolvConf
import WgMesh.HostFirewall
import WgMesh.FirewallUndo
import WgMesh.ForwardedClients
import WgMesh.StaticPeerConfig
import WgMesh.ProbeEnding
import WgMesh.QUICReassembly
import WgMesh.JSONStrings
import WgMesh.DNSNormalisation
import WgMesh.DNSPrecedence
import WgMesh.ACLTransfer
import WgMesh.LinkIntervals
import WgMesh.FlowRecords
import WgMesh.BigEndian
import WgMesh.FlowCapture
import WgMesh.CaptureAddresses
import WgMesh.TerminatedLines
import WgMesh.AccessLogTail
import WgMesh.PortMapping
import WgMesh.AccessLogRing
import WgMesh.FallbackServers
import WgMesh.ExitOffers
import WgMesh.EventRetention
import WgMesh.NftablesInput
import WgMesh.ConnectionEvents
import WgMesh.PeerStability
import WgMesh.SignalHub
