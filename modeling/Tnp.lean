import Tnp.Protocol.FrameCodec
import Tnp.Protocol.SessionOrder
import Tnp.Protocol.CircuitCreate
import Tnp.Protocol.ErrorFrame
import Tnp.SharedTypes.ServiceNodes
import Tnp.SharedTypes.CanonicalBase64
import Tnp.Crypto.GrantChain
import Tnp.Client.FlowConservation
import Tnp.Client.MessageOrder
import Tnp.Client.PipeSocket
import Tnp.Relay.Isolation
import Tnp.Relay.Registration
import Tnp.Relay.RateLimits
import Tnp.Operations.AtMostOnce
import Tnp.Operations.Exclusion
import Tnp.Operations.OrderLines
import Tnp.Operations.Fencing
import Tnp.Operations.Reconciliation
import Tnp.Registry.KeyReset
import Tnp.Registry.Following
import Tnp.Registry.AddressLeases
import Tnp.Registry.DirectoryPublication
import Tnp.Registry.RecordSets
import Tnp.Crypto.Signing
import Tnp.Client.PinContinuity
import Tnp.Client.CertificateRollback
import Tnp.Client.DirectoryRollback
import Tnp.Client.LockExclusion
import Tnp.SharedTypes.DirectoryRoundTrip
import Tnp.Client.DirectoryMerge
import Tnp.Client.KeyAgreementKeys
import Tnp.Exit.FailClosed
import Tnp.Exit.FlowCuts
import Tnp.Crypto.EnvelopeBinding
import Tnp.Client.ActiveRulesRoundTrip
import Tnp.Client.PersonalRules
import Tnp.Client.CachedAnswers
import Tnp.Client.DnsGuard
import Tnp.Client.Socks
import Tnp.Client.ServiceNode
import Tnp.Services.ZoneHash
import Tnp.Services.ZoneMerge
import Tnp.Operations.ZoneVersions
import Tnp.Client.TunnelManager
import Tnp.Client.RulesPinning
import Tnp.Services.Money
import Tnp.SharedTypes.Ipv6Values
import Tnp.Net.AddressKeys
import Tnp.Net.SourceSet
import Tnp.Net.RateLimiters
import Tnp.Services.ProvenAbsence
import Tnp.Services.QuotaGate
import Tnp.Registry.RelayMarks
import Tnp.Exit.CapRuns
import Tnp.Client.PlantedRecords
import Tnp.Registry.Renewals
import Tnp.Registry.RecordUpdates
import Tnp.Client.KillSwitchPolicy
import Tnp.Exit.FirewallContainment
import Tnp.Services.OrderRuns
import Tnp.Protocol.HandshakeAgreement
