import Pirewall.Lib.Dict
import Pirewall.Lib.Text
import Pirewall.Lib.Run
import Pirewall.Lib.Traverse
import Pirewall.Core.Net
import Pirewall.Core.Models
import Pirewall.Core.Throttle
import Pirewall.Firewall.Sets
import Pirewall.Firewall.FakeSets
import Pirewall.Firewall.Validator
import Pirewall.Firewall.Manager
import Pirewall.Firewall.Lifecycle
import Pirewall.Firewall.Transitions
import Pirewall.Firewall.Held
import Pirewall.Firewall.Ownership
import Pirewall.Firewall.Exclusion
import Pirewall.Firewall.Activation
import Pirewall.Firewall.Infrastructure
import Pirewall.Firewall.BindingSets
import Pirewall.Firewall.AllowBound
import Pirewall.Firewall.Verdict
import Pirewall.Firewall.AuditTrail
import Pirewall.Firewall.Crowding
import Pirewall.Firewall.Devices
import Pirewall.Firewall.NftSets
import Pirewall.Firewall.RuleTranslation
import Pirewall.Identity.LeaseFile
import Pirewall.Identity.Bindings
import Pirewall.Identity.LeaseSync
import Pirewall.Identity.LeaseDiffs
import Pirewall.Flow.Parity
import Pirewall.Flow.Conservation
import Pirewall.Portal.Agreement
import Pirewall.Portal.Sweep
import Pirewall.Portal.Stores
import Pirewall.Ipc.Dispatcher
import Pirewall.Ipc.AllowlistRequest
import Pirewall.Ipc.GuardAudit
import Pirewall.Policy.Noninterference
import Pirewall.Detection.Kernel
import Pirewall.Detection.D1
import Pirewall.Runtime.PipelineV2
import Pirewall.Runtime.Submission
import Pirewall.Runtime.Strikes
import Pirewall.Runtime.Reevaluation
import Pirewall.Engine.Decision
import Pirewall.Dataset.BenignSplit
import Pirewall.Portal.Accounts
import Pirewall.Capture.Replay
import Pirewall.Flow.Tracker
import Pirewall.Flow.Fallback
import Pirewall.Runtime.Salvage
import Pirewall.Flow.Shift
import Pirewall.Runtime.ReplaySweep
import Pirewall.Detection.TlsMatch
import Pirewall.Flow.Traced
import Pirewall.Runtime.TlsEvidence
import Pirewall.Runtime.EvidenceOwner
import Pirewall.Firewall.Handed
import Pirewall.Firewall.WellFormedOps
import Pirewall.Detection.EventLog
import Pirewall.Firewall.SafetyStage
import Pirewall.Detection.Ja3
import Pirewall.Ml.AveragePrecision
import Pirewall.Ml.Threshold
import Pirewall.Dataset.AttackSplit
import Pirewall.Capture.NativeParser
import Pirewall.Capture.ParserAgreement
import Pirewall.Dataset.Build
import Pirewall.Dataset.TestLedger
import Pirewall.Lib.Reader
import Pirewall.Lib.Toml.Syntax
import Pirewall.Lib.Toml.Document
import Pirewall.Lib.Toml.Cut
import Pirewall.Detection.Ja3Reference
import Pirewall.Lib.Tally
import Pirewall.Detection.Behavior
import Pirewall.Detection.BehaviorWindow
import Pirewall.Identity.LeaseOrder
import Pirewall.Core.ThrottleCount
import Pirewall.Capture.Pcapio
import Pirewall.Capture.PcapRoundTrip
import Pirewall.Capture.PcapngReader
import Pirewall.Capture.ReplayDelivery
import Pirewall.Dataset.PcapToFlows
import Pirewall.Portal.SessionIndex
import Pirewall.Flow.LruRun
import Pirewall.Flow.OutputAccounts
import Pirewall.Flow.ConnectionStart
import Pirewall.Ipc.History
import Pirewall.Flow.RunningStats
import Pirewall.Ml.RocAuc
import Pirewall.Ml.StratifiedSplit
import Pirewall.Capture.RingBlock
import Pirewall.Lib.MidRank
import Pirewall.Lib.Json
import Pirewall.Lib.Toml.Written
import Pirewall.Detection.Thresholds
import Pirewall.Detection.ThresholdText
import Pirewall.Detection.ThresholdRoundTrip
import Pirewall.Flow.PanicBudget
import Pirewall.Detection.FloodWindow
import Pirewall.Lib.Toml.Lines
import Pirewall.Detection.ThresholdKeys
import Pirewall.Runtime.Pipeline
import Pirewall.Runtime.DetectionThreads
import Pirewall.Runtime.RuleProvenance
import Pirewall.Lib.EventSource
import Pirewall.Lib.JsonValue
import Pirewall.Api.EventStream
import Pirewall.Core.ThrottleLag
import Pirewall.Api.Auth
import Pirewall.Api.Panel
import Pirewall.Core.ThrottleScopes
import Pirewall.Portal.Guesses
