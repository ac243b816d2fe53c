import DigRelay.Common.Table
import DigRelay.Common.Eviction
import DigRelay.Common.Window
import DigRelay.Common.Service
import DigRelay.Common.Transition
import DigRelay.Common.History
import DigRelay.Common.TaskPool
import DigRelay.Common.Admission
import DigRelay.Common.Channel
import DigRelay.Common.Lease
import DigRelay.Common.Mirror
import DigRelay.Common.Notify
import DigRelay.Common.Text
import DigRelay.Common.ByteStream
import DigRelay.Common.Tally
import DigRelay.Common.Ranking
import DigRelay.Net
import DigRelay.Wire
import DigRelay.Config
import DigRelay.Limits
import DigRelay.Stun
import DigRelay.Limiters
import DigRelay.Registry
import DigRelay.Dial
import DigRelay.DhtView
import DigRelay.Pex
import DigRelay.PexLaws
import DigRelay.Dispatch
import DigRelay.HttpServe
import DigRelay.ProxyProtocol
import DigRelay.Intake
import DigRelay.Map
import DigRelay.Dashboard
import DigRelay.Server.State
import DigRelay.Server.Register
import DigRelay.Server.Step
import DigRelay.Server.Run
import DigRelay.Server.Sweep
import DigRelay.Server.Access
import DigRelay.Server.Move
import DigRelay.Server.Background
import DigRelay.Server.Touch
import DigRelay.Server.WellFormed
import DigRelay.Server.Ledger
import DigRelay.Server.Change
import DigRelay.Server.Occupancy
import DigRelay.Server.Outbox
import DigRelay.Server.Turn
import DigRelay.Server.Exchange
import DigRelay.Server.Timed
import DigRelay.Server.Script
import DigRelay.Server.ListExchange
import DigRelay.Server.Call
import DigRelay.Safety.SlotAccounting
import DigRelay.Safety.OpenCap
import DigRelay.Safety.DhtAnswers
import DigRelay.Safety.Counter
import DigRelay.Safety.EngineCount
import DigRelay.Safety.MirrorCoherence
import DigRelay.Safety.ExchangeGate
import DigRelay.Safety.ExchangeScope
import DigRelay.Safety.Ownership
import DigRelay.Safety.Authenticity
import DigRelay.Safety.Identity
import DigRelay.Safety.RegistrationCap
import DigRelay.Safety.Ghosts
import DigRelay.Safety.Routing
import DigRelay.Safety.Introductions
import DigRelay.Safety.Gate
import DigRelay.Safety.Availability
import DigRelay.Safety.RegisterTimeout
import DigRelay.Safety.FrameAccounting
import DigRelay.Safety.Transparency
import DigRelay.Safety.TrackedSources
import DigRelay.Safety.RegistrationRate
import DigRelay.Safety.StunBudget
import DigRelay.Safety.Bans
import DigRelay.Safety.FrameBudget
import DigRelay.Safety.RegisterCall
import DigRelay.Safety.Sweep
import DigRelay.Safety.DhtAggregate
import DigRelay.Safety.DhtSize
import DigRelay.Safety.UnparsedHeader
import DigRelay.Safety.DialableAddresses
import DigRelay.Common.Bits
import DigRelay.IpText
import DigRelay.Safety.TrustedProxies
import DigRelay.Safety.Redirect
import DigRelay.Common.Tokens
import DigRelay.Safety.UpgradeHead
import DigRelay.Safety.MapPrivacy
import DigRelay.Common.Digits
import DigRelay.AddrText
import DigRelay.Safety.SourceKeys
import DigRelay.ServiceEnv
import DigRelay.Safety.InstalledConfig
import DigRelay.Service
import DigRelay.Safety.ServiceRemoval
import DigRelay.WireCodec
import DigRelay.Common.Pipe
import DigRelay.Server.Delivery
import DigRelay.Safety.DeliveryOrder
import DigRelay.Safety.DirectedOrder
import DigRelay.Safety.WireRuns
import DigRelay.Safety.Amplification
import DigRelay.Safety.Settling
import DigRelay.Safety.SlotsHeld
import DigRelay.Safety.TrafficCounters
import DigRelay.Safety.Drain
import DigRelay.Common.HttpResponse
import DigRelay.Safety.DashboardResponses
