import AliceBridge.Lib.Run
import AliceBridge.Core.Reply
import AliceBridge.Core.HouseServe
import AliceBridge.Core.HouseCalls
import AliceBridge.Core.HouseLocks
import AliceBridge.Core.HouseThreads
import AliceBridge.Core.HouseProvenance
import AliceBridge.Core.HouseViews
import AliceBridge.Core.HouseDelivery
import AliceBridge.Core.HouseLedger
import AliceBridge.Core.HouseThinking
import AliceBridge.Core.PendingTasks
import AliceBridge.Core.AskRace
import AliceBridge.Server.Config
import AliceBridge.Server.Routes
import AliceBridge.Server.LongAnswer
import AliceBridge.Server.Access
import AliceBridge.Runtime.Approvals
import AliceBridge.Runtime.ResponseOrder
import AliceBridge.Runtime.Sandbox
import AliceBridge.Core.FamilyPrivacy
import AliceBridge.Core.RollingSummary
import AliceBridge.Core.SharedSlot
import AliceBridge.Core.Forgetting
import AliceBridge.Server.Spending
import AliceBridge.Core.ThinkHard
import AliceBridge.Server.Introduction
import AliceBridge.Server.Admin
import AliceBridge.Server.Approval
import AliceBridge.Server.Resolution
import AliceBridge.Core.Exchanges
import AliceBridge.Core.ControlPhrases
import AliceBridge.Core.SummaryProgress
import AliceBridge.Server.Coverage
import AliceBridge.Server.PgRefinement
import AliceBridge.Server.PgAccess
import AliceBridge.Server.PgProgress
import AliceBridge.Server.PgHealth
import AliceBridge.Runtime.Transport
import AliceBridge.Protocol.Request
import AliceBridge.Lib.Gateway
import AliceBridge.Server.HouseholdWebhook
import AliceBridge.Server.LegacyWebhook
