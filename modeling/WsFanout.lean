import WsFanout.Lib.Run
import WsFanout.Protocol
import WsFanout.RegistryWrap
import WsFanout.RegistrySpec
import WsFanout.RegistryRefinement
import WsFanout.RegistryIsolation
import WsFanout.Handle
import WsFanout.RegistryDelivery
import WsFanout.SubscribeRace
import WsFanout.SnapshotRace
import WsFanout.Server
import WsFanout.ServerRun
import WsFanout.ServerAuth
import WsFanout.ServerSlots
import WsFanout.ServerAuthorized
import WsFanout.ServerWrap
import WsFanout.OutcrySource
import WsFanout.SourceLifetime
import WsFanout.Bind
import WsFanout.RegistryAccounting
import WsFanout.Resync
import WsFanout.ServerEviction
import WsFanout.ServerTalk
import WsFanout.ServerReplies
import WsFanout.ServerAcks
import WsFanout.UnsubscribeRace
import WsFanout.ServerClock
import WsFanout.ServerDeadline
import WsFanout.ServerSilence
import WsFanout.ServerKeepAlive
import WsFanout.Lib.Quota
import WsFanout.SubscribeOutcome
import WsFanout.SubscribeSnapshots
import WsFanout.ResyncList
import WsFanout.RegistryUndo
import WsFanout.ServerBudget
import WsFanout.OutcryTrace
import WsFanout.Lib.JsonString
import WsFanout.Lib.Json
import WsFanout.Wire
import WsFanout.RegistryThreads
import WsFanout.RegistryLinear
import WsFanout.RegistryOrder
import WsFanout.RegistryProgress
import WsFanout.RegistryGauge
import WsFanout.ServerStream
import WsFanout.ServerPatience
import WsFanout.Feed
import WsFanout.ServerReadable
import WsFanout.OutcryPace
import WsFanout.ServerMemory
import WsFanout.ServerMirror
import WsFanout.RegistrySerial
import WsFanout.ServerIsolation
