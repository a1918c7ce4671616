import SkyTree.Acl.Plugin
import SkyTree.Client.CursorSafety
import SkyTree.Client.DeliveryRunner
import SkyTree.Client.ExpiredCleanup
import SkyTree.Client.IncomingContent
import SkyTree.Client.IncomingOnce
import SkyTree.Client.OfflineRoundTrip
import SkyTree.Client.PubCompOrder
import SkyTree.Client.PublishedOnce
import SkyTree.Client.ReadLoop
import SkyTree.Client.ReceiveMaximum
import SkyTree.Client.RetainHandling
import SkyTree.Client.RetainedFlag
import SkyTree.Client.TokenConservation
import SkyTree.Client.TopicAlias
import SkyTree.Delivery.CursorAdvance
import SkyTree.Delivery.Payload
import SkyTree.Delivery.Publishers
import SkyTree.Retain.Collection
import SkyTree.Retry.Schedule
import SkyTree.Retry.Strategy
import SkyTree.Scheduler.Passive
import SkyTree.SharedSubscription.RollbackSafety
import SkyTree.SharedSubscription.RoundRobin
import SkyTree.StateRouter.Fencing
import SkyTree.StateRouter.OwnerTokens
import SkyTree.Subscription.BestOption
import SkyTree.Subscription.ShareMembers
import SkyTree.Will.Clearing
import SkyTree.Will.DelayCore
import SkyTree.Will.IndexedQueue
import SkyTree.Will.SessionExpiry
import SkyTree.Wire.VariableByte
