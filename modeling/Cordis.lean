import Cordis.Session.VisibilityEnsure
import Cordis.Session.IndexConsistency
import Cordis.Session.RoutePublication
import Cordis.Session.ResumeExpiry
import Cordis.Session.UnattendedExpiry
import Cordis.Session.MemberRemoval
import Cordis.Session.ReadyCompleteness
import Cordis.Session.ChannelRevocation
import Cordis.Session.StreamOrder
import Cordis.Session.ServedOnce
import Cordis.Dispatcher.PoisonRecord
import Cordis.Kafka.Backpressure
import Cordis.Kafka.WorkerProgress
import Cordis.Outbox.RelayOrder
import Cordis.Guild.StreamOrder
import Cordis.Guild.AccessCoverage
import Cordis.Guild.BanExclusion
import Cordis.Guild.OwnerMembership
import Cordis.Guild.DepartureCleanup
import Cordis.Guild.Escalation
import Cordis.Guild.RolePositions
import Cordis.Guild.LayoutOrder
import Cordis.Guild.MentionTargets
import Cordis.Guild.ProfileConvergence
import Cordis.Gateway.Checkpoints
import Cordis.Session.DispatchErrors
import Cordis.Session.ReadyBuffer
import Cordis.Presence.Versions
import Cordis.Message.Around
import Cordis.Guild.ChannelReorder
import Cordis.ClientIP.Resolver
import Cordis.RateLimit.Probe
import Cordis.Media.Orientation
import Cordis.Message.ReadStates
