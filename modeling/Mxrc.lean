import Mxrc.Rt.CyclicSchedule
import Mxrc.Rt.RTDataStore
import Mxrc.Action.LatestResult
import Mxrc.Action.TimeoutThreads
import Mxrc.Action.TimeoutResult
import Mxrc.Action.CancelNotLost
import Mxrc.Alarm.Statistics
import Mxrc.Control.FaultMode
import Mxrc.Task.TaskCancel
import Mxrc.Sequence.Cancellation
import Mxrc.Sequence.Branches
import Mxrc.Sequence.Completion
import Mxrc.Event.Delivery
import Mxrc.Datastore.Versions
import Mxrc.Datastore.Expiration
import Mxrc.Ha.Escalation
import Mxrc.Alarm.Escalation
import Mxrc.Alarm.Resolution
import Mxrc.Task.OneSchedule
import Mxrc.Ha.Recovery
import Mxrc.Ha.Pruning
import Mxrc.Rt.StopRequest
import Mxrc.Ethercat.FailedCommands
import Mxrc.Ethercat.TargetLimits
import Mxrc.Webapi.Chunking
import Mxrc.Sequence.NumericConditions
import Mxrc.Sequence.TakeUps
import Mxrc.Sequence.FinalStates
import Mxrc.Logging.SilentLoss
import Mxrc.Logging.OpenAnyFile
import Mxrc.Datastore.LruEviction
import Mxrc.Datastore.CleanUpRace
import Mxrc.Event.SPSCLockFreeQueue
import Mxrc.Event.ConcurrentQueue
import Mxrc.Event.EventAccounting
import Mxrc.Control.TaskQueue
import Mxrc.Control.ProtectedBehavior
import Mxrc.Control.WarningAlarm
import Mxrc.Control.SuspendedWork
import Mxrc.Event.CoalescingPolicy
import Mxrc.Event.ThrottlingPolicy
import Mxrc.Event.DataStoreEventAdapter
import Mxrc.Datastore.OptimisticRead
import Mxrc.Datastore.SaveState
import Mxrc.Ha.PermittedActions
import Mxrc.Ha.LoadPolicy
import Mxrc.Ha.CheckpointRoundTrip
import Mxrc.Rt.LatencyWindow
import Mxrc.Alarm.Recurrence
import Mxrc.Alarm.LoadConfiguration
import Mxrc.Task.SequenceTask
import Mxrc.Robot.PalletActions
import Mxrc.Robot.PalletTransportSequence
import Mxrc.Ethercat.SharedSafeMode
import Mxrc.Ethercat.DigitalOutput
import Mxrc.Fieldbus.MockDriver
import Mxrc.Logging.ReplayControl
import Mxrc.Logging.CountRetention
import Mxrc.Logging.WriterStats
import Mxrc.Logging.Seek
import Mxrc.Monitoring.Histogram
import Mxrc.Monitoring.MetricsCollector
import Mxrc.Tracing.SpanContext
import Mxrc.Ethercat.YAMLConfigParser
import Mxrc.Datastore.Policies
import Mxrc.Webapi.IPCBridge
import Mxrc.Webapi.ConnectionManager
