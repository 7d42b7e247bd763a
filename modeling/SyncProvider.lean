import SyncProvider.Agreement
import SyncProvider.Android.Attempts
import SyncProvider.Android.BackgroundSync
import SyncProvider.Android.Bracket
import SyncProvider.Android.CallRace
import SyncProvider.Android.Columns
import SyncProvider.Android.ConfigCodec
import SyncProvider.Android.ConfigStore
import SyncProvider.Android.Configuration
import SyncProvider.Android.Connectivity
import SyncProvider.Android.Cooldown
import SyncProvider.Android.Credentials
import SyncProvider.Android.Cycle
import SyncProvider.Android.Database
import SyncProvider.Android.Deadline
import SyncProvider.Android.Departures
import SyncProvider.Android.Dispatch
import SyncProvider.Android.Dispatcher
import SyncProvider.Android.Fifo
import SyncProvider.Android.Hold
import SyncProvider.Android.InFlight
import SyncProvider.Android.Lifecycle
import SyncProvider.Android.OfflineWake
import SyncProvider.Android.Options
import SyncProvider.Android.Pause
import SyncProvider.Android.PauseFlag
import SyncProvider.Android.Payload
import SyncProvider.Android.Rejection
import SyncProvider.Android.Reload
import SyncProvider.Android.Removal
import SyncProvider.Android.Retirement
import SyncProvider.Android.RetryTimer
import SyncProvider.Android.RetryWake
import SyncProvider.Android.Selection
import SyncProvider.Android.Silence
import SyncProvider.Android.Snapshot
import SyncProvider.Android.Storage
import SyncProvider.Android.Tally
import SyncProvider.Android.Ulid
import SyncProvider.Android.Wake
import SyncProvider.Backoff
import SyncProvider.Crockford
import SyncProvider.Deadline
import SyncProvider.Fifo
import SyncProvider.Headers
import SyncProvider.Ios.BackgroundSync
import SyncProvider.Ios.Bracket
import SyncProvider.Ios.Budget
import SyncProvider.Ios.Cancellation
import SyncProvider.Ios.Columns
import SyncProvider.Ios.ConfigStore
import SyncProvider.Ios.Configuration
import SyncProvider.Ios.Conversions
import SyncProvider.Ios.Credentials
import SyncProvider.Ios.Cycle
import SyncProvider.Ios.Database
import SyncProvider.Ios.Deadline
import SyncProvider.Ios.Delivery
import SyncProvider.Ios.Departures
import SyncProvider.Ios.Dispatch
import SyncProvider.Ios.Dispatcher
import SyncProvider.Ios.Emitter
import SyncProvider.Ios.Fifo
import SyncProvider.Ios.Hold
import SyncProvider.Ios.InFlight
import SyncProvider.Ios.Ledger
import SyncProvider.Ios.Lifecycle
import SyncProvider.Ios.Logout
import SyncProvider.Ios.OfflineWake
import SyncProvider.Ios.Options
import SyncProvider.Ios.Pause
import SyncProvider.Ios.PauseFlag
import SyncProvider.Ios.Payload
import SyncProvider.Ios.Rejection
import SyncProvider.Ios.Reload
import SyncProvider.Ios.Removal
import SyncProvider.Ios.ResumeWake
import SyncProvider.Ios.Retirement
import SyncProvider.Ios.RetryDelay
import SyncProvider.Ios.RetryWake
import SyncProvider.Ios.RetryWakeTimer
import SyncProvider.Ios.Selection
import SyncProvider.Ios.Sentinel
import SyncProvider.Ios.Snapshot
import SyncProvider.Ios.Storage
import SyncProvider.Ios.Tally
import SyncProvider.Ios.Ulid
import SyncProvider.Ios.Uploads
import SyncProvider.Ios.Url
import SyncProvider.Ios.Wake
import SyncProvider.Ios.Wire
import SyncProvider.Js.AutoSync
import SyncProvider.Js.Deserialization
import SyncProvider.Js.DrainCancel
import SyncProvider.Js.DrainController
import SyncProvider.Js.DrainEmpty
import SyncProvider.Js.DrainFlush
import SyncProvider.Js.DrainModule
import SyncProvider.Js.DrainPace
import SyncProvider.Js.DrainRelease
import SyncProvider.Js.DrainStops
import SyncProvider.Js.DrainTimeout
import SyncProvider.Js.DrainTrace
import SyncProvider.Js.Hooks
import SyncProvider.Js.Provider
import SyncProvider.Js.RetryBackoff
import SyncProvider.Js.Serialization
import SyncProvider.Js.Snapshot
import SyncProvider.Js.Validation
import SyncProvider.Js.Value
import SyncProvider.Lib.Blocks
import SyncProvider.Lib.Broadcast
import SyncProvider.Lib.Clearing
import SyncProvider.Lib.Cooldown
import SyncProvider.Lib.Double
import SyncProvider.Lib.EffectRuns
import SyncProvider.Lib.Effects
import SyncProvider.Lib.Fields
import SyncProvider.Lib.Gate
import SyncProvider.Lib.Issues
import SyncProvider.Lib.Json
import SyncProvider.Lib.KeyedTable
import SyncProvider.Lib.OrderBy
import SyncProvider.Lib.OrderedWrites
import SyncProvider.Lib.Outbox
import SyncProvider.Lib.Past
import SyncProvider.Lib.Radix
import SyncProvider.Lib.Reads
import SyncProvider.Lib.Replica
import SyncProvider.Lib.RowRefinement
import SyncProvider.Lib.Safekeeping
import SyncProvider.Lib.StepSystem
import SyncProvider.Lib.TaskPool
import SyncProvider.Lib.Writers
import SyncProvider.Parity
import SyncProvider.PauseFlag
import SyncProvider.Reload
import SyncProvider.Selection
import SyncProvider.Spec
import SyncProvider.Ulid
