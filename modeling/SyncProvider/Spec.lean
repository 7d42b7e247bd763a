/-!
# The types the layers share

The enumerations of the native module's specification. The JS facade and both
native engines use the same ones.
-/

namespace SyncProvider

/-- A map from strings to strings, in iteration order. -/
abbrev StringMap := List (String × String)

inductive HttpMethod where
  | GET | POST | PUT | PATCH | DELETE
  deriving DecidableEq

def HttpMethod.name : HttpMethod → String
  | .GET => "GET"
  | .POST => "POST"
  | .PUT => "PUT"
  | .PATCH => "PATCH"
  | .DELETE => "DELETE"

inductive SyncPriority where
  | HIGH | NORMAL | LOW
  deriving DecidableEq

def SyncPriority.name : SyncPriority → String
  | .HIGH => "HIGH"
  | .NORMAL => "NORMAL"
  | .LOW => "LOW"

inductive SyncStrategy where
  | automatic | manual | opportunistic
  deriving DecidableEq

inductive BackoffStrategy where
  | linear | exponential | fibonacci
  deriving DecidableEq

/-- The status of a queued item, in either store. -/
inductive ItemStatus where
  | PENDING | IN_FLIGHT | FAILED
  deriving DecidableEq

/-- The codes an outcome or an event can carry. -/
inductive SyncErrorCode where
  | NETWORK_ERROR | SERVER_ERROR | INVALID_PAYLOAD | QUEUE_FULL
  | NATIVE_MODULE_UNAVAILABLE | BACKGROUND_TASK_REGISTRATION_FAILED | INVALID_URL
  | UNAUTHORIZED | TIMEOUT | MAX_ATTEMPTS_EXCEEDED | DUPLICATE_ITEM | DRAIN_ALREADY_ACTIVE
  deriving DecidableEq

def SyncErrorCode.name : SyncErrorCode → String
  | .NETWORK_ERROR => "NETWORK_ERROR"
  | .SERVER_ERROR => "SERVER_ERROR"
  | .INVALID_PAYLOAD => "INVALID_PAYLOAD"
  | .QUEUE_FULL => "QUEUE_FULL"
  | .NATIVE_MODULE_UNAVAILABLE => "NATIVE_MODULE_UNAVAILABLE"
  | .BACKGROUND_TASK_REGISTRATION_FAILED => "BACKGROUND_TASK_REGISTRATION_FAILED"
  | .INVALID_URL => "INVALID_URL"
  | .UNAUTHORIZED => "UNAUTHORIZED"
  | .TIMEOUT => "TIMEOUT"
  | .MAX_ATTEMPTS_EXCEEDED => "MAX_ATTEMPTS_EXCEEDED"
  | .DUPLICATE_ITEM => "DUPLICATE_ITEM"
  | .DRAIN_ALREADY_ACTIVE => "DRAIN_ALREADY_ACTIVE"

end SyncProvider
