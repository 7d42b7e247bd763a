import Mathlib.Data.List.Basic

/-!
# Android: connectivity

`ConnectivityMonitor` turns the callbacks of the system into a `StateFlow`, and
asks the system directly when dispatch has to be decided. The two need not
agree: a callback runs some time after the change it is about, and it is about
one network, while the system is asked for the active one.

Results:
1. `ConnectivityManager.isOnline_extractCurrentSnapshot` : the system is online
   exactly when it is not offline.
2. `ConnectivityMonitor.state_handle` : the value a callback leaves in the flow.
-/

namespace SyncProvider.Android

inductive ConnectionStatus where
  | CONNECTED | DISCONNECTED | METERED | UNKNOWN
  deriving DecidableEq

inductive ConnectionType where
  | WIFI | CELLULAR | ETHERNET | BLUETOOTH | VPN | OTHER | NONE | UNKNOWN
  deriving DecidableEq

structure ConnectionState where
  status : ConnectionStatus
  type : ConnectionType
  isInternetReachable : Option Bool
  isExpensive : Option Bool
  deriving DecidableEq

/-- The filter of `connectivityWatch`. -/
def ConnectionState.isOnline (state : ConnectionState) : Bool :=
  state.status == .CONNECTED || state.status == .METERED

def unknownState : ConnectionState where
  status := .UNKNOWN
  type := .UNKNOWN
  isInternetReachable := none
  isExpensive := none

def disconnectedState : ConnectionState where
  status := .DISCONNECTED
  type := .NONE
  isInternetReachable := some false
  isExpensive := some false

/-! ## The system -/

inductive Transport where
  | WIFI | CELLULAR | ETHERNET | BLUETOOTH | VPN
  deriving DecidableEq

structure NetworkCapabilities where
  /-- `NET_CAPABILITY_INTERNET`. -/
  internet : Bool
  /-- `NET_CAPABILITY_VALIDATED`. -/
  validated : Bool
  /-- `NET_CAPABILITY_NOT_METERED`. -/
  notMetered : Bool
  /-- The capabilities every request asks for by default, such as not being a
  VPN. -/
  standard : Bool
  transports : List Transport
  deriving DecidableEq

/-- The networks that are up, and the one in use. -/
structure ConnectivityManager where
  networks : List (Nat × NetworkCapabilities)
  activeNetwork : Option Nat
  deriving DecidableEq

/-- A call of the `NetworkCallback`. -/
inductive NetworkCallback where
  | onAvailable (network : Nat)
  | onLost (network : Nat)
  | onCapabilitiesChanged (network : Nat) (caps : NetworkCapabilities)
  | onUnavailable
  deriving DecidableEq

/-- The request of `start` is for networks with `NET_CAPABILITY_INTERNET`. -/
def NetworkCapabilities.satisfies (caps : NetworkCapabilities) : Bool :=
  caps.internet && caps.standard

def transportToType (caps : NetworkCapabilities) : ConnectionType :=
  if caps.transports.contains .VPN then .VPN
  else if caps.transports.contains .WIFI then .WIFI
  else if caps.transports.contains .CELLULAR then .CELLULAR
  else if caps.transports.contains .ETHERNET then .ETHERNET
  else if caps.transports.contains .BLUETOOTH then .BLUETOOTH
  else .OTHER

def stateFromCapabilities (caps : NetworkCapabilities) : ConnectionState where
  status :=
    if !caps.internet then .DISCONNECTED
    else if !caps.notMetered then .METERED
    else .CONNECTED
  type := transportToType caps
  isInternetReachable := some caps.validated
  isExpensive := some !caps.notMetered

namespace ConnectivityManager

def getNetworkCapabilities (cm : ConnectivityManager) (network : Nat) :
    Option NetworkCapabilities :=
  cm.networks.lookup network

def extractState (cm : ConnectivityManager) (network : Nat) : ConnectionState :=
  match cm.getNetworkCapabilities network with
  | none => disconnectedState
  | some caps => stateFromCapabilities caps

def extractCurrentSnapshot (cm : ConnectivityManager) : ConnectionState :=
  match cm.activeNetwork with
  | none => disconnectedState
  | some active => cm.extractState active

def isOffline (cm : ConnectivityManager) : Bool :=
  cm.extractCurrentSnapshot.status == .DISCONNECTED

/-- A network comes up, changes its capabilities, or goes down. -/
def change (cm : ConnectivityManager) (network : Nat) (caps : Option NetworkCapabilities) :
    ConnectivityManager :=
  { cm with
    networks := cm.networks.filter (fun n => n.1 != network) ++
      caps.toList.map fun caps => (network, caps) }

/-- The calls of a registered callback for a network that comes up. -/
def announcement (network : Nat) (caps : NetworkCapabilities) : List NetworkCallback :=
  [.onAvailable network, .onCapabilitiesChanged network caps]

/-- The calls of a registered callback that announce a change. -/
def callbacks (cm : ConnectivityManager) (network : Nat) (caps : Option NetworkCapabilities) :
    List NetworkCallback :=
  let wasUp := (cm.getNetworkCapabilities network).any NetworkCapabilities.satisfies
  match caps.filter NetworkCapabilities.satisfies with
  | some caps =>
    if wasUp then [.onCapabilitiesChanged network caps]
    else announcement network caps
  | none => if wasUp then [.onLost network] else []

theorem isOnline_extractCurrentSnapshot (cm : ConnectivityManager) :
    cm.extractCurrentSnapshot.isOnline = !cm.isOffline := by
  unfold isOffline extractCurrentSnapshot extractState
  split
  · rfl
  · split
    · rfl
    · unfold stateFromCapabilities ConnectionState.isOnline
      dsimp only
      split
      · rfl
      · split <;> rfl

end ConnectivityManager

/-! ## The monitor -/

structure ConnectivityMonitor where
  /-- `callback != null`. -/
  registered : Bool
  /-- `_state.value`. -/
  state : ConnectionState
  /-- The calls of the callback that have yet to run. -/
  callbacks : List NetworkCallback
  /-- The statuses of the `CONNECTION_CHANGED` events. -/
  connectionChanges : List ConnectionStatus
  deriving DecidableEq

namespace ConnectivityMonitor

def update (monitor : ConnectivityMonitor) (next : ConnectionState) (emit : Bool) :
    ConnectivityMonitor :=
  if monitor.state = next then monitor
  else
    { monitor with
      state := next
      connectionChanges := if emit then monitor.connectionChanges ++ [next.status]
        else monitor.connectionChanges }

def currentState (monitor : ConnectivityMonitor) (cm : ConnectivityManager) : ConnectionState :=
  if monitor.state.status != .UNKNOWN then monitor.state else cm.extractCurrentSnapshot

/-- Registers the callback, which is called for every network that is up, and
seeds the flow. -/
def start (monitor : ConnectivityMonitor) (cm : ConnectivityManager) : ConnectivityMonitor :=
  if monitor.registered then monitor
  else
    let up := cm.networks.filter fun n => n.2.satisfies
    let calls := up.flatMap fun n => ConnectivityManager.announcement n.1 n.2
    let monitor := { monitor with
      registered := true
      callbacks := monitor.callbacks ++ calls }
    monitor.update (monitor.currentState cm) false

/-- The system queues calls of the callback. -/
def announce (monitor : ConnectivityMonitor) (calls : List NetworkCallback) :
    ConnectivityMonitor :=
  if monitor.registered then { monitor with callbacks := monitor.callbacks ++ calls } else monitor

/-- The connection a call of the callback reports. -/
def reported (cm : ConnectivityManager) : NetworkCallback → ConnectionState
  | .onAvailable network => cm.extractState network
  | .onLost _ => disconnectedState
  | .onCapabilitiesChanged _ caps => stateFromCapabilities caps
  | .onUnavailable => disconnectedState

def handle (monitor : ConnectivityMonitor) (cm : ConnectivityManager) (call : NetworkCallback) :
    ConnectivityMonitor :=
  monitor.update (reported cm call) true

@[simp] theorem state_announce (monitor : ConnectivityMonitor) (calls : List NetworkCallback) :
    (monitor.announce calls).state = monitor.state := by
  unfold announce
  split <;> rfl

theorem callbacks_subset_announce (monitor : ConnectivityMonitor)
    (calls : List NetworkCallback) : monitor.callbacks ⊆ (monitor.announce calls).callbacks := by
  unfold announce
  split
  · exact List.subset_append_left _ _
  · exact List.Subset.refl _

@[simp] theorem state_update (monitor : ConnectivityMonitor) (next : ConnectionState)
    (emit : Bool) : (monitor.update next emit).state = next := by
  unfold update
  split
  · assumption
  · rfl

@[simp] theorem callbacks_update (monitor : ConnectivityMonitor) (next : ConnectionState)
    (emit : Bool) : (monitor.update next emit).callbacks = monitor.callbacks := by
  unfold update
  split <;> rfl

@[simp] theorem state_handle (monitor : ConnectivityMonitor) (cm : ConnectivityManager)
    (call : NetworkCallback) : (monitor.handle cm call).state = reported cm call :=
  state_update ..

@[simp] theorem callbacks_handle (monitor : ConnectivityMonitor) (cm : ConnectivityManager)
    (call : NetworkCallback) : (monitor.handle cm call).callbacks = monitor.callbacks :=
  callbacks_update ..

end ConnectivityMonitor

/-- Where the collector of `connectivityMonitor.state` stands. It sees the value
the flow has when it runs, and nothing when that equals the last one it saw. -/
inductive ConnectivityWatch where
  | waiting (last : Option ConnectionState)
  /-- `next` passed the filter, `onNetworkAvailable` is to be called. -/
  | delivering (next : ConnectionState)
  deriving DecidableEq

end SyncProvider.Android
