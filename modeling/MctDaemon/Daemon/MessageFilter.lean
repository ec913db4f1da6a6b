import MctDaemon.Lib.CString
import MctDaemon.Shared.Types

/-!
The message filter of the daemon (`mct_daemon_filter.c`): its configurations
by level, and the named injection configurations they refer to. A C string is
the list of its characters before the terminating zero.
-/

namespace MctDaemon.Daemon

open Lib Shared

def mctFilterLevelMin : Nat := 0
def mctFilterLevelMax : Nat := 100
def mctFilterInjectionConfigMax : Nat := 50

/-- A named set of injection messages. -/
structure MctInjectionConfig where
  name : List Char
  apid : List Char
  ctid : List Char
  ecuid : List Char
  /-- -1 for all service ids. -/
  numSeviceIds : Int
  serviceIds : List Int
  deriving DecidableEq, Repr

/-- A filter configuration. `numInjections` is -1 for all injections. -/
structure MctFilterConfiguration where
  name : List Char
  levelMin : Nat
  levelMax : Nat
  clientMask : Nat
  numInjections : Int
  injections : List (List Char)
  counted : numInjections = -1 ∨ numInjections = injections.length
  deriving DecidableEq, Repr

/-- The filter as the daemon runs with it. -/
structure MctMessageFilter where
  configs : List MctFilterConfiguration
  current : MctFilterConfiguration
  injections : List MctInjectionConfig
  injections_le : injections.length ≤ mctFilterInjectionConfigMax
  deriving DecidableEq, Repr

theorem noInjections_counted : (0 : Int) = -1 ∨ (0 : Int) = ([] : List (List Char)).length :=
  .inr rfl

theorem noInjections_le : ([] : List MctInjectionConfig).length ≤ mctFilterInjectionConfigMax :=
  Nat.zero_le _

section Injections

def filterClientNone : List Char := ['N', 'O', 'N', 'E']

/-- The count and the list `mct_daemon_set_injection_service_ids` stores. The
list is allocated, cleared, for one id more than there are commas. -/
def setInjectionServiceIds (value : List Char) : Int × List Int :=
  if strncmpEq value ['*'] 1 then (-1, [])
  else if strncasecmpEq value filterClientNone value.length then (0, [])
  else
    let num := 1 + value.count ','
    let ids := (strtok ',' value).map fun token => int32 (strtol token)
    (num, ids ++ List.replicate (num - ids.length) 0)

/-- The values of an injection section of the configuration file. -/
structure InjectionSection where
  name : List Char
  logAppName : List Char
  contextName : List Char
  nodeID : List Char
  serviceID : List Char
  deriving DecidableEq, Repr

/-- What the handlers of `mct_daemon_setup_injection_config` store. -/
def setupInjectionConfig (sec : InjectionSection) : MctInjectionConfig where
  name := sec.name
  apid := sec.logAppName
  ctid := sec.contextName
  ecuid := sec.nodeID
  numSeviceIds := (setInjectionServiceIds sec.serviceID).1
  serviceIds := (setInjectionServiceIds sec.serviceID).2

/-- `mct_daemon_filter_find_injection_by_name` over the slots in use. -/
def findInjectionByName (injections : List MctInjectionConfig) (name : List Char) :
    Option MctInjectionConfig :=
  injections.find? fun icfg => strncmpEq icfg.name name icfg.name.length

def MctInjectionConfig.hasServiceId (icfg : MctInjectionConfig) (serviceId : Int) : Bool :=
  (icfg.serviceIds.take icfg.numSeviceIds.toNat).contains serviceId

/-- The loop over the names of the current filter. -/
def scanInjections (known : List MctInjectionConfig) (apid ctid ecuid : List Char)
    (serviceId : Int) : List (List Char) → MctReturnValue
  | [] => .ok
  | name :: names =>
      match findInjectionByName known name with
      | none => .error
      | some icfg =>
          if !strncmpEq icfg.apid apid icfg.apid.length then .ok
          else if !strncmpEq icfg.ctid ctid icfg.ctid.length then .ok
          else if !strncmpEq icfg.ecuid ecuid icfg.ecuid.length then .ok
          else if icfg.hasServiceId serviceId then .true
          else scanInjections known apid ctid ecuid serviceId names

def isInjectionAllowed (filter : MctMessageFilter) (apid ctid ecuid : List Char)
    (serviceId : Int) : MctReturnValue :=
  if filter.current.numInjections = 0 then .ok
  else if filter.current.numInjections = -1 then .true
  else scanInjections filter.injections apid ctid ecuid serviceId filter.current.injections

end Injections

end MctDaemon.Daemon
