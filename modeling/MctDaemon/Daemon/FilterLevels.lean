import MctDaemon.Daemon.MessageFilter
import MctDaemon.Lib.Run

/-!
The list of filter configurations by level: insertion of a section, the check
of the range and the selection of a configuration. A list is `Consecutive`
when each configuration begins one level above the end of the one before; this
fixes every lower bound, so that the list is determined by its upper bounds.
-/

namespace MctDaemon.Daemon

open Lib Shared

section Functions

/-- `mct_daemon_check_filter_level`: the level is not defined yet. -/
def checkFilterLevel (conf other : MctFilterConfiguration) : MctReturnValue :=
  if conf.levelMax = other.levelMax then .error else .ok

/-- The loop of `mct_daemon_insert_filter` at an entry of the list, when the
section does not belong before it. -/
def insertBehind (conf : MctFilterConfiguration) (entry : MctFilterConfiguration) :
    List MctFilterConfiguration → MctReturnValue × List MctFilterConfiguration
  | [] =>
      if checkFilterLevel conf entry = .error then (.error, [entry])
      else (.ok, [entry, { conf with levelMin := entry.levelMax + 1 }])
  | next :: rest =>
      if checkFilterLevel conf entry = .error then (.error, entry :: next :: rest)
      else if conf.levelMax < next.levelMax then
        (.ok, entry :: { conf with levelMin := next.levelMin } ::
          { next with levelMin := conf.levelMax + 1 } :: rest)
      else
        let (ret, behind) := insertBehind conf next rest
        (ret, entry :: behind)

def insertFilter (conf : MctFilterConfiguration) :
    List MctFilterConfiguration → MctReturnValue × List MctFilterConfiguration
  | [] => (.ok, [conf])
  | first :: rest =>
      if conf.levelMax < first.levelMax then
        (.ok, conf :: { first with levelMin := conf.levelMax + 1 } :: rest)
      else insertBehind conf first rest

/-- `mct_daemon_setup_filter_section`, for a section whose values were read: the
lower bound is the lowest level until the section is inserted. -/
def setupFilterSection (configs : List MctFilterConfiguration) (tmp : MctFilterConfiguration) :
    MctReturnValue × List MctFilterConfiguration :=
  insertFilter { tmp with levelMin := mctFilterLevelMin } configs

/-- `MCT_FILTER_CLIENT_CONNECTION_DEFAULT_MASK`: application messages and
connections, the three timers, control connections and messages. -/
def filterClientConnectionDefaultMask : Nat :=
  2 ^ 5 + 2 ^ 4 + 2 ^ 6 + 2 ^ 7 + 2 ^ 8 + 2 ^ 9 + 2 ^ 10

def addClosedFilter (name : List Char) : MctFilterConfiguration where
  name := name
  levelMin := mctFilterLevelMin
  levelMax := mctFilterLevelMax
  clientMask := filterClientConnectionDefaultMask
  numInjections := 0
  injections := []
  counted := noInjections_counted

/-- The loop of `mct_daemon_check_filter_level_range`. -/
def closeLevelRange : List MctFilterConfiguration → List MctFilterConfiguration
  | [] => []
  | [last] =>
      if last.levelMax < mctFilterLevelMax then [{ last with levelMax := mctFilterLevelMax }]
      else [last]
  | conf :: next :: rest => conf :: closeLevelRange (next :: rest)

def mostClosedFilterName : List Char := "Customer".toList

def checkFilterLevelRange (configs : List MctFilterConfiguration) : List MctFilterConfiguration :=
  if configs = [] then [addClosedFilter mostClosedFilterName] else closeLevelRange configs

/-- The loop over the configurations that selects one for a level. -/
def selectLevel (configs : List MctFilterConfiguration) (level : Nat) :
    Option MctFilterConfiguration :=
  configs.find? fun conf => level ≤ conf.levelMax

/-- `mct_daemon_set_default_level`: the current configuration, if there is one. -/
def setDefaultLevel (configs : List MctFilterConfiguration) (defaultLevel : Nat) :
    MctReturnValue × Option MctFilterConfiguration :=
  match selectLevel configs defaultLevel with
  | some conf => (.ok, some conf)
  | none => (.error, none)

end Functions

end MctDaemon.Daemon
