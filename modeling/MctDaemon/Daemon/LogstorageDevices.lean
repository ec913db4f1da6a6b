import Mathlib.Data.List.DropRight
import MctDaemon.Lib.Run
import MctDaemon.Shared.Types

/-!
The requests that connect, disconnect and synchronise log-storage devices
(`mct_daemon_control_service_logstorage`). A device is a slot with the mount
point it was connected with. What the daemon does to the levels of the
applications is not part of this model.
-/

namespace MctDaemon.Daemon

open Lib Shared

/-- The device and the inode that `stat` reports, if it succeeds. -/
abbrev Stat := List Char → Option (Nat × Nat)

/-- `connection_type` of a request. -/
inductive ConnectionType where
  | deviceDisconnected
  | deviceConnected
  | syncCaches
  | other
  deriving DecidableEq, Repr

inductive ServiceResponse where
  | ok
  | warning
  | error
  deriving DecidableEq, Repr

/-- A storage device, as far as these requests look at it. -/
structure StorageHandle where
  connected : Bool
  deviceMountPoint : List Char
  deriving DecidableEq, Repr

def StorageHandle.free : StorageHandle := ⟨false, []⟩

structure StorageDaemon where
  storageHandle : List StorageHandle
  internalClientConnections : Int
  deriving DecidableEq, Repr

/-- The daemon with this number of slots before the first request. -/
def StorageDaemon.start (slots : Nat) : StorageDaemon := ⟨List.replicate slots .free, 0⟩

/-- A request with what `stat` answers while it is served, and the value of
`mct_logstorage_load_config` if it comes to that. -/
structure LogstorageRequest where
  connectionType : ConnectionType
  mountPoint : List Char
  stat : Stat
  loadConfig : Int

/-- The value that the mount points of the devices are compared with. -/
def LogstorageRequest.wanted (req : LogstorageRequest) : Option (Nat × Nat) :=
  if req.connectionType = .syncCaches then some (0, 0) else req.stat req.mountPoint

/-- The response, and the devices whose caches were synchronised. -/
structure LogstorageReply where
  response : ServiceResponse
  synced : List Nat
  deriving DecidableEq, Repr

def LogstorageReply.error : LogstorageReply := ⟨.error, []⟩

/-- The loop that looks for the device of the request. `none` means that a
mount point of the daemon could not be stat-ed. -/
def findDeviceIndex (stat : Stat) (wanted : Nat × Nat) :
    List StorageHandle → Nat → Option Nat → Option (Option Nat)
  | [], _, deviceIndex => some deviceIndex
  | handle :: rest, i, deviceIndex =>
      let deviceIndex' :=
        if !handle.connected ∧ deviceIndex = none then some i else deviceIndex
      if 1 < handle.deviceMountPoint.length then
        match stat handle.deviceMountPoint with
        | none => none
        | some found =>
            if wanted = found then some (some i)
            else findDeviceIndex stat wanted rest (i + 1) deviceIndex'
      else findDeviceIndex stat wanted rest (i + 1) deviceIndex'

/-- `strncmp` over the shorter of the two paths. -/
def comparable (first second : List Char) : Bool :=
  let len := min first.length second.length
  first.take len = second.take len

def getDevice (handles : List StorageHandle) (mountPoint : List Char) : Option Nat :=
  handles.findIdx? fun handle => comparable handle.deviceMountPoint mountPoint

def connectedDevices (handles : List StorageHandle) : List Nat :=
  handles.findIdxs StorageHandle.connected

/-- `mct_daemon_logstorage_sync_cache`: the returned value, and the devices
whose caches it synchronises. -/
def logstorageSyncCache (handles : List StorageHandle) (mountPoint : List Char) :
    MctReturnValue × List Nat :=
  if 0 < mountPoint.length then
    match getDevice handles mountPoint with
    | none => (.error, [])
    | some i => (.ok, [i])
  else (.ok, connectedDevices handles)

/-- The loop over all devices when every slot is in use: each one is looked up
again by its mount point. -/
def syncEach (handles : List StorageHandle) : MctReturnValue × List Nat :=
  (handles.filter StorageHandle.connected).foldl (fun (_, synced) handle =>
    let (ret, more) := logstorageSyncCache handles handle.deviceMountPoint
    (ret, synced ++ more)) (.ok, [])

def serveDevice (d : StorageDaemon) (req : LogstorageRequest) (i : Nat) :
    LogstorageReply × StorageDaemon :=
  match req.connectionType with
  | .deviceConnected =>
      let d := { d with storageHandle := d.storageHandle.set i ⟨true, req.mountPoint⟩ }
      if req.loadConfig = 1 then (⟨.warning, []⟩, d)
      else if req.loadConfig ≠ 0 then (.error, d)
      else (⟨.ok, []⟩, { d with internalClientConnections := d.internalClientConnections + 1 })
  | .deviceDisconnected =>
      (⟨.ok, []⟩, {
        storageHandle := d.storageHandle.set i .free
        internalClientConnections := d.internalClientConnections - 1 })
  | .syncCaches =>
      let (ret, synced) := logstorageSyncCache d.storageHandle req.mountPoint
      (⟨if ret = .ok then .ok else .error, synced⟩, d)
  | .other => (.error, d)

/-- `mct_daemon_control_service_logstorage`. A request to synchronise does not
stat its mount point, and compares with cleared values. -/
def serviceLogstorage (d : StorageDaemon) (req : LogstorageRequest) :
    LogstorageReply × StorageDaemon :=
  if d.storageHandle.length = 0 then (.error, d)
  else
    match req.wanted.map fun wanted => findDeviceIndex req.stat wanted d.storageHandle 0 none with
    | none => (.error, d)
    | some none => (.error, d)
    | some (some none) =>
        if req.connectionType = .syncCaches ∧ req.mountPoint = [] then
          let (ret, synced) := syncEach d.storageHandle
          (⟨if ret = .ok then .ok else .error, synced⟩, d)
        else (.error, d)
    | some (some (some i)) => serveDevice d req i

def stripSlash (path : List Char) : List Char := path.rdropWhile (· = '/')

/-- The request is about this device: it is connected and has the mount point
that the request names. -/
def Names (req : LogstorageRequest) (handle : StorageHandle) : Prop :=
  handle.connected ∧
    match req.connectionType with
    | .syncCaches => stripSlash handle.deviceMountPoint = stripSlash req.mountPoint
    | _ => (req.stat req.mountPoint).isSome ∧
        req.stat handle.deviceMountPoint = req.stat req.mountPoint

instance (req : LogstorageRequest) (handle : StorageHandle) : Decidable (Names req handle) := by
  unfold Names
  split <;> infer_instance

/-- The response that a request deserves: what the other devices are called
does not matter. -/
def deserved (handles : List StorageHandle) (req : LogstorageRequest) : ServiceResponse :=
  match req.connectionType with
  | .deviceConnected =>
      if (req.stat req.mountPoint).isSome ∧ ∃ handle ∈ handles, handle.connected = false then .ok
      else .error
  | .deviceDisconnected => if ∃ handle ∈ handles, Names req handle then .ok else .error
  | .syncCaches =>
      if handles ≠ [] ∧ (req.mountPoint = [] ∨ ∃ handle ∈ handles, Names req handle) then .ok
      else .error
  | .other => .error

/-- How many slots were `before` and are `after`. -/
def turned (first second : List StorageHandle) (before after : Bool) : Nat :=
  (first.zip second).countP fun pair =>
    pair.1.connected = before ∧ pair.2.connected = after

/-- A request acts on the device it names: connections are counted and answers given as that device
asks for, and a request that names none is refused and changes nothing. -/
structure ActsOnNamed (d : StorageDaemon) (req : LogstorageRequest)
    (reply : LogstorageReply) (next : StorageDaemon) : Prop where
  counts : next.internalClientConnections = d.internalClientConnections +
    turned d.storageHandle next.storageHandle false true -
    turned d.storageHandle next.storageHandle true false
  response : reply.response = deserved d.storageHandle req
  refused : (req.connectionType = .deviceDisconnected ∨
      req.connectionType = .syncCaches ∧ req.mountPoint ≠ []) →
    (∀ handle ∈ d.storageHandle, ¬ Names req handle) →
    reply.response = .error ∧ next = d ∧ reply.synced = []
  syncsOne : req.connectionType = .syncCaches → req.mountPoint ≠ [] →
    ∀ i handle, d.storageHandle[i]? = some handle → Names req handle → reply.synced = [i]
  syncsAll : req.connectionType = .syncCaches → req.mountPoint = [] →
    ∀ i handle, d.storageHandle[i]? = some handle → handle.connected → i ∈ reply.synced

def Matches (req : LogstorageRequest) (handle : StorageHandle) : Prop :=
  1 < handle.deviceMountPoint.length ∧ req.wanted.isSome ∧
    req.stat handle.deviceMountPoint = req.wanted

instance instDecidableMatchesHandle (req : LogstorageRequest) (handle : StorageHandle) :
    Decidable (Matches req handle) :=
  inferInstanceAs (Decidable (_ ∧ _ ∧ _))

/-- The loop finds a device, or a slot that is free. -/
def FindsSlot (d : StorageDaemon) (req : LogstorageRequest) : Prop :=
  ∃ handle ∈ d.storageHandle, handle.connected = false ∨ Matches req handle

instance (d : StorageDaemon) (req : LogstorageRequest) : Decidable (FindsSlot d req) :=
  inferInstanceAs (Decidable (∃ handle ∈ _, _))

/-- The only device with the path of the request is also the first one whose
path is comparable. -/
def FirstComparable (d : StorageDaemon) (req : LogstorageRequest) : Prop :=
  ((d.storageHandle.find? fun handle => comparable handle.deviceMountPoint req.mountPoint).any
      fun handle => Names req handle) = true ∧
    d.storageHandle.countP (fun handle => Names req handle) = 1

instance (d : StorageDaemon) (req : LogstorageRequest) : Decidable (FirstComparable d req) :=
  inferInstanceAs (Decidable (_ ∧ _))

/-- The devices do not get in each other's way: the mount points in front of
the device are visible, a device is not connected twice, one that is to be
disconnected is connected, or else no slot is free, and the caches are
synchronised by a path that leads to the right device while a slot is free. -/
def ServedAlone (d : StorageDaemon) (req : LogstorageRequest) : Prop :=
  req.loadConfig = 0 ∧
  (∀ handle ∈ d.storageHandle.takeWhile (fun handle => ¬ Matches req handle),
    1 < handle.deviceMountPoint.length → (req.stat handle.deviceMountPoint).isSome) ∧
  match req.connectionType with
  | .deviceConnected => ∀ handle ∈ d.storageHandle, ¬ Matches req handle
  | .deviceDisconnected => (req.stat req.mountPoint).isSome →
      (∃ handle ∈ d.storageHandle, Matches req handle) ∨
        ∀ handle ∈ d.storageHandle, handle.connected ∧ ¬ Names req handle
  | .syncCaches =>
      if req.mountPoint = [] then
        FindsSlot d req ∨ (∃ handle ∈ d.storageHandle, handle.deviceMountPoint = []) ∨
          d.storageHandle.Pairwise fun first second =>
            comparable first.deviceMountPoint second.deviceMountPoint = false
      else
        (FindsSlot d req ∧ FirstComparable d req) ∨
          (¬ FindsSlot d req ∧ ∀ handle ∈ d.storageHandle, ¬ Names req handle)
  | .other => True

instance (d : StorageDaemon) (req : LogstorageRequest) : Decidable (ServedAlone d req) := by
  unfold ServedAlone
  cases req.connectionType <;> infer_instance

/-- A slot that is not in use has no mount point. -/
def Cleared (d : StorageDaemon) : Prop :=
  ∀ handle ∈ d.storageHandle, handle.connected = false → handle.deviceMountPoint = []

section Search

variable {d : StorageDaemon} {req : LogstorageRequest}

/-- Where every mount point is visible, the loop finds the first device that
it recognises, or else the first slot that is free. -/
theorem findDeviceIndex_spec {wanted : Nat × Nat} (hwanted : req.wanted = some wanted)
    {handles : List StorageHandle}
    (hvisible : ∀ handle ∈ handles.takeWhile (fun handle => ¬ Matches req handle),
      1 < handle.deviceMountPoint.length → (req.stat handle.deviceMountPoint).isSome)
    (i : Nat) (found : Option Nat) :
    findDeviceIndex req.stat wanted handles i found =
      some (((handles.findIdx? fun handle => Matches req handle).map (i + ·)).or
        (found.or ((handles.findIdx? fun handle => !handle.connected).map (i + ·)))) := by
  induction handles generalizing i found with
  | nil => simp [findDeviceIndex]
  | cons handle rest ih =>
      have hshift (p : StorageHandle → Bool) : ((rest.findIdx? p).map (· + 1)).map (i + ·) =
          (rest.findIdx? p).map (i + 1 + ·) := by
        rw [Option.map_map]
        congr 1
        funext k
        simp only [Function.comp_apply]
        omega
      by_cases hmatch : Matches req handle
      · obtain ⟨hlong, -, hstat⟩ := id hmatch
        rw [findDeviceIndex, if_pos hlong, hstat, hwanted]
        simp [List.findIdx?_cons, hmatch]
      · rw [List.takeWhile_cons_of_pos (by simpa using hmatch)] at hvisible
        have hgo (found' : Option Nat) :
            findDeviceIndex req.stat wanted rest (i + 1) found' =
              some (((rest.findIdx? fun handle => Matches req handle).map (i + 1 + ·)).or
                (found'.or ((rest.findIdx? fun handle => !handle.connected).map (i + 1 + ·)))) :=
          ih (fun other hother => hvisible other (List.mem_cons_of_mem _ hother)) (i + 1) found'
        have hnext : findDeviceIndex req.stat wanted (handle :: rest) i found =
            findDeviceIndex req.stat wanted rest (i + 1)
              (if !handle.connected ∧ found = none then some i else found) := by
          rw [findDeviceIndex]
          split
          · rename_i hlong
            cases hstat : req.stat handle.deviceMountPoint with
            | none =>
                have := hvisible handle List.mem_cons_self hlong
                rw [hstat] at this
                cases this
            | some st =>
                have hne : wanted ≠ st := by
                  rintro rfl
                  exact hmatch ⟨hlong, by rw [hwanted]; rfl, by rw [hstat, hwanted]⟩
                simp only [if_neg hne]
          · rfl
        rw [hnext, hgo]
        simp only [List.findIdx?_cons, hmatch, decide_false, Bool.false_eq_true, if_false, hshift]
        cases hconnected : handle.connected <;> cases found <;> simp [hshift]

def slotOf (d : StorageDaemon) (req : LogstorageRequest) : Option Nat :=
  (d.storageHandle.findIdx? fun handle => Matches req handle).or
    (d.storageHandle.findIdx? fun handle => !handle.connected)

theorem slotOf_eq_none_iff : slotOf d req = none ↔ ¬ FindsSlot d req := by
  simp only [slotOf, Option.or_eq_none_iff, List.findIdx?_eq_none_iff, FindsSlot, not_exists,
    not_and, not_or, decide_eq_false_iff_not, Bool.not_eq_false', Bool.not_eq_false]
  constructor
  · rintro ⟨hmatch, hfree⟩ handle hmem
    exact ⟨hfree handle hmem, hmatch handle hmem⟩
  · intro h
    exact ⟨fun handle hmem => (h handle hmem).2, fun handle hmem => (h handle hmem).1⟩

/-- The service, once the slot is known. -/
theorem serviceLogstorage_eq (hserved : ServedAlone d req) {wanted : Nat × Nat}
    (hwanted : req.wanted = some wanted) (hslots : d.storageHandle ≠ []) :
    serviceLogstorage d req =
      match slotOf d req with
      | some i => serveDevice d req i
      | none =>
          if req.connectionType = .syncCaches ∧ req.mountPoint = [] then
            (⟨if (syncEach d.storageHandle).1 = .ok then .ok else .error,
              (syncEach d.storageHandle).2⟩, d)
          else (.error, d) := by
  have hfind := findDeviceIndex_spec hwanted hserved.2.1 0 none
  simp only [Nat.zero_add, Option.map_id', Option.none_or] at hfind
  rw [serviceLogstorage, if_neg (by simpa using hslots), hwanted]
  simp only [Option.map_some, hfind, slotOf]
  cases (d.storageHandle.findIdx? fun handle => Matches req handle).or
    (d.storageHandle.findIdx? fun handle => !handle.connected) <;> rfl

end Search

section Turned

variable {handles : List StorageHandle} {before after : Bool}

theorem turned_self (hne : before ≠ after) (handles : List StorageHandle) :
    turned handles handles before after = 0 := by
  rw [turned, List.countP_eq_zero]
  rintro ⟨first, second⟩ hmem
  have hsame : first = second := by
    rw [List.zip_eq_zipWith, List.zipWith_self] at hmem
    obtain ⟨handle, -, hpair⟩ := List.mem_map.mp hmem
    cases hpair
    rfl
  rintro h
  rw [decide_eq_true_eq] at h
  subst hsame
  exact hne (h.1.symm.trans h.2)

theorem turned_set (hne : before ≠ after) {i : Nat} {handle : StorageHandle}
    (hi : handles[i]? = some handle) (other : StorageHandle) :
    turned handles (handles.set i other) before after =
      if handle.connected = before ∧ other.connected = after then 1 else 0 := by
  induction handles generalizing i with
  | nil => simp at hi
  | cons first rest ih =>
      cases i with
      | zero =>
          cases hi
          have hrest := turned_self hne rest
          simp only [turned] at hrest
          simp only [turned, List.set_cons_zero, List.zip_cons_cons, List.countP_cons, hrest,
            Nat.zero_add, decide_eq_true_eq]
      | succ i =>
          have hrest := ih hi
          have hfirst : ¬(first.connected = before ∧ first.connected = after) := fun h =>
            hne (h.1.symm.trans h.2)
          simp only [turned] at hrest
          simp only [turned, List.set_cons_succ, List.zip_cons_cons, List.countP_cons, hrest,
            decide_eq_true_eq, if_neg hfirst, Nat.add_zero]

end Turned

section Steps

variable {d : StorageDaemon} {req : LogstorageRequest}

/-- A request that is refused changes nothing. -/
theorem ActsOnNamed.of_error (hdeserved : deserved d.storageHandle req = .error)
    (hone : req.connectionType = .syncCaches → req.mountPoint ≠ [] →
      ∀ handle ∈ d.storageHandle, ¬ Names req handle)
    (hall : req.connectionType = .syncCaches → req.mountPoint = [] → d.storageHandle = []) :
    ActsOnNamed d req .error d where
  counts := by
    rw [turned_self (by decide), turned_self (by decide)]
    omega
  response := hdeserved.symm
  refused _ _ := ⟨rfl, rfl, rfl⟩
  syncsOne hsync hmount i handle hi hnamed :=
    absurd hnamed (hone hsync hmount handle (List.mem_of_getElem? hi))
  syncsAll hsync hmount i handle hi _ := by
    rw [hall hsync hmount] at hi
    simp at hi

theorem Matches.names (hkind : req.connectionType ≠ .syncCaches) {handle : StorageHandle}
    (hcleared : Cleared d) (hmem : handle ∈ d.storageHandle) (h : Matches req handle) :
    Names req handle := by
  obtain ⟨hlong, hsome, hstat⟩ := h
  have hconnected : handle.connected = true := by
    by_contra hfree
    rw [hcleared handle hmem (by simpa using hfree)] at hlong
    simp at hlong
  rw [LogstorageRequest.wanted, if_neg hkind] at hsome hstat
  refine ⟨hconnected, ?_⟩
  cases hkind' : req.connectionType with
  | syncCaches => exact absurd hkind' hkind
  | deviceConnected => exact ⟨hsome, hstat⟩
  | deviceDisconnected => exact ⟨hsome, hstat⟩
  | other => exact ⟨hsome, hstat⟩

theorem Cleared.set (hcleared : Cleared d) {i : Nat} {handle : StorageHandle} {count : Int}
    (hhandle : handle.connected = false → handle.deviceMountPoint = []) :
    Cleared ⟨d.storageHandle.set i handle, count⟩ := by
  intro other hother hfree
  rcases List.mem_or_eq_of_mem_set hother with hmem | rfl
  · exact hcleared other hmem hfree
  · exact hhandle hfree

/-- Connecting a device that is not connected yet. -/
theorem connect_acts (hkind : req.connectionType = .deviceConnected)
    (hcleared : Cleared d) (hserved : ServedAlone d req) :
    ActsOnNamed d req (serviceLogstorage d req).1 (serviceLogstorage d req).2 ∧
      Cleared (serviceLogstorage d req).2 := by
  have hwanted : req.wanted = req.stat req.mountPoint := by
    rw [LogstorageRequest.wanted, if_neg (by rw [hkind]; decide)]
  have herror (hdeserved : deserved d.storageHandle req = .error) :
      ActsOnNamed d req .error d ∧ Cleared d :=
    ⟨.of_error hdeserved (fun h => by rw [hkind] at h; cases h)
      (fun h => by rw [hkind] at h; cases h), hcleared⟩
  by_cases hslots : d.storageHandle = []
  · have hrun : serviceLogstorage d req = (.error, d) := by
      rw [serviceLogstorage, if_pos (by simp [hslots])]
    rw [hrun]
    exact herror (by simp [deserved, hkind, hslots])
  cases hstat : req.stat req.mountPoint with
  | none =>
      have hrun : serviceLogstorage d req = (.error, d) := by
        rw [serviceLogstorage, if_neg (by simpa using hslots), hwanted, hstat]
        rfl
      rw [hrun]
      exact herror (by simp [deserved, hkind, hstat])
  | some wanted =>
      have hfresh : ∀ handle ∈ d.storageHandle, ¬ Matches req handle := by
        have := hserved.2.2
        rw [hkind] at this
        exact this
      have hnone : (d.storageHandle.findIdx? fun handle => Matches req handle) = none := by
        rw [List.findIdx?_eq_none_iff]
        simpa using hfresh
      rw [serviceLogstorage_eq hserved (hwanted.trans hstat) hslots, slotOf, hnone, Option.none_or]
      cases hfree : d.storageHandle.findIdx? fun handle => !handle.connected with
      | none =>
          simp only [hkind]
          rw [if_neg (by simp)]
          refine herror ?_
          rw [List.findIdx?_eq_none_iff] at hfree
          simp only [deserved, hkind]
          rw [if_neg]
          rintro ⟨-, handle, hmem, hdis⟩
          simpa [hdis] using hfree handle hmem
      | some i =>
          obtain ⟨hlt, hi, -⟩ := List.findIdx?_eq_some_iff_getElem.mp hfree
          have hget : d.storageHandle[i]? = some d.storageHandle[i] := List.getElem?_eq_getElem hlt
          have hdis : d.storageHandle[i].connected = false := by simpa using hi
          have hload : req.loadConfig = 0 := hserved.1
          simp only [serveDevice, hkind, hload]
          rw [if_neg (by decide), if_neg (by decide)]
          refine ⟨⟨?_, ?_, ?_, ?_, ?_⟩, hcleared.set (fun h => by cases h)⟩
          · rw [turned_set (by decide) hget, turned_set (by decide) hget, hdis]
            simp
          · simp only [deserved, hkind, hstat]
            rw [if_pos ⟨rfl, _, List.getElem_mem hlt, hdis⟩]
          · rintro (h | ⟨h, -⟩) <;> · rw [hkind] at h; cases h
          · intro h
            rw [hkind] at h
            cases h
          · intro h
            rw [hkind] at h
            cases h

/-- Disconnecting a device, or a mount point that is not connected. -/
theorem disconnect_acts (hkind : req.connectionType = .deviceDisconnected)
    (hcleared : Cleared d) (hserved : ServedAlone d req) :
    ActsOnNamed d req (serviceLogstorage d req).1 (serviceLogstorage d req).2 ∧
      Cleared (serviceLogstorage d req).2 := by
  have hwanted : req.wanted = req.stat req.mountPoint := by
    rw [LogstorageRequest.wanted, if_neg (by rw [hkind]; decide)]
  have herror (hnamed : ∀ handle ∈ d.storageHandle, ¬ Names req handle) :
      ActsOnNamed d req .error d ∧ Cleared d := by
    refine ⟨.of_error ?_ (fun h => by rw [hkind] at h; cases h)
      (fun h => by rw [hkind] at h; cases h), hcleared⟩
    simp only [deserved, hkind]
    rw [if_neg]
    rintro ⟨handle, hmem, h⟩
    exact hnamed handle hmem h
  by_cases hslots : d.storageHandle = []
  · have hrun : serviceLogstorage d req = (.error, d) := by
      rw [serviceLogstorage, if_pos (by simp [hslots])]
    rw [hrun]
    exact herror (by simp [hslots])
  cases hstat : req.stat req.mountPoint with
  | none =>
      have hrun : serviceLogstorage d req = (.error, d) := by
        rw [serviceLogstorage, if_neg (by simpa using hslots), hwanted, hstat]
        rfl
      rw [hrun]
      refine herror ?_
      rintro handle - ⟨-, hnamed⟩
      simp only [hkind, hstat] at hnamed
      exact absurd hnamed.1 (by decide)
  | some wanted =>
      have hknown := hserved.2.2
      simp only [hkind, hstat, Option.isSome_some, forall_const] at hknown
      rw [serviceLogstorage_eq hserved (hwanted.trans hstat) hslots, slotOf]
      cases hfound : d.storageHandle.findIdx? fun handle => Matches req handle with
      | some i =>
          obtain ⟨hlt, hi, -⟩ := List.findIdx?_eq_some_iff_getElem.mp hfound
          have hget : d.storageHandle[i]? = some d.storageHandle[i] := List.getElem?_eq_getElem hlt
          have hnames : Names req d.storageHandle[i] :=
            Matches.names (by rw [hkind]; decide) hcleared (List.getElem_mem hlt)
              (by simpa using hi)
          simp only [Option.some_or, serveDevice, hkind]
          refine ⟨⟨?_, ?_, ?_, ?_, ?_⟩, hcleared.set (fun _ => rfl)⟩
          · rw [turned_set (by decide) hget, turned_set (by decide) hget, hnames.1]
            simp [StorageHandle.free]
          · simp only [deserved, hkind]
            rw [if_pos ⟨_, List.getElem_mem hlt, hnames⟩]
          · rintro - hnot
            exact absurd hnames (hnot _ (List.getElem_mem hlt))
          · intro h
            rw [hkind] at h
            cases h
          · intro h
            rw [hkind] at h
            cases h
      | none =>
          rw [List.findIdx?_eq_none_iff] at hfound
          rcases hknown with ⟨handle, hmem, hmatch⟩ | hall
          · simpa [hmatch] using hfound handle hmem
          · have hfree : (d.storageHandle.findIdx? fun handle => !handle.connected) = none := by
              rw [List.findIdx?_eq_none_iff]
              intro handle hmem
              simp [(hall handle hmem).1]
            simp only [hfree, Option.none_or, hkind]
            rw [if_neg (by simp)]
            exact herror fun handle hmem => (hall handle hmem).2

/-- A request of no known type. -/
theorem other_acts (hkind : req.connectionType = .other)
    (hcleared : Cleared d) (hserved : ServedAlone d req) :
    ActsOnNamed d req (serviceLogstorage d req).1 (serviceLogstorage d req).2 ∧
      Cleared (serviceLogstorage d req).2 := by
  have hrun : serviceLogstorage d req = (.error, d) := by
    by_cases hslots : d.storageHandle = []
    · rw [serviceLogstorage, if_pos (by simp [hslots])]
    cases hwanted : req.wanted with
    | none =>
        rw [serviceLogstorage, if_neg (by simpa using hslots), hwanted]
        rfl
    | some wanted =>
        rw [serviceLogstorage_eq hserved hwanted hslots]
        cases slotOf d req with
        | none => simp [hkind]
        | some i => simp [serveDevice, hkind]
  rw [hrun]
  exact ⟨.of_error (by simp [deserved, hkind]) (fun h => by rw [hkind] at h; cases h)
    (fun h => by rw [hkind] at h; cases h), hcleared⟩

theorem comparable_self (path : List Char) : comparable path path = true := by
  simp [comparable]

/-- Each device is looked up by its own mount point. -/
theorem syncEach_eq (handles : List StorageHandle) :
    syncEach handles = (.ok, (handles.filter StorageHandle.connected).flatMap fun handle =>
      (logstorageSyncCache handles handle.deviceMountPoint).2) := by
  have hok (handle : StorageHandle) (hmem : handle ∈ handles) :
      (logstorageSyncCache handles handle.deviceMountPoint).1 = .ok := by
    rw [logstorageSyncCache]
    split
    · cases hfind : getDevice handles handle.deviceMountPoint with
      | none =>
          have := List.findIdx?_eq_none_iff.mp hfind handle hmem
          rw [comparable_self] at this
          cases this
      | some i => rfl
    · rfl
  have hfold (rest : List StorageHandle) (hrest : ∀ handle ∈ rest, handle ∈ handles)
      (synced : List Nat) :
      rest.foldl (fun (result : MctReturnValue × List Nat) handle =>
          ((logstorageSyncCache handles handle.deviceMountPoint).1,
            result.2 ++ (logstorageSyncCache handles handle.deviceMountPoint).2)) (.ok, synced) =
        (.ok, synced ++ rest.flatMap fun handle =>
          (logstorageSyncCache handles handle.deviceMountPoint).2) := by
    induction rest generalizing synced with
    | nil => simp
    | cons handle rest ih =>
        rw [List.foldl_cons, hok handle (hrest handle List.mem_cons_self),
          ih fun other hother => hrest other (List.mem_cons_of_mem _ hother)]
        rw [List.flatMap_cons, List.append_assoc]
  exact hfold _ (fun handle hmem => List.mem_of_mem_filter hmem) []

/-- A request to synchronise every device. -/
theorem sync_all_acts (hkind : req.connectionType = .syncCaches) (hmount : req.mountPoint = [])
    (hserved : ServedAlone d req) :
    ActsOnNamed d req (serviceLogstorage d req).1 (serviceLogstorage d req).2 ∧
      (serviceLogstorage d req).2 = d := by
  have hwanted : req.wanted = some (0, 0) := by rw [LogstorageRequest.wanted, if_pos hkind]
  by_cases hslots : d.storageHandle = []
  · have hrun : serviceLogstorage d req = (.error, d) := by
      rw [serviceLogstorage, if_pos (by simp [hslots])]
    rw [hrun]
    exact ⟨.of_error (by simp [deserved, hkind, hslots]) (fun _ h => absurd hmount h)
      (fun _ _ => hslots), rfl⟩
  have hdeserved : deserved d.storageHandle req = .ok := by
    simp [deserved, hkind, hslots, hmount]
  have hdone (synced : List Nat) (hall : ∀ i handle, d.storageHandle[i]? = some handle →
      handle.connected → i ∈ synced) : ActsOnNamed d req ⟨.ok, synced⟩ d := by
    refine ⟨?_, hdeserved.symm, ?_, fun _ h => absurd hmount h, fun _ _ => hall⟩
    · rw [turned_self (by decide), turned_self (by decide)]
      omega
    · rintro (h | ⟨-, h⟩)
      · rw [hkind] at h
        cases h
      · exact absurd hmount h
  have hconnected : ∀ i handle, d.storageHandle[i]? = some handle → handle.connected →
      i ∈ connectedDevices d.storageHandle := by
    intro i handle hi hon
    obtain ⟨hlt, rfl⟩ := List.getElem?_eq_some_iff.mp hi
    exact (List.mem_findIdxs_iff_pos_getElem hlt).mpr hon
  have happart := hserved.2.2
  simp only [hkind, if_pos hmount] at happart
  rw [serviceLogstorage_eq hserved hwanted hslots]
  cases hslot : slotOf d req with
  | some i =>
      simp only [serveDevice, hkind, logstorageSyncCache, hmount]
      exact ⟨hdone _ hconnected, trivial⟩
  | none =>
      have hnone := slotOf_eq_none_iff.mp hslot
      simp only [syncEach_eq, if_true, hkind, hmount, true_and]
      refine ⟨hdone _ ?_, trivial⟩
      intro i handle hi hon
      have hmem := List.mem_of_getElem? hi
      rcases happart with hfinds | ⟨other, hother, hempty⟩ | hpair
      · exact absurd hfinds hnone
      · -- a device without a mount point synchronises all of them
        have hotheron : other.connected = true := by
          by_contra hoff
          exact hnone ⟨other, hother, .inl (by simpa using hoff)⟩
        refine List.mem_flatMap.mpr ⟨other, List.mem_filter.mpr ⟨hother, hotheron⟩, ?_⟩
        rw [logstorageSyncCache, hempty, if_neg (by simp)]
        exact hconnected i handle hi hon
      · refine List.mem_flatMap.mpr ⟨handle, List.mem_filter.mpr ⟨hmem, hon⟩, ?_⟩
        rw [logstorageSyncCache]
        split
        · obtain ⟨hlt, rfl⟩ := List.getElem?_eq_some_iff.mp hi
          have hfind : getDevice d.storageHandle d.storageHandle[i].deviceMountPoint = some i := by
            refine List.findIdx?_eq_some_iff_getElem.mpr ⟨hlt, comparable_self _, ?_⟩
            intro j hj
            have := List.pairwise_iff_getElem.mp hpair j i (by omega) hlt hj
            simp [this]
          simp [hfind]
        · exact hconnected i handle hi hon

/-- Where only one element is wanted, it has one position. -/
theorem index_unique {α : Type*} {p : α → Bool} {l : List α} (hone : l.countP p = 1) {i j : Nat}
    {a b : α} (hi : l[i]? = some a) (ha : p a = true) (hj : l[j]? = some b) (hb : p b = true) :
    i = j := by
  induction l generalizing i j with
  | nil => simp at hi
  | cons x rest ih =>
      have hnone {k : Nat} {c : α} (hx : p x = true) (hk : rest[k]? = some c) : ¬ p c = true := by
        rw [List.countP_cons, if_pos hx] at hone
        exact List.countP_eq_zero.mp (by omega) c (List.mem_of_getElem? hk)
      cases i with
      | zero =>
          cases hi
          cases j with
          | zero => rfl
          | succ j => exact absurd hb (hnone ha hj)
      | succ i =>
          cases j with
          | zero =>
              cases hj
              exact absurd ha (hnone hb hi)
          | succ j =>
              have hx : ¬ p x = true := fun hx => hnone hx hi ha
              rw [List.countP_cons, if_neg hx] at hone
              rw [ih hone hi hj]

/-- A request to synchronise one device. -/
theorem sync_one_acts (hkind : req.connectionType = .syncCaches) (hmount : req.mountPoint ≠ [])
    (hserved : ServedAlone d req) :
    ActsOnNamed d req (serviceLogstorage d req).1 (serviceLogstorage d req).2 ∧
      (serviceLogstorage d req).2 = d := by
  have hwanted : req.wanted = some (0, 0) := by rw [LogstorageRequest.wanted, if_pos hkind]
  have herror (hnamed : ∀ handle ∈ d.storageHandle, ¬ Names req handle) :
      ActsOnNamed d req .error d := by
    refine .of_error ?_ (fun _ _ => hnamed) (fun _ h => absurd h hmount)
    simp only [deserved, hkind]
    rw [if_neg]
    rintro ⟨-, h | ⟨handle, hmem, h⟩⟩
    · exact hmount h
    · exact hnamed handle hmem h
  by_cases hslots : d.storageHandle = []
  · have hrun : serviceLogstorage d req = (.error, d) := by
      rw [serviceLogstorage, if_pos (by simp [hslots])]
    rw [hrun]
    exact ⟨herror (by simp [hslots]), rfl⟩
  have hcase := hserved.2.2
  simp only [hkind, if_neg hmount] at hcase
  rw [serviceLogstorage_eq hserved hwanted hslots]
  rcases hcase with ⟨hfinds, hfirst, hunique⟩ | ⟨hfinds, hnamed⟩
  · obtain ⟨i, hslot⟩ := Option.ne_none_iff_exists'.mp
      (mt slotOf_eq_none_iff.mp (not_not.mpr hfinds))
    obtain ⟨handle, hfind, hnames⟩ := (Option.any_eq_true _ _).mp hfirst
    rw [decide_eq_true_eq] at hnames
    obtain ⟨hcomparable, k, hlt, rfl, hbefore⟩ := List.find?_eq_some_iff_getElem.mp hfind
    have hdevice : getDevice d.storageHandle req.mountPoint = some k := by
      refine List.findIdx?_eq_some_iff_getElem.mpr ⟨hlt, hcomparable, ?_⟩
      intro j hj
      have := hbefore j hj
      simpa using this
    have hlength : 0 < req.mountPoint.length := List.length_pos_iff.mpr hmount
    simp only [hslot, serveDevice, hkind, logstorageSyncCache, hdevice, if_pos hlength]
    refine ⟨⟨?_, ?_, ?_, ?_, fun _ h => absurd h hmount⟩, trivial⟩
    · rw [turned_self (by decide), turned_self (by decide)]
      omega
    · simp only [deserved, hkind, if_true]
      rw [if_pos ⟨hslots, .inr ⟨_, List.getElem_mem hlt, hnames⟩⟩]
    · rintro - hnot
      exact absurd hnames (hnot _ (List.getElem_mem hlt))
    · intro _ _ j other hj hother
      rw [index_unique hunique (List.getElem?_eq_getElem hlt) (by simpa using hnames) hj
        (by simpa using hother)]
  · rw [slotOf_eq_none_iff.mpr hfinds]
    simp only
    rw [if_neg (by simp [hmount])]
    exact ⟨herror hnamed, rfl⟩

end Steps

section Runs

variable {d : StorageDaemon} {req : LogstorageRequest}

theorem served_step (hcleared : Cleared d) (hserved : ServedAlone d req) :
    ActsOnNamed d req (serviceLogstorage d req).1 (serviceLogstorage d req).2 ∧
      Cleared (serviceLogstorage d req).2 := by
  cases hkind : req.connectionType with
  | deviceConnected => exact connect_acts hkind hcleared hserved
  | deviceDisconnected => exact disconnect_acts hkind hcleared hserved
  | other => exact other_acts hkind hcleared hserved
  | syncCaches =>
      by_cases hmount : req.mountPoint = []
      · obtain ⟨hacts, hsame⟩ := sync_all_acts hkind hmount hserved
        rw [hsame] at hacts ⊢
        exact ⟨hacts, hcleared⟩
      · obtain ⟨hacts, hsame⟩ := sync_one_acts hkind hmount hserved
        rw [hsame] at hacts ⊢
        exact ⟨hacts, hcleared⟩

theorem cleared_start (slots : Nat) : Cleared (.start slots) := by
  intro handle hmem _
  rw [List.eq_of_mem_replicate hmem]
  rfl

/-- In a run whose requests are all served alone, each one acts on the device
it names and on no other. -/
theorem logstorage_requests_act_on_named_device (slots : Nat) (reqs : List LogstorageRequest)
    (hserved : Guarded serviceLogstorage ServedAlone (.start slots) reqs)
    {before after : List LogstorageRequest} {req : LogstorageRequest}
    (hreqs : reqs = before ++ req :: after) :
    let d := (runOps serviceLogstorage (.start slots) before).2
    ActsOnNamed d req (serviceLogstorage d req).1 (serviceLogstorage d req).2 := by
  subst hreqs
  obtain ⟨hbefore, hreq, -⟩ := hserved.of_append
  have hcleared := runOps_keeps
    (fun d req (hcleared : Cleared d) hserved => (served_step hcleared hserved).2)
    (cleared_start slots) before hbefore
  exact (served_step hcleared hreq).1

/-- Two mount points, each of its own device. -/
def twoMountPoints : Stat := fun path =>
  if path = ['/', 'a'] then some (1, 2) else if path = ['/', 'b'] then some (2, 2) else none

def requestOf (connectionType : ConnectionType) (mountPoint : List Char) : LogstorageRequest :=
  ⟨connectionType, mountPoint, twoMountPoints, 0⟩

theorem logstorage_requests_act_on_named_device_sample :
    let d := (runOps serviceLogstorage (.start 3)
      [requestOf .deviceConnected ['/', 'a'], requestOf .deviceConnected ['/', 'b']]).2
    ActsOnNamed d (requestOf .syncCaches ['/', 'b'])
      (serviceLogstorage d (requestOf .syncCaches ['/', 'b'])).1
      (serviceLogstorage d (requestOf .syncCaches ['/', 'b'])).2 ∧
    (serviceLogstorage d (requestOf .syncCaches ['/', 'b'])).1 = ⟨.ok, [1]⟩ :=
  ⟨logstorage_requests_act_on_named_device 3
      [requestOf .deviceConnected ['/', 'a'], requestOf .deviceConnected ['/', 'b'],
        requestOf .syncCaches ['/', 'b']] (by decide +kernel) rfl, by decide +kernel⟩

/-- A mount point that is not connected is disconnected from a free slot, and
the device of a full table cannot be synchronised. -/
theorem disconnect_counts_unknown_mount_point :
    (serviceLogstorage (.start 1) (requestOf .deviceDisconnected ['/', 'b'])).1.response = .ok ∧
    (serviceLogstorage (.start 1) (requestOf .deviceDisconnected ['/', 'b'])).2 =
      ⟨[.free], -1⟩ ∧
    ¬ ActsOnNamed (.start 1) (requestOf .deviceDisconnected ['/', 'b'])
      (serviceLogstorage (.start 1) (requestOf .deviceDisconnected ['/', 'b'])).1
      (serviceLogstorage (.start 1) (requestOf .deviceDisconnected ['/', 'b'])).2 ∧
    (runOps serviceLogstorage (.start 1) [requestOf .deviceConnected ['/', 'a'],
      requestOf .syncCaches ['/', 'a']]).1 = [⟨.ok, []⟩, .error] := by
  refine ⟨by decide +kernel, by decide +kernel, ?_, by decide +kernel⟩
  intro h
  exact absurd h.counts (by decide +kernel)

end Runs

end MctDaemon.Daemon
