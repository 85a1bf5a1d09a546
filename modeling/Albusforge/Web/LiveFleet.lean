import Mathlib.Data.Rat.Defs
import Albusforge.Lib.JsText
import Albusforge.Lib.Entries

/-!
# The fleet, live

`apps/web/src/lib/live/live-fleet.ts`, with what of `packages/schema` it goes by: a fleet as the server sends it, and
the readings and presence changes of the stream that are applied to it. A tile has three times of its own, of its
last reading, of its presence and of the value it shows, and each only moves forward.

A timestamp goes with the milliseconds that `Date.parse` makes of it. The text a value is shown as is a parameter;
names, accents and the like are handed on as they are and left out.
-/

namespace Albusforge.Web

open Lib

/-- A timestamp, and what `Date.parse` makes of it. -/
structure Timestamp where
  text : Text
  ms : ℤ
  deriving DecidableEq

inductive DeviceStatus
  | online
  | offline
  | neverSeen
  deriving DecidableEq, Repr

inductive ChannelKind
  | number
  | duration
  | status
  deriving DecidableEq, Repr

structure Channel (ν : Type) where
  key : Text
  label : Text
  unit : Text
  kind : ChannelKind
  precision : ℕ
  validRange : Option (ν × ν)
  deriving DecidableEq

/-- `number | string` -/
inductive Value (ν : Type)
  | num (n : ν)
  | str (t : Text)
  deriving DecidableEq

structure ReadingEvent (ν : Type) where
  deviceId : Text
  channel : Text
  v : Value ν
  t : Timestamp
  deriving DecidableEq

structure DeviceStatusEvent where
  deviceId : Text
  status : DeviceStatus
  observedAt : Timestamp
  lastReadingAt : Option Timestamp
  deriving DecidableEq

/-- `DeviceTile`. The time of the value may be missing, which is not the same as null. -/
structure DeviceTile (ν : Type) where
  id : Text
  status : DeviceStatus
  statusAt : Option Timestamp
  value : Option Text
  unit : Option Text
  lastReadingAt : Option Timestamp
  channel : Option (Channel ν)
  valueAt : Option (Option Timestamp)
  deriving DecidableEq

structure System (ν : Type) where
  buildId : Text
  devices : List (DeviceTile ν)
  deriving DecidableEq

structure Fleet (ν : Type) where
  onlineRatio : ℚ
  systems : List (System ν)
  deriving DecidableEq

variable {ν : Type}

def laterTime (a b : Option Timestamp) : Option Timestamp :=
  match a, b with
  | none, b => b
  | some a, none => some a
  | some a, some b => if b.ms ≤ a.ms then some a else some b

/-- `!a || Date.parse(t) > Date.parse(a)` -/
def isNewer (t : Timestamp) (a : Option Timestamp) : Bool := a.all fun a => a.ms < t.ms

def acceptsValue [JsNumber ν] (channel : Channel ν) : Value ν → Bool
  | .num n => channel.kind ≠ .status && JsNumber.isFinite n
  | .str _ => channel.kind = .status

namespace DeviceTile

/-- The time of the value that is shown: `tile.value_at === undefined ? tile.last_reading_at : tile.value_at` -/
def shownAt (tile : DeviceTile ν) : Option Timestamp := tile.valueAt.getD tile.lastReadingAt

/-- When its presence was observed: `tile.status_at ?? tile.last_reading_at` -/
def observedAt (tile : DeviceTile ν) : Option Timestamp := tile.statusAt.or tile.lastReadingAt

end DeviceTile

namespace Fleet

def tiles (fleet : Fleet ν) : List (DeviceTile ν) := fleet.systems.flatMap System.devices

end Fleet

def onlineRatio (systems : List (System ν)) : ℚ :=
  let tiles := (systems.flatMap System.devices).filter fun d => d.status ≠ .neverSeen
  if tiles.length = 0 then 0 else (tiles.filter fun d => d.status = .online).length / tiles.length

/-- `mapTile`. The update gives nothing where it would give back the tile it got. -/
def mapTile (fleet : Fleet ν) (deviceId : Text) (update : DeviceTile ν → Option (DeviceTile ν)) : Fleet ν :=
  let apply := fun tile => if tile.id = deviceId then update tile else none
  let changed := fleet.tiles.any fun tile => (apply tile).isSome
  let systems := fleet.systems.map fun system =>
    { system with devices := system.devices.map fun tile => (apply tile).getD tile }
  if changed then { onlineRatio := onlineRatio systems, systems := systems } else fleet

section

variable [JsNumber ν] (formatChannelValue : Channel ν → Value ν → Text × Text)

/-- What `applyReadingToFleet` does with a tile of the device. -/
def readTile (tile : DeviceTile ν) (event : ReadingEvent ν) : Option (DeviceTile ν) :=
  let channel := tile.channel.filter fun c => c.key = event.channel
  if channel.any fun c => !acceptsValue c event.v then none
  else
    let valueAt := tile.shownAt
    let newerDevice := isNewer event.t tile.lastReadingAt
    let newerValue := channel.filter fun _ => isNewer event.t valueAt
    if !newerDevice && newerValue.isNone then none
    else
      let next := { tile with valueAt := some valueAt }
      let next :=
        if newerDevice then
          let next :=
            if isNewer event.t tile.statusAt then { next with status := .online, statusAt := some event.t } else next
          { next with lastReadingAt := some event.t }
        else next
      match newerValue with
      | none => some next
      | some channel =>
        let (value, unit) := formatChannelValue channel event.v
        some { next with value := some value, unit := if unit = [] then none else some unit,
                         valueAt := some (some event.t) }

def applyReadingToFleet (fleet : Fleet ν) (event : ReadingEvent ν) : Fleet ν :=
  mapTile fleet event.deviceId fun tile => readTile formatChannelValue tile event

end

/-- What `applyStatusToFleet` does with a tile of the device. -/
def statusTile (tile : DeviceTile ν) (event : DeviceStatusEvent) : Option (DeviceTile ν) :=
  if isNewer event.observedAt tile.observedAt then
    some { tile with valueAt := some tile.shownAt, status := event.status, statusAt := some event.observedAt,
                     lastReadingAt := laterTime tile.lastReadingAt event.lastReadingAt }
  else none

def applyStatusToFleet (fleet : Fleet ν) (event : DeviceStatusEvent) : Fleet ν :=
  mapTile fleet event.deviceId fun tile => statusTile tile event

section

variable [DecidableEq ν]

end

end Albusforge.Web
