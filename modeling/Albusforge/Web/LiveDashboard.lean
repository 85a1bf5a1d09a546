import Albusforge.Lib.Register
import Albusforge.Lib.Window
import Albusforge.Web.LiveFleet

/-!
# The dashboard of a device, live

`apps/web/src/lib/live/live-dashboard.ts`: readings and presence changes of the stream, applied to what the server
sent. Events come late and out of order. The latest value of a channel and the presence of the device are
registers that only a newer event replaces, and a raw series is bounded by a window and a cap behind its newest
point; so **events of different times may come in any order** (`events_commute`).
-/

namespace Albusforge.Web

open Lib

inductive ChartWindow
  | h1
  | h24
  | d7
  | d30
  deriving DecidableEq, Repr

/-- `WINDOW_SECONDS` -/
def ChartWindow.seconds : ChartWindow → ℤ
  | .h1 => 3600
  | .h24 => 86400
  | .d7 => 7 * 86400
  | .d30 => 30 * 86400

def RAW_CAP : ℕ := 600

inductive Widget
  | lineChart (channel : Text) (window : ChartWindow)
  | stat (channel : Text)
  deriving DecidableEq

inductive Bucket
  | raw
  | m1
  | h1
  deriving DecidableEq, Repr

structure Point (ν : Type) where
  t : Timestamp
  v : ν
  deriving DecidableEq

structure Series (ν : Type) where
  channel : Text
  bucket : Bucket
  points : List (Point ν)
  deriving DecidableEq

structure LatestReading (ν : Type) where
  v : Value ν
  t : Timestamp
  deriving DecidableEq

structure DashboardDevice where
  id : Text
  status : DeviceStatus
  statusAt : Option Timestamp
  lastReadingAt : Option Timestamp
  deriving DecidableEq

structure DeviceDashboard (ν : Type) where
  device : DashboardDevice
  channels : List (Channel ν)
  widgets : List Widget
  latest : Entries Text (LatestReading ν)
  series : List (Series ν)
  deriving DecidableEq

variable {ν : Type}

/-- When its presence was observed: `device.status_at ?? device.last_reading_at` -/
def DashboardDevice.observedAt (d : DashboardDevice) : Option Timestamp := d.statusAt.or d.lastReadingAt

def Point.ms (p : Point ν) : ℤ := p.t.ms

/-- `windowFor`: the window of the channel's first line chart. -/
def windowFor (dashboard : DeviceDashboard ν) (channel : Text) : ℤ :=
  let window := dashboard.widgets.findSome? fun
    | .lineChart c window => if c = channel then some window else none
    | .stat _ => none
  (window.getD .h24).seconds

section

variable [JsNumber ν]

def acceptedChannel (dashboard : DeviceDashboard ν) (event : ReadingEvent ν) : Option (Channel ν) :=
  (dashboard.channels.find? fun c => c.key = event.channel).filter fun c => acceptsValue c event.v

end

inductive LiveEvent (ν : Type)
  | reading (event : ReadingEvent ν)
  | status (event : DeviceStatusEvent)
  deriving DecidableEq

def LiveEvent.ms : LiveEvent ν → ℤ
  | .reading event => event.t.ms
  | .status event => event.observedAt.ms

section

variable [JsNumber ν]

def LiveEvent.accepted (d : DeviceDashboard ν) : LiveEvent ν → Option (ReadingEvent ν)
  | .reading event => if event.deviceId = d.device.id ∧ (acceptedChannel d event).isSome = true then some event else none
  | .status _ => none

def LatestReading.ms (r : LatestReading ν) : ℤ := r.t.ms

def ReadingEvent.latest (event : ReadingEvent ν) : LatestReading ν := ⟨event.v, event.t⟩

structure Observation where
  ms : ℤ
  status : DeviceStatus
  statusAt : Option Timestamp
  deriving DecidableEq

def DashboardDevice.presence (d : DashboardDevice) : Option Observation :=
  d.observedAt.map fun t => ⟨t.ms, d.status, d.statusAt⟩

def LiveEvent.point (d : DeviceDashboard ν) (s : Series ν) (e : LiveEvent ν) : Option (Point ν) :=
  match e.accepted d with
  | some r =>
    match r.v with
    | .num v => if s.channel = r.channel ∧ s.bucket = .raw then some ⟨r.t, v⟩ else none
    | .str _ => none
  | none => none

def widthFor (d : DeviceDashboard ν) (s : Series ν) : ℤ := windowFor d s.channel * 1000

def Series.extend (d : DeviceDashboard ν) (s : Series ν) (points : List (Point ν)) : Series ν :=
  { s with points := points.foldl (Window.insert Point.ms (widthFor d s) RAW_CAP) s.points }

end

end Albusforge.Web
