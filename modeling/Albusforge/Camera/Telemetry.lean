import Albusforge.Lib.Printf
import Albusforge.Firmware.WireSchema

/-!
# The camera's telemetry packet

`telemetry_packet_encode` writes one JSON document into a buffer of a given capacity, in pieces: what has been
used of the buffer says where the next piece goes, and the number of readings whether a comma goes before it.
A piece that does not fit ends the packet.

**What has been written is the pieces one after the other**, with a NUL behind them (`Wrote`).
-/

namespace Albusforge.Camera.Telemetry

open Lib Lib.Json

/-! ## What is sent -/

/-- A `float`, as what it is exactly. Nothing here depends on which numbers have one. -/
inductive CFloat
  | finite (negative : Bool) (magnitude : { q : ℚ // 0 ≤ q })
  | infinite (negative : Bool)
  | nan

/-- `%.6g` -/
def CFloat.text : CFloat → Text
  | finite negative magnitude => (printG negative magnitude).text
  | infinite negative => if negative then js "-inf" else js "inf"
  | nan => js "nan"

/-- `isfinite(value) && value >= low && value <= high` -/
def CFloat.within (low high : ℚ) : CFloat → Bool
  | finite negative magnitude =>
    let value : ℚ := (if negative then -1 else 1) * magnitude
    low ≤ value && value ≤ high
  | _ => false

structure PlantSensorReading where
  lightOk : Bool
  climateOk : Bool
  lightLux : CFloat
  temperatureC : CFloat
  pressureHpa : CFloat
  humidityPct : CFloat

/-! ## The buffer -/

/-- `snprintf` at a place of a buffer, which has so many bytes from there on. -/
def snprintf (buffer : Text) (p size : ℕ) (text : Text) : Text :=
  if size = 0 then buffer
  else buffer.take p ++ (text.take (size - 1) ++ 0 :: buffer.drop (p + (text.take (size - 1)).length + 1))

structure Out where
  buffer : Text
  used : ℕ
  count : ℕ

/-- A piece and the check of what `snprintf` returns. -/
def Out.print (out : Out) (cap : ℕ) (text : Text) : Option Out :=
  let buffer := snprintf out.buffer out.used (cap - out.used) text
  if text.length ≥ cap - out.used then none
  else some { out with buffer := buffer, used := out.used + text.length }

def readingText (channel : Text) (value : CFloat) (timestamp : ℤ) : Text :=
  js "\x7b\"c\":\"" ++ channel ++ js "\",\"t\":" ++ (Numeral.ofInt timestamp).text ++ js ",\"v\":" ++ value.text ++
    js "\x7d"

def append (out : Out) (cap : ℕ) (channel : Text) (value : CFloat) (timestamp : ℤ) : Option Out := do
  let out ← out.print cap ((if out.count ≠ 0 then js "," else []) ++ readingText channel value timestamp)
  pure { out with count := out.count + 1 }

/-! ## The packet -/

def uuidValid (value : Text) : Bool := Firmware.validDevice value

def maxSequence : ℕ := 9007199254740991

def headText (device : Text) (sequence : ℕ) (timestamp : ℤ) : Text :=
  js "\x7b\"v\":1,\"dev\":\"" ++ device ++ js "\",\"seq\":" ++ decimal sequence ++ js ",\"ts\":" ++
    (Numeral.ofInt timestamp).text ++ js ",\"r\":["

def signalText (rssi : ℤ) : Text :=
  if rssi ≠ -151 then js "\"rssi\":" ++ (Numeral.ofInt rssi).text ++ js "," else []

def tailText (uptimeS : ℕ) (rssi : ℤ) (lightOk climateOk : Bool) : Text :=
  js "],\"st\":\x7b" ++ signalText rssi ++ js "\"up_s\":" ++ decimal uptimeS ++ js ",\"health\":[" ++
    (if lightOk then [] else js "\"light_unavailable\"") ++
    (if climateOk then [] else if lightOk then js "\"climate_unavailable\"" else js ",\"climate_unavailable\"") ++
    js "]\x7d\x7d"

/-- The buffer, the length that is returned, and `*reading_count`. -/
structure Encoded where
  buffer : Text
  length : ℕ
  count : ℕ

def appendLight (out : Out) (cap : ℕ) (timestamp : ℤ) (reading : PlantSensorReading) : Option Out :=
  if reading.lightOk then
    if !reading.lightLux.within 0 65535 then none
    else append out cap (js "ambient_light_lux") reading.lightLux timestamp
  else some out

def appendClimate (out : Out) (cap : ℕ) (timestamp : ℤ) (reading : PlantSensorReading) : Option Out :=
  if reading.climateOk then
    if !reading.temperatureC.within (-40) 85 || !reading.pressureHpa.within 300 1100 ||
        !reading.humidityPct.within 0 100 then none
    else do
      let out ← append out cap (js "air_temperature_c") reading.temperatureC timestamp
      let out ← append out cap (js "air_pressure_hpa") reading.pressureHpa timestamp
      append out cap (js "air_humidity_pct") reading.humidityPct timestamp
  else some out

def telemetryPacketEncode (buffer : Text) (cap : ℕ) (device : Text) (sequence : ℕ) (timestamp : ℤ) (uptimeS : ℕ)
    (rssi : ℤ) (reading : PlantSensorReading) : Option Encoded :=
  if cap = 0 || !uuidValid device || sequence > maxSequence || timestamp < 1700000000 || timestamp > 253402300799 ||
      uptimeS > maxSequence || (rssi ≠ -151 && (rssi < -150 || rssi > 0)) then none
  else do
    let out ← Out.print ⟨buffer, 0, 0⟩ cap (headText device sequence timestamp)
    let out ← appendLight out cap timestamp reading
    let out ← appendClimate out cap timestamp reading
    if out.count = 0 then none
    else do
      let out ← out.print cap (tailText uptimeS rssi reading.lightOk reading.climateOk)
      pure ⟨out.buffer, out.used, out.count⟩

def lightReadings (reading : PlantSensorReading) : List (Text × CFloat) :=
  if reading.lightOk then [(js "ambient_light_lux", reading.lightLux)] else []

def climateReadings (reading : PlantSensorReading) : List (Text × CFloat) :=
  if reading.climateOk then
    [(js "air_temperature_c", reading.temperatureC), (js "air_pressure_hpa", reading.pressureHpa),
      (js "air_humidity_pct", reading.humidityPct)]
  else []

def available (reading : PlantSensorReading) : List (Text × CFloat) := lightReadings reading ++ climateReadings reading

/-! ## What has been written -/

structure Wrote (cap : ℕ) (text : Text) (out : Out) : Prop where
  size : out.buffer.length = cap
  used : out.used = text.length
  text : out.buffer.take text.length = text

section Writing

variable {cap : ℕ} {out out' : Out} {text piece : Text}

theorem print_eq_some (h : Wrote cap text out) (hprint : out.print cap piece = some out') :
    Wrote cap (text ++ piece) out' ∧ out'.count = out.count ∧ ∃ rest, out'.buffer = text ++ piece ++ 0 :: rest := by
  unfold Out.print at hprint
  dsimp only at hprint
  split at hprint
  · cases hprint
  · rename_i hfits
    obtain rfl := Option.some.inj hprint
    have hused := h.used
    have hwhole : piece.take (cap - out.used - 1) = piece := List.take_of_length_le (by omega)
    have hsplit : snprintf out.buffer out.used (cap - out.used) piece =
        text ++ piece ++ 0 :: out.buffer.drop (out.used + piece.length + 1) := by
      rw [snprintf, if_neg (by omega), hwhole, hused, h.text, List.append_assoc]
    have hsize : (snprintf out.buffer out.used (cap - out.used) piece).length = cap := by
      rw [hsplit, List.length_append, List.length_append, List.length_cons, List.length_drop, h.size]
      omega
    refine ⟨⟨hsize, ?_, ?_⟩, rfl, _, hsplit⟩
    · dsimp only
      rw [hused, List.length_append]
    · dsimp only
      rw [hsplit, List.take_left]

def readingTexts (timestamp : ℤ) (readings : List (Text × CFloat)) : Text :=
  join comma (readings.map fun r => readingText r.1 r.2 timestamp)

theorem join_snoc (sep : ℕ) (t : Text) : ∀ {l : List Text}, l ≠ [] → join sep (l ++ [t]) = join sep l ++ sep :: t
  | [], h => absurd rfl h
  | [u], _ => rfl
  | u :: v :: rest, _ => by
      have hrest := join_snoc sep t (List.cons_ne_nil v rest)
      rw [List.cons_append, List.cons_append, join, join, ← List.cons_append, hrest, List.append_assoc, List.cons_append]

theorem readingTexts_snoc (timestamp : ℤ) (readings : List (Text × CFloat)) (r : Text × CFloat) :
    readingTexts timestamp (readings ++ [r]) =
      readingTexts timestamp readings ++ ((if readings.length ≠ 0 then js "," else []) ++ readingText r.1 r.2 timestamp) := by
  unfold readingTexts
  cases readings with
  | nil => rfl
  | cons first rest =>
    rw [List.map_append, List.map_singleton, join_snoc comma _ (by simp), if_pos (by simp)]
    rfl

structure WroteReadings (cap : ℕ) (head : Text) (timestamp : ℤ) (readings : List (Text × CFloat)) (out : Out) : Prop where
  wrote : Wrote cap (head ++ readingTexts timestamp readings) out
  count : out.count = readings.length

theorem append_eq_some {head : Text} {timestamp : ℤ} {readings : List (Text × CFloat)}
    (h : WroteReadings cap head timestamp readings out) {channel : Text} {value : CFloat}
    (happend : append out cap channel value timestamp = some out') :
    WroteReadings cap head timestamp (readings ++ [(channel, value)]) out' := by
  unfold append at happend
  obtain ⟨next, hprint, hnext⟩ := Option.bind_eq_some_iff.mp happend
  obtain rfl := Option.some.inj hnext
  obtain ⟨hwrote, hcount, _⟩ := print_eq_some h.wrote hprint
  rw [h.count] at hwrote
  refine ⟨?_, ?_⟩
  · rw [readingTexts_snoc, ← List.append_assoc]
    exact ⟨hwrote.size, hwrote.used, hwrote.text⟩
  · dsimp only
    rw [hcount, h.count, List.length_append, List.length_singleton]

theorem appendLight_eq_some {head : Text} {timestamp : ℤ} {readings : List (Text × CFloat)}
    (h : WroteReadings cap head timestamp readings out) {reading : PlantSensorReading}
    (happend : appendLight out cap timestamp reading = some out') :
    WroteReadings cap head timestamp (readings ++ lightReadings reading) out' ∧
      (reading.lightOk = true → reading.lightLux.within 0 65535 = true) := by
  unfold appendLight at happend
  unfold lightReadings
  cases hok : reading.lightOk with
  | false =>
    rw [hok, if_neg Bool.false_ne_true] at happend
    obtain rfl := Option.some.inj happend
    rw [if_neg Bool.false_ne_true, List.append_nil]
    exact ⟨h, fun hfalse => absurd hfalse Bool.false_ne_true⟩
  | true =>
    rw [hok, if_pos rfl] at happend
    split at happend
    · cases happend
    · rename_i hrange
      exact ⟨append_eq_some h happend, fun _ => by simpa using hrange⟩

theorem appendClimate_eq_some {head : Text} {timestamp : ℤ} {readings : List (Text × CFloat)}
    (h : WroteReadings cap head timestamp readings out) {reading : PlantSensorReading}
    (happend : appendClimate out cap timestamp reading = some out') :
    WroteReadings cap head timestamp (readings ++ climateReadings reading) out' ∧
      (reading.climateOk = true → reading.temperatureC.within (-40) 85 = true ∧
        reading.pressureHpa.within 300 1100 = true ∧ reading.humidityPct.within 0 100 = true) := by
  unfold appendClimate at happend
  unfold climateReadings
  cases hok : reading.climateOk with
  | false =>
    rw [hok, if_neg Bool.false_ne_true] at happend
    obtain rfl := Option.some.inj happend
    rw [if_neg Bool.false_ne_true, List.append_nil]
    exact ⟨h, fun hfalse => absurd hfalse Bool.false_ne_true⟩
  | true =>
    rw [hok, if_pos rfl] at happend
    split at happend
    · cases happend
    · rename_i hranges
      obtain ⟨first, hfirst, hrest⟩ := Option.bind_eq_some_iff.mp happend
      obtain ⟨second, hsecond, hthird⟩ := Option.bind_eq_some_iff.mp hrest
      have hwrote := append_eq_some (append_eq_some (append_eq_some h hfirst) hsecond) hthird
      rw [List.append_assoc, List.append_assoc] at hwrote
      simp only [Bool.or_eq_true, Bool.not_eq_true', not_or, Bool.not_eq_false] at hranges
      exact ⟨hwrote, fun _ => ⟨hranges.1.1, hranges.1.2, hranges.2⟩⟩

end Writing

/-! ## A whole packet -/

def packetText (device : Text) (sequence : ℕ) (timestamp : ℤ) (uptimeS : ℕ) (rssi : ℤ) (reading : PlantSensorReading) :
    Text :=
  headText device sequence timestamp ++ readingTexts timestamp (available reading) ++
    tailText uptimeS rssi reading.lightOk reading.climateOk

structure Encodable (device : Text) (sequence : ℕ) (timestamp : ℤ) (uptimeS : ℕ) (rssi : ℤ)
    (reading : PlantSensorReading) : Prop where
  device : uuidValid device = true
  sequence : sequence ≤ maxSequence
  timestamp : 1700000000 ≤ timestamp ∧ timestamp ≤ 253402300799
  uptimeS : uptimeS ≤ maxSequence
  rssi : rssi = -151 ∨ -150 ≤ rssi ∧ rssi ≤ 0
  nonempty : available reading ≠ []
  light : reading.lightOk = true → reading.lightLux.within 0 65535 = true
  climate : reading.climateOk = true → reading.temperatureC.within (-40) 85 = true ∧
    reading.pressureHpa.within 300 1100 = true ∧ reading.humidityPct.within 0 100 = true

/-- **What the encoder wrote**, and that it was given something to write. -/
theorem encode_eq_some {buffer : Text} {cap : ℕ} {device : Text} {sequence : ℕ} {timestamp : ℤ} {uptimeS : ℕ} {rssi : ℤ}
    {reading : PlantSensorReading} {encoded : Encoded} (hsize : buffer.length = cap)
    (h : telemetryPacketEncode buffer cap device sequence timestamp uptimeS rssi reading = some encoded) :
    Encodable device sequence timestamp uptimeS rssi reading ∧ encoded.count = (available reading).length ∧
      encoded.length = (packetText device sequence timestamp uptimeS rssi reading).length ∧
      encoded.buffer.length = cap ∧
      ∃ rest, encoded.buffer = packetText device sequence timestamp uptimeS rssi reading ++ 0 :: rest := by
  unfold telemetryPacketEncode at h
  split at h
  · cases h
  · rename_i hcheck
    obtain ⟨headed, hhead, h⟩ := Option.bind_eq_some_iff.mp h
    obtain ⟨lit, hlight, h⟩ := Option.bind_eq_some_iff.mp h
    obtain ⟨done, hclimate, h⟩ := Option.bind_eq_some_iff.mp h
    split at h
    · cases h
    · rename_i hcount
      obtain ⟨last, htail, h⟩ := Option.bind_eq_some_iff.mp h
      obtain rfl := Option.some.inj h
      have hempty : Wrote cap [] ⟨buffer, 0, 0⟩ := ⟨hsize, rfl, rfl⟩
      obtain ⟨hwrote, hzero, _⟩ := print_eq_some hempty hhead
      have hstart : WroteReadings cap (headText device sequence timestamp) timestamp [] headed := by
        refine ⟨?_, hzero⟩
        rw [show readingTexts timestamp [] = [] from rfl, List.append_nil]
        exact hwrote
      obtain ⟨hlit, hlightRange⟩ := appendLight_eq_some hstart hlight
      obtain ⟨hdone, hclimateRange⟩ := appendClimate_eq_some hlit hclimate
      obtain ⟨hall, hkept, hterminated⟩ := print_eq_some hdone.wrote htail
      simp only [Bool.or_eq_true, Bool.and_eq_true, Bool.not_eq_true', decide_eq_true_eq, not_or, not_and, not_lt,
        gt_iff_lt, Bool.not_eq_false] at hcheck
      obtain ⟨⟨⟨⟨⟨⟨_, hdevice⟩, hsequence⟩, hearly⟩, hlate⟩, huptime⟩, hrssi⟩ := hcheck
      refine ⟨⟨hdevice, hsequence, ⟨hearly, hlate⟩, huptime, ?_, ?_, hlightRange, hclimateRange⟩, ?_, hall.used, hall.size,
        hterminated⟩
      · by_cases hnone : rssi = -151
        · exact .inl hnone
        · have hin := hrssi hnone
          exact .inr ⟨hin.1, hin.2⟩
      · intro hnil
        rw [hdone.count] at hcount
        exact hcount (congrArg List.length hnil)
      · exact hkept.trans hdone.count

end Albusforge.Camera.Telemetry
