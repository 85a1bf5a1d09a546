import Albusforge.Lib.Decimal
import Albusforge.Cloudlink.Envelope

/-!
# Wire v1, as the numeric firmware writes it

`src/firmware/esp32s3/main/hsx_wire.c`, and the part of `hsx_sensors.c` that decides
which readings a sample has. The encoder writes into a buffer of a given capacity and
fails when the text and its terminator do not fit; it never writes a part of a packet.

A `float` is any `JsNumber`: the encoder compares floats, asks whether they are finite,
and prints them with `%.6g`, which is a parameter.
-/

namespace Albusforge.Firmware

open Lib Lib.Json

/-- `HSX_MAX_READINGS` -/
def maxReadings : ℕ := 8

def maxSequence : ℕ := 9007199254740991

def maxTimestamp : ℤ := 253402300799

/-- `INT_MAX` -/
def maxCapacity : ℕ := 2147483647

/-- `hsx_reading_t` -/
structure Reading (ν : Type) where
  channel : Text
  value : ν
  min : ν
  max : ν
  synthetic : Bool

def validChannel (channel : Text) : Bool :=
  match channel with
  | [] => false
  | c :: rest => decide (channel.length ≤ 64) && isLower c &&
      rest.all fun c => isLower c || isDigit c || c = 95

def isXDigit (c : ℕ) : Bool := isDigit c || (97 ≤ c && c ≤ 102) || (65 ≤ c && c ≤ 70)

def validDevice (device : Text) : Bool :=
  decide (device.length = 36) && device.zipIdx.all fun (c, i) =>
    if i = 8 || i = 13 || i = 18 || i = 23 then c = hyphen else isXDigit c

section

variable {ν : Type} [JsNumber ν]

def Reading.valid (r : Reading ν) : Bool :=
  validChannel r.channel && JsNumber.isFinite r.value && JsNumber.isFinite r.min &&
    JsNumber.isFinite r.max && !JsNumber.gt r.min r.max && !JsNumber.lt r.value r.min &&
    !JsNumber.gt r.value r.max

def distinctChannels : List (Reading ν) → Bool
  | [] => true
  | r :: rest => !(rest.any fun q => q.channel == r.channel) && distinctChannels rest

variable (print : ν → Numeral)

/-- One item of `r`. -/
def emitReading (timestamp : ℤ) (r : Reading ν) : Text :=
  js "\x7b\"c\":\"" ++ r.channel ++ js "\",\"t\":" ++ (Numeral.ofInt timestamp).text ++ js ",\"v\":" ++
    (print r.value).text ++ js "\x7d"

/-- `"synthetic:..."` -/
def emitFlag (r : Reading ν) : Text := js "\"synthetic:" ++ r.channel ++ js "\""

def emitPacket (device : Text) (sequence : ℕ) (timestamp : ℤ) (readings : List (Reading ν))
    (uptime : ℕ) : Text :=
  js "\x7b\"v\":1,\"dev\":\"" ++ device ++ js "\",\"seq\":" ++ decimal sequence ++ js ",\"ts\":" ++
    (Numeral.ofInt timestamp).text ++ js ",\"r\":[" ++
    join comma (readings.map (emitReading print timestamp)) ++
    js "],\"st\":\x7b\"up_s\":" ++ decimal uptime ++ js ",\"health\":[" ++
    join comma ((readings.filter Reading.synthetic).map emitFlag) ++ js "]\x7d\x7d"

/-- `hsx_encode_readings` -/
def encodeReadings (capacity : ℕ) (device : Text) (sequence : ℕ) (timestamp : ℤ)
    (readings : List (Reading ν)) (uptime : ℕ) : Option Text :=
  if maxCapacity < capacity || !validDevice device || maxSequence < sequence || timestamp ≤ 0 || maxTimestamp < timestamp ||
      maxSequence < uptime || readings.isEmpty || maxReadings < readings.length ||
      !readings.all Reading.valid || !distinctChannels readings then none
  else
    let output := emitPacket print device sequence timestamp readings uptime
    if output.length < capacity then some output else none

end

/-! ## What is on the wire -/

section

variable {ν : Type} [JsNumber ν] {print : ν → Numeral} {device : Text}

omit [JsNumber ν] in
end

structure Packet {ν : Type} [JsNumber ν] (print : ν → Numeral) (device : Text) where
  sequence : ℕ
  timestamp : ℤ
  readings : List (Reading ν)
  uptime : ℕ
  text : Text
  encoded : encodeReadings print 1024 device sequence timestamp readings uptime = some text

section

variable {ν : Type} [JsNumber ν] {print : ν → Numeral} {device : Text}

structure Encodable (device : Text) (sequence : ℕ) (timestamp : ℤ) (readings : List (Reading ν))
    (uptime : ℕ) : Prop where
  device : validDevice device = true
  sequence : sequence ≤ maxSequence
  timestamp : 0 < timestamp ∧ timestamp ≤ maxTimestamp
  uptime : uptime ≤ maxSequence
  nonempty : readings ≠ []
  count : readings.length ≤ maxReadings
  readings : ∀ r ∈ readings, r.valid = true

/-- **What the encoder wrote**, and that it was given something to write. -/
theorem encodeReadings_eq_some {capacity sequence : ℕ} {timestamp : ℤ}
    {readings : List (Reading ν)} {uptime : ℕ} {text : Text}
    (h : encodeReadings print capacity device sequence timestamp readings uptime = some text) :
    text = emitPacket print device sequence timestamp readings uptime ∧
      Encodable device sequence timestamp readings uptime := by
  unfold encodeReadings at h
  split at h
  · simp at h
  · rename_i hcheck
    dsimp only at h
    split at h
    · simp only [Bool.or_eq_true, Bool.not_eq_true', decide_eq_true_eq, not_or, not_lt, not_le,
        Bool.not_eq_false, List.isEmpty_iff, List.all_eq_true] at hcheck
      obtain ⟨⟨⟨⟨⟨⟨⟨⟨⟨-, hdevice⟩, hseq⟩, hpos⟩, hts⟩, hup⟩, hne⟩, hlen⟩, hall⟩, -⟩ := hcheck
      exact ⟨(Option.some.inj h).symm, hdevice, hseq, ⟨hpos, hts⟩, hup, hne, hlen, hall⟩
    · simp at h

end

namespace Bench

/-- `%.6g` of a whole number of at most six digits. -/
def printWhole (x : ℚ) : Numeral := .ofInt x.floor

def device : Text := js "0f8fad5b-d9cb-469f-a165-70867728950e"

end Bench

end Albusforge.Firmware
