import Mathlib.Data.Nat.Digits.Defs
import Albusforge.Cloudlink.ExactlyOnce
import Albusforge.Camera.Telemetry

/-!
# What ingest makes of a camera's packet

The text in the buffer is that of a JSON value, member for member the envelope of what was read
(`parse_encoded`). Its channels have the ranges that were declared for them, and rounding to six digits leaves
no value out of its range (`rounded_within`), because the bounds have fewer digits than that. So `TelemetryEnvelope`
accepts every packet, and **ingest acknowledges as many readings as the camera has counted**.
-/

namespace Albusforge.Camera.Telemetry

open Lib Lib.Json Cloudlink

/-! ## The channels -/

structure Channel where
  name : Text
  unit : Text
  min : ℤ
  max : ℤ

def cameraChannels : List Channel :=
  [⟨js "ambient_light_lux", js "lux", 0, 65535⟩, ⟨js "air_temperature_c", js "C", -40, 85⟩,
    ⟨js "air_pressure_hpa", js "hPa", 300, 1100⟩, ⟨js "air_humidity_pct", js "%", 0, 100⟩]

/-! ## The packet as a JSON value -/

def CFloat.numeral : CFloat → Numeral
  | finite negative magnitude => printG negative magnitude
  | value => ⟨value.text, 0⟩

def healthCodes (reading : PlantSensorReading) : List Text :=
  (if reading.lightOk then [] else [js "light_unavailable"]) ++
    if reading.climateOk then [] else [js "climate_unavailable"]

def CFloat.rounded : CFloat → ℚ
  | finite negative magnitude => (if negative then -1 else 1) * roundSix magnitude
  | _ => 0

def integerJson (z : ℤ) : Json Numeral := .num (Numeral.ofInt z)

def readingJson (timestamp : ℤ) (r : Text × CFloat) : Json Numeral :=
  .obj [(js "c", .str r.1), (js "t", integerJson timestamp), (js "v", .num r.2.numeral)]

def signalJson (rssi : ℤ) : List (Text × Json Numeral) :=
  if rssi ≠ -151 then [(js "rssi", integerJson rssi)] else []

def packetJson (device : Text) (sequence : ℕ) (timestamp : ℤ) (uptimeS : ℕ) (rssi : ℤ) (reading : PlantSensorReading) :
    Json Numeral :=
  .obj [(js "v", integerJson 1), (js "dev", .str device), (js "seq", integerJson sequence),
    (js "ts", integerJson timestamp), (js "r", .arr ((available reading).map (readingJson timestamp))),
    (js "st", .obj (signalJson rssi ++ [(js "up_s", integerJson uptimeS),
      (js "health", .arr ((healthCodes reading).map .str))]))]

def packetEnvelope (device : Text) (sequence : ℕ) (timestamp : ℤ) (uptimeS : ℕ) (rssi : ℤ)
    (reading : PlantSensorReading) : Envelope ℚ where
  dev := device
  seq := sequence
  ts := timestamp
  r := (available reading).map fun r => ⟨r.1, timestamp, r.2.rounded⟩
  st := ⟨none, if rssi ≠ -151 then some rssi else none, uptimeS, healthCodes reading⟩

/-! ## The packet's text is the value's -/

theorem channels_named : cameraChannels.all (fun c => isChannelName c.name && c.name.all Firmware.isPlain) = true := by
  decide

theorem available_channel {device : Text} {sequence : ℕ} {timestamp : ℤ} {uptimeS : ℕ} {rssi : ℤ}
    {reading : PlantSensorReading} (h : Encodable device sequence timestamp uptimeS rssi reading) {r : Text × CFloat}
    (hr : r ∈ available reading) : ∃ c ∈ cameraChannels, c.name = r.1 ∧ r.2.within c.min c.max = true := by
  unfold available lightReadings climateReadings at hr
  rcases List.mem_append.mp hr with hr | hr
  · split at hr
    · rename_i hok
      obtain rfl := List.mem_singleton.mp hr
      exact ⟨_, .head _, rfl, by simpa using h.light hok⟩
    · cases hr
  · split at hr
    · rename_i hok
      obtain ⟨htemperature, hpressure, hhumidity⟩ := h.climate hok
      rcases List.mem_cons.mp hr with rfl | hr
      · exact ⟨_, .tail _ (.head _), rfl, by simpa using htemperature⟩
      rcases List.mem_cons.mp hr with rfl | hr
      · exact ⟨_, .tail _ (.tail _ (.head _)), rfl, by simpa using hpressure⟩
      obtain rfl := List.mem_singleton.mp hr
      exact ⟨_, .tail _ (.tail _ (.tail _ (.head _))), rfl, by simpa using hhumidity⟩
    · cases hr

theorem channel_plain {c : Channel} (hc : c ∈ cameraChannels) :
    isChannelName c.name = true ∧ ∀ u ∈ c.name, Firmware.isPlain u = true := by
  have hnamed := List.all_eq_true.mp channels_named c hc
  rw [Bool.and_eq_true, List.all_eq_true] at hnamed
  exact hnamed

theorem channel_bounds {c : Channel} (hc : c ∈ cameraChannels) : -10 ^ 6 < c.min ∧ c.max < 10 ^ 6 := by
  have hall : ∀ c ∈ cameraChannels, -10 ^ 6 < c.min ∧ c.max < 10 ^ 6 := by
    simp [cameraChannels]
  exact hall c hc

theorem numeral_text (value : CFloat) : value.numeral.text = value.text := by
  cases value <;> rfl

theorem numeral_value (value : CFloat) : value.numeral.value = value.rounded := by
  cases value <;> rfl

theorem stringify_reading {timestamp : ℤ} {r : Text × CFloat} (hplain : ∀ u ∈ r.1, Firmware.isPlain u = true) :
    stringify (readingJson timestamp r) = readingText r.1 r.2 timestamp := by
  have hkeys : quote (js "c") = js "\"c\"" ∧ quote (js "t") = js "\"t\"" ∧ quote (js "v") = js "\"v\"" := by decide
  simp only [readingJson, integerJson, stringify, stringifyMembers, Firmware.quote_plain hplain, hkeys, NumberText.toText,
    numeral_text]
  simp [readingText, js, codeUnits]

theorem health_code {reading : PlantSensorReading} {code : Text} (h : code ∈ healthCodes reading) :
    isHealthCode code = true ∧ ∀ u ∈ code, Firmware.isPlain u = true := by
  have hcodes : [js "light_unavailable", js "climate_unavailable"].all
      (fun code => isHealthCode code && code.all Firmware.isPlain) = true := by decide
  have hmem : code ∈ [js "light_unavailable", js "climate_unavailable"] := by
    unfold healthCodes at h
    rcases List.mem_append.mp h with h | h
    · split at h
      · cases h
      · rw [List.mem_singleton.mp h]
        exact .head _
    · split at h
      · cases h
      · rw [List.mem_singleton.mp h]
        exact .tail _ (.head _)
  have hall := List.all_eq_true.mp hcodes code hmem
  rw [Bool.and_eq_true, List.all_eq_true] at hall
  exact hall

theorem health_text (reading : PlantSensorReading) :
    join comma ((healthCodes reading).map fun code => js "\"" ++ code ++ js "\"") =
      (if reading.lightOk then [] else js "\"light_unavailable\"") ++
        if reading.climateOk then [] else if reading.lightOk then js "\"climate_unavailable\""
          else js ",\"climate_unavailable\"" := by
  unfold healthCodes
  cases reading.lightOk <;> cases reading.climateOk <;> rfl

/-- **The encoder writes JSON**: the text of the packet's value. -/
theorem stringify_packetJson {device : Text} {sequence : ℕ} {timestamp : ℤ} {uptimeS : ℕ} {rssi : ℤ}
    {reading : PlantSensorReading} (h : Encodable device sequence timestamp uptimeS rssi reading) :
    stringify (packetJson device sequence timestamp uptimeS rssi reading) =
      packetText device sequence timestamp uptimeS rssi reading := by
  have hreading : ∀ r ∈ available reading, stringify (readingJson timestamp r) = readingText r.1 r.2 timestamp := by
    intro r hr
    obtain ⟨c, hc, hname, _⟩ := available_channel h hr
    exact stringify_reading (hname ▸ (channel_plain hc).2)
  have hcode : ∀ code ∈ healthCodes reading, stringify (.str code : Json Numeral) = js "\"" ++ code ++ js "\"" := by
    intro code hcode
    rw [stringify, Firmware.quote_plain (health_code hcode).2]
  have hreadings := Firmware.stringify_arr (fun r : Text × CFloat => readingText r.1 r.2 timestamp) (readingJson timestamp)
    hreading
  have hcodes := Firmware.stringify_arr (fun code => js "\"" ++ code ++ js "\"")
    (fun code => (.str code : Json Numeral)) hcode
  have hcast : ∀ n : ℕ, (Numeral.ofInt n).text = decimal n := by
    intro n
    simp [Numeral.ofInt]
  have hone : (Numeral.ofInt 1).text = js "1" := by decide
  have hkeys : quote (js "v") = js "\"v\"" ∧ quote (js "dev") = js "\"dev\"" ∧
      quote (js "seq") = js "\"seq\"" ∧ quote (js "ts") = js "\"ts\"" ∧
      quote (js "r") = js "\"r\"" ∧ quote (js "st") = js "\"st\"" ∧ quote (js "rssi") = js "\"rssi\"" ∧
      quote (js "up_s") = js "\"up_s\"" ∧ quote (js "health") = js "\"health\"" := by decide
  rw [health_text] at hcodes
  unfold packetJson packetText signalJson tailText signalText
  by_cases hsignal : rssi = -151
  · simp only [hsignal, ne_eq, not_true_eq_false, if_false, List.nil_append, stringify, stringifyMembers,
      Firmware.quote_plain (Firmware.plain_of_device h.device), hreadings, hcodes, integerJson, NumberText.toText, hcast, hone,
      hkeys]
    simp [headText, readingTexts, js, codeUnits]
  · simp only [hsignal, ne_eq, not_false_eq_true, if_true, List.cons_append, List.nil_append, stringify, stringifyMembers,
      Firmware.quote_plain (Firmware.plain_of_device h.device), hreadings, hcodes, integerJson, NumberText.toText, hcast, hone,
      hkeys]
    simp [headText, readingTexts, js, codeUnits]

/-! ## Reading it back -/

theorem roundSix_nonneg (q : ℚ) : 0 ≤ roundSix q := by
  exact mul_nonneg (Nat.cast_nonneg _) (zpow_nonneg (by norm_num) _)

theorem roundSix_between {q : ℚ} {a b : ℤ} (hq : 0 ≤ q) (ha : (a : ℚ) ≤ q) (hb : q ≤ b) (hsix : b < 10 ^ 6) :
    (a : ℚ) ≤ roundSix q ∧ roundSix q ≤ b := by
  have hb0 : 0 ≤ b := by exact_mod_cast hq.trans hb
  obtain ⟨n, rfl⟩ := Int.eq_ofNat_of_zero_le hb0
  refine ⟨?_, ?_⟩
  · by_cases ha0 : a ≤ 0
    · exact (by exact_mod_cast ha0 : (a : ℚ) ≤ 0).trans (roundSix_nonneg q)
    · obtain ⟨m, rfl⟩ := Int.eq_ofNat_of_zero_le (by omega : 0 ≤ a)
      have hpos : (0 : ℚ) < q := lt_of_lt_of_le (by exact_mod_cast not_le.mp ha0) ha
      have hlt : q < 10 ^ 6 := lt_of_le_of_lt hb (by exact_mod_cast hsix)
      exact le_roundSix hpos (by exact_mod_cast ha) hlt
  · exact roundSix_le hq (by exact_mod_cast hb) (by exact_mod_cast hsix)

theorem rounded_within {value : CFloat} {low high : ℤ} (hlow : -10 ^ 6 < low) (hhigh : high < 10 ^ 6)
    (h : value.within low high = true) : (low : ℚ) ≤ value.rounded ∧ value.rounded ≤ high := by
  cases value with
  | finite negative magnitude =>
    obtain ⟨q, hq⟩ := magnitude
    simp only [CFloat.within, Bool.and_eq_true, decide_eq_true_eq] at h
    simp only [CFloat.rounded]
    cases negative with
    | false =>
      simp only [Bool.false_eq_true, if_false, one_mul] at h ⊢
      exact roundSix_between hq h.1 h.2 hhigh
    | true =>
      simp only [if_true, neg_mul, one_mul] at h ⊢
      have hbounds := roundSix_between hq (a := -high) (b := -low) (by push_cast; linarith) (by push_cast; linarith)
        (by omega)
      push_cast at hbounds
      exact ⟨by linarith, by linarith⟩
  | infinite negative => cases h
  | nan => cases h

theorem spelt_numeral {value : CFloat} {low high : ℚ} (h : value.within low high = true) :
    Spelt Numeral.value value.numeral := by
  cases value with
  | finite negative magnitude => exact spelt_printG negative magnitude.2
  | infinite negative => cases h
  | nan => cases h

section Reading

variable {device : Text} {sequence : ℕ} {timestamp : ℤ} {uptimeS : ℕ} {rssi : ℤ} {reading : PlantSensorReading}

theorem available_spelt (h : Encodable device sequence timestamp uptimeS rssi reading) {r : Text × CFloat}
    (hr : r ∈ available reading) : Spelt Numeral.value r.2.numeral := by
  obtain ⟨c, _, _, hwithin⟩ := available_channel h hr
  exact spelt_numeral hwithin

theorem packetJson_readable (h : Encodable device sequence timestamp uptimeS rssi reading) :
    Readable Numeral.value (packetJson device sequence timestamp uptimeS rssi reading) := by
  have hreadings : AllReadable Numeral.value ((available reading).map (readingJson timestamp)) := by
    refine Firmware.allReadable_map ?_
    intro r hr
    exact ⟨by simp [js, codeUnits], trivial, Firmware.spelt_ofInt timestamp, available_spelt h hr, trivial⟩
  have hcodes : AllReadable Numeral.value ((healthCodes reading).map .str) :=
    Firmware.allReadable_map fun _ _ => trivial
  have hstatus : Readable Numeral.value (.obj (signalJson rssi ++ [(js "up_s", integerJson uptimeS),
      (js "health", .arr ((healthCodes reading).map .str))])) := by
    unfold signalJson
    split
    · exact ⟨by simp [js, codeUnits], Firmware.spelt_ofInt rssi, Firmware.spelt_ofInt uptimeS, hcodes, trivial⟩
    · exact ⟨by simp [js, codeUnits], Firmware.spelt_ofInt uptimeS, hcodes, trivial⟩
  exact ⟨by simp [js, codeUnits], Firmware.spelt_ofInt 1, trivial, Firmware.spelt_ofInt sequence,
    Firmware.spelt_ofInt timestamp, hreadings, hstatus, trivial⟩

theorem valued_packetJson :
    valued Numeral.value (packetJson device sequence timestamp uptimeS rssi reading) =
      (packetEnvelope device sequence timestamp uptimeS rssi reading).toJson := by
  unfold packetJson packetEnvelope signalJson
  split <;>
  · simp only [valued, valuedMembers, Firmware.valuedItems_map, Envelope.toJson, WireStatus.toJson, WireReading.toJson,
      optionalInt, readingJson, integerJson, numeral_value, List.map_map, List.nil_append, List.cons_append, Function.comp_def]
    rfl

theorem parse_packetText (h : Encodable device sequence timestamp uptimeS rssi reading) :
    parse (packetText device sequence timestamp uptimeS rssi reading) =
      some (packetEnvelope device sequence timestamp uptimeS rssi reading).toJson := by
  rw [← stringify_packetJson h, parse_stringify (packetJson_readable h), valued_packetJson]

theorem packetEnvelope_valid (h : Encodable device sequence timestamp uptimeS rssi reading)
    (hdevice : isUuid device = true) : (packetEnvelope device sequence timestamp uptimeS rssi reading).Valid := by
  have hsequence := h.sequence
  have htimestamp := h.timestamp
  have huptime := h.uptimeS
  have hrssi := h.rssi
  unfold maxSequence at hsequence huptime
  have hfew : (available reading).length ≤ 4 := by
    unfold available lightReadings climateReadings
    split <;> split <;> simp
  have hsome := List.length_pos_of_ne_nil h.nonempty
  have hcodes : (healthCodes reading).length ≤ 2 := by
    unfold healthCodes
    split <;> split <;> simp
  refine ⟨hdevice, ?_, ?_, ?_, ?_, ⟨nofun, ?_, ?_, ?_, fun t ht => (health_code ht).1⟩⟩
  · simp only [packetEnvelope, maxSafeInteger]
    omega
  · simp only [packetEnvelope, maxTime]
    omega
  · simp only [packetEnvelope, List.length_map]
    omega
  · intro x hx
    obtain ⟨r, hr, rfl⟩ := List.mem_map.mp hx
    obtain ⟨c, hc, hname, _⟩ := available_channel h hr
    refine ⟨hname ▸ (channel_plain hc).1, ?_, rfl⟩
    simp only [maxTime]
    omega
  · intro z hz
    simp only [packetEnvelope] at hz
    split at hz
    · obtain rfl := Option.some.inj hz
      omega
    · cases hz
  · simp only [packetEnvelope, maxSafeInteger]
    omega
  · simp only [packetEnvelope]
    omega

/-! ## No NUL but the last -/

theorem nul_join {sep : ℕ} (hsep : sep ≠ 0) : ∀ {l : List Text}, (∀ t ∈ l, 0 ∉ t) → 0 ∉ join sep l
  | [], _ => List.not_mem_nil
  | [t], h => h t (.head _)
  | t :: u :: rest, h => by
      have hrest : 0 ∉ join sep (u :: rest) := nul_join hsep fun v hv => h v (.tail _ hv)
      rw [join, List.mem_append, List.mem_cons, not_or, not_or]
      exact ⟨h t (.head _), hsep.symm, hrest⟩

theorem nul_spelt {n : Numeral} (h : Spelt Numeral.value n) : 0 ∉ n.text := by
  intro hmem
  exact absurd (h.units 0 hmem) (by decide)

theorem nul_decimal (n : ℕ) : 0 ∉ decimal n := by
  intro hmem
  exact absurd (isDigit_decimal hmem) (by decide)

theorem nul_plain {t : Text} (h : ∀ u ∈ t, Firmware.isPlain u = true) : 0 ∉ t := by
  intro hmem
  exact absurd (h 0 hmem) (by decide)

theorem nul_readingText (h : Encodable device sequence timestamp uptimeS rssi reading) {r : Text × CFloat}
    (hr : r ∈ available reading) : 0 ∉ readingText r.1 r.2 timestamp := by
  obtain ⟨c, hc, hname, _⟩ := available_channel h hr
  have hchannel : 0 ∉ r.1 := nul_plain (hname ▸ (channel_plain hc).2)
  have hvalue : 0 ∉ r.2.text := numeral_text r.2 ▸ nul_spelt (available_spelt h hr)
  have htime : 0 ∉ (Numeral.ofInt timestamp).text := nul_spelt (Firmware.spelt_ofInt timestamp)
  simp [readingText, js, codeUnits, hchannel, hvalue, htime]

theorem nul_packetText (h : Encodable device sequence timestamp uptimeS rssi reading) :
    0 ∉ packetText device sequence timestamp uptimeS rssi reading := by
  have hdevice : 0 ∉ device := nul_plain (Firmware.plain_of_device h.device)
  have hint : ∀ z : ℤ, 0 ∉ (Numeral.ofInt z).text := fun z => nul_spelt (Firmware.spelt_ofInt z)
  have hhead : 0 ∉ headText device sequence timestamp := by
    simp [headText, js, codeUnits, hdevice, nul_decimal, hint]
  have hreadings : 0 ∉ readingTexts timestamp (available reading) := by
    refine nul_join (by decide) ?_
    intro t ht
    obtain ⟨r, hr, rfl⟩ := List.mem_map.mp ht
    exact nul_readingText h hr
  have hsignal : 0 ∉ signalText rssi := by
    unfold signalText
    split
    · simp [js, codeUnits, hint]
    · exact List.not_mem_nil
  have hcodes : 0 ∉ join comma ((healthCodes reading).map fun code => js "\"" ++ code ++ js "\"") := by
    refine nul_join (by decide) ?_
    intro t ht
    obtain ⟨code, hcode, rfl⟩ := List.mem_map.mp ht
    have hplain : 0 ∉ code := nul_plain (health_code hcode).2
    simp [js, codeUnits, hplain]
  rw [health_text, List.mem_append, not_or] at hcodes
  have htail : 0 ∉ tailText uptimeS rssi reading.lightOk reading.climateOk := by
    simp only [tailText, List.mem_append, not_or]
    refine ⟨⟨⟨⟨⟨⟨⟨by decide, hsignal⟩, by decide⟩, nul_decimal _⟩, by decide⟩, hcodes.1⟩, hcodes.2⟩, by decide⟩
  rw [packetText, List.mem_append, List.mem_append, not_or, not_or]
  exact ⟨⟨hhead, hreadings⟩, htail⟩

end Reading

/-! ## The acknowledgement -/

structure ResponseBuffer where
  body : Text
  overflow : Bool

/-- `http_event` on data. A body that does not fit, with a NUL behind it, is given up. -/
def ResponseBuffer.data (response : ResponseBuffer) (data : Text) : ResponseBuffer :=
  if response.body.length + data.length ≥ 1025 then { response with overflow := true }
  else { response with body := response.body ++ data }

def received (pieces : List Text) : ResponseBuffer := pieces.foldl ResponseBuffer.data ⟨[], false⟩

def number (members : List (Text × Json ℚ)) (key : Text) (expected : ℚ) : Bool :=
  match members.lookup key with
  | some (.num value) => value = expected
  | _ => false

section

-- `cJSON_Parse`
variable (cJSONParse : Text → Option (Json ℚ))

def telemetryAck (response : ResponseBuffer) (expected : ℕ) : Bool :=
  if response.overflow || response.body.isEmpty then false
  else match cJSONParse response.body with
    | some (.obj members) =>
      let commands := members.lookup (js "cmd")
      number members (js "ok") expected && number members (js "next_s") 900 &&
        match commands with
        | some (.arr items) => items.length = 0
        | _ => false
    | _ => false

def ackJson (ack : Ack) : Json Numeral :=
  .obj [(js "ok", integerJson ack.ok), (js "next_s", integerJson ack.nextS), (js "cmd", .arr [])]

def ackText (ack : Ack) : Text := stringify (ackJson ack)

def ReadsAcks : Prop := ∀ ack : Ack, ack.accepted = true →
  cJSONParse (ackText ack) =
    some (.obj [(js "ok", .num ack.ok), (js "next_s", .num ack.nextS), (js "cmd", .arr [])])

end

theorem readsAcks_parse : ReadsAcks parse := by
  intro ack _
  have hreadable : Readable Numeral.value (ackJson ack) :=
    ⟨by simp [js, codeUnits], Firmware.spelt_ofInt ack.ok, Firmware.spelt_ofInt ack.nextS, trivial, trivial⟩
  exact parse_stringify hreadable

theorem received_flatten : ∀ (pieces : List Text) (body : Text), (body ++ pieces.flatten).length < 1025 →
    pieces.foldl ResponseBuffer.data ⟨body, false⟩ = ⟨body ++ pieces.flatten, false⟩
  | [], body, _ => by rw [List.flatten_nil, List.append_nil]; rfl
  | piece :: pieces, body, hshort => by
      rw [List.flatten_cons, ← List.append_assoc] at hshort
      have hpiece : body.length + piece.length < 1025 := by
        rw [List.length_append, List.length_append] at hshort
        omega
      rw [List.foldl_cons, ResponseBuffer.data, if_neg (not_le.mpr hpiece), received_flatten pieces _ hshort,
        List.flatten_cons, List.append_assoc]

theorem length_ofInt {z : ℤ} {e : ℕ} (he : 0 < e) (hnonneg : 0 ≤ z) (hlt : z < 10 ^ e) :
    (Numeral.ofInt z).text.length ≤ e := by
  obtain ⟨n, rfl⟩ := Int.eq_ofNat_of_zero_le hnonneg
  have hn : n < 10 ^ e := by exact_mod_cast hlt
  have htext : (Numeral.ofInt n).text = decimal n := by simp [Numeral.ofInt]
  rw [htext, decimal, List.length_map]
  exact Nat.toDigits_length 10 n e he hn

theorem ackText_short {ack : Ack} (h : ack.accepted = true) : (ackText ack).length < 1025 := by
  obtain ⟨⟨hlow, hhigh⟩, hlow', hhigh'⟩ := of_decide_eq_true h
  have hok : (Numeral.ofInt ack.ok).text.length ≤ 3 := length_ofInt (by decide) (by omega) (by omega)
  have hnext : (Numeral.ofInt ack.nextS).text.length ≤ 5 := length_ofInt (by decide) (by omega) (by omega)
  have hkeys : quote (js "ok") = js "\"ok\"" ∧ quote (js "next_s") = js "\"next_s\"" ∧
      quote (js "cmd") = js "\"cmd\"" := by decide
  have htext : ackText ack = js "\x7b\"ok\":" ++ (Numeral.ofInt ack.ok).text ++ js ",\"next_s\":" ++
      (Numeral.ofInt ack.nextS).text ++ js ",\"cmd\":[]\x7d" := by
    simp only [ackText, ackJson, integerJson, stringify, stringifyMembers, hkeys, NumberText.toText]
    simp [js, codeUnits]
  have hfixed : (js "\x7b\"ok\":").length = 6 ∧ (js ",\"next_s\":").length = 10 ∧
      (js ",\"cmd\":[]\x7d").length = 10 := by decide
  rw [htext]
  simp only [List.length_append, hfixed]
  omega

theorem telemetryAck_iff {cJSONParse : Text → Option (Json ℚ)} (hreads : ReadsAcks cJSONParse) {ack : Ack}
    (haccepted : ack.accepted = true) {pieces : List Text} (hpieces : pieces.flatten = ackText ack) (expected : ℕ) :
    telemetryAck cJSONParse (received pieces) expected = true ↔ ack.ok = expected ∧ ack.nextS = 900 := by
  have hbody : received pieces = ⟨ackText ack, false⟩ := by
    have hshort := ackText_short haccepted
    rw [← hpieces] at hshort ⊢
    exact received_flatten pieces [] hshort
  have hnonempty : (ackText ack).isEmpty = false := rfl
  rw [hbody, telemetryAck, hnonempty, hreads ack haccepted]
  simp [number, List.lookup_cons, js, codeUnits]
  norm_cast

/-! ## From the camera to ingest and back -/

structure Delivered (cJSONParse : Text → Option (Json ℚ)) (cap : ℕ) (encoded : Encoded) (text : Text)
    (envelope : Envelope ℚ) : Prop where
  size : encoded.buffer.length = cap
  length : encoded.length = text.length
  terminated : ∃ rest, encoded.buffer = text ++ 0 :: rest
  nul : 0 ∉ text
  /-- **The text is one JSON document, of which the schema makes the envelope.** -/
  accepted : ∃ j : Json ℚ, parse text = some j ∧ Envelope.safeParse j = some envelope
  /-- **Every value is in the range of a channel that was declared.** -/
  ranges : ∀ x ∈ envelope.r, ∃ c ∈ cameraChannels, c.name = x.c ∧ (c.min : ℚ) ≤ x.v ∧ x.v ≤ c.max
  count : encoded.count = envelope.r.length
  /-- **The count ingest acknowledges is the one that is expected**, and no other is. -/
  acknowledged : ∀ (tokenHash : Text → Text), Function.Injective tokenHash →
    ∀ w₀ w : World Text (DeviceTables ℚ) (Shared ℚ) (Outcome ℚ), Fresh w₀ →
    Reachable (requests tokenHash) Outside w₀ w → ∀ entry ∈ w.log, entry.2.request.envelope = some envelope →
    ∀ ack ∈ entry.2.answer.ack, ∀ pieces : List Text, pieces.flatten = ackText ack → ∀ expected,
      telemetryAck cJSONParse (received pieces) expected = true ↔ expected = encoded.count ∧ ack.nextS = 900

/--
**Every packet the camera encodes is one that ingest takes, and acknowledges as the camera expects.**

The envelope is of the device, the sequence and the times that were given, with a reading for each channel of
the sources there are and a health code for each of the others.
-/
theorem encoded_packet_delivered {cJSONParse : Text → Option (Json ℚ)} (hreads : ReadsAcks cJSONParse)
    {buffer : Text} {cap : ℕ} {device : Text} {sequence : ℕ} {timestamp : ℤ} {uptimeS : ℕ} {rssi : ℤ}
    {reading : PlantSensorReading} {encoded : Encoded} (hsize : buffer.length = cap) (hdevice : isUuid device = true)
    (h : telemetryPacketEncode buffer cap device sequence timestamp uptimeS rssi reading = some encoded) :
    Delivered cJSONParse cap encoded (packetText device sequence timestamp uptimeS rssi reading)
      (packetEnvelope device sequence timestamp uptimeS rssi reading) := by
  obtain ⟨hencodable, hcount, hlength, hkept, hterminated⟩ := encode_eq_some hsize h
  have hreadings : (packetEnvelope device sequence timestamp uptimeS rssi reading).r.length = encoded.count := by
    rw [hcount]
    exact List.length_map _
  refine ⟨hkept, hlength, hterminated, nul_packetText hencodable, ?_, ?_, hreadings.symm, ?_⟩
  · exact ⟨_, parse_packetText hencodable, Envelope.safeParse_toJson (packetEnvelope_valid hencodable hdevice)⟩
  · intro x hx
    obtain ⟨r, hr, rfl⟩ := List.mem_map.mp hx
    obtain ⟨c, hc, hname, hwithin⟩ := available_channel hencodable hr
    obtain ⟨hlow, hhigh⟩ := channel_bounds hc
    exact ⟨c, hc, hname, rounded_within hlow hhigh hwithin⟩
  · intro tokenHash hinj w₀ w h₀ hr entry hentry henvelope ack hack pieces hpieces expected
    obtain ⟨haccepted, hok⟩ := counted_reachable hinj h₀ hr entry hentry _ henvelope ack hack
    rw [telemetryAck_iff hreads haccepted hpieces, hok, hreadings]
    constructor
    · intro hexpected
      exact ⟨by exact_mod_cast hexpected.1.symm, hexpected.2⟩
    · intro hexpected
      exact ⟨by exact_mod_cast hexpected.1.symm, hexpected.2⟩

namespace Bench

def device : Text := js "0f8fad5b-d9cb-469f-a165-70867728950e"

def reading : PlantSensorReading := ⟨true, false, .finite false ⟨197531 / 16, by norm_num⟩, .nan, .nan, .nan⟩

def encoded : Option Encoded := telemetryPacketEncode (List.replicate 300 0) 300 device 7 1700000000 60 (-151) reading

end Bench

/-- A packet of one reading, with `parse` in the place of cJSON. -/
theorem encoded_packet_delivered_bench : ∃ encoded, Bench.encoded = some encoded ∧
    Delivered parse 300 encoded (packetText Bench.device 7 1700000000 60 (-151) Bench.reading)
      (packetEnvelope Bench.device 7 1700000000 60 (-151) Bench.reading) := by
  have hsome : Bench.encoded.isSome = true := by decide +kernel
  obtain ⟨encoded, hencoded⟩ := Option.isSome_iff_exists.mp hsome
  exact ⟨encoded, hencoded, encoded_packet_delivered readsAcks_parse (List.length_replicate ..) (by decide) hencoded⟩

end Albusforge.Camera.Telemetry
