import Albusforge.Lib.JsonParse
import Albusforge.Firmware.Wire

/-!
# What the cloud makes of a packet

The encoder in C and `TelemetryEnvelope` in TypeScript, read against each other. A packet
is the text of a JSON value, member for member the envelope of what was encoded
(`parse_encoded`), so ingest takes it exactly when that envelope is valid. Every bound
of the schema is one the encoder has checked, except one: the encoder checks that a
channel has at most 64 units and writes it into a health entry behind ten more.
**A packet is taken exactly when no synthetic channel has more than 54 units**
(`packet_accepted_iff`).
-/

namespace Albusforge.Firmware

open Lib Lib.Json Cloudlink

variable {ν : Type} [JsNumber ν] (print : ν → Numeral)

/-! ## The packet as a JSON value -/

def integerJson (z : ℤ) : Json Numeral := .num (Numeral.ofInt z)

def readingJson (timestamp : ℤ) (r : Reading ν) : Json Numeral :=
  .obj [(js "c", .str r.channel), (js "t", integerJson timestamp), (js "v", .num (print r.value))]

/-- `synthetic:` and the channel. -/
def healthCode (r : Reading ν) : Text := js "synthetic:" ++ r.channel

def healthCodes (readings : List (Reading ν)) : List Text :=
  (readings.filter Reading.synthetic).map healthCode

def packetJson (device : Text) (sequence : ℕ) (timestamp : ℤ) (readings : List (Reading ν))
    (uptime : ℕ) : Json Numeral :=
  .obj [(js "v", integerJson 1), (js "dev", .str device), (js "seq", integerJson sequence),
    (js "ts", integerJson timestamp), (js "r", .arr (readings.map (readingJson print timestamp))),
    (js "st", .obj [(js "up_s", integerJson uptime),
      (js "health", .arr ((healthCodes readings).map .str))])]

def packetEnvelope (device : Text) (sequence : ℕ) (timestamp : ℤ) (readings : List (Reading ν))
    (uptime : ℕ) : Envelope ℚ where
  dev := device
  seq := sequence
  ts := timestamp
  r := readings.map fun r => ⟨r.channel, timestamp, (print r.value).value⟩
  st := ⟨none, none, uptime, healthCodes readings⟩

/-- **The text is a JSON document that `TelemetryEnvelope` accepts, and reads as what was encoded**:
its device, sequence, time, uptime, channels in their order, and synthetic channels. -/
def Accepted (text device : Text) (sequence : ℕ) (timestamp : ℤ) (readings : List (Reading ν))
    (uptime : ℕ) : Prop :=
  ∃ j, parse text = some j ∧
    Envelope.safeParse j = some (packetEnvelope print device sequence timestamp readings uptime)

/-! ## The packet's text is the value's -/

def isPlain (u : ℕ) : Bool := 32 ≤ u && u < 0xD800 && u ≠ dquote && u ≠ backslash

theorem quoteUnit_plain {u : ℕ} (h : isPlain u = true) : quoteUnit u = [u] := by
  simp only [isPlain, Bool.and_eq_true, decide_eq_true_eq] at h
  obtain ⟨⟨⟨hlo, hhi⟩, hq⟩, hb⟩ := h
  unfold quoteUnit
  rw [if_neg (by omega), if_neg (by omega), if_neg (by omega), if_neg (by omega), if_neg (by omega),
    if_neg hq, if_neg hb, if_neg]
  simp only [isHighSurrogate, isLowSurrogate, Bool.or_eq_true, Bool.and_eq_true, decide_eq_true_eq]
  omega

theorem quoteRest_plain : ∀ {t : Text}, (∀ u ∈ t, isPlain u = true) → quoteRest t = t ++ [dquote]
  | [], _ => rfl
  | [u], h => by rw [quoteRest, quoteUnit_plain (h u (by simp))]
  | u :: v :: t, h => by
      have hu := h u (by simp)
      have hpair : (isHighSurrogate u && isLowSurrogate v) = false := by
        simp only [isPlain, Bool.and_eq_true, decide_eq_true_eq] at hu
        simp only [isHighSurrogate, Bool.and_eq_false_iff, decide_eq_false_iff_not]
        omega
      have hrest : quoteRest (v :: t) = v :: t ++ [dquote] :=
        quoteRest_plain fun w hw => h w (List.mem_cons_of_mem u hw)
      rw [quoteRest, hpair, if_neg (by simp), quoteUnit_plain hu, hrest]
      rfl

theorem quote_plain {t : Text} (h : ∀ u ∈ t, isPlain u = true) :
    quote t = js "\"" ++ t ++ js "\"" := by
  rw [quote, quoteRest_plain h]
  rfl

theorem plain_of_channel {channel : Text} (h : validChannel channel = true) :
    ∀ u ∈ channel, isPlain u = true := by
  intro u hu
  cases channel with
  | nil => simp at hu
  | cons c rest =>
      simp only [validChannel, Bool.and_eq_true, List.all_eq_true, Bool.or_eq_true, isLower, isDigit,
        decide_eq_true_eq] at h
      simp only [isPlain, Bool.and_eq_true, decide_eq_true_eq, dquote, backslash]
      rcases List.mem_cons.mp hu with rfl | hu
      · omega
      · have := h.2 u hu
        omega

theorem plain_of_device {device : Text} (h : validDevice device = true) :
    ∀ u ∈ device, isPlain u = true := by
  intro u hu
  obtain ⟨i, hi⟩ := List.mem_iff_getElem?.mp hu
  simp only [validDevice, Bool.and_eq_true, List.all_eq_true] at h
  have hunit := h.2 (u, i) (List.mk_mem_zipIdx_iff_getElem?.mpr hi)
  simp only [isPlain, Bool.and_eq_true, decide_eq_true_eq, dquote, backslash]
  split at hunit
  · simp only [decide_eq_true_eq, hyphen] at hunit
    omega
  · simp only [isXDigit, isDigit, Bool.or_eq_true, Bool.and_eq_true, decide_eq_true_eq] at hunit
    omega

theorem plain_healthCode {r : Reading ν} (h : r.valid = true) :
    ∀ u ∈ healthCode r, isPlain u = true := by
  intro u hu
  simp only [Reading.valid, Bool.and_eq_true] at h
  rcases List.mem_append.mp hu with hu | hu
  · have hprefix : ∀ v ∈ js "synthetic:", isPlain v = true := by decide
    exact hprefix u hu
  · exact plain_of_channel h.1.1.1.1.1.1 u hu

theorem stringify_arr {α : Type} (text : α → Text) (item : α → Json Numeral) {as : List α}
    (h : ∀ a ∈ as, stringify (item a) = text a) :
    stringify (.arr (as.map item)) = js "[" ++ join comma (as.map text) ++ js "]" := by
  have hitems : ∀ {bs : List α}, (∀ b ∈ bs, stringify (item b) = text b) → ∀ a,
      stringify (item a) = text a → stringify (item a) ++ stringifyItems (bs.map item) =
        join comma ((a :: bs).map text) ++ js "]" := by
    intro bs
    induction bs with
    | nil =>
        intro _ a ha
        rw [ha]
        rfl
    | cons b bs ih =>
        intro hbs a ha
        have hrest := ih (fun c hc => hbs c (List.mem_cons_of_mem b hc)) b (hbs b (by simp))
        rw [List.map_cons, stringifyItems, hrest, ha]
        simp [join]
  cases as with
  | nil => rfl
  | cons a as =>
      rw [List.map_cons, stringify,
        hitems (fun b hb => h b (List.mem_cons_of_mem a hb)) a (h a (by simp))]
      simp [js, codeUnits]

/-- **The encoder writes JSON**: the text of the packet's value. -/
theorem stringify_packetJson {device : Text} {sequence : ℕ} {timestamp : ℤ}
    {readings : List (Reading ν)} {uptime : ℕ}
    (h : Encodable device sequence timestamp readings uptime) :
    stringify (packetJson print device sequence timestamp readings uptime) =
      emitPacket print device sequence timestamp readings uptime := by
  have hreading : ∀ r ∈ readings, stringify (readingJson print timestamp r) =
      emitReading print timestamp r := by
    intro r hr
    have hr' := h.readings r hr
    simp only [Reading.valid, Bool.and_eq_true] at hr'
    have hchannel := quote_plain (plain_of_channel hr'.1.1.1.1.1.1)
    have hkeys : quote (js "c") = js "\"c\"" ∧ quote (js "t") = js "\"t\"" ∧
        quote (js "v") = js "\"v\"" := by decide
    simp only [readingJson, integerJson, stringify, stringifyMembers, hchannel, hkeys,
      NumberText.toText]
    simp [emitReading, js, codeUnits]
  have hcode : ∀ r ∈ readings.filter Reading.synthetic,
      stringify (.str (healthCode r) : Json Numeral) = emitFlag r := by
    intro r hr
    rw [stringify, quote_plain (plain_healthCode (h.readings r (List.mem_filter.mp hr).1))]
    simp [emitFlag, healthCode, js, codeUnits]
  have hdevice := quote_plain (plain_of_device h.device)
  have hreadings := stringify_arr (emitReading print timestamp) (readingJson print timestamp) hreading
  have hcodes := stringify_arr emitFlag (fun r => (.str (healthCode r) : Json Numeral)) hcode
  have hcast : ∀ n : ℕ, (Numeral.ofInt n).text = decimal n := by
    intro n
    simp [Numeral.ofInt]
  have hone : (Numeral.ofInt 1).text = js "1" := by decide
  have hkeys : quote (js "v") = js "\"v\"" ∧ quote (js "dev") = js "\"dev\"" ∧
      quote (js "seq") = js "\"seq\"" ∧ quote (js "ts") = js "\"ts\"" ∧
      quote (js "r") = js "\"r\"" ∧ quote (js "st") = js "\"st\"" ∧
      quote (js "up_s") = js "\"up_s\"" ∧ quote (js "health") = js "\"health\"" := by decide
  simp only [packetJson, healthCodes, List.map_map, Function.comp_def, stringify, stringifyMembers,
    hdevice, hreadings, hcodes, integerJson, NumberText.toText, hcast, hone, hkeys]
  simp [emitPacket, js, codeUnits]

/-! ## Reading it back -/

theorem spelt_ofInt (z : ℤ) : Spelt Numeral.value (Numeral.ofInt z) := by
  refine ⟨?_, readNumber_ofInt z⟩
  intro u hu
  have hdigit : ∀ n : ℕ, ∀ v ∈ decimal n, isDecimalUnit v = true := by
    intro n v hv
    simp [isDecimalUnit, isDigit_decimal hv]
  rcases List.mem_append.mp hu with hu | hu
  · split at hu
    · obtain rfl : u = 45 := by simpa using hu
      rfl
    · simp at hu
  · exact hdigit _ u hu

theorem allReadable_map {α : Type} {item : α → Json Numeral} : ∀ {as : List α},
    (∀ a ∈ as, Readable Numeral.value (item a)) → AllReadable Numeral.value (as.map item)
  | [], _ => trivial
  | a :: as, h => ⟨h a (by simp), allReadable_map fun b hb => h b (List.mem_cons_of_mem a hb)⟩

theorem valuedItems_map {α : Type} (item : α → Json Numeral) (as : List α) :
    valuedItems Numeral.value (as.map item) = as.map fun a => valued Numeral.value (item a) := by
  induction as with
  | nil => rfl
  | cons a as ih => rw [List.map_cons, valuedItems, ih, List.map_cons]

variable {print}

theorem packetJson_readable {device : Text} {sequence : ℕ} {timestamp : ℤ}
    {readings : List (Reading ν)} {uptime : ℕ}
    (hprint : ∀ r ∈ readings, Spelt Numeral.value (print r.value)) :
    Readable Numeral.value (packetJson print device sequence timestamp readings uptime) := by
  have hreadings : AllReadable Numeral.value (readings.map (readingJson print timestamp)) := by
    refine allReadable_map ?_
    intro r hr
    exact ⟨by simp [js, codeUnits], trivial, spelt_ofInt timestamp, hprint r hr, trivial⟩
  have hcodes : AllReadable Numeral.value ((healthCodes readings).map .str) :=
    allReadable_map fun _ _ => trivial
  exact ⟨by simp [js, codeUnits], spelt_ofInt 1, trivial, spelt_ofInt sequence, spelt_ofInt timestamp,
    hreadings, ⟨by simp [js, codeUnits], spelt_ofInt uptime, hcodes, trivial⟩, trivial⟩

theorem valued_packetJson (device : Text) (sequence : ℕ) (timestamp : ℤ)
    (readings : List (Reading ν)) (uptime : ℕ) :
    valued Numeral.value (packetJson print device sequence timestamp readings uptime) =
      (packetEnvelope print device sequence timestamp readings uptime).toJson := by
  simp only [packetJson, valued, valuedMembers, valuedItems_map, packetEnvelope, Envelope.toJson,
    WireStatus.toJson, WireReading.toJson, optionalInt, readingJson, integerJson, List.map_map,
    List.nil_append, Function.comp_def]
  rfl

theorem parse_encoded {capacity : ℕ} {device : Text} {sequence : ℕ} {timestamp : ℤ}
    {readings : List (Reading ν)} {uptime : ℕ} {text : Text}
    (h : encodeReadings print capacity device sequence timestamp readings uptime = some text)
    (hprint : ∀ r ∈ readings, Spelt Numeral.value (print r.value)) :
    parse text = some (packetEnvelope print device sequence timestamp readings uptime).toJson := by
  obtain ⟨rfl, hencodable⟩ := encodeReadings_eq_some h
  rw [← stringify_packetJson print hencodable, parse_stringify (packetJson_readable hprint),
    valued_packetJson]

/-! ## What the schema asks for beyond it -/

theorem isChannelName_of_validChannel {channel : Text} (h : validChannel channel = true) :
    isChannelName channel = true := by
  cases channel with
  | nil => simp [validChannel] at h
  | cons c rest =>
      simp only [validChannel, Bool.and_eq_true, decide_eq_true_eq, List.length_cons] at h
      simp only [isChannelName, Bool.and_eq_true, decide_eq_true_eq]
      exact ⟨⟨h.1.2, by omega⟩, h.2⟩

theorem isHealthCode_iff (r : Reading ν) :
    isHealthCode (healthCode r) = true ↔ r.channel.length ≤ 54 := by
  have hlen : (healthCode r).length = 10 + r.channel.length := by
    rw [healthCode, List.length_append]
    rfl
  simp only [isHealthCode, hlen, decide_eq_true_eq]
  omega

variable (print) in
theorem packetEnvelope_valid_iff {device : Text} {sequence : ℕ} {timestamp : ℤ}
    {readings : List (Reading ν)} {uptime : ℕ}
    (h : Encodable device sequence timestamp readings uptime) (hdevice : isUuid device = true) :
    (packetEnvelope print device sequence timestamp readings uptime).Valid ↔
      ∀ r ∈ readings, r.synthetic = true → r.channel.length ≤ 54 := by
  have hcodes : (∀ t ∈ healthCodes readings, isHealthCode t = true) ↔
      ∀ r ∈ readings, r.synthetic = true → r.channel.length ≤ 54 := by
    constructor
    · intro hall r hr hsynthetic
      rw [← isHealthCode_iff]
      exact hall _ (List.mem_map_of_mem (List.mem_filter.mpr ⟨hr, hsynthetic⟩))
    · intro hshort t ht
      obtain ⟨r, hr, rfl⟩ := List.mem_map.mp ht
      obtain ⟨hr, hsynthetic⟩ := List.mem_filter.mp hr
      exact (isHealthCode_iff r).mpr (hshort r hr hsynthetic)
  constructor
  · intro hvalid
    exact hcodes.mp hvalid.st.codes
  · intro hshort
    have hsequence := h.sequence
    have htimestamp := h.timestamp
    have huptime := h.uptime
    have hcount := h.count
    have hnonempty := List.length_pos_of_ne_nil h.nonempty
    have hsynthetic := List.length_filter_le Reading.synthetic readings
    unfold maxSequence at hsequence huptime
    unfold maxTimestamp at htimestamp
    unfold maxReadings at hcount
    refine ⟨hdevice, ?_, ?_, ?_, ?_, ⟨by simp [packetEnvelope], by simp [packetEnvelope], ?_, ?_,
      hcodes.mpr hshort⟩⟩
    · simp only [packetEnvelope, maxSafeInteger]
      omega
    · simp only [packetEnvelope, maxTime]
      omega
    · simp only [packetEnvelope, List.length_map]
      omega
    · intro x hx
      obtain ⟨r, hr, rfl⟩ := List.mem_map.mp hx
      have hr' := h.readings r hr
      simp only [Reading.valid, Bool.and_eq_true] at hr'
      refine ⟨isChannelName_of_validChannel hr'.1.1.1.1.1.1, ?_, rfl⟩
      simp only [maxTime]
      omega
    · simp only [packetEnvelope, maxSafeInteger]
      omega
    · simp only [packetEnvelope, healthCodes, List.length_map]
      omega

/--
**Ingest takes a packet as it was meant exactly when no synthetic channel has more than 54 units.**

The device is a uuid by the schema's check, and a float is printed the way JSON spells its value.
-/
theorem packet_accepted_iff {capacity : ℕ} {device : Text} {sequence : ℕ} {timestamp : ℤ}
    {readings : List (Reading ν)} {uptime : ℕ} {text : Text}
    (hprint : ∀ x, JsNumber.isFinite x = true → Spelt Numeral.value (print x))
    (hdevice : isUuid device = true)
    (h : encodeReadings print capacity device sequence timestamp readings uptime = some text) :
    Accepted print text device sequence timestamp readings uptime ↔
      ∀ r ∈ readings, r.synthetic = true → r.channel.length ≤ 54 := by
  have hencodable := (encodeReadings_eq_some h).2
  have hfinite : ∀ r ∈ readings, Spelt Numeral.value (print r.value) := by
    intro r hr
    have hr' := hencodable.readings r hr
    simp only [Reading.valid, Bool.and_eq_true] at hr'
    exact hprint r.value hr'.1.1.1.1.1.2
  rw [← packetEnvelope_valid_iff print hencodable hdevice]
  constructor
  · intro haccepted
    obtain ⟨j, -, he⟩ := haccepted
    exact Envelope.valid_of_safeParse he
  · intro hvalid
    exact ⟨_, parse_encoded h hfinite, Envelope.safeParse_toJson hvalid⟩

namespace Bench

def stubbed (channel : Text) : Reading ℚ := ⟨channel, 21, 0, 100, true⟩

def longChannel : Text := List.replicate 64 97

def packet (channel : Text) : Option Text :=
  encodeReadings printWhole 1024 device 0 1700000000 [stubbed channel] 60

end Bench

/-- A stubbed reading of an ordinary channel is taken. -/
theorem packet_accepted_bench : ∃ text, Bench.packet (js "soil_moisture") = some text ∧
    Accepted Bench.printWhole text Bench.device 0 1700000000 [Bench.stubbed (js "soil_moisture")] 60 := by
  have hsome : (Bench.packet (js "soil_moisture")).isSome = true := by decide +kernel
  obtain ⟨text, htext⟩ := Option.isSome_iff_exists.mp hsome
  refine ⟨text, htext, (packet_accepted_iff ?_ (by decide) htext).mpr (by decide)⟩
  intro x _
  exact spelt_ofInt x.floor

/-- **A packet the encoder writes and ingest refuses**: its one health entry has 74 units. -/
theorem long_synthetic_refused : isUuid Bench.device = true ∧
    ∃ text, Bench.packet Bench.longChannel = some text ∧
      ¬ Accepted Bench.printWhole text Bench.device 0 1700000000 [Bench.stubbed Bench.longChannel] 60 := by
  have hsome : (Bench.packet Bench.longChannel).isSome = true := by decide +kernel
  obtain ⟨text, htext⟩ := Option.isSome_iff_exists.mp hsome
  refine ⟨by decide, text, htext, ?_⟩
  intro haccepted
  obtain ⟨j, -, he⟩ := haccepted
  have hvalid := Envelope.valid_of_safeParse he
  rw [packetEnvelope_valid_iff _ (encodeReadings_eq_some htext).2 (by decide)] at hvalid
  exact absurd (hvalid _ (List.mem_singleton_self _) rfl) (by decide)

end Albusforge.Firmware
