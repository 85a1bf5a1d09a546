import Albusforge.Lib.Json

/-!
# What travels between a device and ingest

`packages/schema/src/telemetry.ts`: the envelope a device sends, the channels it was
provisioned with, the acknowledgement it gets. An envelope is read out of whatever
JSON the request carries (`TelemetryEnvelope.safeParse`), and `JSON.stringify` of it
is its canonical text, members in schema order. **The canonical text tells the
envelope** (`canonical_injective`), which is why a hash of it may stand for the
payload.
-/

namespace Albusforge.Cloudlink

open Lib Lib.Json

/-- `/^[a-z][a-z0-9_]{0,63}$/` -/
def isChannelName : Text → Bool
  | [] => false
  | u :: rest => isLower u && decide (rest.length ≤ 63) &&
      rest.all fun w => isLower w || isDigit w || w = 95

def isHex (u : ℕ) : Bool := isDigit u || (97 ≤ u && u ≤ 102) || (65 ≤ u && u ≤ 70)

/-- `z.uuid()`: five groups of digits, a version and a variant, or one of the two constants. -/
def isUuid (t : Text) : Bool :=
  let groups := split hyphen t
  groups.map List.length = [8, 4, 4, 4, 12] && groups.all (fun g => g.all isHex) &&
    ((49 ≤ t.getD 14 0 && t.getD 14 0 ≤ 56 &&
        [56, 57, 97, 98, 65, 66].contains (t.getD 19 0)) ||
      t.all (fun u => u = hyphen || u = 48) || t.all (fun u => u = hyphen || u = 102))

def uuidOf (t : Text) : Text := t.map fun u => if isUpper u then u + 32 else u

section Wire

variable (ν : Type)

/-- One item of `r`. -/
structure WireReading where
  c : Text
  t : ℤ
  v : ν
  deriving DecidableEq

/-- `st` -/
structure WireStatus where
  battMv : Option ℤ
  rssi : Option ℤ
  upS : ℤ
  health : List Text
  deriving DecidableEq

/-- `TelemetryEnvelope`. Its version is always 1. -/
structure Envelope where
  dev : Text
  seq : ℤ
  ts : ℤ
  r : List (WireReading ν)
  st : WireStatus
  deriving DecidableEq

end Wire

variable {ν : Type} [JsonNumber ν]

def maxTime : ℤ := 253402300799

def WireReading.safeParse (j : Json ν) : Option (WireReading ν) := do
  let members ← strictObject [js "c", js "t", js "v"] j
  let c ← member members (js "c") (string isChannelName)
  let t ← member members (js "t") (integer (-7776000) maxTime)
  let v ← member members (js "v") finite
  pure ⟨c, t, v⟩

def isHealthCode (t : Text) : Bool := decide (1 ≤ t.length ∧ t.length ≤ 64)

def WireStatus.safeParse (j : Json ν) : Option WireStatus := do
  let members ← strictObject [js "batt_mv", js "rssi", js "up_s", js "health"] j
  let battMv ← optionalMember members (js "batt_mv") (integer 0 100000)
  let rssi ← optionalMember members (js "rssi") (integer (-150) 0)
  let upS ← member members (js "up_s") (integer 0 maxSafeInteger)
  let health ← member members (js "health") (array (string isHealthCode) 0 16)
  pure ⟨battMv, rssi, upS, health⟩

/-- `TelemetryEnvelope.safeParse(body)` -/
def Envelope.safeParse (j : Json ν) : Option (Envelope ν) := do
  let members ← strictObject [js "v", js "dev", js "seq", js "ts", js "r", js "st"] j
  let _ ← member members (js "v") (integer 1 1)
  let dev ← member members (js "dev") (string isUuid)
  let seq ← member members (js "seq") (integer 0 maxSafeInteger)
  let ts ← member members (js "ts") (integer 1 maxTime)
  let r ← member members (js "r") (array WireReading.safeParse 1 500)
  let st ← member members (js "st") WireStatus.safeParse
  pure ⟨dev, seq, ts, r, st⟩

/-! ## The canonical text -/

def int (z : ℤ) : Json ν := .num (JsonNumber.ofInt z)

def WireReading.toJson (x : WireReading ν) : Json ν :=
  .obj [(js "c", .str x.c), (js "t", int x.t), (js "v", .num x.v)]

def optionalInt (name : Text) : Option ℤ → List (Text × Json ν)
  | none => []
  | some z => [(name, int z)]

def WireStatus.toJson (s : WireStatus) : Json ν :=
  .obj (optionalInt (js "batt_mv") s.battMv ++ optionalInt (js "rssi") s.rssi ++
    [(js "up_s", int s.upS), (js "health", .arr (s.health.map .str))])

def Envelope.toJson (e : Envelope ν) : Json ν :=
  .obj [(js "v", int 1), (js "dev", .str e.dev), (js "seq", int e.seq), (js "ts", int e.ts),
    (js "r", .arr (e.r.map WireReading.toJson)), (js "st", e.st.toJson)]

/-- `JSON.stringify(envelope)` -/
def canonical (e : Envelope ν) : Text := stringify e.toJson

def unitBytes (u : ℕ) : ℕ := if u < 0x80 then 1 else if u < 0x800 then 2 else 3

/-- `Buffer.byteLength(text)` -/
def byteLength : Text → ℕ
  | [] => 0
  | [u] => unitBytes u
  | u :: v :: rest =>
      if isHighSurrogate u && isLowSurrogate v then 4 + byteLength rest
      else unitBytes u + byteLength (v :: rest)

/-! ## What an accepted envelope is -/

structure WireReading.Valid (x : WireReading ν) : Prop where
  channel : isChannelName x.c = true
  time : -7776000 ≤ x.t ∧ x.t ≤ maxTime
  value : JsNumber.isFinite x.v = true

structure WireStatus.Valid (s : WireStatus) : Prop where
  battMv : ∀ z ∈ s.battMv, 0 ≤ z ∧ z ≤ 100000
  rssi : ∀ z ∈ s.rssi, -150 ≤ z ∧ z ≤ 0
  upS : 0 ≤ s.upS ∧ s.upS ≤ maxSafeInteger
  health : s.health.length ≤ 16
  codes : ∀ t ∈ s.health, isHealthCode t = true

structure Envelope.Valid (e : Envelope ν) : Prop where
  dev : isUuid e.dev = true
  seq : 0 ≤ e.seq ∧ e.seq ≤ maxSafeInteger
  ts : 1 ≤ e.ts ∧ e.ts ≤ maxTime
  count : 1 ≤ e.r.length ∧ e.r.length ≤ 500
  readings : ∀ x ∈ e.r, x.Valid
  st : e.st.Valid

/-- **What the schema accepts is valid.** -/
theorem WireReading.valid_of_safeParse {j : Json ν} {x : WireReading ν}
    (h : WireReading.safeParse j = some x) : x.Valid := by
  simp only [WireReading.safeParse, Option.bind_eq_bind, Option.bind_eq_some_iff] at h
  obtain ⟨members, -, c, hc, t, ht, v, hv, hx⟩ := h
  obtain ⟨jc, hc⟩ := member_eq_some hc
  obtain ⟨jt, ht⟩ := member_eq_some ht
  obtain ⟨jv, hv⟩ := member_eq_some hv
  obtain rfl := Option.some.inj hx
  exact ⟨string_eq_some hc, integer_eq_some ht, finite_eq_some hv⟩

theorem WireStatus.valid_of_safeParse {j : Json ν} {s : WireStatus}
    (h : WireStatus.safeParse j = some s) : s.Valid := by
  simp only [WireStatus.safeParse, Option.bind_eq_bind, Option.bind_eq_some_iff] at h
  obtain ⟨members, -, battMv, hbatt, rssi, hrssi, upS, hup, health, hhealth, hs⟩ := h
  obtain ⟨ju, hup⟩ := member_eq_some hup
  obtain ⟨jh, hhealth⟩ := member_eq_some hhealth
  obtain ⟨hlen, hcodes⟩ := array_eq_some hhealth
  obtain rfl := Option.some.inj hs
  refine ⟨?_, ?_, integer_eq_some hup, hlen.2, ?_⟩
  · intro z hz
    obtain ⟨_, hj⟩ := optionalMember_eq_some hbatt z hz
    exact integer_eq_some hj
  · intro z hz
    obtain ⟨_, hj⟩ := optionalMember_eq_some hrssi z hz
    exact integer_eq_some hj
  · intro t ht
    obtain ⟨_, hj⟩ := hcodes t ht
    exact string_eq_some hj

theorem Envelope.valid_of_safeParse {j : Json ν} {e : Envelope ν}
    (h : Envelope.safeParse j = some e) : e.Valid := by
  simp only [Envelope.safeParse, Option.bind_eq_bind, Option.bind_eq_some_iff] at h
  obtain ⟨members, -, _, -, dev, hdev, seq, hseq, ts, hts, r, hr, st, hst, he⟩ := h
  obtain ⟨_, hdev⟩ := member_eq_some hdev
  obtain ⟨_, hseq⟩ := member_eq_some hseq
  obtain ⟨_, hts⟩ := member_eq_some hts
  obtain ⟨_, hr⟩ := member_eq_some hr
  obtain ⟨_, hst⟩ := member_eq_some hst
  obtain ⟨hlen, hitems⟩ := array_eq_some hr
  obtain rfl := Option.some.inj he
  refine ⟨string_eq_some hdev, integer_eq_some hseq, integer_eq_some hts, hlen, ?_,
    WireStatus.valid_of_safeParse hst⟩
  intro x hx
  obtain ⟨_, hj⟩ := hitems x hx
  exact WireReading.valid_of_safeParse hj

/-! ## Reading back -/

variable [LawfulJson ν]

theorem integer_int {lo hi z : ℤ} (hz : lo ≤ z ∧ z ≤ hi) (hlo : -maxSafeInteger ≤ lo)
    (hhi : hi ≤ maxSafeInteger) : integer lo hi (int z : Json ν) = some z := by
  have hread : JsonNumber.toInt (JsonNumber.ofInt z : ν) = some z :=
    LawfulJson.toInt_ofInt z (hlo.trans hz.1) (hz.2.trans hhi)
  simp [integer, int, hread, hz]

theorem WireReading.safeParse_toJson {x : WireReading ν} (h : x.Valid) :
    WireReading.safeParse x.toJson = some x := by
  have ht : integer (-7776000) maxTime (int x.t : Json ν) = some x.t :=
    integer_int h.time (by decide) (by decide)
  simp [WireReading.safeParse, WireReading.toJson, strictObject, member, List.lookup_cons, js, codeUnits,
    string, h.channel, ht, finite, h.value]

theorem WireStatus.safeParse_toJson {s : WireStatus} (h : s.Valid) :
    WireStatus.safeParse (s.toJson : Json ν) = some s := by
  have hup : integer 0 maxSafeInteger (int s.upS : Json ν) = some s.upS :=
    integer_int h.upS (by decide) (by decide)
  have hhealth : array (string isHealthCode) 0 16 (.arr (s.health.map .str) : Json ν) =
      some s.health := by
    simp only [array, List.length_map, Nat.zero_le, true_and, if_pos h.health]
    exact mapM_map_eq_some fun t ht => by simp [string, h.codes t ht]
  have hbatt : ∀ z ∈ s.battMv, integer 0 100000 (int z : Json ν) = some z := by
    intro z hz
    exact integer_int (h.battMv z hz) (by decide) (by decide)
  have hrssi : ∀ z ∈ s.rssi, integer (-150) 0 (int z : Json ν) = some z := by
    intro z hz
    exact integer_int (h.rssi z hz) (by decide) (by decide)
  obtain ⟨battMv, rssi, upS, health⟩ := s
  -- the two optional members are each there or not
  cases battMv <;> cases rssi <;>
    simp_all [WireStatus.safeParse, WireStatus.toJson, optionalInt, strictObject, member,
      optionalMember, List.lookup_cons, js, codeUnits]

theorem Envelope.safeParse_toJson {e : Envelope ν} (h : e.Valid) :
    Envelope.safeParse e.toJson = some e := by
  have hv : integer 1 1 (int 1 : Json ν) = some 1 := integer_int (by decide) (by decide) (by decide)
  have hseq : integer 0 maxSafeInteger (int e.seq : Json ν) = some e.seq :=
    integer_int h.seq (by decide) (by decide)
  have hts : integer 1 maxTime (int e.ts : Json ν) = some e.ts :=
    integer_int h.ts (by decide) (by decide)
  have hr : array WireReading.safeParse 1 500 (.arr (e.r.map WireReading.toJson) : Json ν) =
      some e.r := by
    simp only [array, List.length_map, if_pos h.count]
    exact mapM_map_eq_some fun x hx => WireReading.safeParse_toJson (h.readings x hx)
  have hst : WireStatus.safeParse (e.st.toJson : Json ν) = some e.st :=
    WireStatus.safeParse_toJson h.st
  simp [Envelope.safeParse, Envelope.toJson, strictObject, member, List.lookup_cons, js, codeUnits,
    string, h.dev, hv, hseq, hts, hr, hst]

theorem canonical_injective {e e' : Envelope ν} (h : e.Valid) (h' : e'.Valid)
    (heq : canonical e = canonical e') : e = e' := by
  have hjson : e.toJson = e'.toJson := stringify_injective heq
  have hread := Envelope.safeParse_toJson h
  rw [hjson, Envelope.safeParse_toJson h'] at hread
  exact (Option.some.inj hread).symm

end Albusforge.Cloudlink
