import Albusforge.Lib.Serial
import Albusforge.Cloudlink.Tables

/-!
# Ingest

`apps/cloudlink/src/routes.ts`: one request, one transaction. It locks the device's
row, reads what it needs, and either answers without having written anything or runs
all of its statements. Any of them may be the last one the session gets to run, and
then nothing of it stays.

`ingest_runs` says once what a run of the transaction can do: everything, or nothing.
-/

namespace Albusforge.Cloudlink

open Lib Lib.Json

/-- `IngestError`: a status and a code. -/
structure Rejection where
  statusCode : ℕ
  code : Text
  deriving DecidableEq

inductive Answer where
  | stored (ack : Ack)
  | replayed (ack : Ack)
  | rejected (e : Rejection)
  | unavailable
  deriving DecidableEq

inductive Request (ν : Type) where
  | malformed (status : ℕ)
  /-- `POST /ingest/v1`: the header, the parsed body, and `now()` in milliseconds. -/
  | post (authorization : Option Text) (body : Json ν) (received : ℤ)

structure Outcome (ν : Type) where
  request : Request ν
  capabilities : List (Capability ν)
  answer : Answer

variable {ν : Type} [JsonNumber ν]

/-! ## Checks -/

/-- `[A-Za-z0-9_-]` -/
def isTokenUnit (u : ℕ) : Bool := isLower u || isUpper u || isDigit u || u = 95 || u = hyphen

/-- `/^Bearer ([A-Za-z0-9_-]{43})$/` -/
def bearerToken (authorization : Option Text) : Option Text :=
  let header := authorization.getD []
  let token := header.drop 7
  if header.take 7 = js "Bearer " ∧ token.length = 43 ∧ token.all isTokenUnit then some token
  else none

def Capability.measures (c : Capability ν) : Bool :=
  c.enabled && c.kind == js "measurement" && c.payloadSchema == js "readings.v1"

/-- Whether the readings' channels are covered; `none` where `TelemetryChannels.parse` throws. A
device without capabilities has its channels only. -/
def authorizes (capabilities : List (Capability ν)) (e : Envelope ν) : Option Bool :=
  if capabilities.isEmpty then some true
  else
    let measuring := capabilities.filter Capability.measures
    if measuring.all fun c => c.channels.accepted then
      some (e.r.all fun x => (measuring.flatMap fun c => c.channels.keys).contains x.c)
    else none

/-- `validTime(t)`: at most 90 days old, at most five minutes ahead. -/
def validTime (seconds t : ℤ) : Bool := seconds - 90 * 86400 ≤ t && t ≤ seconds + 300

def outOfRange : Text := js "timestamp_out_of_range"

def absolute (e : Envelope ν) (x : WireReading ν) : ℤ := if x.t < 0 then e.ts + x.t else x.t

def normalizeReading (channels : Channels ν) (e : Envelope ν) (seconds : ℤ) (x : WireReading ν)
    (ordinal : ℕ) : Except Rejection (Row ν) :=
  match channels.get x.c with
  | none => .error ⟨422, js "unknown_channel"⟩
  | some channel =>
      if JsNumber.lt x.v channel.min || JsNumber.gt x.v channel.max then
        .error ⟨422, js "value_out_of_range"⟩
      else if !validTime seconds (absolute e x) || e.ts < absolute e x then
        .error ⟨422, outOfRange⟩
      else .ok ⟨e.seq, ordinal, x.c, absolute e x, x.v⟩

/-- `envelope.r.map(...)`, from place `ordinal` on. The first failure is the answer. -/
def normalize (channels : Channels ν) (e : Envelope ν) (seconds : ℤ) :
    List (WireReading ν) → ℕ → Except Rejection (List (Row ν))
  | [], _ => .ok []
  | x :: rest, ordinal => do
      let row ← normalizeReading channels e seconds x ordinal
      let rows ← normalize channels e seconds rest (ordinal + 1)
      pure (row :: rows)

def admission (channels : Channels ν) (e : Envelope ν) (received : ℤ) : Except Rejection (List (Row ν)) :=
  let seconds := received / 1000
  if !validTime seconds e.ts then .error ⟨422, outOfRange⟩
  else normalize channels e seconds e.r 0

/-! ## The transaction -/

section

variable (tokenHash : Text → Text)

/-- `bearerHash(request.headers.authorization)` -/
def bearerHash (authorization : Option Text) : Option Text := (bearerToken authorization).map tokenHash

/-- `tokenHash(canonical)` -/
def fingerprint (e : Envelope ν) : Text := tokenHash (canonical e)

/-- `INSERT INTO telemetry.readings` up to the end. The insertion's trigger refuses a reading
older than what is kept; the other statements do not fail. -/
def storeRest (q : Request ν) (capabilities : List (Capability ν)) (e : Envelope ν) (received : ℤ)
    (ack : Ack) (rows : List (Row ν)) : Prog (DeviceTables ν) (Shared ν) (Outcome ν) :=
  .stmt (fun _ s => insertReadings rows s) fun g _ =>
    if rows.any fun r => r.ts < g.rawBefore then
      .finish ⟨q, capabilities, .rejected ⟨422, outOfRange⟩⟩ false
    else
      .write (fun _ s => upsertLatest rows s) <|
      .write (fun _ s => updateDevice received e.seq e.st s) <|
      .write (fun _ s => addUsage (period received) rows.length (byteLength (canonical e)) s) <|
      .write (fun g s => upsertPresence (g.capabilities (uuidOf e.dev)) rows received s) <|
      .finish ⟨q, capabilities, .stored ack⟩ true

def storeNew (q : Request ν) (capabilities : List (Capability ν)) (e : Envelope ν) (received : ℤ)
    (device : Device ν) : Prog (DeviceTables ν) (Shared ν) (Outcome ν) :=
  if !device.channels.accepted then .finish ⟨q, capabilities, .unavailable⟩ false
  else
    match admission device.channels e received with
    | .error err => .finish ⟨q, capabilities, .rejected err⟩ false
    | .ok rows =>
        let ack : Ack := ⟨rows.length, device.nextS⟩
        if !ack.accepted then .finish ⟨q, capabilities, .unavailable⟩ false
        else
          .write (fun _ s => insertPacket e.seq ⟨fingerprint tokenHash e, ack⟩ s) <|
          storeRest q capabilities e received ack rows

def answerPrior (q : Request ν) (capabilities : List (Capability ν)) (e : Envelope ν)
    (prior : Packet) : Prog (DeviceTables ν) (Shared ν) (Outcome ν) :=
  if prior.fingerprint ≠ fingerprint tokenHash e then
    .finish ⟨q, capabilities, .rejected ⟨409, js "sequence_conflict"⟩⟩ false
  else if prior.response.accepted then .finish ⟨q, capabilities, .replayed prior.response⟩ true
  else .finish ⟨q, capabilities, .unavailable⟩ true

def ingestBody (q : Request ν) (e : Envelope ν) (received : ℤ) :
    Prog (DeviceTables ν) (Shared ν) (Outcome ν) :=
  .read fun g s =>
    let capabilities := g.capabilities (uuidOf e.dev)
    match s.device, authorizes capabilities e with
    | none, _ => .finish ⟨q, capabilities, .unavailable⟩ false
    | some _, none => .finish ⟨q, capabilities, .unavailable⟩ false
    | some _, some false =>
        .finish ⟨q, capabilities, .rejected ⟨403, js "capability_forbidden"⟩⟩ false
    | some device, some true =>
        .read fun _ s =>
          match s.packets e.seq with
          | some prior => answerPrior tokenHash q capabilities e prior
          | none => storeNew tokenHash q capabilities e received device

def refused (q : Request ν) (e : Rejection) :
    Transaction (DeviceTables ν) (Shared ν) (Outcome ν) :=
  { unmatched := fun _ => some ⟨q, [], .rejected e⟩
    body := .finish ⟨q, [], .rejected e⟩ false }

/-- The row `WHERE id=$1 AND token_hash=$2 AND revoked_at IS NULL`. -/
def matchesDevice (credentialHash : Text) (s : DeviceTables ν) : Bool :=
  match s.device with
  | none => false
  | some d => d.tokenHash == credentialHash && !d.revoked

def ingest (q : Request ν) : Transaction (DeviceTables ν) (Shared ν) (Outcome ν) :=
  match q with
  | .malformed status => refused q ⟨status, js "invalid_request"⟩
  | .post authorization body received =>
      match bearerHash tokenHash authorization with
      | none => refused q ⟨401, js "unauthorized"⟩
      | some credentialHash =>
          match Envelope.safeParse body with
          | none => refused q ⟨400, js "invalid_envelope"⟩
          | some e =>
              { unmatched := fun s =>
                  if matchesDevice credentialHash s then none
                  else some ⟨q, [], .rejected ⟨401, js "unauthorized"⟩⟩
                body := ingestBody tokenHash q e received }

def Request.device : Request ν → Text
  | .malformed _ => []
  | .post _ body _ => (Envelope.safeParse body).elim [] fun e => uuidOf e.dev

end

/-! ## What a run of the transaction can do -/

def rowsOf (e : Envelope ν) : List (WireReading ν) → ℕ → List (Row ν)
  | [], _ => []
  | x :: rest, ordinal =>
      ⟨e.seq, ordinal, x.c, absolute e x, x.v⟩ :: rowsOf e rest (ordinal + 1)

theorem normalizeReading_ok {channels : Channels ν} {e : Envelope ν} {seconds : ℤ}
    {x : WireReading ν} {ordinal : ℕ} {row : Row ν}
    (h : normalizeReading channels e seconds x ordinal = .ok row) :
    row = ⟨e.seq, ordinal, x.c, absolute e x, x.v⟩ ∧
      validTime seconds row.ts = true ∧ row.ts ≤ e.ts := by
  unfold normalizeReading at h
  split at h
  · simp at h
  split at h
  · simp at h
  split at h
  · simp at h
  · rename_i hts
    obtain rfl := Except.ok.inj h
    simp only [Bool.or_eq_true, Bool.not_eq_true', decide_eq_true_eq, not_or, not_lt] at hts
    exact ⟨rfl, by simpa using hts.1, hts.2⟩

theorem normalize_ok {channels : Channels ν} {e : Envelope ν} {seconds : ℤ} :
    ∀ {xs : List (WireReading ν)} {ordinal : ℕ} {rows : List (Row ν)},
      normalize channels e seconds xs ordinal = .ok rows → rows = rowsOf e xs ordinal
  | [], _, rows, h => (Except.ok.inj h).symm
  | x :: xs, ordinal, rows, h => by
      rcases hx : normalizeReading channels e seconds x ordinal with _ | row
      · rw [normalize, hx] at h
        exact absurd h (by simp [bind, Except.bind])
      rcases hxs : normalize channels e seconds xs (ordinal + 1) with _ | rest
      · rw [normalize, hx, hxs] at h
        exact absurd h (by simp [bind, Except.bind])
      · rw [normalize, hx, hxs] at h
        obtain rfl : row :: rest = rows := Except.ok.inj h
        rw [(normalizeReading_ok hx).1, normalize_ok hxs]
        rfl

theorem admission_ok {channels : Channels ν} {e : Envelope ν} {received : ℤ} {rows : List (Row ν)}
    (h : admission channels e received = .ok rows) :
    validTime (received / 1000) e.ts = true ∧ rows = rowsOf e e.r 0 := by
  unfold admission at h
  dsimp only at h
  split at h
  · simp at h
  · rename_i hts
    exact ⟨by simpa using hts, normalize_ok h⟩

def store (capabilities : List (Capability ν)) (e : Envelope ν) (received : ℤ) (p : Packet)
    (rows : List (Row ν)) (s : DeviceTables ν) : DeviceTables ν :=
  upsertPresence capabilities rows received <|
    addUsage (period received) rows.length (byteLength (canonical e)) <|
      updateDevice received e.seq e.st <| upsertLatest rows <| insertReadings rows <|
        insertPacket e.seq p s

section

variable (capabilities : List (Capability ν)) (e : Envelope ν) (received : ℤ) (p : Packet)
  (rows : List (Row ν)) (s : DeviceTables ν)

@[simp] theorem store_packets : (store capabilities e received p rows s).packets =
    Function.update s.packets e.seq (some p) := rfl

@[simp] theorem store_readings : (store capabilities e received p rows s).readings =
    s.readings + rows := rfl

@[simp] theorem store_usage : (store capabilities e received p rows s).usage =
    Function.update s.usage (period received)
      (some (Usage.add (s.usage (period received)) rows.length (byteLength (canonical e)))) := rfl

@[simp] theorem store_device : (store capabilities e received p rows s).device =
    s.device.map (Device.touch received e.seq e.st) := rfl

@[simp] theorem store_latest (channel : Text) :
    (store capabilities e received p rows s).latest channel =
      upsert latestKey (s.latest channel) (distinctOn channel rows) := rfl

@[simp] theorem store_dirtyHours (channel : Text) (hour : ℤ) :
    (store capabilities e received p rows s).dirtyHours channel hour =
      (s.dirtyHours channel hour ||
        rows.any fun r => r.channel == channel && hourOf r.ts == hour) := rfl

@[simp] theorem store_presence (id : Text) :
    (store capabilities e received p rows s).presence id =
      match (captures capabilities id rows).foldl greatest none with
      | none => s.presence id
      | some t => some (Presence.raise (s.presence id) t received) := rfl

end

variable (tokenHash : Text → Text)

/--
The exits of the transaction: from tables `s` with view `s'`, an outcome, and whether
it commits.
-/
inductive Exit (q : Request ν) (e : Envelope ν) (received : ℤ) (s : DeviceTables ν) :
    DeviceTables ν → Outcome ν → Bool → Prop
  | broken (capabilities : List (Capability ν)) :
      s.device = none ∨ authorizes capabilities e = none ∨ s.packets e.seq = none →
      Exit q e received s s ⟨q, capabilities, .unavailable⟩ false
  | forbidden (capabilities : List (Capability ν)) : authorizes capabilities e = some false →
      Exit q e received s s ⟨q, capabilities, .rejected ⟨403, js "capability_forbidden"⟩⟩ false
  | conflict (capabilities : List (Capability ν)) (prior : Packet) :
      s.packets e.seq = some prior → prior.fingerprint ≠ fingerprint tokenHash e →
      Exit q e received s s ⟨q, capabilities, .rejected ⟨409, js "sequence_conflict"⟩⟩ false
  | replay (capabilities : List (Capability ν)) (prior : Packet) :
      s.packets e.seq = some prior → prior.fingerprint = fingerprint tokenHash e →
      Exit q e received s s ⟨q, capabilities,
        if prior.response.accepted then .replayed prior.response else .unavailable⟩ true
  | unfit (capabilities : List (Capability ν)) (device : Device ν) (err : Rejection) :
      s.device = some device → s.packets e.seq = none →
      admission device.channels e received = .error err →
      Exit q e received s s ⟨q, capabilities, .rejected err⟩ false
  | late (capabilities : List (Capability ν)) (s' : DeviceTables ν) : s.packets e.seq = none →
      Exit q e received s s' ⟨q, capabilities, .rejected ⟨422, outOfRange⟩⟩ false
  | stored (capabilities present : List (Capability ν)) (device : Device ν) (rows : List (Row ν)) :
      s.device = some device → authorizes capabilities e = some true →
      s.packets e.seq = none → device.channels.accepted = true →
      admission device.channels e received = .ok rows →
      (⟨rows.length, device.nextS⟩ : Ack).accepted = true →
      Exit q e received s
        (store present e received ⟨fingerprint tokenHash e, ⟨rows.length, device.nextS⟩⟩ rows s)
        ⟨q, capabilities, .stored ⟨rows.length, device.nextS⟩⟩ true

/-- **A run of the transaction ends in one of its exits.** -/
theorem ingestBody_runs {q : Request ν} {e : Envelope ν} {received : ℤ} {s s' : DeviceTables ν}
    {o : Outcome ν} {c : Bool} (h : Runs (ingestBody tokenHash q e received) s s' o c) :
    Exit tokenHash q e received s s' o c := by
  obtain ⟨g, h⟩ := h.stmt_inv
  dsimp only at h
  split at h
  · rename_i hdev
    obtain ⟨rfl, rfl, rfl⟩ := h.finish_inv
    exact Exit.broken _ (Or.inl hdev)
  · rename_i hauth
    obtain ⟨rfl, rfl, rfl⟩ := h.finish_inv
    exact Exit.broken _ (Or.inr (Or.inl hauth))
  · rename_i hauth
    obtain ⟨rfl, rfl, rfl⟩ := h.finish_inv
    exact Exit.forbidden _ hauth
  · rename_i device hdev hauth
    obtain ⟨g', h⟩ := h.stmt_inv
    split at h
    · rename_i prior hprior
      unfold answerPrior at h
      split at h
      · rename_i hne
        obtain ⟨rfl, rfl, rfl⟩ := h.finish_inv
        exact Exit.conflict _ prior hprior hne
      · rename_i heq
        have hreplay : Exit tokenHash q e received s s _ true :=
          Exit.replay (g.capabilities (uuidOf e.dev)) prior hprior (not_not.mp heq)
        split at h
        · rename_i hok
          obtain ⟨rfl, rfl, rfl⟩ := h.finish_inv
          rwa [if_pos hok] at hreplay
        · rename_i hbad
          obtain ⟨rfl, rfl, rfl⟩ := h.finish_inv
          rwa [if_neg hbad] at hreplay
    · rename_i hnone
      unfold storeNew at h
      split at h
      · obtain ⟨rfl, rfl, rfl⟩ := h.finish_inv
        exact Exit.broken _ (Or.inr (Or.inr hnone))
      rename_i hchannels
      split at h
      · rename_i err herr
        obtain ⟨rfl, rfl, rfl⟩ := h.finish_inv
        exact Exit.unfit _ device err hdev hnone herr
      rename_i rows hrows
      dsimp only at h
      split at h
      · obtain ⟨rfl, rfl, rfl⟩ := h.finish_inv
        exact Exit.broken _ (Or.inr (Or.inr hnone))
      rename_i hack
      obtain ⟨_, h⟩ := h.stmt_inv
      unfold storeRest at h
      obtain ⟨g₂, h⟩ := h.stmt_inv
      split at h
      · obtain ⟨rfl, rfl, rfl⟩ := h.finish_inv
        exact Exit.late _ _ hnone
      · -- past the trigger nothing fails
        obtain ⟨_, h⟩ := h.stmt_inv
        obtain ⟨_, h⟩ := h.stmt_inv
        obtain ⟨_, h⟩ := h.stmt_inv
        obtain ⟨g₃, h⟩ := h.stmt_inv
        obtain ⟨rfl, rfl, rfl⟩ := h.finish_inv
        exact Exit.stored _ (g₃.capabilities (uuidOf e.dev)) device rows hdev hauth hnone
          (by simpa using hchannels) hrows (by simpa using hack)

theorem Exit.all_or_nothing {q : Request ν} {e : Envelope ν} {received : ℤ}
    {s s' : DeviceTables ν} {o : Outcome ν} {c : Bool} (h : Exit tokenHash q e received s s' o c) :
    ((∀ ack, o.answer ≠ .stored ack) ∧ (if c then s' else s) = s) ∨
      ∃ present ack, o.answer = .stored ack ∧ ack.accepted = true ∧ s.packets e.seq = none ∧
        (if c then s' else s) =
          store present e received ⟨fingerprint tokenHash e, ack⟩ (rowsOf e e.r 0) s := by
  cases h with
  | replay capabilities prior =>
      refine Or.inl ⟨?_, rfl⟩
      intro ack
      dsimp only
      split <;> simp
  | stored capabilities present device rows hdev hauth hnone hchannels hrows hack =>
      refine Or.inr ⟨present, _, rfl, hack, hnone, ?_⟩
      rw [if_pos rfl, (admission_ok hrows).2]
  | _ => exact Or.inl ⟨by simp, rfl⟩

theorem Exit.request {q : Request ν} {e : Envelope ν} {received : ℤ} {s s' : DeviceTables ν}
    {o : Outcome ν} {c : Bool} (h : Exit tokenHash q e received s s' o c) : o.request = q := by
  cases h <;> rfl

theorem ingest_matched {q : Request ν} {s : DeviceTables ν}
    (h : (ingest tokenHash q).unmatched s = none) :
    ∃ authorization body received credentialHash e, q = .post authorization body received ∧
      bearerHash tokenHash authorization = some credentialHash ∧
      Envelope.safeParse body = some e ∧ matchesDevice credentialHash s = true ∧
      (ingest tokenHash q).body = ingestBody tokenHash q e received := by
  cases q with
  | malformed status => simp [ingest, refused] at h
  | post authorization body received =>
      rcases hhash : bearerHash tokenHash authorization with _ | credentialHash
      · simp [ingest, hhash, refused] at h
      rcases hparse : Envelope.safeParse body with _ | e
      · simp [ingest, hhash, hparse, refused] at h
      · refine ⟨authorization, body, received, credentialHash, e, rfl, hhash, hparse, ?_, ?_⟩
        · simpa [ingest, hhash, hparse] using h
        · simp [ingest, hhash, hparse]

theorem ingest_unmatched {q : Request ν} {s : DeviceTables ν} {o : Outcome ν}
    (h : (ingest tokenHash q).unmatched s = some o) :
    o.request = q ∧ ∃ err, o.answer = .rejected err := by
  cases q with
  | malformed status =>
      obtain rfl := Option.some.inj h
      exact ⟨rfl, _, rfl⟩
  | post authorization body received =>
      rcases hhash : bearerHash tokenHash authorization with _ | credentialHash
      · simp only [ingest, hhash, refused, Option.some.injEq] at h
        rw [← h]
        exact ⟨rfl, _, rfl⟩
      rcases hparse : Envelope.safeParse body with _ | e
      · simp only [ingest, hhash, hparse, refused, Option.some.injEq] at h
        rw [← h]
        exact ⟨rfl, _, rfl⟩
      · simp only [ingest, hhash, hparse] at h
        split at h
        · simp at h
        · rw [← Option.some.inj h]
          exact ⟨rfl, _, rfl⟩

end Albusforge.Cloudlink
