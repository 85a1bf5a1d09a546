import Albusforge.Lib.Civil
import Albusforge.Lib.Keyset
import Albusforge.Lib.Utf8
import Albusforge.Observations.Tables
import Albusforge.Sessions.Request
import Mathlib.Data.Prod.Lex

/-!
# The images of a capability, page by page

`GET /v1/devices/:deviceId/capabilities/:capabilityId/images` (`apps/gateway/src/observation-read.ts`): the newest
first, with a cursor to the next page. The cursor is the pair that the last image of the page is ordered by, as text.

**Following the cursors visits every image that is shown, once, in that order** (`follow_visits`). It rests on the
pair being exact when it comes back: a page ends between images of one instant as well as anywhere else.

What `z.iso.datetime()` accepts and how the database reads a time are parameters. The database counts microseconds.
-/

namespace Albusforge.Observations

open Lib Lib.Json Cloudlink
open Sessions (HttpError encodeSextets decodeSextets sextet sextetUnit underscore)

/-! ## Schemas -/

/-- `SensorCapabilityId` -/
def isSensorCapabilityId (t : Text) : Bool :=
  t.head?.any isLower && t.tail.length ≤ 63 &&
    t.tail.all fun u => isLower u || isDigit u || u = underscore || u = dot || u = hyphen

/-- `ObservationDigest` -/
def isObservationDigest (t : Text) : Bool := t.length = 64 && t.all fun u => isDigit u || (97 ≤ u && u ≤ 102)

structure Params where
  deviceId : Text
  capabilityId : Text
  device_uuid : isUuid deviceId = true
  capability : isSensorCapabilityId capabilityId = true

structure Cursor where
  deviceId : Text
  capabilityId : Text
  capturedAt : Text
  observationId : Text

/-- `Query.limit` -/
structure PageLimit where
  value : ℕ
  pos : 1 ≤ value
  le : value ≤ 100

/-- `ImageObservationMetadata`, but for its literals. -/
structure ImageObservationMetadata where
  deviceId : Text
  capabilityId : Text
  observationId : Text
  sha256 : Text
  bytes : ℕ
  width : ℕ
  height : ℕ
  capturedAt : Text
  receivedAt : Text
  expiresAt : Text
  deriving DecidableEq

structure ImageObservationPage where
  images : List ImageObservationMetadata
  nextCursor : Option Text
  deriving DecidableEq

def missing : HttpError := ⟨404, js "NOT_FOUND", js "Image source not found"⟩
def invalidQuery : HttpError := ⟨400, js "BAD_REQUEST", js "Invalid query"⟩
def invalidCursor : HttpError := ⟨400, js "BAD_REQUEST", js "Invalid image cursor"⟩
def foreignCursor : HttpError := ⟨400, js "BAD_REQUEST", js "Cursor belongs to another source"⟩
def internal : HttpError := ⟨500, js "INTERNAL", js "Internal server error"⟩

def isWithin (hi n : ℕ) : Bool := 1 ≤ n && n ≤ hi

def ImageObservationMetadata.isValid (isDatetime : Text → Bool) (m : ImageObservationMetadata) : Bool :=
  isUuid m.deviceId && isSensorCapabilityId m.capabilityId && isUuidV4 m.observationId &&
    isObservationDigest m.sha256 && isWithin 1048576 m.bytes && isWithin 4096 m.width && isWithin 4096 m.height &&
    isDatetime m.capturedAt && isDatetime m.receivedAt && isDatetime m.expiresAt

def ImageObservationPage.isValid (isDatetime : Text → Bool) (p : ImageObservationPage) : Bool :=
  p.images.length ≤ 100 && p.images.all (·.isValid isDatetime) && p.nextCursor.all fun t => t.length ≤ 2048

/-! ## Cursors -/

def base64Value (u : ℕ) : Option ℕ :=
  if isUpper u || isLower u || isDigit u || u = hyphen || u = underscore then some (sextet u)
  else if u = 43 then some 62 else if u = 47 then some 63 else none

/-- `Buffer.from(text, "base64url").toString("utf8")`. Other units are passed over. -/
def fromBase64url (t : Text) : Text := decodeUtf8 (decodeSextets (t.filterMap base64Value))

/-- `Buffer.from(text).toString("base64url")` -/
def toBase64url (t : Text) : Text := (encodeSextets (encodeUtf8 t)).map sextetUnit

/-- `Cursor.parse(JSON.parse(...))` -/
def parseCursor (isDatetime : Text → Bool) (text : Text) : Option Cursor := do
  let json ← parse (fromBase64url text)
  let members ← strictObject [js "deviceId", js "capabilityId", js "capturedAt", js "observationId"] json
  let deviceId ← member members (js "deviceId") (string isUuid)
  let capabilityId ← member members (js "capabilityId") (string isSensorCapabilityId)
  let capturedAt ← member members (js "capturedAt") (string isDatetime)
  let observationId ← member members (js "observationId") (string isUuidV4)
  some ⟨deviceId, capabilityId, capturedAt, observationId⟩

/-- `{ ...params, capturedAt: last.captured_at.toISOString(), observationId: last.observation_id }` -/
def cursorJson (params : Params) (last : Receipt) : Json ℕ :=
  .obj [(js "deviceId", .str params.deviceId), (js "capabilityId", .str params.capabilityId),
    (js "capturedAt", .str (toISOString last.capturedAt)), (js "observationId", .str last.observationId)]

def cursorText (params : Params) (last : Receipt) : Text := toBase64url (stringify (cursorJson params last))

/-! ## A page -/

def Receipt.place (r : Receipt) : (ℤ ×ₗ Text)ᵒᵈ := OrderDual.toDual (toLex (r.capturedAt, r.observationId))

/-- `state='stored' AND expires_at>statement_timestamp()`, of this capability, joined with its image. -/
def Receipt.isShown (capabilityId : Text) (now : ℤ) (r : Receipt) : Bool :=
  r.capabilityId = capabilityId && (match r.state with | .stored _ => true | _ => false) && now < r.expiresAt &&
    r.image.isSome

/-- `(r.captured_at,r.observation_id)<($3::timestamptz,$4::uuid)`, where there is a cursor. -/
def Receipt.isBefore (cursor : Option (ℤ × Text)) (r : Receipt) : Bool :=
  cursor.all fun c => toLex (1000 * r.capturedAt, r.observationId) < toLex c

def shown (device : Device) (capabilityId : Text) (now : ℤ) : List Receipt :=
  device.receipts.rows.filter (Receipt.isShown capabilityId now)

def projection (deviceId : Text) (r : Receipt) : ImageObservationMetadata where
  deviceId := deviceId
  capabilityId := r.capabilityId
  observationId := r.observationId
  sha256 := r.sha256
  bytes := r.bytes
  width := r.image.elim 0 Image.width
  height := r.image.elim 0 Image.height
  capturedAt := toISOString r.capturedAt
  receivedAt := toISOString (r.receivedAt.getD 0)
  expiresAt := toISOString r.expiresAt

/-- `authorizeSource`, of the device with this identifier. -/
def authorizeSource (device : Device) (tenantId capabilityId : Text) : Except HttpError Unit :=
  require (device.tenantId = tenantId ∧ (device.capabilities capabilityId).any (·.kind = js "image")) missing

section

variable (isDatetime : Text → Bool) (timestamptz : Text → Option ℤ)

def readCursor (params : Params) (cursor : Option Text) : Except HttpError (Option (ℤ × Text)) :=
  match cursor.filter (· ≠ []) with
  | none => .ok none
  | some text => do
      let c ← present (parseCursor isDatetime text) invalidCursor
      require (c.deviceId = params.deviceId ∧ c.capabilityId = params.capabilityId) foreignCursor
      let capturedAt ← present (timestamptz c.capturedAt) internal
      .ok (some (capturedAt, uuidOf c.observationId))

def pageOf (params : Params) (limit : ℕ) (rows : List Receipt) : ImageObservationPage :=
  let page := rows.take limit
  { images := page.map (projection (uuidOf params.deviceId))
    nextCursor := if limit < rows.length then page.getLast?.map (cursorText params) else none }

def listImages (device : Device) (tenantId : Text) (params : Params) (limit : PageLimit) (cursor : Option Text)
    (now : ℤ) : Except HttpError ImageObservationPage := do
  require (∀ t ∈ cursor, t.length ≤ 2048) invalidQuery
  authorizeSource device tenantId params.capabilityId
  let before ← readCursor isDatetime timestamptz params cursor
  let rows := (Keyset.ordered Receipt.place
    ((shown device params.capabilityId now).filter (Receipt.isBefore before))).take (limit.value + 1)
  let body := pageOf params limit.value rows
  require (body.isValid isDatetime) internal
  .ok body

def follow (device : Device) (tenantId : Text) (params : Params) :
    List (PageLimit × ℤ) → Option Text → Except HttpError (List ImageObservationPage)
  | [], _ => .ok []
  | (limit, now) :: rest, cursor => do
      let page ← listImages isDatetime timestamptz device tenantId params limit cursor now
      match page.nextCursor with
      | none => .ok [page]
      | some next => do
          let pages ← follow device tenantId params rest (some next)
          .ok (page :: pages)

end

/-! ## A cursor reads back -/

theorem base64Value_sextetUnit {n : ℕ} (h : n < 64) : base64Value (sextetUnit n) = some n := by
  revert n
  decide

theorem fromBase64url_toBase64url {t : Text} (h : ∀ u ∈ t, u < 128) : fromBase64url (toBase64url t) = t := by
  have hbytes : ∀ u ∈ t, u < 256 := fun u hu => (h u hu).trans (by omega)
  have hvalues : ((encodeSextets t).map sextetUnit).filterMap base64Value = encodeSextets t := by
    have hsextets := Sessions.encodeSextets_lt hbytes
    rw [List.filterMap_map]
    refine (List.filterMap_congr fun n hn => ?_).trans List.filterMap_some
    exact base64Value_sextetUnit (hsextets n hn)
  rw [fromBase64url, toBase64url, encodeUtf8_ascii h, hvalues, Sessions.decodeSextets_encodeSextets hbytes,
    decodeUtf8_ascii h]

theorem isUuid_ascii {t : Text} (h : isUuid t = true) {u : ℕ} (hu : u ∈ t) : u < 128 := by
  obtain ⟨a, b, c, d, e, rfl, -, hhex⟩ := segment_groups (isUuid_segment h)
  have hgroup : ∀ g ∈ [a, b, c, d, e], u ∈ g → u < 128 := by
    intro g hg hmem
    have hdigit := hhex g hg u hmem
    simp only [isHex, isDigit, Bool.or_eq_true, Bool.and_eq_true, decide_eq_true_eq] at hdigit
    omega
  simp only [join, List.mem_append, List.mem_cons] at hu
  rcases hu with hu | hu | hu | hu | hu | hu | hu | hu | hu
  · exact hgroup a (by simp) hu
  · rw [hu]; decide
  · exact hgroup b (by simp) hu
  · rw [hu]; decide
  · exact hgroup c (by simp) hu
  · rw [hu]; decide
  · exact hgroup d (by simp) hu
  · rw [hu]; decide
  · exact hgroup e (by simp) hu

theorem isSensorCapabilityId_ascii {t : Text} (h : isSensorCapabilityId t = true) {u : ℕ} (hu : u ∈ t) : u < 128 := by
  simp only [isSensorCapabilityId, Bool.and_eq_true, List.all_eq_true] at h
  obtain ⟨⟨hhead, -⟩, htail⟩ := h
  cases t with
  | nil => exact absurd hu List.not_mem_nil
  | cons first rest =>
    rcases List.mem_cons.mp hu with hu | hu
    · have hlower : isLower first = true := by simpa using hhead
      simp only [isLower, Bool.and_eq_true, decide_eq_true_eq] at hlower
      omega
    · have hunit := htail u hu
      simp only [isLower, isDigit, underscore, dot, hyphen, Bool.or_eq_true, Bool.and_eq_true, decide_eq_true_eq] at hunit
      omega

theorem isSensorCapabilityId_length {t : Text} (h : isSensorCapabilityId t = true) : t.length ≤ 64 := by
  simp only [isSensorCapabilityId, Bool.and_eq_true, decide_eq_true_eq, List.length_tail] at h
  omega

/-- What the services wrote into a receipt: its identifiers and its digest were checked, its sizes are those of an
image that was accepted, and its times are those of clocks that show a year of four digits. -/
structure Receipt.AsWritten (r : Receipt) : Prop where
  observation : isUuidV4 r.observationId = true
  canonical : uuidOf r.observationId = r.observationId
  capability : isSensorCapabilityId r.capabilityId = true
  digest : isObservationDigest r.sha256 = true
  bytes : isWithin 1048576 r.bytes = true
  size : ∀ i ∈ r.image, isWithin 4096 i.width = true ∧ isWithin 4096 i.height = true
  captured : 0 ≤ r.capturedAt ∧ r.capturedAt ≤ maxInstant
  received : ∀ t ∈ r.receivedAt, 0 ≤ t ∧ t ≤ maxInstant
  expires : 0 ≤ r.expiresAt ∧ r.expiresAt ≤ maxInstant

theorem Receipt.AsWritten.uuid {r : Receipt} (h : r.AsWritten) : isUuid r.observationId = true := by
  have hv4 := h.observation
  simp only [isUuidV4, Bool.and_eq_true] at hv4
  exact hv4.1

structure ReadsIso (isDatetime : Text → Bool) (timestamptz : Text → Option ℤ) : Prop where
  accepts : ∀ t ms, readIso t = some ms → 0 ≤ ms → isDatetime t = true
  reads : ∀ t ms, readIso t = some ms → 0 ≤ ms → timestamptz t = some (1000 * ms)

theorem stringify_cursorJson (params : Params) (last : Receipt) : stringify (cursorJson params last) =
    lbrace :: (quote (js "deviceId") ++ (colon :: (quote params.deviceId ++
      (comma :: (quote (js "capabilityId") ++ (colon :: (quote params.capabilityId ++
      (comma :: (quote (js "capturedAt") ++ (colon :: (quote (toISOString last.capturedAt) ++
      (comma :: (quote (js "observationId") ++ (colon :: (quote last.observationId ++ [rbrace]))))))))))))))) := by
  simp [cursorJson, stringify, stringifyMembers]

theorem cursor_ascii {params : Params} {last : Receipt} (h : last.AsWritten) :
    ∀ u ∈ stringify (cursorJson params last), u < 128 := by
  have hkeys : ∀ k ∈ [js "deviceId", js "capabilityId", js "capturedAt", js "observationId"], ∀ u ∈ k, u < 128 := by
    decide
  intro u hu
  rw [stringify_cursorJson] at hu
  simp only [List.mem_append, List.mem_cons, List.not_mem_nil, or_false] at hu
  rcases hu with hu | hu | hu | hu | hu | hu | hu | hu | hu | hu | hu | hu | hu | hu | hu | hu | hu
  · rw [hu]; decide
  · exact quote_ascii (hkeys _ (by simp)) u hu
  · rw [hu]; decide
  · exact quote_ascii (fun v => isUuid_ascii params.device_uuid) u hu
  · rw [hu]; decide
  · exact quote_ascii (hkeys _ (by simp)) u hu
  · rw [hu]; decide
  · exact quote_ascii (fun v => isSensorCapabilityId_ascii params.capability) u hu
  · rw [hu]; decide
  · exact quote_ascii (hkeys _ (by simp)) u hu
  · rw [hu]; decide
  · exact quote_ascii (fun v => toISOString_ascii) u hu
  · rw [hu]; decide
  · exact quote_ascii (hkeys _ (by simp)) u hu
  · rw [hu]; decide
  · exact quote_ascii (fun v => isUuid_ascii h.uuid) u hu
  · rw [hu]; decide

theorem isUuid_length {t : Text} (h : isUuid t = true) : t.length = 36 := segment_length (isUuid_segment h)

theorem split_map {sep : ℕ} {f : ℕ → ℕ} (hf : ∀ u, f u = sep ↔ u = sep) (t : Text) :
    split sep (t.map f) = (split sep t).map (List.map f) := by
  induction t with
  | nil => rfl
  | cons u t ih =>
    rw [List.map_cons, split, split]
    simp only [hf, ih]
    split
    · rfl
    · cases split sep t with
      | nil => rfl
      | cons head tail => rfl

theorem isUuid_uuidOf {t : Text} (h : isUuid t = true) : isUuid (uuidOf t) = true := by
  obtain ⟨lower, hlower⟩ : ∃ f : ℕ → ℕ, f = fun u => if isUpper u then u + 32 else u := ⟨_, rfl⟩
  have huuid : uuidOf t = t.map lower := by rw [hlower]; rfl
  have hhyphen : ∀ u, lower u = hyphen ↔ u = hyphen := by
    intro u
    rw [hlower]
    simp only [isUpper, hyphen, Bool.and_eq_true, decide_eq_true_eq]
    split <;> omega
  have hhex : ∀ u, isHex u = true → isHex (lower u) = true := by
    intro u hu
    rw [hlower]
    simp only [isHex, isDigit, isUpper, Bool.or_eq_true, Bool.and_eq_true, decide_eq_true_eq] at hu ⊢
    split <;> omega
  have hzero : lower 0 = 0 := by rw [hlower]; rfl
  have hget : ∀ n, (t.map lower).getD n 0 = lower (t.getD n 0) := by
    intro n
    rw [List.getD_eq_getElem?_getD, List.getD_eq_getElem?_getD, List.getElem?_map]
    cases t[n]? with
    | none => exact hzero.symm
    | some u => rfl
  have hversion : ∀ u, 49 ≤ u ∧ u ≤ 56 → lower u = u := by
    intro u hu
    rw [hlower]
    exact if_neg (by simp only [isUpper, Bool.and_eq_true, decide_eq_true_eq]; omega)
  have hvariant : ∀ u ∈ [56, 57, 97, 98, 65, 66], lower u ∈ [56, 57, 97, 98, 65, 66] := by
    rw [hlower]
    decide
  rw [huuid]
  simp only [isUuid, Bool.and_eq_true, Bool.or_eq_true, decide_eq_true_eq, List.all_eq_true, List.contains_iff_mem,
    hget, split_map hhyphen] at h ⊢
  obtain ⟨⟨hlengths, hdigits⟩, hkind⟩ := h
  refine ⟨⟨?_, ?_⟩, ?_⟩
  · rw [List.map_map, ← hlengths]
    exact List.map_congr_left fun g _ => List.length_map _
  · intro g hg u hu
    obtain ⟨g, hmem, rfl⟩ := List.mem_map.mp hg
    obtain ⟨u, hunit, rfl⟩ := List.mem_map.mp hu
    exact hhex u (hdigits g hmem u hunit)
  · have hconstant : ∀ d, lower d = d → (∀ u ∈ t, u = hyphen ∨ u = d) → ∀ u ∈ t.map lower, u = hyphen ∨ u = d := by
      intro d hd hall u hu
      obtain ⟨u, hunit, rfl⟩ := List.mem_map.mp hu
      rcases hall u hunit with rfl | rfl
      · exact Or.inl ((hhyphen _).mpr rfl)
      · exact Or.inr hd
    rcases hkind with (⟨hversion', hvariant'⟩ | hnil) | hmax
    · rw [hversion _ hversion']
      exact Or.inl (Or.inl ⟨hversion', hvariant _ hvariant'⟩)
    · exact Or.inl (Or.inr (hconstant 48 (by rw [hlower]; rfl) hnil))
    · exact Or.inr (hconstant 102 (by rw [hlower]; rfl) hmax)

theorem cursorText_length {params : Params} {last : Receipt} (h : last.AsWritten) :
    (cursorText params last).length ≤ 2048 := by
  have hjson : (stringify (cursorJson params last)).length ≤ 1200 := by
    have hdevice := quote_length params.deviceId
    have hcapability := quote_length params.capabilityId
    have hcaptured := quote_length (toISOString last.capturedAt)
    have hobservation := quote_length last.observationId
    have hids := isUuid_length params.device_uuid
    have hobservationId := isUuid_length h.uuid
    have hcapabilityId := isSensorCapabilityId_length params.capability
    have hinstant := toISOString_length last.capturedAt
    have hkeys : (quote (js "deviceId")).length = 10 ∧ (quote (js "capabilityId")).length = 14 ∧
        (quote (js "capturedAt")).length = 12 ∧ (quote (js "observationId")).length = 15 := by decide
    rw [stringify_cursorJson]
    simp only [List.length_append, List.length_cons, List.length_nil]
    omega
  have hsextets := Sessions.encodeSextets_length (stringify (cursorJson params last))
  rw [cursorText, toBase64url, List.length_map, encodeUtf8_ascii (cursor_ascii h)]
  omega

theorem cursorText_ne_nil {params : Params} {last : Receipt} (h : last.AsWritten) : cursorText params last ≠ [] := by
  intro hnil
  have hback : fromBase64url (cursorText params last) = _ := fromBase64url_toBase64url (cursor_ascii h)
  rw [hnil, stringify_cursorJson] at hback
  exact absurd hback (List.cons_ne_nil _ _).symm

section

variable {isDatetime : Text → Bool} {timestamptz : Text → Option ℤ}

theorem parseCursor_cursorText (hreads : ReadsIso isDatetime timestamptz) {params : Params} {last : Receipt}
    (h : last.AsWritten) : parseCursor isDatetime (cursorText params last) =
      some ⟨params.deviceId, params.capabilityId, toISOString last.capturedAt, last.observationId⟩ := by
  have hinstant := readIso_toISOString h.captured.1 h.captured.2
  have hdatetime := hreads.accepts _ _ hinstant h.captured.1
  have hreadable : Readable (fun n : ℕ => (n : ℚ)) (cursorJson params last) := by
    have hnames : [js "deviceId", js "capabilityId", js "capturedAt", js "observationId"].Nodup := by decide
    exact ⟨hnames, trivial, trivial, trivial, trivial, trivial⟩
  have hjson : parse (fromBase64url (cursorText params last)) =
      some (valued (fun n : ℕ => (n : ℚ)) (cursorJson params last)) := by
    rw [cursorText, fromBase64url_toBase64url (cursor_ascii h)]
    exact parse_stringify hreadable
  have hstring : ∀ {check : Text → Bool} {t : Text}, check t = true → string check (.str t : Json ℚ) = some t :=
    fun hcheck => if_pos hcheck
  rw [parseCursor]
  refine Option.bind_eq_some_iff.mpr ⟨_, hjson, Option.bind_eq_some_iff.mpr ⟨_, rfl, ?_⟩⟩
  refine Option.bind_eq_some_iff.mpr ⟨_, hstring params.device_uuid, ?_⟩
  refine Option.bind_eq_some_iff.mpr ⟨_, hstring params.capability, ?_⟩
  refine Option.bind_eq_some_iff.mpr ⟨_, hstring hdatetime, ?_⟩
  exact Option.bind_eq_some_iff.mpr ⟨_, hstring h.observation, rfl⟩

theorem readCursor_cursorText (hreads : ReadsIso isDatetime timestamptz) {params : Params} {last : Receipt}
    (h : last.AsWritten) : readCursor isDatetime timestamptz params (some (cursorText params last)) =
      .ok (some (1000 * last.capturedAt, last.observationId)) := by
  have hinstant := readIso_toISOString h.captured.1 h.captured.2
  have hfilter : (some (cursorText params last)).filter (· ≠ []) = some (cursorText params last) := by
    rw [Option.filter_some, if_pos (by simpa using cursorText_ne_nil h)]
  rw [readCursor, hfilter]
  refine bind_ok.mpr ⟨_, present_ok.mpr (parseCursor_cursorText hreads h), ?_⟩
  refine bind_ok.mpr ⟨(), require_ok.mpr ⟨rfl, rfl⟩, ?_⟩
  refine bind_ok.mpr ⟨_, present_ok.mpr (hreads.reads _ _ hinstant h.captured.1), ?_⟩
  rw [h.canonical]

/-! ## Pages -/

def reach (params : Params) (given : List Receipt) : Option Text := given.getLast?.map (cursorText params)

theorem isBefore_place (last r : Receipt) :
    r.isBefore (some (1000 * last.capturedAt, last.observationId)) = Keyset.isBeyond Receipt.place (some last.place) r := by
  have hiff : toLex (1000 * r.capturedAt, r.observationId) < toLex (1000 * last.capturedAt, last.observationId) ↔
      toLex (r.capturedAt, r.observationId) < toLex (last.capturedAt, last.observationId) := by
    have hlt : 1000 * r.capturedAt < 1000 * last.capturedAt ↔ r.capturedAt < last.capturedAt := by omega
    have heq : 1000 * r.capturedAt = 1000 * last.capturedAt ↔ r.capturedAt = last.capturedAt := by omega
    simp only [Prod.Lex.toLex_lt_toLex, hlt, heq]
  exact decide_eq_decide.mpr hiff

theorem readCursor_reach (hreads : ReadsIso isDatetime timestamptz) (params : Params) {given : List Receipt}
    (hwritten : ∀ r ∈ given, r.AsWritten) :
    ∃ before, readCursor isDatetime timestamptz params (reach params given) = .ok before ∧
      Receipt.isBefore before = Keyset.isBeyond Receipt.place (Keyset.cursorOf Receipt.place given) := by
  cases hlast : given.getLast? with
  | none => exact ⟨none, by simp [readCursor, reach, hlast], by simp [Keyset.cursorOf, hlast]; rfl⟩
  | some last =>
    have hmem : last ∈ given := List.mem_of_getLast? hlast
    refine ⟨some (1000 * last.capturedAt, last.observationId), ?_, ?_⟩
    · rw [reach, hlast]
      exact readCursor_cursorText hreads (hwritten last hmem)
    · funext r
      rw [Keyset.cursorOf, hlast]
      exact isBefore_place last r

theorem reach_length (params : Params) {given : List Receipt} (hwritten : ∀ r ∈ given, r.AsWritten) :
    ∀ t ∈ reach params given, t.length ≤ 2048 := by
  intro t ht
  obtain ⟨last, hlast, rfl⟩ := Option.map_eq_some_iff.mp (Option.mem_def.mp ht)
  exact cursorText_length (hwritten last (List.mem_of_getLast? hlast))

theorem projection_valid (hreads : ReadsIso isDatetime timestamptz) {deviceId : Text} (hdevice : isUuid deviceId = true)
    {r : Receipt} (h : r.AsWritten) (himage : r.image.isSome = true) :
    (projection deviceId r).isValid isDatetime = true := by
  have hinstant : ∀ ms, 0 ≤ ms ∧ ms ≤ maxInstant → isDatetime (toISOString ms) = true := by
    intro ms hms
    exact hreads.accepts _ _ (readIso_toISOString hms.1 hms.2) hms.1
  have hreceived : isDatetime (toISOString (r.receivedAt.getD 0)) = true := by
    cases hr : r.receivedAt with
    | none => exact hinstant 0 ⟨le_rfl, by decide⟩
    | some t => exact hinstant t (h.received t hr)
  obtain ⟨i, hi⟩ := Option.isSome_iff_exists.mp himage
  obtain ⟨hwidth, hheight⟩ := h.size i hi
  simp only [ImageObservationMetadata.isValid, projection, hdevice, h.capability, h.observation, h.digest, h.bytes,
    hi, Option.elim_some, hwidth, hheight, hinstant _ h.captured, hinstant _ h.expires, hreceived, Bool.and_self]

theorem pageOf_take (params : Params) {limit : ℕ} (hpos : 1 ≤ limit) (given rest : List Receipt) :
    pageOf params limit (rest.take (limit + 1)) =
      { images := (rest.take limit).map (projection (uuidOf params.deviceId))
        nextCursor := if limit < rest.length then reach params (given ++ rest.take limit) else none } := by
  have htake : (rest.take (limit + 1)).take limit = rest.take limit := by
    rw [List.take_take, min_eq_left (Nat.le_succ limit)]
  have hmore : limit < (rest.take (limit + 1)).length ↔ limit < rest.length := by
    rw [List.length_take]
    omega
  simp only [pageOf, htake, hmore]
  congr 1
  split
  · rename_i hlt
    have hnonempty : rest.take limit ≠ [] := by
      rw [← List.length_pos_iff, List.length_take]
      omega
    obtain ⟨last, hlast⟩ := Option.isSome_iff_exists.mp (List.getLast?_isSome.mpr hnonempty)
    rw [reach, List.getLast?_append, hlast]
    rfl
  · rfl


theorem shown_places (device : Device) (capabilityId : Text) (now : ℤ) :
    ((shown device capabilityId now).map Receipt.place).Nodup := by
  have hids : ((shown device capabilityId now).map Receipt.observationId).Nodup :=
    (List.filter_sublist.map Receipt.observationId).nodup device.receipts.nodup
  have hplace : ((shown device capabilityId now).map Receipt.place).map (fun k => (ofLex (OrderDual.ofDual k)).2) =
      (shown device capabilityId now).map Receipt.observationId := by
    rw [List.map_map]
    rfl
  exact List.Nodup.of_map _ (hplace ▸ hids)

theorem shown_spec {device : Device} {capabilityId : Text} {now : ℤ} {r : Receipt}
    (h : r ∈ shown device capabilityId now) : r ∈ device.receipts.rows ∧ r.image.isSome = true := by
  obtain ⟨hrow, hshown⟩ := List.mem_filter.mp h
  simp only [Receipt.isShown, Bool.and_eq_true] at hshown
  exact ⟨hrow, hshown.2⟩

/-- **A page is a piece of what the reader was not given yet.** -/
theorem listImages_reach (hreads : ReadsIso isDatetime timestamptz) {device : Device} {tenantId : Text}
    {params : Params} (hsource : authorizeSource device tenantId params.capabilityId = .ok ())
    (hwritten : ∀ r ∈ device.receipts.rows, r.AsWritten) (limit : PageLimit) {now : ℤ} {given rest : List Receipt}
    (hsplit : Keyset.ordered Receipt.place (shown device params.capabilityId now) = given ++ rest) :
    listImages isDatetime timestamptz device tenantId params limit (reach params given) now =
      .ok { images := (rest.take limit.value).map (projection (uuidOf params.deviceId))
            nextCursor := if limit.value < rest.length then reach params (given ++ rest.take limit.value) else none } := by
  have hall : ∀ r ∈ given ++ rest, r.AsWritten ∧ r.image.isSome = true := by
    intro r hr
    rw [← hsplit, Keyset.mem_ordered] at hr
    exact ⟨hwritten r (shown_spec hr).1, (shown_spec hr).2⟩
  have hgiven : ∀ r ∈ given, r.AsWritten := fun r hr => (hall r (List.mem_append_left _ hr)).1
  obtain ⟨before, hbefore, hplace⟩ := readCursor_reach hreads params hgiven
  have hrows : Keyset.ordered Receipt.place
      ((shown device params.capabilityId now).filter (Receipt.isBefore before)) = rest := by
    rw [hplace]
    exact Keyset.beyond_last (shown_places device params.capabilityId now) hsplit
  refine bind_ok.mpr ⟨(), require_ok.mpr (reach_length params hgiven), ?_⟩
  refine bind_ok.mpr ⟨(), hsource, bind_ok.mpr ⟨before, hbefore, ?_⟩⟩
  simp only [hrows, pageOf_take params limit.pos given rest]
  refine bind_ok.mpr ⟨(), require_ok.mpr ?_, rfl⟩
  simp only [ImageObservationPage.isValid, Bool.and_eq_true, decide_eq_true_eq, List.all_eq_true]
  refine ⟨⟨?_, ?_⟩, ?_⟩
  · have hle := limit.le
    rw [List.length_map, List.length_take]
    omega
  · intro m hm
    obtain ⟨r, hr, rfl⟩ := List.mem_map.mp hm
    obtain ⟨hr, himage⟩ := hall r (List.mem_append_right _ (List.mem_of_mem_take hr))
    exact projection_valid hreads (isUuid_uuidOf params.device_uuid) hr himage
  · have hnext : ∀ t ∈ reach params (given ++ rest.take limit.value), t.length ≤ 2048 := by
      refine reach_length params fun r hr => (hall r ?_).1
      rcases List.mem_append.mp hr with hr | hr
      · exact List.mem_append_left _ hr
      · exact List.mem_append_right _ (List.mem_of_mem_take hr)
    split
    · rw [Option.all_eq_true]
      exact fun t ht => decide_eq_true (hnext t ht)
    · rfl

/-! ## All pages -/

/-- What a reader who follows the cursors is given: the images that are shown, in their order, as far as the limits
reach. There are no more pages than images, but one where there are none, and the last page has no cursor just when
the limits reach the end. -/
structure Visits (deviceId : Text) (rows : List Receipt) (limits : List ℕ) (pages : List ImageObservationPage) :
    Prop where
  images : pages.flatMap ImageObservationPage.images = (rows.take limits.sum).map (projection deviceId)
  length_le : pages.length ≤ max 1 rows.length
  begins : pages = [] ↔ limits = []
  ends : limits ≠ [] → (pages.getLast?.bind ImageObservationPage.nextCursor = none ↔ rows.length ≤ limits.sum)

theorem Visits.last (deviceId : Text) {rows : List Receipt} {limit : ℕ} (limits : List ℕ) (h : rows.length ≤ limit) :
    Visits deviceId rows (limit :: limits) [⟨(rows.take limit).map (projection deviceId), none⟩] where
  images := by
    have hsum : rows.length ≤ limit + limits.sum := h.trans (Nat.le_add_right _ _)
    rw [List.flatMap_singleton, List.sum_cons, List.take_of_length_le h, List.take_of_length_le hsum]
  length_le := le_max_left _ _
  begins := by simp
  ends := by
    intro _
    rw [List.sum_cons]
    exact ⟨fun _ => h.trans (Nat.le_add_right _ _), fun _ => rfl⟩

theorem Visits.cons {deviceId : Text} {rows : List Receipt} {limit : ℕ} {limits : List ℕ} {next : Text}
    {pages : List ImageObservationPage} (hpos : 1 ≤ limit) (hmore : limit < rows.length)
    (h : Visits deviceId (rows.drop limit) limits pages) :
    Visits deviceId rows (limit :: limits) (⟨(rows.take limit).map (projection deviceId), some next⟩ :: pages) where
  images := by
    rw [List.flatMap_cons, h.images, List.sum_cons, List.take_add, List.map_append]
  length_le := by
    have hle := h.length_le
    rw [List.length_drop] at hle
    rw [List.length_cons]
    omega
  begins := by simp
  ends := by
    intro _
    rw [List.sum_cons]
    by_cases hlimits : limits = []
    · rw [h.begins.mpr hlimits, hlimits]
      simp only [List.sum_nil]
      exact ⟨fun hnone => absurd hnone (by simp), fun hle => by omega⟩
    · obtain ⟨page, pages, rfl⟩ := List.exists_cons_of_ne_nil (mt h.begins.mp hlimits)
      have hends := h.ends hlimits
      rw [List.length_drop] at hends
      rw [List.getLast?_cons_cons, hends]
      omega

theorem follow_reach (hreads : ReadsIso isDatetime timestamptz) {device : Device} {tenantId : Text} {params : Params}
    (hsource : authorizeSource device tenantId params.capabilityId = .ok ())
    (hwritten : ∀ r ∈ device.receipts.rows, r.AsWritten) {requests : List (PageLimit × ℤ)}
    {given rest : List Receipt}
    (hsplit : ∀ q ∈ requests, Keyset.ordered Receipt.place (shown device params.capabilityId q.2) = given ++ rest) :
    ∃ pages, follow isDatetime timestamptz device tenantId params requests (reach params given) = .ok pages ∧
      Visits (uuidOf params.deviceId) rest (requests.map (·.1.value)) pages := by
  induction requests generalizing given rest with
  | nil => exact ⟨[], rfl, by simp, by simp, by simp, by simp⟩
  | cons q requests ih =>
    obtain ⟨limit, now⟩ := q
    have hpage := listImages_reach hreads hsource hwritten limit (hsplit _ List.mem_cons_self)
    have hpos := limit.pos
    rcases Nat.lt_or_ge limit.value rest.length with hmore | hlast
    · rw [if_pos hmore] at hpage
      have hnext : (given ++ rest.take limit.value).getLast?.isSome = true := by
        rw [List.getLast?_isSome, ← List.length_pos_iff, List.length_append, List.length_take]
        omega
      obtain ⟨last, hlast⟩ := Option.isSome_iff_exists.mp hnext
      have hreach : reach params (given ++ rest.take limit.value) = some (cursorText params last) := by
        rw [reach, hlast]
        rfl
      have hrest : ∀ q ∈ requests, Keyset.ordered Receipt.place (shown device params.capabilityId q.2) =
          (given ++ rest.take limit.value) ++ rest.drop limit.value := by
        intro q hq
        rw [hsplit q (List.mem_cons_of_mem _ hq), List.append_assoc, List.take_append_drop]
      obtain ⟨pages, hfollow, hvisits⟩ := ih hrest
      rw [hreach] at hpage hfollow
      exact ⟨_ :: pages, bind_ok.mpr ⟨_, hpage, bind_ok.mpr ⟨pages, hfollow, rfl⟩⟩, hvisits.cons hpos hmore⟩
    · rw [if_neg (not_lt.mpr hlast)] at hpage
      exact ⟨[_], bind_ok.mpr ⟨_, hpage, rfl⟩, Visits.last _ _ hlast⟩


/-- **Following the cursors visits every image that is shown, once, in strictly decreasing order, and ends**, while
nothing changes and nothing expires. -/
theorem follow_visits (hreads : ReadsIso isDatetime timestamptz) {device : Device} {tenantId : Text} {params : Params}
    (hsource : authorizeSource device tenantId params.capabilityId = .ok ())
    (hwritten : ∀ r ∈ device.receipts.rows, r.AsWritten) {requests : List (PageLimit × ℤ)} {now : ℤ}
    (hstill : ∀ q ∈ requests, shown device params.capabilityId q.2 = shown device params.capabilityId now) :
    ∃ images pages, images.Perm (shown device params.capabilityId now) ∧
      (images.Pairwise fun a b =>
        toLex (b.capturedAt, b.observationId) < toLex (a.capturedAt, a.observationId)) ∧
      follow isDatetime timestamptz device tenantId params requests none = .ok pages ∧
      Visits (uuidOf params.deviceId) images (requests.map (·.1.value)) pages := by
  have hsplit : ∀ q ∈ requests, Keyset.ordered Receipt.place (shown device params.capabilityId q.2) =
      [] ++ Keyset.ordered Receipt.place (shown device params.capabilityId now) := by
    intro q hq
    rw [hstill q hq, List.nil_append]
  obtain ⟨pages, hfollow, hvisits⟩ := follow_reach hreads hsource hwritten hsplit
  exact ⟨_, pages, sortBy_perm _ _, Keyset.ordered_strict (shown_places device params.capabilityId now), hfollow, hvisits⟩


end

def galleryReceipt (id : String) (second : ℤ) : Receipt where
  observationId := js id
  capabilityId := js "camera"
  fingerprint := js "f"
  sha256 := List.replicate 64 97
  bytes := 4096
  capturedAt := 1000 * second
  expiresAt := 1000 * second + 30 * dayMs
  state := .stored (1000 * second + 200)
  reservedDay := 20000
  credentialHash := none
  image := some ⟨js "k", some 1, 640, 480⟩

def galleryDevice : Device where
  tokenHash := js "t"
  tenantId := js "11111111-1111-4111-8111-111111111111"
  tenant_uuid := by decide
  revoked := false
  capabilities := fun c => if c = js "camera" then
    some ⟨true, js "image", js "jpeg.v1", some 1048576, some 640, some 480⟩ else none
  receipts := ⟨[galleryReceipt "00000000-0000-4000-8000-00000000000a" 1789000000,
    galleryReceipt "00000000-0000-4000-8000-00000000000b" 1789000000,
    galleryReceipt "00000000-0000-4000-8000-00000000000c" 1789000060], by decide⟩
  usage := fun _ => none
  attempts := none
  presence := fun _ => none

def galleryParams : Params where
  deviceId := js "22222222-2222-4222-8222-222222222222"
  capabilityId := js "camera"
  device_uuid := by decide
  capability := by decide

theorem galleryReceipt_asWritten {id : String} {second : ℤ} (hid : isUuidV4 (js id) = true)
    (hcanonical : uuidOf (js id) = js id) (h : 0 ≤ second) (hle : second ≤ 2000000000) :
    (galleryReceipt id second).AsWritten where
  observation := hid
  canonical := hcanonical
  capability := (by decide : isSensorCapabilityId (js "camera") = true)
  digest := (by decide : isObservationDigest (List.replicate 64 97) = true)
  bytes := (by decide : isWithin 1048576 4096 = true)
  size := by
    intro i hi
    obtain rfl : (⟨js "k", some 1, 640, 480⟩ : Image) = i := Option.some.inj hi
    exact ⟨by decide, by decide⟩
  captured := by
    simp only [galleryReceipt, maxInstant]
    omega
  received := by
    intro t ht
    obtain rfl : 1000 * second + 200 = t := Option.some.inj ht
    simp only [maxInstant]
    omega
  expires := by
    simp only [galleryReceipt, maxInstant, dayMs]
    omega

/-- A page of two images ends between the two of one instant. -/
theorem follow_visits_bench :
    let requests : List (PageLimit × ℤ) := [(⟨2, by omega, by omega⟩, 1790000000000), (⟨1, by omega, by omega⟩, 1790000001000)]
    ∃ images pages, images.Perm (shown galleryDevice galleryParams.capabilityId 1790000000000) ∧
      (images.Pairwise fun a b =>
        toLex (b.capturedAt, b.observationId) < toLex (a.capturedAt, a.observationId)) ∧
      follow (fun t => (readIso t).isSome) (fun t => (readIso t).map (1000 * ·)) galleryDevice
        (js "11111111-1111-4111-8111-111111111111") galleryParams requests none = .ok pages ∧
      Visits (uuidOf galleryParams.deviceId) images (requests.map (·.1.value)) pages := by
  intro requests
  have hreads : ReadsIso (fun t => (readIso t).isSome) (fun t => (readIso t).map (1000 * ·)) := by
    constructor
    · intro t ms h _
      rw [h]
      rfl
    · intro t ms h _
      rw [h]
      rfl
  have hwritten : ∀ r ∈ galleryDevice.receipts.rows, r.AsWritten := by
    intro r hr
    simp only [galleryDevice, List.mem_cons, List.not_mem_nil, or_false] at hr
    rcases hr with rfl | rfl | rfl
    · exact galleryReceipt_asWritten (by decide) (by decide) (by omega) (by omega)
    · exact galleryReceipt_asWritten (by decide) (by decide) (by omega) (by omega)
    · exact galleryReceipt_asWritten (by decide) (by decide) (by omega) (by omega)
  have hstill : ∀ q ∈ requests, shown galleryDevice galleryParams.capabilityId q.2 =
      shown galleryDevice galleryParams.capabilityId 1790000000000 := by
    intro q hq
    simp only [requests, List.mem_cons, List.not_mem_nil, or_false] at hq
    rcases hq with rfl | rfl
    · rfl
    · refine List.filter_congr fun r hr => ?_
      simp only [galleryDevice, List.mem_cons, List.not_mem_nil, or_false] at hr
      rcases hr with rfl | rfl | rfl
      · simp [Receipt.isShown, galleryReceipt, dayMs]
      · simp [Receipt.isShown, galleryReceipt, dayMs]
      · simp [Receipt.isShown, galleryReceipt, dayMs]
  have hsource : authorizeSource galleryDevice (js "11111111-1111-4111-8111-111111111111")
      galleryParams.capabilityId = .ok () := require_ok.mpr ⟨rfl, by decide⟩
  exact follow_visits hreads hsource hwritten hstill

end Albusforge.Observations
