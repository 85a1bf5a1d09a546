import Albusforge.Camera.Policy

/-!
# The owner marker

`expected_marker` of `src/firmware/esp32s3-camera/main/observation_owner.c`. The marker of an
identity is its fields line by line, zeros up to the checksum, and the checksum. A field has no
line end in it, so that the lines are read back one after the other: **no two identities have one
marker** (`expectedMarker_injective`).
-/

namespace Albusforge.Camera

open Lib

/-- `obs_owner_identity` -/
structure OwnerIdentity where
  deviceId : Option CString
  observationUrl : Option CString
  capabilityId : Option CString
  payloadSchema : Option CString
  profileId : Option CString
  profileVersion : BitVec 32
  deriving DecidableEq

def ownerSize : ℕ := 768

def crcOffset : ℕ := ownerSize - 9

def fieldValid (value : Option CString) (maximum : ℕ) : Bool :=
  match value with
  | none => false
  | some v => v.bytes ≠ [] && v.bytes.length ≤ maximum && v.bytes.all fun c => 32 < c && c < 127

/-- `%s` of a string that is there. -/
def printed (value : Option CString) : Bytes := (value.map CString.bytes).getD []

/-- `"HSXOWNER1\n"` -/
def ownerMagic : Bytes := chars "HSXOWNER1\n"

def ownerText (owner : OwnerIdentity) : Bytes :=
  ownerMagic ++ printed owner.deviceId ++ [10] ++ printed owner.observationUrl ++ [10] ++
    printed owner.capabilityId ++ [10] ++ printed owner.payloadSchema ++ [10] ++
    printed owner.profileId ++ [10] ++ ascii (decimal owner.profileVersion.toNat) ++ [10]

def sealed (text : Bytes) : Bytes :=
  let body := text ++ List.replicate (crcOffset - text.length) 0
  body ++ hex8 (crc32 body) ++ [0]

def OwnerIdentity.valid (owner : OwnerIdentity) : Bool :=
  (owner.deviceId.map fun d => obsUuidValid d.bytes).getD false &&
    fieldValid owner.observationUrl 256 && (chars "https://").isPrefixOf (printed owner.observationUrl) &&
    fieldValid owner.capabilityId 64 && fieldValid owner.payloadSchema 32 &&
    fieldValid owner.profileId 120 && owner.profileVersion ≠ 0

def expectedMarker (owner : Option OwnerIdentity) : Option Bytes :=
  match owner with
  | none => none
  | some owner =>
      if !owner.valid then none
      else
        let text := ownerText owner
        if crcOffset ≤ text.length then none else some (sealed text)

/-- What `obs_owner_check` asks of a marker before it compares it. -/
def wellFormed (actual : Bytes) : Bool :=
  actual.length = ownerSize && actual.take 10 = ownerMagic &&
    (actual.drop crcOffset).take 9 = hex8 (crc32 (actual.take crcOffset)) ++ [0]

/-! ## One marker, one identity -/

theorem append_sep_inj {α : Type} {sep : α} {a b x y : List α} (ha : sep ∉ a) (hb : sep ∉ b)
    (h : a ++ sep :: x = b ++ sep :: y) : a = b ∧ x = y := by
  induction a generalizing b with
  | nil =>
      cases b with
      | nil => exact ⟨rfl, (List.cons.inj h).2⟩
      | cons v b =>
          obtain ⟨rfl, -⟩ := List.cons.inj h
          exact absurd List.mem_cons_self hb
  | cons u a ih =>
      cases b with
      | nil =>
          obtain ⟨rfl, -⟩ := List.cons.inj h
          exact absurd List.mem_cons_self ha
      | cons v b =>
          obtain ⟨rfl, htail⟩ := List.cons.inj h
          obtain ⟨rfl, hxy⟩ := ih (fun hm => ha (List.mem_cons_of_mem _ hm))
            (fun hm => hb (List.mem_cons_of_mem _ hm)) htail
          exact ⟨rfl, hxy⟩

theorem printed_inj {v w : Option CString} (hv : v.isSome = true) (hw : w.isSome = true)
    (h : printed v = printed w) : v = w := by
  obtain ⟨⟨a, ha⟩, rfl⟩ := Option.isSome_iff_exists.mp hv
  obtain ⟨⟨b, hb⟩, rfl⟩ := Option.isSome_iff_exists.mp hw
  obtain rfl : a = b := h
  rfl

structure Line (value : Option CString) : Prop where
  some : value.isSome = true
  unbroken : (10 : UInt8) ∉ printed value

theorem line_of_fieldValid {value : Option CString} {maximum : ℕ}
    (h : fieldValid value maximum = true) : Line value := by
  cases value with
  | none => exact absurd h (by simp [fieldValid])
  | some v =>
      refine ⟨rfl, ?_⟩
      intro hmem
      simp only [fieldValid, Bool.and_eq_true, List.all_eq_true] at h
      exact absurd (h.2 10 hmem).1 (by decide)

theorem line_of_uuid {value : Option CString}
    (h : (value.map fun d => obsUuidValid d.bytes).getD false = true) : Line value := by
  cases value with
  | none => exact absurd h (by simp)
  | some v =>
      refine ⟨rfl, ?_⟩
      intro hmem
      rcases uuid_byte h hmem with heq | hhex
      · exact absurd heq (by decide)
      · exact absurd hhex (by decide)

/-- What `expected_marker` has checked, and what it made of it. -/
structure Marked (owner : OwnerIdentity) (marker : Bytes) : Prop where
  device : Line owner.deviceId
  url : Line owner.observationUrl
  capability : Line owner.capabilityId
  schema : Line owner.payloadSchema
  profile : Line owner.profileId
  short : (ownerText owner).length < crcOffset
  eq : marker = sealed (ownerText owner)

theorem marked_of_expected {owner : Option OwnerIdentity} {marker : Bytes}
    (h : expectedMarker owner = some marker) : ∃ o, owner = some o ∧ Marked o marker := by
  cases owner with
  | none => exact absurd h (by simp [expectedMarker])
  | some o =>
      simp only [expectedMarker] at h
      split at h
      · exact absurd h (by simp)
      · rename_i hvalid
        split at h
        · exact absurd h (by simp)
        · rename_i hshort
          simp only [OwnerIdentity.valid, Bool.not_eq_true', Bool.not_eq_false, Bool.and_eq_true] at hvalid
          obtain ⟨⟨⟨⟨⟨⟨hdevice, hurl⟩, -⟩, hcap⟩, hschema⟩, hprofile⟩, -⟩ := hvalid
          exact ⟨o, rfl, line_of_uuid hdevice, line_of_fieldValid hurl, line_of_fieldValid hcap,
            line_of_fieldValid hschema, line_of_fieldValid hprofile, not_le.mp hshort,
            (Option.some.inj h).symm⟩

def body (text : Bytes) : Bytes := text ++ List.replicate (crcOffset - text.length) 0

theorem body_length {text : Bytes} (h : text.length < crcOffset) : (body text).length = crcOffset := by
  simp only [body, List.length_append, List.length_replicate]
  omega

theorem sealed_eq (text : Bytes) : sealed text = body text ++ (hex8 (crc32 (body text)) ++ [0]) := by
  rw [sealed, ← body, List.append_assoc]

theorem sealed_length {text : Bytes} (h : text.length < crcOffset) :
    (sealed text).length = ownerSize := by
  rw [sealed_eq, List.length_append, body_length h, List.length_append, hex8_length]
  rfl

theorem Marked.wellFormed {owner : OwnerIdentity} {marker : Bytes} (h : Marked owner marker) :
    wellFormed marker = true := by
  have hbody := body_length h.short
  have htake : (sealed (ownerText owner)).take crcOffset = body (ownerText owner) := by
    rw [sealed_eq, ← hbody, List.take_left]
  have hdrop : (sealed (ownerText owner)).drop crcOffset =
      hex8 (crc32 (body (ownerText owner))) ++ [0] := by
    rw [sealed_eq, ← hbody, List.drop_left]
  have hmagic : (sealed (ownerText owner)).take 10 = ownerMagic := by
    have hlength : ownerMagic.length = 10 := by decide
    rw [sealed_eq, body, ownerText]
    simp only [List.append_assoc]
    rw [← hlength, List.take_left]
  have hcrc : (hex8 (crc32 (body (ownerText owner))) ++ [0]).take 9 =
      hex8 (crc32 (body (ownerText owner))) ++ [0] := by
    refine List.take_of_length_le ?_
    rw [List.length_append, hex8_length]
    decide
  rw [h.eq]
  simp only [Camera.wellFormed, sealed_length h.short, hmagic, hdrop, htake, hcrc, decide_true, Bool.and_self]

theorem toNat_ascii {text : Text} (h : ∀ u ∈ text, u < 256) : (ascii text).map UInt8.toNat = text := by
  rw [ascii, List.map_map]
  refine (List.map_congr_left ?_).trans (List.map_id text)
  intro u hu
  exact Nat.mod_eq_of_lt (h u hu)

theorem decimal_byte {n u : ℕ} (h : u ∈ decimal n) : 48 ≤ u ∧ u ≤ 57 := by
  have hdigit := Json.isDigit_decimal h
  simpa [isDigit] using hdigit

theorem decimal_line (n : ℕ) : (10 : UInt8) ∉ ascii (decimal n) := by
  intro hmem
  obtain ⟨u, hu, heq⟩ := List.mem_map.mp hmem
  have hdigit := decimal_byte hu
  have hnat := congrArg UInt8.toNat heq
  simp at hnat
  omega

theorem ascii_decimal_inj {m n : ℕ} (h : ascii (decimal m) = ascii (decimal n)) : m = n := by
  have hbytes : ∀ k, ∀ u ∈ decimal k, u < 256 := by
    intro k u hu
    have := decimal_byte hu
    omega
  refine Json.decimal_injective ?_
  calc decimal m = (ascii (decimal m)).map UInt8.toNat := (toNat_ascii (hbytes m)).symm
    _ = (ascii (decimal n)).map UInt8.toNat := by rw [h]
    _ = decimal n := toNat_ascii (hbytes n)

/-- **No two identities have one marker.** -/
theorem Marked.inj {o o' : OwnerIdentity} {marker : Bytes} (h : Marked o marker)
    (h' : Marked o' marker) : o = o' := by
  have hbody : body (ownerText o) = body (ownerText o') := by
    have heq := h.eq.symm.trans h'.eq
    rw [sealed_eq, sealed_eq] at heq
    exact (List.append_inj heq (by rw [body_length h.short, body_length h'.short])).1
  simp only [body, ownerText, List.append_assoc, List.append_cancel_left_eq, List.singleton_append] at hbody
  obtain ⟨hdevice, hbody⟩ := append_sep_inj h.device.unbroken h'.device.unbroken hbody
  obtain ⟨hurl, hbody⟩ := append_sep_inj h.url.unbroken h'.url.unbroken hbody
  obtain ⟨hcap, hbody⟩ := append_sep_inj h.capability.unbroken h'.capability.unbroken hbody
  obtain ⟨hschema, hbody⟩ := append_sep_inj h.schema.unbroken h'.schema.unbroken hbody
  obtain ⟨hprofile, hbody⟩ := append_sep_inj h.profile.unbroken h'.profile.unbroken hbody
  obtain ⟨hversion, -⟩ := append_sep_inj (decimal_line _) (decimal_line _) hbody
  have hd := printed_inj h.device.some h'.device.some hdevice
  have hu := printed_inj h.url.some h'.url.some hurl
  have hc := printed_inj h.capability.some h'.capability.some hcap
  have hs := printed_inj h.schema.some h'.schema.some hschema
  have hp := printed_inj h.profile.some h'.profile.some hprofile
  have hv := BitVec.eq_of_toNat_eq (ascii_decimal_inj hversion)
  cases o
  cases o'
  simp_all

theorem expectedMarker_injective {owner owner' : Option OwnerIdentity} {marker : Bytes}
    (h : expectedMarker owner = some marker) (h' : expectedMarker owner' = some marker) :
    owner = owner' := by
  obtain ⟨o, rfl, hm⟩ := marked_of_expected h
  obtain ⟨o', rfl, hm'⟩ := marked_of_expected h'
  rw [hm.inj hm']

end Albusforge.Camera
