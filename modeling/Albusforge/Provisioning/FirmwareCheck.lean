import Albusforge.Provisioning.Manifest

/-!
# Firmware for a device

`verifyProvisioningFirmware` (`apps/gateway/src/provisioning-firmware.ts`): the record of a compiled firmware is
taken only if it is for this build, plan and profile, with the same channels and capabilities. Channels are compared
one by one, and the manifest by its canonical text; but capabilities are compared by the text that `JSON.stringify`
makes of them, in which channels stand in the order they were stored in.

**So a record is taken when it matches and its capabilities are listed as they are expected to be** (`accepts_iff`).
-/

namespace Albusforge.Provisioning

open Lib Lib.Json
open Cloudlink hiding canonical

/-- `===` tells numbers apart. -/
class LawfulEq (ν : Type) [JsNumber ν] : Prop where
  eq_iff (a b : ν) : JsNumber.eq a b = true ↔ a = b

instance : LawfulEq ℚ := ⟨fun a b => by simp⟩

variable {ν : Type} [JsonNumber ν]

structure Identity (ν : Type) where
  buildId : Text
  planVersion : ν
  codeVersion : ν
  runtime : Text
  firmwareProfileId : Text
  channels : Channels ν
  capabilities : Option (List (SensorCapability ν))

/-- `!actual || actual.unit !== expected.unit || …` -/
def channelDiffers (actual expected : Channels ν) (key : Text) : Bool :=
  match actual.get key, expected.get key with
  | some a, some e => a.unit != e.unit || !JsNumber.eq a.min e.min || !JsNumber.eq a.max e.max
  | _, _ => true

/-- `JSON.stringify` of what is expected; `undefined` where there are no capabilities. -/
def expectedText (expected : List (SensorCapability ν)) : Option Text :=
  if expected.length = 0 then none else some (capabilitiesText expected)

section

variable (sha256 : Text → Text)

/-- `verifyProvisioningFirmware`. It throws where the expected capabilities are none that the schema takes. -/
def verifyProvisioningFirmware (value : Json ν) (identity : Identity ν) :
    Except Unit (Option (FirmwarePassedRecord ν)) :=
  match FirmwarePassedRecord.safeParse value with
  | none => .ok none
  | some record =>
    let manifest := record.manifest
    if record.candidateId ≠ manifest.profileId ∨ manifest.buildId ≠ identity.buildId ∨
        JsNumber.eq (JsonNumber.ofInt manifest.planVersion) identity.planVersion = false ∨
        JsNumber.eq (JsonNumber.ofInt manifest.codeVersion) identity.codeVersion = false ∨
        manifest.runtime ≠ identity.runtime ∨ manifest.profileId ≠ identity.firmwareProfileId then .ok none
    else
      let keys := identity.channels.keys
      if keys.length ≠ manifest.channels.keys.length ∨ keys.any (channelDiffers manifest.channels identity.channels) then
        .ok none
      else
        let expectedCapabilities := identity.capabilities.getD []
        -- `DeviceCapabilities.parse` throws
        if expectedCapabilities.length ≠ 0 ∧ deviceCapabilitiesAccepted expectedCapabilities = false then .error ()
        else if manifest.capabilities.map capabilitiesText ≠ expectedText expectedCapabilities then .ok none
        else if sha256 (serializeFirmwareManifest manifest) = record.manifestDigest then .ok (some record)
        else .ok none

def Accepts (value : Json ν) (identity : Identity ν) : Prop :=
  ∃ record, verifyProvisioningFirmware sha256 value identity = .ok (some record)

/-! ## What it is for -/

structure FirmwarePassedRecord.Matches (record : FirmwarePassedRecord ν) (identity : Identity ν) : Prop where
  candidate : record.candidateId = record.manifest.profileId
  build : record.manifest.buildId = identity.buildId
  plan : JsonNumber.ofInt record.manifest.planVersion = identity.planVersion
  code : JsonNumber.ofInt record.manifest.codeVersion = identity.codeVersion
  runtime : record.manifest.runtime = identity.runtime
  profile : record.manifest.profileId = identity.firmwareProfileId
  channels : record.manifest.channels.Alike identity.channels
  capabilities : List.Forall₂ SensorCapability.Alike (record.manifest.capabilities.getD [])
    (identity.capabilities.getD [])
  digest : sha256 (serializeFirmwareManifest record.manifest) = record.manifestDigest

structure Identity.Alike (i j : Identity ν) : Prop where
  rest : j = { i with channels := j.channels, capabilities := j.capabilities }
  channels : i.channels.Alike j.channels
  capabilities : Option.Rel (List.Forall₂ SensorCapability.Alike) i.capabilities j.capabilities

end

/-! ## Channels -/

omit [JsonNumber ν] in
theorem channels_get {c : Channels ν} {key : Text} {x : Channel ν} : c.get key = some x ↔ (key, x) ∈ c.entries :=
  ⟨mem_of_lookup, lookup_of_mem c.nodup⟩

variable [LawfulEq ν]

theorem channelDiffers_iff {c d : Channels ν} {key : Text} {x : Channel ν} (hx : (key, x) ∈ d.entries) :
    channelDiffers c d key = false ↔ (key, x) ∈ c.entries := by
  rw [← channels_get, channelDiffers, channels_get.mpr hx]
  cases hc : c.get key with
  | none => simp
  | some y =>
    obtain ⟨unit, min, max⟩ := x
    obtain ⟨unit', min', max'⟩ := y
    simp [LawfulEq.eq_iff, and_assoc]

theorem channels_checked {c d : Channels ν} :
    ¬(d.keys.length ≠ c.keys.length ∨ d.keys.any (channelDiffers c d) = true) ↔ c.Alike d := by
  rw [not_or, not_not, Bool.not_eq_true, List.any_eq_false]
  have hlengths : ∀ e : Channels ν, e.keys.length = e.entries.length := fun e => List.length_map _
  rw [hlengths, hlengths]
  constructor
  · intro ⟨hlength, hkeys⟩
    have hsub : d.entries ⊆ c.entries := by
      intro e he
      have hkey := hkeys e.1 (List.mem_map_of_mem he)
      exact (channelDiffers_iff he).mp (by simpa using hkey)
    have hnodup : d.entries.Nodup := List.Nodup.of_map _ d.nodup
    exact ((List.subperm_of_subset hnodup hsub).perm_of_length_le hlength.ge).symm
  · intro halike
    refine ⟨halike.length_eq.symm, fun key hkey => ?_⟩
    obtain ⟨e, he, rfl⟩ := List.mem_map.mp hkey
    rw [(channelDiffers_iff he).mpr (halike.mem_iff.mpr he)]
    simp

/-! ## Capabilities -/

variable [LawfulJson ν]

omit [LawfulEq ν] in
theorem int_inj {y z : ℤ} (hy : -maxSafeInteger ≤ y ∧ y ≤ maxSafeInteger) (hz : -maxSafeInteger ≤ z ∧ z ≤ maxSafeInteger)
    (h : (int y : Json ν) = int z) : y = z := by
  have hread := congrArg JsonNumber.toInt (Json.num.inj h)
  rw [LawfulJson.toInt_ofInt y hy.1 hy.2, LawfulJson.toInt_ofInt z hz.1 hz.2] at hread
  exact Option.some.inj hread

theorem isBetween_iff {lo hi z : ℤ} : isBetween lo hi z = true ↔ lo ≤ z ∧ z ≤ hi := by
  simp [isBetween]

omit [JsonNumber ν] [LawfulEq ν] [LawfulJson ν] in
theorem channels_toJson_inj {c d : Channels ν} (h : c.toJson = d.toJson) : c = d := by
  obtain ⟨entries, hnodup⟩ := c
  obtain ⟨entries', hnodup'⟩ := d
  have hentries : entries = entries' := by
    refine List.map_injective_iff.mpr ?_ (Json.obj.inj h)
    intro ⟨k, unit, min, max⟩ ⟨k', unit', min', max'⟩ heq
    simp only [Channel.toJson, Prod.mk.injEq, Json.obj.injEq, List.cons.injEq, Json.str.injEq, Json.num.injEq,
      true_and, and_true] at heq
    obtain ⟨rfl, rfl, rfl, rfl⟩ := heq
    rfl
  subst hentries
  rfl

omit [LawfulEq ν] in
theorem CapabilityKind.members_inj {a b : CapabilityKind ν} (ha : a.accepted = true) (hb : b.accepted = true)
    (h : a.members = b.members) : a = b := by
  have hsafe : ∀ {lo hi z : ℤ}, isBetween lo hi z = true → 1 ≤ lo → hi ≤ 1048576 →
      -maxSafeInteger ≤ z ∧ z ≤ maxSafeInteger := by
    intro lo hi z hz hlo hhi
    rw [isBetween_iff] at hz
    unfold maxSafeInteger
    omega
  cases a with
  | image bytes width height =>
    cases b with
    | image bytes' width' height' =>
      simp only [CapabilityKind.accepted, Bool.and_eq_true] at ha hb
      simp only [CapabilityKind.members, List.cons.injEq, Prod.mk.injEq, true_and, and_true] at h
      rw [int_inj (hsafe ha.1.1 le_rfl le_rfl) (hsafe hb.1.1 le_rfl le_rfl) h.1,
        int_inj (hsafe ha.1.2 le_rfl (by decide)) (hsafe hb.1.2 le_rfl (by decide)) h.2.1,
        int_inj (hsafe ha.2 le_rfl (by decide)) (hsafe hb.2 le_rfl (by decide)) h.2.2]
    | measurement => simp [CapabilityKind.members, js, codeUnits] at h
  | measurement c =>
    cases b with
    | image => simp [CapabilityKind.members, js, codeUnits] at h
    | measurement d =>
      simp only [CapabilityKind.members, List.cons.injEq, Prod.mk.injEq, true_and, and_true] at h
      rw [channels_toJson_inj h]

omit [LawfulEq ν] in
theorem SensorCapability.toJson_inj {c d : SensorCapability ν} (hc : c.accepted = true) (hd : d.accepted = true)
    (h : c.toJson = d.toJson) : c = d := by
  simp only [SensorCapability.accepted, Bool.and_eq_true, isBetween_iff] at hc hd
  simp only [SensorCapability.toJson, Json.obj.injEq, List.cons_append, List.nil_append, List.cons.injEq,
    Prod.mk.injEq, true_and, Json.str.injEq, Json.bool.injEq] at h
  obtain ⟨hid, hprofile, hversion, henabled, hrequired, hinterval, hkind⟩ := h
  have hversions : c.profileVersion = d.profileVersion := by
    refine int_inj ?_ ?_ hversion
    · unfold maxSafeInteger at hc ⊢
      omega
    · unfold maxSafeInteger at hd ⊢
      omega
  have hintervals : c.intervalS = d.intervalS := by
    refine int_inj ?_ ?_ hinterval
    · unfold maxSafeInteger
      omega
    · unfold maxSafeInteger
      omega
  have hkinds := CapabilityKind.members_inj hc.2 hd.2 hkind
  obtain ⟨id, profileId, profileVersion, enabled, required, intervalS, kind⟩ := c
  dsimp only at hid hprofile hversions henabled hrequired hintervals hkinds
  rw [hid, hprofile, hversions, henabled, hrequired, hintervals, hkinds]

omit [LawfulEq ν] [LawfulJson ν] in
theorem accepted_of_mem {caps : List (SensorCapability ν)} (h : deviceCapabilitiesAccepted caps = true)
    {c : SensorCapability ν} (hc : c ∈ caps) : c.accepted = true := by
  simp only [deviceCapabilitiesAccepted, Bool.and_eq_true, List.all_eq_true] at h
  exact h.1.1.2 c hc

omit [LawfulEq ν] in
theorem capabilitiesText_inj {caps caps' : List (SensorCapability ν)} (h : deviceCapabilitiesAccepted caps = true)
    (h' : deviceCapabilitiesAccepted caps' = true) (htext : capabilitiesText caps = capabilitiesText caps') :
    caps = caps' :=
  map_inj_on (fun _ hc _ hd => SensorCapability.toJson_inj (accepted_of_mem h hc) (accepted_of_mem h' hd))
    (Json.arr.inj (stringify_injective htext))

omit [LawfulEq ν] in
theorem capabilities_checked {actual : Option (List (SensorCapability ν))} {expected : List (SensorCapability ν)}
    (hactual : ∀ caps ∈ actual, deviceCapabilitiesAccepted caps = true)
    (hexpected : expected.length ≠ 0 → deviceCapabilitiesAccepted expected = true) :
    actual.map capabilitiesText = expectedText expected ↔ actual.getD [] = expected := by
  have hnonempty : ∀ caps ∈ actual, caps.length ≠ 0 := by
    intro caps hcaps
    have haccepted := hactual caps hcaps
    simp only [deviceCapabilitiesAccepted, Bool.and_eq_true, decide_eq_true_eq] at haccepted
    omega
  unfold expectedText
  cases actual with
  | none =>
    constructor
    · intro htext
      split at htext
      · rename_i hlength
        exact (List.length_eq_zero_iff.mp hlength).symm
      · exact absurd htext (by simp)
    · intro hnil
      rw [if_pos (by rw [← hnil]; rfl)]
      rfl
  | some caps =>
    constructor
    · intro htext
      split at htext
      · exact absurd htext (by simp)
      · rename_i hlength
        exact capabilitiesText_inj (hactual caps rfl) (hexpected hlength) (Option.some.inj htext)
    · intro hsame
      have hcaps : caps = expected := hsame
      rw [if_neg (hcaps ▸ hnonempty caps rfl), hcaps]
      rfl

omit [LawfulEq ν] [LawfulJson ν] in
theorem capabilities_of_safeParse {value : Json ν} {record : FirmwarePassedRecord ν}
    (h : FirmwarePassedRecord.safeParse value = some record) :
    ∀ caps ∈ record.manifest.capabilities, deviceCapabilitiesAccepted caps = true := by
  simp only [FirmwarePassedRecord.safeParse, Option.bind_eq_bind, Option.bind_eq_some_iff] at h
  obtain ⟨_, -, _, -, _, -, _, -, manifest, hmanifest, _, -, _, -, _, -, _, -, _, -, _, -, hrecord⟩ := h
  obtain rfl := Option.some.inj hrecord
  obtain ⟨j, hmanifest⟩ := member_eq_some hmanifest
  simp only [FirmwareManifest.safeParse, Option.bind_eq_bind, Option.bind_eq_some_iff] at hmanifest
  obtain ⟨_, -, _, -, _, -, _, -, _, -, _, -, _, -, _, -, caps, hcaps, _, -, _, -, hfilter⟩ := hmanifest
  obtain ⟨hsome, -⟩ := Option.filter_eq_some_iff.mp hfilter
  obtain rfl := Option.some.inj hsome
  intro caps' hcaps'
  obtain ⟨j', hj'⟩ := optionalMember_eq_some hcaps caps' hcaps'
  exact (Option.filter_eq_some_iff.mp hj').2

/-! ## When a record is taken -/

variable {sha256 : Text → Text} {value : Json ν} {identity : Identity ν} {record : FirmwarePassedRecord ν}

/-- **A record is taken when it matches and its capabilities are listed as they are expected to be.** -/
theorem accepts_iff (h : FirmwarePassedRecord.safeParse value = some record) :
    Accepts sha256 value identity ↔
      record.Matches sha256 identity ∧ record.manifest.capabilities.getD [] = identity.capabilities.getD [] := by
  have hactual := capabilities_of_safeParse h
  unfold Accepts verifyProvisioningFirmware
  rw [h]
  dsimp only
  constructor
  · intro ⟨record', htaken⟩
    split at htaken
    · exact absurd htaken (by simp)
    rename_i hids
    split at htaken
    · exact absurd htaken (by simp)
    rename_i hchannels
    split at htaken
    · exact absurd htaken (by simp)
    rename_i hthrows
    split at htaken
    · exact absurd htaken (by simp)
    rename_i htext
    split at htaken
    swap
    · exact absurd htaken (by simp)
    rename_i hdigest
    simp only [not_or, not_not, Bool.not_eq_false, LawfulEq.eq_iff, ne_eq] at hids
    obtain ⟨hcandidate, hbuild, hplan, hcode, hruntime, hprofile⟩ := hids
    have hexpected : (identity.capabilities.getD []).length ≠ 0 →
        deviceCapabilitiesAccepted (identity.capabilities.getD []) = true := by
      intro hlength
      by_contra hrefused
      exact hthrows ⟨hlength, Bool.eq_false_iff.mpr hrefused⟩
    have hcaps := (capabilities_checked hactual hexpected).mp (not_not.mp htext)
    refine ⟨⟨hcandidate, hbuild, hplan, hcode, hruntime, hprofile, channels_checked.mp hchannels, ?_, hdigest⟩, hcaps⟩
    rw [hcaps]
    exact List.forall₂_same.mpr fun c _ => .refl c
  · intro ⟨hmatches, hcaps⟩
    have hexpected : (identity.capabilities.getD []).length ≠ 0 →
        deviceCapabilitiesAccepted (identity.capabilities.getD []) = true := by
      intro hlength
      rw [← hcaps] at hlength ⊢
      cases hmanifest : record.manifest.capabilities with
      | none => rw [hmanifest] at hlength; exact absurd rfl hlength
      | some caps => exact hactual caps hmanifest
    refine ⟨record, ?_⟩
    rw [if_neg, if_neg (channels_checked.mpr hmatches.channels), if_neg, if_neg, if_pos hmatches.digest]
    · exact not_not.mpr ((capabilities_checked hactual hexpected).mpr hcaps)
    · intro ⟨hlength, hrefused⟩
      exact absurd (hrefused.symm.trans (hexpected hlength)) (by simp)
    · simp only [not_or, not_not, Bool.not_eq_false, LawfulEq.eq_iff]
      exact ⟨hmatches.candidate, hmatches.build, hmatches.plan, hmatches.code, hmatches.runtime, hmatches.profile⟩

end Albusforge.Provisioning
