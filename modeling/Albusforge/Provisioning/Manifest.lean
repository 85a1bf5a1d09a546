import Albusforge.Lib.Schema
import Albusforge.Matcher.Types
import Albusforge.Observations.Gallery
import Albusforge.Provisioning.Store

/-!
# Firmware manifests

`packages/schema/src/firmware.ts`, with the channels of `telemetry.ts` and the capabilities of
`observations.ts`: what a compiled firmware says it is for, and the record that is kept of it. A schema
first reads the fields, and then checks what it has read (`accepted`), so that the checks are there for what
comes from elsewhere, too.

**A record that is stored with its names in another order reads the same** (`FirmwarePassedRecord.blind`), but
for the order of channels, and the text of its manifest does not change (`serialize_congr`).
-/

namespace Albusforge.Cloudlink

open Lib Lib.Json

variable {ν : Type} [JsonNumber ν]

/-- `z.string()` -/
def anyString : Json ν → Option Text := string fun _ => true

def Channel.read (j : Json ν) : Option (Channel ν) := do
  let members ← strictObject [js "unit", js "min", js "max"] j
  let unit ← member members (js "unit") anyString
  let min ← member members (js "min") finite
  let max ← member members (js "max") finite
  some ⟨unit, min, max⟩

def Channels.ofEntries (entries : List (Text × Channel ν)) : Option (Channels ν) :=
  if h : (entries.map Prod.fst).Nodup then some ⟨entries, h⟩ else none

def Channels.read (j : Json ν) : Option (Channels ν) := do
  let entries ← record (fun _ => true) Channel.read j
  Channels.ofEntries entries

/-- `ProvisionedChannels`: there may be none. -/
def Channels.provisioned (c : Channels ν) : Bool :=
  c.entries.all (fun e => isChannelName e.1 && e.2.accepted) && decide (c.entries.length ≤ 64)

def Channel.toJson (c : Channel ν) : Json ν :=
  .obj [(js "unit", .str c.unit), (js "min", .num c.min), (js "max", .num c.max)]

def Channels.toJson (c : Channels ν) : Json ν := .obj (c.entries.map fun e => (e.1, e.2.toJson))

def Channels.Alike (c d : Channels ν) : Prop := c.entries.Perm d.entries

end Albusforge.Cloudlink

namespace Albusforge.Provisioning

open Lib Lib.Json
open Cloudlink hiding canonical
open Observations (isSensorCapabilityId isObservationDigest)
open Matcher (isSemVer)

variable {ν : Type} [JsonNumber ν]

/-- `z.literal(text)` -/
def literal (text : Text) : Json ν → Option Text := string fun t => t = text

/-- `z.number().int()` -/
def anyInteger : Json ν → Option ℤ := integer (-maxSafeInteger) maxSafeInteger

/-- `.min(lo).max(hi)` -/
def isBetween (lo hi z : ℤ) : Bool := lo ≤ z && z ≤ hi

/-- `z.string().min(1).max(hi)` -/
def isShort (hi : ℕ) (t : Text) : Bool := 1 ≤ t.length && t.length ≤ hi

/-! ## Capabilities -/

/-- A capability of a kind, with the fields of `capabilityBase`. -/
def capabilityBase (members : List (Text × Json ν)) (kind : CapabilityKind ν) : Option (SensorCapability ν) := do
  let id ← member members (js "id") anyString
  let profileId ← member members (js "profile_id") anyString
  let profileVersion ← member members (js "profile_version") anyInteger
  let enabled ← member members (js "enabled") boolean
  let required ← member members (js "required") boolean
  let intervalS ← member members (js "interval_s") anyInteger
  some ⟨id, profileId, profileVersion, enabled, required, intervalS, kind⟩

def baseNames : List Text :=
  [js "id", js "profile_id", js "profile_version", js "enabled", js "required", js "interval_s", js "kind", js "schema"]

def imageCapability (j : Json ν) : Option (SensorCapability ν) := do
  let members ← strictObject (baseNames ++ [js "max_bytes", js "max_width", js "max_height"]) j
  let _ ← member members (js "kind") (literal (js "image"))
  let _ ← member members (js "schema") (literal (js "jpeg.v1"))
  let maxBytes ← member members (js "max_bytes") anyInteger
  let maxWidth ← member members (js "max_width") anyInteger
  let maxHeight ← member members (js "max_height") anyInteger
  capabilityBase members (.image maxBytes maxWidth maxHeight)

def measurementCapability (j : Json ν) : Option (SensorCapability ν) := do
  let members ← strictObject (baseNames ++ [js "channels"]) j
  let _ ← member members (js "kind") (literal (js "measurement"))
  let _ ← member members (js "schema") (literal (js "readings.v1"))
  let channels ← member members (js "channels") Channels.read
  capabilityBase members (.measurement channels)

/-- `SensorCapability`, before its checks. -/
def SensorCapability.read (j : Json ν) : Option (SensorCapability ν) := do
  let kind ← discriminator (js "kind") j
  if kind = js "image" then imageCapability j
  else if kind = js "measurement" then measurementCapability j
  else none

def CapabilityKind.accepted : CapabilityKind ν → Bool
  | .image maxBytes maxWidth maxHeight =>
      isBetween 1 1048576 maxBytes && isBetween 1 4096 maxWidth && isBetween 1 4096 maxHeight
  | .measurement channels => channels.accepted

def SensorCapability.accepted (c : SensorCapability ν) : Bool :=
  isSensorCapabilityId c.id && isShort 128 c.profileId && isBetween 1 maxSafeInteger c.profileVersion &&
    isBetween 1 86400 c.intervalS && c.kind.accepted

/-- `Object.keys(cap.channels)` of a measurement. -/
def SensorCapability.channelNames (c : SensorCapability ν) : List Text :=
  match c.kind with
  | .image .. => []
  | .measurement channels => channels.keys

/-- `DeviceCapabilities` -/
def deviceCapabilitiesAccepted (caps : List (SensorCapability ν)) : Bool :=
  decide (1 ≤ caps.length ∧ caps.length ≤ 64) && caps.all SensorCapability.accepted &&
    decide (caps.map SensorCapability.id).Nodup && decide (caps.flatMap SensorCapability.channelNames).Nodup

def deviceCapabilities (j : Json ν) : Option (List (SensorCapability ν)) :=
  (array SensorCapability.read 1 64 j).filter deviceCapabilitiesAccepted

/-! ## Manifests and records -/

structure FirmwareFile where
  path : Text
  sha256 : Text
  size : ℤ
  deriving DecidableEq

/-- `FirmwareManifest`. Its `v` and its `flash` are always the same. -/
structure FirmwareManifest (ν : Type) where
  buildId : Text
  planVersion : ℤ
  codeVersion : ℤ
  profileId : Text
  runtime : Text
  channels : Channels ν
  capabilities : Option (List (SensorCapability ν))
  files : List FirmwareFile

structure FirmwareJobRequest where
  requestId : Text
  intervalS : ℤ
  instruction : Text
  basedOn : Option ℤ
  attempts : ℤ
  deriving DecidableEq

/-- `FirmwarePassedRecord`. Its `schema_version` and its `idf_version` are always the same. -/
structure FirmwarePassedRecord (ν : Type) where
  job : Option FirmwareJobRequest
  candidateId : Text
  manifest : FirmwareManifest ν
  manifestDigest : Text
  imageDigest : Text
  bundleSha256 : Option Text
  sourceSha256 : Text
  instruction : Text
  diagnostics : Text

def firmwareFile (j : Json ν) : Option FirmwareFile := do
  let members ← strictObject [js "path", js "sha256", js "size"] j
  let path ← member members (js "path")
    (string fun t => [js "bootloader.bin", js "partition-table.bin", js "albusforge.bin"].contains t)
  let sha256 ← member members (js "sha256") (string isObservationDigest)
  let size ← member members (js "size") (integer 1 (3 * 1024 * 1024))
  some ⟨path, sha256, size⟩

/-- The `flash` of a manifest. -/
def flash (j : Json ν) : Option Unit := do
  let members ← strictObject [js "chip", js "config_offset", js "config_size"] j
  let _ ← member members (js "chip") (literal (js "esp32s3"))
  let _ ← member members (js "config_offset") (integer 36864 36864)
  let _ ← member members (js "config_size") (integer 24576 24576)
  some ()

def SensorCapability.isImage (c : SensorCapability ν) : Bool :=
  match c.kind with
  | .image .. => true
  | .measurement _ => false

/-- `Object.keys(manifest.channels).length > 0 || manifest.capabilities?.some(c => c.kind === "image")` -/
def FirmwareManifest.declares (m : FirmwareManifest ν) : Bool :=
  0 < m.channels.entries.length || m.capabilities.any fun caps => caps.any SensorCapability.isImage

def FirmwareManifest.safeParse (j : Json ν) : Option (FirmwareManifest ν) := do
  let members ← strictObject [js "v", js "build_id", js "plan_version", js "code_version", js "profile_id",
    js "runtime", js "channels", js "capabilities", js "files", js "flash"] j
  let _ ← member members (js "v") (integer 1 1)
  let buildId ← member members (js "build_id") (string isUuid)
  let planVersion ← member members (js "plan_version") (integer 1 maxSafeInteger)
  let codeVersion ← member members (js "code_version") (integer 1 maxSafeInteger)
  let profileId ← member members (js "profile_id") (string (isShort 120))
  let runtime ← member members (js "runtime") (string isSemVer)
  let channels ← member members (js "channels") fun j => (Channels.read j).filter Channels.provisioned
  let capabilities ← optionalMember members (js "capabilities") deviceCapabilities
  let files ← member members (js "files") fun j =>
    (array firmwareFile 3 3 j).filter fun files => decide (files.map FirmwareFile.path).Nodup
  let _ ← member members (js "flash") flash
  (some ⟨buildId, planVersion, codeVersion, profileId, runtime, channels, capabilities, files⟩).filter
    FirmwareManifest.declares

def firmwareJobRequest (j : Json ν) : Option FirmwareJobRequest := do
  let members ← strictObject [js "request_id", js "interval_s", js "instruction", js "based_on", js "attempts"] j
  let requestId ← member members (js "request_id") (string isUuid)
  let intervalS ← member members (js "interval_s") (integer 10 86400)
  let instruction ← member members (js "instruction") (string fun t => t.length ≤ 500)
  let basedOn ← member members (js "based_on") (nullable (integer 1 maxSafeInteger))
  let attempts ← member members (js "attempts") (integer 0 3)
  some ⟨requestId, intervalS, instruction, basedOn, attempts⟩

/-- `/^espressif\/idf@sha256:[a-f0-9]{64}$/` -/
def isCompilerImage (t : Text) : Bool :=
  (js "espressif/idf@sha256:").isPrefixOf t && isObservationDigest (t.drop 21)

/-- The image digest of a record's `compiler`. -/
def compiler (j : Json ν) : Option Text := do
  let members ← strictObject [js "image_digest", js "idf_version"] j
  let imageDigest ← member members (js "image_digest") (string isCompilerImage)
  let _ ← member members (js "idf_version") (literal (js "5.5.3"))
  some imageDigest

def FirmwarePassedRecord.safeParse (j : Json ν) : Option (FirmwarePassedRecord ν) := do
  let members ← strictObject [js "schema_version", js "job", js "candidate_id", js "manifest", js "manifest_digest",
    js "compiler", js "bundle_sha256", js "source_sha256", js "instruction", js "diagnostics"] j
  let _ ← member members (js "schema_version") (integer 1 1)
  let job ← optionalMember members (js "job") firmwareJobRequest
  let candidateId ← member members (js "candidate_id") (string (isShort 120))
  let manifest ← member members (js "manifest") FirmwareManifest.safeParse
  let manifestDigest ← member members (js "manifest_digest") (string isObservationDigest)
  let imageDigest ← member members (js "compiler") compiler
  let bundleSha256 ← optionalMember members (js "bundle_sha256") (string isObservationDigest)
  let sourceSha256 ← member members (js "source_sha256") (string isObservationDigest)
  let instruction ← member members (js "instruction") (string fun t => t.length ≤ 500)
  let diagnostics ← member members (js "diagnostics") (string fun t => t.length ≤ 20000)
  some ⟨job, candidateId, manifest, manifestDigest, imageDigest, bundleSha256, sourceSha256, instruction, diagnostics⟩

/-! ## The canonical text -/

def CapabilityKind.members : CapabilityKind ν → List (Text × Json ν)
  | .image maxBytes maxWidth maxHeight =>
      [(js "kind", .str (js "image")), (js "schema", .str (js "jpeg.v1")), (js "max_bytes", int maxBytes),
        (js "max_width", int maxWidth), (js "max_height", int maxHeight)]
  | .measurement channels =>
      [(js "kind", .str (js "measurement")), (js "schema", .str (js "readings.v1")), (js "channels", channels.toJson)]

def SensorCapability.toJson (c : SensorCapability ν) : Json ν :=
  .obj ([(js "id", .str c.id), (js "profile_id", .str c.profileId), (js "profile_version", int c.profileVersion),
    (js "enabled", .bool c.enabled), (js "required", .bool c.required), (js "interval_s", int c.intervalS)] ++
      c.kind.members)

/-- The text of `JSON.stringify`, of capabilities. -/
def capabilitiesText (caps : List (SensorCapability ν)) : Text := stringify (.arr (caps.map SensorCapability.toJson))

def FirmwareFile.toJson (f : FirmwareFile) : Json ν :=
  .obj [(js "path", .str f.path), (js "sha256", .str f.sha256), (js "size", int f.size)]

def FirmwareManifest.toJson (m : FirmwareManifest ν) : Json ν :=
  .obj ([(js "v", int 1), (js "build_id", .str m.buildId), (js "plan_version", int m.planVersion),
    (js "code_version", int m.codeVersion), (js "profile_id", .str m.profileId), (js "runtime", .str m.runtime),
    (js "channels", m.channels.toJson)] ++
      (m.capabilities.elim [] fun caps => [(js "capabilities", .arr (caps.map SensorCapability.toJson))]) ++
      [(js "files", .arr (m.files.map FirmwareFile.toJson)), (js "flash", .obj [(js "chip", .str (js "esp32s3")),
        (js "config_offset", int 36864), (js "config_size", int 24576)])])

/-- `serializeFirmwareManifest`. A manifest that was accepted parses as itself. -/
def serializeFirmwareManifest (m : FirmwareManifest ν) : Text := canonicalJson m.toJson

/-! ## The same but for the order of channels -/

inductive CapabilityKind.Alike : CapabilityKind ν → CapabilityKind ν → Prop
  | image (maxBytes maxWidth maxHeight : ℤ) :
      Alike (.image maxBytes maxWidth maxHeight) (.image maxBytes maxWidth maxHeight)
  | measurement {c d : Channels ν} : c.Alike d → Alike (.measurement c) (.measurement d)

structure SensorCapability.Alike (c d : SensorCapability ν) : Prop where
  rest : d = { c with kind := d.kind }
  kind : c.kind.Alike d.kind

omit [JsonNumber ν] in
theorem SensorCapability.Alike.refl (c : SensorCapability ν) : c.Alike c := by
  refine ⟨rfl, ?_⟩
  cases c.kind with
  | image => exact .image _ _ _
  | measurement => exact .measurement (List.Perm.refl _)

structure FirmwareManifest.Alike (m n : FirmwareManifest ν) : Prop where
  rest : n = { m with channels := n.channels, capabilities := n.capabilities }
  channels : m.channels.Alike n.channels
  capabilities : Option.Rel (List.Forall₂ SensorCapability.Alike) m.capabilities n.capabilities

structure FirmwarePassedRecord.Alike (r s : FirmwarePassedRecord ν) : Prop where
  rest : s = { r with manifest := s.manifest }
  manifest : r.manifest.Alike s.manifest

/-! ## Reading with the names in another order -/

omit [JsonNumber ν] in
theorem blind_anyString : Blind Eq (anyString : Json ν → Option Text) := blind_string _

omit [JsonNumber ν] in
theorem blind_literal (text : Text) : Blind Eq (literal text : Json ν → Option Text) := blind_string _

theorem blind_anyInteger : Blind Eq (anyInteger : Json ν → Option ℤ) := blind_integer _ _

theorem blind_channel : Blind Eq (Channel.read : Json ν → Option (Channel ν)) := by
  refine blind_object _ fun m m' h => ?_
  refine rel_bind_eq (h.member _ blind_anyString) fun unit => ?_
  refine rel_bind_eq (h.member _ blind_finite) fun min => ?_
  exact rel_bind_eq (h.member _ blind_finite) fun max => rel_eq _

theorem blind_channels : Blind Channels.Alike (Channels.read : Json ν → Option (Channels ν)) := by
  intro j j' hj hj' h
  refine rel_bind (blind_channel.record _ j j' hj hj' h) fun entries entries' hperm => ?_
  have hnames := (hperm.map Prod.fst).nodup_iff
  unfold Channels.ofEntries
  by_cases hnodup : (entries.map Prod.fst).Nodup
  · rw [dif_pos hnodup, dif_pos (hnames.mp hnodup)]
    exact .some hperm
  · rw [dif_neg hnodup, dif_neg fun h => hnodup (hnames.mpr h)]
    exact .none

theorem rel_capabilityBase {m m' : List (Text × Json ν)} (h : SameMembers m m') {kind kind' : CapabilityKind ν}
    (hkind : kind.Alike kind') :
    Option.Rel SensorCapability.Alike (capabilityBase m kind) (capabilityBase m' kind') := by
  refine rel_bind_eq (h.member _ blind_anyString) fun id => ?_
  refine rel_bind_eq (h.member _ blind_anyString) fun profileId => ?_
  refine rel_bind_eq (h.member _ blind_anyInteger) fun profileVersion => ?_
  refine rel_bind_eq (h.member _ blind_boolean) fun enabled => ?_
  refine rel_bind_eq (h.member _ blind_boolean) fun required => ?_
  exact rel_bind_eq (h.member _ blind_anyInteger) fun intervalS => .some ⟨rfl, hkind⟩

theorem blind_imageCapability :
    Blind SensorCapability.Alike (imageCapability : Json ν → Option (SensorCapability ν)) := by
  refine blind_object _ fun m m' h => ?_
  refine rel_bind_eq (h.member _ (blind_literal _)) fun _ => ?_
  refine rel_bind_eq (h.member _ (blind_literal _)) fun _ => ?_
  refine rel_bind_eq (h.member _ blind_anyInteger) fun maxBytes => ?_
  refine rel_bind_eq (h.member _ blind_anyInteger) fun maxWidth => ?_
  exact rel_bind_eq (h.member _ blind_anyInteger) fun maxHeight => rel_capabilityBase h (.image _ _ _)

theorem blind_measurementCapability :
    Blind SensorCapability.Alike (measurementCapability : Json ν → Option (SensorCapability ν)) := by
  refine blind_object _ fun m m' h => ?_
  refine rel_bind_eq (h.member _ (blind_literal _)) fun _ => ?_
  refine rel_bind_eq (h.member _ (blind_literal _)) fun _ => ?_
  exact rel_bind (h.member _ blind_channels) fun c d hcd => rel_capabilityBase h (.measurement hcd)

theorem blind_sensorCapability :
    Blind SensorCapability.Alike (SensorCapability.read : Json ν → Option (SensorCapability ν)) := by
  intro j j' hj hj' h
  refine rel_bind_eq (blind_discriminator _ j j' hj hj' h) fun kind => ?_
  split
  · exact blind_imageCapability j j' hj hj' h
  · split
    · exact blind_measurementCapability j j' hj hj' h
    · exact .none

/-! ### Checks of what is alike -/

theorem channels_all {c d : Channels ν} (h : c.Alike d) :
    (c.entries.all fun e => isChannelName e.1 && e.2.accepted) =
      d.entries.all fun e => isChannelName e.1 && e.2.accepted := by
  rw [Bool.eq_iff_iff, List.all_eq_true, List.all_eq_true]
  constructor
  · exact fun hall e he => hall e (h.mem_iff.mpr he)
  · exact fun hall e he => hall e (h.mem_iff.mp he)

theorem channels_accepted {c d : Channels ν} (h : c.Alike d) : c.accepted = d.accepted := by
  rw [Channels.accepted, Channels.accepted, channels_all h, h.length_eq]

theorem channels_provisioned {c d : Channels ν} (h : c.Alike d) : c.provisioned = d.provisioned := by
  rw [Channels.provisioned, Channels.provisioned, channels_all h, h.length_eq]

omit [JsonNumber ν] in
theorem SensorCapability.Alike.id_eq {c d : SensorCapability ν} (h : c.Alike d) : c.id = d.id := by
  rw [h.rest]

theorem SensorCapability.Alike.accepted_eq {c d : SensorCapability ν} (h : c.Alike d) : c.accepted = d.accepted := by
  have hkind : c.kind.accepted = d.kind.accepted := by
    have hkinds := h.kind
    generalize c.kind = a at hkinds
    generalize d.kind = b at hkinds
    cases hkinds with
    | image => rfl
    | measurement hcd => exact channels_accepted hcd
  rw [SensorCapability.accepted, hkind, h.rest]
  rfl

omit [JsonNumber ν] in
theorem SensorCapability.Alike.names_perm {c d : SensorCapability ν} (h : c.Alike d) :
    c.channelNames.Perm d.channelNames := by
  have hkinds := h.kind
  unfold SensorCapability.channelNames
  generalize c.kind = a at hkinds
  generalize d.kind = b at hkinds
  cases hkinds with
  | image => exact List.Perm.refl _
  | measurement hcd => exact hcd.map Prod.fst

theorem deviceCapabilities_alike {caps caps' : List (SensorCapability ν)}
    (h : List.Forall₂ SensorCapability.Alike caps caps') :
    deviceCapabilitiesAccepted caps = deviceCapabilitiesAccepted caps' := by
  have hall : caps.all SensorCapability.accepted = caps'.all SensorCapability.accepted ∧
      caps.map SensorCapability.id = caps'.map SensorCapability.id ∧
      (caps.flatMap SensorCapability.channelNames).Perm (caps'.flatMap SensorCapability.channelNames) := by
    induction h with
    | nil => exact ⟨rfl, rfl, List.Perm.refl _⟩
    | cons hhead _ ih =>
      refine ⟨?_, ?_, hhead.names_perm.append ih.2.2⟩
      · rw [List.all_cons, List.all_cons, hhead.accepted_eq, ih.1]
      · rw [List.map_cons, List.map_cons, hhead.id_eq, ih.2.1]
  obtain ⟨haccepted, hids, hnames⟩ := hall
  rw [deviceCapabilitiesAccepted, deviceCapabilitiesAccepted, haccepted, hids, h.length_eq]
  simp only [hnames.nodup_iff]

omit [JsonNumber ν] in
theorem SensorCapability.Alike.isImage_eq {c d : SensorCapability ν} (h : c.Alike d) : c.isImage = d.isImage := by
  have hkinds := h.kind
  unfold SensorCapability.isImage
  generalize c.kind = a at hkinds
  generalize d.kind = b at hkinds
  cases hkinds with
  | image => rfl
  | measurement => rfl

omit [JsonNumber ν] in
theorem FirmwareManifest.Alike.declares_eq {m n : FirmwareManifest ν} (h : m.Alike n) : m.declares = n.declares := by
  have hcaps : (m.capabilities.any fun caps => caps.any SensorCapability.isImage) =
      n.capabilities.any fun caps => caps.any SensorCapability.isImage := by
    have hrel := h.capabilities
    generalize m.capabilities = a at hrel
    generalize n.capabilities = b at hrel
    cases hrel with
    | none => rfl
    | some hall =>
      simp only [Option.any_some]
      induction hall with
      | nil => rfl
      | cons hhead _ ih => rw [List.any_cons, List.any_cons, hhead.isImage_eq, ih]
  rw [FirmwareManifest.declares, FirmwareManifest.declares, hcaps, h.channels.length_eq]

/-! ### Manifests and records -/

theorem blind_deviceCapabilities :
    Blind (List.Forall₂ SensorCapability.Alike) (deviceCapabilities : Json ν → Option (List (SensorCapability ν))) :=
  (blind_sensorCapability.array 1 64).filter fun _ _ => deviceCapabilities_alike

theorem blind_firmwareFile : Blind Eq (firmwareFile : Json ν → Option FirmwareFile) := by
  refine blind_object _ fun m m' h => ?_
  refine rel_bind_eq (h.member _ (blind_string _)) fun path => ?_
  refine rel_bind_eq (h.member _ (blind_string _)) fun sha256 => ?_
  exact rel_bind_eq (h.member _ (blind_integer _ _)) fun size => rel_eq _

theorem blind_flash : Blind Eq (flash : Json ν → Option Unit) := by
  refine blind_object _ fun m m' h => ?_
  refine rel_bind_eq (h.member _ (blind_literal _)) fun _ => ?_
  refine rel_bind_eq (h.member _ (blind_integer _ _)) fun _ => ?_
  exact rel_bind_eq (h.member _ (blind_integer _ _)) fun _ => rel_eq _

theorem blind_manifest :
    Blind FirmwareManifest.Alike (FirmwareManifest.safeParse : Json ν → Option (FirmwareManifest ν)) := by
  refine blind_object _ fun m m' h => ?_
  refine rel_bind_eq (h.member _ (blind_integer _ _)) fun _ => ?_
  refine rel_bind_eq (h.member _ (blind_string _)) fun buildId => ?_
  refine rel_bind_eq (h.member _ (blind_integer _ _)) fun planVersion => ?_
  refine rel_bind_eq (h.member _ (blind_integer _ _)) fun codeVersion => ?_
  refine rel_bind_eq (h.member _ (blind_string _)) fun profileId => ?_
  refine rel_bind_eq (h.member _ (blind_string _)) fun runtime => ?_
  refine rel_bind (h.member _ (blind_channels.filter fun _ _ => channels_provisioned)) fun c d hchannels => ?_
  refine rel_bind (h.optionalMember _ blind_deviceCapabilities) fun caps caps' hcaps => ?_
  refine rel_bind_eq (h.member _ ((blind_firmwareFile.array_eq 3 3).filter fun _ _ h => by rw [h])) fun files => ?_
  refine rel_bind_eq (h.member _ blind_flash) fun _ => ?_
  exact rel_filter (.some ⟨rfl, hchannels, hcaps⟩) fun _ _ => FirmwareManifest.Alike.declares_eq

theorem blind_job : Blind Eq (firmwareJobRequest : Json ν → Option FirmwareJobRequest) := by
  refine blind_object _ fun m m' h => ?_
  refine rel_bind_eq (h.member _ (blind_string _)) fun requestId => ?_
  refine rel_bind_eq (h.member _ (blind_integer _ _)) fun intervalS => ?_
  refine rel_bind_eq (h.member _ (blind_string _)) fun instruction => ?_
  refine rel_bind_eq (h.member _ (blind_integer _ _).nullable) fun basedOn => ?_
  exact rel_bind_eq (h.member _ (blind_integer _ _)) fun attempts => rel_eq _

omit [JsonNumber ν] in
theorem blind_compiler : Blind Eq (compiler : Json ν → Option Text) := by
  refine blind_object _ fun m m' h => ?_
  refine rel_bind_eq (h.member _ (blind_string _)) fun imageDigest => ?_
  exact rel_bind_eq (h.member _ (blind_literal _)) fun _ => rel_eq _

theorem FirmwarePassedRecord.blind :
    Blind FirmwarePassedRecord.Alike (FirmwarePassedRecord.safeParse : Json ν → Option (FirmwarePassedRecord ν)) := by
  refine blind_object _ fun m m' h => ?_
  refine rel_bind_eq (h.member _ (blind_integer _ _)) fun _ => ?_
  refine rel_bind_eq (h.optional_eq _ blind_job) fun job => ?_
  refine rel_bind_eq (h.member _ (blind_string _)) fun candidateId => ?_
  refine rel_bind (h.member _ blind_manifest) fun manifest manifest' hmanifest => ?_
  refine rel_bind_eq (h.member _ (blind_string _)) fun manifestDigest => ?_
  refine rel_bind_eq (h.member _ blind_compiler) fun imageDigest => ?_
  refine rel_bind_eq (h.optional_eq _ (blind_string _)) fun bundleSha256 => ?_
  refine rel_bind_eq (h.member _ (blind_string _)) fun sourceSha256 => ?_
  refine rel_bind_eq (h.member _ (blind_string _)) fun instruction => ?_
  exact rel_bind_eq (h.member _ (blind_string _)) fun diagnostics => .some ⟨rfl, hmanifest⟩

/-! ## The text does not change -/

omit [JsonNumber ν] in
theorem canonicalMembers_map (members : List (Text × Json ν)) :
    canonicalMembers members = members.map fun x => (x.1, canonical x.2) := by
  rw [canonicalMembers_eq_arranged, arrangedMembers_eq]
  simp only [canonical_eq_arranged]

omit [JsonNumber ν] in
theorem canonical_channels {c d : Channels ν} (h : c.Alike d) : canonical c.toJson = canonical d.toJson := by
  have hcanonical : ∀ e : Channels ν, canonical e.toJson =
      .obj (reordered (e.entries.map fun x => (x.1, canonical x.2.toJson))) := by
    intro e
    rw [Channels.toJson, canonical, canonicalMembers_map, List.map_map]
    rfl
  have hnames : ((c.entries.map fun x => (x.1, canonical x.2.toJson)).map Prod.fst).Nodup := by
    rw [List.map_map]
    exact c.nodup
  rw [hcanonical, hcanonical, reordered_congr hnames (h.map _)]

theorem canonical_capability {c d : SensorCapability ν} (h : c.Alike d) : canonical c.toJson = canonical d.toJson := by
  have hmembers : canonicalMembers c.kind.members = canonicalMembers d.kind.members := by
    have hkinds := h.kind
    generalize c.kind = a at hkinds
    generalize d.kind = b at hkinds
    cases hkinds with
    | image => rfl
    | measurement hcd => simp only [CapabilityKind.members, canonicalMembers, canonical_channels hcd]
  rw [SensorCapability.toJson, SensorCapability.toJson, h.rest]
  simp only [List.cons_append, List.nil_append, canonical, canonicalMembers, hmembers]

theorem canonical_capabilities {caps caps' : List (SensorCapability ν)}
    (h : List.Forall₂ SensorCapability.Alike caps caps') :
    canonicalItems (caps.map SensorCapability.toJson) = canonicalItems (caps'.map SensorCapability.toJson) := by
  induction h with
  | nil => rfl
  | cons hhead _ ih =>
    rw [List.map_cons, List.map_cons, canonicalItems, canonicalItems, canonical_capability hhead, ih]

/-- **The manifest's text does not see the order of channels.** -/
theorem serialize_congr {m n : FirmwareManifest ν} (h : m.Alike n) :
    serializeFirmwareManifest m = serializeFirmwareManifest n := by
  have hcaps : canonicalMembers (m.capabilities.elim [] fun caps =>
        [(js "capabilities", Json.arr (caps.map SensorCapability.toJson))]) =
      canonicalMembers (n.capabilities.elim [] fun caps =>
        [(js "capabilities", Json.arr (caps.map SensorCapability.toJson))]) := by
    have hrel := h.capabilities
    generalize m.capabilities = a at hrel
    generalize n.capabilities = b at hrel
    cases hrel with
    | none => rfl
    | some hall => simp only [Option.elim_some, canonicalMembers, canonical, canonical_capabilities hall]
  simp only [canonicalMembers_map] at hcaps
  rw [serializeFirmwareManifest, serializeFirmwareManifest, FirmwareManifest.toJson, FirmwareManifest.toJson, h.rest]
  simp only [canonicalJson, canonical, canonicalMembers_map, List.map_append, List.map_cons, hcaps,
    canonical_channels h.channels]

end Albusforge.Provisioning
