import Albusforge.Provisioning.FirmwareCheck

/-!
# The order of channels

A record is stored by one service, in a column that lists the names of an object by their length, and is compared with
a profile out of a file. What matches is the same in any order (`Matches.congr`), and what is published for a candidate
matches (`Published.matches`); but a capability with two channels is listed in one order or the other.

**So firmware with two channels in one capability is taken or not by their order** (`verifies_iff`).
-/

namespace Albusforge.Provisioning

open Lib Lib.Json
open Cloudlink hiding canonical

variable {ν : Type} [JsonNumber ν] [LawfulEq ν] [LawfulJson ν]

section Taking

variable {sha256 : Text → Text} {value : Json ν} {identity : Identity ν} {record : FirmwarePassedRecord ν}

/-! ## The order of channels -/

section Order

omit [JsonNumber ν] [LawfulEq ν] [LawfulJson ν]

theorem SensorCapability.Alike.symm {c d : SensorCapability ν} (h : c.Alike d) : d.Alike c := by
  obtain ⟨hrest, hkind⟩ := h
  refine ⟨by rw [hrest], ?_⟩
  generalize c.kind = a at hkind
  generalize d.kind = b at hkind
  cases hkind with
  | image => exact .image _ _ _
  | measurement hcd => exact .measurement (List.Perm.symm hcd)

theorem SensorCapability.Alike.trans {c d e : SensorCapability ν} (h : c.Alike d) (h' : d.Alike e) : c.Alike e := by
  obtain ⟨hrest, hkind⟩ := h
  obtain ⟨hrest', hkind'⟩ := h'
  refine ⟨by rw [hrest', hrest], ?_⟩
  generalize c.kind = a at hkind
  generalize d.kind = b at hkind hkind'
  generalize e.kind = x at hkind'
  cases hkind with
  | image => exact hkind'
  | measurement hcd =>
    cases hkind' with
    | measurement hde => exact .measurement (List.Perm.trans hcd hde)

theorem capabilities_symm {l l' : List (SensorCapability ν)} (h : List.Forall₂ SensorCapability.Alike l l') :
    List.Forall₂ SensorCapability.Alike l' l := by
  induction h with
  | nil => exact .nil
  | cons hhead _ ih => exact .cons hhead.symm ih

theorem capabilities_trans {l l' l'' : List (SensorCapability ν)} (h : List.Forall₂ SensorCapability.Alike l l')
    (h' : List.Forall₂ SensorCapability.Alike l' l'') : List.Forall₂ SensorCapability.Alike l l'' := by
  induction h generalizing l'' with
  | nil => exact h'
  | cons hhead _ ih =>
    cases h' with
    | cons hhead' htail' => exact .cons (hhead.trans hhead') (ih htail')

theorem capabilities_getD {x y : Option (List (SensorCapability ν))}
    (h : Option.Rel (List.Forall₂ SensorCapability.Alike) x y) :
    List.Forall₂ SensorCapability.Alike (x.getD []) (y.getD []) := by
  cases h with
  | none => exact .nil
  | some h => exact h

theorem capabilities_rel_symm {x y : Option (List (SensorCapability ν))}
    (h : Option.Rel (List.Forall₂ SensorCapability.Alike) x y) :
    Option.Rel (List.Forall₂ SensorCapability.Alike) y x := by
  cases h with
  | none => exact .none
  | some h => exact .some (capabilities_symm h)

theorem FirmwarePassedRecord.Alike.symm {r s : FirmwarePassedRecord ν} (h : r.Alike s) : s.Alike r := by
  obtain ⟨hrest, hmanifest⟩ := h
  obtain ⟨hmrest, hchannels, hcaps⟩ := hmanifest
  exact ⟨by rw [hrest], by rw [hmrest], hchannels.symm, capabilities_rel_symm hcaps⟩

theorem capabilities_rel_refl (x : Option (List (SensorCapability ν))) :
    Option.Rel (List.Forall₂ SensorCapability.Alike) x x := by
  cases x with
  | none => exact .none
  | some caps => exact .some (List.forall₂_same.mpr fun c _ => .refl c)

theorem FirmwarePassedRecord.Alike.refl (r : FirmwarePassedRecord ν) : r.Alike r :=
  ⟨rfl, rfl, List.Perm.refl _, capabilities_rel_refl _⟩

theorem Identity.Alike.refl (i : Identity ν) : i.Alike i := ⟨rfl, List.Perm.refl _, capabilities_rel_refl _⟩

theorem Identity.Alike.symm {i j : Identity ν} (h : i.Alike j) : j.Alike i :=
  ⟨by rw [h.rest], h.channels.symm, capabilities_rel_symm h.capabilities⟩

theorem perm_eq {α : Type} {l l' : List α} (h : l.Perm l') (hone : l.length ≤ 1) : l = l' := by
  match l, hone, h with
  | [], _, h => exact (List.nil_perm.mp h).symm
  | [a], _, h => exact List.singleton_perm.mp h

theorem eq_of_alike {c d : SensorCapability ν} (h : c.Alike d) (hone : c.channelNames.length ≤ 1) : c = d := by
  obtain ⟨hrest, hkind⟩ := h
  have hkinds : c.kind = d.kind := by
    unfold SensorCapability.channelNames at hone
    generalize c.kind = a at hkind hone
    generalize d.kind = b at hkind
    cases hkind with
    | image => rfl
    | @measurement x y hxy =>
      obtain ⟨entries, hnodup⟩ := x
      obtain ⟨entries', hnodup'⟩ := y
      have hlength : entries.length ≤ 1 := by simpa [Channels.keys] using hone
      obtain rfl : entries = entries' := perm_eq hxy hlength
      rfl
  rw [hrest, ← hkinds]

theorem eq_of_forall_alike {l l' : List (SensorCapability ν)} (h : List.Forall₂ SensorCapability.Alike l l')
    (hone : ∀ c ∈ l, c.channelNames.length ≤ 1) : l = l' := by
  induction h with
  | nil => rfl
  | cons hhead _ ih =>
    rw [eq_of_alike hhead (hone _ (List.mem_cons_self ..)), ih fun c hc => hone c (List.mem_cons_of_mem _ hc)]

def swapFirst {α : Type} : List α → List α
  | a :: b :: l => b :: a :: l
  | l => l

theorem swapFirst_perm {α : Type} (l : List α) : l.Perm (swapFirst l) := by
  match l with
  | [] => exact List.Perm.refl _
  | [a] => exact List.Perm.refl _
  | a :: b :: l => exact List.Perm.swap b a l

def Channels.swap (c : Channels ν) : Channels ν where
  entries := swapFirst c.entries
  nodup := ((swapFirst_perm c.entries).map Prod.fst).nodup_iff.mp c.nodup

def SensorCapability.swap (c : SensorCapability ν) : SensorCapability ν :=
  match c.kind with
  | .image .. => c
  | .measurement channels => { c with kind := .measurement (Channels.swap channels) }

theorem SensorCapability.swap_alike (c : SensorCapability ν) : c.Alike c.swap := by
  obtain ⟨id, profileId, profileVersion, enabled, required, intervalS, kind⟩ := c
  cases kind with
  | image => exact .refl _
  | measurement channels => exact ⟨rfl, .measurement (swapFirst_perm _)⟩

theorem SensorCapability.length_of_swap {c : SensorCapability ν} (h : c.swap = c) : c.channelNames.length ≤ 1 := by
  obtain ⟨id, profileId, profileVersion, enabled, required, intervalS, kind⟩ := c
  cases kind with
  | image => exact Nat.zero_le 1
  | measurement channels =>
    have hentries : swapFirst channels.entries = channels.entries :=
      congrArg Channels.entries (CapabilityKind.measurement.inj (congrArg SensorCapability.kind h))
    show (channels.entries.map Prod.fst).length ≤ 1
    rw [List.length_map]
    have hnodup := List.Nodup.of_map _ channels.nodup
    match hlist : channels.entries, hentries, hnodup with
    | [], _, _ => exact Nat.zero_le 1
    | [e], _, _ => exact Nat.le_refl 1
    | e :: f :: l, hentries, hnodup =>
      obtain ⟨hef, -⟩ := List.cons.inj hentries
      rw [hef] at hnodup
      exact absurd (List.mem_cons_self ..) (List.nodup_cons.mp hnodup).1

def Identity.swap (i : Identity ν) : Identity ν := { i with capabilities := i.capabilities.map (List.map .swap) }

theorem Identity.swap_alike (i : Identity ν) : i.Alike i.swap := by
  refine ⟨rfl, List.Perm.refl _, ?_⟩
  rw [Identity.swap]
  cases i.capabilities with
  | none => exact .none
  | some caps =>
    refine .some ?_
    rw [List.forall₂_map_right_iff]
    exact List.forall₂_same.mpr fun c _ => c.swap_alike

theorem Identity.swap_getD (i : Identity ν) :
    i.swap.capabilities.getD [] = (i.capabilities.getD []).map .swap := by
  rw [Identity.swap]
  cases i.capabilities with
  | none => rfl
  | some caps => rfl

theorem single_of_alike {l l' : List (SensorCapability ν)} (h : List.Forall₂ SensorCapability.Alike l l')
    (hone : ∀ c ∈ l, c.channelNames.length ≤ 1) : ∀ c ∈ l', c.channelNames.length ≤ 1 := by
  induction h with
  | nil => exact fun c hc => absurd hc List.not_mem_nil
  | cons hhead _ ih =>
    rw [List.forall_mem_cons] at hone ⊢
    exact ⟨hhead.names_perm.length_eq ▸ hone.1, ih hone.2⟩

end Order

omit [LawfulEq ν] [LawfulJson ν] in
theorem FirmwarePassedRecord.Matches.congr {record' : FirmwarePassedRecord ν} {identity' : Identity ν}
    (h : record.Matches sha256 identity) (hrecord : record.Alike record') (hidentity : identity.Alike identity') :
    record'.Matches sha256 identity' := by
  have hcaps := capabilities_trans (capabilities_symm (capabilities_getD hrecord.manifest.capabilities))
    (capabilities_trans h.capabilities (capabilities_getD hidentity.capabilities))
  have hchannels := (hrecord.manifest.channels.symm.trans h.channels).trans hidentity.channels
  have hrest := hrecord.rest
  have hmanifest := hrecord.manifest.rest
  have hprofile : record'.manifest.profileId = record.manifest.profileId := by rw [hmanifest]
  refine ⟨?_, ?_, ?_, ?_, ?_, ?_, hchannels, hcaps, ?_⟩
  · rw [hprofile, ← h.candidate, hrest]
  · rw [hmanifest, hidentity.rest]
    exact h.build
  · rw [hmanifest, hidentity.rest]
    exact h.plan
  · rw [hmanifest, hidentity.rest]
    exact h.code
  · rw [hmanifest, hidentity.rest]
    exact h.runtime
  · rw [hprofile, hidentity.rest]
    exact h.profile
  · rw [← serialize_congr hrecord.manifest, h.digest, hrest]

/-! ## What is published -/

/-- An `AcceptedCandidate`, as far as a manifest is compared with it. -/
structure Candidate (ν : Type) where
  id : Text
  runtime : Text
  channels : Channels ν
  capabilities : Option (List (SensorCapability ν))

section

variable (sha256 : Text → Text)

def canonicalDigest (value : Json ν) : Text := sha256 (canonicalJson value)

def candidateManifestMatches (candidate : Candidate ν) (manifest : FirmwareManifest ν) : Bool :=
  manifest.profileId == candidate.id && manifest.runtime == candidate.runtime &&
    canonicalDigest sha256 manifest.channels.toJson == canonicalDigest sha256 candidate.channels.toJson &&
    canonicalDigest sha256 (.arr ((manifest.capabilities.getD []).map SensorCapability.toJson)) ==
      canonicalDigest sha256 (.arr ((candidate.capabilities.getD []).map SensorCapability.toJson))

/-- The record that `runOne` publishes for a candidate, and an identity with the candidate's channels and
capabilities. -/
structure Published (record : FirmwarePassedRecord ν) (candidate : Candidate ν) (identity : Identity ν) : Prop where
  candidateId : record.candidateId = candidate.id
  build : record.manifest.buildId = identity.buildId
  plan : JsonNumber.ofInt record.manifest.planVersion = identity.planVersion
  code : JsonNumber.ofInt record.manifest.codeVersion = identity.codeVersion
  manifest : candidateManifestMatches sha256 candidate record.manifest = true
  digest : record.manifestDigest = sha256 (serializeFirmwareManifest record.manifest)
  runtime : identity.runtime = candidate.runtime
  profile : identity.firmwareProfileId = candidate.id
  channels : candidate.channels.Alike identity.channels
  capabilities : Option.Rel (List.Forall₂ SensorCapability.Alike) candidate.capabilities identity.capabilities

end

section Same

omit [JsonNumber ν] [LawfulEq ν] [LawfulJson ν]

theorem same_of_mem {m m' : List (Text × Json ν)} (h : Same (.obj m) (.obj m')) {k : Text} {j j' : Json ν}
    (hj : (k, j) ∈ m) (hj' : (k, j') ∈ m') : Same j j' := by
  cases h with
  | obj _ hvalues => exact hvalues k j j' hj hj'

theorem same_str {s t : Text} (h : Same (.str s : Json ν) (.str t)) : s = t := by
  cases h with
  | str => rfl

theorem same_num {a b : ν} (h : Same (.num a) (.num b)) : a = b := by
  cases h with
  | num => rfl

theorem same_bool {a b : Bool} (h : Same (.bool a : Json ν) (.bool b)) : a = b := by
  cases h with
  | bool => rfl

theorem channel_of_same {x y : Channel ν} (h : Same x.toJson y.toJson) : x = y := by
  obtain ⟨unit, min, max⟩ := x
  obtain ⟨unit', min', max'⟩ := y
  have hunit : unit = unit' := same_str (same_of_mem h (k := js "unit") (by simp) (by simp))
  have hmin : min = min' := same_num (same_of_mem h (k := js "min") (by simp) (by simp))
  have hmax : max = max' := same_num (same_of_mem h (k := js "max") (by simp) (by simp))
  rw [hunit, hmin, hmax]

theorem channel_distinct (x : Channel ν) : x.toJson.Distinct := by
  have hnames : [js "unit", js "min", js "max"].Nodup := by decide
  exact ⟨hnames, trivial, trivial, trivial, trivial⟩

theorem channels_distinct (c : Channels ν) : c.toJson.Distinct := by
  refine ⟨?_, membersDistinct_iff.mpr fun x hx => ?_⟩
  · rw [List.map_map]
    exact c.nodup
  · obtain ⟨e, _, rfl⟩ := List.mem_map.mp hx
    exact channel_distinct e.2

theorem channels_of_same {c d : Channels ν} (h : Same c.toJson d.toJson) : c.Alike d := by
  have hnodup : ∀ e : Channels ν, e.entries.Nodup := fun e => List.Nodup.of_map _ e.nodup
  have hmem : ∀ {a b : Channels ν}, Same a.toJson b.toJson → ∀ x ∈ a.entries, x ∈ b.entries := by
    intro a b hab x hx
    have hxa : (x.1, x.2.toJson) ∈ a.entries.map fun e => (e.1, e.2.toJson) := List.mem_map.mpr ⟨x, hx, rfl⟩
    have hname : x.1 ∈ (b.entries.map fun e => (e.1, e.2.toJson)).map Prod.fst := by
      cases hab with
      | obj hnames _ => exact (hnames x.1).mp (List.mem_map.mpr ⟨_, hxa, rfl⟩)
    obtain ⟨_, hyb, hy⟩ := List.mem_map.mp hname
    obtain ⟨y, hyentry, rfl⟩ := List.mem_map.mp hyb
    have hvalues : x.2 = y.2 := channel_of_same (same_of_mem hab hxa (hy ▸ hyb))
    have hxy : y = x := Prod.ext hy hvalues.symm
    exact hxy ▸ hyentry
  refine (List.perm_ext_iff_of_nodup (hnodup c) (hnodup d)).mpr fun x => ⟨hmem h x, hmem ?_ x⟩
  exact h.symm (channels_distinct c) (channels_distinct d)

end Same

section Same

omit [LawfulEq ν]

omit [LawfulJson ν] in
theorem capability_distinct (c : SensorCapability ν) : c.toJson.Distinct := by
  obtain ⟨id, profileId, profileVersion, enabled, required, intervalS, kind⟩ := c
  cases kind with
  | image =>
    have hnames : (baseNames ++ [js "max_bytes", js "max_width", js "max_height"]).Nodup := by decide
    exact ⟨hnames, trivial, trivial, trivial, trivial, trivial, trivial, trivial, trivial, trivial, trivial, trivial, trivial⟩
  | measurement channels =>
    have hnames : (baseNames ++ [js "channels"]).Nodup := by decide
    exact ⟨hnames, trivial, trivial, trivial, trivial, trivial, trivial, trivial, trivial, channels_distinct channels, trivial⟩

theorem same_int {y z : ℤ} (hy : -maxSafeInteger ≤ y ∧ y ≤ maxSafeInteger)
    (hz : -maxSafeInteger ≤ z ∧ z ≤ maxSafeInteger) (h : Same (int y : Json ν) (int z)) : y = z :=
  int_inj hy hz (congrArg Json.num (same_num h))

theorem kind_of_same {a b : CapabilityKind ν} (ha : a.accepted = true) (hb : b.accepted = true)
    (h : ∀ k j j', (k, j) ∈ a.members → (k, j') ∈ b.members → Same j j') : a.Alike b := by
  have hsafe : ∀ {hi z : ℤ}, isBetween 1 hi z = true → hi ≤ 1048576 → -maxSafeInteger ≤ z ∧ z ≤ maxSafeInteger := by
    intro hi z hz hhi
    rw [isBetween_iff] at hz
    unfold maxSafeInteger
    omega
  cases a with
  | image bytes width height =>
    cases b with
    | image bytes' width' height' =>
      simp only [CapabilityKind.accepted, Bool.and_eq_true] at ha hb
      have hbytes := h (js "max_bytes") (int bytes) (int bytes') (by simp [CapabilityKind.members])
        (by simp [CapabilityKind.members])
      have hwidth := h (js "max_width") (int width) (int width') (by simp [CapabilityKind.members])
        (by simp [CapabilityKind.members])
      have hheight := h (js "max_height") (int height) (int height') (by simp [CapabilityKind.members])
        (by simp [CapabilityKind.members])
      rw [same_int (hsafe ha.1.1 le_rfl) (hsafe hb.1.1 le_rfl) hbytes,
        same_int (hsafe ha.1.2 (by decide)) (hsafe hb.1.2 (by decide)) hwidth,
        same_int (hsafe ha.2 (by decide)) (hsafe hb.2 (by decide)) hheight]
      exact .image _ _ _
    | measurement =>
      have hkind := h (js "kind") (.str (js "image")) (.str (js "measurement")) (by simp [CapabilityKind.members])
        (by simp [CapabilityKind.members])
      exact absurd (same_str hkind) (by decide)
  | measurement channels =>
    cases b with
    | image =>
      have hkind := h (js "kind") (.str (js "measurement")) (.str (js "image")) (by simp [CapabilityKind.members])
        (by simp [CapabilityKind.members])
      exact absurd (same_str hkind) (by decide)
    | measurement channels' =>
      have hchannels := h (js "channels") channels.toJson channels'.toJson (by simp [CapabilityKind.members])
        (by simp [CapabilityKind.members])
      exact .measurement (channels_of_same hchannels)

theorem capability_of_same {c d : SensorCapability ν} (hc : c.accepted = true) (hd : d.accepted = true)
    (h : Same c.toJson d.toJson) : c.Alike d := by
  simp only [SensorCapability.accepted, Bool.and_eq_true, isBetween_iff] at hc hd
  have hkind : c.kind.Alike d.kind := kind_of_same hc.2 hd.2 fun k j j' hj hj' =>
    same_of_mem h (List.mem_append_right _ hj) (List.mem_append_right _ hj')
  have hid : c.id = d.id := same_str (same_of_mem h (k := js "id") (by simp) (by simp))
  have hprofile : c.profileId = d.profileId := same_str (same_of_mem h (k := js "profile_id") (by simp) (by simp))
  have henabled : c.enabled = d.enabled := same_bool (same_of_mem h (k := js "enabled") (by simp) (by simp))
  have hrequired : c.required = d.required := same_bool (same_of_mem h (k := js "required") (by simp) (by simp))
  have hversion : c.profileVersion = d.profileVersion := by
    refine same_int ?_ ?_ (same_of_mem h (k := js "profile_version") (by simp) (by simp))
    · unfold maxSafeInteger at hc ⊢
      omega
    · unfold maxSafeInteger at hd ⊢
      omega
  have hinterval : c.intervalS = d.intervalS := by
    refine same_int ?_ ?_ (same_of_mem h (k := js "interval_s") (by simp) (by simp))
    · unfold maxSafeInteger
      omega
    · unfold maxSafeInteger
      omega
  refine ⟨?_, hkind⟩
  obtain ⟨id, profileId, profileVersion, enabled, required, intervalS, kind⟩ := c
  dsimp only at hid hprofile hversion henabled hrequired hinterval
  rw [hid, hprofile, hversion, henabled, hrequired, hinterval]

theorem capabilities_of_same {caps caps' : List (SensorCapability ν)} (h : ∀ c ∈ caps, c.accepted = true)
    (h' : ∀ c ∈ caps', c.accepted = true)
    (hsame : Same (.arr (caps.map SensorCapability.toJson)) (.arr (caps'.map SensorCapability.toJson))) :
    List.Forall₂ SensorCapability.Alike caps caps' := by
  cases hsame with
  | arr hlength hitems =>
    rw [List.length_map, List.length_map] at hlength
    rw [List.forall₂_iff_get]
    refine ⟨hlength, fun i hi hi' => capability_of_same (h _ (List.get_mem ..)) (h' _ (List.get_mem ..)) ?_⟩
    refine hitems i _ _ ?_ ?_
    · rw [List.getElem?_map, List.getElem?_eq_getElem hi]
      rfl
    · rw [List.getElem?_map, List.getElem?_eq_getElem hi']
      rfl

omit [LawfulJson ν] in
theorem capabilities_distinct (caps : List (SensorCapability ν)) :
    (Json.arr (caps.map SensorCapability.toJson)).Distinct := by
  refine allDistinct_iff.mpr fun j hj => ?_
  obtain ⟨c, _, rfl⟩ := List.mem_map.mp hj
  exact capability_distinct c

end Same

omit [LawfulEq ν] in
theorem Published.matches {candidate : Candidate ν} (h : Published sha256 record candidate identity)
    (hsha256 : Function.Injective sha256) (hrecord : ∀ c ∈ record.manifest.capabilities.getD [], c.accepted = true)
    (hcandidate : ∀ c ∈ candidate.capabilities.getD [], c.accepted = true) : record.Matches sha256 identity := by
  have hmanifest := h.manifest
  simp only [candidateManifestMatches, canonicalDigest, Bool.and_eq_true, beq_iff_eq] at hmanifest
  obtain ⟨⟨⟨hprofile, hruntime⟩, hchannels⟩, hcaps⟩ := hmanifest
  have hsame := (canonicalJson_eq_iff (channels_distinct _) (channels_distinct _)).mp (hsha256 hchannels)
  have hsames := (canonicalJson_eq_iff (capabilities_distinct _) (capabilities_distinct _)).mp (hsha256 hcaps)
  exact {
    candidate := by rw [h.candidateId, hprofile]
    build := h.build
    plan := h.plan
    code := h.code
    runtime := by rw [hruntime, h.runtime]
    profile := by rw [hprofile, h.profile]
    channels := (channels_of_same hsame).trans h.channels
    capabilities := capabilities_trans (capabilities_of_same hrecord hcandidate hsames) (capabilities_getD h.capabilities)
    digest := h.digest.symm }

/-! ## Exactly what matches -/

structure Reordered (value : Json ν) (identity : Identity ν) (value' : Json ν) (identity' : Identity ν) : Prop where
  distinct : value'.Distinct
  same : Same value value'
  identity : identity.Alike identity'

def FirmwarePassedRecord.Single (record : FirmwarePassedRecord ν) : Prop :=
  ∀ c ∈ record.manifest.capabilities.getD [], c.channelNames.length ≤ 1

omit [LawfulEq ν] [LawfulJson ν] in
theorem Reordered.reads {value' : Json ν} {identity' : Identity ν} (h : Reordered value identity value' identity')
    (hvalue : value.Distinct) (hrecord : FirmwarePassedRecord.safeParse value = some record) :
    ∃ record', FirmwarePassedRecord.safeParse value' = some record' ∧ record.Alike record' := by
  have hread := FirmwarePassedRecord.blind value value' hvalue h.distinct h.same
  rw [hrecord] at hread
  generalize FirmwarePassedRecord.safeParse value' = x at hread ⊢
  cases hread with
  | @some _ record' halike => exact ⟨record', rfl, halike⟩

/-- **Taking exactly the records that match, in whatever order they are stored and expected, needs that no capability
of one that matches has two channels.** -/
theorem exact_iff (hvalue : value.Distinct) (h : FirmwarePassedRecord.safeParse value = some record) :
    (∀ value' identity', Reordered value identity value' identity' →
        (Accepts sha256 value' identity' ↔
          ∃ record', FirmwarePassedRecord.safeParse value' = some record' ∧ record'.Matches sha256 identity')) ↔
      (record.Matches sha256 identity → record.Single) := by
  constructor
  · intro hexact hmatches c hc
    have htaken := (hexact value identity ⟨hvalue, Same.refl hvalue, .refl identity⟩).mpr ⟨record, h, hmatches⟩
    have hswapped : Accepts sha256 value identity.swap := by
      refine (hexact value identity.swap ⟨hvalue, Same.refl hvalue, identity.swap_alike⟩).mpr ⟨record, h, ?_⟩
      exact hmatches.congr (.refl record) identity.swap_alike
    have hcaps := ((accepts_iff h).mp htaken).2
    have hcaps' := ((accepts_iff h).mp hswapped).2
    have hmap : (identity.capabilities.getD []).map SensorCapability.swap = (identity.capabilities.getD []).map id := by
      rw [← identity.swap_getD, ← hcaps', hcaps, List.map_id]
    rw [hcaps] at hc
    exact SensorCapability.length_of_swap (List.map_inj_left.mp hmap c hc)
  · intro hone value' identity' hreordered
    obtain ⟨record', hrecord', halike⟩ := hreordered.reads hvalue h
    rw [accepts_iff hrecord']
    constructor
    · exact fun htaken => ⟨record', hrecord', htaken.1⟩
    · intro ⟨r, hr, hmatches⟩
      obtain rfl := Option.some.inj (hrecord'.symm.trans hr)
      refine ⟨hmatches, eq_of_forall_alike hmatches.capabilities ?_⟩
      have hsingle := hone (hmatches.congr halike.symm hreordered.identity.symm)
      exact single_of_alike (capabilities_getD halike.manifest.capabilities) hsingle

end Taking

/--
**When firmware is taken exactly for what it is for**: unless a capability of a record that matches has two channels.
Then it depends on the order in which they are stored, even for the record of the candidate itself.

No two texts of what is compared have one digest.
-/
theorem verifies_iff (sha256 : Text → Text) (value : Json ν) (identity : Identity ν) (record : FirmwarePassedRecord ν)
    (hvalue : value.Distinct) (h : FirmwarePassedRecord.safeParse value = some record) :
    ((∀ value' identity', Reordered value identity value' identity' →
        (Accepts sha256 value' identity' ↔
          ∃ record', FirmwarePassedRecord.safeParse value' = some record' ∧ record'.Matches sha256 identity')) ↔
      (record.Matches sha256 identity → record.Single)) ∧
    ∀ candidate : Candidate ν, Function.Injective sha256 →
      (∀ c ∈ candidate.capabilities.getD [], c.accepted = true) → Published sha256 record candidate identity →
        ((∀ value' identity', Reordered value identity value' identity' → Accepts sha256 value' identity') ↔
          record.Single) := by
  refine ⟨exact_iff hvalue h, fun candidate hsha256 hcandidate hpublished => ?_⟩
  have hrecord : ∀ c ∈ record.manifest.capabilities.getD [], c.accepted = true := by
    have hcaps := capabilities_of_safeParse h
    cases hmanifest : record.manifest.capabilities with
    | none => exact fun c hc => absurd hc List.not_mem_nil
    | some caps => exact fun c hc => accepted_of_mem (hcaps caps hmanifest) hc
  have hmatches := hpublished.matches hsha256 hrecord hcandidate
  constructor
  · intro htaken
    refine ((exact_iff hvalue h).mp ?_) hmatches
    intro value' identity' hreordered
    obtain ⟨record', hrecord', halike⟩ := hreordered.reads hvalue h
    exact iff_of_true (htaken value' identity' hreordered)
      ⟨record', hrecord', hmatches.congr halike hreordered.identity⟩
  · intro hsingle value' identity' hreordered
    obtain ⟨record', hrecord', halike⟩ := hreordered.reads hvalue h
    exact ((exact_iff hvalue h).mpr (fun _ => hsingle) value' identity' hreordered).mpr
      ⟨record', hrecord', hmatches.congr halike hreordered.identity⟩

/-! ## The camera -/

namespace Bench

def camera : Text := js "freenove-esp32s3-n16r8-gc0308-usb-v1"

def buildId : Text := js "7b1c3f52-6d0e-4a86-9c1f-2f5f8f3d9a10"

def stored : Channels ℚ where
  entries := [(js "air_humidity_pct", ⟨js "%", 0, 100⟩), (js "air_pressure_hpa", ⟨js "hPa", 300, 1100⟩),
    (js "air_temperature_c", ⟨js "C", -40, 85⟩), (js "ambient_light_lux", ⟨js "lux", 0, 65535⟩)]
  nodup := by decide

def listed : Channels ℚ where
  entries := stored.entries.reverse
  nodup := by decide

def image : SensorCapability ℚ := ⟨js "camera", camera, 1, true, true, 900, .image 1048576 320 240⟩

def environment (channels : Channels ℚ) : SensorCapability ℚ :=
  ⟨js "environment", camera, 1, true, true, 900, .measurement channels⟩

def hex (digit : String) : Text := (List.replicate 64 (js digit)).flatten

def manifest : FirmwareManifest ℚ where
  buildId := buildId
  planVersion := 1
  codeVersion := 2
  profileId := camera
  runtime := js "0.3.0"
  channels := stored
  capabilities := some [image, environment stored]
  files := [⟨js "bootloader.bin", hex "b", 100⟩, ⟨js "partition-table.bin", hex "b", 100⟩, ⟨js "albusforge.bin", hex "b", 100⟩]

def digest : Text := js "c858c8e91fbb1d9173c8fa775ef9a3513a9beab393ce5e02afe04b01cdddfd71"

def sha256 : Text → Text := Equiv.swap (serializeFirmwareManifest manifest) digest

def record : FirmwarePassedRecord ℚ where
  job := none
  candidateId := camera
  manifest := manifest
  manifestDigest := digest
  imageDigest := js "espressif/idf@sha256:" ++ hex "c"
  bundleSha256 := none
  sourceSha256 := hex "d"
  instruction := []
  diagnostics := []

def value : Json ℚ :=
  let channel := fun e : Text × Channel ℚ =>
    (e.1, Json.obj [(js "max", .num e.2.max), (js "min", .num e.2.min), (js "unit", .str e.2.unit)])
  let channels := Json.obj (stored.entries.map channel)
  let file := fun path : Text => Json.obj [(js "path", .str path), (js "size", .num 100), (js "sha256", .str (hex "b"))]
  .obj [(js "compiler", .obj [(js "idf_version", .str (js "5.5.3")),
      (js "image_digest", .str (js "espressif/idf@sha256:" ++ hex "c"))]),
    (js "manifest", .obj [(js "v", .num 1),
      (js "files", .arr [file (js "bootloader.bin"), file (js "partition-table.bin"), file (js "albusforge.bin")]),
      (js "flash", .obj [(js "chip", .str (js "esp32s3")), (js "config_size", .num 24576), (js "config_offset", .num 36864)]),
      (js "runtime", .str (js "0.3.0")), (js "build_id", .str buildId), (js "channels", channels),
      (js "profile_id", .str camera),
      (js "capabilities", .arr [
        .obj [(js "id", .str (js "camera")), (js "kind", .str (js "image")), (js "schema", .str (js "jpeg.v1")),
          (js "enabled", .bool true), (js "required", .bool true), (js "max_bytes", .num 1048576),
          (js "max_width", .num 320), (js "interval_s", .num 900), (js "max_height", .num 240),
          (js "profile_id", .str camera), (js "profile_version", .num 1)],
        .obj [(js "id", .str (js "environment")), (js "kind", .str (js "measurement")), (js "schema", .str (js "readings.v1")),
          (js "enabled", .bool true), (js "channels", channels), (js "required", .bool true), (js "interval_s", .num 900),
          (js "profile_id", .str camera), (js "profile_version", .num 1)]]),
      (js "code_version", .num 2), (js "plan_version", .num 1)]),
    (js "diagnostics", .str []), (js "instruction", .str []), (js "candidate_id", .str camera),
    (js "source_sha256", .str (hex "d")), (js "schema_version", .num 1), (js "manifest_digest", .str digest)]

def identity : Identity ℚ where
  buildId := buildId
  planVersion := 1
  codeVersion := 2
  runtime := js "0.3.0"
  firmwareProfileId := camera
  channels := listed
  capabilities := some [image, environment listed]

theorem value_reads : FirmwarePassedRecord.safeParse value = some record := by rfl

theorem value_distinct : value.Distinct := by
  simp only [value, stored, Distinct, MembersDistinct, AllDistinct, and_true, List.map_cons, List.map_nil]
  decide

theorem record_matches : record.Matches sha256 identity where
  candidate := rfl
  build := rfl
  plan := rfl
  code := rfl
  runtime := rfl
  profile := rfl
  channels := (List.reverse_perm _).symm
  capabilities := .cons (.refl _) (.cons ⟨rfl, .measurement (List.reverse_perm _).symm⟩ .nil)
  digest := Equiv.swap_apply_left _ _

/-- `CAMERA_CAPABILITIES` and the rest of the camera candidate. -/
def candidate : Candidate ℚ := ⟨camera, js "0.3.0", listed, some [image, environment listed]⟩

theorem record_published : Published sha256 record candidate identity where
  candidateId := rfl
  build := rfl
  plan := rfl
  code := rfl
  manifest := by
    have hchannels : canonical stored.toJson = canonical listed.toJson :=
      canonical_channels (List.reverse_perm _).symm
    have hcaps := canonical_capabilities record_matches.capabilities
    have hdigest : canonicalDigest sha256 record.manifest.channels.toJson =
        canonicalDigest sha256 candidate.channels.toJson := congrArg (fun j => sha256 (stringify j)) hchannels
    have hdigest' : canonicalDigest sha256 (.arr ((record.manifest.capabilities.getD []).map SensorCapability.toJson)) =
        canonicalDigest sha256 (.arr ((candidate.capabilities.getD []).map SensorCapability.toJson)) :=
      congrArg (fun l => sha256 (stringify (.arr l))) hcaps
    rw [candidateManifestMatches, hdigest, hdigest', beq_self_eq_true, beq_self_eq_true]
    rfl
  digest := (Equiv.swap_apply_left _ _).symm
  runtime := rfl
  profile := rfl
  channels := List.Perm.refl _
  capabilities := capabilities_rel_refl _

theorem value_refused : ¬Accepts sha256 value identity := by
  intro htaken
  have hcaps := ((accepts_iff value_reads).mp htaken).2
  have hkinds := congrArg (List.map SensorCapability.channelNames) hcaps
  exact absurd hkinds (by decide)

end Bench

theorem verifies_iff_bench : Bench.value.Distinct ∧
    ((∀ value' identity', Reordered Bench.value Bench.identity value' identity' →
        (Accepts Bench.sha256 value' identity' ↔
          ∃ record', FirmwarePassedRecord.safeParse value' = some record' ∧ record'.Matches Bench.sha256 identity')) ↔
      (Bench.record.Matches Bench.sha256 Bench.identity → Bench.record.Single)) :=
  ⟨Bench.value_distinct,
    (verifies_iff Bench.sha256 Bench.value Bench.identity Bench.record Bench.value_distinct Bench.value_reads).1⟩

/-- **The camera's own record is published and matches, and is not taken**: the database lists channels in another order
than the candidate does. -/
theorem stored_order_refused : FirmwarePassedRecord.safeParse Bench.value = some Bench.record ∧
    Published Bench.sha256 Bench.record Bench.candidate Bench.identity ∧
      Bench.record.Matches Bench.sha256 Bench.identity ∧ ¬Accepts Bench.sha256 Bench.value Bench.identity :=
  ⟨Bench.value_reads, Bench.record_published, Bench.record_matches, Bench.value_refused⟩

end Albusforge.Provisioning
