import Mathlib.Data.List.TakeDrop
import Albusforge.Matcher.Solver

/-!
# What an accepted input promises

The checks of `SolveInput`, turned into the facts the later proofs use: the keys
under which parts, connectors, profiles and compile rows are looked up are
distinct, no draw is negative, and the texts that are joined into keys hold none
of the separators.
-/

namespace Albusforge.Matcher

open Lib JsNumber

/-! ## Separators -/

theorem mem_split (sep : ℕ) {c : ℕ} : ∀ {t : Text}, c ∈ t → c = sep ∨ ∃ s ∈ split sep t, c ∈ s
  | d :: t, h => by
      unfold split
      split
      · rename_i hd
        rcases List.mem_cons.mp h with rfl | h
        · exact Or.inl hd
        · rcases mem_split sep h with h' | ⟨s, hs, hc⟩
          · exact Or.inl h'
          · exact Or.inr ⟨s, List.mem_cons_of_mem _ hs, hc⟩
      · rcases List.mem_cons.mp h with rfl | h
        · refine Or.inr ?_
          cases split sep t with
          | nil => exact ⟨[c], by simp, by simp⟩
          | cons s rest => exact ⟨c :: s, by simp, by simp⟩
        · rcases mem_split sep h with h' | ⟨s, hs, hc⟩
          · exact Or.inl h'
          · refine Or.inr ?_
            cases hsplit : split sep t with
            | nil => rw [hsplit] at hs; exact absurd hs (by simp)
            | cons s' rest =>
                rw [hsplit] at hs
                rcases List.mem_cons.mp hs with rfl | hs
                · exact ⟨d :: s, by simp, List.mem_cons_of_mem _ hc⟩
                · exact ⟨s, List.mem_cons_of_mem _ hs, hc⟩

def versionChar (c : ℕ) : Bool := isDigit c || isLower c || isUpper c || c == hyphen || c == dot

theorem versionChar_of_numericId {s : Text} (h : numericId s = true) {c : ℕ} (hc : c ∈ s) :
    versionChar c = true := by
  have hall := (Bool.and_eq_true_iff.mp h).1
  rw [List.all_eq_true] at hall
  simp [versionChar, hall c hc]

theorem versionChar_of_prereleaseId {s : Text} (h : prereleaseId s = true) {c : ℕ} (hc : c ∈ s) :
    versionChar c = true := by
  rcases Bool.or_eq_true_iff.mp h with h | h
  · exact versionChar_of_numericId h hc
  · have hall := (Bool.and_eq_true_iff.mp h).2
    rw [List.all_eq_true] at hall
    have := hall c hc
    simp only [Bool.or_eq_true] at this
    rcases this with ((h | h) | h) | h <;> simp_all [versionChar]

theorem versionChar_of_pieces {p : Text → Bool} {t : Text} (h : (split dot t).all p = true)
    (hp : ∀ {s : Text}, p s = true → ∀ {c : ℕ}, c ∈ s → versionChar c = true) {c : ℕ}
    (hc : c ∈ t) : versionChar c = true := by
  rcases mem_split dot hc with rfl | ⟨s, hs, hcs⟩
  · rfl
  · exact hp (List.all_eq_true.mp h s hs) hcs

theorem versionChar_of_isSemVer {t : Text} (h : isSemVer t = true) {c : ℕ} (hc : c ∈ t) :
    versionChar c = true := by
  have ht : t.span (· != hyphen) = (t.takeWhile (· != hyphen), t.dropWhile (· != hyphen)) :=
    List.span_eq_takeWhile_dropWhile _ t
  have happ : t.takeWhile (· != hyphen) ++ t.dropWhile (· != hyphen) = t :=
    List.takeWhile_append_dropWhile
  unfold isSemVer splitVersion at h
  rw [ht] at h
  rw [← happ] at hc
  cases hd : t.dropWhile (· != hyphen) with
  | nil =>
      rw [hd] at h hc
      simp only [Bool.and_eq_true] at h
      rw [List.append_nil] at hc
      exact versionChar_of_pieces h.1.2 versionChar_of_numericId hc
  | cons d pre =>
      rw [hd] at h hc
      simp only [Bool.and_eq_true] at h
      rcases List.mem_append.mp hc with hc | hc
      · exact versionChar_of_pieces h.1.2 versionChar_of_numericId hc
      · rcases List.mem_cons.mp hc with rfl | hc
        · have hhead := List.head?_dropWhile_not (· != hyphen) t
          rw [hd] at hhead
          simp only [List.head?_cons] at hhead
          have : c = hyphen := by simpa using hhead
          rw [this]
          rfl
        · exact versionChar_of_pieces h.2 versionChar_of_prereleaseId hc

theorem isPartId_no_sep {t : Text} (h : isPartId t = true) : atSign ∉ t ∧ comma ∉ t ∧ t ≠ [] := by
  unfold isPartId at h
  split at h
  · rename_i letter hy a b c
    simp only [Bool.and_eq_true, isDigit, decide_eq_true_eq, beq_iff_eq] at h
    obtain ⟨⟨⟨⟨hl, rfl⟩, ha⟩, hb⟩, hc⟩ := h
    have hl' : letter ∈ js "VPLCME" := by simpa using hl
    have hletter : letter ≠ atSign ∧ letter ≠ comma := by
      have : ∀ l ∈ js "VPLCME", l ≠ atSign ∧ l ≠ comma := by decide +kernel
      exact this letter hl'
    have hat : atSign = 64 := rfl
    have hcomma : comma = 44 := rfl
    refine ⟨?_, ?_, by simp⟩
    · simp only [List.mem_cons, List.not_mem_nil, or_false, not_or]
      refine ⟨hletter.1.symm, by decide, ?_, ?_, ?_⟩ <;> omega
    · simp only [List.mem_cons, List.not_mem_nil, or_false, not_or]
      refine ⟨hletter.2.symm, by decide, ?_, ?_, ?_⟩ <;> omega
  · exact absurd h (by simp)

theorem isSemVer_no_sep {t : Text} (h : isSemVer t = true) : atSign ∉ t ∧ comma ∉ t :=
  ⟨fun hc => absurd (versionChar_of_isSemVer h hc) (by decide),
    fun hc => absurd (versionChar_of_isSemVer h hc) (by decide)⟩

/-! ## Keys -/

theorem pin_accepted_no_sep {p : PartPin} (h : p.accepted = true) :
    atSign ∉ p.id ∧ comma ∉ pinKey p ∧ pinKey p ≠ [] := by
  obtain ⟨hid, hver⟩ := Bool.and_eq_true_iff.mp h
  obtain ⟨h1, h2, h3⟩ := isPartId_no_sep hid
  have h4 := (isSemVer_no_sep hver).2
  refine ⟨h1, ?_, by simp [pinKey]⟩
  unfold pinKey
  simp only [List.mem_append, List.mem_cons, not_or]
  exact ⟨h2, by decide, h4⟩

theorem pinKey_injective {p p' : PartPin} (h : p.accepted = true) (h' : p'.accepted = true)
    (heq : pinKey p = pinKey p') : p = p' := by
  obtain ⟨hid, hver⟩ := append_sep_injective (pin_accepted_no_sep h).1
    (pin_accepted_no_sep h').1 heq
  cases p
  cases p'
  simp_all

variable {ν : Type} [JsNumber ν]

theorem PartDefinition.accepted_pin {p : PartDefinition ν} (h : p.accepted = true) :
    p.pin.accepted = true := by
  unfold PartDefinition.accepted at h
  simp only [Bool.and_eq_true] at h
  exact Bool.and_eq_true_iff.mpr ⟨h.1.1.1.1.1.1.1.1.1, h.1.1.1.1.1.1.1.1.2⟩

theorem PartDefinition.accepted_active {p : PartDefinition ν} (h : p.accepted = true) :
    nonnegative p.electrical.currentDrawMa.active = true := by
  unfold PartDefinition.accepted at h
  simp only [Bool.and_eq_true] at h
  have he := h.1.1.1.1.1.1.1.2
  unfold PartElectrical.accepted at he
  simp only [Bool.and_eq_true] at he
  exact he.1.1.1.1.1.1.2

structure SolveInput.WellFormed (input : SolveInput ν) : Prop where
  parts : ∀ p ∈ input.parts, p.accepted = true
  profiles : ∀ p ∈ input.profiles, p.accepted = true
  pins : (input.parts.map (fun p => pinKey p.pin)).Nodup
  connectorIds : (input.connectors.map (·.id)).Nodup
  profileKeys : (input.profiles.map AssemblyProfile.key).Nodup

theorem SolveInput.wellFormed {input : SolveInput ν} (h : input.accepted = true) :
    input.WellFormed := by
  unfold SolveInput.accepted at h
  simp only [Bool.and_eq_true, distinct, decide_eq_true_eq, List.all_eq_true] at h
  obtain ⟨⟨⟨⟨h, hpins⟩, hconn⟩, hprof⟩, -⟩ := h
  exact ⟨h.1.1.1.1.1.1.1.1.1.1.2, h.1.1.1.1.1.1.2, hpins, hconn, hprof⟩

theorem AssemblyProfile.accepted_keys {p : AssemblyProfile ν} (h : p.accepted = true) :
    (p.ports.map (·.id)).Nodup ∧ (p.activity.map (fun a => pinKey a.part)).Nodup := by
  unfold AssemblyProfile.accepted at h
  simp only [Bool.and_eq_true, distinct, decide_eq_true_eq] at h
  exact ⟨h.1.2, h.2⟩

theorem AssemblyProfile.accepted_pins {p : AssemblyProfile ν} (h : p.accepted = true) :
    p.brain.accepted = true ∧ p.source.accepted = true := by
  unfold AssemblyProfile.accepted at h
  simp only [Bool.and_eq_true] at h
  exact ⟨h.1.1.1.1.1.1.1.1.1.1.1.1.2, h.1.1.1.1.1.1.1.1.1.1.1.2⟩

/-! ## Lookups -/

variable {input : SolveInput ν}

omit [JsNumber ν] in
theorem mem_sortedParts {p : PartDefinition ν} :
    p ∈ sortedParts input ↔ p ∈ input.parts ∧ p.status = .active := by
  unfold sortedParts
  rw [mem_sortBy, List.mem_filter, beq_iff_eq]

omit [JsNumber ν] in
theorem sortedParts_sorted : (sortedParts input).Pairwise
    (fun p p' => pinKey p.pin ≤ pinKey p'.pin) :=
  sortBy_pairwise (compareText_on (fun p : PartDefinition ν => pinKey p.pin)) _

theorem SolveInput.WellFormed.separates (hwf : input.WellFormed) :
    Separates (fun p : PartDefinition ν => pinKey p.pin) (sortedParts input) :=
  fun p hp p' hp' => Separates.of_nodup hwf.pins p (mem_sortedParts.mp hp).1 p'
    (mem_sortedParts.mp hp').1

theorem SolveInput.WellFormed.sortedParts_nodup (hwf : input.WellFormed) :
    ((sortedParts input).map (fun p => pinKey p.pin)).Nodup :=
  ((sortBy_perm _ _).map _).nodup_iff.mpr (hwf.pins.sublist (List.filter_sublist.map _))

theorem SolveInput.WellFormed.findConnector_iff (hwf : input.WellFormed) {id : Text}
    {c : ConnectorDefinition ν} :
    findConnector input id = some c ↔ c ∈ input.connectors ∧ c.id = id := by
  constructor
  · intro h
    unfold findConnector at h
    exact ⟨List.mem_of_find?_eq_some h, by simpa using List.find?_some h⟩
  · rintro ⟨hc, rfl⟩
    refine find?_eq_some_of_unique hc (by simp) ?_
    intro b hb heq
    exact Separates.of_nodup hwf.connectorIds b hb c hc (eq_of_beq heq)

structure BaseOk (input : SolveInput ν) (profile : AssemblyProfile ν)
    (brain source : PartDefinition ν) : Prop where
  host : brain ∈ sortedParts input ∧ pinKey brain.pin = pinKey profile.brain ∧
    brain.electrical.interface = .host
  power : source ∈ sortedParts input ∧ pinKey source.pin = pinKey profile.source ∧
    source.electrical.interface = .power
  kind : powerCapability input.spec.powerSource ∈ source.software.capabilities
  ids : brain.id ≠ source.id
  capacity : input.spec.powerSource = .battery →
    ∃ s c, source.electrical.supply = some s ∧ s.capacityMah = some c ∧ truthy c = true

/-- **The base pair is the one usable pair the profile pins.** -/
theorem SolveInput.WellFormed.basePair_iff (hwf : input.WellFormed) {profile : AssemblyProfile ν}
    {brain source : PartDefinition ν} :
    basePair input profile = some (brain, source) ↔ BaseOk input profile brain source := by
  have hcap : ∀ s : PartDefinition ν,
      s.electrical.supply.any (fun s => s.capacityMah.any truthy) = true ↔
        ∃ u c, s.electrical.supply = some u ∧ u.capacityMah = some c ∧ truthy c = true := by
    intro s
    cases s.electrical.supply with
    | none => simp
    | some u =>
        cases hu : u.capacityMah with
        | none => simp [hu]
        | some c => simp [hu]
  constructor
  · intro h
    unfold basePair at h
    simp only [Option.bind_eq_bind, Option.bind_eq_some_iff] at h
    obtain ⟨b, hb, s, hs, h⟩ := h
    split at h
    · exact absurd h (by simp)
    rename_i hids
    split at h
    · exact absurd h (by simp)
    rename_i hbat
    obtain ⟨rfl, rfl⟩ := Prod.mk.inj (Option.some.inj h)
    have hb' := List.find?_some hb
    have hs' := List.find?_some hs
    simp only [Bool.and_eq_true, beq_iff_eq, List.contains_eq_mem, decide_eq_true_eq] at hb' hs'
    refine ⟨⟨List.mem_of_find?_eq_some hb, hb'⟩, ⟨List.mem_of_find?_eq_some hs, hs'.1⟩, hs'.2, hids,
      ?_⟩
    intro hsource
    rw [← hcap]
    simpa [hsource] using hbat
  · intro h
    have hb : (sortedParts input).find? (fun p =>
        pinKey p.pin == pinKey profile.brain && p.electrical.interface == .host) = some brain := by
      refine find?_eq_some_of_unique h.host.1 (by simp [h.host.2]) ?_
      intro p hp hpp
      refine hwf.separates p hp brain h.host.1 ?_
      simp only [Bool.and_eq_true, beq_iff_eq] at hpp
      exact hpp.1.trans h.host.2.1.symm
    have hs : (sortedParts input).find? (fun p =>
        pinKey p.pin == pinKey profile.source && p.electrical.interface == .power &&
          p.software.capabilities.contains (powerCapability input.spec.powerSource))
        = some source := by
      refine find?_eq_some_of_unique h.power.1 (by simp [h.power.2, h.kind]) ?_
      intro p hp hpp
      refine hwf.separates p hp source h.power.1 ?_
      simp only [Bool.and_eq_true, beq_iff_eq] at hpp
      exact hpp.1.1.trans h.power.2.1.symm
    have hbat : (input.spec.powerSource == .battery &&
        !source.electrical.supply.any (fun s => s.capacityMah.any truthy)) = false := by
      rw [Bool.and_eq_false_imp, beq_iff_eq]
      intro hsource
      rw [(hcap source).mpr (h.capacity hsource)]
      rfl
    unfold basePair
    simp only [hb, hs, Option.bind_eq_bind, Option.bind_some, h.ids, if_false, hbat,
      Bool.false_eq_true]

end Albusforge.Matcher
