import Mathlib.Data.Set.Card
import Albusforge.Matcher.Soundness

/-!
# Nothing that works is missed

The search goes through selections in one order, one version of a part at a time,
and gives up on branches. None of that loses anything: every pair of a profile and
a set of peripherals for which some assembly is valid has exactly one plan in
`allPlans`, and that plan reports an assembly of least draw (`allPlans_complete`).
What a solved result keeps is the head of those plans in ranking order, because
the ranking tells the plans of different pairs apart (`rank_separates`).
-/

namespace Albusforge.Matcher

open Lib

variable {input : SolveInput ℚ} {q : Query ℚ} {a b : Assembly ℚ}

/-! ## The order of the peripherals -/

/-- **Validity does not look at the order in which the peripherals are placed.** -/
theorem Assembly.Valid.perm (h : a.Valid input q)
    {placed : List (PartDefinition ℚ × ProfilePort ℚ)} (hp : a.placed.Perm placed) :
    ({ a with placed := placed } : Assembly ℚ).Valid input q := by
  have hperiph : a.peripherals.Perm (placed.map Prod.fst) := hp.map _
  have hparts : a.parts.Perm (a.brain :: a.source :: placed.map Prod.fst) :=
    (hperiph.cons _).cons _
  have hcaps : ∀ c, c ∈ capabilitiesOf a.parts ↔
      c ∈ capabilitiesOf (a.brain :: a.source :: placed.map Prod.fst) := by
    intro c
    exact (hparts.flatMap_right _).mem_iff
  have hload : ∀ draw rail, a.load draw rail
      = ({ a with placed := placed } : Assembly ℚ).load draw rail := by
    intro draw rail
    exact ((hp.filter _).map _).sum_eq
  have hwithin : Within placed := Within.perm ⟨h.room, h.pins, h.portCurrents⟩ hp
  have hpeak : a.peakRail = ({ a with placed := placed } : Assembly ℚ).peakRail := by
    unfold Assembly.peakRail
    rw [hload]
  have hmem : ∀ x, x ∈ placed → x ∈ a.placed := fun x hx => hp.mem_iff.mpr hx
  have hmemParts : ∀ p, p ∈ a.brain :: a.source :: placed.map Prod.fst → p ∈ a.parts :=
    fun p hp => hparts.mem_iff.mpr hp
  exact
    { profile := h.profile
      catalogue := fun p hp => h.catalogue p (hmemParts p hp)
      ids := (hparts.map _).nodup_iff.mp h.ids
      host := h.host
      power := h.power
      peripheral := fun p hp => h.peripheral p (hperiph.mem_iff.mpr hp)
      kind := h.kind
      capacity := h.capacity
      covers := fun c hc => (hcaps c).mp (h.covers c hc)
      requires := fun p hp need hneed =>
        ⟨(hcaps need).mp (h.requires p (hmemParts p hp) need hneed).1,
          (h.requires p (hmemParts p hp) need hneed).2⟩
      conflicts := fun p hp id hid p' hp' =>
        h.conflicts p (hmemParts p hp) id hid p' (hmemParts p' hp')
      addresses := by
        refine (hparts.pairwise_iff ?_).mp h.addresses
        intro p p' hfree addr haddr hne hsame
        exact hfree addr hsame hne haddr
      runtime := fun p hp => h.runtime p (hmemParts p hp)
      drivers := fun p hp => h.drivers p (hmemParts p hp)
      logic := fun p hp => h.logic p (hperiph.mem_iff.mpr hp)
      connectors := fun p hp => h.connectors p (hmemParts p hp)
      output := h.output
      rail := h.rail
      window := h.window
      sourceConnector := h.sourceConnector
      sourceRated := h.sourceRated
      inputWindow := h.inputWindow
      inputRated := h.inputRated
      ports := fun x hx => h.ports x (hmem x hx)
      portRated := fun x hx => h.portRated x (hmem x hx)
      voltages := fun x hx => h.voltages x (hmem x hx)
      powering := fun x hx => h.powering x (hmem x hx)
      room := hwithin.room
      pins := hwithin.pins
      portCurrents := hwithin.currents
      railCurrent := hpeak ▸ h.railCurrent
      sourceCurrent := by
        have hsum : ({ a with placed := placed } : Assembly ℚ).peakSource = a.peakSource := by
          unfold Assembly.peakSource
          rw [← hpeak, ← hload]
          rfl
        rw [hsum]
        exact h.sourceCurrent
      life := by
        have hsum : ({ a with placed := placed } : Assembly ℚ).lifeDays input.spec.intervalS
            = a.lifeDays input.spec.intervalS := by
          unfold Assembly.lifeDays Assembly.averageSource
          rw [← hload, ← hload]
          rfl
        rw [hsum]
        exact h.life }

def Assembly.canonical (a : Assembly ℚ) : Assembly ℚ :=
  { a with placed := sortBy (fun x y => compareText (pinKey x.1.pin) (pinKey y.1.pin)) a.placed }

theorem Assembly.canonical_canonical (a : Assembly ℚ) : a.canonical.Canonical := by
  have hsorted := sortBy_pairwise (compareText_on
    (fun x : PartDefinition ℚ × ProfilePort ℚ => pinKey x.1.pin)) a.placed
  exact List.pairwise_map.mpr hsorted

theorem Assembly.Valid.canonical_passes (hacc : input.accepted = true) (h : a.Valid input q) :
    a.canonical.Passes input q :=
  (h.perm (sortBy_perm _ _).symm).passes hacc a.canonical_canonical

/-! ## Pairs -/

abbrev Pair := (Text × Text) × Finset PartPin

def Assembly.pair (a : Assembly ℚ) : Pair :=
  ((a.profile.id, a.profile.version), (a.peripherals.map (·.pin)).toFinset)

def BuildPlan.pair (plan : BuildPlan ℚ) : Pair :=
  ((plan.profileId, plan.profileVersion), (plan.wiringGraph.peripherals.map (·.part)).toFinset)

theorem BuildPlan.Reports.pair_eq {plan : BuildPlan ℚ} (h : plan.Reports input a) :
    plan.pair = a.pair := by
  unfold BuildPlan.pair Assembly.pair Assembly.peripherals
  rw [h.profile.1, h.profile.2, h.wiring, List.map_map, List.map_map]
  rfl

theorem Assembly.canonical_pair (a : Assembly ℚ) : a.canonical.pair = a.pair := by
  have hperm : a.canonical.peripherals.Perm a.peripherals := (sortBy_perm _ a.placed).map _
  unfold Assembly.pair
  rw [List.toFinset_eq_of_perm _ _ (hperm.map _)]
  rfl

theorem sublist_eq_of_pins (hwf : input.WellFormed) {brain source : PartDefinition ℚ}
    {l l' : List (PartDefinition ℚ)} (hl : l.Sublist (candidates input brain source))
    (hl' : l'.Sublist (candidates input brain source))
    (hpins : (l.map (·.pin)).toFinset = (l'.map (·.pin)).toFinset) : l = l' := by
  have hcands : (candidates input brain source).Sublist (sortedParts input) := List.filter_sublist
  have hsorted : ∀ {m : List (PartDefinition ℚ)}, m.Sublist (candidates input brain source) →
      m.Pairwise (fun p p' => pinKey p.pin < pinKey p'.pin) := by
    intro m hm
    have hle := sortedParts_sorted.sublist (hm.trans hcands)
    have hne := List.pairwise_map.mp (hwf.sortedParts_nodup.sublist ((hm.trans hcands).map _))
    exact (hle.and hne).imp fun hpq => lt_of_le_of_ne hpq.1 hpq.2
  have hsub : ∀ {m m' : List (PartDefinition ℚ)}, m.Sublist (candidates input brain source) →
      m'.Sublist (candidates input brain source) →
      (m.map (·.pin)).toFinset = (m'.map (·.pin)).toFinset → m ⊆ m' := by
    intro m m' hm hm' heq p hp
    have hmem : p.pin ∈ (m'.map (·.pin)).toFinset := by
      rw [← heq]
      exact List.mem_toFinset.mpr (List.mem_map.mpr ⟨p, hp, rfl⟩)
    obtain ⟨p', hp', hpin⟩ := List.mem_map.mp (List.mem_toFinset.mp hmem)
    have hpp : p' = p := hwf.separates p' ((hm'.trans hcands).subset hp') p
      ((hm.trans hcands).subset hp) (by simp only [hpin])
    exact hpp ▸ hp'
  exact (sublist_of_sorted _ (hsorted hl) (hsorted hl') (hsub hl hl' hpins)).antisymm
    (sublist_of_sorted _ (hsorted hl') (hsorted hl) (hsub hl' hl hpins.symm))

theorem profile_eq_of_id (hwf : input.WellFormed) {p p' : AssemblyProfile ℚ}
    (hp : p ∈ input.profiles) (hp' : p' ∈ input.profiles) (hid : p.id = p'.id)
    (hver : p.version = p'.version) : p = p' :=
  Separates.of_nodup hwf.profileKeys p hp p' hp' (by unfold AssemblyProfile.key; rw [hid, hver])

theorem Assembly.Passes.eq_of_pair (hwf : input.WellFormed) (ha : a.Passes input q)
    (hb : b.Passes input q) (hpair : a.pair = b.pair) :
    b = { a with placed := b.placed } ∧ b.peripherals = a.peripherals := by
  obtain ⟨hkey, hpins⟩ := Prod.mk.inj hpair
  obtain ⟨hid, hver⟩ := Prod.mk.inj hkey
  have hprofile := profile_eq_of_id hwf ha.profile hb.profile hid hver
  have hbase := hb.base
  rw [← hprofile, ha.base] at hbase
  obtain ⟨hbrain, hsource⟩ := Prod.mk.inj (Option.some.inj hbase)
  have hchosen := hb.chosen
  rw [← hbrain, ← hsource] at hchosen
  have hperiph := sublist_eq_of_pins hwf ha.chosen hchosen hpins
  have hout := hb.powered.output
  have hrail := hb.powered.rail
  have hwindow := hb.powered.window
  rw [← hsource, ha.powered.output] at hout
  rw [← hbrain, ha.powered.rail] at hrail
  rw [← hbrain, ← hprofile, ha.powered.window] at hwindow
  refine ⟨?_, hperiph.symm⟩
  cases a
  cases b
  simp_all

/-! ## The plans of a search -/

theorem mem_profilePlans (hacc : input.accepted = true) {profile : AssemblyProfile ℚ}
    (hprofile : profile ∈ input.profiles) {plan : BuildPlan ℚ} :
    plan ∈ profilePlans input q profile →
      ∃ a : Assembly ℚ, a.Passes input q ∧ a.profile = profile ∧ plan.Reports input a ∧
        ∀ b : Assembly ℚ, b.Passes input q → b.pair = a.pair →
          a.averageSource input.spec.intervalS ≤ b.averageSource input.spec.intervalS := by
  intro h
  have hwf := SolveInput.wellFormed hacc
  unfold profilePlans at h
  split at h
  · exact absurd h (by simp)
  rename_i brain source hbase
  obtain ⟨l, hl, hplan⟩ := List.mem_filterMap.mp h
  obtain ⟨t, ht, hlt, hids⟩ := (mem_pick _ _ (by simp)).mp hl
  obtain rfl : l = t := by simpa using hlt
  obtain ⟨a, ha, hprof, hperiph, hplan, hbest⟩ := planOf_some hprofile hbase ht hids hplan
  refine ⟨a, ha, hprof, hplan ▸ ha.reports hacc, ?_⟩
  intro b hb hpair
  obtain ⟨hsame, hbp⟩ := ha.eq_of_pair hwf hb hpair.symm
  have hcontext : b.context input q.target = a.context input q.target := by
    rw [hsame] at hbp ⊢
    unfold Assembly.context
    rw [hbp]
  have hkeys : ∀ {c : Assembly ℚ}, c.Passes input q →
      (c.placed.map (fun x => pinKey x.1.pin)).Nodup := by
    intro c hc
    exact placed_pins_nodup hwf (fun p hp =>
      ((hc.valid hacc).catalogue p (by simp [Assembly.parts, hp])).1) hc.ids
  -- the other assembly's wiring is among those the leaves compared
  have hreach : b.wiring ∈ (assignments (a.context input q.target) l []).filter
      (a.context input q.target).admits := by
    refine List.mem_filter.mpr ⟨(mem_assignments _ _).mpr ⟨b.placed, ?_, rfl, ?_⟩, ?_⟩
    · rw [← hperiph, ← hbp]
      rfl
    · rw [← hcontext]
      exact hb.placeable
    · rw [← hcontext]
      exact hb.admitted
  have hle := (foldl_better_le (fun x : List WiringEdge × PowerBudget ℚ =>
    x.2.averageSourceMa) _ none hbest).2 _ (List.mem_map.mpr ⟨b.wiring, hreach, rfl⟩)
  rw [budget_eq a input q.target (hkeys ha), ← hcontext,
    budget_eq b input q.target (hkeys hb)] at hle
  exact hle

theorem allPlans_complete (hacc : input.accepted = true) :
    (∀ plan ∈ allPlans input q, ∃ a : Assembly ℚ, a.Valid input q ∧ plan.Reports input a ∧
      ∀ b : Assembly ℚ, b.Valid input q → b.pair = a.pair →
        a.averageSource input.spec.intervalS ≤ b.averageSource input.spec.intervalS) ∧
    ∀ b : Assembly ℚ, b.Valid input q → ∃ plan ∈ allPlans input q, plan.pair = b.pair := by
  constructor
  · intro plan hplan
    obtain ⟨profile, hprofile, hplan⟩ := List.mem_flatMap.mp hplan
    obtain ⟨a, ha, -, hrep, hleast⟩ :=
      mem_profilePlans hacc (mem_sortedProfiles.mp hprofile) hplan
    refine ⟨a, ha.valid hacc, hrep, ?_⟩
    intro b hb hpair
    have hle := hleast b.canonical (hb.canonical_passes hacc) (b.canonical_pair.trans hpair)
    have hsame : b.canonical.averageSource input.spec.intervalS
        = b.averageSource input.spec.intervalS := by
      unfold Assembly.averageSource Assembly.load
      have hperm := sortBy_perm
        (fun x y : PartDefinition ℚ × ProfilePort ℚ =>
          compareText (pinKey x.1.pin) (pinKey y.1.pin)) b.placed
      have hsum : ∀ (draw : PartDefinition ℚ → ℚ) (rail : Rail),
          ((b.canonical.placed.filter (fun x => x.2.rail = rail)).map (fun x => draw x.1)).sum
            = ((b.placed.filter (fun x => x.2.rail = rail)).map (fun x => draw x.1)).sum :=
        fun draw rail => ((hperm.filter _).map _).sum_eq
      rw [hsum, hsum]
      rfl
    rwa [hsame] at hle
  · intro b hb
    have hpass := hb.canonical_passes hacc
    obtain ⟨plan, hplan⟩ := planOf_of_passes hpass
    obtain ⟨a, -, hprof, hperiph, hrep, -⟩ :=
      planOf_some hpass.profile hpass.base hpass.chosen hpass.ids hplan
    refine ⟨plan, List.mem_flatMap.mpr ⟨_, mem_sortedProfiles.mpr hpass.profile, ?_⟩, ?_⟩
    · unfold profilePlans
      rw [hpass.base]
      exact List.mem_filterMap.mpr
        ⟨_, (mem_pick _ _ (by simp)).mpr ⟨_, hpass.chosen, by simp, hpass.ids⟩, hplan⟩
    · rw [hrep, ← b.canonical_pair]
      unfold BuildPlan.pair Assembly.plan buildPlan Assembly.pair
      simp only [hprof]
      rw [← hperiph]
      unfold Assembly.wiring Assembly.peripherals
      rw [List.map_map, List.map_map]
      rfl

theorem allPlans_pairs_nodup (hacc : input.accepted = true) :
    ((allPlans input q).map BuildPlan.pair).Nodup := by
  have hwf := SolveInput.wellFormed hacc
  have hkeys : ((sortedProfiles input).map AssemblyProfile.key).Nodup :=
    ((sortBy_perm _ _).map _).nodup_iff.mpr hwf.profileKeys
  unfold allPlans
  rw [List.map_flatMap, List.nodup_flatMap]
  constructor
  · intro profile hprofile
    unfold profilePlans
    split
    · exact List.nodup_nil
    rename_i brain source hbase
    have hnd : (pick (·.id) [] (candidates input brain source)).Nodup := by
      refine pick_nodup _ _ (List.Nodup.of_map (fun p : PartDefinition ℚ => pinKey p.pin) ?_)
      exact hwf.sortedParts_nodup.sublist (List.filter_sublist.map _)
    rw [List.Nodup, List.pairwise_map, List.pairwise_filterMap]
    refine hnd.imp_of_mem ?_
    intro l l' hl hl' hne plan hplan plan' hplan' heq
    obtain ⟨t, ht, hlt, hids⟩ := (mem_pick _ _ (by simp)).mp hl
    obtain rfl : l = t := by simpa using hlt
    obtain ⟨t', ht', hlt', hids'⟩ := (mem_pick _ _ (by simp)).mp hl'
    obtain rfl : l' = t' := by simpa using hlt'
    have hprof := mem_sortedProfiles.mp hprofile
    obtain ⟨a, ha, -, hperiph, hrep, -⟩ := planOf_some hprof hbase ht hids hplan
    obtain ⟨a', ha', -, hperiph', hrep', -⟩ := planOf_some hprof hbase ht' hids' hplan'
    have hpair := (hrep ▸ ha.reports hacc : plan.Reports input a).pair_eq
    have hpair' := (hrep' ▸ ha'.reports hacc : plan'.Reports input a').pair_eq
    have hpins := (Prod.mk.inj (hpair.symm.trans (heq.trans hpair'))).2
    rw [hperiph, hperiph'] at hpins
    exact hne (sublist_eq_of_pins hwf ht ht' hpins)
  · refine (List.pairwise_map.mp hkeys).imp_of_mem ?_
    intro profile profile' hprofile hprofile' hne x hx hx'
    obtain ⟨plan, hplan, rfl⟩ := List.mem_map.mp hx
    obtain ⟨plan', hplan', heq⟩ := List.mem_map.mp hx'
    obtain ⟨a, -, hprof, hrep, -⟩ := mem_profilePlans hacc (mem_sortedProfiles.mp hprofile) hplan
    obtain ⟨a', -, hprof', hrep', -⟩ :=
      mem_profilePlans hacc (mem_sortedProfiles.mp hprofile') hplan'
    have hkey := (Prod.mk.inj heq).1
    rw [hrep.profile.1, hrep.profile.2, hrep'.profile.1, hrep'.profile.2, hprof, hprof'] at hkey
    obtain ⟨hid, hver⟩ := Prod.mk.inj hkey
    exact hne (by unfold AssemblyProfile.key; rw [hid, hver])

/-! ## The ranking -/

def BuildPlan.rank (plan : BuildPlan ℚ) : ℚ ×ₗ ℚ ×ₗ ℕ ×ₗ Text ×ₗ Text :=
  toLex (plan.totalCostUsd, toLex (plan.powerBudget.averageSourceMa,
    toLex (plan.partVersions.length, toLex (join comma (plan.partVersions.map pinKey),
      plan.profileId ++ atSign :: plan.profileVersion))))

theorem comparePlans_compares : Compares comparePlans BuildPlan.rank := by
  have hcost : Compares (fun a b : BuildPlan ℚ => JsNumber.sign (a.totalCostUsd - b.totalCostUsd))
      (·.totalCostUsd) := fun a b => rat_sign_sub _ _
  have hdraw : Compares (fun a b : BuildPlan ℚ =>
      JsNumber.sign (a.powerBudget.averageSourceMa - b.powerBudget.averageSourceMa))
      (·.powerBudget.averageSourceMa) := fun a b => rat_sign_sub _ _
  have hlen : Compares (fun a b : BuildPlan ℚ =>
      compare a.partVersions.length b.partVersions.length) (·.partVersions.length) :=
    fun _ _ => rfl
  exact hcost.then (hdraw.then (hlen.then
    ((compareText_compares (fun p : BuildPlan ℚ => join comma (p.partVersions.map pinKey))).then
      (compareText_compares (fun p : BuildPlan ℚ =>
        p.profileId ++ atSign :: p.profileVersion)))))

theorem Assembly.Valid.peripheral_pins (h : a.Valid input q) {plan : BuildPlan ℚ}
    (hrep : plan.Reports input a) : (a.peripherals.map (·.pin)).toFinset
      = plan.partVersions.toFinset \ {a.profile.brain, a.profile.source} := by
  have hnd : (a.brain.pin :: a.source.pin :: a.peripherals.map (·.pin)).Nodup := by
    refine List.Nodup.of_map PartPin.id ?_
    rw [List.map_cons, List.map_cons, List.map_map]
    exact h.ids
  rw [List.nodup_cons, List.nodup_cons] at hnd
  obtain ⟨hbrain, hsource, -⟩ := hnd
  ext p
  rw [Finset.mem_sdiff, List.mem_toFinset, List.mem_toFinset, hrep.pins.mem_iff, ← h.host.2,
    ← h.power.2, Finset.mem_insert, Finset.mem_singleton, not_or]
  show p ∈ a.peripherals.map (·.pin) ↔
    p ∈ a.brain.pin :: a.source.pin :: a.peripherals.map (·.pin) ∧ _
  rw [List.mem_cons, List.mem_cons]
  constructor
  · intro hp
    refine ⟨Or.inr (Or.inr hp), ?_, ?_⟩
    · rintro rfl
      exact hbrain (List.mem_cons_of_mem _ hp)
    · rintro rfl
      exact hsource hp
  · rintro ⟨hp | hp | hp, hnb, hns⟩
    · exact absurd hp hnb
    · exact absurd hp hns
    · exact hp

theorem pair_eq_of_rank (hacc : input.accepted = true) {plan plan' : BuildPlan ℚ}
    (ha : a.Valid input q) (hrep : plan.Reports input a) (hb : b.Valid input q)
    (hrep' : plan'.Reports input b) (hrank : plan.rank = plan'.rank) : plan.pair = plan'.pair := by
  have hwf := SolveInput.wellFormed hacc
  have haccepted : ∀ {c : Assembly ℚ}, c.Valid input q → ∀ p ∈ c.parts.map (·.pin),
      p.accepted = true := by
    intro c hc p hp
    obtain ⟨part, hpart, rfl⟩ := List.mem_map.mp hp
    exact PartDefinition.accepted_pin (hwf.parts part (hc.catalogue part hpart).1)
  obtain ⟨-, hrank⟩ := Prod.mk.inj hrank
  obtain ⟨-, hrank⟩ := Prod.mk.inj hrank
  obtain ⟨-, hrank⟩ := Prod.mk.inj hrank
  obtain ⟨hjoin, hkey⟩ := Prod.mk.inj hrank
  -- the profile
  have hsemver : ∀ {c : Assembly ℚ}, c.Valid input q → atSign ∉ c.profile.version := by
    intro c hc
    have hprof := hwf.profiles _ hc.profile
    unfold AssemblyProfile.accepted at hprof
    simp only [Bool.and_eq_true] at hprof
    exact (isSemVer_no_sep (by tauto)).1
  obtain ⟨hid, hver⟩ := append_sep_injective_right
    (by rw [hrep.profile.2]; exact hsemver ha) (by rw [hrep'.profile.2]; exact hsemver hb) hkey
  have hprofile : a.profile = b.profile := profile_eq_of_id hwf ha.profile hb.profile
    (by rw [← hrep.profile.1, hid, hrep'.profile.1])
    (by rw [← hrep.profile.2, hver, hrep'.profile.2])
  -- the pins
  have hpins : plan.partVersions = plan'.partVersions := by
    have hno : ∀ {c : Assembly ℚ} {pl : BuildPlan ℚ}, c.Valid input q → pl.Reports input c →
        ∀ p ∈ pl.partVersions, p.accepted = true :=
      fun hc hpl p hp => haccepted hc p (hpl.pins.mem_iff.mp hp)
    have htexts : plan.partVersions.map pinKey = plan'.partVersions.map pinKey := by
      refine join_injective ?_ ?_ hjoin
      · intro t ht
        obtain ⟨p, hp, rfl⟩ := List.mem_map.mp ht
        exact (pin_accepted_no_sep (hno ha hrep p hp)).2
      · intro t ht
        obtain ⟨p, hp, rfl⟩ := List.mem_map.mp ht
        exact (pin_accepted_no_sep (hno hb hrep' p hp)).2
    refine map_inj_on ?_ htexts
    intro p hp p' hp' heq
    exact pinKey_injective (hno ha hrep p hp) (hno hb hrep' p' hp') heq
  rw [hrep.pair_eq, hrep'.pair_eq]
  unfold Assembly.pair
  rw [ha.peripheral_pins hrep, hb.peripheral_pins hrep', hpins, hprofile]

theorem rank_separates (hacc : input.accepted = true) :
    Separates BuildPlan.rank (allPlans input q) := by
  intro plan hplan plan' hplan' hrank
  obtain ⟨a, ha, hrep, -⟩ := (allPlans_complete hacc).1 plan hplan
  obtain ⟨b, hb, hrep', -⟩ := (allPlans_complete hacc).1 plan' hplan'
  exact List.inj_on_of_nodup_map (allPlans_pairs_nodup hacc) hplan hplan'
    (pair_eq_of_rank hacc ha hrep hb hrep' hrank)

/-! ## The request -/

def feasiblePairs (input : SolveInput ℚ) : Set Pair :=
  {x | ∃ a : Assembly ℚ, a.Valid input (demand input.spec) ∧ a.pair = x}

/-- `plans` holds, for every feasible pair, one plan of it with a wiring of least draw. -/
structure BestPlans (input : SolveInput ℚ) (plans : List (BuildPlan ℚ)) : Prop where
  nodup : (plans.map BuildPlan.pair).Nodup
  complete : ∀ x, x ∈ plans.map BuildPlan.pair ↔ x ∈ feasiblePairs input
  least : ∀ plan ∈ plans, ∃ a : Assembly ℚ, a.Valid input (demand input.spec) ∧
    plan.Reports input a ∧ ∀ b : Assembly ℚ, b.Valid input (demand input.spec) →
      b.pair = plan.pair → plan.powerBudget.averageSourceMa ≤
        b.averageSource input.spec.intervalS

theorem allPlans_best (hacc : input.accepted = true) :
    BestPlans input (allPlans input (query input.spec (requirements input.spec) true)) := by
  obtain ⟨hreport, hall⟩ := allPlans_complete
    (q := query input.spec (requirements input.spec) true) hacc
  refine ⟨allPlans_pairs_nodup hacc, ?_, ?_⟩
  · intro x
    constructor
    · intro hx
      obtain ⟨plan, hplan, rfl⟩ := List.mem_map.mp hx
      obtain ⟨a, ha, hrep, -⟩ := hreport plan hplan
      exact ⟨a, valid_demand_iff.mpr ha, hrep.pair_eq.symm⟩
    · rintro ⟨a, ha, rfl⟩
      obtain ⟨plan, hplan, hpair⟩ := hall a (valid_demand_iff.mp ha)
      exact List.mem_map.mpr ⟨plan, hplan, hpair⟩
  · intro plan hplan
    obtain ⟨a, ha, hrep, hleast⟩ := hreport plan hplan
    refine ⟨a, valid_demand_iff.mpr ha, hrep, ?_⟩
    intro b hb hpair
    rw [hrep.budget]
    exact hleast b (valid_demand_iff.mp hb) (hpair.trans hrep.pair_eq)

theorem BestPlans.length_eq {plans : List (BuildPlan ℚ)} (h : BestPlans input plans) :
    plans.length = (feasiblePairs input).ncard := by
  have hset : feasiblePairs input = ((plans.map BuildPlan.pair).toFinset : Set Pair) := by
    ext x
    rw [List.coe_toFinset]
    exact (h.complete x).symm
  rw [hset, Set.ncard_coe_finset, List.toFinset_card_of_nodup h.nodup, List.length_map]

theorem solveAccepted_cases
    (hlife : ¬ (input.spec.targetLifeDays.isSome = true ∧ input.spec.powerSource ≠ .battery))
    (hlimit : ∀ steps, solveAccepted input ≠ .searchLimit steps) :
    (unmet input (requirements input.spec) = false ∧ ∃ plans count steps,
      solveAccepted input = .solved plans count steps) ∨
    (unmet input (requirements input.spec) = true ∧ ∃ conflict diagnostics explanation steps,
      solveAccepted input = .infeasible conflict diagnostics explanation steps) := by
  have hguard : ¬ (input.spec.targetLifeDays.isSome && input.spec.powerSource != .battery) = true := by
    simpa using hlife
  cases hrun : (solveBody input).run .start with
  | error e s =>
      cases e
      have hres : solveAccepted input = .searchLimit s.steps := by
        unfold solveAccepted
        rw [if_neg hguard, hrun]
      exact absurd hres (hlimit s.steps)
  | ok result s =>
      have hres : solveAccepted input = result := by
        unfold solveAccepted
        rw [if_neg hguard, hrun]
      rcases solveBody_ok hrun with ⟨hmet, hr⟩ | ⟨hunmet, diagnostics, hr⟩
      · exact Or.inl ⟨hmet, _, _, _, hres.trans hr⟩
      · exact Or.inr ⟨hunmet, _, _, _, _, hres.trans hr⟩

/--
**Solver completeness and optimality.**

A request that is neither refused nor cut short is solved exactly when some pair is
feasible. Then the count is the number of feasible pairs, and the plans are the
first in ranking order among the plans of all of them.
-/
theorem solve_complete (hacc : input.accepted = true)
    (hlife : ¬ (input.spec.targetLifeDays.isSome = true ∧ input.spec.powerSource ≠ .battery))
    (hlimit : ∀ steps, solveAccepted input ≠ .searchLimit steps) :
    ((∃ plans count steps, solveAccepted input = .solved plans count steps) ↔
      (feasiblePairs input).Nonempty) ∧
    ∀ plans count steps, solveAccepted input = .solved plans count steps →
      count = (feasiblePairs input).ncard ∧
      ∃ all : List (BuildPlan ℚ), BestPlans input all ∧
        plans = (sortBy comparePlans all).take input.maxPlans := by
  have hbest := allPlans_best hacc
  have hnonempty : unmet input (requirements input.spec) = false ↔
      (feasiblePairs input).Nonempty := by
    unfold unmet
    rw [List.isEmpty_eq_false_iff_exists_mem]
    constructor
    · rintro ⟨plan, hplan⟩
      exact ⟨plan.pair, (hbest.complete _).mp (List.mem_map.mpr ⟨plan, hplan, rfl⟩)⟩
    · rintro ⟨x, hx⟩
      obtain ⟨plan, hplan, -⟩ := List.mem_map.mp ((hbest.complete x).mpr hx)
      exact ⟨plan, hplan⟩
  refine ⟨?_, ?_⟩
  · rcases solveAccepted_cases hlife hlimit with ⟨hmet, hsolved⟩ | ⟨hunmet, c, d, e, s, hinf⟩
    · exact ⟨fun _ => hnonempty.mp hmet, fun _ => hsolved⟩
    · constructor
      · rintro ⟨plans, count, steps, hsolved⟩
        rw [hinf] at hsolved
        exact absurd hsolved (by simp)
      · intro hne
        rw [hnonempty.mpr hne] at hunmet
        exact absurd hunmet (by simp)
  · intro plans count steps h
    obtain ⟨rfl, rfl⟩ := solveAccepted_solved h
    refine ⟨hbest.length_eq, _, hbest, ?_⟩
    have hkeep := foldl_keep comparePlans_compares.byKey input.maxPlans
      (allPlans input (query input.spec (requirements input.spec) true)) []
      (by simpa using rank_separates hacc)
    simpa using hkeep

/-- On the bench there is one thing to build. -/
theorem solve_complete_bench :
    (feasiblePairs benchSolvable).Nonempty ∧ (feasiblePairs benchSolvable).ncard = 1 := by
  have hlen : (solveAccepted benchSolvable).plans.length = 1 := by decide +kernel
  obtain ⟨count, steps, hrun⟩ := SolveResult.eq_solved (r := solveAccepted benchSolvable)
    (by rw [← List.length_pos_iff, hlen]; decide)
  have hacc : benchSolvable.accepted = true := by decide +kernel
  obtain ⟨hiff, hplans⟩ := solve_complete hacc (by decide)
    (fun s hs => by rw [hs] at hrun; exact absurd hrun (by simp))
  obtain ⟨-, all, hall, htake⟩ := hplans _ _ _ hrun
  refine ⟨hiff.mp ⟨_, _, _, hrun⟩, ?_⟩
  rw [htake, List.length_take, length_sortBy, hall.length_eq] at hlen
  have hmax : benchSolvable.maxPlans = 3 := rfl
  omega

end Albusforge.Matcher
