import Albusforge.Intake.Clarification
import Albusforge.Intake.Survivors

/-!
# What a spec names

`mergePatch` drops what the vocabulary does not have: from the flags of every spec it makes, and from the
capabilities a patch names. Capabilities that a patch does not name are carried from the version before, and
**what is carried is not looked up again**: it was in the vocabulary of an earlier turn.

So a version names only what its own turn's vocabulary has exactly when its patch names the capabilities, or the
vocabulary still has those before (`known_iff`), and the versions of a run do exactly when all of its turns are
like that (`versions_known_iff`). The versions of every build come out of such a run (`Tallied.turned`).
-/

namespace Albusforge.Intake

open Albusforge.Lib Albusforge.Gateway

/-! ## Turns one after the other -/

abbrev Turned := DecideInput × Decided

def latestOf (run : List Turned) : Option Spec :=
  ((run.filter fun t => t.2.newVersion).getLast?).map fun t => t.2.spec

/-- Turns of one build, each on the latest version. The vocabulary is whatever it is at the time. -/
inductive TurnRun : List Turned → Prop
  | nil : TurnRun []
  | snoc {run : List Turned} {i : DecideInput} {d : Decided} :
      TurnRun run → i.previous = latestOf run → i.decide = some d → TurnRun (run ++ [(i, d)])

structure Spec.Known (s : Spec) (vocabulary : Vocabulary) : Prop where
  capabilities : ∀ c ∈ s.capabilities, c ∈ vocabulary.capabilities
  flags : ∀ f ∈ s.environment.flags, f ∈ vocabulary.environmentFlags

def DecideInput.Covered (i : DecideInput) : Prop :=
  i.turn.specPatch.capabilities = none → ∀ c ∈ i.base.capabilities, c ∈ i.vocabulary.capabilities

/-! ## One turn -/

section

variable {i : DecideInput} {d : Decided}

theorem flags_known {f : Text} (hf : f ∈ i.spec.environment.flags) : f ∈ i.vocabulary.environmentFlags := by
  have hfilter := (List.mem_filter.mp (show f ∈ (mergePatch i.base i.turn.specPatch i.vocabulary).spec.environment.flags
    from hf)).2
  simpa using hfilter

theorem named_known {ids : List Text} (hids : i.turn.specPatch.capabilities = some ids) {c : Text}
    (hc : c ∈ i.spec.capabilities) : c ∈ i.vocabulary.capabilities := by
  have hmerged : i.spec.capabilities = (ids.map Lib.trim).eraseDups.filter i.vocabulary.lists := by
    have hpatch : (mergePatch i.base i.turn.specPatch i.vocabulary).spec.capabilities = _ := mergePatch_capabilities
    rw [hids] at hpatch
    exact hpatch
  rw [hmerged] at hc
  have hlists := (List.mem_filter.mp hc).2
  rw [Vocabulary.lists, Bool.and_eq_true] at hlists
  simpa using hlists.2

theorem carried (hnone : i.turn.specPatch.capabilities = none) : i.spec.capabilities = i.base.capabilities := by
  have hpatch : (mergePatch i.base i.turn.specPatch i.vocabulary).spec.capabilities = _ := mergePatch_capabilities
  rw [hnone] at hpatch
  exact hpatch

/-- **What a turn makes is known to its vocabulary exactly when the turn is covered.** -/
theorem known_iff (hd : i.decide = some d) : d.spec.Known i.vocabulary ↔ i.Covered := by
  rw [(DecideInput.decide_some hd).2.1]
  constructor
  · intro hknown hnone c hc
    rw [← carried hnone] at hc
    exact hknown.capabilities c hc
  · intro hcovered
    refine ⟨?_, fun f hf => flags_known hf⟩
    intro c hc
    cases hids : i.turn.specPatch.capabilities with
    | none =>
      rw [carried hids] at hc
      exact hcovered hids c hc
    | some ids => exact named_known hids hc

end

/-! ## A run -/

theorem TurnRun.decided {run : List Turned} (h : TurnRun run) {t : Turned} (ht : t ∈ run) : t.1.decide = some t.2 := by
  induction h with
  | nil => cases ht
  | snoc _ _ hd ih =>
    rcases List.mem_append.mp ht with ht | ht
    · exact ih ht
    · rw [List.mem_singleton.mp ht]
      exact hd

/--
**The specs of a run name only what their own turns' vocabularies have exactly when each turn names the
capabilities, or finds those of the version before it in its vocabulary.**
-/
theorem versions_known_iff {run : List Turned} (h : TurnRun run) :
    (∀ t ∈ run, t.2.spec.Known t.1.vocabulary) ↔ ∀ t ∈ run, t.1.Covered := by
  constructor
  · intro hknown t ht
    exact (known_iff (h.decided ht)).mp (hknown t ht)
  · intro hcovered t ht
    exact (known_iff (h.decided ht)).mpr (hcovered t ht)

/-! ## A part that leaves the catalogue -/

namespace Bench

def powering : SpecTurn :=
  let turn := naming none []
  { turn with specPatch := { turn.specPatch with power := some ⟨some .usb, none⟩ } }

def next (vocabulary : Vocabulary) : DecideInput := ⟨some settling.spec, powering, vocabulary, 0⟩

theorem two_turns {vocabulary : Vocabulary} {d d' : Decided} (hd : settling.decide = some d) (hnew : d.newVersion = true)
    (hd' : (next vocabulary).decide = some d') : TurnRun [(settling, d), (next vocabulary, d')] := by
  have hfirst : TurnRun [(settling, d)] := TurnRun.nil.snoc rfl hd
  have hlatest : latestOf [(settling, d)] = some settling.spec := by
    rw [latestOf, List.filter_eq_self.mpr (by simpa using hnew), ← (DecideInput.decide_some hd).2.1]
    rfl
  exact hfirst.snoc hlatest.symm hd'

theorem decided_new {i : DecideInput} (h : (i.decide.any fun d => d.newVersion) = true) :
    ∃ d, i.decide = some d ∧ d.newVersion = true := by
  obtain ⟨d, hd, hnew⟩ := (Option.any_eq_true _ _).mp h
  exact ⟨d, hd, hnew⟩

end Bench

/-- The vocabulary has not changed. -/
theorem versions_known_bench : ∃ d d', TurnRun [(Bench.settling, d), (Bench.next Bench.catalogue, d')] ∧
    ∀ t ∈ [(Bench.settling, d), (Bench.next Bench.catalogue, d')], t.2.spec.Known t.1.vocabulary := by
  obtain ⟨d, hd, hnew⟩ := Bench.decided_new (i := Bench.settling) (by decide +kernel)
  obtain ⟨d', hd', _⟩ := Bench.decided_new (i := Bench.next Bench.catalogue) (by decide +kernel)
  have hrun := Bench.two_turns hd hnew hd'
  refine ⟨d, d', hrun, (versions_known_iff hrun).mpr ?_⟩
  intro t ht
  rcases List.mem_pair.mp ht with rfl | rfl
  · intro hnone
    cases hnone
  · intro _ c hc
    have hbase : (Bench.next Bench.catalogue).base.capabilities = [js "read.temperature_c"] := by decide +kernel
    rw [hbase] at hc
    exact hc

/-- **A capability that the catalogue has lost is carried into the next version.** -/
theorem lost_capability_carried : ¬ ∀ run, TurnRun run → ∀ t ∈ run, t.2.newVersion = true → t.2.spec.Known t.1.vocabulary := by
  intro h
  obtain ⟨d, hd, hnew⟩ := Bench.decided_new (i := Bench.settling) (by decide +kernel)
  obtain ⟨d', hd', hnew'⟩ := Bench.decided_new (i := Bench.next ⟨[], []⟩) (by decide +kernel)
  have hknown := h _ (Bench.two_turns hd hnew hd') _ (.tail _ (.head _)) hnew'
  have hcarried : js "read.temperature_c" ∈ d'.spec.capabilities := by
    rw [(DecideInput.decide_some hd').2.1]
    decide +kernel
  exact absurd (hknown.capabilities _ hcarried) List.not_mem_nil

end Albusforge.Intake
