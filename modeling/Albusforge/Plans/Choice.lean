import Mathlib.Data.Nat.Cast.Order.Ring
import Mathlib.Tactic.Linarith
import Albusforge.Plans.Store

/-!
# Accepting a plan is a one-way choice

Every request does one of five things to its build (`Served`): nothing, new plans, one plan
accepted, one spec published, or the answer of an earlier acceptance again. An acceptance looks
for an accepted plan of its spec version under the build's lock, so **a spec version never has
two**, and nothing else writes `accepted_at`. A solve adds a row only for a digest that the spec
version does not have yet (`Stored`), so it never stores again what an earlier solve found from
the same evidence.
-/

namespace Albusforge.Plans

open Lib Matcher Sessions

/-! ## The first row, and the latest spec -/

theorem firstRow_mem {rows : List PlanRow} {row : PlanRow} (h : firstRow rows = some row) :
    row ∈ rows := by
  rcases foldl_better_mem rows none h with hnone | hmem
  · exact absurd hnone (by simp)
  · exact hmem

theorem firstRow_none {rows : List PlanRow} (h : firstRow rows = none) : rows = [] := by
  have hsome := foldl_better_isSome (fun r b : PlanRow => decide (r.version < b.version)) rows none
  rw [show rows.foldl _ none = none from h] at hsome
  simpa using hsome

theorem latestSpecOf_eq (specs : List (Intake.SpecRow Intake.Spec)) :
    Intake.latestSpecOf specs =
      specs.foldl (better fun s b => decide (-(s.version : ℚ) < -(b.version : ℚ))) none := by
  unfold Intake.latestSpecOf
  congr 1
  funext best s
  cases best with
  | none => simp [better]
  | some b => simp [better, Nat.cast_lt]

theorem latestSpecOf_spec {specs : List (Intake.SpecRow Intake.Spec)}
    {spec : Intake.SpecRow Intake.Spec} (h : Intake.latestSpecOf specs = some spec) :
    spec ∈ specs ∧ ∀ p ∈ specs, p.version ≤ spec.version := by
  rw [latestSpecOf_eq] at h
  constructor
  · rcases foldl_better_mem specs none h with hnone | hmem
    · exact absurd hnone (by simp)
    · exact hmem
  · intro p hp
    have hle := (foldl_better_le (fun s : Intake.SpecRow Intake.Spec => -(s.version : ℚ)) specs none
      h).2 p hp
    have hcast : (p.version : ℚ) ≤ spec.version := by linarith
    exact Nat.cast_le.mp hcast

/-! ## What a run does -/

section

variable (digest : Intake.Spec → Text → BuildPlanEvidence → Text)

inductive Stored (spec : Intake.SpecRow Intake.Spec) (input : SolveInput ℚ) :
    List (BuildPlan ℚ) → List PlanRow → List PlanRow → List PlanRow → Prop
  | nil (t : List PlanRow) : Stored spec input [] t t []
  | found {plan : BuildPlan ℚ} {rest : List (BuildPlan ℚ)} {t t' rows : List PlanRow}
      {metadata : BuildPlanMetadata} {row : PlanRow} :
      metadataOf digest spec input plan = some metadata → row ∈ t →
      row.identifies spec.version metadata.inputDigest = true →
      Stored spec input rest t t' rows → Stored spec input (plan :: rest) t t' (row :: rows)
  | made {plan : BuildPlan ℚ} {rest : List (BuildPlan ℚ)} {t t' rows : List PlanRow}
      {metadata : BuildPlanMetadata} (row : PlanRow) :
      metadataOf digest spec input plan = some metadata →
      (∀ r ∈ t, r.identifies spec.version metadata.inputDigest = false) →
      (∀ r ∈ t, r.version ≠ row.version) →
      row.specVersion = spec.version → row.plan = plan → row.metadata = metadata →
      row.acceptedAt = none → 1 ≤ row.version →
      Stored spec input rest (t ++ [row]) t' rows → Stored spec input (plan :: rest) t t' (row :: rows)

variable {digest}

theorem authorized_runs {o r : Outcome} {s s' : BuildRows} {c : Bool}
    (h : Runs (authorized o) s s' r c) :
    s' = s ∧ ((c = false ∧ r = { o with answer := .refused signInRequired }) ∨ (c = true ∧ r = o)) := by
  obtain ⟨g, h⟩ := h.stmt_inv
  split at h
  · obtain ⟨rfl, rfl, rfl⟩ := h.finish_inv
    exact ⟨rfl, Or.inl ⟨rfl, rfl⟩⟩
  · obtain ⟨rfl, rfl, rfl⟩ := h.finish_inv
    exact ⟨rfl, Or.inr ⟨rfl, rfl⟩⟩

theorem withSpec_runs {request : PlanRequest} {specVersion : ℕ} {doing : Text}
    {next : Intake.SpecRow Intake.Spec → PlanProg} {r : Outcome} {s s' : BuildRows} {c : Bool}
    (h : Runs (withSpec request specVersion doing next) s s' r c) :
    (c = false ∧ r = ⟨request, none, .refused signInRequired⟩) ∨
      (c = false ∧ r = ⟨request, none, .refused (specChanged doing)⟩ ∧
        ∀ spec, Intake.latestSpecOf s.specs = some spec → spec.version ≠ specVersion) ∨
      ∃ spec, Intake.latestSpecOf s.specs = some spec ∧ spec.version = specVersion ∧
        Runs (next spec) s s' r c := by
  obtain ⟨g, h⟩ := h.stmt_inv
  split at h
  · obtain ⟨-, rfl, rfl⟩ := h.finish_inv
    exact Or.inl ⟨rfl, rfl⟩
  · obtain ⟨g', h⟩ := h.stmt_inv
    split at h
    · rename_i hnone
      obtain ⟨-, rfl, rfl⟩ := h.finish_inv
      refine Or.inr (Or.inl ⟨rfl, rfl, ?_⟩)
      intro spec hspec hversion
      rw [hspec] at hnone
      simp [Option.filter, hversion] at hnone
    · rename_i spec hsome
      obtain ⟨hspec, hversion⟩ := Option.filter_eq_some_iff.mp hsome
      exact Or.inr (Or.inr ⟨spec, hspec, by simpa using hversion, h⟩)

theorem withTrustedInput_runs {catalogue : ReviewedPlanCatalogue} {request : PlanRequest}
    {data : Intake.Spec} {next : Option (SolveInput ℚ) → PlanProg} {r : Outcome}
    {s s' : BuildRows} {c : Bool}
    (h : Runs (withTrustedInput catalogue request data next) s s' r c) :
    (c = false ∧ (r = ⟨request, none, .refused specNotSolvable⟩ ∨ r = ⟨request, none, .raised⟩)) ∨
      ∃ found, Runs (next found) s s' r c := by
  unfold withTrustedInput at h
  split at h
  · exact Or.inr ⟨none, h⟩
  · split at h
    · exact Or.inr ⟨none, h⟩
    · split at h
      · obtain ⟨-, rfl, rfl⟩ := h.finish_inv
        exact Or.inl ⟨rfl, Or.inl rfl⟩
      · obtain ⟨g, h⟩ := h.stmt_inv
        dsimp only at h
        split at h
        · obtain ⟨-, rfl, rfl⟩ := h.finish_inv
          exact Or.inl ⟨rfl, Or.inr rfl⟩
        · split at h
          · exact Or.inr ⟨none, h⟩
          · obtain ⟨g', h⟩ := h.stmt_inv
            exact Or.inr ⟨_, h⟩

theorem storePlans_runs {o r : Outcome} {spec : Intake.SpecRow Intake.Spec} {input : SolveInput ℚ} :
    ∀ (plans : List (BuildPlan ℚ)) (version : ℕ) (stored : List PlanRow) {s s' : BuildRows} {c : Bool},
      Runs (storePlans digest o spec input plans version stored) s s' r c →
      (c = false ∧ r.request = o.request ∧ (r.answer = .raised ∨ ∃ e, r.answer = .refused e)) ∨
        ∃ rows, c = true ∧ r = { o with answer := .solved (stored ++ rows) } ∧
          Stored digest spec input plans s.plans s'.plans rows ∧
          s' = { s with plans := s'.plans }
  | [], version, stored, s, s', c, h => by
      obtain ⟨rfl, ⟨rfl, rfl⟩ | ⟨rfl, rfl⟩⟩ := authorized_runs h
      · exact Or.inl ⟨rfl, rfl, Or.inr ⟨_, rfl⟩⟩
      · exact Or.inr ⟨[], rfl, by simp, Stored.nil _, rfl⟩
  | plan :: rest, version, stored, s, s', c, h => by
      unfold storePlans at h
      split at h
      · obtain ⟨-, rfl, rfl⟩ := h.finish_inv
        exact Or.inl ⟨rfl, rfl, Or.inl rfl⟩
      · rename_i metadata hmetadata
        obtain ⟨g, h⟩ := h.stmt_inv
        dsimp only at h
        split at h
        · rename_i row hrow
          have hmem := List.mem_filter.mp (firstRow_mem hrow)
          split at h
          · rcases storePlans_runs rest version _ h with hout | ⟨rows, hc, hr, hstored, hs⟩
            · exact Or.inl hout
            · refine Or.inr ⟨row :: rows, hc, by simpa using hr, ?_, hs⟩
              exact Stored.found hmetadata hmem.1 hmem.2 hstored
          · obtain ⟨-, rfl, rfl⟩ := h.finish_inv
            exact Or.inl ⟨rfl, rfl, Or.inr ⟨_, rfl⟩⟩
        · rename_i hnone
          split at h
          · obtain ⟨-, rfl, rfl⟩ := h.finish_inv
            exact Or.inl ⟨rfl, rfl, Or.inl rfl⟩
          · rename_i hkey
            obtain ⟨g', h⟩ := h.stmt_inv
            rcases storePlans_runs rest (version + 1) _ h with hout | ⟨rows, hc, hr, hstored, hs⟩
            · exact Or.inl hout
            · refine Or.inr ⟨_ :: rows, hc, by simpa using hr, ?_, hs⟩
              refine Stored.made _ hmetadata ?_ ?_ rfl rfl rfl rfl (by simp) hstored
              · have hempty := firstRow_none hnone
                simpa [List.filter_eq_nil_iff] using hempty
              · simpa using hkey

end

section

inductive Served (digest : Intake.Spec → Text → BuildPlanEvidence → Text) (s : BuildRows) :
    BuildRows → Outcome → Prop
  | quiet {o : Outcome} : (∀ rows, o.answer ≠ .solved rows) → (∀ row, o.answer ≠ .accepted row) →
      Served digest s s o
  | solved {s' : BuildRows} {o : Outcome} {spec : Intake.SpecRow Intake.Spec} {input : SolveInput ℚ}
      {plans : List (BuildPlan ℚ)} {count steps : ℕ} {rows : List PlanRow} :
      Intake.latestSpecOf s.specs = some spec → solveAccepted input = .solved plans count steps →
      Stored digest spec input plans s.plans s'.plans rows → s' = { s with plans := s'.plans } →
      (∃ session, o.request = .solve session spec.version) → o.basis = some (spec, input) →
      o.answer = .solved rows → Served digest s s' o
  | replayed {o : Outcome} {row : PlanRow} : row ∈ s.plans → row.acceptedAt.isSome = true →
      o.answer = .accepted row → Served digest s s o
  | accepted {o : Outcome} {spec : Intake.SpecRow Intake.Spec} {row : PlanRow} (now : ℤ)
      (userId : Text) : Intake.latestSpecOf s.specs = some spec →
      s.plans.find? (fun r => r.version == row.version) = some row → row.specVersion = spec.version →
      (∀ r ∈ s.plans, r.specVersion = spec.version → r.acceptedAt = none) →
      (∃ session, o.request = .accept session row.version spec.version) →
      o.answer = .accepted (row.accept row.version now userId) →
      Served digest s { s with plans := s.plans.map (PlanRow.accept row.version now userId) } o
  | published {o : Outcome} (version : ℕ) (data : Intake.Spec) :
      (∀ r ∈ s.specs, r.version ≠ version) → 1 ≤ version →
      o.request = .publish (version - 1) data → o.answer = .published version →
      Served digest s { s with specs := s.specs ++ [⟨version, data⟩] } o

variable {digest : Intake.Spec → Text → BuildPlanEvidence → Text}
  {catalogue : ReviewedPlanCatalogue} {request : PlanRequest} {o : Outcome} {s s' : BuildRows} {c : Bool}

theorem Served.refused {e : HttpError} (h : o.answer = .refused e) : Served digest s s o :=
  Served.quiet (by simp [h]) (by simp [h])

theorem Served.raised (h : o.answer = .raised) : Served digest s s o :=
  Served.quiet (by simp [h]) (by simp [h])

theorem served_authorized {o' : Outcome} (hreq : o'.request = request)
    (hans : ∀ rows, o'.answer ≠ .solved rows) (hacc : ∀ row, o'.answer ≠ .accepted row)
    (h : Runs (authorized o') s s' o c) :
    o.request = request ∧ Served digest s (if c then s' else s) o := by
  obtain ⟨rfl, ⟨rfl, rfl⟩ | ⟨rfl, rfl⟩⟩ := authorized_runs h
  · exact ⟨hreq, Served.refused rfl⟩
  · exact ⟨hreq, Served.quiet hans hacc⟩

theorem solveBody_served {session : Except HttpError WriteIdentity} {specVersion : ℕ}
    (h : Runs (solveBody digest catalogue (.solve session specVersion) specVersion) s s' o c) :
    o.request = .solve session specVersion ∧ Served digest s (if c then s' else s) o := by
  rcases withSpec_runs h with ⟨rfl, rfl⟩ | ⟨rfl, rfl, -⟩ | ⟨spec, hlatest, rfl, h⟩
  · exact ⟨rfl, Served.refused rfl⟩
  · exact ⟨rfl, Served.refused rfl⟩
  · rcases withTrustedInput_runs h with ⟨rfl, rfl | rfl⟩ | ⟨found, h⟩
    · exact ⟨rfl, Served.refused rfl⟩
    · exact ⟨rfl, Served.raised rfl⟩
    · cases found with
      | none => exact served_authorized rfl (by simp) (by simp) h
      | some input =>
          dsimp only at h
          split at h
          · rename_i plans count steps hsolved
            obtain ⟨g, h⟩ := h.stmt_inv
            rcases storePlans_runs plans _ [] h with ⟨rfl, hreq, hans | ⟨e, hans⟩⟩ |
              ⟨rows, rfl, rfl, hstored, hs⟩
            · exact ⟨hreq, Served.raised hans⟩
            · exact ⟨hreq, Served.refused hans⟩
            · exact ⟨rfl, Served.solved hlatest hsolved hstored hs ⟨session, rfl⟩ rfl rfl⟩
          · exact served_authorized rfl (by simp) (by simp) h
          · exact served_authorized rfl (by simp) (by simp) h
          · exact served_authorized rfl (by simp) (by simp) h

theorem acceptBody_served {session : Except HttpError WriteIdentity} {identity : WriteIdentity}
    {version specVersion : ℕ}
    (h : Runs (acceptBody digest catalogue (.accept session version specVersion) identity version
      specVersion) s s' o c) :
    o.request = .accept session version specVersion ∧ Served digest s (if c then s' else s) o := by
  rcases withSpec_runs h with ⟨rfl, rfl⟩ | ⟨rfl, rfl, -⟩ | ⟨spec, hlatest, rfl, h⟩
  · exact ⟨rfl, Served.refused rfl⟩
  · exact ⟨rfl, Served.refused rfl⟩
  · obtain ⟨g, h⟩ := h.stmt_inv
    dsimp only at h
    split at h
    · obtain ⟨-, rfl, rfl⟩ := h.finish_inv
      exact ⟨rfl, Served.refused rfl⟩
    · rename_i row hfilter
      obtain ⟨hfind, hcheck⟩ := Option.filter_eq_some_iff.mp hfilter
      obtain ⟨-, hspec⟩ : row.decodes = true ∧ row.specVersion = spec.version := by simpa using hcheck
      have hversion : row.version = version := by simpa using List.find?_some hfind
      subst hversion
      split at h
      · rename_i hsome
        obtain ⟨rfl, ⟨rfl, rfl⟩ | ⟨rfl, rfl⟩⟩ := authorized_runs h
        · exact ⟨rfl, Served.refused rfl⟩
        · exact ⟨rfl, Served.replayed (List.mem_of_find?_eq_some hfind) hsome rfl⟩
      · rcases withTrustedInput_runs h with ⟨rfl, rfl | rfl⟩ | ⟨found, h⟩
        · exact ⟨rfl, Served.refused rfl⟩
        · exact ⟨rfl, Served.raised rfl⟩
        · cases found with
          | none =>
              obtain ⟨-, rfl, rfl⟩ := h.finish_inv
              exact ⟨rfl, Served.refused rfl⟩
          | some input =>
              dsimp only at h
              split at h
              · obtain ⟨-, rfl, rfl⟩ := h.finish_inv
                exact ⟨rfl, Served.refused rfl⟩
              · obtain ⟨g', h⟩ := h.stmt_inv
                split at h
                · obtain ⟨-, rfl, rfl⟩ := h.finish_inv
                  exact ⟨rfl, Served.refused rfl⟩
                · rename_i hnone
                  obtain ⟨g'', h⟩ := h.stmt_inv
                  obtain ⟨rfl, ⟨rfl, rfl⟩ | ⟨rfl, rfl⟩⟩ := authorized_runs h
                  · exact ⟨rfl, Served.refused rfl⟩
                  · refine ⟨rfl, Served.accepted _ _ hlatest hfind hspec ?_ ⟨session, rfl⟩ rfl⟩
                    simpa using hnone

theorem publishBody_served {latest : ℕ} {data : Intake.Spec}
    (h : Runs (publishBody (.publish latest data) latest data) s s' o c) :
    o.request = .publish latest data ∧ Served digest s (if c then s' else s) o := by
  obtain ⟨g, h⟩ := h.stmt_inv
  split at h
  · obtain ⟨-, rfl, rfl⟩ := h.finish_inv
    exact ⟨rfl, Served.raised rfl⟩
  · rename_i hkey
    obtain ⟨g', h⟩ := h.stmt_inv
    obtain ⟨rfl, rfl, rfl⟩ := h.finish_inv
    exact ⟨rfl, Served.published (latest + 1) data (by simpa using hkey) (by omega) rfl rfl⟩

theorem unmatched_refused {session : Except HttpError WriteIdentity}
    (h : unmatched request session s = some o) :
    o.request = request ∧ ∃ e, o.answer = .refused e := by
  unfold unmatched at h
  split at h
  · obtain rfl := Option.some.inj h
    exact ⟨rfl, _, rfl⟩
  · split at h
    · exact absurd h (by simp)
    · obtain rfl := Option.some.inj h
      exact ⟨rfl, _, rfl⟩

theorem transaction_served
    (h : (request.transaction digest catalogue).unmatched s = some o ∧ s' = s ∨
      ∃ t c, Runs (request.transaction digest catalogue).body s t o c ∧ s' = if c then t else s) :
    o.request = request ∧ Served digest s s' o := by
  rcases h with ⟨hun, rfl⟩ | ⟨t, c, hruns, rfl⟩
  · have hrefused : o.request = request ∧ ((∃ e, o.answer = .refused e) ∨ o.answer = .raised) := by
      cases request with
      | solve session specVersion =>
          obtain ⟨hreq, hans⟩ := unmatched_refused hun
          exact ⟨hreq, Or.inl hans⟩
      | accept session version specVersion =>
          obtain ⟨hreq, hans⟩ := unmatched_refused hun
          exact ⟨hreq, Or.inl hans⟩
      | publish latest data =>
          simp only [PlanRequest.transaction] at hun
          split at hun
          · exact absurd hun (by simp)
          · obtain rfl := Option.some.inj hun
            exact ⟨rfl, Or.inr rfl⟩
    obtain ⟨hreq, ⟨e, hans⟩ | hans⟩ := hrefused
    · exact ⟨hreq, Served.refused hans⟩
    · exact ⟨hreq, Served.raised hans⟩
  · cases request with
    | solve session specVersion => exact solveBody_served hruns
    | accept session version specVersion =>
        cases session with
        | error e =>
            obtain ⟨rfl, rfl, rfl⟩ := hruns.finish_inv
            exact ⟨rfl, Served.refused rfl⟩
        | ok identity => exact acceptBody_served hruns
    | publish latest data => exact publishBody_served hruns

end

/-! ## What a run keeps -/

structure Keyed (plans : List PlanRow) : Prop where
  versions : (plans.map PlanRow.version).Nodup
  digests : ∀ r ∈ plans, ∀ r' ∈ plans, r.specVersion = r'.specVersion →
    r.metadata.inputDigest = r'.metadata.inputDigest → r = r'

structure Chosen (s : BuildRows) : Prop extends Keyed s.plans where
  /-- **At most one plan of a spec version is accepted.** -/
  one : ∀ r ∈ s.plans, ∀ r' ∈ s.plans, r.acceptedAt.isSome = true → r'.acceptedAt.isSome = true →
    r.specVersion = r'.specVersion → r = r'
  specs : (s.specs.map Intake.SpecRow.version).Nodup
  positive : ∀ p ∈ s.specs, 1 ≤ p.version
  decodes : ∀ r ∈ s.plans, r.decodes = true
  known : ∀ r ∈ s.plans, ∃ p ∈ s.specs, p.version = r.specVersion

/-- The row `r` as it is found later. -/
structure PlanRow.Continues (r r' : PlanRow) : Prop where
  version : r'.version = r.version
  specVersion : r'.specVersion = r.specVersion
  plan : r'.plan = r.plan
  metadata : r'.metadata = r.metadata
  createdAt : r'.createdAt = r.createdAt
  /-- **Once it is accepted, nothing about it changes.** -/
  settled : r.acceptedAt.isSome = true → r' = r

theorem PlanRow.Continues.refl (r : PlanRow) : r.Continues r :=
  ⟨rfl, rfl, rfl, rfl, rfl, fun _ => rfl⟩

theorem PlanRow.Continues.trans {r r' r'' : PlanRow} (h : r.Continues r') (h' : r'.Continues r'') :
    r.Continues r'' := by
  refine ⟨h'.version.trans h.version, h'.specVersion.trans h.specVersion, h'.plan.trans h.plan,
    h'.metadata.trans h.metadata, h'.createdAt.trans h.createdAt, ?_⟩
  intro hr
  obtain rfl := h.settled hr
  exact h'.settled hr

theorem PlanRow.identifies_iff {specVersion : ℕ} {inputDigest : Text} {r : PlanRow} :
    r.identifies specVersion inputDigest = true ↔
      r.specVersion = specVersion ∧ r.metadata.inputDigest = inputDigest := by
  simp [PlanRow.identifies]

structure Grows (s s' : BuildRows) : Prop where
  plans : ∀ r ∈ s.plans, ∃ r' ∈ s'.plans, r.Continues r'
  specs : s.specs ⊆ s'.specs

theorem Grows.refl (s : BuildRows) : Grows s s :=
  ⟨fun r hr => ⟨r, hr, PlanRow.Continues.refl r⟩, List.Subset.refl _⟩

theorem Grows.trans {s s' s'' : BuildRows} (h : Grows s s') (h' : Grows s' s'') : Grows s s'' := by
  refine ⟨?_, List.Subset.trans h.specs h'.specs⟩
  intro r hr
  obtain ⟨r', hr', hcont⟩ := h.plans r hr
  obtain ⟨r'', hr'', hcont'⟩ := h'.plans r' hr'
  exact ⟨r'', hr'', hcont.trans hcont'⟩

section

variable {digest : Intake.Spec → Text → BuildPlanEvidence → Text}
  {spec : Intake.SpecRow Intake.Spec} {input : SolveInput ℚ} {plans : List (BuildPlan ℚ)}
  {t t' rows : List PlanRow}

theorem metadataOf_accepted {plan : BuildPlan ℚ} {metadata : BuildPlanMetadata}
    (h : metadataOf digest spec input plan = some metadata) :
    evidenceFor plan input = some metadata.evidence ∧
      metadata.inputDigest = digest spec.data plan.runtime metadata.evidence ∧
      buildPlanAccepted plan = true ∧ metadata.accepted = true := by
  obtain ⟨evidence, hevidence, hmeta⟩ := Option.bind_eq_some_iff.mp h
  dsimp only at hmeta
  split at hmeta
  · rename_i hok
    obtain ⟨hplan, hacc⟩ := Bool.and_eq_true_iff.mp hok
    obtain rfl := Option.some.inj hmeta
    exact ⟨hevidence, rfl, hplan, hacc⟩
  · exact absurd hmeta (by simp)

theorem metadataOf_congr {input' : SolveInput ℚ} {plan : BuildPlan ℚ} {m m' : BuildPlanMetadata}
    (h : metadataOf digest spec input plan = some m) (h' : metadataOf digest spec input' plan = some m')
    (hsame : m.evidence = m'.evidence) : m.inputDigest = m'.inputDigest := by
  rw [(metadataOf_accepted h).2.1, (metadataOf_accepted h').2.1, hsame]

theorem Stored.added (h : Stored digest spec input plans t t' rows) :
    ∃ new, t' = t ++ new ∧ ∀ r ∈ new, r.acceptedAt = none ∧ r.specVersion = spec.version ∧
      1 ≤ r.version ∧ r.plan ∈ plans ∧ metadataOf digest spec input r.plan = some r.metadata ∧
      ∀ r' ∈ t, r'.identifies spec.version r.metadata.inputDigest = false := by
  induction h with
  | nil t => exact ⟨[], by simp, by simp⟩
  | found hmeta hrow hident _ ih =>
      obtain ⟨new, rfl, hnew⟩ := ih
      refine ⟨new, rfl, ?_⟩
      intro r hr
      obtain ⟨hacc, hspec, hpos, hplan, hrest⟩ := hnew r hr
      exact ⟨hacc, hspec, hpos, List.mem_cons_of_mem _ hplan, hrest⟩
  | @made plan rest t t' rows metadata row hmeta hfresh hkey hspec hplan hm hacc hpos _ ih =>
      obtain ⟨new, rfl, hnew⟩ := ih
      refine ⟨row :: new, by simp, ?_⟩
      intro r hr
      rcases List.mem_cons.mp hr with rfl | hr
      · subst hplan hm
        exact ⟨hacc, hspec, hpos, List.mem_cons_self .., hmeta, hfresh⟩
      · obtain ⟨hacc', hspec', hpos', hplan', hmeta', hrest⟩ := hnew r hr
        exact ⟨hacc', hspec', hpos', List.mem_cons_of_mem _ hplan', hmeta',
          fun r' hr' => hrest r' (List.mem_append_left _ hr')⟩

theorem Keyed.append {row : PlanRow} (h : Keyed t) (hkey : ∀ r ∈ t, r.version ≠ row.version)
    (hfresh : ∀ r ∈ t, r.identifies row.specVersion row.metadata.inputDigest = false) :
    Keyed (t ++ [row]) := by
  have hother : ∀ r ∈ t, r.specVersion = row.specVersion →
      r.metadata.inputDigest ≠ row.metadata.inputDigest := by
    intro r hr hspec hdigest
    have hnot := hfresh r hr
    rw [PlanRow.identifies_iff.mpr ⟨hspec, hdigest⟩] at hnot
    exact absurd hnot (by simp)
  constructor
  · rw [List.map_append, List.nodup_append]
    refine ⟨h.versions, by simp, ?_⟩
    intro a ha b hb hab
    obtain ⟨r, hr, rfl⟩ := List.mem_map.mp ha
    obtain rfl : b = row.version := by simpa using hb
    exact hkey r hr hab
  · intro r hr r' hr' hspec hdigest
    rcases List.mem_append.mp hr with hr | hr
    · rcases List.mem_append.mp hr' with hr' | hr'
      · exact h.digests r hr r' hr' hspec hdigest
      · rw [List.mem_singleton.mp hr'] at hspec hdigest
        exact absurd hdigest (hother r hr hspec)
    · obtain rfl := List.mem_singleton.mp hr
      rcases List.mem_append.mp hr' with hr' | hr'
      · exact absurd hdigest.symm (hother r' hr' hspec.symm)
      · exact (List.mem_singleton.mp hr').symm

theorem Stored.keyed (h : Stored digest spec input plans t t' rows) (hk : Keyed t) : Keyed t' := by
  induction h with
  | nil t => exact hk
  | found _ _ _ _ ih => exact ih hk
  | made row hmeta hfresh hkey hspec hplan hm hacc hpos _ ih =>
      refine ih (hk.append hkey ?_)
      rw [hspec, hm]
      exact hfresh

theorem Stored.covers (h : Stored digest spec input plans t t' rows) :
    ∀ plan ∈ plans, ∃ metadata, metadataOf digest spec input plan = some metadata ∧
      ∃ r ∈ t', r.identifies spec.version metadata.inputDigest = true := by
  induction h with
  | nil t => simp
  | @found plan rest t t' rows metadata row hmeta hrow hident hrest ih =>
      intro p hp
      rcases List.mem_cons.mp hp with rfl | hp
      · obtain ⟨new, rfl, -⟩ := hrest.added
        exact ⟨metadata, hmeta, row, List.mem_append_left _ hrow, hident⟩
      · exact ih p hp
  | @made plan rest t t' rows metadata row hmeta hfresh hkey hspec hplan hm hacc hpos hrest ih =>
      intro p hp
      rcases List.mem_cons.mp hp with rfl | hp
      · obtain ⟨new, rfl, -⟩ := hrest.added
        exact ⟨metadata, hmeta, row, by simp, PlanRow.identifies_iff.mpr ⟨hspec, by rw [hm]⟩⟩
      · exact ih p hp

end

/-! ## An acceptance -/

section

variable (r : PlanRow) (version : ℕ) (now : ℤ) (userId : Text)

@[simp] theorem PlanRow.accept_version : (r.accept version now userId).version = r.version := by
  unfold PlanRow.accept
  split <;> rfl

@[simp] theorem PlanRow.accept_specVersion :
    (r.accept version now userId).specVersion = r.specVersion := by
  unfold PlanRow.accept
  split <;> rfl

@[simp] theorem PlanRow.accept_plan : (r.accept version now userId).plan = r.plan := by
  unfold PlanRow.accept
  split <;> rfl

@[simp] theorem PlanRow.accept_metadata : (r.accept version now userId).metadata = r.metadata := by
  unfold PlanRow.accept
  split <;> rfl

@[simp] theorem PlanRow.accept_createdAt :
    (r.accept version now userId).createdAt = r.createdAt := by
  unfold PlanRow.accept
  split <;> rfl

theorem PlanRow.accept_decodes : (r.accept version now userId).decodes = r.decodes := by
  simp [PlanRow.decodes]

theorem PlanRow.accept_of_ne (h : r.version ≠ version) : r.accept version now userId = r := by
  simp [PlanRow.accept, h]

end

section

variable {s : BuildRows} {row : PlanRow} {specVersion : ℕ} {now : ℤ} {userId : Text}

theorem Keyed.eq_of_version {t : List PlanRow} (h : Keyed t) {r r' : PlanRow} (hr : r ∈ t)
    (hr' : r' ∈ t) (hv : r.version = r'.version) : r = r' :=
  List.inj_on_of_nodup_map h.versions hr hr' hv

theorem Chosen.accept (h : Chosen s) (hrow : row ∈ s.plans)
    (hnone : ∀ r ∈ s.plans, r.specVersion = row.specVersion → r.acceptedAt = none) :
    Chosen { s with plans := s.plans.map (PlanRow.accept row.version now userId) } := by
  -- an accepted row is the one just accepted, or was accepted before, of another spec version
  have hcases : ∀ a ∈ s.plans, (a.accept row.version now userId).acceptedAt.isSome = true →
      a = row ∨ (a.acceptedAt.isSome = true ∧ a.specVersion ≠ row.specVersion) := by
    intro a ha hacc
    by_cases hv : a.version = row.version
    · exact Or.inl (h.eq_of_version ha hrow hv)
    · rw [PlanRow.accept_of_ne a _ _ _ hv] at hacc
      refine Or.inr ⟨hacc, ?_⟩
      intro hspec
      rw [hnone a ha hspec] at hacc
      exact absurd hacc (by simp)
  constructor
  · constructor
    · rw [List.map_map]
      have hmap : PlanRow.version ∘ PlanRow.accept row.version now userId = PlanRow.version := by
        funext r
        simp
      rw [hmap]
      exact h.versions
    · intro r hr r' hr' hspec hdigest
      obtain ⟨a, ha, rfl⟩ := List.mem_map.mp hr
      obtain ⟨a', ha', rfl⟩ := List.mem_map.mp hr'
      rw [h.digests a ha a' ha' (by simpa using hspec) (by simpa using hdigest)]
  · intro r hr r' hr' hacc hacc' hspec
    obtain ⟨a, ha, rfl⟩ := List.mem_map.mp hr
    obtain ⟨a', ha', rfl⟩ := List.mem_map.mp hr'
    rw [PlanRow.accept_specVersion, PlanRow.accept_specVersion] at hspec
    rcases hcases a ha hacc with rfl | ⟨hold, hne⟩
    · rcases hcases a' ha' hacc' with rfl | ⟨hold', hne'⟩
      · rfl
      · exact absurd hspec.symm hne'
    · rcases hcases a' ha' hacc' with rfl | ⟨hold', hne'⟩
      · exact absurd hspec hne
      · rw [h.one a ha a' ha' hold hold' hspec]
  · exact h.specs
  · exact h.positive
  · intro r hr
    obtain ⟨a, ha, rfl⟩ := List.mem_map.mp hr
    rw [PlanRow.accept_decodes]
    exact h.decodes a ha
  · intro r hr
    obtain ⟨a, ha, rfl⟩ := List.mem_map.mp hr
    rw [PlanRow.accept_specVersion]
    exact h.known a ha

theorem Chosen.accept_grows (h : Chosen s) (hrow : row ∈ s.plans)
    (hnone : ∀ r ∈ s.plans, r.specVersion = row.specVersion → r.acceptedAt = none) :
    Grows s { s with plans := s.plans.map (PlanRow.accept row.version now userId) } := by
  refine ⟨?_, List.Subset.refl _⟩
  intro r hr
  refine ⟨r.accept row.version now userId, List.mem_map_of_mem hr, by simp, by simp, by simp,
    by simp, by simp, ?_⟩
  intro hacc
  refine PlanRow.accept_of_ne r _ _ _ ?_
  intro hv
  obtain rfl := h.eq_of_version hr hrow hv
  rw [hnone r hr rfl] at hacc
  exact absurd hacc (by simp)

end

/-! ## What a request keeps -/

section

variable {digest : Intake.Spec → Text → BuildPlanEvidence → Text} {s s' : BuildRows} {o : Outcome}

/-- **Every request keeps what holds**, and loses nothing. -/
theorem Served.keeps (h : Served digest s s' o) (hs : Chosen s) : Chosen s' ∧ Grows s s' := by
  cases h with
  | quiet => exact ⟨hs, Grows.refl s⟩
  | replayed => exact ⟨hs, Grows.refl s⟩
  | @solved _ _ spec input plans count steps rows hlatest hsolved hstored hview hreq hbasis hans =>
      obtain ⟨hmem, -⟩ := latestSpecOf_spec hlatest
      obtain ⟨new, hplans, hnew⟩ := hstored.added
      have hkeyed := hstored.keyed hs.toKeyed
      rw [hview] at hplans ⊢
      dsimp only at hplans
      rw [hplans] at hkeyed ⊢
      refine ⟨⟨hkeyed, ?_, hs.specs, hs.positive, ?_, ?_⟩, ?_, List.Subset.refl _⟩
      · -- a new row is not accepted yet
        have hold : ∀ r ∈ s.plans ++ new, r.acceptedAt.isSome = true → r ∈ s.plans := by
          intro r hr hacc
          rcases List.mem_append.mp hr with hr | hr
          · exact hr
          · rw [(hnew r hr).1] at hacc
            exact absurd hacc (by simp)
        intro r hr r' hr' hacc hacc'
        exact hs.one r (hold r hr hacc) r' (hold r' hr' hacc') hacc hacc'
      · intro r hr
        rcases List.mem_append.mp hr with hr | hr
        · exact hs.decodes r hr
        · obtain ⟨-, hspec, hpos, -, hmeta, -⟩ := hnew r hr
          obtain ⟨-, -, hplan, hacc⟩ := metadataOf_accepted hmeta
          have hone : 1 ≤ r.specVersion := hspec ▸ hs.positive spec hmem
          simp [PlanRow.decodes, hplan, hacc, hpos, hone]
      · intro r hr
        rcases List.mem_append.mp hr with hr | hr
        · exact hs.known r hr
        · exact ⟨spec, hmem, ((hnew r hr).2.1).symm⟩
      · intro r hr
        exact ⟨r, List.mem_append_left _ hr, PlanRow.Continues.refl r⟩
  | accepted now userId hlatest hfind hspec hnone hreq hans =>
      have hrow := List.mem_of_find?_eq_some hfind
      rw [← hspec] at hnone
      exact ⟨hs.accept hrow hnone, hs.accept_grows hrow hnone⟩
  | published version data hkey hpos hreq hans =>
      refine ⟨⟨hs.toKeyed, hs.one, ?_, ?_, hs.decodes, ?_⟩, ?_, List.subset_append_left _ _⟩
      · rw [List.map_append, List.nodup_append]
        refine ⟨hs.specs, by simp, ?_⟩
        intro a ha b hb hab
        obtain ⟨r, hr, rfl⟩ := List.mem_map.mp ha
        obtain rfl : b = version := by simpa using hb
        exact hkey r hr hab
      · intro p hp
        rcases List.mem_append.mp hp with hp | hp
        · exact hs.positive p hp
        · rw [List.mem_singleton.mp hp]
          exact hpos
      · intro r hr
        obtain ⟨p, hp, hversion⟩ := hs.known r hr
        exact ⟨p, List.mem_append_left _ hp, hversion⟩
      · intro r hr
        exact ⟨r, hr, PlanRow.Continues.refl r⟩

theorem Served.latest (h : Served digest s s' o) (hs : Chosen s) {r : PlanRow} (hr : r ∈ s'.plans)
    (hacc : r.acceptedAt.isSome = true) (hnew : r ∉ s.plans) :
    ∃ spec ∈ s.specs, r.specVersion = spec.version ∧ ∀ p ∈ s.specs, p.version ≤ spec.version := by
  cases h with
  | quiet => exact absurd hr hnew
  | replayed => exact absurd hr hnew
  | solved hlatest hsolved hstored hview hreq hbasis hans =>
      obtain ⟨new, hplans, hall⟩ := hstored.added
      rw [hplans] at hr
      rcases List.mem_append.mp hr with hr | hr
      · exact absurd hr hnew
      · rw [(hall r hr).1] at hacc
        exact absurd hacc (by simp)
  | @accepted _ spec row now userId hlatest hfind hspec hnone hreq hans =>
      obtain ⟨a, ha, rfl⟩ := List.mem_map.mp hr
      by_cases hv : a.version = row.version
      · obtain rfl := hs.eq_of_version ha (List.mem_of_find?_eq_some hfind) hv
        obtain ⟨hmem, hmax⟩ := latestSpecOf_spec hlatest
        exact ⟨spec, hmem, by simpa using hspec, hmax⟩
      · rw [PlanRow.accept_of_ne a _ _ _ hv] at hnew
        exact absurd ha hnew
  | published version data hkey hpos hreq hans => exact absurd hr hnew

def Recorded (digest : Intake.Spec → Text → BuildPlanEvidence → Text) (s : BuildRows) (o : Outcome) :
    Prop :=
  ∀ rows spec input, o.answer = .solved rows → o.basis = some (spec, input) →
    spec ∈ s.specs ∧ ∀ plan ∈ (solveAccepted input).plans,
      ∃ metadata, metadataOf digest spec input plan = some metadata ∧
        ∃ r ∈ s.plans, r.identifies spec.version metadata.inputDigest = true

theorem Recorded.grows (h : Recorded digest s o) (hg : Grows s s') : Recorded digest s' o := by
  intro rows spec input hans hbasis
  obtain ⟨hmem, hall⟩ := h rows spec input hans hbasis
  refine ⟨hg.specs hmem, ?_⟩
  intro plan hplan
  obtain ⟨metadata, hmeta, r, hr, hident⟩ := hall plan hplan
  obtain ⟨r', hr', hcont⟩ := hg.plans r hr
  obtain ⟨hspec, hdigest⟩ := PlanRow.identifies_iff.mp hident
  refine ⟨metadata, hmeta, r', hr', PlanRow.identifies_iff.mpr ⟨?_, ?_⟩⟩
  · rw [hcont.specVersion, hspec]
  · rw [hcont.metadata, hdigest]

theorem Served.recorded (h : Served digest s s' o) : Recorded digest s' o := by
  intro rows spec input hans hbasis
  cases h with
  | quiet hsol => exact absurd hans (hsol rows)
  | replayed _ _ hacc => exact absurd (hans.symm.trans hacc) (by simp)
  | accepted _ _ _ _ _ _ _ hacc => exact absurd (hans.symm.trans hacc) (by simp)
  | published _ _ _ _ _ hpub => exact absurd (hans.symm.trans hpub) (by simp)
  | solved hlatest hsolved hstored hview hreq hbasis' hans' =>
      obtain ⟨rfl, rfl⟩ := Prod.mk.inj (Option.some.inj (hbasis.symm.trans hbasis'))
      refine ⟨?_, ?_⟩
      · rw [hview]
        exact (latestSpecOf_spec hlatest).1
      · rw [hsolved]
        exact hstored.covers

end

end Albusforge.Plans
