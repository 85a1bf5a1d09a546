import Albusforge.Matcher.Conflicts
import Albusforge.Plans.Choice

/-!
# Plan acceptance over whole runs

Solves, acceptances and publications of one build interleave in any way, with other writers of
the build's row and a registry that changes under them. In every reachable world a spec version
has at most one accepted plan, an accepted plan is found unchanged in every later world, and a
plan becomes accepted only for the latest spec (`acceptance_one_way`).

Accepting a plan again shows the recorded decision only until intake publishes another spec:
the spec version is compared before the row is looked at (`accept_again_refused`).
-/

namespace Albusforge.Plans

open Lib Matcher Sessions

section

variable (digest : Intake.Spec → Text → BuildPlanEvidence → Text) (catalogue : ReviewedPlanCatalogue)

def requests (_build : Text) (txn : Transaction BuildRows Beside Outcome) : Prop :=
  ∃ q : PlanRequest, txn = q.transaction digest catalogue

end

/-- What other writers do to a build: claim it, move its status. Nobody else writes its specs or
its plans. -/
structure Outside (build : Text) (s s' : BuildRows) : Prop where
  specs : s'.specs = s.specs
  plans : s'.plans = s.plans

structure Fresh (w : World Text BuildRows Beside Outcome) : Prop where
  sessions : ∀ i, w.sessions i = none
  log : w.log = []
  specs : ∀ k, (w.tables k).specs = []
  plans : ∀ k, (w.tables k).plans = []

/-- How a request about build `k` is answered, when its rows are `s` before and `s'` after. -/
structure Answered (log : List (Text × Outcome)) (k : Text) (s s' : BuildRows) (o : Outcome) :
    Prop where
  /-- **Accepting an accepted plan again changes nothing**, whoever asks and for whatever spec. -/
  unchanged : ∀ session version specVersion, o.request = .accept session version specVersion →
    ∀ row ∈ s.plans, row.version = version → row.acceptedAt.isSome = true → s' = s
  /-- **While its spec is the latest, the answer is the recorded decision**: a member who may write
  gets the row as it is, unless the session has expired. -/
  again : ∀ identity version, ∀ row ∈ s.plans,
    o.request = .accept (.ok identity) version row.specVersion →
    s.build = some (some identity.tenantId) → row.version = version →
    row.acceptedAt.isSome = true → (∀ p ∈ s.specs, p.version ≤ row.specVersion) →
    o.answer = .accepted row ∨ o.answer = .refused signInRequired
  /-- **A plan found again from the same evidence gets no second row.** -/
  twice : ∀ r ∈ s'.plans, (∀ r' ∈ s.plans, r'.version ≠ r.version) →
    ∀ o', (k, o') ∈ log → ∀ rows spec input, o'.answer = .solved rows →
      o'.basis = some (spec, input) → spec.version = r.specVersion →
      r.plan ∈ (solveAccepted input).plans → evidenceFor r.plan input ≠ some r.metadata.evidence
  /-- **Solving the same input again stores nothing.** -/
  same : ∀ rows, o.answer = .solved rows → ∀ o', (k, o') ∈ log → ∀ rows',
    o'.answer = .solved rows' → o'.basis = o.basis → s' = s

/-! ## Accepting again -/

section

variable {digest : Intake.Spec → Text → BuildPlanEvidence → Text}
  {catalogue : ReviewedPlanCatalogue} {request : PlanRequest} {s s' : BuildRows} {o : Outcome}

theorem Chosen.latest (h : Chosen s) {row : PlanRow} (hrow : row ∈ s.plans)
    (hmax : ∀ p ∈ s.specs, p.version ≤ row.specVersion) :
    ∃ spec, Intake.latestSpecOf s.specs = some spec ∧ spec.version = row.specVersion := by
  obtain ⟨p, hp, hversion⟩ := h.known row hrow
  cases hlatest : Intake.latestSpecOf s.specs with
  | none =>
      have hsome := foldl_better_isSome (fun s b : Intake.SpecRow Intake.Spec =>
        decide (-(s.version : ℚ) < -(b.version : ℚ))) s.specs none
      rw [← latestSpecOf_eq, hlatest] at hsome
      have hnil : s.specs = [] := by simpa using hsome
      rw [hnil] at hp
      exact absurd hp (by simp)
  | some spec =>
      obtain ⟨hmem, hle⟩ := latestSpecOf_spec hlatest
      have hlow := hle p hp
      have hhigh := hmax spec hmem
      exact ⟨spec, rfl, by omega⟩

theorem acceptBody_again {identity : WriteIdentity} {version specVersion : ℕ} {row : PlanRow} {c : Bool}
    (hs : Chosen s) (hrow : row ∈ s.plans) (hversion : row.version = version)
    (hacc : row.acceptedAt.isSome = true) (hspec : row.specVersion = specVersion)
    (hmax : ∀ p ∈ s.specs, p.version ≤ row.specVersion)
    (h : Runs (acceptBody digest catalogue request identity version specVersion) s s' o c) :
    o.answer = .accepted row ∨ o.answer = .refused signInRequired := by
  obtain ⟨spec, hlatest, hspecVersion⟩ := hs.latest hrow hmax
  rcases withSpec_runs h with ⟨-, rfl⟩ | ⟨-, -, hnone⟩ | ⟨spec', hlatest', -, h⟩
  · exact Or.inr rfl
  · exact absurd (hspecVersion.trans hspec) (hnone spec hlatest)
  · obtain rfl := Option.some.inj (hlatest.symm.trans hlatest')
    obtain ⟨g, h⟩ := h.stmt_inv
    -- the row of that version is the accepted one
    have hfind : s.plans.find? (fun r => r.version == version) = some row := by
      cases hfound : s.plans.find? (fun r => r.version == version) with
      | none =>
          have hno := List.find?_eq_none.mp hfound row hrow
          exact absurd hversion (by simpa using hno)
      | some found =>
          have hv : found.version = version := by simpa using List.find?_some hfound
          rw [hs.eq_of_version (List.mem_of_find?_eq_some hfound) hrow (hv.trans hversion.symm)]
    have hkept : (some row).filter (fun r => r.decodes && r.specVersion == spec.version) = some row := by
      simp [Option.filter, hs.decodes row hrow, hspecVersion]
    simp only [hfind, hkept, hacc, if_true] at h
    obtain ⟨-, ⟨-, rfl⟩ | ⟨-, rfl⟩⟩ := authorized_runs h
    · exact Or.inr rfl
    · exact Or.inl rfl

theorem Served.unchanged (h : Served digest s s' o) (hs : Chosen s)
    {session : Except HttpError WriteIdentity} {specVersion : ℕ} {row : PlanRow}
    (hreq : o.request = .accept session row.version specVersion) (hrow : row ∈ s.plans)
    (hacc : row.acceptedAt.isSome = true) : s' = s := by
  cases h with
  | quiet => rfl
  | replayed => rfl
  | solved _ _ _ _ hsolve =>
      obtain ⟨_, hsolve⟩ := hsolve
      exact absurd (hreq.symm.trans hsolve) (by simp)
  | published _ _ _ _ hpublish => exact absurd (hreq.symm.trans hpublish) (by simp)
  | @accepted _ spec chosen now userId hlatest hfind hspec hnone haccept hans =>
      obtain ⟨_, haccept⟩ := haccept
      obtain ⟨-, hversion, -⟩ := PlanRequest.accept.inj (hreq.symm.trans haccept)
      obtain rfl := hs.eq_of_version hrow (List.mem_of_find?_eq_some hfind) hversion
      rw [hnone row hrow hspec] at hacc
      exact absurd hacc (by simp)

/-- **A new row is of a plan that no earlier solve found from the same evidence.** -/
theorem Served.twice (h : Served digest s s' o) (hs : Chosen s) {o' : Outcome}
    (hrecorded : Recorded digest s o') {r : PlanRow} (hr : r ∈ s'.plans)
    (hnew : ∀ r' ∈ s.plans, r'.version ≠ r.version) {rows : List PlanRow}
    {spec : Intake.SpecRow Intake.Spec} {input : SolveInput ℚ} (hans : o'.answer = .solved rows)
    (hbasis : o'.basis = some (spec, input)) (hversion : spec.version = r.specVersion)
    (hplan : r.plan ∈ (solveAccepted input).plans) :
    evidenceFor r.plan input ≠ some r.metadata.evidence := by
  cases h with
  | quiet => exact absurd rfl (hnew r hr)
  | replayed => exact absurd rfl (hnew r hr)
  | published => exact absurd rfl (hnew r hr)
  | accepted =>
      obtain ⟨a, ha, rfl⟩ := List.mem_map.mp hr
      exact absurd (PlanRow.accept_version ..).symm (hnew a ha)
  | @solved _ _ spec' input' plans count steps rows' hlatest hsolved hstored hview hreq hbasis' hans' =>
      obtain ⟨new, hplans, hall⟩ := hstored.added
      rw [hplans] at hr
      rcases List.mem_append.mp hr with hr | hr
      · exact absurd rfl (hnew r hr)
      · obtain ⟨-, hspec, -, -, hmeta, hfresh⟩ := hall r hr
        obtain ⟨hmem, hcovers⟩ := hrecorded rows spec input hans hbasis
        -- both solves were of one spec
        obtain rfl : spec = spec' := List.inj_on_of_nodup_map hs.specs hmem
          (latestSpecOf_spec hlatest).1 (hversion.trans hspec)
        obtain ⟨metadata, hmeta', r₀, hr₀, hident⟩ := hcovers r.plan hplan
        intro hsame
        obtain ⟨hevidence, -⟩ := metadataOf_accepted hmeta'
        have hdigest : metadata.inputDigest = r.metadata.inputDigest :=
          metadataOf_congr hmeta' hmeta (Option.some.inj (hevidence.symm.trans hsame))
        rw [hdigest, hfresh r₀ hr₀] at hident
        exact absurd hident (by simp)

theorem Served.same (h : Served digest s s' o) {o' : Outcome} (hrecorded : Recorded digest s o')
    {rows rows' : List PlanRow} (hans : o.answer = .solved rows) (hans' : o'.answer = .solved rows')
    (hbasis : o'.basis = o.basis) : s' = s := by
  cases h with
  | quiet => rfl
  | replayed => rfl
  | accepted _ _ _ _ _ _ _ hacc => exact absurd (hans.symm.trans hacc) (by simp)
  | published _ _ _ _ _ hpub => exact absurd (hans.symm.trans hpub) (by simp)
  | @solved _ _ spec input plans count steps rows'' hlatest hsolved hstored hview hreq hbasis' hans'' =>
      obtain ⟨-, hcovers⟩ := hrecorded rows' spec input hans' (hbasis.trans hbasis')
      obtain ⟨new, hplans, hall⟩ := hstored.added
      have hempty : new = [] := by
        rw [List.eq_nil_iff_forall_not_mem]
        intro r hr
        obtain ⟨-, -, -, hplan, hmeta, hfresh⟩ := hall r hr
        have hfound : r.plan ∈ (solveAccepted input).plans := by
          rw [hsolved]
          exact hplan
        obtain ⟨metadata, hmeta', r₀, hr₀, hident⟩ := hcovers r.plan hfound
        obtain rfl := Option.some.inj (hmeta.symm.trans hmeta')
        rw [hfresh r₀ hr₀] at hident
        exact absurd hident (by simp)
      rw [hview, hplans, hempty, List.append_nil]

end

/-! ## The system -/

section

variable {digest : Intake.Spec → Text → BuildPlanEvidence → Text}
  {catalogue : ReviewedPlanCatalogue} {t t' : Text → BuildRows} {l l' : List (Text × Outcome)}
  {w₀ w w' : World Text BuildRows Beside Outcome}

structure Settled (digest : Intake.Spec → Text → BuildPlanEvidence → Text) (t : Text → BuildRows)
    (l : List (Text × Outcome)) : Prop where
  chosen : ∀ k, Chosen (t k)
  recorded : ∀ k o, (k, o) ∈ l → Recorded digest (t k) o

theorem Outside.grows {k : Text} {s s' : BuildRows} (h : Outside k s s') : Grows s s' := by
  refine ⟨?_, ?_⟩
  · intro r hr
    exact ⟨r, h.plans.symm ▸ hr, PlanRow.Continues.refl r⟩
  · rw [h.specs]
    exact List.Subset.refl _

theorem Outside.chosen {k : Text} {s s' : BuildRows} (h : Outside k s s') (hs : Chosen s) :
    Chosen s' := by
  obtain ⟨build, specs, plans⟩ := s'
  obtain ⟨rfl, rfl⟩ : specs = s.specs ∧ plans = s.plans := ⟨h.specs, h.plans⟩
  exact ⟨hs.toKeyed, hs.one, hs.specs, hs.positive, hs.decodes, hs.known⟩

theorem serial_cases (hs : Serial (requests digest catalogue) Outside t l t' l') :
    (∃ k o, l' = l ++ [(k, o)] ∧ (∀ k', k' ≠ k → t' k' = t k') ∧
        ∃ request : PlanRequest,
          (request.transaction digest catalogue).unmatched (t k) = some o ∧ t' k = t k ∨
          ∃ s c, (request.transaction digest catalogue).unmatched (t k) = none ∧
            Runs (request.transaction digest catalogue).body (t k) s o c ∧
            t' k = if c then s else t k) ∨
      (l' = l ∧ ∀ k, Outside k (t k) (t' k)) := by
  cases hs with
  | refuse k txn o hreq hun =>
      obtain ⟨q, rfl⟩ := hreq
      exact Or.inl ⟨k, o, rfl, fun _ _ => rfl, q, Or.inl ⟨hun, rfl⟩⟩
  | run k txn s o c hreq hun hrun =>
      obtain ⟨q, rfl⟩ := hreq
      refine Or.inl ⟨k, o, rfl, fun k' hne => Function.update_of_ne hne .., q, Or.inr ?_⟩
      exact ⟨s, c, hun, hrun, Function.update_self ..⟩
  | outside k s hout =>
      refine Or.inr ⟨rfl, ?_⟩
      intro k'
      by_cases hk : k' = k
      · subst hk
        rw [Function.update_self]
        exact hout
      · rw [Function.update_of_ne hk]
        exact ⟨rfl, rfl⟩

theorem serial_build (hs : Serial (requests digest catalogue) Outside t l t' l') (k : Text) :
    (∃ o, Served digest (t k) (t' k) o ∧ l' = l ++ [(k, o)]) ∨
      (Outside k (t k) (t' k) ∧ ∀ o, (k, o) ∈ l' → (k, o) ∈ l) := by
  rcases serial_cases hs with ⟨k', o, hl, hother, q, hdone⟩ | ⟨rfl, hout⟩
  · by_cases hk : k = k'
    · subst hk
      obtain ⟨-, hserved⟩ : o.request = q ∧ Served digest (t k) (t' k) o := by
        rcases hdone with ⟨hun, ht⟩ | ⟨s, c, -, hrun, ht⟩
        · exact transaction_served (Or.inl ⟨hun, ht⟩)
        · exact transaction_served (Or.inr ⟨s, c, hrun, ht⟩)
      exact Or.inl ⟨o, hserved, hl⟩
    · refine Or.inr ⟨?_, ?_⟩
      · rw [hother k hk]
        exact ⟨rfl, rfl⟩
      · intro o' ho'
        rw [hl] at ho'
        rcases List.mem_append.mp ho' with ho' | ho'
        · exact ho'
        · exact absurd (Prod.mk.inj (List.mem_singleton.mp ho')).1 hk
  · exact Or.inr ⟨hout k, fun _ ho => ho⟩

theorem Settled.step (h : Settled digest t l)
    (hs : Serial (requests digest catalogue) Outside t l t' l') :
    Settled digest t' l' ∧ ∀ k, Grows (t k) (t' k) := by
  have hbuild : ∀ k, Chosen (t' k) ∧ Grows (t k) (t' k) ∧ ∀ o, (k, o) ∈ l' → Recorded digest (t' k) o := by
    intro k
    rcases serial_build hs k with ⟨o, hserved, hl⟩ | ⟨hout, hl⟩
    · obtain ⟨hchosen, hgrows⟩ := hserved.keeps (h.chosen k)
      refine ⟨hchosen, hgrows, ?_⟩
      intro o' ho'
      rw [hl] at ho'
      rcases List.mem_append.mp ho' with ho' | ho'
      · exact (h.recorded k o' ho').grows hgrows
      · rw [(Prod.mk.inj (List.mem_singleton.mp ho')).2]
        exact hserved.recorded
    · exact ⟨hout.chosen (h.chosen k), hout.grows,
        fun o ho => (h.recorded k o (hl o ho)).grows hout.grows⟩
  exact ⟨⟨fun k => (hbuild k).1, fun k o ho => (hbuild k).2.2 o ho⟩, fun k => (hbuild k).2.1⟩

theorem Settled.answered (h : Settled digest t l)
    (hs : Serial (requests digest catalogue) Outside t l t' l') {k : Text} {o : Outcome}
    (hl : l' = l ++ [(k, o)]) : Answered l k (t k) (t' k) o := by
  rcases serial_cases hs with ⟨k', o', hl', hother, q, hdone⟩ | ⟨rfl, -⟩
  · obtain ⟨rfl, rfl⟩ : k' = k ∧ o' = o := by simpa using hl'.symm.trans hl
    obtain ⟨hreq, hserved⟩ : o'.request = q ∧ Served digest (t k') (t' k') o' := by
      rcases hdone with ⟨hun, ht⟩ | ⟨s, c, -, hrun, ht⟩
      · exact transaction_served (Or.inl ⟨hun, ht⟩)
      · exact transaction_served (Or.inr ⟨s, c, hrun, ht⟩)
    have hchosen := h.chosen k'
    constructor
    · intro session version specVersion hrequest row hrow hversion hacc
      subst hversion
      exact hserved.unchanged hchosen hrequest hrow hacc
    · intro identity version row hrow hrequest hbuild hversion hacc hmax
      obtain rfl := hreq.symm.trans hrequest
      rcases hdone with ⟨hun, -⟩ | ⟨s, c, -, hrun, -⟩
      · simp [PlanRequest.transaction, unmatched, hbuild] at hun
      · exact acceptBody_again hchosen hrow hversion hacc rfl hmax hrun
    · intro r hr hnew o₀ ho₀ rows spec input hans hbasis hversion hplan
      exact hserved.twice hchosen (h.recorded k' o₀ ho₀) hr hnew hans hbasis hversion hplan
    · intro rows hans o₀ ho₀ rows' hans' hbasis
      exact hserved.same (h.recorded k' o₀ ho₀) hans hans' hbasis
  · simp at hl

theorem settled_reachable (h₀ : Fresh w₀) (hr : Reachable (requests digest catalogue) Outside w₀ w) :
    Settled digest w.tables w.log := by
  refine hr.serial h₀.sessions ?_ fun _ _ _ _ h hs => (h.step hs).1
  refine ⟨?_, by simp [h₀.log]⟩
  intro k
  have hplans := h₀.plans k
  have hspecs := h₀.specs k
  refine ⟨⟨?_, ?_⟩, ?_, ?_, ?_, ?_, ?_⟩
  all_goals simp [hplans, hspecs]

theorem grows_reachable (h₀ : Fresh w₀) (hr : Reachable (requests digest catalogue) Outside w₀ w)
    (hr' : Reachable (requests digest catalogue) Outside w w') (k : Text) :
    Reachable (requests digest catalogue) Outside w₀ w' ∧ Grows (w.tables k) (w'.tables k) := by
  induction hr' with
  | init => exact ⟨hr, Grows.refl _⟩
  | step _ hs ih =>
      obtain ⟨hall, hgrows⟩ := ih
      refine ⟨hall.step hs, ?_⟩
      rcases step_serial (LockInv.reachable h₀.sessions hall) hs with ⟨htables, -⟩ | hser
      · rw [htables]
        exact hgrows
      · exact hgrows.trans (((settled_reachable h₀ hall).step hser).2 k)

/--
**Accepting a plan is a one-way choice.**

In every reachable world each spec version of a build has at most one accepted plan, and every
later world has it unchanged. A step in which a plan becomes accepted finds its spec version the
latest; and every request is answered as `Answered` says.
-/
theorem acceptance_one_way (h₀ : Fresh w₀)
    (hr : Reachable (requests digest catalogue) Outside w₀ w) :
    (∀ k, Chosen (w.tables k)) ∧
      (∀ w' k, Reachable (requests digest catalogue) Outside w w' →
        Grows (w.tables k) (w'.tables k)) ∧
      ∀ w', Step (requests digest catalogue) Outside w w' →
        (∀ k, ∀ r ∈ (w'.tables k).plans, r.acceptedAt.isSome = true → r ∉ (w.tables k).plans →
          ∃ spec ∈ (w.tables k).specs, r.specVersion = spec.version ∧
            ∀ p ∈ (w.tables k).specs, p.version ≤ spec.version) ∧
        ∀ k o, w'.log = w.log ++ [(k, o)] → Answered w.log k (w.tables k) (w'.tables k) o := by
  have hsettled : Settled digest w.tables w.log := settled_reachable h₀ hr
  refine ⟨hsettled.chosen, fun w' k hr' => (grows_reachable h₀ hr hr' k).2, ?_⟩
  intro w' hs
  rcases step_serial (LockInv.reachable h₀.sessions hr) hs with ⟨htables, hlog⟩ | hser
  · refine ⟨?_, ?_⟩
    · intro k r hr' _ hnew
      rw [htables] at hr'
      exact absurd hr' hnew
    · intro k o hl
      rw [hlog] at hl
      simp at hl
  · refine ⟨?_, fun k o hl => hsettled.answered hser hl⟩
    intro k r hr' hacc hnew
    rcases serial_build hser k with ⟨o, hserved, -⟩ | ⟨hout, -⟩
    · exact hserved.latest (hsettled.chosen k) hr' hacc hnew
    · rw [hout.plans] at hr'
      exact absurd hr' hnew

end

/-! ## A plan on the bench -/

namespace Bench

def build : Text := js "0f8fad5b-d9cb-469f-a165-70867728950e"

def digest (_spec : Intake.Spec) (_runtime : Text) (_evidence : BuildPlanEvidence) : Text :=
  List.replicate 64 97

def catalogue : ReviewedPlanCatalogue :=
  ⟨some (js "0.1.0"), [benchProfile], (benchInput []).connectors⟩

def spec : Intake.Spec :=
  { sense := ⟨[js "temperature"], none, some 60⟩, act := none, environment := ⟨js "indoors", []⟩
    connect := ⟨.wifi, []⟩, power := ⟨.usb, none⟩, experience := ⟨none, none⟩
    capabilities := [js "read.temperature_c"], assumptions := [], openQuestions := []
    settled := true }

def operator : Except HttpError WriteIdentity := .ok ⟨js "tenant", js "operator"⟩

def world : World Text BuildRows Beside Outcome :=
  { tables := fun _ => ⟨some (some (js "tenant")), [], []⟩
    shared := ⟨(benchInput []).parts, (benchInput []).compat, false, 7⟩
    sessions := fun _ => none
    log := [] }

theorem world_fresh : Fresh world := ⟨fun _ => rfl, rfl, fun _ => rfl, fun _ => rfl⟩

def choice : List PlanRequest := [.publish 0 spec, .solve operator 1, .accept operator 1 1]

def transaction (q : PlanRequest) : Transaction BuildRows Beside Outcome :=
  q.transaction digest catalogue

theorem serve_known (qs : List PlanRequest) :
    ∀ txn ∈ qs.map transaction, requests digest catalogue build txn := by
  intro txn htxn
  obtain ⟨q, -, rfl⟩ := List.mem_map.mp htxn
  exact ⟨q, rfl⟩

theorem chosen : ∃ w, Reachable (requests digest catalogue) Outside world w ∧
    (w.tables build) = (serve world.shared (choice.map transaction) (world.tables build)).1 ∧
    w.shared = world.shared ∧ ∀ i, w.sessions i = none := by
  have hinit : Reachable (requests digest catalogue) Outside world world := Reachable.init
  obtain ⟨w, hr, ht, hg, -, hidle⟩ := hinit.alone_all (choice.map transaction) (serve_known choice)
    fun _ => rfl
  exact ⟨w, hr, ht, hg, hidle⟩

theorem choice_accepted :
    ((serve world.shared (choice.map transaction) (world.tables build)).1.plans.any
      fun r => r.version == 1 && r.specVersion == 1 && r.acceptedAt == some 7) = true := by
  decide +kernel

def again : List PlanRequest := [.publish 1 spec, .accept operator 1 1]

def answers : List Outcome :=
  (serve world.shared (again.map transaction)
    (serve world.shared (choice.map transaction) (world.tables build)).1).2

theorem answers_requests : answers.map Outcome.request = again := by
  decide +kernel

theorem answers_refused :
    answers.map (fun o => o.answer.refusal) = [none, some (specChanged (js "accepting"))] := by
  decide +kernel

end Bench

/-- The plan accepted on the bench is in every later world as it was accepted. -/
theorem acceptance_one_way_bench :
    ∃ w, Reachable (requests Bench.digest Bench.catalogue) Outside Bench.world w ∧
      ∃ row ∈ (w.tables Bench.build).plans, row.acceptedAt = some 7 ∧
        ∀ w', Reachable (requests Bench.digest Bench.catalogue) Outside w w' →
          row ∈ (w'.tables Bench.build).plans := by
  obtain ⟨w, hr, ht, -, -⟩ := Bench.chosen
  obtain ⟨row, hrow, hat⟩ := List.any_eq_true.mp Bench.choice_accepted
  rw [← ht] at hrow
  obtain ⟨-, hat7⟩ : (row.version = 1 ∧ row.specVersion = 1) ∧ row.acceptedAt = some 7 := by
    simpa using hat
  refine ⟨w, hr, row, hrow, hat7, ?_⟩
  intro w' hr'
  obtain ⟨-, hlater, -⟩ := acceptance_one_way Bench.world_fresh hr
  obtain ⟨row', hrow', hcont⟩ := (hlater w' Bench.build hr').plans row hrow
  rw [hcont.settled (by simp [hat7])] at hrow'
  exact hrow'

/-- **After intake has published another spec, an accepted plan is not shown again**: the same
operator, asking what was answered before, is told that the spec changed. -/
theorem accept_again_refused :
    ∃ w w' : World Text BuildRows Beside Outcome, ∃ published refused : Outcome,
      Reachable (requests Bench.digest Bench.catalogue) Outside Bench.world w ∧
      Reachable (requests Bench.digest Bench.catalogue) Outside w w' ∧
      (∃ row ∈ (w.tables Bench.build).plans, row.version = 1 ∧ row.specVersion = 1 ∧
        row.acceptedAt = some 7) ∧
      w'.log = w.log ++ [(Bench.build, published), (Bench.build, refused)] ∧
      published.request = .publish 1 Bench.spec ∧
      refused.request = .accept Bench.operator 1 1 ∧
      refused.answer.refusal = some (specChanged (js "accepting")) := by
  obtain ⟨w, hr, ht, hg, hidle⟩ := Bench.chosen
  obtain ⟨row, hrow, hat⟩ := List.any_eq_true.mp Bench.choice_accepted
  have hinit : Reachable (requests Bench.digest Bench.catalogue) Outside w w := Reachable.init
  obtain ⟨w', hr', -, -, hlog, -⟩ := hinit.alone_all (Bench.again.map Bench.transaction)
    (Bench.serve_known Bench.again) hidle
  rw [hg, ht] at hlog
  have hrequests := Bench.answers_requests
  have hrefusals := Bench.answers_refused
  obtain ⟨published, refused, hanswers⟩ : ∃ a b, Bench.answers = [a, b] :=
    List.length_eq_two.mp (by rw [← List.length_map, hrequests]; rfl)
  rw [hanswers] at hrequests hrefusals
  obtain ⟨hpublish, haccept⟩ : published.request = _ ∧ refused.request = _ := by
    simpa [Bench.again] using hrequests
  obtain ⟨-, hrefusal⟩ : published.answer.refusal = none ∧ refused.answer.refusal = _ := by
    simpa using hrefusals
  obtain ⟨⟨hversion, hspec⟩, hat7⟩ : (row.version = 1 ∧ row.specVersion = 1) ∧ row.acceptedAt = some 7 := by
    simpa using hat
  rw [← ht] at hrow
  refine ⟨w, w', published, refused, hr, hr', ⟨row, hrow, hversion, hspec, hat7⟩, ?_, hpublish,
    haccept, hrefusal⟩
  rw [hlog, show (serve _ _ _).2 = [published, refused] from hanswers]
  rfl

end Albusforge.Plans
