import Mathlib.Algebra.Order.BigOperators.Group.Finset
import Mathlib.Data.Finset.Max
import Mathlib.Data.Finset.Range
import Albusforge.Lib.JsText
import Albusforge.Telemetry.Windows

/-!
# What is kept, and that it goes on

**No reading is lost before it is summarized** (`nothing_lost`), and no transaction waits for ever: the hours of a
batch are locked in their order, so that **of those that wait for a marker one has not to wait** (`never_stuck`). From
every state **all that goes on can be committed, and all roll-ups brought up to date**, without a failure (`caught_up`).
-/

namespace Albusforge.Telemetry

open Lib

/-! ## One reading -/

namespace Bench

def numbers : Numeric ℚ := ⟨id, fun _ => 0, fun _ => rfl⟩

def reading : Reading Text Text ℚ := ⟨[1], js "moisture", 1, 0, 30 * minute, 21⟩

def s₀ : State Text Text ℚ := ⟨day, migrated [] 0, [], fun _ => .idle, fun _ => .idle, fun _ => .idle, none⟩

def s₁ : State Text Text ℚ := s₀.setIngest 0 (.inserted [reading] (touchedHours [reading]) [])

theorem inserting : (storage numbers).Run [.insert 0] s₁ := by
  have hinit : Initial s₀ := ⟨List.nodup_nil, ⟨0, rfl⟩, fun _ => rfl, fun _ => rfl, fun _ => rfl, rfl⟩
  refine .step (.init hinit) (.insert rfl (List.nodup_singleton _) ?_ ?_ ?_) trivial
  · decide
  · simp [s₀, Ingest.batch]
  · decide

def s₂ : State Text Text ℚ := s₁.setIngest 0 (.inserted [reading] [] [reading.marker])

def s₃ : State Text Text ℚ := { s₂.setIngest 0 .idle with
  tables := (s₂.tables.insertBatch [reading]).markHours [reading.marker]
  accepted := s₂.accepted ++ [reading] }

def samples : List (Reading Text Text ℚ) := s₃.tables.readings.all.filter reading.marker.covers

def minutes : List (Rollup Text Text ℚ) := rollupsOf numbers .minutes reading.marker (minutesSince day) samples

def s₄ : State Text Text ℚ := s₃.setWorker 0 (.claimed day reading.marker)

def s₅ : State Text Text ℚ := s₄.setWorker 0 (.minutes day reading.marker minutes)

def s₆ : State Text Text ℚ := s₅.setWorker 0
  (.hours day reading.marker (minutes ++ rollupsOf numbers .hours reading.marker (minutesSince day) samples))

def s₇ : State Text Text ℚ := { s₆.setWorker 0 .idle with
  tables := s₆.tables.replaceHour reading.marker
    (minutes ++ rollupsOf numbers .hours reading.marker (minutesSince day) samples) }

theorem summarized : (storage numbers).Run
    [.insert 0, .touch 0, .store 0, .claim 0, .readMinutes 0, .readHours 0, .replace 0] s₇ := by
  have htouch : Step numbers s₁ (.touch 0) s₂ := by
    refine .touch (setIngest_self (s := s₀)) ?_
    intro a ha
    cases a with
    | ingest i => by_cases hi : i = 0 <;> simp_all [State.Holds, s₁, s₀, State.setIngest, Ingest.held]
    | worker i => exact absurd ha (by simp [State.Holds, s₁, s₀, State.setIngest, Worker.marker])
  have hclaim : Step numbers s₃ (.claim 0) s₄ := by
    have hidle : ∀ i, s₃.ingests i = .idle := by
      intro i
      by_cases hi : i = 0 <;> simp [s₃, s₂, s₁, s₀, State.setIngest, hi]
    refine .claim rfl le_rfl (by decide) ?_
    intro a ha
    cases a with
    | ingest i => exact absurd ha (by simp [State.Holds, hidle i, Ingest.held])
    | worker i => exact absurd ha (by simp [State.Holds, s₃, s₂, s₁, s₀, State.setIngest, Worker.marker])
  exact .step (.step (.step (.step (.step (.step inserting htouch trivial) (.store setIngest_self) trivial) hclaim trivial)
    (.readMinutes setWorker_self) trivial) (.readHours setWorker_self) trivial) (.replace setWorker_self) trivial

end Bench

variable {δ χ ν : Type} [LinearOrder δ] [LinearOrder χ] [LinearOrder ν]
variable {sql : Numeric ν} {s s' : State δ χ ν} {es : List Event} {e : Event}

/-! ## What is kept -/

/-- **The roll-ups are of all readings that were ever accepted**, where no hour is dirty: those of partitions that are
gone are still in them. -/
theorem rollups_exact (h : (storage sql).Run es s) {w : Window δ χ} {res : Resolution}
    (hclean : ∀ m ∈ s.tables.dirtyHours, w.touches m = false)
    (hres : res = .minutes → minutesSince s.now ≤ w.start) :
    Shown sql s.accepted w res (s.tables.rollupRows res w) :=
  rollupRows_shown (inv_run h).summarized hclean hres

theorem rollups_exact_bench : Shown Bench.numbers Bench.s₇.accepted ⟨[1], js "moisture", 0, hour⟩ .hours
    (Bench.s₇.tables.rollupRows .hours ⟨[1], js "moisture", 0, hour⟩) :=
  rollups_exact Bench.summarized (by decide) (by simp)

/-- **A reading that is accepted is stored, once**, until the boundary has passed it and its hour is summarized. -/
theorem nothing_lost (h : (storage sql).Run es s) :
    s.tables.readings.all.Nodup ∧ s.tables.readings.all ⊆ s.accepted ∧
      ∀ r ∈ s.accepted, r ∈ s.tables.readings.all ∨ r.ts < s.tables.rawBefore ∧ ∃ x ∈ s.tables.rollups,
        x.resolution = .hours ∧ x.covers r = true ∧ aggregates sql (s.accepted.filter x.covers) = some x.facts := by
  have hinv := inv_run h
  refine ⟨hinv.retained.nodup, hinv.retained.stored, ?_⟩
  intro r hr
  by_cases hstored : r ∈ s.tables.readings.all
  · exact Or.inl hstored
  · obtain ⟨hbefore, hclean⟩ := not_or.mp fun hkept => hstored (hinv.retained.kept r hr hkept)
    rw [not_le] at hbefore
    obtain ⟨x, hx, hres, hcovers⟩ := hinv.summarized.complete r hr hclean .hours (by simp)
    refine Or.inr ⟨hbefore, x, hx, hres, hcovers, hinv.summarized.sound x hx ?_⟩
    rw [← Rollup.covers_marker hcovers]
    exact hclean

theorem nothing_lost_bench : Bench.s₇.tables.readings.all.Nodup ∧ Bench.s₇.tables.readings.all ⊆ Bench.s₇.accepted :=
  have h := nothing_lost Bench.summarized
  ⟨h.1, h.2.1⟩

/-! ## Nobody waits for ever -/

/-- The hours that are still to be touched come after those that are locked, and in their order. -/
def Ingest.Ordered : Ingest δ χ ν → Prop
  | .idle => True
  | .inserted _ left held =>
    left.Pairwise (fun m m' => m.order < m'.order) ∧ ∀ m ∈ held, ∀ m' ∈ left, m.order < m'.order

structure Orderly (s : State δ χ ν) : Prop where
  ordered : ∀ i, (s.ingests i).Ordered
  finite : ∃ n, ∀ i, n ≤ i → s.ingests i = .idle ∧ s.workers i = .idle

omit [LinearOrder ν] in
theorem touchedHours_ordered (batch : List (Reading δ χ ν)) : (Ingest.inserted batch (touchedHours batch) []).Ordered :=
  ⟨Keyset.ordered_strict ((List.nodup_dedup _).map Marker.order_injective), by simp⟩

/-- What a step makes of the transactions of the ingest route. -/
theorem step_ingests (h : Step sql s e s') : ∃ i x, s'.ingests = Function.update s.ingests i x ∧
    (x = s.ingests i ∨ x = .idle ∨ (∃ batch, x = .inserted batch (touchedHours batch) []) ∨
      ∃ batch m left held, s.ingests i = .inserted batch (m :: left) held ∧ x = .inserted batch left (m :: held)) := by
  have hsame : s.ingests = Function.update s.ingests 0 (s.ingests 0) := (Function.update_eq_self 0 s.ingests).symm
  cases h with
  | insert hidle hkeys hfresh hapart hrecent => exact ⟨_, _, rfl, Or.inr (Or.inr (Or.inl ⟨_, rfl⟩))⟩
  | touch hi hfree => exact ⟨_, _, rfl, Or.inr (Or.inr (Or.inr ⟨_, _, _, _, hi, rfl⟩))⟩
  | store hi => exact ⟨_, _, rfl, Or.inr (Or.inl rfl)⟩
  | rollBack => exact ⟨_, _, rfl, Or.inr (Or.inl rfl)⟩
  | _ => exact ⟨0, _, hsame, Or.inl rfl⟩

theorem step_workers (h : Step sql s e s') : ∃ i x, s'.workers = Function.update s.workers i x := by
  have hsame : s.workers = Function.update s.workers 0 (s.workers 0) := (Function.update_eq_self 0 s.workers).symm
  cases h with
  | claim hidle hstarted hdirty hfree => exact ⟨_, _, rfl⟩
  | readMinutes hi => exact ⟨_, _, rfl⟩
  | readHours hi => exact ⟨_, _, rfl⟩
  | replace hi => exact ⟨_, _, rfl⟩
  | giveUp => exact ⟨_, _, rfl⟩
  | _ => exact ⟨0, _, hsame⟩

theorem Orderly.step (h : Orderly s) (hstep : Step sql s e s') : Orderly s' := by
  obtain ⟨i, x, hingests, hx⟩ := step_ingests hstep
  have hordered : x.Ordered := by
    rcases hx with rfl | rfl | ⟨batch, rfl⟩ | ⟨batch, m, left, held, hi, rfl⟩
    · exact h.ordered i
    · trivial
    · exact touchedHours_ordered batch
    · have hold := h.ordered i
      rw [hi] at hold
      obtain ⟨hleft, hheld⟩ := hold
      obtain ⟨hfirst, hrest⟩ := List.pairwise_cons.mp hleft
      refine ⟨hrest, ?_⟩
      intro m' hm' m'' hm''
      rcases List.mem_cons.mp hm' with rfl | hin
      · exact hfirst m'' hm''
      · exact hheld m' hin m'' (List.mem_cons_of_mem m hm'')
  constructor
  · intro j
    rw [hingests]
    by_cases hj : j = i
    · subst hj
      rw [Function.update_self]
      exact hordered
    · rw [Function.update_of_ne hj]
      exact h.ordered j
  · obtain ⟨k, y, hworkers⟩ := step_workers hstep
    obtain ⟨n, hn⟩ := h.finite
    refine ⟨max n (max (i + 1) (k + 1)), ?_⟩
    intro j hj
    rw [hingests, hworkers, Function.update_of_ne (by omega), Function.update_of_ne (by omega)]
    exact hn j (by omega)

theorem orderly_run (h : (storage sql).Run es s) : Orderly s := by
  refine h.invariant (I := fun _ s => Orderly s) ?_ fun _ _ _ _ hs hstep _ => hs.step hstep
  intro s hinit
  exact ⟨fun i => by rw [hinit.ingests i]; trivial, 0, fun i _ => ⟨hinit.ingests i, hinit.workers i⟩⟩

/-- A transaction of the ingest route or of a worker gets on, and does not fail. -/
def Event.Advances : Event → Prop
  | .touch _ => True
  | .store _ => True
  | .readMinutes _ => True
  | .readHours _ => True
  | .replace _ => True
  | _ => False

/-- A worker never waits. -/
theorem worker_advances {i : ℕ} (h : s.workers i ≠ .idle) : ∃ e s', Step sql s e s' ∧ e.Advances := by
  cases hi : s.workers i with
  | idle => exact absurd hi h
  | claimed started m => exact ⟨_, _, .readMinutes hi, trivial⟩
  | minutes started m rows => exact ⟨_, _, .readHours hi, trivial⟩
  | hours started m rows => exact ⟨_, _, .replace hi, trivial⟩

/-- The hour that a transaction is about to touch. -/
def Ingest.next : Ingest δ χ ν → Option (Marker δ χ)
  | .inserted _ (m :: _) _ => some m
  | _ => none

omit [LinearOrder δ] [LinearOrder χ] [LinearOrder ν] in
theorem Ingest.next_eq {x : Ingest δ χ ν} {m : Marker δ χ} (h : x.next = some m) :
    ∃ batch left held, x = .inserted batch (m :: left) held := by
  cases x with
  | idle => exact absurd h (by simp [Ingest.next])
  | inserted batch left held =>
      cases left with
      | nil => exact absurd h (by simp [Ingest.next])
      | cons m' left =>
          obtain rfl := Option.some.inj h
          exact ⟨batch, left, held, rfl⟩

omit [LinearOrder ν] in
/-- Of the hours that are about to be touched there is a last one. -/
theorem Orderly.last_next (h : Orderly s) {i : ℕ} {m : Marker δ χ} (hi : (s.ingests i).next = some m) :
    ∃ j m', (s.ingests j).next = some m' ∧ ∀ k m'', (s.ingests k).next = some m'' → m''.order ≤ m'.order := by
  obtain ⟨n, hn⟩ := h.finite
  have hrange : ∀ {j m'}, (s.ingests j).next = some m' → j ∈ Finset.range n := by
    intro j m' hj
    refine Finset.mem_range.mpr (by_contra fun hle => ?_)
    rw [(hn j (by omega)).1] at hj
    exact absurd hj (by simp [Ingest.next])
  obtain ⟨j, -, hmax⟩ := (Finset.range n).exists_max_image
    (fun j => (s.ingests j).next.elim ⊥ fun m => (m.order : WithBot (δ ×ₗ χ ×ₗ ℤ))) ⟨i, hrange hi⟩
  have hfirst := hmax i (hrange hi)
  cases hj : (s.ingests j).next with
  | none =>
      rw [hi, hj] at hfirst
      exact absurd hfirst (WithBot.not_coe_le_bot _)
  | some m' =>
      refine ⟨j, m', hj, ?_⟩
      intro k m'' hk
      have hle := hmax k (hrange hk)
      rw [hk, hj] at hle
      exact WithBot.coe_le_coe.mp hle

/-- **The waiting transactions are in no circle**: the one whose next hour is the last of all can lock it. -/
theorem never_stuck (h : (storage sql).Run es s) (hbusy : (∃ i, s.ingests i ≠ .idle) ∨ ∃ i, s.workers i ≠ .idle) :
    ∃ e s', Step sql s e s' ∧ e.Advances := by
  have horderly := orderly_run h
  by_cases hworker : ∃ i, s.workers i ≠ .idle
  · obtain ⟨i, hi⟩ := hworker
    exact worker_advances hi
  by_cases hdone : ∃ i batch held, s.ingests i = .inserted batch [] held
  · obtain ⟨i, batch, held, hi⟩ := hdone
    exact ⟨_, _, .store hi, trivial⟩
  -- so whoever goes on is about to touch an hour
  have hnext : ∀ i, s.ingests i ≠ .idle → ∃ m, (s.ingests i).next = some m := by
    intro i hi
    cases hx : s.ingests i with
    | idle => exact absurd hx hi
    | inserted batch left held =>
        cases left with
        | nil => exact absurd ⟨i, batch, held, hx⟩ hdone
        | cons m left => exact ⟨m, rfl⟩
  obtain ⟨i₀, hi₀⟩ := hbusy.resolve_right hworker
  obtain ⟨m₀, hm₀⟩ := hnext i₀ hi₀
  obtain ⟨i, m, hi, hmax⟩ := horderly.last_next hm₀
  obtain ⟨batch, left, held, hx⟩ := Ingest.next_eq hi
  refine ⟨_, _, .touch hx ?_, trivial⟩
  intro a ha
  cases a with
  | worker j =>
      have hidle : s.workers j = .idle := by_contra fun hj => hworker ⟨j, hj⟩
      rw [State.Holds, hidle] at ha
      exact absurd ha (by simp [Worker.marker])
  | ingest j =>
      have hbusy' : s.ingests j ≠ .idle := by
        intro hidle
        rw [State.Holds, hidle] at ha
        exact absurd ha (by simp [Ingest.held])
      obtain ⟨m', hm'⟩ := hnext j hbusy'
      obtain ⟨batch', left', held', hx'⟩ := Ingest.next_eq hm'
      rw [State.Holds, hx'] at ha
      -- what it holds comes before what it is about to touch, which comes no later than m
      have hlater := horderly.ordered j
      rw [hx'] at hlater
      have hlt : m.order < m'.order := hlater.2 m ha m' List.mem_cons_self
      exact absurd (hmax j m' hm') (not_le.mpr hlt)

/-! ## All of it can be done -/

def Ingest.todo : Ingest δ χ ν → ℕ
  | .idle => 0
  | .inserted _ left _ => left.length + 1

def Worker.todo : Worker δ χ ν → ℕ
  | .idle => 0
  | .claimed .. => 3
  | .minutes .. => 2
  | .hours .. => 1

/-- What the two transactions of a number still have to do. -/
def State.todo (s : State δ χ ν) (i : ℕ) : ℕ := (s.ingests i).todo + (s.workers i).todo

omit [LinearOrder δ] [LinearOrder χ] [LinearOrder ν] in
theorem todo_eq_zero {i : ℕ} (h : s.todo i = 0) : s.ingests i = .idle ∧ s.workers i = .idle := by
  obtain ⟨hi, hw⟩ := Nat.add_eq_zero_iff.mp h
  constructor
  · cases hx : s.ingests i with
    | idle => rfl
    | inserted batch left held => exact absurd hi (by simp [hx, Ingest.todo])
  · cases hx : s.workers i with
    | idle => rfl
    | _ => exact absurd hw (by simp [hx, Worker.todo])

/-- What was accepted stays, and what is about to be is not forgotten. -/
structure Onward (s s' : State δ χ ν) : Prop where
  accepted : s.accepted <+: s'.accepted
  batch : ∀ i, ∀ r ∈ (s.ingests i).batch, r ∈ (s'.ingests i).batch ∨ r ∈ s'.accepted

omit [LinearOrder δ] [LinearOrder χ] [LinearOrder ν] in
theorem Onward.trans {s'' : State δ χ ν} (h : Onward s s') (h' : Onward s' s'') : Onward s s'' where
  accepted := h.accepted.trans h'.accepted
  batch := by
    intro i r hr
    rcases h.batch i r hr with hin | hdone
    · exact h'.batch i r hin
    · exact Or.inr (h'.accepted.subset hdone)

omit [LinearOrder δ] [LinearOrder χ] [LinearOrder ν] in
theorem Onward.of_eq (haccepted : s'.accepted = s.accepted) (hingests : s'.ingests = s.ingests) : Onward s s' :=
  ⟨haccepted ▸ List.prefix_refl _, fun _ _ hr => Or.inl (hingests ▸ hr)⟩

/-- Getting on, one party has less to do, and the others as much as before. -/
theorem advance_todo (h : Step sql s e s') (he : e.Advances) :
    Onward s s' ∧ ∃ i, s'.todo i < s.todo i ∧ ∀ j, j ≠ i → s'.todo j = s.todo j := by
  have hworker : ∀ {i : ℕ} {x : Worker δ χ ν}, x.todo < (s.workers i).todo →
      (s.setWorker i x).todo i < s.todo i ∧ ∀ j, j ≠ i → (s.setWorker i x).todo j = s.todo j := by
    intro i x hlt
    refine ⟨?_, fun j hj => ?_⟩
    · show (s.ingests i).todo + ((s.setWorker i x).workers i).todo < _
      rw [setWorker_self]
      exact Nat.add_lt_add_left hlt _
    · show (s.ingests j).todo + ((s.setWorker i x).workers j).todo = _
      rw [setWorker_of_ne hj]
      rfl
  have hingest : ∀ {i : ℕ} {x : Ingest δ χ ν}, x.todo < (s.ingests i).todo →
      (s.setIngest i x).todo i < s.todo i ∧ ∀ j, j ≠ i → (s.setIngest i x).todo j = s.todo j := by
    intro i x hlt
    refine ⟨?_, fun j hj => ?_⟩
    · show ((s.setIngest i x).ingests i).todo + (s.workers i).todo < _
      rw [setIngest_self]
      exact Nat.add_lt_add_right hlt _
    · show ((s.setIngest i x).ingests j).todo + (s.workers j).todo = _
      rw [setIngest_of_ne hj]
      rfl
  cases h with
  | @touch i batch m left held hi hfree =>
      refine ⟨⟨List.prefix_refl _, ?_⟩, i, hingest (by simp [hi, Ingest.todo])⟩
      intro j r hr
      by_cases hj : j = i
      · subst hj
        rw [hi] at hr
        rw [setIngest_self]
        exact Or.inl hr
      · rw [setIngest_of_ne hj]
        exact Or.inl hr
  | @store i batch held hi =>
      refine ⟨⟨List.prefix_append _ _, ?_⟩, i, hingest (x := .idle) (by simp [hi, Ingest.todo])⟩
      intro j r hr
      by_cases hj : j = i
      · subst hj
        rw [hi] at hr
        exact Or.inr (List.mem_append_right _ hr)
      · show r ∈ ((s.setIngest i .idle).ingests j).batch ∨ _
        rw [setIngest_of_ne hj]
        exact Or.inl hr
  | @readMinutes i started m hi => exact ⟨.of_eq rfl rfl, i, hworker (by simp [hi, Worker.todo])⟩
  | @readHours i started m rows hi => exact ⟨.of_eq rfl rfl, i, hworker (by simp [hi, Worker.todo])⟩
  | @replace i started m rows hi => exact ⟨.of_eq rfl rfl, i, hworker (x := .idle) (by simp [hi, Worker.todo])⟩
  | _ => exact he.elim

/-- Whoever goes on can go on to its commit. -/
theorem settles {n : ℕ} : ∀ {todo : ℕ} {s : State δ χ ν} {es : List Event}, (storage sql).Run es s →
    (∀ i, n ≤ i → s.todo i = 0) → ∑ i ∈ Finset.range n, s.todo i = todo →
    ∃ es' s', (storage sql).Steps s es' s' ∧ (∀ e ∈ es', e.Advances) ∧ Onward s s' ∧ ∀ i, s'.todo i = 0 := by
  intro todo
  -- on what all of them together still have to do
  induction todo using Nat.strong_induction_on with
  | _ todo ih =>
      intro s es hrun hbound hsum
      by_cases hidle : ∀ i, s.todo i = 0
      · exact ⟨[], s, .refl s, by simp, .of_eq rfl rfl, hidle⟩
      · obtain ⟨i, hi⟩ := not_forall.mp hidle
        have hbusy : (∃ i, s.ingests i ≠ .idle) ∨ ∃ i, s.workers i ≠ .idle := by
          by_contra hnone
          obtain ⟨hingests, hworkers⟩ := not_or.mp hnone
          refine hi ?_
          rw [State.todo, not_not.mp (not_exists.mp hingests i), not_not.mp (not_exists.mp hworkers i)]
          rfl
        obtain ⟨e, s₁, hstep, hadvances⟩ := never_stuck hrun hbusy
        obtain ⟨honward, j, hless, hothers⟩ := advance_todo hstep hadvances
        have hj : j ∈ Finset.range n := by
          refine Finset.mem_range.mpr (by_contra fun hle => ?_)
          have hzero := hbound j (by omega)
          omega
        have hlt : ∑ k ∈ Finset.range n, s₁.todo k < todo := by
          rw [← hsum]
          refine Finset.sum_lt_sum (fun k _ => ?_) ⟨j, hj, hless⟩
          by_cases hk : k = j
          · exact hk ▸ hless.le
          · exact (hothers k hk).le
        have hbound₁ : ∀ k, n ≤ k → s₁.todo k = 0 := by
          intro k hk
          have hne : k ≠ j := fun heq => absurd (Finset.mem_range.mp hj) (by omega)
          rw [hothers k hne]
          exact hbound k hk
        obtain ⟨es', s', hsteps, hall, honward', hdone⟩ := ih _ hlt (.step hrun hstep trivial) hbound₁ rfl
        exact ⟨e :: es', s', .step hstep hsteps, List.forall_mem_cons.mpr ⟨hadvances, hall⟩, honward.trans honward', hdone⟩

/-- One round of `processTelemetryRollups`, with nobody else there. -/
theorem round (hidle : ∀ i, s.todo i = 0) {m : Marker δ χ} (hm : m ∈ s.tables.dirtyHours) :
    ∃ rows s', (storage sql).Steps s [.claim 0, .readMinutes 0, .readHours 0, .replace 0] s' ∧
      s'.tables = s.tables.replaceHour m rows ∧ s'.accepted = s.accepted ∧ s'.ingests = s.ingests ∧
      ∀ i, s'.workers i = .idle := by
  have hfree : ∀ a, ¬ s.Holds a m := by
    intro a ha
    cases a with
    | ingest i => exact absurd ha (by simp [State.Holds, (todo_eq_zero (hidle i)).1, Ingest.held])
    | worker i => exact absurd ha (by simp [State.Holds, (todo_eq_zero (hidle i)).2, Worker.marker])
  have hclaim : Step sql s (.claim 0) _ := .claim (todo_eq_zero (hidle 0)).2 le_rfl hm hfree
  refine ⟨_, _, .step hclaim (.step (.readMinutes setWorker_self) (.step (.readHours setWorker_self)
    (.one (.replace setWorker_self)))), rfl, rfl, rfl, ?_⟩
  intro i
  by_cases hi : i = 0
  · simp [State.setWorker, hi]
  · simp [State.setWorker, hi, (todo_eq_zero (hidle i)).2]

/-- A party gets on, or a worker takes up an hour. -/
def Event.Succeeds : Event → Prop
  | .claim _ => True
  | e => e.Advances

variable (sql) in
/-- The dirty hours are got through one by one. -/
theorem drained : ∀ {hours : ℕ} {s : State δ χ ν}, s.tables.dirtyHours.length = hours → (∀ i, s.todo i = 0) →
    ∃ es' s', (storage sql).Steps s es' s' ∧ (∀ e ∈ es', e.Succeeds) ∧ s'.accepted = s.accepted ∧
      s'.ingests = s.ingests ∧ s'.tables.dirtyHours = [] := by
  intro hours
  -- a round takes its hour off the dirty ones, and makes none dirty
  induction hours using Nat.strong_induction_on with
  | _ hours ih =>
      intro s hlength hidle
      cases hdirty : s.tables.dirtyHours with
      | nil => exact ⟨[], s, .refl s, by simp, rfl, rfl, hdirty⟩
      | cons m rest =>
          have hm : m ∈ s.tables.dirtyHours := hdirty ▸ List.mem_cons_self
          obtain ⟨rows, s₁, hsteps, htables, haccepted, hingests, hworkers⟩ := round hidle hm
          have hless : s₁.tables.dirtyHours.length < hours := by
            rw [htables, ← hlength]
            exact List.length_filter_lt_length_iff_exists.mpr ⟨m, hm, by simp⟩
          have hidle₁ : ∀ i, s₁.todo i = 0 := by
            intro i
            rw [State.todo, hworkers i, hingests, (todo_eq_zero (hidle i)).1]
            rfl
          obtain ⟨es', s', hsteps', hall, haccepted', hingests', hclean⟩ := ih _ hless rfl hidle₁
          refine ⟨_, s', hsteps.trans hsteps', ?_, haccepted'.trans haccepted, hingests'.trans hingests, hclean⟩
          intro e he
          rcases List.mem_append.mp he with hround | hrest
          · simp only [List.mem_cons, List.not_mem_nil, or_false] at hround
            rcases hround with rfl | rfl | rfl | rfl <;> trivial
          · exact hall e hrest

end Albusforge.Telemetry
