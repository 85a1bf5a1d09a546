import Mathlib.Algebra.Order.Ring.Rat
import Mathlib.Data.List.Chain
import Mathlib.Data.List.Range
import Mathlib.Tactic.Linarith
import Albusforge.Lib.JsText

/-!
# The evidence of a camera's cadence

`summarize` of `firmware/tools/record_camera_evidence.py`, and `checked_health`, which lets a response in. A camera is
polled over a run, and what it says of its last capture, its uploads and its losses is summed up in a verdict.

A positive verdict is sound but for one thing (`positive_iff`). It asks for ninety-six captures, a day's worth,
whatever the length of the run: **after a day the camera may stop**, or come to its first capture late, and no other
test sees it. A run that is hardly longer than a day has no room for that (`short_covered`).
-/

namespace Albusforge.Camera.Evidence

open Lib

/-! ## Responses -/

/-- What `json.loads` makes of a member. -/
inductive PyValue
  | bool (b : Bool)
  | int (n : ℤ)
  | str (t : Text)
  | other

structure Health where
  clockReady : Bool
  storageReady : Bool
  uploadPaused : Bool
  queuedCount : ℕ
  queuedBytes : ℕ
  lastCapture : ℕ
  lastSuccessfulUpload : ℕ
  lastHttpStatus : ℕ
  dropped : ℕ
  corrupt : ℕ
  quarantined : ℕ
  quarantineDropped : ℕ
  lastError : Text

def errors : List Text :=
  [js "none", js "capture_failed", js "sd_unavailable", js "payload_corrupt", js "frame_rejected", js "auth_paused",
    js "ack_mismatch_or_retry", js "network_error"]

/-- `type(value.get(name)) is bool` -/
def boolean (value : Text → Option PyValue) (name : Text) : Option Bool :=
  match value name with
  | some (.bool b) => some b
  | _ => none

/-- `type(v) is int` and within its bounds -/
def counter (value : Text → Option PyValue) (name : Text) : Option ℕ :=
  match value name with
  | some (.int n) => if 0 ≤ n ∧ n ≤ 253402300799 then some n.toNat else none
  | _ => none

def checkedHealth (value : Text → Option PyValue) : Option Health := do
  let clockReady ← boolean value (js "clock_ready")
  let storageReady ← boolean value (js "storage_ready")
  let uploadPaused ← boolean value (js "upload_paused")
  let queuedCount ← counter value (js "queued_count")
  let queuedBytes ← counter value (js "queued_bytes")
  let lastCapture ← counter value (js "last_capture")
  let lastSuccessfulUpload ← counter value (js "last_successful_upload")
  let lastHttpStatus ← counter value (js "last_http_status")
  let dropped ← counter value (js "dropped")
  let corrupt ← counter value (js "corrupt")
  let quarantined ← counter value (js "quarantined")
  let quarantineDropped ← counter value (js "quarantine_dropped")
  if lastHttpStatus > 599 ∨ queuedBytes > 64 * 1024 * 1024 ∨ queuedCount > 672 then none
  let lastError := match value (js "last_error") with
    | some (.str t) => if t ∈ errors then t else js "unrecognized"
    | _ => js "unrecognized"
  return { clockReady, storageReady, uploadPaused, queuedCount, queuedBytes, lastCapture, lastSuccessfulUpload,
           lastHttpStatus, dropped, corrupt, quarantined, quarantineDropped, lastError }

structure Sample where
  elapsed : ℚ
  observedAt : ℚ
  /-- none where it is `health_error` -/
  health : Option Health
  snapshot : Bool

/-! ## The summary -/

inductive Verdict
  /-- `insufficient_elapsed_time_or_observations` -/
  | insufficient
  /-- `deviation_or_missed_observation` -/
  | deviation
  /-- `local_capture_cadence_matches_15_minutes` -/
  | matches15Minutes
  /-- `counter_or_clock_reset_requires_review` -/
  | reset
  deriving DecidableEq

structure Summary where
  elapsed : ℚ
  completed24h : Bool
  polls : ℕ
  healthPollsOk : ℕ
  snapshotPollsOk : ℕ
  captureTransitions : ℕ
  captureIntervals : List ℤ
  cadenceEvidence : Verdict
  maximumPollGap : ℚ
  uploadTransitions : ℕ
  maximumQueueCount : ℕ
  finalQueueCount : Option ℕ
  queueDecreaseWithUpload : Bool
  /-- of `dropped`, `corrupt` and `quarantine_dropped` -/
  lossIncreases : List ℕ
  counterReset : Bool

/-- `zip(l, l[1:])` -/
def adjacent {α : Type} (l : List α) : List (α × α) := l.zip l.tail

def healthyOf (samples : List Sample) : List (Sample × Health) :=
  samples.filterMap fun item => item.health.map fun health => (item, health)

/-- `started_at < time <= item["observed_at"]` -/
def inRun (startedAt : ℚ) (item : Sample) (time : ℕ) : Bool := startedAt < time && time ≤ item.observedAt

def noteCapture (startedAt : ℚ) (captures : List ℕ) (poll : Sample × Health) : List ℕ :=
  let captured := poll.2.lastCapture
  if inRun startedAt poll.1 captured && (captures.isEmpty || captures.getLast? ≠ some captured) then
    captures ++ [captured]
  else captures

def capturesOf (startedAt : ℚ) (healthy : List (Sample × Health)) : List ℕ := healthy.foldl (noteCapture startedAt) []

def intervalsOf (captures : List ℕ) : List ℤ := (adjacent captures).map fun p => (p.2 : ℤ) - p.1

def cadenceMatches (intervals : List ℤ) : Bool := !intervals.isEmpty && intervals.all fun v => 895 ≤ v && v ≤ 905

def gapsOf (samples : List Sample) : List ℚ := (adjacent samples).map fun p => p.2.elapsed - p.1.elapsed

def edgesCovered (samples : List Sample) (elapsed : ℚ) : Bool :=
  match samples.head?, samples.getLast? with
  | some first, some last =>
    (0 ≤ first.elapsed && first.elapsed ≤ 65) && (0 ≤ elapsed - last.elapsed && elapsed - last.elapsed ≤ 65)
  | _, _ => false

def uninterrupted (samples : List Sample) (elapsed : ℚ) : Bool :=
  edgesCovered samples elapsed && (samples.all fun item => item.health.isSome) &&
    (gapsOf samples).all fun gap => 0 ≤ gap && gap ≤ 65

/-- `any(later < earlier ...)` -/
def decreases (values : List ℕ) : Bool := (adjacent values).any fun p => p.2 < p.1

def lossCounters : List (Health → ℕ) := [Health.dropped, Health.corrupt, Health.quarantineDropped]

def resetCounters : List (Health → ℕ) := lossCounters ++ [Health.lastCapture, Health.lastSuccessfulUpload]

def resetsOf (healthy : List (Sample × Health)) : Bool :=
  resetCounters.any fun name => decreases (healthy.map fun poll => name poll.2)

def increaseOf (values : List ℕ) : ℕ := ((adjacent values).map fun p => p.2 - p.1).sum

def noteUpload (startedAt : ℚ) (state : ℕ × ℕ) (poll : Sample × Health) : ℕ × ℕ :=
  let uploaded := poll.2.lastSuccessfulUpload
  let transitions := if state.2 < uploaded ∧ inRun startedAt poll.1 uploaded then state.1 + 1 else state.1
  (transitions, max state.2 uploaded)

def uploadTransitionsOf (startedAt : ℚ) (healthy : List (Sample × Health)) : ℕ :=
  match healthy with
  | [] => 0
  | first :: rest => (rest.foldl (noteUpload startedAt) (0, first.2.lastSuccessfulUpload)).1

def verdictOf (samples : List Sample) (elapsed startedAt : ℚ) : Verdict :=
  let healthy := healthyOf samples
  let captures := capturesOf startedAt healthy
  let intervals := intervalsOf captures
  let verdict :=
    if !intervals.isEmpty && !cadenceMatches intervals then .deviation
    else if 86400 ≤ elapsed ∧ 96 ≤ captures.length ∧ cadenceMatches intervals ∧ uninterrupted samples elapsed then
      .matches15Minutes
    else .insufficient
  if resetsOf healthy then .reset else verdict

def summarize (samples : List Sample) (elapsed startedAt : ℚ) : Summary :=
  let healthy := healthyOf samples
  let captures := capturesOf startedAt healthy
  let queue := healthy.map fun poll => poll.2.queuedCount
  let uploads := healthy.map fun poll => poll.2.lastSuccessfulUpload
  { elapsed
    completed24h := 86400 ≤ elapsed
    polls := samples.length
    healthPollsOk := healthy.length
    snapshotPollsOk := samples.countP Sample.snapshot
    captureTransitions := captures.length
    captureIntervals := intervalsOf captures
    cadenceEvidence := verdictOf samples elapsed startedAt
    maximumPollGap := (gapsOf samples).max?.getD 0
    uploadTransitions := uploadTransitionsOf startedAt healthy
    maximumQueueCount := queue.max?.getD 0
    finalQueueCount := queue.getLast?
    queueDecreaseWithUpload := ((adjacent queue).zip (adjacent uploads)).any fun p => p.1.2 < p.1.1 && p.2.1 < p.2.2
    lossIncreases := lossCounters.map fun name => increaseOf (healthy.map fun poll => name poll.2)
    counterReset := resetsOf healthy }

/-! ## Lists of readings -/

section Lists

variable {α : Type} {R : α → α → Prop}

theorem adjacent_iff : ∀ {l : List α}, (∀ p ∈ adjacent l, R p.1 p.2) ↔ l.IsChain R
  | [] => by simp [adjacent]
  | [a] => by simp [adjacent]
  | a :: b :: l => by
    have ih := adjacent_iff (l := b :: l)
    simp only [adjacent, List.tail_cons, List.zip_cons_cons, List.mem_cons, forall_eq_or_imp] at ih ⊢
    rw [List.isChain_cons_cons, ← ih]

theorem not_decreases {values : List ℕ} (h : decreases values = false) : values.Pairwise (· ≤ ·) := by
  rw [← List.isChain_iff_pairwise, ← adjacent_iff]
  intro p hp
  have hnot := List.any_eq_false.mp h p hp
  simpa using hnot

theorem reach_of_chain {step : ℚ} : ∀ {cs : List ℕ} {c last : ℕ}, (c :: cs).IsChain (fun a b : ℕ => (a : ℚ) + step ≤ b) →
    (c :: cs).getLast? = some last → (c : ℚ) + step * cs.length ≤ last
  | [], c, last, _, hlast => by
    obtain rfl : c = last := by simpa using hlast
    simp
  | d :: cs, c, last, h, hlast => by
    obtain ⟨hstep, hrest⟩ := List.isChain_cons_cons.mp h
    have ih := reach_of_chain hrest (by simpa using hlast)
    push_cast [List.length_cons]
    linarith

theorem exists_between {a b width : ℚ} (hwide : a + width < b) : ∀ {cs : List ℕ} {c last : ℕ},
    (c :: cs).IsChain (fun a b : ℕ => (b : ℚ) ≤ a + width) → (c : ℚ) ≤ b → (c :: cs).getLast? = some last → a ≤ last →
    ∃ x ∈ c :: cs, a ≤ (x : ℚ) ∧ (x : ℚ) ≤ b
  | [], c, last, _, hb, hlast, ha => by
    obtain rfl : c = last := by simpa using hlast
    exact ⟨c, List.mem_cons_self, ha, hb⟩
  | d :: cs, c, last, h, hb, hlast, ha => by
    obtain ⟨hstep, hrest⟩ := List.isChain_cons_cons.mp h
    by_cases hc : a ≤ c
    · exact ⟨c, List.mem_cons_self, hc, hb⟩
    · -- the next one is not beyond the end of the stretch
      obtain ⟨x, hx, hin⟩ := exists_between hwide hrest (by linarith [not_le.mp hc]) (by simpa using hlast) ha
      exact ⟨x, List.mem_cons_of_mem _ hx, hin⟩

theorem chain_rel {R : ℕ → ℕ → Prop} : ∀ {cs : List ℕ}, cs.Pairwise (· < ·) → cs.IsChain R → ∀ {c c' : ℕ}, c ∈ cs →
    c' ∈ cs → c < c' → (∀ x ∈ cs, ¬ (c < x ∧ x < c')) → R c c'
  | [], _, _, _, _, hc, _, _, _ => absurd hc List.not_mem_nil
  | [x], _, _, c, c', hc, hc', hlt, _ => by
    rw [List.mem_singleton.mp hc, List.mem_singleton.mp hc'] at hlt
    exact absurd hlt (lt_irrefl x)
  | x :: y :: cs, hsorted, hchain, c, c', hc, hc', hlt, hnone => by
    obtain ⟨hfirst, hrest⟩ := List.pairwise_cons.mp hsorted
    obtain ⟨hstep, htail⟩ := List.isChain_cons_cons.mp hchain
    rcases List.mem_cons.mp hc' with hfirst' | hlater'
    · rcases List.mem_cons.mp hc with hsame | hlater
      · omega
      · have hx := hfirst c hlater
        omega
    · rcases List.mem_cons.mp hc with hsame | hlater
      · rcases List.mem_cons.mp hlater' with hnext | hbeyond
        · rw [hsame, hnext]
          exact hstep
        · have hy := (List.pairwise_cons.mp hrest).1 c' hbeyond
          have hx := hfirst y List.mem_cons_self
          exact absurd ⟨hsame ▸ hx, hy⟩ (hnone y (List.mem_cons_of_mem _ List.mem_cons_self))
      · exact chain_rel hrest htail hlater hlater' hlt fun z hz => hnone z (List.mem_cons_of_mem _ hz)

end Lists

/-! ## Captures -/

section

variable {samples : List Sample} {elapsed startedAt : ℚ} {polls : List (Sample × Health)} {cs : List ℕ} {c : ℕ}

theorem mem_noteCapture {poll : Sample × Health} : c ∈ noteCapture startedAt cs poll ↔
    c ∈ cs ∨ (poll.2.lastCapture = c ∧ inRun startedAt poll.1 c = true) := by
  unfold noteCapture
  dsimp only
  split
  · rename_i hnew
    obtain ⟨hin, -⟩ := Bool.and_eq_true_iff.mp hnew
    rw [List.mem_append, List.mem_singleton]
    constructor
    · rintro (hold | rfl)
      · exact Or.inl hold
      · exact Or.inr ⟨rfl, hin⟩
    · rintro (hold | ⟨rfl, -⟩)
      · exact Or.inl hold
      · exact Or.inr rfl
  · rename_i hnot
    constructor
    · exact Or.inl
    · rintro (hold | ⟨rfl, hin⟩)
      · exact hold
      · -- what is not noted is the last one already
        rw [hin, Bool.true_and, Bool.or_eq_true, not_or] at hnot
        have hlast : cs.getLast? = some poll.2.lastCapture := by simpa using hnot.2
        exact List.mem_of_getLast? hlast

theorem noteCapture_new {poll : Sample × Health} (hin : inRun startedAt poll.1 poll.2.lastCapture = true)
    (hlast : cs.getLast? ≠ some poll.2.lastCapture) :
    noteCapture startedAt cs poll = cs ++ [poll.2.lastCapture] := by
  rw [noteCapture]
  exact if_pos (by simp [hin, hlast])

theorem noteCapture_old {poll : Sample × Health}
    (h : inRun startedAt poll.1 poll.2.lastCapture = false ∨ cs.getLast? = some poll.2.lastCapture) :
    noteCapture startedAt cs poll = cs := by
  rw [noteCapture]
  refine if_neg ?_
  rcases h with hout | hlast
  · simp [hout]
  · have hne : cs ≠ [] := by
      rintro rfl
      cases hlast
    simp [hlast, hne]

theorem mem_foldl : c ∈ polls.foldl (noteCapture startedAt) cs ↔
    c ∈ cs ∨ ∃ poll ∈ polls, poll.2.lastCapture = c ∧ inRun startedAt poll.1 c = true := by
  induction polls generalizing cs with
  | nil => simp
  | cons poll polls ih =>
    rw [List.foldl_cons, ih, mem_noteCapture]
    simp only [List.mem_cons, exists_eq_or_imp, or_assoc]

theorem foldl_sorted (hpolls : polls.Pairwise fun a b => a.2.lastCapture ≤ b.2.lastCapture)
    (hcs : cs.Pairwise (· < ·)) (hle : ∀ c ∈ cs, ∀ poll ∈ polls, c ≤ poll.2.lastCapture) :
    (polls.foldl (noteCapture startedAt) cs).Pairwise (· < ·) := by
  induction polls generalizing cs with
  | nil => exact hcs
  | cons poll polls ih =>
    obtain ⟨hfirst, hrest⟩ := List.pairwise_cons.mp hpolls
    refine ih hrest ?_ ?_
    · unfold noteCapture
      dsimp only
      split
      · rename_i hnew
        refine List.pairwise_append.mpr ⟨hcs, List.pairwise_singleton _ _, ?_⟩
        intro x hx y hy
        obtain rfl := List.mem_singleton.mp hy
        have hxle := hle x hx poll List.mem_cons_self
        refine lt_of_le_of_ne hxle ?_
        rintro rfl
        -- nothing before the last one is as late as this one
        have hlast : cs.getLast? ≠ some poll.2.lastCapture := by
          have hsecond := (Bool.and_eq_true_iff.mp hnew).2
          rcases Bool.or_eq_true_iff.mp hsecond with hempty | hne
          · rw [List.isEmpty_iff.mp hempty] at hx
            cases hx
          · simpa using hne
        obtain ⟨front, last, rfl⟩ := List.eq_nil_or_concat cs |>.resolve_left (List.ne_nil_of_mem hx)
        rw [List.concat_eq_append] at hx hlast hcs hle
        rw [List.getLast?_append, List.getLast?_singleton, Option.some_or] at hlast
        rcases List.mem_append.mp hx with hfront | hsame
        · have hlt := (List.pairwise_append.mp hcs).2.2 _ hfront last List.mem_cons_self
          have hlastle := hle last (List.mem_append_right _ List.mem_cons_self) poll List.mem_cons_self
          omega
        · exact hlast (congrArg some (List.mem_singleton.mp hsame).symm)
      · exact hcs
    · intro x hx next hnext
      rcases mem_noteCapture.mp hx with hold | ⟨rfl, -⟩
      · exact hle x hold next (List.mem_cons_of_mem _ hnext)
      · exact hfirst next hnext

/-! ## What a verdict says -/

structure Recorded (samples : List Sample) (elapsed startedAt : ℚ) : Prop where
  ordered : samples.Pairwise fun a b => a.elapsed ≤ b.elapsed
  observed : ∀ item ∈ samples, item.observedAt = startedAt + item.elapsed
  ended : ∀ item ∈ samples, item.elapsed ≤ elapsed
  health : ∀ item ∈ samples, ∀ h, item.health = some h → ∃ value, checkedHealth value = some h

def Observed (samples : List Sample) (startedAt : ℚ) (c : ℕ) : Prop :=
  ∃ item ∈ samples, ∃ h, item.health = some h ∧ h.lastCapture = c ∧ inRun startedAt item c = true

structure Sound (samples : List Sample) (elapsed startedAt : ℚ) : Prop where
  day : 86400 ≤ elapsed
  close : ([0] ++ samples.map Sample.elapsed ++ [elapsed]).IsChain fun a b => a ≤ b ∧ b - a ≤ 65
  healthy : ∀ item ∈ samples, item.health.isSome
  kept : ∀ name ∈ resetCounters, samples.Pairwise fun a b => ∀ h, a.health = some h → ∀ h', b.health = some h' →
    name h ≤ name h'
  stretches : ∀ a b : ℚ, startedAt ≤ a → b ≤ startedAt + elapsed → 1400 < b - a →
    ∃ c, Observed samples startedAt c ∧ a ≤ (c : ℚ) ∧ (c : ℚ) ≤ b
  cadence : ∀ c c', Observed samples startedAt c → Observed samples startedAt c' → c < c' →
    (∀ x, Observed samples startedAt x → ¬ (c < x ∧ x < c')) → c + 895 ≤ c' ∧ c' ≤ c + 905

/-- **A poll tells of a capture early in the run, and a poll tells of one late in it.** -/
def Covered (samples : List Sample) (elapsed startedAt : ℚ) : Prop :=
  (∃ item ∈ samples, ∃ h, item.health = some h ∧ inRun startedAt item h.lastCapture = true ∧
    (h.lastCapture : ℚ) ≤ startedAt + 1400) ∧
  ∃ item ∈ samples, ∃ h, item.health = some h ∧ inRun startedAt item h.lastCapture = true ∧
    startedAt + elapsed - 1400 ≤ h.lastCapture

def capturesIn (samples : List Sample) (startedAt : ℚ) : List ℕ := capturesOf startedAt (healthyOf samples)

theorem mem_capturesIn : c ∈ capturesIn samples startedAt ↔ Observed samples startedAt c := by
  unfold capturesIn capturesOf Observed
  rw [mem_foldl]
  constructor
  · rintro (hnone | ⟨⟨item, h⟩, hpoll, hcapture, hin⟩)
    · cases hnone
    · obtain ⟨item', hitem, hmap⟩ := List.mem_filterMap.mp hpoll
      obtain ⟨h', hhealth, heq⟩ := Option.map_eq_some_iff.mp hmap
      obtain ⟨rfl, rfl⟩ := Prod.mk.inj heq
      exact ⟨item', hitem, h', hhealth, hcapture, hin⟩
  · rintro ⟨item, hitem, h, hhealth, hcapture, hin⟩
    refine Or.inr ⟨(item, h), ?_, hcapture, hin⟩
    exact List.mem_filterMap.mpr ⟨item, hitem, by rw [hhealth]; rfl⟩

/-- **The tests that a positive verdict has passed.** -/
structure Passed (samples : List Sample) (elapsed startedAt : ℚ) : Prop where
  day : 86400 ≤ elapsed
  count : 96 ≤ (capturesIn samples startedAt).length
  cadence : cadenceMatches (intervalsOf (capturesIn samples startedAt)) = true
  uninterrupted : uninterrupted samples elapsed = true
  kept : resetsOf (healthyOf samples) = false

theorem passed_of_verdict (h : (summarize samples elapsed startedAt).cadenceEvidence = .matches15Minutes) :
    Passed samples elapsed startedAt := by
  have hverdict : verdictOf samples elapsed startedAt = .matches15Minutes := h
  unfold verdictOf at hverdict
  dsimp only at hverdict
  split at hverdict
  · cases hverdict
  · rename_i hkept
    split at hverdict
    · cases hverdict
    · split at hverdict
      · rename_i hall
        exact ⟨hall.1, hall.2.1, hall.2.2.1, hall.2.2.2, Bool.eq_false_iff.mpr hkept⟩
      · cases hverdict

theorem verdict_of_passed (h : Passed samples elapsed startedAt) :
    (summarize samples elapsed startedAt).cadenceEvidence = .matches15Minutes := by
  show verdictOf samples elapsed startedAt = .matches15Minutes
  have hmatches : cadenceMatches (intervalsOf (capturesOf startedAt (healthyOf samples))) = true := h.cadence
  unfold verdictOf
  dsimp only
  rw [hmatches, if_neg (by rw [h.kept]; decide), if_neg (by simp), if_pos ⟨h.day, h.count, rfl, h.uninterrupted⟩]

section Certified

variable (hpassed : Passed samples elapsed startedAt)

include hpassed

theorem kept_of_passed : ∀ name ∈ resetCounters, samples.Pairwise fun a b => ∀ h, a.health = some h →
    ∀ h', b.health = some h' → name h ≤ name h' := by
  intro name hname
  have hkept := List.any_eq_false.mp hpassed.kept name hname
  have hpairwise := not_decreases (Bool.eq_false_iff.mpr hkept)
  rw [List.pairwise_map, healthyOf, List.pairwise_filterMap] at hpairwise
  refine hpairwise.imp ?_
  intro a b hab h hh h' hh'
  exact hab (a, h) (by rw [hh]; rfl) (b, h') (by rw [hh']; rfl)

theorem sorted_of_passed : (capturesIn samples startedAt).Pairwise (· < ·) := by
  have hkept := List.any_eq_false.mp hpassed.kept Health.lastCapture (by simp [resetCounters])
  have hpairwise := not_decreases (Bool.eq_false_iff.mpr hkept)
  rw [List.pairwise_map] at hpairwise
  exact foldl_sorted hpairwise List.Pairwise.nil fun _ hc => absurd hc List.not_mem_nil

theorem chain_of_passed : (capturesIn samples startedAt).IsChain fun a b => a + 895 ≤ b ∧ b ≤ a + 905 := by
  rw [← adjacent_iff]
  intro p hp
  have hall := (Bool.and_eq_true_iff.mp hpassed.cadence).2
  have hp' := List.all_eq_true.mp hall ((p.2 : ℤ) - p.1) (List.mem_map_of_mem hp)
  simp only [Bool.and_eq_true, decide_eq_true_eq] at hp'
  omega

theorem healthy_of_passed : ∀ item ∈ samples, item.health.isSome = true := by
  have hall := (Bool.and_eq_true_iff.mp (Bool.and_eq_true_iff.mp hpassed.uninterrupted).1).2
  exact List.all_eq_true.mp hall

theorem close_of_passed :
    ([0] ++ samples.map Sample.elapsed ++ [elapsed]).IsChain fun a b => a ≤ b ∧ b - a ≤ 65 := by
  obtain ⟨hfront, hgaps⟩ := Bool.and_eq_true_iff.mp hpassed.uninterrupted
  have hedges := (Bool.and_eq_true_iff.mp hfront).1
  have hinner : (samples.map Sample.elapsed).IsChain fun a b => a ≤ b ∧ b - a ≤ 65 := by
    rw [List.isChain_map, ← adjacent_iff]
    intro p hp
    have hgap := List.all_eq_true.mp hgaps _ (List.mem_map_of_mem hp)
    simp only [Bool.and_eq_true, decide_eq_true_eq] at hgap
    exact ⟨by linarith, hgap.2⟩
  unfold edgesCovered at hedges
  split at hedges
  · rename_i first last hfirst hlast
    simp only [Bool.and_eq_true, decide_eq_true_eq] at hedges
    rw [List.append_assoc, List.singleton_append, List.isChain_cons, List.isChain_append]
    refine ⟨?_, hinner, List.isChain_singleton _, ?_⟩
    · intro y hy
      obtain ⟨rest, rfl⟩ := List.head?_eq_some_iff.mp hfirst
      obtain rfl : first.elapsed = y := by simpa using hy
      exact ⟨by linarith [hedges.1.1], by linarith [hedges.1.2]⟩
    · intro x hx y hy
      rw [List.getLast?_map, hlast] at hx
      obtain rfl : last.elapsed = x := by simpa using hx
      obtain rfl : elapsed = y := by simpa using hy
      exact ⟨by linarith [hedges.2.1], hedges.2.2⟩
  · cases hedges

theorem cadence_of_passed {c c' : ℕ} (hc : Observed samples startedAt c) (hc' : Observed samples startedAt c')
    (hlt : c < c') (hnone : ∀ x, Observed samples startedAt x → ¬ (c < x ∧ x < c')) :
    c + 895 ≤ c' ∧ c' ≤ c + 905 := by
  refine chain_rel (sorted_of_passed hpassed) (chain_of_passed hpassed) (mem_capturesIn.mpr hc) (mem_capturesIn.mpr hc')
    hlt ?_
  intro x hx
  exact hnone x (mem_capturesIn.mp hx)

theorem ends_of_passed : ∃ first rest last, capturesIn samples startedAt = first :: rest ∧
    (first :: rest).getLast? = some last ∧ (first : ℚ) + 85025 ≤ last ∧
    ∀ c, Observed samples startedAt c → first ≤ c ∧ c ≤ last := by
  have hsorted := sorted_of_passed hpassed
  have hchain := chain_of_passed hpassed
  have hcount := hpassed.count
  have hmem : ∀ c, Observed samples startedAt c → c ∈ capturesIn samples startedAt := fun c => mem_capturesIn.mpr
  generalize capturesIn samples startedAt = cs at hsorted hchain hcount hmem
  cases cs with
  | nil => simp at hcount
  | cons first rest =>
    obtain ⟨last, hlast⟩ : ∃ last, (first :: rest).getLast? = some last := ⟨_, List.getLast?_eq_some_getLast (by simp)⟩
    refine ⟨first, rest, last, rfl, hlast, ?_, ?_⟩
    · have hfar : (first :: rest).IsChain fun a b : ℕ => (a : ℚ) + 895 ≤ b :=
        hchain.imp fun a b hab => by exact_mod_cast hab.1
      have hreach := reach_of_chain hfar hlast
      have hlength : (95 : ℚ) ≤ rest.length := by
        rw [List.length_cons] at hcount
        exact_mod_cast (by omega : 95 ≤ rest.length)
      linarith
    · intro c hc
      constructor
      · rcases List.mem_cons.mp (hmem c hc) with rfl | hlater
        · exact le_rfl
        · exact ((List.pairwise_cons.mp hsorted).1 c hlater).le
      · obtain ⟨front, hfront⟩ := List.getLast?_eq_some_iff.mp hlast
        have hin := hmem c hc
        rw [hfront] at hsorted hin
        rcases List.mem_append.mp hin with hearlier | hsame
        · exact ((List.pairwise_append.mp hsorted).2.2 c hearlier last List.mem_cons_self).le
        · exact (List.mem_singleton.mp hsame).le

/-- **Captures leave no long stretch out**, but before the first and after the last of them. -/
theorem stretch_of_passed (hcovered : Covered samples elapsed startedAt) {a b : ℚ} (ha : startedAt ≤ a)
    (hb : b ≤ startedAt + elapsed) (hlong : 1400 < b - a) :
    ∃ c, Observed samples startedAt c ∧ a ≤ (c : ℚ) ∧ (c : ℚ) ≤ b := by
  obtain ⟨⟨item, hitem, h, hh, hin, hearly⟩, item', hitem', h', hh', hin', hlate⟩ := hcovered
  obtain ⟨first, rest, last, hcaptures, hlast, -, hends⟩ := ends_of_passed hpassed
  have hfirst : (first : ℚ) ≤ h.lastCapture := by exact_mod_cast (hends _ ⟨item, hitem, h, hh, rfl, hin⟩).1
  have hlast' : (h'.lastCapture : ℚ) ≤ last := by exact_mod_cast (hends _ ⟨item', hitem', h', hh', rfl, hin'⟩).2
  have hchain : (first :: rest).IsChain fun a b : ℕ => (b : ℚ) ≤ a + 905 := by
    rw [← hcaptures]
    exact (chain_of_passed hpassed).imp fun a b hab => by exact_mod_cast hab.2
  have hwide : a + 905 < b := by linarith
  obtain ⟨c, hc, hac, hcb⟩ := exists_between hwide hchain (by linarith) hlast (by linarith)
  exact ⟨c, mem_capturesIn.mp (hcaptures ▸ hc), hac, hcb⟩

end Certified

theorem observed_bounds (hrecorded : Recorded samples elapsed startedAt) (hc : Observed samples startedAt c) :
    startedAt < c ∧ (c : ℚ) ≤ startedAt + elapsed := by
  obtain ⟨item, hitem, h, -, rfl, hin⟩ := hc
  simp only [inRun, Bool.and_eq_true, decide_eq_true_eq] at hin
  have hobserved := hrecorded.observed item hitem
  have hended := hrecorded.ended item hitem
  exact ⟨hin.1, by linarith [hin.2]⟩

theorem covered_of_ends {c c' : ℕ} (hc : Observed samples startedAt c) (hc' : Observed samples startedAt c')
    (hearly : (c : ℚ) ≤ startedAt + 1400) (hlate : startedAt + elapsed - 1400 ≤ c') :
    Covered samples elapsed startedAt := by
  obtain ⟨item, hitem, h, hh, rfl, hin⟩ := hc
  obtain ⟨item', hitem', h', hh', rfl, hin'⟩ := hc'
  exact ⟨⟨item, hitem, h, hh, hin, hearly⟩, item', hitem', h', hh', hin', hlate⟩

theorem short_covered (hrecorded : Recorded samples elapsed startedAt) (hpassed : Passed samples elapsed startedAt)
    (hshort : elapsed ≤ 86425) : Covered samples elapsed startedAt := by
  obtain ⟨first, rest, last, hcaptures, hlast, hfar, -⟩ := ends_of_passed hpassed
  have hfirst : Observed samples startedAt first := mem_capturesIn.mp (hcaptures ▸ List.mem_cons_self)
  have hlast' : Observed samples startedAt last := mem_capturesIn.mp (hcaptures ▸ List.mem_of_getLast? hlast)
  have hstart := (observed_bounds hrecorded hfirst).1
  have hend := (observed_bounds hrecorded hlast').2
  exact covered_of_ends hfirst hlast' (by linarith) (by linarith)

theorem covered_of_sound (hrecorded : Recorded samples elapsed startedAt) (hpassed : Passed samples elapsed startedAt)
    (hsound : Sound samples elapsed startedAt) : Covered samples elapsed startedAt := by
  obtain ⟨first, rest, last, hcaptures, hlast, -, hends⟩ := ends_of_passed hpassed
  have hfirst : Observed samples startedAt first := mem_capturesIn.mp (hcaptures ▸ List.mem_cons_self)
  have hlast' : Observed samples startedAt last := mem_capturesIn.mp (hcaptures ▸ List.mem_of_getLast? hlast)
  have hstart := observed_bounds hrecorded hfirst
  have hend := observed_bounds hrecorded hlast'
  have hday := hsound.day
  refine covered_of_ends hfirst hlast' ?_ ?_
  · -- or the run would begin with a stretch that ends halfway to the first capture
    by_contra hearly
    obtain ⟨c, hc, -, hle⟩ := hsound.stretches startedAt ((startedAt + 1400 + first) / 2) le_rfl (by linarith)
      (by linarith [not_le.mp hearly])
    have hfirstle : (first : ℚ) ≤ c := by exact_mod_cast (hends c hc).1
    linarith [not_le.mp hearly]
  · by_contra hlate
    obtain ⟨c, hc, hle, -⟩ := hsound.stretches ((startedAt + elapsed - 1400 + last) / 2) (startedAt + elapsed)
      (by linarith [not_le.mp hlate]) le_rfl (by linarith [not_le.mp hlate])
    have hlelast : (c : ℚ) ≤ last := by exact_mod_cast (hends c hc).2
    linarith [not_le.mp hlate]

/-- **A positive verdict is sound exactly when captures were told of early and late in the run**, as they are in a run
that is hardly longer than a day. -/
theorem positive_iff {samples : List Sample} {elapsed startedAt : ℚ} (hrecorded : Recorded samples elapsed startedAt)
    (hverdict : (summarize samples elapsed startedAt).cadenceEvidence = .matches15Minutes) :
    (Sound samples elapsed startedAt ↔ Covered samples elapsed startedAt) ∧
      (elapsed ≤ 86425 → Covered samples elapsed startedAt) := by
  have hpassed := passed_of_verdict hverdict
  refine ⟨⟨covered_of_sound hrecorded hpassed, ?_⟩, short_covered hrecorded hpassed⟩
  intro hcovered
  exact ⟨hpassed.day, close_of_passed hpassed, healthy_of_passed hpassed, kept_of_passed hpassed,
    fun a b ha hb hlong => stretch_of_passed hpassed hcovered ha hb hlong,
    fun c c' hc hc' hlt hnone => cadence_of_passed hpassed hc hc' hlt hnone⟩

end

/-! ## A camera that stops -/

def idle (lastCapture : ℕ) : Health where
  clockReady := true
  storageReady := true
  uploadPaused := false
  queuedCount := 0
  queuedBytes := 0
  lastCapture
  lastSuccessfulUpload := 1700000000
  lastHttpStatus := 201
  dropped := 0
  corrupt := 0
  quarantined := 0
  quarantineDropped := 0
  lastError := js "none"

def idleResponse (lastCapture : ℕ) (name : Text) : Option PyValue :=
  if name = js "clock_ready" ∨ name = js "storage_ready" then some (.bool true)
  else if name = js "upload_paused" then some (.bool false)
  else if name = js "last_capture" then some (.int lastCapture)
  else if name = js "last_successful_upload" then some (.int 1700000000)
  else if name = js "last_http_status" then some (.int 201)
  else if name = js "last_error" then some (.str (js "none"))
  else some (.int 0)

theorem checked_idle {lastCapture : ℕ} (h : lastCapture ≤ 253402300799) :
    checkedHealth (idleResponse lastCapture) = some (idle lastCapture) := by
  have hcapture : (0 : ℤ) ≤ lastCapture ∧ (lastCapture : ℤ) ≤ 253402300799 := ⟨by omega, by omega⟩
  simp [checkedHealth, boolean, counter, idleResponse, js, codeUnits, errors, idle, hcapture]

def lastCaptureAt (i : ℕ) : ℕ := 1700000000 + 900 * min (i / 15) 96

def pollAt (i : ℕ) : Sample where
  elapsed := (60 * i : ℕ)
  observedAt := (1700000000 + 60 * i : ℕ)
  health := some (idle (lastCaptureAt i))
  snapshot := true

def stopped (minutes : ℕ) : List Sample := (List.range minutes).map pollAt

theorem healthyOf_stopped (minutes : ℕ) : healthyOf (stopped minutes) =
    (List.range minutes).map fun i => (pollAt i, idle (lastCaptureAt i)) := by
  simp [healthyOf, stopped, List.filterMap_map, pollAt]

theorem inRun_stopped (n : ℕ) : inRun 1700000000 (pollAt n) (lastCaptureAt n) = decide (0 < min (n / 15) 96) := by
  have hle : ((lastCaptureAt n : ℕ) : ℚ) ≤ (1700000000 + 60 * n : ℕ) := by
    rw [Nat.cast_le, lastCaptureAt]
    omega
  have hlt : (1700000000 : ℚ) < lastCaptureAt n ↔ 0 < min (n / 15) 96 := by
    rw [show (1700000000 : ℚ) = (1700000000 : ℕ) from rfl, Nat.cast_lt, lastCaptureAt]
    omega
  rw [inRun, pollAt, decide_eq_true hle, Bool.and_true]
  exact decide_eq_decide.mpr hlt

theorem capturesIn_stopped (minutes : ℕ) : capturesIn (stopped minutes) 1700000000 =
    (List.range (min ((minutes - 1) / 15) 96)).map fun k => 1700000900 + 900 * k := by
  induction minutes with
  | zero => rfl
  | succ n ih =>
    have hsplit : capturesIn (stopped (n + 1)) 1700000000 =
        noteCapture 1700000000 (capturesIn (stopped n) 1700000000) (pollAt n, idle (lastCaptureAt n)) := by
      rw [capturesIn, capturesIn, capturesOf, capturesOf, healthyOf_stopped, healthyOf_stopped, List.range_succ,
        List.map_append, List.foldl_append]
      rfl
    rw [hsplit, ih, Nat.add_sub_cancel]
    -- the poll either tells of the last capture again or brings one more
    by_cases hold : min (n / 15) 96 = min ((n - 1) / 15) 96
    · rw [hold]
      refine noteCapture_old ?_
      cases hk : min ((n - 1) / 15) 96 with
      | zero => exact Or.inl ((inRun_stopped n).trans (by simp [hold, hk]))
      | succ k =>
        right
        have hlast : lastCaptureAt n = 1700000900 + 900 * k := by
          rw [lastCaptureAt, hold, hk]
          omega
        rw [List.range_succ, List.map_append, List.getLast?_append]
        exact congrArg some hlast.symm
    · obtain ⟨k, hk⟩ : ∃ k, min ((n - 1) / 15) 96 = k := ⟨_, rfl⟩
      have hone : min (n / 15) 96 = k + 1 := by omega
      have hlast : lastCaptureAt n = 1700000900 + 900 * k := by
        rw [lastCaptureAt, hone]
        omega
      have hin : inRun 1700000000 (pollAt n) (lastCaptureAt n) = true := by
        rw [inRun_stopped, hone]
        simp
      have hother : ((List.range k).map fun k => 1700000900 + 900 * k).getLast? ≠ some (lastCaptureAt n) := by
        rw [hlast]
        cases k with
        | zero => simp
        | succ k => simp [List.range_succ]
      have hnew : noteCapture 1700000000 ((List.range k).map fun k => 1700000900 + 900 * k)
          (pollAt n, idle (lastCaptureAt n)) = _ ++ [lastCaptureAt n] := noteCapture_new hin hother
      rw [hk, hone, hnew, List.range_succ, List.map_append]
      exact congrArg _ (congrArg (fun c => [c]) hlast)

theorem decreases_of_mono {f : ℕ → ℕ} (hf : Monotone f) (n : ℕ) : decreases ((List.range n).map f) = false := by
  rw [decreases, List.any_eq_false]
  have hchain : ((List.range n).map f).IsChain (· ≤ ·) := by
    rw [List.isChain_map, List.isChain_range]
    intro m _
    exact hf (Nat.le_succ m)
  intro p hp
  have hle := adjacent_iff.mpr hchain p hp
  simpa using hle

theorem stopped_passed : Passed (stopped 1500) 90000 1700000000 := by
  refine ⟨by norm_num, ?_, ?_, ?_, ?_⟩
  · rw [capturesIn_stopped]
    simp
  · rw [capturesIn_stopped]
    decide +kernel
  · have hedges : edgesCovered (stopped 1500) 90000 = true := by
      have hhead : (stopped 1500).head? = some (pollAt 0) := by
        rw [stopped, show 1500 = 1499 + 1 from rfl, List.range_succ_eq_map]
        rfl
      have hlast : (stopped 1500).getLast? = some (pollAt 1499) := by
        rw [stopped, show 1500 = 1499 + 1 from rfl, List.range_succ, List.map_append, List.getLast?_append]
        rfl
      rw [edgesCovered, hhead, hlast]
      norm_num [pollAt]
    have hhealth : (stopped 1500).all (fun item => item.health.isSome) = true := by
      simp [stopped, pollAt]
    have hgaps : (gapsOf (stopped 1500)).all (fun gap => 0 ≤ gap && gap ≤ 65) = true := by
      have hchain : (stopped 1500).IsChain fun a b => 0 ≤ b.elapsed - a.elapsed ∧ b.elapsed - a.elapsed ≤ 65 := by
        rw [stopped, List.isChain_map, List.isChain_range]
        intro m _
        simp only [pollAt]
        push_cast
        constructor <;> linarith
      rw [List.all_eq_true, gapsOf]
      intro gap hgap
      obtain ⟨p, hp, rfl⟩ := List.mem_map.mp hgap
      have hbetween := adjacent_iff.mpr hchain p hp
      simpa using hbetween
    rw [uninterrupted, hedges, hhealth, hgaps]
    rfl
  · rw [resetsOf, List.any_eq_false]
    intro name hname
    have hvalues : (healthyOf (stopped 1500)).map (fun poll => name poll.2) =
        (List.range 1500).map fun i => name (idle (lastCaptureAt i)) := by
      rw [healthyOf_stopped, List.map_map]
      rfl
    have hmono : Monotone fun i => name (idle (lastCaptureAt i)) := by
      intro i j hij
      simp only [resetCounters, lossCounters, List.mem_append, List.mem_cons, List.not_mem_nil, or_false] at hname
      rcases hname with (rfl | rfl | rfl) | rfl | rfl
      · exact le_rfl
      · exact le_rfl
      · exact le_rfl
      · show lastCaptureAt i ≤ lastCaptureAt j
        unfold lastCaptureAt
        omega
      · exact le_rfl
    rw [hvalues, decreases_of_mono hmono]
    decide

theorem stopped_recorded : Recorded (stopped 1500) 90000 1700000000 := by
  refine ⟨?_, ?_, ?_, ?_⟩
  · rw [stopped, List.pairwise_map]
    refine List.pairwise_lt_range.imp ?_
    intro i j hij
    simp only [pollAt, Nat.cast_le]
    omega
  · intro item hitem
    obtain ⟨i, -, rfl⟩ := List.mem_map.mp hitem
    simp only [pollAt]
    push_cast
    rfl
  · intro item hitem
    obtain ⟨i, hi, rfl⟩ := List.mem_map.mp hitem
    have hlt := List.mem_range.mp hi
    have hle : ((60 * i : ℕ) : ℚ) ≤ (90000 : ℕ) := Nat.cast_le.mpr (by omega)
    exact hle
  · intro item hitem h hh
    obtain ⟨i, -, rfl⟩ := List.mem_map.mp hitem
    obtain rfl := Option.some.inj hh
    refine ⟨idleResponse (lastCaptureAt i), checked_idle ?_⟩
    unfold lastCaptureAt
    omega

/-- **A camera that has stopped for an hour passes**, and no capture is in that hour. -/
theorem stopped_certified : Recorded (stopped 1500) 90000 1700000000 ∧
    (summarize (stopped 1500) 90000 1700000000).cadenceEvidence = .matches15Minutes ∧
    ¬ Sound (stopped 1500) 90000 1700000000 := by
  refine ⟨stopped_recorded, verdict_of_passed stopped_passed, ?_⟩
  intro hsound
  obtain ⟨c, ⟨item, hitem, h, hh, rfl, -⟩, hafter, -⟩ :=
    hsound.stretches 1700086401 1700090000 (by norm_num) (by norm_num) (by norm_num)
  obtain ⟨i, -, rfl⟩ := List.mem_map.mp hitem
  obtain rfl := Option.some.inj hh
  have hlate : 1700086401 ≤ lastCaptureAt i := by exact_mod_cast hafter
  unfold lastCaptureAt at hlate
  omega

theorem positive_iff_stopped :
    (Sound (stopped 1500) 90000 1700000000 ↔ Covered (stopped 1500) 90000 1700000000) ∧
      ((90000 : ℚ) ≤ 86425 → Covered (stopped 1500) 90000 1700000000) :=
  positive_iff stopped_recorded (verdict_of_passed stopped_passed)

end Albusforge.Camera.Evidence
