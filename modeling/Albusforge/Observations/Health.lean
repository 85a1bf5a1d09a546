import Mathlib
import Albusforge.Lib.Keyset
import Albusforge.Lib.JsText

/-!
# The health of the fleet

`apps/observation-maintain/src/health.ts`. A call of `observationHealth` looks at a page of the fleet's capabilities
and keeps in a row of the database how far it has come and what it has counted, so that a sweep of the whole fleet
takes several calls, of any limits. A call that fails is rolled back, and the next one looks at its page again.

**A sweep visits every capability once** (`sweeps_complete`): what it reports is a count over the fleet, and it
takes no more calls than there are capabilities.

Device ids and capability ids are ordered by the database, both in the order of a page and beyond a cursor; their
types are parameters. Times are milliseconds, as `Date` reads them.
-/

namespace Albusforge.Observations.Health

open Lib

/-! ## Tables -/

/-- A row of `telemetry.device_capabilities`. -/
structure Capability (δ κ : Type) where
  deviceId : δ
  capabilityId : κ
  kind : Text
  enabled : Bool
  intervalS : ℕ
  monitoringStartedAt : ℤ

/-- A row of `telemetry.capability_presence`. -/
structure Presence where
  lastCaptureAt : ℤ
  lastReceivedAt : ℤ

variable {δ κ : Type} [LinearOrder δ] [LinearOrder κ]

def Capability.key (c : Capability δ κ) : δ ×ₗ κ := toLex (c.deviceId, c.capabilityId)

structure Devices (δ κ : Type) [LinearOrder δ] [LinearOrder κ] where
  capabilities : List (Capability δ κ)
  keys : (capabilities.map Capability.key).Nodup
  revokedAt : δ → Option ℤ

/-- `telemetry.observation_maintenance_state`, as far as it is about health. -/
structure ScanState (δ κ : Type) where
  healthDeviceCursor : Option δ
  healthCapabilityCursor : Option κ
  healthScanStartedAt : Option ℤ
  healthEnabledCount : ℕ
  healthStaleCount : ℕ

def ScanState.initial : ScanState δ κ := ⟨none, none, none, 0, 0⟩

structure ObservationHealth where
  deletionBacklogLowerBound : ℕ
  deletionBacklogCapped : Bool
  deletionOldestAgeS : ℤ
  reservationOverdueAgeS : ℤ
  cameraScanComplete : Bool
  cameraScanAgeS : ℤ
  /-- `camera_enabled_count` and `camera_stale_count`, which are there together. -/
  cameraCounts : Option (ℕ × ℕ)

structure Call (δ κ : Type) where
  time : ℤ
  limit : ℕ
  positive : 0 < limit
  /-- The `queued_at` of the deletion intents, and the `lease_until` of reserved receipts. -/
  queued : List ℤ
  leases : List ℤ
  presence : δ → κ → Option Presence
  /-- It gets to its `COMMIT`. -/
  commits : Bool

/-! ## One call -/

def age (time : ℤ) (value : Option ℤ) : ℤ := value.elim 0 fun v => max 0 ((time - v) / 1000)

/-- `WHERE (device_id,capability_id)>($2,$3)`, if there is a device cursor. A row comparison that comes to a null
is not true. -/
def ScanState.isBeyond (state : ScanState δ κ) (c : Capability δ κ) : Bool :=
  match state.healthDeviceCursor, state.healthCapabilityCursor with
  | none, _ => true
  | some device, some capability => toLex (device, capability) < c.key
  | some device, none => device < c.deviceId

def ScanState.page (state : ScanState δ κ) (devices : Devices δ κ) (limit : ℕ) : List (Capability δ κ) :=
  (Keyset.ordered Capability.key (devices.capabilities.filter state.isBeyond)).take (limit + 1)

/-- `page.slice(0,limit)` -/
def ScanState.processed (state : ScanState δ κ) (devices : Devices δ κ) (limit : ℕ) : List (Capability δ κ) :=
  (state.page devices limit).take limit

/-- `cap.kind==='image' && cap.enabled && !cap.revoked_at` -/
def isCamera (devices : Devices δ κ) (c : Capability δ κ) : Bool :=
  c.kind = js "image" && c.enabled && (devices.revokedAt c.deviceId).isNone

def isStale (call : Call δ κ) (c : Capability δ κ) : Bool :=
  let threshold : ℤ := (2 * c.intervalS + 300) * 1000
  decide (threshold < call.time - c.monitoringStartedAt) &&
    match call.presence c.deviceId c.capabilityId with
    | none => true
    | some p => decide (threshold < call.time - p.lastCaptureAt) || decide (threshold < call.time - p.lastReceivedAt)

def countPage (devices : Devices δ κ) (call : Call δ κ) (processed : List (Capability δ κ)) (counts : ℕ × ℕ) : ℕ × ℕ :=
  processed.foldl (fun counts c =>
    if isCamera devices c then (counts.1 + 1, if isStale call c then counts.2 + 1 else counts.2) else counts) counts

/-- The transaction of `observationHealth`, with what it returns. Where a page has more than the limit, the last that
was processed is there, since the limit is positive. -/
def observationHealth (devices : Devices δ κ) (row : Option (ScanState δ κ)) (call : Call δ κ) :
    ScanState δ κ × ObservationHealth :=
  let backlog := (sortBy compare call.queued).take (call.limit + 1)
  let lease := (sortBy compare call.leases).head?
  let state := row.getD .initial
  let page := state.page devices call.limit
  let processed := state.processed devices call.limit
  let counts := countPage devices call processed (state.healthEnabledCount, state.healthStaleCount)
  let complete := decide (page.length ≤ call.limit)
  let last := processed.getLast?
  let started := state.healthScanStartedAt.getD call.time
  ({ healthDeviceCursor := if complete then none else last.map Capability.deviceId
     healthCapabilityCursor := if complete then none else last.map Capability.capabilityId
     healthScanStartedAt := if complete then none else some started
     healthEnabledCount := if complete then 0 else counts.1
     healthStaleCount := if complete then 0 else counts.2 },
   { deletionBacklogLowerBound := backlog.length
     deletionBacklogCapped := decide (call.limit < backlog.length)
     deletionOldestAgeS := age call.time backlog.head?
     reservationOverdueAgeS := age call.time lease
     cameraScanComplete := complete
     cameraScanAgeS := age call.time (some started)
     cameraCounts := if complete then some counts else none })

/-! ## Calls after one another -/

structure Visit (δ κ : Type) where
  call : Call δ κ
  page : List (Capability δ κ)
  health : ObservationHealth

def attempt (devices : Devices δ κ) (row : Option (ScanState δ κ)) (call : Call δ κ) :
    Option (ScanState δ κ) × Option (Visit δ κ) :=
  if call.commits then
    let (state, health) := observationHealth devices row call
    (some state, some ⟨call, (row.getD .initial).processed devices call.limit, health⟩)
  else (row, none)

def run (devices : Devices δ κ) (row : Option (ScanState δ κ)) :
    List (Call δ κ) → Option (ScanState δ κ) × List (Visit δ κ)
  | [] => (row, [])
  | call :: calls =>
    let (row, visit) := attempt devices row call
    let (row, rest) := run devices row calls
    (row, visit.toList ++ rest)

/-! ## Sweeps -/

def cameraCount (devices : Devices δ κ) : ℕ := devices.capabilities.countP (isCamera devices)

def Visit.stale (devices : Devices δ κ) (v : Visit δ κ) : ℕ :=
  v.page.countP fun c => isCamera devices c && isStale v.call c

def Visit.IsPartial (v : Visit δ κ) : Prop := v.health.cameraScanComplete = false ∧ v.health.cameraCounts = none

structure IsSweep (devices : Devices δ κ) (sweep : List (Visit δ κ)) : Prop where
  visited : sweep.flatMap Visit.page = Keyset.ordered Capability.key devices.capabilities
  reports : ∃ front last, sweep = front ++ [last] ∧ (∀ v ∈ front, v.IsPartial) ∧
    last.health.cameraScanComplete = true ∧
    last.health.cameraCounts = some (cameraCount devices, (sweep.map (Visit.stale devices)).sum)
  length_le : sweep.length ≤ max 1 devices.capabilities.length

structure IsUnderway (devices : Devices δ κ) (current : List (Visit δ κ)) : Prop where
  visited : ∃ rest, Keyset.ordered Capability.key devices.capabilities = current.flatMap Visit.page ++ rest ∧
    (current ≠ [] → rest ≠ [])
  pages : ∀ v ∈ current, v.page ≠ []
  reports : ∀ v ∈ current, v.IsPartial

def standing (devices : Devices δ κ) (current : List (Visit δ κ)) : ScanState δ κ where
  healthDeviceCursor := (current.flatMap Visit.page).getLast?.map Capability.deviceId
  healthCapabilityCursor := (current.flatMap Visit.page).getLast?.map Capability.capabilityId
  healthScanStartedAt := current.head?.map fun v => v.call.time
  healthEnabledCount := (current.flatMap Visit.page).countP (isCamera devices)
  healthStaleCount := (current.map (Visit.stale devices)).sum

@[simp] theorem standing_nil (devices : Devices δ κ) : standing devices [] = .initial := rfl

theorem IsUnderway.nil (devices : Devices δ κ) : IsUnderway devices [] where
  visited := ⟨_, rfl, fun h => absurd rfl h⟩
  pages := fun _ h => absurd h List.not_mem_nil
  reports := fun _ h => absurd h List.not_mem_nil

omit [LinearOrder δ] [LinearOrder κ] in
theorem length_le_flatMap {current : List (Visit δ κ)} (h : ∀ v ∈ current, v.page ≠ []) :
    current.length ≤ (current.flatMap Visit.page).length := by
  induction current with
  | nil => exact Nat.zero_le _
  | cons v current ih =>
    have hv := List.length_pos_iff.mpr (h v List.mem_cons_self)
    have hrest := ih fun w hw => h w (List.mem_cons_of_mem _ hw)
    rw [List.flatMap_cons, List.length_append, List.length_cons]
    omega

theorem IsUnderway.length_lt {devices : Devices δ κ} {current : List (Visit δ κ)} (h : IsUnderway devices current) :
    current.length < max 1 devices.capabilities.length := by
  obtain ⟨rest, hsplit, hrest⟩ := h.visited
  have hle := length_le_flatMap h.pages
  have hlength : devices.capabilities.length = (current.flatMap Visit.page).length + rest.length := by
    have hperm := (sortBy_perm (fun a b => compare a.key b.key) devices.capabilities).length_eq
    rw [← hperm, ← List.length_append, ← hsplit]
    rfl
  rcases List.eq_nil_or_concat current with rfl | ⟨front, last, rfl⟩
  · exact Nat.lt_of_lt_of_le Nat.zero_lt_one (le_max_left _ _)
  · have := List.length_pos_iff.mpr (hrest (by simp))
    exact lt_max_of_lt_right (by omega)

/-! ## What a call does to a sweep -/

theorem countPage_eq (devices : Devices δ κ) (call : Call δ κ) (page : List (Capability δ κ)) (counts : ℕ × ℕ) :
    countPage devices call page counts =
      (counts.1 + page.countP (isCamera devices),
        counts.2 + page.countP fun c => isCamera devices c && isStale call c) := by
  induction page generalizing counts with
  | nil => rfl
  | cons c page ih =>
    rw [countPage, List.foldl_cons, ← countPage, ih]
    cases hcamera : isCamera devices c with
    | false => simp [hcamera]
    | true =>
      cases hstale : isStale call c with
      | false => simp [hcamera, hstale, Nat.add_assoc, Nat.add_comm]
      | true => simp [hcamera, hstale, Nat.add_assoc, Nat.add_comm]

theorem standing_isBeyond (devices : Devices δ κ) (current : List (Visit δ κ)) :
    (standing devices current).isBeyond =
      Keyset.isBeyond Capability.key (Keyset.cursorOf Capability.key (current.flatMap Visit.page)) := by
  funext c
  simp only [ScanState.isBeyond, standing, Keyset.isBeyond, Keyset.cursorOf]
  cases (current.flatMap Visit.page).getLast? with
  | none => rfl
  | some last => rfl

theorem standing_page {devices : Devices δ κ} {current : List (Visit δ κ)} {rest : List (Capability δ κ)}
    (hsplit : Keyset.ordered Capability.key devices.capabilities = current.flatMap Visit.page ++ rest) (limit : ℕ) :
    (standing devices current).page devices limit = rest.take (limit + 1) := by
  rw [ScanState.page, standing_isBeyond]
  exact congrArg _ (Keyset.beyond_last devices.keys hsplit)

theorem standing_processed {devices : Devices δ κ} {current : List (Visit δ κ)} {rest : List (Capability δ κ)}
    (hsplit : Keyset.ordered Capability.key devices.capabilities = current.flatMap Visit.page ++ rest) (limit : ℕ) :
    (standing devices current).processed devices limit = rest.take limit := by
  rw [ScanState.processed, standing_page hsplit, List.take_take, min_eq_left (Nat.le_succ limit)]

def nextVisit (devices : Devices δ κ) (current : List (Visit δ κ)) (call : Call δ κ) : Visit δ κ :=
  ⟨call, (standing devices current).processed devices call.limit,
    (observationHealth devices (some (standing devices current)) call).2⟩

theorem standing_counts (devices : Devices δ κ) (current : List (Visit δ κ)) (call : Call δ κ) :
    countPage devices call (nextVisit devices current call).page
        ((standing devices current).healthEnabledCount, (standing devices current).healthStaleCount) =
      ((standing devices (current ++ [nextVisit devices current call])).healthEnabledCount,
        (standing devices (current ++ [nextVisit devices current call])).healthStaleCount) := by
  rw [countPage_eq]
  simp only [standing, List.flatMap_append, List.flatMap_singleton, List.countP_append, List.map_append,
    List.map_singleton, List.sum_append, List.sum_singleton]
  rfl

theorem finish_sweep {devices : Devices δ κ} {current : List (Visit δ κ)} {call : Call δ κ}
    {rest : List (Capability δ κ)} (h : IsUnderway devices current)
    (hsplit : Keyset.ordered Capability.key devices.capabilities = current.flatMap Visit.page ++ rest)
    (hlast : rest.length ≤ call.limit) :
    IsSweep devices (current ++ [nextVisit devices current call]) ∧
      (observationHealth devices (some (standing devices current)) call).1 = .initial := by
  have hpage : (nextVisit devices current call).page = rest := by
    exact (standing_processed hsplit call.limit).trans (List.take_of_length_le hlast)
  have hcomplete : ((standing devices current).page devices call.limit).length ≤ call.limit := by
    rw [standing_page hsplit, List.length_take]
    exact (min_le_right _ _).trans hlast
  have hvisited : (current ++ [nextVisit devices current call]).flatMap Visit.page =
      Keyset.ordered Capability.key devices.capabilities := by
    rw [List.flatMap_append, List.flatMap_singleton, hpage, hsplit]
  have hcameras : (standing devices (current ++ [nextVisit devices current call])).healthEnabledCount =
      cameraCount devices := by
    change ((current ++ [nextVisit devices current call]).flatMap Visit.page).countP _ = _
    rw [hvisited]
    exact (sortBy_perm _ devices.capabilities).countP_eq _
  refine ⟨⟨hvisited, ⟨current, _, rfl, h.reports, ?_, ?_⟩, ?_⟩, ?_⟩
  · exact decide_eq_true hcomplete
  · have hcounts := standing_counts devices current call
    rw [hcameras] at hcounts
    have hreport : (nextVisit devices current call).health.cameraCounts =
        some (countPage devices call (nextVisit devices current call).page
          ((standing devices current).healthEnabledCount, (standing devices current).healthStaleCount)) :=
      if_pos (decide_eq_true hcomplete)
    exact hreport.trans (congrArg some hcounts)
  · rw [List.length_append, List.length_singleton]
    exact h.length_lt
  · simp [observationHealth, hcomplete, ScanState.initial]

theorem observationHealth_more {devices : Devices δ κ} {state : ScanState δ κ} {call : Call δ κ}
    (h : ¬(state.page devices call.limit).length ≤ call.limit) :
    (observationHealth devices (some state) call).1 =
      { healthDeviceCursor := (state.processed devices call.limit).getLast?.map Capability.deviceId
        healthCapabilityCursor := (state.processed devices call.limit).getLast?.map Capability.capabilityId
        healthScanStartedAt := some (state.healthScanStartedAt.getD call.time)
        healthEnabledCount := (countPage devices call (state.processed devices call.limit)
          (state.healthEnabledCount, state.healthStaleCount)).1
        healthStaleCount := (countPage devices call (state.processed devices call.limit)
          (state.healthEnabledCount, state.healthStaleCount)).2 } := by
  simp [observationHealth, h]

/-- **Any other page moves the sweep on**, by at least one capability. -/
theorem continue_sweep {devices : Devices δ κ} {current : List (Visit δ κ)} {call : Call δ κ}
    {rest : List (Capability δ κ)} (h : IsUnderway devices current)
    (hsplit : Keyset.ordered Capability.key devices.capabilities = current.flatMap Visit.page ++ rest)
    (hmore : call.limit < rest.length) :
    IsUnderway devices (current ++ [nextVisit devices current call]) ∧
      (observationHealth devices (some (standing devices current)) call).1 =
        standing devices (current ++ [nextVisit devices current call]) := by
  have hpage : (nextVisit devices current call).page = rest.take call.limit := standing_processed hsplit call.limit
  have hcomplete : ¬((standing devices current).page devices call.limit).length ≤ call.limit := by
    rw [standing_page hsplit, List.length_take]
    omega
  have hpositive := call.positive
  have hnonempty : (nextVisit devices current call).page ≠ [] := by
    rw [hpage, ← List.length_pos_iff, List.length_take]
    omega
  have hlast : (nextVisit devices current call).page.getLast? =
      ((current ++ [nextVisit devices current call]).flatMap Visit.page).getLast? := by
    obtain ⟨last, hsome⟩ := Option.isSome_iff_exists.mp (List.getLast?_isSome.mpr hnonempty)
    rw [List.flatMap_append, List.flatMap_singleton, List.getLast?_append, hsome]
    rfl
  have hpartial : (nextVisit devices current call).IsPartial := by
    exact ⟨decide_eq_false hcomplete, if_neg (by simp [hcomplete])⟩
  refine ⟨⟨⟨rest.drop call.limit, ?_, fun _ => ?_⟩, ?_, ?_⟩, ?_⟩
  · rw [List.flatMap_append, List.flatMap_singleton, hpage, List.append_assoc, List.take_append_drop, hsplit]
  · rw [← List.length_pos_iff, List.length_drop]
    omega
  · intro v hv
    rcases List.mem_append.mp hv with hv | hv
    · exact h.pages v hv
    · exact List.mem_singleton.mp hv ▸ hnonempty
  · intro v hv
    rcases List.mem_append.mp hv with hv | hv
    · exact h.reports v hv
    · exact List.mem_singleton.mp hv ▸ hpartial
  · have hcounts := standing_counts devices current call
    have hstarted : (current ++ [nextVisit devices current call]).head?.map (fun v => v.call.time) =
        some ((current.head?.map fun v => v.call.time).getD call.time) := by
      cases current with
      | nil => rfl
      | cons v current => rfl
    rw [observationHealth_more hcomplete, ScanState.mk.injEq]
    exact ⟨congrArg _ hlast, congrArg _ hlast, hstarted.symm, congrArg Prod.fst hcounts, congrArg Prod.snd hcounts⟩

def Swept (devices : Devices δ κ) (row : Option (ScanState δ κ)) (visits : List (Visit δ κ)) : Prop :=
  ∃ (finished : List (List (Visit δ κ))) (current : List (Visit δ κ)), visits = finished.flatten ++ current ∧
    (∀ sweep ∈ finished, IsSweep devices sweep) ∧ IsUnderway devices current ∧
    row.getD .initial = standing devices current

theorem Swept.start (devices : Devices δ κ) : Swept devices none [] :=
  ⟨[], [], rfl, fun _ h => absurd h List.not_mem_nil, .nil devices, rfl⟩

theorem Swept.attempt {devices : Devices δ κ} {row : Option (ScanState δ κ)} {visits : List (Visit δ κ)}
    (h : Swept devices row visits) (call : Call δ κ) :
    Swept devices (attempt devices row call).1 (visits ++ (attempt devices row call).2.toList) := by
  obtain ⟨finished, current, rfl, hfinished, hcurrent, hrow⟩ := h
  cases hcommits : call.commits with
  | false =>
    rw [Health.attempt, if_neg (by simp [hcommits])]
    exact ⟨finished, current, List.append_nil _, hfinished, hcurrent, hrow⟩
  | true =>
    have hattempt : Health.attempt devices row call =
        (some (observationHealth devices (some (standing devices current)) call).1,
          some (nextVisit devices current call)) := by
      rw [Health.attempt, if_pos hcommits, nextVisit, ← hrow]
      rfl
    rw [hattempt]
    obtain ⟨rest, hsplit, -⟩ := hcurrent.visited
    rcases Nat.lt_or_ge call.limit rest.length with hmore | hlast
    · obtain ⟨hnext, hstate⟩ := continue_sweep hcurrent hsplit hmore
      exact ⟨finished, _, List.append_assoc _ _ _, hfinished, hnext, hstate⟩
    · obtain ⟨hdone, hstate⟩ := finish_sweep hcurrent hsplit hlast
      refine ⟨finished ++ [current ++ [nextVisit devices current call]], [], ?_, ?_, .nil devices, hstate⟩
      · simp [List.append_assoc]
      · intro sweep hsweep
        rcases List.mem_append.mp hsweep with hsweep | hsweep
        · exact hfinished sweep hsweep
        · exact List.mem_singleton.mp hsweep ▸ hdone

theorem Swept.run {devices : Devices δ κ} {row : Option (ScanState δ κ)} {visits : List (Visit δ κ)}
    (h : Swept devices row visits) (calls : List (Call δ κ)) :
    Swept devices (run devices row calls).1 (visits ++ (run devices row calls).2) := by
  induction calls generalizing row visits with
  | nil => simpa [Health.run] using h
  | cons call calls ih =>
    have hnext := ih (h.attempt call)
    rw [List.append_assoc] at hnext
    exact hnext

/-- **The calls that committed are sweeps after one another, and one that is underway.** Each sweep went through
every capability once, in no more calls than there are capabilities; its last call, and no other, returned counts:
all cameras, and those that were stale when their page was looked at. The one underway has fewer calls than that,
and the row holds its own counts: nothing, if it has not begun. -/
theorem sweeps_complete (devices : Devices δ κ) (calls : List (Call δ κ)) :
    ∃ (finished : List (List (Visit δ κ))) (current : List (Visit δ κ)),
      (run devices none calls).2 = finished.flatten ++ current ∧
      (∀ sweep ∈ finished, IsSweep devices sweep) ∧
      IsUnderway devices current ∧ current.length < max 1 devices.capabilities.length ∧
      (run devices none calls).1.getD .initial = standing devices current := by
  obtain ⟨finished, current, hvisits, hfinished, hcurrent, hrow⟩ := (Swept.start devices).run calls
  exact ⟨finished, current, hvisits, hfinished, hcurrent, hcurrent.length_lt, hrow⟩

end Albusforge.Observations.Health
