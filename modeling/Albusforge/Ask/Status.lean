import Albusforge.Ask.Context

/-!
# One device, two statuses

`DEVICE_COLUMNS` of `apps/gateway/src/telemetry-read.ts` is what the dashboard shows of a device: whether its
credential is revoked, and whether it is heard of through each of its capabilities, counts. The chat goes by
the last packet alone. **The two say the same exactly where the last packet is recent when, and only when, the
dashboard has the device as well** (`status_agrees_iff`).
-/

namespace Albusforge.Ask

open Lib Lib.Json

variable {ν : Type} [JsonNumber ν]

/-! ## The dashboard -/

/-- `GREATEST`, in which `NULL` does not count. -/
def greatest : Option ℤ → Option ℤ → Option ℤ
  | none, b => b
  | some a, none => some a
  | some a, some b => some (max a b)

section

variable (db : Tables ν) (d : DeviceRow ν) (now : ℤ)

omit [JsonNumber ν]

def received : Option ℤ :=
  greatest d.lastSeenAt ((db.presence.filter fun p => p.deviceId = d.id).map PresenceRow.lastReceivedAt).max?

/-- `make_interval(secs => ...)` for a capability, in microseconds. -/
def allowance (c : CapabilityRow) : ℤ :=
  (if c.kind = js "image" then c.intervalS * 2 + 300 else max 60 (c.intervalS * 3)) * 1000000

def Tables.presenceOf (c : CapabilityRow) : Option PresenceRow :=
  db.presence.find? fun p => p.deviceId = c.deviceId && p.capabilityId = c.capabilityId

/-- `LEAST(p.last_received_at,p.last_capture_at)` is not too old. -/
def isFresh (c : CapabilityRow) (p : PresenceRow) : Bool :=
  now - allowance c ≤ min p.lastReceivedAt p.lastCaptureAt

def Tables.capabilitiesOf : List CapabilityRow := db.capabilities.filter fun c => c.deviceId = d.id

/-- `STALE` -/
def isStale : Bool :=
  (db.capabilitiesOf d).any fun c => c.required && (!c.enabled ||
    match db.presenceOf c with
    | none => true
    | some p => !isFresh now c p)

def hasCapabilities : Bool := !(db.capabilitiesOf d).isEmpty

def hasRequired : Bool := (db.capabilitiesOf d).any CapabilityRow.required

def healthySource : Bool :=
  (db.capabilitiesOf d).any fun c => c.enabled &&
    match db.presenceOf c with
    | none => false
    | some p => isFresh now c p

/-- `RECEIVED >= CURRENT_TIMESTAMP - make_interval(secs => greatest(60,next_s*3))` -/
def receivedRecently : Bool :=
  match received db d with
  | none => false
  | some moment => now - max 60 (d.nextS * 3) * 1000000 ≤ moment

/-- The `status` of `DEVICE_COLUMNS`. -/
def dashboardStatus : Status :=
  if received db d = none then .neverSeen
  else if d.revokedAt.isSome || isStale db d now then .offline
  else if hasCapabilities db d then if hasRequired db d || healthySource db d now then .online else .offline
  else if receivedRecently db d now then .online
  else .offline

/-! ## Where they agree -/

def PacketRecent (seen : ℤ) : Prop := toDate now - toDate seen ≤ staleMs d.nextS

/-- The credential stands, every required capability is enabled and heard of, and so is the device. -/
structure Well : Prop where
  authorized : d.revokedAt = none
  required : isStale db d now = false
  source : hasCapabilities db d = true → hasRequired db d = true ∨ healthySource db d now = true
  plain : hasCapabilities db d = false → receivedRecently db d now = true

def Agreeing : Prop :=
  match d.lastSeenAt with
  | none => ∀ p ∈ db.presence, p.deviceId ≠ d.id
  | some seen => PacketRecent d now seen ↔ Well db d now

end

section

omit [JsonNumber ν]

variable {db : Tables ν} {d : DeviceRow ν} {now seen : ℤ}

theorem received_some (h : d.lastSeenAt = some seen) : received db d ≠ none := by
  rw [received, h]
  generalize ((db.presence.filter fun p => p.deviceId = d.id).map PresenceRow.lastReceivedAt).max? = m
  cases m <;> simp [greatest]

theorem received_none (h : d.lastSeenAt = none) :
    received db d = none ↔ ∀ p ∈ db.presence, p.deviceId ≠ d.id := by
  simp [received, h, greatest, List.max?_eq_none_iff]

/-- **The dashboard has a device online exactly where it is well.** -/
theorem dashboard_online_iff (h : received db d ≠ none) : dashboardStatus db d now = .online ↔ Well db d now := by
  rw [dashboardStatus, if_neg h]
  by_cases hbad : (d.revokedAt.isSome || isStale db d now) = true
  · rw [if_pos hbad]
    refine ⟨fun hoff => absurd hoff (by decide), fun hwell => ?_⟩
    simp [hwell.authorized, hwell.required] at hbad
  · rw [if_neg hbad]
    simp only [Bool.or_eq_true, not_or, Bool.not_eq_true, Option.isSome_eq_false_iff, Option.isNone_iff_eq_none] at hbad
    by_cases hcaps : hasCapabilities db d = true
    · rw [if_pos hcaps]
      by_cases hsource : (hasRequired db d || healthySource db d now) = true
      · rw [if_pos hsource]
        exact ⟨fun _ => ⟨hbad.1, hbad.2, fun _ => Bool.or_eq_true_iff.mp hsource, fun hno => by simp [hcaps] at hno⟩,
          fun _ => rfl⟩
      · rw [if_neg hsource]
        exact ⟨fun hoff => absurd hoff (by decide),
          fun hwell => absurd (Bool.or_eq_true_iff.mpr (hwell.source hcaps)) hsource⟩
    · rw [if_neg hcaps]
      have hno := Bool.eq_false_iff.mpr hcaps
      by_cases hrecent : receivedRecently db d now = true
      · rw [if_pos hrecent]
        exact ⟨fun _ => ⟨hbad.1, hbad.2, fun hyes => absurd hyes hcaps, fun _ => hrecent⟩, fun _ => rfl⟩
      · rw [if_neg hrecent]
        exact ⟨fun hoff => absurd hoff (by decide), fun hwell => absurd (hwell.plain hno) hrecent⟩

theorem dashboard_heard (h : received db d ≠ none) :
    dashboardStatus db d now = .online ∨ dashboardStatus db d now = .offline := by
  rw [dashboardStatus, if_neg h]
  split_ifs <;> simp

theorem agrees_iff : chatStatus d.lastSeenAt d.nextS (toDate now) = dashboardStatus db d now ↔ Agreeing db d now := by
  unfold Agreeing
  rcases hseen : d.lastSeenAt with _ | seen
  · simp only [chatStatus]
    rw [← received_none hseen]
    constructor
    · intro heq
      by_contra hheard
      have hstatus : dashboardStatus db d now = .online ∨ dashboardStatus db d now = .offline := dashboard_heard hheard
      rcases hstatus with hstatus | hstatus <;> simp [hstatus] at heq
    · intro hnone
      rw [dashboardStatus, if_pos hnone]
  · have hheard : received db d ≠ none := received_some hseen
    have honline : dashboardStatus db d now = .online ↔ Well db d now := dashboard_online_iff hheard
    simp only [chatStatus]
    by_cases hrecent : toDate now - toDate seen ≤ staleMs d.nextS
    · rw [if_pos hrecent, eq_comm, honline]
      exact ⟨fun hwell => ⟨fun _ => hwell, fun _ => hrecent⟩, fun hiff => hiff.mp hrecent⟩
    · rw [if_neg hrecent]
      constructor
      · intro hoff
        refine ⟨fun h => absurd h hrecent, fun hwell => ?_⟩
        rw [honline.mpr hwell] at hoff
        cases hoff
      · intro hiff
        have hstatus : dashboardStatus db d now = .online ∨ dashboardStatus db d now = .offline := dashboard_heard hheard
        rcases hstatus with hstatus | hstatus
        · exact absurd (hiff.mpr (honline.mp hstatus)) hrecent
        · exact hstatus.symm

end

/-- **The chat's status is the dashboard's exactly on these devices.** -/
theorem status_agrees_iff (db : Tables ν) (q : Scope) (now : ℤ) (c : DeviceContext ν) (h : context db q now = .ok c) :
    ∃ d, db.device q = some d ∧ (c.status = dashboardStatus db d now ↔ Agreeing db d now) := by
  obtain ⟨d, hd, hstatus, -⟩ := context_ok h
  exact ⟨d, hd, hstatus ▸ agrees_iff⟩

/-! ## A revoked device -/

def revokedDevice : DeviceRow ℚ where
  id := js "d"
  tenantId := js "t"
  displayName := none
  channels := ⟨[(js "temperature", ⟨js "C", -40, 85⟩)], by decide⟩
  nextS := 60
  revokedAt := some 1800000000000000
  lastSeenAt := some 1800000000000000
  status := none

def revokedTables : Tables ℚ := ⟨[revokedDevice], [(js "t", js "u")], [], [], [], some 0⟩

def revokedScope : Scope := ⟨js "t", js "d", js "u"⟩

theorem revoked_device : revokedTables.device revokedScope = some revokedDevice := List.find?_cons_of_pos (by decide)

theorem revoked_context : ∃ c, context revokedTables revokedScope 1800000010000000 = .ok c := by
  have hauth : authorize revokedTables revokedScope = .ok revokedDevice.channels := by
    have hmember : (revokedScope.tenantId, revokedScope.actorId) ∈ revokedTables.members := by decide
    have haccepted : revokedDevice.channels.accepted = true := by decide +kernel
    rw [authorize, revoked_device]
    dsimp only
    rw [if_pos hmember, if_pos haccepted]
  rw [context, hauth, revoked_device]
  exact ⟨_, rfl⟩

theorem status_agrees_bench : ∃ c d, context revokedTables revokedScope 1800000010000000 = .ok c ∧
    (c.status = dashboardStatus revokedTables d 1800000010000000 ↔ Agreeing revokedTables d 1800000010000000) := by
  obtain ⟨c, hc⟩ := revoked_context
  obtain ⟨d, -, hiff⟩ := status_agrees_iff revokedTables revokedScope 1800000010000000 c hc
  exact ⟨c, d, hc, hiff⟩

/-- **The chat has it online, and the dashboard offline.** -/
theorem revoked_online : ¬ ∀ (db : Tables ℚ) (q : Scope) (now : ℤ) (c : DeviceContext ℚ) (d : DeviceRow ℚ),
    context db q now = .ok c → db.device q = some d → c.status = dashboardStatus db d now := by
  intro hall
  obtain ⟨c, hc⟩ := revoked_context
  obtain ⟨d, hd, hstatus, -⟩ := context_ok hc
  obtain rfl := Option.some.inj (revoked_device.symm.trans hd)
  have heq := hall revokedTables revokedScope 1800000010000000 c revokedDevice hc revoked_device
  have hchat : chatStatus revokedDevice.lastSeenAt revokedDevice.nextS (toDate 1800000010000000) = .online := by decide
  have hdashboard : dashboardStatus revokedTables revokedDevice 1800000010000000 = .offline := by decide
  rw [hstatus, hchat, hdashboard] at heq
  cases heq

end Albusforge.Ask
