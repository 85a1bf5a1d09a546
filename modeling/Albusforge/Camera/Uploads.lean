import Mathlib
import Albusforge.Lib.Machine
import Albusforge.Camera.Owner
import Albusforge.Camera.Storing

/-!
# The two tasks of the spool

`capture_task` and `upload_task` of `src/firmware/esp32s3-camera/main/camera_runtime.c`, each
section under `spool_lock` one step. Between its sections the upload task holds a record and its
image, and the record's id stands in `claimed`; captures go on meanwhile.

The sections are taken apart where they scan the spool, so that a scan may be answered otherwise
than the rest of a section: `scans` is what it is answered by.

cJSON and SHA-256 are not part of the repository: `parse` finds what an acknowledgement has under
a key, and `digest` is the digest.
-/

namespace Albusforge.Camera

open Lib Lib.Disk Lib.Proc

theorem sdcard_chars : 0 ∉ chars "/sdcard" := by decide

def sdcard : CString := ⟨chars "/sdcard", sdcard_chars⟩

/-- `SPOOL` -/
def spoolDir : Bytes := chars "/sdcard/albus-observations"

/-- `QUARANTINE` -/
def quarantineDir : Bytes := chars "/sdcard/albus-quarantine"

/-! ## Responses -/

inductive JsonItem
  | string (s : Bytes)
  | number (x : ℚ)
  | other
  deriving DecidableEq

/-- `response_buffer` -/
structure Response where
  body : Bytes
  overflow : Bool

/-- How a request came out; `none` when it was not sent. -/
structure HttpOutcome where
  status : ℤ
  response : Response

def field (ack : Bytes → Option JsonItem) (key : Bytes) (maximum : ℕ) : Option Bytes :=
  match ack key with
  | some (.string s) => if s ≠ [] ∧ s.length ≤ maximum then some s else none
  | _ => none

def exactAck (parse : Bytes → Option (Bytes → Option JsonItem)) (response : Response)
    (record : ObsRecord) : Bool :=
  if response.overflow || response.body.isEmpty then false
  else match parse response.body with
    | none => false
    | some ack =>
        field ack (chars "observation_id") 36 = some record.id &&
          field ack (chars "sha256") 64 = some record.sha256 &&
          field ack (chars "state") 16 = some (chars "stored") &&
          (field ack (chars "received_at") 40).isSome && ack (chars "bytes") = some (.number record.bytes)

inductive ObsAction
  | retry
  | ack
  | dropExpired
  | quarantine
  | pause
  deriving DecidableEq

def obsResponseAction (status : ℤ) (exact : Bool) : ObsAction :=
  if (status = 200 ∨ status = 201) ∧ exact = true then .ack
  else if status = 410 then .dropExpired
  else if status = 401 ∨ status = 403 then .pause
  else if status = 400 ∨ status = 409 ∨ status = 413 ∨ status = 415 ∨ status = 422 then .quarantine
  else .retry

/-! ## Sections under the lock -/

def ownerValid (esp : Bool) (owner : OwnerIdentity) : DiskProc Bool :=
  return (← obsOwnerCheck esp (some sdcard) (some owner) false) = .ok

def captureRest (record : ObsRecord) (bytes : Bytes) (scan : Scan) : DiskProc Bool :=
  if scan.ok then obsSpoolPut spoolDir record bytes else return false

/-- The section of `capture_task`. -/
def captureSection (esp : Bool) (owner : OwnerIdentity) (rounds : ℕ) (claimed : Bytes)
    (record : ObsRecord) (bytes : Bytes) : DiskProc Bool := do
  if ← ownerValid esp owner then
    captureRest record bytes
      (← obsSpoolScan rounds spoolDir record.capturedAt (some claimed) record.bytes)
  else return false

/-- The upload's first section, after its scan of the spool: what stands in `claimed`, and what
was read. -/
def claimRest (rounds : ℕ) (now : ℤ) (claimed : Bytes) (scan : Scan) :
    DiskProc (Bytes × Option (ObsRecord × Bytes)) := do
  if !scan.ok then return (claimed, none)
  let quarantine ← obsQuarantineScan rounds quarantineDir now
  if !quarantine.ok then return (claimed, none)
  match scan.pass.candidate with
  | none => return (claimed, none)
  | some record => return (record.id, ← obsSpoolRead spoolDir record.id true)

/-- The first section of `upload_task`; it looks at the clock twice. -/
def claimSection (esp : Bool) (owner : OwnerIdentity) (rounds rounds' : ℕ) (now now' : ℤ)
    (claimed : Bytes) : DiskProc (Bytes × Option (ObsRecord × Bytes)) := do
  if ← ownerValid esp owner then
    claimRest rounds' now' claimed (← obsSpoolScan rounds spoolDir now none 0)
  else return (claimed, none)

def corruptSection (esp : Bool) (owner : OwnerIdentity) (record : ObsRecord) : DiskProc Unit := do
  if ← ownerValid esp owner then
    let _ ← obsSpoolRemove spoolDir record.id

/-- The last section of `upload_task`. -/
def finishSection (esp : Bool) (owner : OwnerIdentity) (rounds : ℕ) (now : ℤ) (record : ObsRecord)
    (action : ObsAction) : DiskProc Unit := do
  if ← ownerValid esp owner then
    match action with
    | .ack => let _ ← obsSpoolRemove spoolDir record.id
    | .dropExpired => let _ ← obsSpoolRemove spoolDir record.id
    | .quarantine => let _ ← obsSpoolQuarantine rounds spoolDir quarantineDir record now
    | .retry => return ()
    | .pause => return ()

/-! ## The tasks -/

structure SpoolTasks where
  disk : Disk
  claimed : Bytes
  /-- The record that `upload_task` holds, with its image. -/
  upload : Option (ObsRecord × Bytes)

inductive SpoolEvent
  | capture (record : ObsRecord) (stored : Bool)
  | claim (now : ℤ) (taken : Option ObsRecord)
  | corrupt (record : ObsRecord)
  | finish (record : ObsRecord) (outcome : Option HttpOutcome)

section

variable (esp : Bool) (owner : OwnerIdentity) (digest : Bytes → Bytes)
  (parse : Bytes → Option (Bytes → Option JsonItem)) (scans : Surroundings DiskOp.Ret Disk)

def actionOf (record : ObsRecord) : Option HttpOutcome → ObsAction
  | none => .retry
  | some outcome => obsResponseAction outcome.status (exactAck parse outcome.response record)

inductive SpoolStep : SpoolTasks → SpoolEvent → SpoolTasks → Prop
  | captureDenied {s : SpoolTasks} {record : ObsRecord} {d : Disk} :
      Exec serves s.disk (ownerValid esp owner) d (some false) →
      SpoolStep s (.capture record false) { s with disk := d }
  | capture {s : SpoolTasks} {record : ObsRecord} {bytes : Bytes} {rounds : ℕ} {d d' d'' : Disk} {scan : Scan}
      {stored : Bool} : record.bytes = bytes.length → record.sha256 = digest bytes →
      Exec serves s.disk (ownerValid esp owner) d (some true) →
      Exec scans d (obsSpoolScan rounds spoolDir record.capturedAt (some s.claimed) record.bytes) d'
        (some scan) →
      Exec serves d' (captureRest record bytes scan) d'' (some stored) →
      SpoolStep s (.capture record stored) { s with disk := d'' }
  | claimDenied {s : SpoolTasks} {now : ℤ} {d : Disk} : s.upload = none →
      Exec serves s.disk (ownerValid esp owner) d (some false) →
      SpoolStep s (.claim now none) { s with disk := d }
  | claim {s : SpoolTasks} {rounds rounds' : ℕ} {now now' : ℤ} {d d' d'' : Disk} {scan : Scan}
      {claimed : Bytes} {taken : Option (ObsRecord × Bytes)} : s.upload = none →
      Exec serves s.disk (ownerValid esp owner) d (some true) →
      Exec scans d (obsSpoolScan rounds spoolDir now none 0) d' (some scan) →
      Exec serves d' (claimRest rounds' now' s.claimed scan) d'' (some (claimed, taken)) →
      SpoolStep s (.claim now (taken.map Prod.fst)) ⟨d'', claimed, taken⟩
  | corrupt {s : SpoolTasks} {record : ObsRecord} {bytes : Bytes} {d : Disk} :
      s.upload = some (record, bytes) → digest bytes ≠ record.sha256 →
      Exec serves s.disk (corruptSection esp owner record) d (some ()) →
      SpoolStep s (.corrupt record) ⟨d, [], none⟩
  | finish {s : SpoolTasks} {record : ObsRecord} {bytes : Bytes} {outcome : Option HttpOutcome} {rounds : ℕ}
      {now : ℤ} {d : Disk} : s.upload = some (record, bytes) → digest bytes = record.sha256 →
      Exec serves s.disk (finishSection esp owner rounds now record (actionOf parse record outcome)) d
        (some ()) →
      SpoolStep s (.finish record outcome) ⟨d, [], none⟩

def spool : Machine SpoolTasks SpoolEvent where
  init s := s.claimed = [] ∧ s.upload = none
  step := SpoolStep esp owner digest parse scans

end

section

variable {esp : Bool} {owner : OwnerIdentity} {rounds rounds' : ℕ} {claimed bytes : Bytes}
  {record : ObsRecord} {d d' : Disk} {now now' : ℤ}

end

/-! ## What the sections do -/

section

variable {esp : Bool} {owner : OwnerIdentity} {d d' : Disk} {id : Bytes} {r : ObsRecord}

theorem ownerValid_wp : wp serves (ownerValid esp owner) (fun _ d' => d' = d) (fun _ => True) d := by
  refine wp_bind (wp_mono ?_ (fun _ _ => trivial) check_reads)
  intro status d' h
  exact ⟨h.1, trivial⟩

structure Put (record : ObsRecord) (bytes : Bytes) (ok : Bool) (d d' : Disk) : Prop where
  others : ∀ p, p ≠ obsPath spoolDir record.id → p ≠ Path.child spoolDir (record.id ++ partSuffix) →
    d' p = d p
  kept : (d (obsPath spoolDir record.id)).isSome = true →
    d' (obsPath spoolDir record.id) = d (obsPath spoolDir record.id)
  stored : ok = true → record.bytes ≠ 0 ∧ d (obsPath spoolDir record.id) = none ∧
    ∃ c, d'.content (obsPath spoolDir record.id) = some c ∧ c.length = headerSize + bytes.length

theorem put_wp {record : ObsRecord} {bytes : Bytes} :
    wp serves (obsSpoolPut spoolDir record bytes) (fun ok d' => Put record bytes ok d d')
      (fun _ => True) d := by
  refine wp_mono ?_ (fun _ _ => trivial) obsSpoolPut_wp
  intro ok d' h
  obtain ⟨hputting, hstored⟩ := h
  refine ⟨hputting.others, ?_, ?_⟩
  · intro hsome
    rcases hputting.whole with hsame | ⟨hnone, -⟩
    · exact hsame
    · rw [hnone] at hsome
      exact absurd hsome (by simp)
  · intro hok
    obtain ⟨hnone, hstorable, -, raw, hraw, hfile⟩ := hstored hok
    refine ⟨hstorable.some, hnone, raw ++ bytes, by simp [Disk.content, hfile], ?_⟩
    rw [List.length_append, headerBytes_length hraw]

end

end Albusforge.Camera
