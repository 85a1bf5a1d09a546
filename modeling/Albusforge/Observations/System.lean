import Albusforge.Lib.Machine
import Albusforge.Observations.Maintain

/-!
# Uploads, sweeps and the store together

Any number of uploads and sweeps, each a task that goes from one of its transactions or requests to
the next and may stop anywhere. A request to the store is served whenever the store comes to it, also
when nobody waits for the answer any more: the task then never goes on. The store creates an object
where there is none and deletes it for its generation, and no two objects have one generation.

A sweep runs its items one after the other and one sweep at a time; here the items are tasks of their
own, so that sweeps may overlap as well. Clocks are read anew at each transaction and may say anything.
Only one lock per device is taken, and every transaction that writes a device's rows takes it first, so
that a transaction is one step.
-/

namespace Albusforge.Observations

open Lib Cloudlink

inductive Task
  | idle
  | admitted (q : Upload) (granted : Granted)
  | creating (a : Attempt)
  | existing (a : Attempt)
  | holding (a : Attempt) (object : StoredObject)
  | claimed (c : Claim)
  | headed (c : Claim) (object : Option StoredObject)
  | listed (key : Text) (generation : Option ℕ)
  | checked (key : Text) (generation : Option ℕ)
  | deleting (key : Text) (listed : Option ℕ) (generation : ℕ)
  | removed (key : Text) (listed : Option ℕ)
  | orphan (key : Text) (generation : ℕ)

structure Acceptance where
  device : Text
  observation : Text
  day : ℤ
  bytes : ℕ
  lease : ℕ
  time : ℤ

inductive Shown
  | quiet
  | rejected (q : Upload) (e : Rejection)
  | acknowledged (q : Upload) (ack : Ack)
  | accepted (q : Upload) (ack : Ack) (x : Acceptance)
  | finalized (x : Acceptance)
  | deleted (key : Text) (object : StoredObject)

structure Event where
  task : Option ℕ
  shown : Shown

structure Service where
  devices : Text → Slot
  intents : Text → Option Intent
  objects : Text → Option StoredObject
  tasks : ℕ → Task
  /-- `randomUUID()` gives no lease twice. -/
  nextLease : ℕ
  nextGeneration : ℕ

namespace Service

def setTask (s : Service) (i : ℕ) (t : Task) : Service := { s with tasks := Function.update s.tasks i t }

def setDevice (s : Service) (id : Text) (slot : Slot) : Service :=
  { s with devices := Function.update s.devices id slot }

def newLease (s : Service) : Service := { s with nextLease := s.nextLease + 1 }

/-- `create`, where there is no object. -/
def newObject (s : Service) (key : Text) (object : StoredObject) : Service :=
  { s with
    objects := Function.update s.objects key (some object)
    nextGeneration := s.nextGeneration + 1 }

def removeObject (s : Service) (key : Text) : Service :=
  { s with objects := Function.update s.objects key none }

def dropImages (s : Service) (images : List Image) : Service :=
  { s with intents := images.foldl queueImageDeletion s.intents }

/-- `DELETE FROM telemetry.observation_deletion_intents ... generation IS NOT DISTINCT FROM $2` -/
def unqueue (s : Service) (key : Text) (generation : Option ℕ) : Service :=
  { s with
    intents := Function.update s.intents key
      ((s.intents key).filter fun x => x.generation ≠ generation) }

/-- `INSERT INTO telemetry.observation_deletion_intents ... ON CONFLICT DO UPDATE`, of an orphan. -/
def queueOrphan (s : Service) (key : Text) (generation : ℕ) : Service :=
  { s with
    intents := Function.update s.intents key
      (some ⟨(s.intents key).bind Intent.generation <|> some generation⟩) }

/-- `SELECT 1 FROM telemetry.observation_images WHERE object_key=$1` -/
def HasImage (s : Service) (key : Text) : Prop :=
  ∃ id device r i, s.devices id = .alive device ∧ r ∈ device.receipts.rows ∧ r.image = some i ∧
    i.objectKey = key

@[simp] theorem setDevice_self {s : Service} {id : Text} {slot : Slot} :
    (s.setDevice id slot).devices id = slot := Function.update_self ..

@[simp] theorem setTask_self {s : Service} {i : ℕ} {t : Task} : (s.setTask i t).tasks i = t :=
  Function.update_self ..

@[simp] theorem setTask_devices {s : Service} {i : ℕ} {t : Task} :
    (s.setTask i t).devices = s.devices := rfl

end Service

structure Device.New (d : Device) : Prop where
  receipts : d.receipts.rows = []
  usage : ∀ day, d.usage day = none

section

variable (tokenHash : Text → Text) (digest : List UInt8 → Text)
  (validateJpeg : List UInt8 → ℕ → ℕ → Option (ℕ × ℕ)) (limits : Limits) (options : UploadOptions)

def reserveSlot (a : Attempt) (admitted : ℤ) (fenced : Bool) : Slot → Except Rejection Reserved
  | .alive d => reserve tokenHash digest limits options a admitted fenced d
  | _ => .error unauthorized

def finalizeSlot (a : Attempt) (object : StoredObject) (received : ℤ) :
    Slot → Except Rejection (Ack × Device)
  | .alive d => finalize tokenHash a object received d
  | _ => .error unauthorized

structure Service.Ready (s : Service) (i : ℕ) (a : Attempt) : Prop where
  admitted : s.tasks i = .admitted a.upload a.granted
  valid : validate digest validateJpeg a.upload a.granted = .ok (a.width, a.height)
  lease : a.lease = s.nextLease

def Attempt.object (a : Attempt) (generation : ℕ) : StoredObject :=
  ⟨generation, a.bytes, digest a.upload.body, a.fingerprint tokenHash⟩

inductive ServiceStep : Service → Event → Service → Prop
  | provision {s : Service} {id : Text} {d : Device} : s.devices id = .unborn → d.New →
      ServiceStep s ⟨none, .quiet⟩ (s.setDevice id (.alive d))
  | change {s : Service} {id : Text} {d : Device} {hash : Text} {revoked : Bool}
      {capabilities : Text → Option ImageCapability} : s.devices id = .alive d →
      ServiceStep s ⟨none, .quiet⟩ (s.setDevice id (.alive { d with
        tokenHash := hash, revoked := revoked, capabilities := capabilities }))
  | delete {s : Service} {id : Text} {d : Device} : s.devices id = .alive d →
      ServiceStep s ⟨none, .quiet⟩ ((s.setDevice id .deleted).dropImages (d.receipts.rows.filterMap Receipt.image))
  -- an upload
  | onRequest {s : Service} {i : ℕ} {q : Upload} {time : ℤ} {d d' : Device} {granted : Granted} :
      s.tasks i = .idle → s.devices (uuidOf q.metadata.deviceId) = .alive d →
      onRequest options q time d = (.ok granted, d') →
      ServiceStep s ⟨some i, .quiet⟩
        ((s.setDevice (uuidOf q.metadata.deviceId) (.alive d')).setTask i (.admitted q granted))
  | admitRefused {s : Service} {i : ℕ} {q : Upload} {time : ℤ} {d d' : Device} {e : Rejection} :
      s.tasks i = .idle → s.devices (uuidOf q.metadata.deviceId) = .alive d →
      onRequest options q time d = (.error e, d') →
      ServiceStep s ⟨some i, .rejected q e⟩ (s.setDevice (uuidOf q.metadata.deviceId) (.alive d'))
  | admitUnknown {s : Service} {i : ℕ} {q : Upload} : s.tasks i = .idle →
      (∀ d, s.devices (uuidOf q.metadata.deviceId) ≠ .alive d) →
      ServiceStep s ⟨some i, .rejected q unauthorized⟩ s
  | invalid {s : Service} {i : ℕ} {q : Upload} {granted : Granted} {e : Rejection} :
      s.tasks i = .admitted q granted → validate digest validateJpeg q granted = .error e →
      ServiceStep s ⟨some i, .rejected q e⟩ (s.setTask i .idle)
  | reserveRefused {s : Service} {i : ℕ} {a : Attempt} {admitted : ℤ} {e : Rejection} :
      s.Ready digest validateJpeg i a →
      reserveSlot tokenHash digest limits options a admitted (s.intents a.key).isSome (s.devices a.device) =
        .error e →
      ServiceStep s ⟨some i, .rejected a.upload e⟩ (s.setTask i .idle)
  | reserveAcknowledged {s : Service} {i : ℕ} {a : Attempt} {admitted : ℤ} {ack : Ack} :
      s.Ready digest validateJpeg i a →
      reserveSlot tokenHash digest limits options a admitted (s.intents a.key).isSome (s.devices a.device) =
        .ok (.acknowledged ack) →
      ServiceStep s ⟨some i, .acknowledged a.upload ack⟩ (s.setTask i .idle)
  | reserve {s : Service} {i : ℕ} {a : Attempt} {admitted : ℤ} {d : Device} :
      s.Ready digest validateJpeg i a →
      reserveSlot tokenHash digest limits options a admitted (s.intents a.key).isSome (s.devices a.device) =
        .ok (.reserved d) →
      ServiceStep s ⟨some i, .quiet⟩ ((s.newLease.setDevice a.device (.alive d)).setTask i (.creating a))
  | create {s : Service} {i : ℕ} {a : Attempt} : s.tasks i = .creating a → s.objects a.key = none →
      ServiceStep s ⟨some i, .quiet⟩ ((s.newObject a.key (a.object tokenHash digest s.nextGeneration)).setTask i
        (.holding a (a.object tokenHash digest s.nextGeneration)))
  | createUnanswered {s : Service} {i : ℕ} {a : Attempt} : s.tasks i = .creating a →
      s.objects a.key = none →
      ServiceStep s ⟨some i, .quiet⟩ ((s.newObject a.key (a.object tokenHash digest s.nextGeneration)).setTask i
        .idle)
  | createRefused {s : Service} {i : ℕ} {a : Attempt} {object : StoredObject} :
      s.tasks i = .creating a → s.objects a.key = some object →
      ServiceStep s ⟨some i, .quiet⟩ (s.setTask i (.existing a))
  | head {s : Service} {i : ℕ} {a : Attempt} {object : StoredObject} : s.tasks i = .existing a →
      s.objects a.key = some object → a.matches tokenHash digest object = true →
      ServiceStep s ⟨some i, .quiet⟩ (s.setTask i (.holding a object))
  | headConflict {s : Service} {i : ℕ} {a : Attempt} {object : StoredObject} :
      s.tasks i = .existing a → s.objects a.key = some object →
      a.matches tokenHash digest object = false →
      ServiceStep s ⟨some i, .rejected a.upload objectConflict⟩ (s.setTask i .idle)
  | headMissing {s : Service} {i : ℕ} {a : Attempt} : s.tasks i = .existing a →
      s.objects a.key = none →
      ServiceStep s ⟨some i, .rejected a.upload objectUnavailable⟩ (s.setTask i .idle)
  | finalizeRefused {s : Service} {i : ℕ} {a : Attempt} {object : StoredObject} {received : ℤ}
      {e : Rejection} : s.tasks i = .holding a object →
      finalizeSlot tokenHash a object received (s.devices a.device) = .error e →
      ServiceStep s ⟨some i, .rejected a.upload e⟩ (s.setTask i .idle)
  | finalize {s : Service} {i : ℕ} {a : Attempt} {object : StoredObject} {received : ℤ} {ack : Ack}
      {d : Device} : s.tasks i = .holding a object →
      finalizeSlot tokenHash a object received (s.devices a.device) = .ok (ack, d) →
      ServiceStep s ⟨some i, .accepted a.upload ack
          ⟨a.device, a.observation, dayOf received, a.bytes, a.lease, received⟩⟩
        ((s.setDevice a.device (.alive d)).setTask i .idle)
  -- a receipt that a sweep finalizes, or lets expire
  | claim {s : Service} {i : ℕ} {id observation : Text} {time : ℤ} {d : Device}
      {swept : Swept (Option Claim)} : s.tasks i = .idle → s.devices id = .alive d →
      claim limits id observation s.nextLease time d = swept →
      ServiceStep s ⟨some i, .quiet⟩ (((s.newLease.setDevice id (.alive swept.device)).dropImages
        swept.dropped.toList).setTask i (swept.value.elim .idle .claimed))
  | headClaimed {s : Service} {i : ℕ} {c : Claim} : s.tasks i = .claimed c →
      ServiceStep s ⟨some i, .quiet⟩ (s.setTask i (.headed c (s.objects c.key)))
  | settle {s : Service} {i : ℕ} {c : Claim} {object : Option StoredObject} {time : ℤ} {d : Device}
      {swept : Swept (Option ℕ)} : s.tasks i = .headed c object → s.devices c.device = .alive d →
      settle limits c.device c object time d = swept →
      ServiceStep s ⟨some i, swept.value.elim .quiet fun bytes =>
          .finalized ⟨c.device, c.observation, dayOf time, bytes, c.lease, time⟩⟩
        (((s.setDevice c.device (.alive swept.device)).dropImages swept.dropped.toList).setTask i .idle)
  -- a deletion
  | list {s : Service} {i : ℕ} {key : Text} {intent : Intent} : s.tasks i = .idle →
      s.intents key = some intent →
      ServiceStep s ⟨some i, .quiet⟩ (s.setTask i (.listed key intent.generation))
  | check {s : Service} {i : ℕ} {key : Text} {generation : Option ℕ} :
      s.tasks i = .listed key generation → ¬ s.HasImage key →
      ServiceStep s ⟨some i, .quiet⟩ (s.setTask i (.checked key generation))
  | request {s : Service} {i : ℕ} {key : Text} {generation : ℕ} :
      s.tasks i = .checked key (some generation) →
      ServiceStep s ⟨some i, .quiet⟩ (s.setTask i (.deleting key (some generation) generation))
  | resolve {s : Service} {i : ℕ} {key : Text} : s.tasks i = .checked key none →
      ServiceStep s ⟨some i, .quiet⟩ (s.setTask i
        ((s.objects key).elim (.removed key none) fun o => .deleting key none o.generation))
  | remove {s : Service} {i : ℕ} {key : Text} {listed : Option ℕ} {object : StoredObject} :
      s.tasks i = .deleting key listed object.generation → s.objects key = some object →
      ServiceStep s ⟨some i, .deleted key object⟩ ((s.removeObject key).setTask i (.removed key listed))
  | removeUnanswered {s : Service} {i : ℕ} {key : Text} {listed : Option ℕ} {object : StoredObject} :
      s.tasks i = .deleting key listed object.generation → s.objects key = some object →
      ServiceStep s ⟨some i, .deleted key object⟩ ((s.removeObject key).setTask i .idle)
  | removeMissed {s : Service} {i : ℕ} {key : Text} {listed : Option ℕ} {generation : ℕ} :
      s.tasks i = .deleting key listed generation →
      (∀ o, s.objects key = some o → o.generation ≠ generation) →
      ServiceStep s ⟨some i, .quiet⟩ (s.setTask i (.removed key listed))
  | unqueue {s : Service} {i : ℕ} {key : Text} {listed : Option ℕ} :
      s.tasks i = .removed key listed →
      ServiceStep s ⟨some i, .quiet⟩ ((s.unqueue key listed).setTask i .idle)
  -- an object that nothing refers to
  | listObject {s : Service} {i : ℕ} {key : Text} {object : StoredObject} : s.tasks i = .idle →
      s.objects key = some object → (objectIdentity key).isSome = true →
      ServiceStep s ⟨some i, .quiet⟩ (s.setTask i (.orphan key object.generation))
  | queueOrphan {s : Service} {i : ℕ} {key : Text} {generation : ℕ} :
      s.tasks i = .orphan key generation → ¬ s.HasImage key →
      ServiceStep s ⟨some i, .quiet⟩ ((s.queueOrphan key generation).setTask i .idle)
  | stop {s : Service} {i : ℕ} : ServiceStep s ⟨some i, .quiet⟩ (s.setTask i .idle)

def service : Machine Service Event where
  init s := (∀ id, s.devices id = .unborn) ∧ (∀ key, s.intents key = none) ∧ (∀ i, s.tasks i = .idle) ∧
    ∀ key o, s.objects key = some o → o.generation < s.nextGeneration
  step := ServiceStep tokenHash digest validateJpeg limits options

end

end Albusforge.Observations
