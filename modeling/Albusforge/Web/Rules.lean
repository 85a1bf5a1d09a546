import Mathlib
import Albusforge.Lib.JsText

/-!
# The rules of a device, as its card shows them

`apps/web/src/components/devices/closed-loop-flow.ts`. Over the rules that the server's snapshot carries lie the
responses that the server accepted, the writes that are on their way, and the rules that were added here.

Overrides are kept by rule: a rule without any has an empty one. That a row's action is the very object that was
confirmed means that the confirmed response was not superseded.
-/

namespace Albusforge.Web.Rules

open Lib

inductive DeviceActionKind
  | servo
  | api
  | alert
  deriving DecidableEq

inductive ActionSync
  | pending
  | synced
  deriving DecidableEq

structure DeviceAction where
  id : Text
  kind : DeviceActionKind
  rule : Text
  via : Text
  enabled : Bool
  sync : Option ActionSync
  version : Option ℕ
  deriving DecidableEq

/-- `Override.confirmed` -/
structure Confirmed where
  action : DeviceAction
  generation : ℕ
  deriving DecidableEq

inductive AttemptState
  | writing
  | unknown
  deriving DecidableEq

/-- `Override.attempt` -/
structure Attempt where
  action : DeviceAction
  state : AttemptState
  deriving DecidableEq

structure Override where
  confirmed : Option Confirmed
  attempt : Option Attempt
  deriving DecidableEq

structure LocalRules where
  overrides : Text → Override
  added : List DeviceAction
  generation : ℕ

def NO_LOCAL_RULES : LocalRules := ⟨fun _ => ⟨none, none⟩, [], 0⟩

inductive RowStatus
  | writing
  | unknown
  | written
  deriving DecidableEq

structure RuleRow where
  action : DeviceAction
  status : Option RowStatus
  deriving DecidableEq

/-! ## Rows -/

def supersedes (server : Option DeviceAction) (confirmed : Confirmed) (generation : ℕ) : Bool :=
  match server with
  | none => false
  | some server =>
    match server.version, confirmed.action.version with
    | some v, some w => w ≤ v
    | _, _ => confirmed.generation < generation

def Override.standing (override : Override) (server : Option DeviceAction) (generation : ℕ) : Option Confirmed :=
  override.confirmed.filter fun c => !supersedes server c generation

def base (server : Option DeviceAction) (override : Override) (fallback : DeviceAction) (generation : ℕ) :
    DeviceAction :=
  match override.standing server generation with
  | some c => c.action
  | none => server.getD fallback

def resolve (server : Option DeviceAction) (override : Override) (fallback : DeviceAction) (generation : ℕ) : RuleRow :=
  match override.attempt with
  | some ⟨action, .writing⟩ => ⟨action, some .writing⟩
  | some ⟨_, .unknown⟩ => ⟨base server override fallback generation, some .unknown⟩
  | none =>
    ⟨base server override fallback generation,
      if (override.standing server generation).isSome then some .written else none⟩

def mergeRules (server : List DeviceAction) (rules : LocalRules) : List RuleRow :=
  server.map (fun action => resolve (some action) (rules.overrides action.id) action rules.generation) ++
    (rules.added.filter fun a => a.id ∉ server.map DeviceAction.id).map fun action =>
      resolve none (rules.overrides action.id) action rules.generation

/-! ## Events -/

/-- `new Map(server.map((a) => [a.id, a])).get(id)` -/
def byId (server : List DeviceAction) (id : Text) : Option DeviceAction := server.reverse.find? fun a => a.id = id

def reconcile (server : List DeviceAction) (rules : LocalRules) : LocalRules where
  overrides id :=
    { confirmed := (rules.overrides id).standing (byId server id) (rules.generation + 1)
      attempt := (rules.overrides id).attempt.filter fun a => a.state = .writing }
  added := rules.added.filter fun a => (byId server a.id).isNone
  generation := rules.generation + 1

def patch (rules : LocalRules) (id : Text) (update : Override → Override) : LocalRules :=
  { rules with overrides := Function.update rules.overrides id (update (rules.overrides id)) }

def startWrite (rules : LocalRules) (action : DeviceAction) : LocalRules :=
  patch rules action.id fun o => { o with attempt := some ⟨action, .writing⟩ }

def finishWrite (rules : LocalRules) (data : DeviceAction) (current : Option DeviceAction) (generationAtStart : ℕ) :
    LocalRules :=
  let settled : Confirmed := ⟨data, generationAtStart⟩
  let stale := rules.generation ≠ generationAtStart && supersedes current settled rules.generation
  patch rules data.id fun o =>
    if !stale then ⟨some ⟨data, rules.generation⟩, none⟩ else ⟨o.standing current rules.generation, none⟩

def refuseWrite (rules : LocalRules) (id : Text) : LocalRules := patch rules id fun o => { o with attempt := none }

def loseWrite (rules : LocalRules) (action : DeviceAction) : LocalRules :=
  patch rules action.id fun o => { o with attempt := some ⟨action, .unknown⟩ }

def withAdded (rules : LocalRules) (action : DeviceAction) : LocalRules :=
  { rules with added := rules.added.filter (fun a => a.id ≠ action.id) ++ [action] }

/-! ## What the rows are made of -/

def slots (server : List DeviceAction) (rules : LocalRules) : List (Option DeviceAction × DeviceAction) :=
  server.map (fun a => (some a, a)) ++
    (rules.added.filter fun a => a.id ∉ server.map DeviceAction.id).map fun a => (none, a)

theorem mergeRules_slots (server : List DeviceAction) (rules : LocalRules) : mergeRules server rules =
    (slots server rules).map fun x => resolve x.1 (rules.overrides x.2.id) x.2 rules.generation := by
  simp [mergeRules, slots, Function.comp_def]

theorem standing_some {o : Override} {server : Option DeviceAction} {generation : ℕ} {c : Confirmed}
    (h : o.standing server generation = some c) : o.confirmed = some c ∧ supersedes server c generation = false := by
  obtain ⟨hsome, hnot⟩ := Option.filter_eq_some_iff.mp h
  exact ⟨hsome, by simpa using hnot⟩

theorem standing_none {o : Override} {server : Option DeviceAction} {generation : ℕ} {c : Confirmed}
    (h : o.standing server generation = none) (hc : o.confirmed = some c) : supersedes server c generation = true := by
  rw [Override.standing, hc, Option.filter_some] at h
  simpa using h

def versionOf (a : DeviceAction) : ℕ := a.version.getD 0

theorem supersedes_versions {a : DeviceAction} {c : Confirmed} {generation v w : ℕ} (ha : a.version = some v)
    (hc : c.action.version = some w) : supersedes (some a) c generation = true ↔ versionOf c.action ≤ versionOf a := by
  simp [supersedes, versionOf, ha, hc]

end Albusforge.Web.Rules
