import Albusforge.Lib.Machine
import Albusforge.Web.Rules

/-!
# The card of a device's rules never rolls one back

`ClosedLoopActions.tsx` with the functions of `Rules`: snapshots arrive, rules are toggled and added, and writes are
accepted, refused or lost, in any order. A snapshot may have been read at any time before it arrives, and anyone may
write a rule; what the server makes of a write is a version greater than any before.

**Each rule is shown once, in the newest version that the card was told** (`card_never_rolls_back`), but for a write
on its way, which is shown as if it were done. A rule that was added is shown until a snapshot carries it; from then
on the snapshots say whether there is such a rule (`carried_once`).
-/

namespace Albusforge.Web.Rules

open Lib

/-! ## The card -/

/-- A write on its way: the row it was started from, when it was, and what the server has answered. -/
structure Flight where
  row : DeviceAction
  generationAtStart : ℕ
  response : Option DeviceAction

/-- `{ ...action, enabled: next }` -/
def Flight.attempt (f : Flight) : DeviceAction := { f.row with enabled := !f.row.enabled }

structure Versions where
  first : ℕ
  current : ℕ
  le : first ≤ current

structure State where
  snapshot : List DeviceAction
  /-- `latest.current` -/
  latest : List DeviceAction
  rules : LocalRules
  flights : Text → Option Flight
  server : Text → Option Versions

inductive Event
  | serve (id : Text) (version : ℕ)
  | arrive (snapshot : List DeviceAction)
  | effect
  | toggle (id : Text)
  | answer (data : DeviceAction)
  | accept (data : DeviceAction)
  | refuse (id : Text)
  | lose (id : Text)
  | add (action : DeviceAction)

def Served (server : Text → Option Versions) (a : DeviceAction) : Prop :=
  ∃ r v, server a.id = some r ∧ a.version = some v ∧ r.first ≤ v ∧ v ≤ r.current

inductive Step : State → Event → State → Prop
  | create {s : State} {id : Text} {version : ℕ} : s.server id = none →
      Step s (.serve id version) { s with server := Function.update s.server id (some ⟨version, version, le_rfl⟩) }
  | serve {s : State} {id : Text} {version : ℕ} {r : Versions} (found : s.server id = some r)
      (greater : r.current < version) : Step s (.serve id version)
      { s with server := Function.update s.server id (some ⟨r.first, version, r.le.trans greater.le⟩) }
  | arrive {s : State} {snapshot : List DeviceAction} : (snapshot.map DeviceAction.id).Nodup →
      (∀ a ∈ snapshot, Served s.server a) →
      Step s (.arrive snapshot) { s with snapshot := snapshot, rules := reconcile snapshot s.rules }
  | effect {s : State} : Step s .effect { s with latest := s.snapshot }
  | toggle {s : State} {row : RuleRow} : row ∈ mergeRules s.snapshot s.rules → row.status ≠ some .writing →
      row.status ≠ some .unknown →
      Step s (.toggle row.action.id) { s with
        rules := startWrite s.rules (Flight.attempt ⟨row.action, s.rules.generation, none⟩)
        flights := Function.update s.flights row.action.id (some ⟨row.action, s.rules.generation, none⟩) }
  | answer {s : State} {f : Flight} {data : DeviceAction} {r : Versions} {version : ℕ} :
      s.flights data.id = some f → f.response = none → s.server data.id = some r → data.version = some version →
      (greater : r.current < version) → Step s (.answer data) { s with
        flights := Function.update s.flights data.id (some { f with response := some data })
        server := Function.update s.server data.id (some ⟨r.first, version, r.le.trans greater.le⟩) }
  | accept {s : State} {f : Flight} {data : DeviceAction} : s.flights data.id = some f → f.response = some data →
      Step s (.accept data) { s with
        rules := finishWrite s.rules data (s.latest.find? fun a => a.id = f.row.id) f.generationAtStart
        flights := Function.update s.flights data.id none }
  | refuse {s : State} {f : Flight} {id : Text} : s.flights id = some f → f.response = none →
      Step s (.refuse id) { s with
        rules := refuseWrite s.rules f.row.id
        flights := Function.update s.flights id none }
  | lose {s : State} {f : Flight} {id : Text} : s.flights id = some f →
      Step s (.lose id) { s with
        rules := loseWrite s.rules f.row
        flights := Function.update s.flights id none }
  | add {s : State} {action : DeviceAction} {r : Versions} : s.server action.id = some r →
      action.version = some r.first → Step s (.add action) { s with rules := withAdded s.rules action }

def card (initial : List DeviceAction) : Machine State Event where
  init s := s.snapshot = initial ∧ s.latest = initial ∧ s.rules = NO_LOCAL_RULES ∧ (∀ id, s.flights id = none) ∧
    (initial.map DeviceAction.id).Nodup ∧ ∀ a ∈ initial, Served s.server a
  step := Step

/-! ## What was seen -/

def Event.snapshot : Event → Option (List DeviceAction)
  | .arrive snapshot => some snapshot
  | _ => none

def Event.accepted : Event → Option DeviceAction
  | .accept data => some data
  | _ => none

def Event.added : Event → Option DeviceAction
  | .add action => some action
  | _ => none

def snapshotsOf (initial : List DeviceAction) (es : List Event) : List (List DeviceAction) :=
  initial :: es.filterMap Event.snapshot

def acceptedOf (es : List Event) : List DeviceAction := es.filterMap Event.accepted

def additionsOf (es : List Event) : List DeviceAction := es.filterMap Event.added

def Coherent (initial : List DeviceAction) (es : List Event) (_ : State) : Event → Prop
  | .arrive snapshot => ∀ l ∈ snapshotsOf initial es, ∀ a ∈ l, ∀ b ∈ snapshot, b.id = a.id → versionOf a ≤ versionOf b
  | .add action => (∀ l ∈ snapshotsOf initial es, ∀ a ∈ l, a.id ≠ action.id) ∧ ∀ a ∈ additionsOf es, a.id ≠ action.id
  | _ => True

def waiting (snapshots : List (List DeviceAction)) (additions : List DeviceAction) : List DeviceAction :=
  additions.filter fun a => snapshots.all fun l => a.id ∉ l.map DeviceAction.id

def LocalRules.settled (rules : LocalRules) : LocalRules :=
  { rules with overrides := fun id => { rules.overrides id with attempt := none } }

def baseline (s : State) : List DeviceAction := (mergeRules s.snapshot s.rules.settled).map RuleRow.action

/-- The greatest version of a rule that the card was told: the snapshot's, where there are two of one version. -/
structure Newest (snapshot additions accepted : List DeviceAction) (a : DeviceAction) : Prop where
  told : a ∈ snapshot ∨ a ∈ additions ∨ a ∈ accepted
  snapshot : ∀ b ∈ snapshot, b.id = a.id → versionOf b ≤ versionOf a ∧ (versionOf b = versionOf a → a = b)
  added : ∀ b ∈ additions, b.id = a.id → versionOf b ≤ versionOf a
  accepted : ∀ b ∈ accepted, b.id = a.id → versionOf b ≤ versionOf a

structure Shows (initial : List DeviceAction) (es : List Event) (s : State) : Prop where
  once : (mergeRules s.snapshot s.rules).map (fun row => row.action.id) =
    (s.snapshot ++ waiting (snapshotsOf initial es) (additionsOf es)).map DeviceAction.id
  nodup : ((s.snapshot ++ waiting (snapshotsOf initial es) (additionsOf es)).map DeviceAction.id).Nodup
  flying : ∀ row ∈ mergeRules s.snapshot s.rules, ∀ f, s.flights row.action.id = some f →
    row = ⟨f.attempt, some .writing⟩
  landed : ∀ row ∈ mergeRules s.snapshot s.rules, s.flights row.action.id = none →
    row.status ≠ some .writing ∧ row.action ∈ baseline s
  newest : ∀ a ∈ baseline s, Newest s.snapshot (additionsOf es) (acceptedOf es) a

theorem baseline_slots (s : State) : baseline s =
    (slots s.snapshot s.rules).map fun x => base x.1 (s.rules.overrides x.2.id) x.2 s.rules.generation := by
  rw [baseline, mergeRules_slots, List.map_map]
  rfl

/-! ## What is kept -/

def Written (server : Text → Option Versions) (a : DeviceAction) : Prop :=
  ∃ r v, server a.id = some r ∧ a.version = some v ∧ r.first < v ∧ v ≤ r.current

def Created (server : Text → Option Versions) (a : DeviceAction) : Prop :=
  ∃ r, server a.id = some r ∧ a.version = some r.first

def Holds (snapshots : List (List DeviceAction)) (accepted : List DeviceAction) (id : Text) : Option Confirmed → Prop
  | some c => c.action ∈ accepted ∧ c.action.id = id ∧ ∀ a ∈ accepted, a.id = id → versionOf a ≤ versionOf c.action
  | none => ∀ a ∈ accepted, a.id = id → ∃ l ∈ snapshots, ∃ b ∈ l, b.id = id ∧ versionOf a ≤ versionOf b

structure Answers (server : Text → Option Versions) (accepted : List DeviceAction) (id : Text) (data : DeviceAction) :
    Prop where
  same : data.id = id
  written : Written server data
  newer : ∀ a ∈ accepted, a.id = id → versionOf a < versionOf data

def Flies (server : Text → Option Versions) (accepted : List DeviceAction) (id : Text) :
    Option Flight → Option Attempt → Prop
  | some f, attempt => f.row.id = id ∧ attempt = some ⟨f.attempt, .writing⟩ ∧
      ∀ data ∈ f.response, Answers server accepted id data
  | none, attempt => ∀ a, attempt ≠ some ⟨a, .writing⟩

structure Inv (snapshots : List (List DeviceAction)) (additions accepted : List DeviceAction) (s : State) : Prop where
  distinct : (s.snapshot.map DeviceAction.id).Nodup
  snapshot_mem : s.snapshot ∈ snapshots
  latest_mem : s.latest ∈ snapshots
  served : ∀ l ∈ snapshots, ∀ a ∈ l, Served s.server a
  newest : ∀ l ∈ snapshots, ∀ a ∈ l, ∀ b ∈ s.snapshot, b.id = a.id → versionOf a ≤ versionOf b
  written : ∀ a ∈ accepted, Written s.server a
  created : ∀ a ∈ additions, Created s.server a
  once : (additions.map DeviceAction.id).Nodup
  added : s.rules.added = waiting snapshots additions
  holds : ∀ id, Holds snapshots accepted id (s.rules.overrides id).confirmed
  flies : ∀ id, Flies s.server accepted id (s.flights id) (s.rules.overrides id).attempt

variable {snapshots : List (List DeviceAction)} {additions accepted : List DeviceAction} {s : State}

/-! ## The newest is shown -/

theorem mem_waiting {a : DeviceAction} : a ∈ waiting snapshots additions ↔
    a ∈ additions ∧ ∀ l ∈ snapshots, ∀ b ∈ l, b.id ≠ a.id := by
  simp [waiting]

theorem Inv.added_le_served (h : Inv snapshots additions accepted s) {a b : DeviceAction} (ha : a ∈ additions)
    (hb : Served s.server b) (hid : b.id = a.id) : versionOf a ≤ versionOf b := by
  obtain ⟨r, hserver, hfirst⟩ := h.created a ha
  obtain ⟨r', v, hserver', hversion, hle, -⟩ := hb
  rw [hid, hserver] at hserver'
  obtain rfl := Option.some.inj hserver'
  simpa [versionOf, hfirst, hversion] using hle

theorem Inv.added_lt_accepted (h : Inv snapshots additions accepted s) {a b : DeviceAction} (ha : a ∈ additions)
    (hb : b ∈ accepted) (hid : b.id = a.id) : versionOf a < versionOf b := by
  obtain ⟨r, hserver, hfirst⟩ := h.created a ha
  obtain ⟨r', v, hserver', hversion, hlt, -⟩ := h.written b hb
  rw [hid, hserver] at hserver'
  obtain rfl := Option.some.inj hserver'
  simpa [versionOf, hfirst, hversion] using hlt

theorem Inv.unique (h : Inv snapshots additions accepted s) {a b : DeviceAction} (ha : a ∈ s.snapshot)
    (hb : b ∈ s.snapshot) (hid : b.id = a.id) : b = a :=
  List.inj_on_of_nodup_map h.distinct hb ha hid

theorem Inv.unique_addition (h : Inv snapshots additions accepted s) {a b : DeviceAction} (ha : a ∈ additions)
    (hb : b ∈ additions) (hid : b.id = a.id) : b = a :=
  List.inj_on_of_nodup_map h.once hb ha hid

theorem Inv.supersedes_iff (h : Inv snapshots additions accepted s) {a : DeviceAction} (ha : a ∈ s.snapshot) {c : Confirmed}
    (hc : c.action ∈ accepted) (generation : ℕ) :
    supersedes (some a) c generation = true ↔ versionOf c.action ≤ versionOf a := by
  obtain ⟨_, v, _, hv, _⟩ := h.served _ h.snapshot_mem a ha
  obtain ⟨_, w, _, hw, _⟩ := h.written _ hc
  exact supersedes_versions hv hw

theorem Inv.base_snapshot (h : Inv snapshots additions accepted s) {a : DeviceAction} (ha : a ∈ s.snapshot) :
    (base (some a) (s.rules.overrides a.id) a s.rules.generation).id = a.id ∧
      Newest s.snapshot additions accepted (base (some a) (s.rules.overrides a.id) a s.rules.generation) := by
  have hholds := h.holds a.id
  have hcopies : ∀ b ∈ s.snapshot, b.id = a.id → b = a := fun b hb hid => h.unique ha hb hid
  have hadditions : ∀ b ∈ additions, b.id = a.id → versionOf b ≤ versionOf a := by
    intro b hb hid
    exact h.added_le_served hb (h.served _ h.snapshot_mem a ha) hid.symm
  unfold base
  cases hstanding : (s.rules.overrides a.id).standing (some a) s.rules.generation with
  | some c =>
    obtain ⟨hconfirmed, hnot⟩ := standing_some hstanding
    rw [hconfirmed] at hholds
    obtain ⟨hc, hid, hmax⟩ := hholds
    have hlt : versionOf a < versionOf c.action := by
      rw [← not_le, ← h.supersedes_iff ha hc s.rules.generation, hnot]
      simp
    dsimp only
    refine ⟨hid, Or.inr (Or.inr hc), ?_, ?_, ?_⟩
    · intro b hb hbid
      obtain rfl := hcopies b hb (hbid.trans hid)
      exact ⟨hlt.le, fun heq => absurd heq hlt.ne⟩
    · intro b hb hbid
      exact (hadditions b hb (hbid.trans hid)).trans hlt.le
    · intro b hb hbid
      exact hmax b hb (hbid.trans hid)
  | none =>
    refine ⟨rfl, Or.inl ha, ?_, hadditions, ?_⟩
    · intro b hb hbid
      obtain rfl := hcopies b hb hbid
      exact ⟨le_rfl, fun _ => rfl⟩
    · intro b hb hbid
      cases hconfirmed : (s.rules.overrides a.id).confirmed with
      | some c =>
        rw [hconfirmed] at hholds
        obtain ⟨hc, -, hmax⟩ := hholds
        have hle := (h.supersedes_iff ha hc s.rules.generation).mp (standing_none hstanding hconfirmed)
        exact (hmax b hb hbid).trans hle
      | none =>
        rw [hconfirmed] at hholds
        obtain ⟨l, hl, d, hd, hdid, hle⟩ := hholds b hb hbid
        exact hle.trans (h.newest l hl d hd a ha hdid.symm)

theorem Inv.base_added (h : Inv snapshots additions accepted s) {a : DeviceAction} (ha : a ∈ waiting snapshots additions) :
    (base none (s.rules.overrides a.id) a s.rules.generation).id = a.id ∧
      Newest s.snapshot additions accepted (base none (s.rules.overrides a.id) a s.rules.generation) := by
  obtain ⟨hadded, huncarried⟩ := mem_waiting.mp ha
  have hholds := h.holds a.id
  have hcopies : ∀ b ∈ s.snapshot, b.id ≠ a.id := huncarried _ h.snapshot_mem
  have hadditions : ∀ b ∈ additions, b.id = a.id → b = a := fun b hb hid => h.unique_addition hadded hb hid
  unfold base
  cases hstanding : (s.rules.overrides a.id).standing none s.rules.generation with
  | some c =>
    rw [(standing_some hstanding).1] at hholds
    obtain ⟨hc, hid, hmax⟩ := hholds
    dsimp only
    refine ⟨hid, Or.inr (Or.inr hc), ?_, ?_, ?_⟩
    · intro b hb hbid
      exact absurd (hbid.trans hid) (hcopies b hb)
    · intro b hb hbid
      obtain rfl := hadditions b hb (hbid.trans hid)
      exact (h.added_lt_accepted hadded hc hid).le
    · intro b hb hbid
      exact hmax b hb (hbid.trans hid)
  | none =>
    refine ⟨rfl, Or.inr (Or.inl hadded), ?_, ?_, ?_⟩
    · intro b hb hbid
      exact absurd hbid (hcopies b hb)
    · intro b hb hbid
      rw [hadditions b hb hbid]
      rfl
    · intro b hb hbid
      cases hconfirmed : (s.rules.overrides a.id).confirmed with
      | some c => exact absurd (standing_none hstanding hconfirmed) (by simp [supersedes])
      | none =>
        rw [hconfirmed] at hholds
        obtain ⟨l, hl, d, hd, hdid, -⟩ := hholds b hb hbid
        exact absurd hdid (huncarried l hl d hd)

theorem Inv.mem_slots (h : Inv snapshots additions accepted s) {x : Option DeviceAction × DeviceAction}
    (hx : x ∈ slots s.snapshot s.rules) :
    (x.1 = some x.2 ∧ x.2 ∈ s.snapshot) ∨ (x.1 = none ∧ x.2 ∈ waiting snapshots additions) := by
  rcases List.mem_append.mp hx with hx | hx
  · obtain ⟨a, ha, rfl⟩ := List.mem_map.mp hx
    exact Or.inl ⟨rfl, ha⟩
  · obtain ⟨a, ha, rfl⟩ := List.mem_map.mp hx
    rw [h.added] at ha
    exact Or.inr ⟨rfl, (List.mem_filter.mp ha).1⟩

theorem Inv.base_slot (h : Inv snapshots additions accepted s) {x : Option DeviceAction × DeviceAction}
    (hx : x ∈ slots s.snapshot s.rules) :
    (base x.1 (s.rules.overrides x.2.id) x.2 s.rules.generation).id = x.2.id ∧
      Newest s.snapshot additions accepted (base x.1 (s.rules.overrides x.2.id) x.2 s.rules.generation) := by
  rcases h.mem_slots hx with ⟨hserver, hmem⟩ | ⟨hserver, hmem⟩
  · rw [hserver]
    exact h.base_snapshot hmem
  · rw [hserver]
    exact h.base_added hmem

theorem Inv.resolve_slot (h : Inv snapshots additions accepted s) (x : Option DeviceAction × DeviceAction) :
    match s.flights x.2.id with
    | some f => f.attempt.id = x.2.id ∧
        resolve x.1 (s.rules.overrides x.2.id) x.2 s.rules.generation = ⟨f.attempt, some .writing⟩
    | none =>
        (resolve x.1 (s.rules.overrides x.2.id) x.2 s.rules.generation).action =
            base x.1 (s.rules.overrides x.2.id) x.2 s.rules.generation ∧
          (resolve x.1 (s.rules.overrides x.2.id) x.2 s.rules.generation).status ≠ some .writing := by
  have hflies := h.flies x.2.id
  cases hf : s.flights x.2.id with
  | some f =>
    rw [hf] at hflies
    obtain ⟨hid, hattempt, -⟩ := hflies
    exact ⟨hid, by rw [resolve, hattempt]⟩
  | none =>
    rw [hf] at hflies
    cases hattempt : (s.rules.overrides x.2.id).attempt with
    | none =>
      simp only [resolve, hattempt, true_and]
      split <;> simp
    | some attempt =>
      obtain ⟨action, state⟩ := attempt
      cases state with
      | writing => exact absurd hattempt (hflies action)
      | unknown => simp [resolve, hattempt]

theorem Inv.row_id (h : Inv snapshots additions accepted s) {x : Option DeviceAction × DeviceAction}
    (hx : x ∈ slots s.snapshot s.rules) :
    (resolve x.1 (s.rules.overrides x.2.id) x.2 s.rules.generation).action.id = x.2.id := by
  have hresolve := h.resolve_slot x
  cases hf : s.flights x.2.id with
  | some f =>
    rw [hf] at hresolve
    rw [hresolve.2]
    exact hresolve.1
  | none =>
    rw [hf] at hresolve
    rw [hresolve.1]
    exact (h.base_slot hx).1

theorem Inv.slots_snd (h : Inv snapshots additions accepted s) :
    (slots s.snapshot s.rules).map Prod.snd = s.snapshot ++ waiting snapshots additions := by
  have hfilter : s.rules.added.filter (fun a => a.id ∉ s.snapshot.map DeviceAction.id) = waiting snapshots additions := by
    rw [h.added]
    refine List.filter_eq_self.mpr ?_
    intro a ha
    have huncarried := (mem_waiting.mp ha).2 _ h.snapshot_mem
    simpa using huncarried
  rw [slots, hfilter, List.map_append, List.map_map, List.map_map]
  simp [Function.comp_def]

theorem Inv.nodup (h : Inv snapshots additions accepted s) :
    ((s.snapshot ++ waiting snapshots additions).map DeviceAction.id).Nodup := by
  rw [List.map_append, List.nodup_append]
  refine ⟨h.distinct, (List.filter_sublist.map _).nodup h.once, ?_⟩
  intro i hi j hj hij
  obtain ⟨a, ha, rfl⟩ := List.mem_map.mp hi
  obtain ⟨b, hb, rfl⟩ := List.mem_map.mp hj
  exact (mem_waiting.mp hb).2 _ h.snapshot_mem a ha hij

theorem Inv.shows {initial : List DeviceAction} {es : List Event}
    (h : Inv (snapshotsOf initial es) (additionsOf es) (acceptedOf es) s) : Shows initial es s := by
  refine ⟨?_, h.nodup, ?_, ?_, ?_⟩
  · rw [mergeRules_slots, List.map_map, ← h.slots_snd, List.map_map]
    exact List.map_congr_left fun x hx => h.row_id hx
  · intro row hrow f hf
    rw [mergeRules_slots] at hrow
    obtain ⟨x, hx, rfl⟩ := List.mem_map.mp hrow
    have hresolve := h.resolve_slot x
    rw [h.row_id hx] at hf
    rw [hf] at hresolve
    exact hresolve.2
  · intro row hrow hf
    rw [mergeRules_slots] at hrow
    obtain ⟨x, hx, rfl⟩ := List.mem_map.mp hrow
    have hresolve := h.resolve_slot x
    rw [h.row_id hx] at hf
    rw [hf] at hresolve
    refine ⟨hresolve.2, ?_⟩
    rw [baseline_slots, hresolve.1]
    exact List.mem_map.mpr ⟨x, hx, rfl⟩
  · intro a ha
    rw [baseline_slots] at ha
    obtain ⟨x, hx, rfl⟩ := List.mem_map.mp ha
    exact (h.base_slot hx).2

/-! ## What a step does -/

def Grows (server server' : Text → Option Versions) : Prop :=
  ∀ id r, server id = some r → ∃ r', server' id = some r' ∧ r'.first = r.first ∧ r.current ≤ r'.current

theorem grows_update {server : Text → Option Versions} {id : Text} {r : Versions}
    (h : ∀ old, server id = some old → r.first = old.first ∧ old.current ≤ r.current) :
    Grows server (Function.update server id (some r)) := by
  intro i old hold
  by_cases hi : i = id
  · subst hi
    exact ⟨r, Function.update_self .., h old hold⟩
  · exact ⟨old, by rw [Function.update_of_ne hi, hold], rfl, le_rfl⟩

theorem Served.grows {server server' : Text → Option Versions} {a : DeviceAction} (h : Served server a)
    (hgrows : Grows server server') : Served server' a := by
  obtain ⟨r, v, hr, hv, hfirst, hle⟩ := h
  obtain ⟨r', hr', hsame, hcurrent⟩ := hgrows _ _ hr
  exact ⟨r', v, hr', hv, hsame ▸ hfirst, hle.trans hcurrent⟩

theorem Written.grows {server server' : Text → Option Versions} {a : DeviceAction} (h : Written server a)
    (hgrows : Grows server server') : Written server' a := by
  obtain ⟨r, v, hr, hv, hfirst, hle⟩ := h
  obtain ⟨r', hr', hsame, hcurrent⟩ := hgrows _ _ hr
  exact ⟨r', v, hr', hv, hsame ▸ hfirst, hle.trans hcurrent⟩

theorem Created.grows {server server' : Text → Option Versions} {a : DeviceAction} (h : Created server a)
    (hgrows : Grows server server') : Created server' a := by
  obtain ⟨r, hr, hv⟩ := h
  obtain ⟨r', hr', hsame, -⟩ := hgrows _ _ hr
  exact ⟨r', hr', by rw [hv, hsame]⟩

theorem Flies.grows {server server' : Text → Option Versions} {id : Text} {flight : Option Flight}
    {attempt : Option Attempt} (h : Flies server accepted id flight attempt) (hgrows : Grows server server') :
    Flies server' accepted id flight attempt := by
  cases flight with
  | none => exact h
  | some f =>
    obtain ⟨hid, hattempt, hanswers⟩ := h
    refine ⟨hid, hattempt, fun data hdata => ?_⟩
    obtain ⟨hsame, hwritten, hnewer⟩ := hanswers data hdata
    exact ⟨hsame, hwritten.grows hgrows, hnewer⟩

theorem Inv.serve (h : Inv snapshots additions accepted s) {server : Text → Option Versions}
    (hgrows : Grows s.server server) : Inv snapshots additions accepted { s with server := server } :=
  { h with
    served := fun l hl a ha => (h.served l hl a ha).grows hgrows
    written := fun a ha => (h.written a ha).grows hgrows
    created := fun a ha => (h.created a ha).grows hgrows
    flies := fun id => (h.flies id).grows hgrows }

theorem byId_some {server : List DeviceAction} {id : Text} {b : DeviceAction} (h : byId server id = some b) :
    b ∈ server ∧ b.id = id :=
  ⟨List.mem_reverse.mp (List.mem_of_find?_eq_some h), by simpa using List.find?_some h⟩

theorem byId_isNone (server : List DeviceAction) (id : Text) :
    (byId server id).isNone = decide (id ∉ server.map DeviceAction.id) := by
  rw [Bool.eq_iff_iff, decide_eq_true_iff]
  simp [byId]

theorem waiting_snoc (snapshot : List DeviceAction) : waiting (snapshots ++ [snapshot]) additions =
    (waiting snapshots additions).filter fun a => a.id ∉ snapshot.map DeviceAction.id := by
  simp only [waiting, List.filter_filter, List.all_append, List.all_cons, List.all_nil, Bool.and_true]
  exact List.filter_congr fun a _ => Bool.and_comm _ _

theorem Holds.standing {server : Text → Option Versions} {snapshot : List DeviceAction} {id : Text} {o : Override}
    (h : Holds snapshots accepted id o.confirmed) (hwritten : ∀ a ∈ accepted, Written server a)
    (hserved : ∀ a ∈ snapshot, Served server a) (generation : ℕ) :
    Holds (snapshots ++ [snapshot]) accepted id (o.standing (byId snapshot id) generation) := by
  cases hstanding : o.standing (byId snapshot id) generation with
  | some c =>
    rw [(standing_some hstanding).1] at h
    exact h
  | none =>
    intro a ha haid
    cases hconfirmed : o.confirmed with
    | none =>
      rw [hconfirmed] at h
      obtain ⟨l, hl, b, hb⟩ := h a ha haid
      exact ⟨l, List.mem_append_left _ hl, b, hb⟩
    | some c =>
      rw [hconfirmed] at h
      obtain ⟨hc, -, hmax⟩ := h
      have hsuper := standing_none hstanding hconfirmed
      cases hb : byId snapshot id with
      | none => rw [hb] at hsuper; exact absurd hsuper (by simp [supersedes])
      | some b =>
        obtain ⟨hmem, hid⟩ := byId_some hb
        obtain ⟨_, v, _, hv, _⟩ := hserved b hmem
        obtain ⟨_, w, _, hw, _⟩ := hwritten _ hc
        rw [hb, supersedes_versions hv hw] at hsuper
        exact ⟨snapshot, by simp, b, hmem, hid, (hmax a ha haid).trans hsuper⟩

theorem Inv.arrive (h : Inv snapshots additions accepted s) {snapshot : List DeviceAction}
    (hdistinct : (snapshot.map DeviceAction.id).Nodup) (hserved : ∀ a ∈ snapshot, Served s.server a)
    (hnewest : ∀ l ∈ snapshots, ∀ a ∈ l, ∀ b ∈ snapshot, b.id = a.id → versionOf a ≤ versionOf b) :
    Inv (snapshots ++ [snapshot]) additions accepted
      { s with snapshot := snapshot, rules := reconcile snapshot s.rules } where
  distinct := hdistinct
  snapshot_mem := by simp
  latest_mem := List.mem_append_left _ h.latest_mem
  served := by
    intro l hl
    rcases List.mem_append.mp hl with hl | hl
    · exact h.served l hl
    · exact List.mem_singleton.mp hl ▸ hserved
  newest := by
    intro l hl a ha b hb hid
    rcases List.mem_append.mp hl with hl | hl
    · exact hnewest l hl a ha b hb hid
    · rw [List.mem_singleton.mp hl] at ha
      rw [List.inj_on_of_nodup_map hdistinct hb ha hid]
  written := h.written
  created := h.created
  once := h.once
  added := by
    rw [waiting_snoc, ← h.added]
    exact List.filter_congr fun a _ => byId_isNone snapshot a.id
  holds := fun id => (h.holds id).standing h.written hserved _
  flies := by
    intro id
    have hflies := h.flies id
    cases hf : s.flights id with
    | some f =>
      rw [hf] at hflies
      obtain ⟨hid, hattempt, hanswers⟩ := hflies
      refine ⟨hid, ?_, hanswers⟩
      simp [reconcile, hattempt]
    | none =>
      rw [hf] at hflies
      intro a ha
      exact hflies a (Option.filter_eq_some_iff.mp ha).1

theorem Holds.accepts {data : DeviceAction} {id : Text} {confirmed : Option Confirmed}
    (h : Holds snapshots accepted id confirmed) (hne : data.id ≠ id) :
    Holds snapshots (accepted ++ [data]) id confirmed := by
  have hold : ∀ a ∈ accepted ++ [data], a.id = id → a ∈ accepted := by
    intro a ha haid
    rcases List.mem_append.mp ha with ha | ha
    · exact ha
    · exact absurd (List.mem_singleton.mp ha ▸ haid) hne
  cases confirmed with
  | some c =>
    obtain ⟨hc, hid, hmax⟩ := h
    exact ⟨List.mem_append_left _ hc, hid, fun a ha haid => hmax a (hold a ha haid) haid⟩
  | none => exact fun a ha haid => h a (hold a ha haid) haid

theorem Flies.accepts {server : Text → Option Versions} {data : DeviceAction} {id : Text} {flight : Option Flight}
    {attempt : Option Attempt} (h : Flies server accepted id flight attempt) (hne : data.id ≠ id) :
    Flies server (accepted ++ [data]) id flight attempt := by
  cases flight with
  | none => exact h
  | some f =>
    obtain ⟨hid, hattempt, hanswers⟩ := h
    refine ⟨hid, hattempt, fun d hd => ?_⟩
    obtain ⟨hsame, hwritten, hnewer⟩ := hanswers d hd
    refine ⟨hsame, hwritten, fun a ha haid => ?_⟩
    rcases List.mem_append.mp ha with ha | ha
    · exact hnewer a ha haid
    · exact absurd (List.mem_singleton.mp ha ▸ haid) hne

/-- **A response that settles is the newest that was accepted**, and only a copy as new keeps it from the rows. -/
theorem Holds.finish {server : Text → Option Versions} {data : DeviceAction} {o : Override}
    {current : Option DeviceAction} {latest : List DeviceAction} (hlatest : latest ∈ snapshots)
    (hcurrent : ∀ b ∈ current, b ∈ latest ∧ b.id = data.id) (hserved : ∀ b ∈ latest, Served server b)
    (hwritten : ∀ a ∈ accepted, Written server a) (hdata : Answers server accepted data.id data)
    (h : Holds snapshots accepted data.id o.confirmed) (generation generationAtStart : ℕ) :
    Holds snapshots (accepted ++ [data]) data.id
      (if !(generation ≠ generationAtStart && supersedes current ⟨data, generationAtStart⟩ generation) then
        (⟨some ⟨data, generation⟩, none⟩ : Override) else ⟨o.standing current generation, none⟩).confirmed := by
  have hmax : ∀ a ∈ accepted ++ [data], a.id = data.id → versionOf a ≤ versionOf data := by
    intro a ha haid
    rcases List.mem_append.mp ha with ha | ha
    · exact (hdata.newer a ha haid).le
    · exact (List.mem_singleton.mp ha ▸ le_rfl)
  split
  · exact ⟨by simp, rfl, hmax⟩
  · rename_i hstale
    simp only [Bool.not_eq_true', Bool.not_eq_false, Bool.and_eq_true] at hstale
    cases current with
    | none => exact absurd hstale.2 (by simp [supersedes])
    | some b =>
      obtain ⟨hb, hid⟩ := hcurrent b rfl
      obtain ⟨_, v, _, hv, _⟩ := hserved b hb
      obtain ⟨_, w, _, hw, _⟩ := hdata.written
      have hle : versionOf data ≤ versionOf b := (supersedes_versions hv hw).mp hstale.2
      -- what was confirmed before is older than the response, and the copy is not
      have hnone : o.standing (some b) generation = none := by
        cases hstanding : o.standing (some b) generation with
        | none => rfl
        | some c =>
          obtain ⟨hconfirmed, hnot⟩ := standing_some hstanding
          rw [hconfirmed] at h
          obtain ⟨hc, hcid, -⟩ := h
          obtain ⟨_, u, _, hu, _⟩ := hwritten _ hc
          have hsuper : supersedes (some b) c generation = true :=
            (supersedes_versions hv hu).mpr ((hdata.newer _ hc hcid).le.trans hle)
          rw [hsuper] at hnot
          exact absurd hnot (by simp)
      dsimp only
      rw [hnone]
      exact fun a ha haid => ⟨latest, hlatest, b, hb, hid, (hmax a ha haid).trans hle⟩

theorem Inv.accept (h : Inv snapshots additions accepted s) {f : Flight} {data : DeviceAction}
    (hf : s.flights data.id = some f) (hresponse : f.response = some data) :
    Inv snapshots additions (accepted ++ [data]) { s with
      rules := finishWrite s.rules data (s.latest.find? fun a => a.id = f.row.id) f.generationAtStart
      flights := Function.update s.flights data.id none } := by
  have hflies := h.flies data.id
  rw [hf] at hflies
  obtain ⟨hrow, -, hanswers⟩ := hflies
  have hdata := hanswers data hresponse
  refine { h with written := ?_, holds := ?_, flies := ?_ }
  · intro a ha
    rcases List.mem_append.mp ha with ha | ha
    · exact h.written a ha
    · exact List.mem_singleton.mp ha ▸ hdata.written
  · intro id
    by_cases hid : id = data.id
    · subst hid
      have hcurrent : ∀ b ∈ s.latest.find? (fun a => a.id = f.row.id), b ∈ s.latest ∧ b.id = data.id := by
        intro b hb
        refine ⟨List.mem_of_find?_eq_some hb, ?_⟩
        have hbid := List.find?_some hb
        simpa [hrow] using hbid
      have hfinish := Holds.finish h.latest_mem hcurrent (h.served _ h.latest_mem) h.written hdata (h.holds data.id)
        s.rules.generation f.generationAtStart
      simpa only [finishWrite, patch, Function.update_self] using hfinish
    · have hother := (h.holds id).accepts (Ne.symm hid)
      simpa only [finishWrite, patch, Function.update_of_ne hid] using hother
  · intro id
    by_cases hid : id = data.id
    · subst hid
      simp only [finishWrite, patch, Function.update_self]
      intro a
      split <;> simp
    · have hother := (h.flies id).accepts (Ne.symm hid)
      simpa only [finishWrite, patch, Function.update_of_ne hid] using hother

theorem Inv.patch (h : Inv snapshots additions accepted s) {id : Text} {flight : Option Flight} {update : Override → Override}
    (hconfirmed : ∀ o, (update o).confirmed = o.confirmed)
    (hflies : Flies s.server accepted id flight (update (s.rules.overrides id)).attempt) :
    Inv snapshots additions accepted { s with
      rules := Rules.patch s.rules id update
      flights := Function.update s.flights id flight } := by
  refine { h with holds := ?_, flies := ?_ }
  · intro i
    have hholds := h.holds i
    by_cases hi : i = id
    · subst hi
      simpa only [Rules.patch, Function.update_self, hconfirmed] using hholds
    · simpa only [Rules.patch, Function.update_of_ne hi] using hholds
  · intro i
    by_cases hi : i = id
    · subst hi
      simpa only [Rules.patch, Function.update_self] using hflies
    · simpa only [Rules.patch, Function.update_of_ne hi] using h.flies i

theorem Inv.add (h : Inv snapshots additions accepted s) {action : DeviceAction} {r : Versions}
    (hserver : s.server action.id = some r) (hfirst : action.version = some r.first)
    (huncarried : ∀ l ∈ snapshots, ∀ a ∈ l, a.id ≠ action.id) (hnew : ∀ a ∈ additions, a.id ≠ action.id) :
    Inv snapshots (additions ++ [action]) accepted { s with rules := withAdded s.rules action } := by
  refine { h with created := ?_, once := ?_, added := ?_ }
  · intro a ha
    rcases List.mem_append.mp ha with ha | ha
    · exact h.created a ha
    · obtain rfl := List.mem_singleton.mp ha
      exact ⟨r, hserver, hfirst⟩
  · rw [List.map_append, List.nodup_append]
    refine ⟨h.once, by simp, ?_⟩
    intro i hi j hj hij
    obtain ⟨a, ha, rfl⟩ := List.mem_map.mp hi
    exact hnew a ha (hij.trans (List.mem_singleton.mp hj))
  · have hothers : (waiting snapshots additions).filter (fun a => a.id ≠ action.id) = waiting snapshots additions := by
      refine List.filter_eq_self.mpr ?_
      intro a ha
      exact decide_eq_true (hnew a (mem_waiting.mp ha).1)
    have hwaits : [action].filter (fun a => snapshots.all fun l => a.id ∉ l.map DeviceAction.id) = [action] := by
      refine List.filter_eq_self.mpr ?_
      intro a ha
      rw [List.mem_singleton.mp ha]
      simpa using huncarried
    change s.rules.added.filter (fun a => a.id ≠ action.id) ++ [action] = _
    rw [h.added, hothers, waiting, waiting, List.filter_append, hwaits]

/-! ## All cards -/

theorem Inv.init {initial : List DeviceAction} (h : (card initial).init s) : Inv (snapshotsOf initial []) [] [] s := by
  obtain ⟨hsnapshot, hlatest, hrules, hflights, hdistinct, hserved⟩ := h
  have hall : ∀ l ∈ snapshotsOf initial [], l = initial := fun l hl => List.mem_singleton.mp hl
  refine ⟨hsnapshot ▸ hdistinct, by simp [hsnapshot, snapshotsOf], by simp [hlatest, snapshotsOf], ?_, ?_, ?_, ?_,
    List.nodup_nil, ?_, ?_, ?_⟩
  · intro l hl
    rw [hall l hl]
    exact hserved
  · intro l hl a ha b hb hid
    rw [hall l hl] at ha
    rw [hsnapshot] at hb
    rw [List.inj_on_of_nodup_map hdistinct hb ha hid]
  · exact fun a ha => absurd ha List.not_mem_nil
  · exact fun a ha => absurd ha List.not_mem_nil
  · rw [hrules]
    rfl
  · intro id
    rw [hrules]
    exact fun a ha => absurd ha List.not_mem_nil
  · intro id
    rw [hflights, hrules]
    intro a
    simp [NO_LOCAL_RULES]

theorem Inv.step {initial : List DeviceAction} {es : List Event} {e : Event} {s' : State}
    (h : Inv (snapshotsOf initial es) (additionsOf es) (acceptedOf es) s) (hstep : Step s e s')
    (hcoherent : Coherent initial es s e) :
    Inv (snapshotsOf initial (es ++ [e])) (additionsOf (es ++ [e])) (acceptedOf (es ++ [e])) s' := by
  have hsnapshots : snapshotsOf initial (es ++ [e]) = snapshotsOf initial es ++ e.snapshot.toList := by
    simp only [snapshotsOf, List.filterMap_append, List.cons_append]
    cases hsnapshot : e.snapshot <;> simp [hsnapshot]
  have hadditions : additionsOf (es ++ [e]) = additionsOf es ++ e.added.toList := by
    simp only [additionsOf, List.filterMap_append]
    cases hadded : e.added <;> simp [hadded]
  have haccepted : acceptedOf (es ++ [e]) = acceptedOf es ++ e.accepted.toList := by
    simp only [acceptedOf, List.filterMap_append]
    cases haccept : e.accepted <;> simp [haccept]
  rw [hsnapshots, hadditions, haccepted]
  cases hstep with
  | create hnone =>
    simp only [Event.snapshot, Event.added, Event.accepted, Option.toList_none, List.append_nil]
    exact h.serve (grows_update fun old hold => absurd (hnone.symm.trans hold) (by simp))
  | serve hsome hlt =>
    simp only [Event.snapshot, Event.added, Event.accepted, Option.toList_none, List.append_nil]
    refine h.serve (grows_update fun old hold => ?_)
    obtain rfl := Option.some.inj (hsome.symm.trans hold)
    exact ⟨rfl, hlt.le⟩
  | arrive hdistinct hserved =>
    simp only [Event.snapshot, Event.added, Event.accepted, Option.toList_none, Option.toList_some, List.append_nil]
    exact h.arrive hdistinct hserved hcoherent
  | effect =>
    simp only [Event.snapshot, Event.added, Event.accepted, Option.toList_none, List.append_nil]
    exact { h with latest_mem := h.snapshot_mem }
  | toggle hrow hwriting hunknown =>
    simp only [Event.snapshot, Event.added, Event.accepted, Option.toList_none, List.append_nil]
    refine h.patch (fun _ => rfl) ⟨rfl, rfl, ?_⟩
    exact fun data hdata => absurd hdata (by simp)
  | @answer f data r version hf hnone hserver hversion hlt =>
    simp only [Event.snapshot, Event.added, Event.accepted, Option.toList_none, List.append_nil]
    have hgrows : Grows s.server (Function.update s.server data.id (some ⟨r.first, version, r.le.trans hlt.le⟩)) := by
      refine grows_update fun old hold => ?_
      obtain rfl := Option.some.inj (hserver.symm.trans hold)
      exact ⟨rfl, hlt.le⟩
    refine { h.serve hgrows with flies := ?_ }
    intro i
    by_cases hi : i = data.id
    · subst hi
      have hflies := h.flies data.id
      rw [hf] at hflies
      simp only [Function.update_self]
      refine ⟨hflies.1, hflies.2.1, fun d hd => ?_⟩
      obtain rfl : data = d := Option.some.inj hd
      refine ⟨rfl, ⟨_, version, Function.update_self .., hversion, r.le.trans_lt hlt, le_rfl⟩, fun a ha haid => ?_⟩
      obtain ⟨r', v, hserver', hv, -, hle⟩ := h.written a ha
      rw [haid, hserver] at hserver'
      obtain rfl := Option.some.inj hserver'
      simp only [versionOf, hversion, hv, Option.getD_some]
      omega
    · simpa only [Function.update_of_ne hi] using (h.flies i).grows hgrows
  | accept hf hresponse =>
    simp only [Event.snapshot, Event.added, Event.accepted, Option.toList_none, Option.toList_some, List.append_nil]
    exact h.accept hf hresponse
  | @refuse f id hf hnone =>
    simp only [Event.snapshot, Event.added, Event.accepted, Option.toList_none, List.append_nil]
    have hflies := h.flies id
    rw [hf] at hflies
    rw [hflies.1]
    exact h.patch (fun _ => rfl) fun a => by simp
  | @lose f id hf =>
    simp only [Event.snapshot, Event.added, Event.accepted, Option.toList_none, List.append_nil]
    have hflies := h.flies id
    rw [hf] at hflies
    obtain ⟨rfl, -, -⟩ := hflies
    exact h.patch (fun _ => rfl) fun a => by simp
  | add hserver hfirst =>
    simp only [Event.snapshot, Event.added, Event.accepted, Option.toList_none, Option.toList_some, List.append_nil]
    exact h.add hserver hfirst hcoherent.1 hcoherent.2

theorem settled_patch (rules : LocalRules) (id : Text) {update : Override → Override}
    (h : ∀ o, (update o).confirmed = o.confirmed) : (patch rules id update).settled = rules.settled := by
  have hoverrides : (patch rules id update).settled.overrides = rules.settled.overrides := by
    funext i
    simp only [LocalRules.settled, patch]
    by_cases hi : i = id
    · subst hi
      rw [Function.update_self, h]
    · rw [Function.update_of_ne hi]
  simp only [LocalRules.settled, patch] at hoverrides ⊢
  rw [hoverrides]

def Event.failed : Event → Bool
  | .refuse _ => true
  | .lose _ => true
  | _ => false

theorem failed_baseline {e : Event} {s' : State} (hstep : Step s e s') (hfailed : e.failed = true) :
    baseline s' = baseline s := by
  cases hstep with
  | @refuse f id hf hnone =>
    have hsettled : (refuseWrite s.rules f.row.id).settled = s.rules.settled := settled_patch _ _ (by intro o; rfl)
    exact congrArg (fun rules => (mergeRules s.snapshot rules).map RuleRow.action) hsettled
  | @lose f id hf =>
    have hsettled : (loseWrite s.rules f.row).settled = s.rules.settled := settled_patch _ _ (by intro o; rfl)
    exact congrArg (fun rules => (mergeRules s.snapshot rules).map RuleRow.action) hsettled
  | _ => exact absurd hfailed (by simp [Event.failed])

/-- **The card never rolls a rule back.** -/
theorem card_never_rolls_back {initial : List DeviceAction} {es : List Event}
    (h : (card initial).RunWhere (Coherent initial) es s) :
    Shows initial es s ∧ ∀ e s', (card initial).step s e s' → e.failed = true → baseline s' = baseline s := by
  have hinv : Inv (snapshotsOf initial es) (additionsOf es) (acceptedOf es) s := by
    induction h with
    | init h₀ => exact Inv.init h₀
    | step _ hs hc ih => exact ih.step hs hc
  exact ⟨hinv.shows, fun e s' hstep hfailed => failed_baseline hstep hfailed⟩

/-! ## Two cards -/

namespace Bench

def rule : DeviceAction := ⟨js "a1", .alert, js "x", js "y", true, some .synced, some 1⟩

def written : DeviceAction := { rule with enabled := false, sync := some .pending, version := some 2 }

def server : Text → Option Versions := fun id => if id = rule.id then some ⟨1, 1, le_rfl⟩ else none

def flight : Flight := ⟨rule, 0, none⟩

def s₀ : State := ⟨[rule], [rule], NO_LOCAL_RULES, fun _ => none, server⟩

def s₁ : State := { s₀ with
  rules := startWrite s₀.rules flight.attempt
  flights := Function.update s₀.flights rule.id (some flight) }

theorem written_later : (1 : ℕ) ≤ 2 := by decide

def s₂ : State := { s₁ with
  flights := Function.update s₁.flights rule.id (some { flight with response := some written })
  server := Function.update s₁.server rule.id (some ⟨1, 2, written_later⟩) }

def s₃ : State := { s₂ with
  rules := finishWrite s₂.rules written (some rule) 0
  flights := Function.update s₂.flights rule.id none }

def s₄ : State := { s₃ with snapshot := [rule], rules := reconcile [rule] s₃.rules }

theorem late_run : (card [rule]).RunWhere (Coherent [rule])
    [.toggle rule.id, .answer written, .accept written, .arrive [rule]] s₄ := by
  have hserved : ∀ a ∈ [rule], Served server a := by
    intro a ha
    rw [List.mem_singleton.mp ha]
    exact ⟨⟨1, 1, le_rfl⟩, 1, rfl, rfl, le_rfl, le_rfl⟩
  have hserved' : ∀ a ∈ [rule], Served s₃.server a := by
    intro a ha
    rw [List.mem_singleton.mp ha]
    exact ⟨⟨1, 2, by omega⟩, 1, rfl, rfl, le_rfl, by decide⟩
  have hinit : (card [rule]).init s₀ := ⟨rfl, rfl, rfl, fun _ => rfl, List.nodup_singleton _, hserved⟩
  have hrow : (⟨rule, none⟩ : RuleRow) ∈ mergeRules s₀.snapshot s₀.rules := by decide
  have htoggle : Step s₀ (.toggle rule.id) s₁ := .toggle hrow (by decide) (by decide)
  have hanswer : Step s₁ (.answer written) s₂ :=
    @Step.answer s₁ flight written ⟨1, 1, le_rfl⟩ 2 rfl rfl rfl rfl Nat.one_lt_two
  have haccept : Step s₂ (.accept written) s₃ :=
    @Step.accept s₂ { flight with response := some written } written rfl rfl
  have harrive : Step s₃ (.arrive [rule]) s₄ := .arrive (List.nodup_singleton _) hserved'
  have hcoherent : Coherent [rule] [.toggle rule.id, .answer written, .accept written] s₃ (.arrive [rule]) := by
    intro l hl a ha b hb _
    have hl : l = [rule] := List.mem_singleton.mp hl
    rw [hl] at ha
    rw [List.mem_singleton.mp ha, List.mem_singleton.mp hb]
  exact .step (.step (.step (.step (.init hinit) htoggle trivial) hanswer trivial) haccept trivial) harrive hcoherent

end Bench

/-- What was accepted is still shown. -/
theorem card_never_rolls_back_bench :
    (mergeRules Bench.s₄.snapshot Bench.s₄.rules).map RuleRow.action = [Bench.written] ∧
      Shows [Bench.rule] [.toggle Bench.rule.id, .answer Bench.written, .accept Bench.written, .arrive [Bench.rule]]
        Bench.s₄ :=
  ⟨by decide, (card_never_rolls_back Bench.late_run).1⟩

namespace Bench

def t₀ : State := ⟨[], [], NO_LOCAL_RULES, fun _ => none, fun _ => none⟩

def t₁ : State := { t₀ with server := Function.update t₀.server rule.id (some ⟨1, 1, le_rfl⟩) }

def t₂ : State := { t₁ with rules := withAdded t₁.rules rule }

def t₃ : State := { t₂ with snapshot := [rule], rules := reconcile [rule] t₂.rules }

def t₄ : State := { t₃ with
  rules := startWrite t₃.rules (Flight.attempt ⟨rule, 1, none⟩)
  flights := Function.update t₃.flights rule.id (some ⟨rule, 1, none⟩) }

def t₅ : State := { t₄ with snapshot := [], rules := reconcile [] t₄.rules }

theorem early_run : (card []).RunWhere (Coherent [])
    [.serve rule.id 1, .add rule, .arrive [rule], .toggle rule.id, .arrive []] t₅ := by
  have hserved : ∀ a ∈ [rule], Served t₂.server a := by
    intro a ha
    rw [List.mem_singleton.mp ha]
    exact ⟨⟨1, 1, le_rfl⟩, 1, rfl, rfl, le_rfl, le_rfl⟩
  have hinit : (card []).init t₀ :=
    ⟨rfl, rfl, rfl, fun _ => rfl, List.nodup_nil, fun a ha => absurd ha List.not_mem_nil⟩
  have hserve : Step t₀ (.serve rule.id 1) t₁ := .create rfl
  have hadd : Step t₁ (.add rule) t₂ := .add rfl rfl
  have harrive : Step t₂ (.arrive [rule]) t₃ := .arrive (List.nodup_singleton _) hserved
  have hrow : (⟨rule, none⟩ : RuleRow) ∈ mergeRules t₃.snapshot t₃.rules := by decide
  have htoggle : Step t₃ (.toggle rule.id) t₄ := .toggle hrow (by decide) (by decide)
  have hleave : Step t₄ (.arrive []) t₅ := .arrive List.nodup_nil fun a ha => absurd ha List.not_mem_nil
  have hfirst : Coherent [] [.serve rule.id 1, .add rule] t₂ (.arrive [rule]) := by
    intro l hl a ha
    rw [List.mem_singleton.mp hl] at ha
    exact absurd ha List.not_mem_nil
  have hnew : Coherent [] [.serve rule.id 1] t₁ (.add rule) := by
    refine ⟨fun l hl a ha => ?_, fun a ha => absurd ha List.not_mem_nil⟩
    rw [List.mem_singleton.mp hl] at ha
    exact absurd ha List.not_mem_nil
  have hlast : Coherent [] [.serve rule.id 1, .add rule, .arrive [rule], .toggle rule.id] t₄ (.arrive []) :=
    fun l _ a _ b hb => absurd hb List.not_mem_nil
  exact .step (.step (.step (.step (.step (.init hinit) hserve trivial) hadd hnew) harrive hfirst) htoggle trivial)
    hleave hlast

end Bench

/-- **A rule that was added, and that a snapshot has carried, is not shown when a snapshot arrives without it**, and
nor is the write on it. -/
theorem carried_once : ∃ es s, (card []).RunWhere (Coherent []) es s ∧
    ∃ a ∈ additionsOf es, a.id ∉ s.snapshot.map DeviceAction.id ∧ (s.flights a.id).isSome ∧
      a.id ∉ (mergeRules s.snapshot s.rules).map (fun row => row.action.id) :=
  ⟨_, _, Bench.early_run, Bench.rule, by decide, by decide, by decide, by decide⟩

end Albusforge.Web.Rules
