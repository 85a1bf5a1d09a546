import Mathlib.Algebra.GroupWithZero.Nat
import Albusforge.Intake.Turns

/-!
# One reply to a message

The user's messages stand at least two microseconds apart, and a reply stands one after
the message it answers. So a transcript in order shows at once which message a reply
answers, as long as no message gets two. That is the lock's doing: **whoever is about to
write a reply holds the lock, and found its message unanswered under it** (`Careful`). A
write that was given up is no exception, since the lock goes only with the session.
-/

namespace Albusforge.Intake

open Albusforge.Lib Albusforge.Gateway

/-! ## The messages -/

structure Dialogue (answered : List Answer) (table : List MessageRow) : Prop where
  ids : (table.map MessageRow.id).Nodup
  spaced : ∀ u ∈ table, ∀ v ∈ table, u.role = .user → v.role = .user → u ≠ v →
    u.createdAt + 2 ≤ v.createdAt ∨ v.createdAt + 2 ≤ u.createdAt
  pairs : ∀ a ∈ answered, a.target ∈ table ∧ a.target.role = .user ∧ a.reply ∈ table ∧
    a.reply.role = .assistant ∧ a.reply.createdAt = a.target.createdAt + 1
  once : (answered.map fun a => a.target.id).Nodup
  replies : ∀ r ∈ table, r.role = .assistant → ∃ a ∈ answered, a.reply = r

theorem dialogue_empty : Dialogue [] [] :=
  ⟨by simp, by simp, by simp, by simp, by simp⟩

variable {answered : List Answer} {table : List MessageRow}

theorem Dialogue.ask (h : Dialogue answered table) {m : MessageRow} (hrole : m.role = .user)
    (hid : ∀ m' ∈ table, m'.id ≠ m.id) (hlate : ∀ m' ∈ table, m'.createdAt + 2 ≤ m.createdAt) :
    Dialogue answered (table ++ [m]) := by
  refine ⟨?_, ?_, ?_, h.once, ?_⟩
  · rw [List.map_append, List.map_singleton]
    refine List.Nodup.append h.ids (List.nodup_singleton _) ?_
    intro id hold hnew
    obtain ⟨m', hm', rfl⟩ := List.mem_map.mp hold
    exact hid m' hm' (List.mem_singleton.mp hnew)
  · intro u hu v hv hur hvr hne
    rcases List.mem_append.mp hu with hu | hu
    · rcases List.mem_append.mp hv with hv | hv
      · exact h.spaced u hu v hv hur hvr hne
      · rw [List.mem_singleton.mp hv]
        exact Or.inl (hlate u hu)
    · rcases List.mem_append.mp hv with hv | hv
      · rw [List.mem_singleton.mp hu]
        exact Or.inr (hlate v hv)
      · exact absurd ((List.mem_singleton.mp hu).trans (List.mem_singleton.mp hv).symm) hne
  · intro a ha
    obtain ⟨htarget, hrole, hreply, hrest⟩ := h.pairs a ha
    exact ⟨List.mem_append_left _ htarget, hrole, List.mem_append_left _ hreply, hrest⟩
  · intro r hr hr'
    rcases List.mem_append.mp hr with hr | hr
    · exact h.replies r hr hr'
    · rw [List.mem_singleton.mp hr, hrole] at hr'
      exact absurd hr' (by simp)

theorem Dialogue.answer (h : Dialogue answered table) {a : Answer} (htarget : a.target ∈ table)
    (huser : a.target.role = .user) (hnone : ∀ b ∈ answered, b.target.id ≠ a.target.id)
    (hrole : a.reply.role = .assistant) (htime : a.reply.createdAt = a.target.createdAt + 1)
    (hid : ∀ m ∈ table, m.id ≠ a.reply.id) : Dialogue (answered ++ [a]) (table ++ [a.reply]) := by
  have huserOld : ∀ u ∈ table ++ [a.reply], u.role = .user → u ∈ table := by
    intro u hu hur
    rcases List.mem_append.mp hu with hu | hu
    · exact hu
    · rw [List.mem_singleton.mp hu, hrole] at hur
      exact absurd hur (by simp)
  refine ⟨?_, ?_, ?_, ?_, ?_⟩
  · rw [List.map_append, List.map_singleton]
    refine List.Nodup.append h.ids (List.nodup_singleton _) ?_
    intro id hold hnew
    obtain ⟨m', hm', rfl⟩ := List.mem_map.mp hold
    exact hid m' hm' (List.mem_singleton.mp hnew)
  · intro u hu v hv hur hvr hne
    exact h.spaced u (huserOld u hu hur) v (huserOld v hv hvr) hur hvr hne
  · intro b hb
    rcases List.mem_append.mp hb with hb | hb
    · obtain ⟨htarget, hrole, hreply, hrest⟩ := h.pairs b hb
      exact ⟨List.mem_append_left _ htarget, hrole, List.mem_append_left _ hreply, hrest⟩
    · rw [List.mem_singleton.mp hb]
      exact ⟨List.mem_append_left _ htarget, huser, by simp, hrole, htime⟩
  · rw [List.map_append, List.map_singleton]
    refine List.Nodup.append h.once (List.nodup_singleton _) ?_
    intro id hold hnew
    obtain ⟨b, hb, rfl⟩ := List.mem_map.mp hold
    exact hnone b hb (List.mem_singleton.mp hnew)
  · intro r hr hr'
    rcases List.mem_append.mp hr with hr | hr
    · obtain ⟨b, hb, hbr⟩ := h.replies r hr hr'
      exact ⟨b, List.mem_append_left _ hb, hbr⟩
    · exact ⟨a, by simp, (List.mem_singleton.mp hr).symm⟩

theorem Dialogue.user_eq (h : Dialogue answered table) {u v : MessageRow} (hu : u ∈ table)
    (hv : v ∈ table) (hur : u.role = .user) (hvr : v.role = .user)
    (hle : u.createdAt ≤ v.createdAt + 1) (hge : v.createdAt ≤ u.createdAt + 1) : u = v := by
  by_contra hne
  have := h.spaced u hu v hv hur hvr hne
  omega

theorem Dialogue.between (h : Dialogue answered table) {a : Answer} (ha : a ∈ answered)
    {m : MessageRow} (hm : m ∈ table) (hle : a.target.createdAt ≤ m.createdAt)
    (hge : m.createdAt ≤ a.reply.createdAt) : m = a.target ∨ m = a.reply := by
  obtain ⟨htarget, huser, -, -, htime⟩ := h.pairs a ha
  cases hrole : m.role with
  | user => exact Or.inl (h.user_eq hm htarget hrole huser (by omega) (by omega))
  | assistant =>
      right
      obtain ⟨b, hb, rfl⟩ := h.replies m hm hrole
      obtain ⟨htarget', huser', -, -, htime'⟩ := h.pairs b hb
      have hsame : b.target = a.target :=
        h.user_eq htarget' htarget huser' huser (by omega) (by omega)
      have hba : b = a := List.inj_on_of_nodup_map h.once hb ha (by rw [hsame])
      rw [hba]

/-- **A reply directly follows the message it answers.** -/
theorem Dialogue.follows (h : Dialogue answered table) {a : Answer} (ha : a ∈ answered) :
    ∃ front back, listMessages table = front ++ a.target :: a.reply :: back := by
  obtain ⟨htarget, -, hreply, -, htime⟩ := h.pairs a ha
  refine adjacent_of_sorted (listMessages_sorted h.ids) (mem_listMessages.mpr htarget)
    (mem_listMessages.mpr hreply) (MessageRow.key_lt.mpr (Or.inl (by omega))) ?_
  intro m hm hafter hbefore
  have hle : a.target.createdAt ≤ m.createdAt := by
    rcases MessageRow.key_lt.mp hafter with h | h <;> omega
  have hge : m.createdAt ≤ a.reply.createdAt := by
    rcases MessageRow.key_lt.mp hbefore with h | h <;> omega
  rcases h.between ha (mem_listMessages.mp hm) hle hge with rfl | rfl
  · exact lt_irrefl _ hafter
  · exact lt_irrefl _ hbefore

/-! ## The specs -/

inductive Versions {δ : Type} (runTurn : TurnInput δ → TurnOutcome δ → Prop) :
    List (SpecRow δ) → Prop
  | nil : Versions runTurn []
  | snoc {specs : List (SpecRow δ)} {input : TurnInput δ} {d : Decision δ} :
      Versions runTurn specs → runTurn input (.spec d) → d.newVersion = true →
      input.previous = specs.getLast?.map SpecRow.data →
      Versions runTurn (specs ++ [⟨specs.length + 1, d.spec⟩])

section

variable {δ : Type} {runTurn : TurnInput δ → TurnOutcome δ → Prop} {specs : List (SpecRow δ)}

theorem Versions.latest (h : Versions runTurn specs) :
    latestSpecOf specs = specs.getLast? ∧ (specs.getLast?.map SpecRow.version).getD 0 = specs.length := by
  induction h with
  | nil => exact ⟨rfl, rfl⟩
  | @snoc specs input d _ _ _ _ ih =>
      obtain ⟨hlatest, hlast⟩ := ih
      refine ⟨?_, by simp⟩
      rw [latestSpecOf, List.foldl_append, ← latestSpecOf, hlatest, List.getLast?_concat]
      cases hs : specs.getLast? with
      | none => rfl
      | some s =>
          rw [hs] at hlast
          have hversion : s.version = specs.length := hlast
          simp [hversion]

end

/-! ## The calls -/

section

variable {δ : Type}

def Phase.holds : Phase δ → Bool
  | .reading _ => true
  | .readingSpecs _ _ _ => true
  | .readingRounds _ _ _ _ => true
  | .turning _ _ _ _ => true
  | .writing _ _ => true
  | .unlocking _ _ => true
  | .dying (some (.write _)) => true
  | _ => false

def Phase.target : Phase δ → Option MessageRow
  | .readingSpecs _ t _ => some t
  | .readingRounds _ t _ _ => some t
  | .turning _ t _ _ => some t
  | .writing _ turn => some turn.target
  | .dying (some (.write turn)) => some turn.target
  | _ => none

structure Turn.Sound (runTurn : TurnInput δ → TurnOutcome δ → Prop) (specs : List (SpecRow δ))
    (t : Turn δ) : Prop where
  latest : t.latestSpec = latestSpecOf specs
  previous : t.input.previous = (latestSpecOf specs).map SpecRow.data
  ends : MayEnd runTurn t.input t.outcome

def Phase.Sound (runTurn : TurnInput δ → TurnOutcome δ → Prop) (specs : List (SpecRow δ)) :
    Phase δ → Prop
  | .readingRounds _ _ _ latest => latest = latestSpecOf specs
  | .turning _ _ input latest =>
      latest = latestSpecOf specs ∧ input.previous = (latestSpecOf specs).map SpecRow.data
  | .writing _ turn => turn.Sound runTurn specs
  | .dying (some (.write turn)) => turn.Sound runTurn specs
  | _ => True

/-- A call about to write holds the lock, its message is unanswered, and its turn is up to date. -/
structure Careful (runTurn : TurnInput δ → TurnOutcome δ → Prop) (answered : List Answer)
    (w : World δ) (i : ℕ) (p : Phase δ) : Prop where
  holds : p.holds = true → w.holder = some (.call i)
  target : ∀ t, p.target = some t → t ∈ w.table ∧ t.role = .user ∧ ∀ a ∈ answered, a.target.id ≠ t.id
  sound : p.Sound runTurn w.specs

theorem Careful.of_idle {runTurn : TurnInput δ → TurnOutcome δ → Prop} {answered : List Answer}
    {w : World δ} {i : ℕ} {p : Phase δ} (h : p.holds = false) : Careful runTurn answered w i p := by
  refine ⟨by simp [h], ?_, ?_⟩
  · intro t ht
    cases p with
    | dying sent =>
        cases sent with
        | none => exact absurd ht (by simp [Phase.target])
        | some sent => cases sent <;> simp_all [Phase.target, Phase.holds]
    | _ => simp_all [Phase.target, Phase.holds]
  · cases p with
    | dying sent =>
        cases sent with
        | none => trivial
        | some sent => cases sent <;> simp_all [Phase.Sound, Phase.holds]
    | _ => simp_all [Phase.Sound, Phase.holds]

end

theorem Dialogue.unanswered (h : Dialogue answered table) {t : MessageRow}
    (ht : unanswered table = some t) :
    t ∈ table ∧ t.role = .user ∧ ∀ a ∈ answered, a.target.id ≠ t.id := by
  rw [Intake.unanswered, Option.filter_eq_some_iff] at ht
  obtain ⟨hmem, hlast⟩ := lastMessageOf_some ht.1
  refine ⟨hmem, by simpa using ht.2, ?_⟩
  intro a ha hid
  obtain ⟨htarget, -, hreply, -, htime⟩ := h.pairs a ha
  have hsame : a.target = t := List.inj_on_of_nodup_map h.ids htarget hmem hid
  have hlt : t.key < a.reply.key := MessageRow.key_lt.mpr (Or.inl (by rw [htime, hsame]; omega))
  exact absurd (hlast a.reply hreply) (not_le.mpr hlt)

section

variable {δ : Type} {runTurn : TurnInput δ → TurnOutcome δ → Prop}

structure Wrote (w : World δ) (t : Turn δ) (w' : World δ) (a : Answer) : Prop where
  target : a.target = t.target
  role : a.reply.role = .assistant
  time : ∃ row ∈ w.table, row.id = t.target.id ∧ a.reply.createdAt = row.createdAt + 1
  fresh : ∀ m ∈ w.table, m.id ≠ a.reply.id
  table : w'.table = w.table ++ [a.reply]
  specs : w'.specs = w.specs ++ t.newSpec.toList
  holder : w'.holder = w.holder
  calls : w'.calls = w.calls

theorem Versions.write {w w' : World δ} {t : Turn δ} {a : Answer} (h : Versions runTurn w.specs)
    (hsound : t.Sound runTurn w.specs) (hwrote : Wrote w t w' a) : Versions runTurn w'.specs := by
  rw [hwrote.specs]
  obtain ⟨hlatest, hlength⟩ := h.latest
  unfold Turn.newSpec
  split
  · rename_i d hd
    split
    · rename_i hnew
      have hversion : (t.latestSpec.map SpecRow.version).getD 0 = w.specs.length := by
        rw [hsound.latest, hlatest, hlength]
      rw [hversion]
      refine .snoc h ?_ hnew (by rw [hsound.previous, hlatest])
      rcases hsound.ends with hends | hends | hends
      · rwa [hd] at hends
      · rw [hd] at hends
        exact absurd hends (by simp)
      · rw [hd] at hends
        exact absurd hends (by simp)
    · simpa using h
  · simpa using h

theorem released_holder {w : World δ} {i j : ℕ} (hne : j ≠ i) (h : w.holder = some (.call j)) :
    (w.released i).holder = some (.call j) := by
  simp [World.released, h, hne]

theorem Careful.lock {es : List Answer} {w : World δ} {i : ℕ} {p : Phase δ}
    (h : Careful runTurn es w i p) {holder : Option Holder}
    (hne : ∀ i, w.holder ≠ some (.call i)) : Careful runTurn es { w with holder := holder } i p :=
  ⟨fun hp => absurd (h.holds hp) (hne i), h.target, h.sound⟩

theorem Careful.grow {es : List Answer} {w : World δ} {i : ℕ} {p : Phase δ}
    (h : Careful runTurn es w i p) {m : MessageRow} :
    Careful runTurn es { w with table := w.table ++ [m] } i p := by
  refine ⟨h.holds, ?_, h.sound⟩
  intro t ht
  obtain ⟨hmem, hrest⟩ := h.target t ht
  exact ⟨List.mem_append_left _ hmem, hrest⟩

structure Inv (runTurn : TurnInput δ → TurnOutcome δ → Prop)
    (es : List (Action δ × Shown)) (w : World δ) : Prop where
  dialogue : Dialogue (answers es) w.table
  versions : Versions runTurn w.specs
  calls : ∀ i c, w.calls[i]? = some c → Careful runTurn (answers es) w i c.phase

@[simp] theorem answers_nothing (es : List (Action δ × Shown)) (e : Action δ) :
    answers (es ++ [(e, .nothing)]) = answers es := by
  simp [answers, Shown.answer]

@[simp] theorem answers_said (es : List (Action δ × Shown)) (e : Action δ) (m : MessageRow) :
    answers (es ++ [(e, .said m)]) = answers es := by
  simp [answers, Shown.answer]

@[simp] theorem answers_answered (es : List (Action δ × Shown)) (e : Action δ) (a : Answer) :
    answers (es ++ [(e, .answered a)]) = answers es ++ [a] := by
  simp [answers, Shown.answer]

theorem Inv.say {es : List (Action δ × Shown)} {w : World δ} {e : Action δ} {m : MessageRow}
    (h : Inv runTurn es w) (hrole : m.role = .user) (hid : ∀ m' ∈ w.table, m'.id ≠ m.id)
    (hlate : ∀ m' ∈ w.table, m'.createdAt + 2 ≤ m.createdAt) :
    Inv runTurn (es ++ [(e, (w.say m).2)]) (w.say m).1 := by
  refine ⟨?_, h.versions, ?_⟩
  · rw [World.say, answers_said]
    exact h.dialogue.ask hrole hid hlate
  · rw [World.say, answers_said]
    exact fun i c hc => (h.calls i c hc).grow

theorem Inv.still {es : List (Action δ × Shown)} {w : World δ} {e : Action δ}
    (h : Inv runTurn es w) : Inv runTurn (es ++ [(e, .nothing)]) w := by
  refine ⟨?_, h.versions, ?_⟩
  · rw [answers_nothing]
    exact h.dialogue
  · rw [answers_nothing]
    exact h.calls

theorem Inv.lock {es : List (Action δ × Shown)} {w : World δ} (h : Inv runTurn es w)
    {holder : Option Holder} (hne : ∀ i, w.holder ≠ some (.call i)) :
    Inv runTurn es { w with holder := holder } :=
  ⟨h.dialogue, h.versions, fun i c hc => (h.calls i c hc).lock hne⟩

variable [SpecData δ]

theorem write_wrote {w w' : World δ} {t : Turn δ} {id : Uuid} {a : Answer}
    (h : w.write t id = some (w', a)) : Wrote w t w' a := by
  unfold World.write at h
  cases hreply : t.reply id w.table with
  | none => rw [hreply] at h; exact absurd h (by simp)
  | some reply =>
      obtain ⟨row, hrow, rfl⟩ := Option.map_eq_some_iff.mp hreply
      have hmem := List.mem_of_find?_eq_some hrow
      have hsame := List.find?_some hrow
      have hid : row.id = t.target.id := eq_of_beq hsame
      rw [hreply] at h
      dsimp only at h
      split at h
      · exact absurd h (by simp)
      · rename_i hfresh
        have hfresh : ∀ m ∈ w.table, m.id ≠ id := by
          intro m hm hmid
          exact hfresh (List.any_eq_true.mpr ⟨m, hm, beq_iff_eq.mpr hmid⟩)
        split at h
        · rename_i hspec
          obtain ⟨rfl, rfl⟩ := Prod.mk.inj (Option.some.inj h)
          exact ⟨rfl, rfl, ⟨row, hmem, hid, rfl⟩, hfresh, rfl, by simp [hspec], rfl, rfl⟩
        · rename_i spec hspec
          split at h
          · exact absurd h (by simp)
          · obtain ⟨rfl, rfl⟩ := Prod.mk.inj (Option.some.inj h)
            exact ⟨rfl, rfl, ⟨row, hmem, hid, rfl⟩, hfresh, rfl, by simp [hspec], rfl, rfl⟩

theorem Path.holder_other {w : World δ} {i j : ℕ} {mayRetry : Bool} {m : Move δ} {p p' : Phase δ}
    {holder : Option Holder} (hne : j ≠ i) (h : Path w i mayRetry p m p' holder)
    (hj : w.holder = some (.call j)) : holder = some (.call j) := by
  have hgrants : w.grants i = false := by simp [World.grants, hj, hne]
  cases h with
  | locked hg => rw [hgrants] at hg; exact absurd hg (by simp)
  | lockLands hg => rw [hgrants] at hg; exact absurd hg (by simp)
  | unlocked => exact released_holder hne hj
  | unlockLands => exact released_holder hne hj
  | ends => exact released_holder hne hj
  | _ => exact hj

theorem Path.careful {es : List Answer} {w : World δ} {i : ℕ} {mayRetry : Bool} {m : Move δ}
    {p p' : Phase δ} {holder : Option Holder} (hdialogue : Dialogue es w.table)
    (hc : Careful runTurn es w i p) (h : Path w i mayRetry p m p' holder)
    (hends : ∀ n t input latest o, p = .turning n t input latest → m = .turned o →
      MayEnd runTurn input o) {status : BuildStatus} {calls : List (Call δ)} :
    Careful runTurn es { w with status := status, holder := holder, calls := calls } i p' := by
  cases h with
  | locked hg => exact ⟨fun _ => rfl, by simp [Phase.target], trivial⟩
  | nothing _ => exact ⟨fun _ => hc.holds rfl, by simp [Phase.target], trivial⟩
  | found hu =>
      refine ⟨fun _ => hc.holds rfl, ?_, trivial⟩
      intro t ht
      obtain rfl := Option.some.inj ht
      exact hdialogue.unanswered hu
  | readSpecs => exact ⟨fun _ => hc.holds rfl, hc.target, rfl⟩
  | readRounds =>
      have hlatest := hc.sound
      exact ⟨fun _ => hc.holds rfl, hc.target, hlatest, by rw [← hlatest]⟩
  | retry _ => exact ⟨fun _ => hc.holds rfl, by simp [Phase.target], trivial⟩
  | turned =>
      obtain ⟨hlatest, hprevious⟩ := hc.sound
      exact ⟨fun _ => hc.holds rfl, hc.target, hlatest, hprevious, hends _ _ _ _ _ rfl rfl⟩
  | unlocked =>
      refine Careful.of_idle ?_
      split <;> rfl
  | @givenUp _ sent hr =>
      -- only a write in hand keeps the lock needed
      cases sent with
      | false => exact Careful.of_idle rfl
      | true =>
          cases p with
          | writing n turn => exact ⟨fun _ => hc.holds rfl, hc.target, hc.sound⟩
          | _ => exact Careful.of_idle rfl
  | _ => exact Careful.of_idle rfl

/-! ## Runs -/

theorem inv_move {es : List (Action δ × Shown)} {w w' : World δ} {i : ℕ} {c : Call δ}
    {m : Move δ} {shown : Shown} (h : Inv runTurn es w) (hc : w.calls[i]? = some c)
    (hmove : w.move i c m = some (w', shown)) (hallowed : Action.Allowed runTurn w (.move i m)) :
    Inv runTurn (es ++ [(.move i m, shown)]) w' := by
  have hcareful := h.calls i c hc
  have hrange : i < w.calls.length := (List.getElem?_eq_some_iff.mp hc).1
  cases move_moved hmove with
  | @quiet p holder status hpath =>
      refine ⟨by rw [answers_nothing]; exact h.dialogue, h.versions, ?_⟩
      rw [answers_nothing]
      intro j c' hc'
      by_cases hji : j = i
      · subst hji
        rw [List.getElem?_set_self hrange] at hc'
        rw [← Option.some.inj hc']
        refine hpath.careful h.dialogue hcareful ?_
        intro n t input latest o hp hm
        obtain ⟨mayRetry, phase⟩ := c
        have hp : phase = .turning n t input latest := hp
        subst hp hm
        exact hallowed _ _ _ _ _ hc
      · rw [List.getElem?_set_ne (fun hij => hji hij.symm)] at hc'
        have hother := h.calls j c' hc'
        exact ⟨fun hp => hpath.holder_other hji (hother.holds hp), hother.target, hother.sound⟩
  | @wrote turn id p w' a hwriting hwrite =>
      have hwrote := write_wrote hwrite
      -- the writer has the lock, a message without an answer, and an up to date turn
      have hready : c.phase.holds = true ∧ c.phase.target = some turn.target ∧
          turn.Sound runTurn w.specs ∧ p.target = none ∧ p.Sound runTurn w'.specs := by
        have hsound := hcareful.sound
        generalize c.phase = q at hwriting hsound
        cases hwriting with
        | live =>
            refine ⟨rfl, rfl, hsound, ?_, ?_⟩
            · split <;> rfl
            · split <;> trivial
        | abandoned => exact ⟨rfl, rfl, hsound, rfl, trivial⟩
      obtain ⟨hholds, htarget, hsound, hnone, hsound'⟩ := hready
      have hlock := hcareful.holds hholds
      obtain ⟨htmem, huser, hunanswered⟩ := hcareful.target _ htarget
      obtain ⟨row, hrow, hrowid, htime⟩ := hwrote.time
      have hrowtarget : row = turn.target :=
        List.inj_on_of_nodup_map h.dialogue.ids hrow htmem hrowid
      have hversions : Versions runTurn w'.specs := h.versions.write hsound hwrote
      refine ⟨?_, hversions, ?_⟩
      · have hdialogue := h.dialogue.answer (a := a) (by rw [hwrote.target]; exact htmem)
          (by rw [hwrote.target]; exact huser) (by rw [hwrote.target]; exact hunanswered)
          hwrote.role (by rw [htime, hrowtarget, hwrote.target]) hwrote.fresh
        rw [answers_answered]
        exact hwrote.table.symm ▸ hdialogue
      · intro j c' hc'
        have hcalls : (w'.put i { c with phase := p }).calls = w.calls.set i { c with phase := p } := by
          rw [← hwrote.calls]
          rfl
        rw [hcalls] at hc'
        by_cases hji : j = i
        · subst hji
          rw [List.getElem?_set_self hrange] at hc'
          rw [← Option.some.inj hc']
          refine ⟨fun _ => hwrote.holder.trans hlock, ?_, hsound'⟩
          intro t ht
          exact absurd (hnone.symm.trans ht) (by simp)
        · rw [List.getElem?_set_ne (fun hij => hji hij.symm)] at hc'
          refine Careful.of_idle ?_
          by_contra hholds'
          have hj := (h.calls j c' hc').holds (by simpa using hholds')
          exact hji (Holder.call.inj (Option.some.inj (hj.symm.trans hlock)))

theorem inv_step {es : List (Action δ × Shown)} {w w' : World δ} {e : Action δ × Shown}
    (h : Inv runTurn es w) (hs : (turns runTurn).step w e w') : Inv runTurn (es ++ [e]) w' := by
  obtain ⟨action, shown⟩ := e
  obtain ⟨hnext, hallowed⟩ := hs
  cases action with
  | create id askText clientMessageId now =>
      simp only [World.next] at hnext
      split at hnext
      · rename_i hempty
        have hempty : w.table = [] := List.isEmpty_iff.mp hempty
        obtain ⟨rfl, rfl⟩ := Prod.mk.inj (Option.some.inj hnext)
        exact h.say rfl (by simp [hempty]) (by simp [hempty])
      · exact absurd hnext (by simp)
  | submit s =>
      simp only [World.next] at hnext
      split at hnext
      · exact absurd hnext (by simp)
      · split at hnext
        · rename_i m hcreated
          obtain ⟨rfl, rfl⟩ := Prod.mk.inj (Option.some.inj hnext)
          obtain ⟨rfl, hid⟩ := submitUserMessage_created hcreated
          exact h.say rfl hid fun m hm => add_two_le_newCreatedAt s.clock hm
        · obtain ⟨rfl, rfl⟩ := Prod.mk.inj (Option.some.inj hnext)
          exact h.still
  | start mayRetry =>
      obtain ⟨rfl, rfl⟩ := Prod.mk.inj (Option.some.inj hnext)
      refine ⟨by rw [answers_nothing]; exact h.dialogue, h.versions, ?_⟩
      rw [answers_nothing]
      intro i c hc
      rw [List.getElem?_append] at hc
      split at hc
      · have hold := h.calls i c hc
        exact ⟨hold.holds, hold.target, hold.sound⟩
      · -- the new call has done nothing yet
        obtain ⟨_, rfl⟩ := List.getElem?_eq_some_iff.mp hc
        refine Careful.of_idle ?_
        simp [Phase.holds]
  | move i m =>
      obtain ⟨c, hc, hmove⟩ := Option.bind_eq_some_iff.mp hnext
      exact inv_move h hc hmove hallowed
  | otherLocks =>
      simp only [World.next] at hnext
      split at hnext
      · rename_i hfree
        obtain ⟨rfl, rfl⟩ := Prod.mk.inj (Option.some.inj hnext)
        exact (h.lock (by simp [hfree])).still
      · exact absurd hnext (by simp)
  | otherUnlocks =>
      simp only [World.next] at hnext
      split at hnext
      · rename_i hother
        obtain ⟨rfl, rfl⟩ := Prod.mk.inj (Option.some.inj hnext)
        exact (h.lock (by simp [hother])).still
      · exact absurd hnext (by simp)

theorem inv_run {es : List (Action δ × Shown)} {w : World δ}
    (h : (turns runTurn).Run es w) : Inv runTurn es w := by
  refine Machine.RunWhere.invariant ?_ ?_ h
  · intro w ⟨htable, hspecs, hcalls, _⟩
    refine ⟨?_, ?_, by simp [hcalls]⟩
    · rw [htable]
      exact dialogue_empty
    · rw [hspecs]
      exact .nil
  · intro es w e w' hi hs _
    exact inv_step hi hs

/--
**Every message of the user gets at most one reply, which directly follows it; every reply is
one of these; and the spec versions are consecutive, each made of the one before it.**
-/
theorem one_reply_each {es : List (Action δ × Shown)} {w : World δ}
    (h : (turns runTurn).Run es w) :
    ((answers es).map fun a => a.target.id).Nodup ∧
      (∀ a ∈ answers es, a.target.role = .user ∧ a.reply.role = .assistant ∧
        ∃ front back, listMessages w.table = front ++ a.target :: a.reply :: back) ∧
      (∀ r ∈ listMessages w.table, r.role = .assistant → ∃ a ∈ answers es, a.reply = r) ∧
      Versions runTurn w.specs := by
  have hinv := inv_run h
  refine ⟨hinv.dialogue.once, ?_, ?_, hinv.versions⟩
  · intro a ha
    obtain ⟨-, huser, -, hassistant, -⟩ := hinv.dialogue.pairs a ha
    exact ⟨huser, hassistant, hinv.dialogue.follows ha⟩
  · intro r hr hrole
    exact hinv.dialogue.replies r (mem_listMessages.mp hr) hrole

end

namespace Bench

structure Draft where
  settled : Bool
  openQuestions : ℕ
  deriving DecidableEq

instance : SpecData Draft := ⟨Draft.settled, Draft.openQuestions⟩

def nowhere : World Draft :=
  { table := [], specs := [], status := .asking, holder := none, calls := [] }

scoped instance instNeZeroTen : NeZero 10 := ⟨Nat.succ_ne_zero 9⟩

theorem uuid_shape : ∀ n : Fin 10, isUuidText (js "00000000-0000-4000-8000-00000000000" ++ [48 + n.val]) := by
  decide

def uuid (n : Fin 10) : Uuid := ⟨js "00000000-0000-4000-8000-00000000000" ++ [48 + n.val], uuid_shape n⟩

def decision : Decision Draft :=
  { spec := ⟨false, 1⟩, reply := js "Which colour?", status := .asking, newVersion := true }

def answering (i : ℕ) (id : Uuid) : List (Action Draft) :=
  [.move i .read, .move i .readSpecs, .move i .readRounds, .move i (.turned (.spec decision)),
    .move i (.write id false)]

def oneTurn : List (Action Draft) :=
  [.create (uuid 1) (js "a lamp") none 1000000, .start true, .move 0 .begin, .move 0 .tryLock] ++
    answering 0 (uuid 2) ++ [.move 0 .read, .move 0 .unlock, .move 0 .check]

def anything : TurnInput Draft → TurnOutcome Draft → Prop := fun _ _ => True

def after (as : List (Action Draft)) : World Draft := ((nowhere.run as).map Prod.fst).getD nowhere

def events (as : List (Action Draft)) : List (Action Draft × Shown) :=
  ((nowhere.run as).map Prod.snd).getD []

theorem ran {as : List (Action Draft)} (h : (nowhere.run as).isSome = true) :
    (turns anything).Run (events as) (after as) := by
  obtain ⟨⟨w, es⟩, hw⟩ := Option.isSome_iff_exists.mp h
  have hsteps : (turns anything).Steps nowhere es w := World.run_steps (fun _ _ => trivial) hw
  have hfirst : (turns anything).Run [] nowhere := .init ⟨rfl, rfl, rfl, by simp [nowhere]⟩
  have hrun := Machine.Run.steps hfirst hsteps
  rw [List.nil_append] at hrun
  simpa [events, after, hw] using hrun

end Bench

theorem one_reply_each_bench :
    (answers (Bench.events Bench.oneTurn)).map (fun a => a.target.id) = [Bench.uuid 1] ∧
      Versions Bench.anything (Bench.after Bench.oneTurn).specs ∧
      (Bench.after Bench.oneTurn).specs = [⟨1, ⟨false, 1⟩⟩] :=
  ⟨by decide, (one_reply_each (Bench.ran (by decide))).2.2.2, by decide⟩

end Albusforge.Intake
