import Albusforge.Lib.Machine
import Albusforge.Codegen.Bundles

/-!
# The ledger of versions

What the committed firmware versions of all builds go through, one operation at a time: a request adds a
version, a retry reopens one, a worker claims, publishes or fails one, and fails those whose leases have
expired. An operation says all that it needs of the ledger. That the transactions of the services come to
such operations is the business of `Codegen.Refinement`; here is **what holds of every ledger that operations lead
to** (`Ledger.Sound`), and that what has passed stays (`passed_steps`).
-/

namespace Albusforge.Codegen

open Lib Lib.ReadCommitted

abbrev Key := Text × ℕ

variable {π μ : Type}

structure Drafts (π : Type) where
  latestSpec : Text → ℕ
  plans : Text → ℕ → Option (Plan π)

def Drafts.setPlan (x : Drafts π) (b : Text) (v : ℕ) (p : Plan π) : Drafts π :=
  { x with plans := Function.update x.plans b (Function.update (x.plans b) v (some p)) }

inductive Drafted (b : Text) (x : Drafts π) : Drafts π → Prop
  | spec : Drafted b x { x with latestSpec := Function.update x.latestSpec b (x.latestSpec b + 1) }
  | plan {v : ℕ} {p : Plan π} : x.plans b v = none → p.specVersion = x.latestSpec b → p.accepted = false →
      Drafted b x (x.setPlan b v p)
  | accept {v : ℕ} {p : Plan π} : x.plans b v = some p → p.specVersion = x.latestSpec b →
      (∀ v' p', x.plans b v' = some p' → p'.specVersion = x.latestSpec b → p'.accepted = false) →
      Drafted b x (x.setPlan b v { p with accepted := true })

theorem Drafted.stays {b b' : Text} {x x' : Drafts π} (h : Drafted b x x') {v : ℕ} {p : Plan π}
    (hp : x.plans b' v = some p) : ∃ p', x'.plans b' v = some p' := by
  have hset : ∀ v₀ p₀, ∃ p', (x.setPlan b v₀ p₀).plans b' v = some p' := by
    intro v₀ p₀
    by_cases hb : b' = b
    · subst hb
      by_cases hv : v = v₀
      · exact ⟨p₀, by simp [Drafts.setPlan, hv]⟩
      · exact ⟨p, by simp [Drafts.setPlan, Function.update_of_ne hv, hp]⟩
    · exact ⟨p, by simp [Drafts.setPlan, Function.update_of_ne hb, hp]⟩
  cases h with
  | spec => exact ⟨p, hp⟩
  | plan _ _ _ => exact hset _ _
  | accept _ _ _ => exact hset _ _

def Drafts.Current (x : Drafts π) (b : Text) (planVersion : ℕ) : Prop :=
  ∃ p, x.plans b planVersion = some p ∧ p.current (x.latestSpec b) = true

structure Ledger (π μ : Type) where
  rows : Key → Option (Bundle μ)
  drafts : Drafts π
  leases : ℕ → Option Text

inductive Event
  | quiet
  | drafted (buildId : Text)
  | answered (buildId requestId : Text) (version : ℕ)
  | retried (k : Key)
  | expiring (t : ℕ)
  | expired (t : ℕ) (now : ℤ)
  | claimed (t : ℕ) (k : Key)
  | published (t : ℕ) (k : Key)
  | failed (t : ℕ) (k : Key)

namespace Event

def claimer (k : Key) : Event → Option ℕ
  | .claimed t k' => if k' = k then some t else none
  | _ => none

def build : Event → Option Text
  | .drafted b => some b
  | .answered b _ _ => some b
  | .retried k => some k.1
  | _ => none

def Silent : Event → Prop
  | .quiet => True
  | .expiring _ => True
  | _ => False

end Event

def claimers (es : List Event) (k : Key) : List ℕ := es.filterMap (Event.claimer k)

namespace Ledger

def NoneActive (L : Ledger π μ) (b : Text) : Prop := ∀ v r, L.rows (b, v) = some r → r.status.active = false

def setRow (L : Ledger π μ) (k : Key) (r : Bundle μ) : Ledger π μ :=
  { L with rows := Function.update L.rows k (some r) }

inductive Moves (L : Ledger π μ) : Event → Ledger π μ → Prop
  | silent {e : Event} : e.Silent → Moves L e L
  | draw {t : ℕ} {lease : Text} : L.leases t = none → (∀ u, L.leases u ≠ some lease) →
      Moves L .quiet { L with leases := Function.update L.leases t (some lease) }
  | draft {b : Text} {x : Drafts π} : Drafted b L.drafts x → Moves L (.drafted b) { L with drafts := x }
  | insert {k : Key} {r : Bundle μ} : L.rows k = none → L.NoneActive k.1 →
      (∀ v q, L.rows (k.1, v) = some q → q.log.job.requestId ≠ r.log.job.requestId) →
      r.status = .pending → r.log.job.attempts = 0 → (∃ p, L.drafts.plans k.1 r.planVersion = some p) →
      Moves L (.answered k.1 r.log.job.requestId k.2) (L.setRow k r)
  | answer {k : Key} {r : Bundle μ} : L.rows k = some r →
      Moves L (.answered k.1 r.log.job.requestId k.2) L
  | retry {k : Key} {r : Bundle μ} {now : ℤ} : L.rows k = some r → L.NoneActive k.1 →
      retryRequest r = .ok () → Moves L (.retried k) (L.setRow k (retried now r))
  | expire {t : ℕ} {now : ℤ} {rows : Key → Option (Bundle μ)} :
      (∀ k, rows k = L.rows k ∨
        ∃ r, L.rows k = some r ∧ (expire now).matching r = true ∧ rows k = some ((expire now).change r)) →
      Moves L (.expired t now) { L with rows }
  | claim {t : ℕ} {k : Key} {r : Bundle μ} {now : ℤ} {lease : Text} : L.rows k = some r →
      L.leases t = some lease → (claim now lease).matching r = true →
      Moves L (.claimed t k) (L.setRow k ((claim now lease).change r))
  | publish {t : ℕ} {k : Key} {r : Bundle μ} {now : ℤ} {lease : Text} {p : Publication μ} :
      L.rows k = some r → L.leases t = some lease → (publish now lease p).matching r = true →
      p.job = r.log.job → L.drafts.Current k.1 r.planVersion →
      Moves L (.published t k) (L.setRow k ((publish now lease p).change r))
  | fail {t : ℕ} {k : Key} {r : Bundle μ} {now : ℤ} {lease : Text} {f : Failure} : L.rows k = some r →
      L.leases t = some lease → (fail now lease f).matching r = true →
      Moves L (.failed t k) (L.setRow k ((fail now lease f).change r))

def machine : Machine (Ledger π μ) Event where
  init L := (∀ k, L.rows k = none) ∧ ∀ t, L.leases t = none
  step := Moves

/-! ## What becomes of one version -/

inductive RowMoves (L : Ledger π μ) (k : Key) : Event → Option (Bundle μ) → Option (Bundle μ) → Prop
  | same {e : Event} {x : Option (Bundle μ)} : e.claimer k = none → RowMoves L k e x x
  | insert {r : Bundle μ} : r.status = .pending → r.log.job.attempts = 0 →
      RowMoves L k (.answered k.1 r.log.job.requestId k.2) none (some r)
  | retry {r : Bundle μ} {now : ℤ} : retryRequest r = .ok () →
      RowMoves L k (.retried k) (some r) (some (retried now r))
  | expire {t : ℕ} {now : ℤ} {r : Bundle μ} : (expire now).matching r = true →
      RowMoves L k (.expired t now) (some r) (some ((expire now).change r))
  | claim {t : ℕ} {r : Bundle μ} {now : ℤ} {lease : Text} : L.leases t = some lease →
      (claim now lease).matching r = true →
      RowMoves L k (.claimed t k) (some r) (some ((claim now lease).change r))
  | publish {t : ℕ} {r : Bundle μ} {now : ℤ} {lease : Text} {p : Publication μ} :
      L.leases t = some lease → (publish now lease p).matching r = true → p.job = r.log.job →
      L.drafts.Current k.1 r.planVersion →
      RowMoves L k (.published t k) (some r) (some ((publish now lease p).change r))
  | fail {t : ℕ} {r : Bundle μ} {now : ℤ} {lease : Text} {f : Failure} : L.leases t = some lease →
      (fail now lease f).matching r = true →
      RowMoves L k (.failed t k) (some r) (some ((fail now lease f).change r))

variable {L L' : Ledger π μ} {e : Event} {es : List Event} {k k' : Key} {r r' : Bundle μ}

@[simp] theorem setRow_self : (L.setRow k r).rows k = some r := Function.update_self ..
theorem setRow_of_ne (h : k' ≠ k) : (L.setRow k r).rows k' = L.rows k' := Function.update_of_ne h ..
@[simp] theorem setRow_drafts : (L.setRow k r).drafts = L.drafts := rfl
@[simp] theorem setRow_leases : (L.setRow k r).leases = L.leases := rfl

theorem rowMoves_setRow (h : RowMoves L k e (L.rows k) (some r)) (hother : ∀ k', k' ≠ k → e.claimer k' = none)
    (k' : Key) : RowMoves L k' e (L.rows k') ((L.setRow k r).rows k') := by
  by_cases hk : k' = k
  · subst hk
    rw [setRow_self]
    exact h
  · rw [setRow_of_ne hk]
    exact .same (hother k' hk)

theorem Moves.row (h : L.Moves e L') (k : Key) : RowMoves L k e (L.rows k) (L'.rows k) := by
  cases h with
  | silent hsilent =>
    refine .same ?_
    cases e with
    | claimed t k' => exact absurd hsilent (by simp [Event.Silent])
    | _ => rfl
  | draw _ _ => exact .same rfl
  | draft _ => exact .same rfl
  | @insert k' r hnone _ _ hpending hattempts _ =>
    refine rowMoves_setRow ?_ (fun _ _ => rfl) k
    rw [hnone]
    exact .insert hpending hattempts
  | answer _ => exact .same rfl
  | retry hrow _ hok =>
    refine rowMoves_setRow ?_ (fun _ _ => rfl) k
    rw [hrow]
    exact .retry hok
  | @expire t now rows hrows =>
    show RowMoves L k (.expired t now) (L.rows k) (rows k)
    rcases hrows k with hsame | ⟨r, hrow, hmatch, hnew⟩
    · rw [hsame]
      exact .same rfl
    · rw [hrow, hnew]
      exact .expire hmatch
  | claim hrow hlease hmatch =>
    refine rowMoves_setRow ?_ (fun _ hne => by rw [Event.claimer, if_neg (Ne.symm hne)]) k
    rw [hrow]
    exact .claim hlease hmatch
  | publish hrow hlease hmatch hjob hcurrent =>
    refine rowMoves_setRow ?_ (fun _ _ => rfl) k
    rw [hrow]
    exact .publish hlease hmatch hjob hcurrent
  | fail hrow hlease hmatch =>
    refine rowMoves_setRow ?_ (fun _ _ => rfl) k
    rw [hrow]
    exact .fail hlease hmatch

theorem RowMoves.passed {x : Option (Bundle μ)} (h : RowMoves L k e (some r) x) (hpassed : r.status = .passed) :
    x = some r := by
  cases h with
  | same _ => rfl
  | retry hok => exact absurd (retryRequest_ok.mp hok).1 (by simp [hpassed])
  | expire hmatch => exact absurd (expire_matching.mp hmatch).1 (by simp [hpassed])
  | claim _ hmatch => exact absurd (claim_matching.mp hmatch).1 (by simp [hpassed])
  | publish _ hmatch _ _ => exact absurd (leased_iff.mp hmatch).1 (by simp [hpassed])
  | fail _ hmatch => exact absurd (leased_iff.mp hmatch).1 (by simp [hpassed])

theorem RowMoves.stays {x : Option (Bundle μ)} (h : RowMoves L k e (some r) x) :
    ∃ r', x = some r' ∧ r'.log.job.requestId = r.log.job.requestId ∧ r'.planVersion = r.planVersion := by
  cases h with
  | same _ => exact ⟨r, rfl, rfl, rfl⟩
  | retry _ => exact ⟨_, rfl, rfl, rfl⟩
  | expire _ => exact ⟨_, rfl, rfl, rfl⟩
  | claim _ _ => exact ⟨_, rfl, rfl, rfl⟩
  | publish _ _ hjob _ => exact ⟨_, rfl, congrArg Job.requestId hjob, rfl⟩
  | fail _ _ => exact ⟨_, rfl, rfl, rfl⟩

theorem RowMoves.was {x : Option (Bundle μ)} (h : RowMoves L k e x (some r')) :
    (∃ r, x = some r ∧ r'.log.job.requestId = r.log.job.requestId ∧ r'.planVersion = r.planVersion) ∨
      x = none ∧ e.build = some k.1 := by
  cases x with
  | none =>
    cases h with
    | insert _ _ => exact Or.inr ⟨rfl, rfl⟩
  | some r =>
    obtain ⟨q, hq, hsame⟩ := h.stays
    obtain rfl := Option.some.inj hq
    exact Or.inl ⟨r, rfl, hsame⟩

theorem RowMoves.was_active {x : Option (Bundle μ)} (h : RowMoves L k e x (some r'))
    (hactive : r'.status.active = true) : (∃ r, x = some r ∧ r.status.active = true) ∨ e.build = some k.1 := by
  cases h with
  | same _ => exact Or.inl ⟨r', rfl, hactive⟩
  | insert _ _ => exact Or.inr rfl
  | retry _ => exact Or.inr rfl
  | expire _ => exact absurd hactive (by simp [Codegen.expire, Status.active])
  | claim _ hmatch =>
    refine Or.inl ⟨_, rfl, active_iff.mpr ?_⟩
    exact (claim_matching.mp hmatch).1.imp_right And.left
  | publish _ _ _ _ => exact absurd hactive (by simp [Codegen.publish, Status.active])
  | fail _ _ => exact absurd hactive (by simp [Codegen.fail, Status.active])

/-! ## Attempts -/

structure Counted (es : List Event) (k : Key) (x : Option (Bundle μ)) : Prop where
  claims : (claimers es k).length = x.elim 0 fun r => r.log.job.attempts
  le : ∀ r ∈ x, r.log.job.attempts ≤ 3
  pending : ∀ r ∈ x, r.status = .pending → r.log.job.attempts < 3

theorem claimers_append : claimers (es ++ [e]) k = claimers es k ++ (e.claimer k).toList := by
  rw [claimers, List.filterMap_append]
  cases h : e.claimer k with
  | none => simp [claimers, h]
  | some t => simp [claimers, h]

theorem claimers_same (h : e.claimer k = none) : claimers (es ++ [e]) k = claimers es k := by
  rw [claimers_append, h, Option.toList_none, List.append_nil]

theorem claimers_claimed {t : ℕ} : claimers (es ++ [.claimed t k]) k = claimers es k ++ [t] := by
  rw [claimers_append, Event.claimer, if_pos rfl]
  rfl

theorem Counted.keep (h : Counted es k (some r)) (he : e.claimer k = none)
    (hattempts : r'.log.job.attempts = r.log.job.attempts)
    (hpending : r'.status = .pending → r'.log.job.attempts < 3) : Counted (es ++ [e]) k (some r') := by
  have hle := h.le r rfl
  refine ⟨?_, ?_, ?_⟩
  · rw [claimers_same he, h.claims, Option.elim_some, Option.elim_some, hattempts]
  · intro q hq
    obtain rfl := Option.some.inj hq
    omega
  · intro q hq
    obtain rfl := Option.some.inj hq
    exact hpending

/-- **Preserved by every operation.** -/
theorem Counted.step {x x' : Option (Bundle μ)} (h : Counted es k x) (hm : RowMoves L k e x x') :
    Counted (es ++ [e]) k x' := by
  cases hm with
  | same he =>
    refine ⟨?_, h.le, h.pending⟩
    rw [claimers_same he]
    exact h.claims
  | @insert r hpending hattempts =>
    refine ⟨?_, ?_, ?_⟩
    · rw [claimers_same rfl, h.claims, Option.elim_none, Option.elim_some, hattempts]
    · intro q hq
      obtain rfl := Option.some.inj hq
      omega
    · intro q hq _
      obtain rfl := Option.some.inj hq
      omega
  | retry hok => exact h.keep rfl rfl fun _ => (retryRequest_ok.mp hok).2.2
  | expire _ => exact h.keep rfl rfl fun hpending => absurd hpending (by simp [Codegen.expire])
  | claim _ hmatch =>
    have hfew := (claim_matching.mp hmatch).2
    have hclaims := h.claims
    rw [Option.elim_some] at hclaims
    refine ⟨?_, ?_, ?_⟩
    · rw [claimers_claimed, List.length_append, hclaims]
      rfl
    · intro q hq
      obtain rfl := Option.some.inj hq
      exact hfew
    · intro q hq hpending
      obtain rfl := Option.some.inj hq
      exact absurd hpending (by simp [Codegen.claim])
  | publish _ _ hjob _ =>
    exact h.keep rfl (congrArg Job.attempts hjob) fun hpending => absurd hpending (by simp [Codegen.publish])
  | fail _ _ => exact h.keep rfl rfl fun hpending => absurd hpending (by simp [Codegen.fail])

/-! ## Leases -/

def Leased (es : List Event) (leases : ℕ → Option Text) (k : Key) (x : Option (Bundle μ)) : Prop :=
  ∀ r ∈ x, r.status = .running → ∃ t, (claimers es k).getLast? = some t ∧ leases t ≠ none ∧
    r.log.lease = leases t

def LeasesUnique (leases : ℕ → Option Text) : Prop :=
  ∀ t u lease, leases t = some lease → leases u = some lease → t = u

theorem Moves.leases (h : L.Moves e L') {t : ℕ} {lease : Text} (hl : L.leases t = some lease) :
    L'.leases t = some lease := by
  cases h with
  | @draw u _ hnone _ =>
    have hne : t ≠ u := by
      intro heq
      rw [heq, hnone] at hl
      exact absurd hl (by simp)
    exact (Function.update_of_ne hne _ _).trans hl
  | _ => exact hl

theorem LeasesUnique.draw {leases : ℕ → Option Text} {u : ℕ} {lease : Text} (hu : LeasesUnique leases)
    (hnew : ∀ t, leases t ≠ some lease) : LeasesUnique (Function.update leases u (some lease)) := by
  intro t t' lease' ht ht'
  by_cases h1 : t = u
  · by_cases h2 : t' = u
    · rw [h1, h2]
    · subst h1
      rw [Function.update_self] at ht
      rw [Function.update_of_ne h2] at ht'
      exact absurd (ht'.trans ht.symm) (hnew t')
  · rw [Function.update_of_ne h1] at ht
    by_cases h2 : t' = u
    · subst h2
      rw [Function.update_self] at ht'
      exact absurd (ht.trans ht'.symm) (hnew t)
    · rw [Function.update_of_ne h2] at ht'
      exact hu t t' lease' ht ht'

theorem LeasesUnique.step (hu : LeasesUnique L.leases) (h : L.Moves e L') : LeasesUnique L'.leases := by
  cases h with
  | draw _ hnew => exact hu.draw hnew
  | _ => exact hu

theorem Leased.step (hl : Leased es L.leases k (L.rows k)) (h : L.Moves e L') :
    Leased (es ++ [e]) L'.leases k (L'.rows k) := by
  have hm := h.row k
  -- a version that was running, under the same lease
  have key : ∀ q : Bundle μ, L.rows k = some q → q.status = .running → e.claimer k = none →
      ∃ t, (claimers (es ++ [e]) k).getLast? = some t ∧ L'.leases t ≠ none ∧ q.log.lease = L'.leases t := by
    intro q hq hrunning he
    obtain ⟨t, hlast, hdrawn, hlease⟩ := hl q hq hrunning
    obtain ⟨lease, hdraw⟩ := Option.ne_none_iff_exists'.mp hdrawn
    rw [claimers_same he, hlease, hdraw]
    exact ⟨t, hlast, by simp [h.leases hdraw], (h.leases hdraw).symm⟩
  intro q hq hrunning
  generalize hx : L.rows k = x at hm
  rw [hq] at hm
  cases hm with
  | same he => exact key q hx hrunning he
  | insert hpending _ => exact absurd (hpending.symm.trans hrunning) (by simp)
  | retry _ => exact absurd hrunning (by simp [retried])
  | expire _ => exact absurd hrunning (by simp [Codegen.expire])
  | @claim t r now lease hlease _ =>
    refine ⟨t, ?_, ?_, ?_⟩
    · rw [claimers_claimed, List.getLast?_concat]
    · rw [h.leases hlease]
      simp
    · rw [h.leases hlease]
      rfl
  | publish _ _ _ _ => exact absurd hrunning (by simp [Codegen.publish])
  | fail _ _ => exact absurd hrunning (by simp [Codegen.fail])

/-! ## One version at a time -/

def OneActive (L : Ledger π μ) : Prop := ∀ b v v' r r', L.rows (b, v) = some r → L.rows (b, v') = some r' →
  r.status.active = true → r'.status.active = true → v = v'

theorem OneActive.mono (h : OneActive L) (hsub : ∀ k r', L'.rows k = some r' → r'.status.active = true →
    ∃ r, L.rows k = some r ∧ r.status.active = true) : OneActive L' := by
  intro b v v' q q' hq hq' hactive hactive'
  obtain ⟨r, hr, hr'⟩ := hsub _ q hq hactive
  obtain ⟨r₂, hr₂, hr₂'⟩ := hsub _ q' hq' hactive'
  exact h b v v' r r₂ hr hr₂ hr' hr₂'

theorem OneActive.opened (h : OneActive L) (hnone : L.NoneActive k.1) : OneActive (L.setRow k r) := by
  -- any other version of that build is not
  have key : ∀ v q, (k.1, v) ≠ k → (L.setRow k r).rows (k.1, v) = some q → q.status.active = true → False := by
    intro v q hne hq hactive
    rw [setRow_of_ne hne] at hq
    exact absurd (hnone v q hq) (by simp [hactive])
  have heq : ∀ v, (k.1, v) = k → v = k.2 := fun v hk => congrArg Prod.snd hk
  intro b v v' q q' hq hq' hactive hactive'
  by_cases hb : b = k.1
  · subst hb
    by_cases hv : (k.1, v) = k
    · by_cases hv' : (k.1, v') = k
      · rw [heq v hv, heq v' hv']
      · exact (key v' q' hv' hq' hactive').elim
    · exact (key v q hv hq hactive).elim
  · rw [setRow_of_ne fun hk => hb (congrArg Prod.fst hk)] at hq hq'
    exact h b v v' q q' hq hq' hactive hactive'

theorem OneActive.step (ho : OneActive L) (h : L.Moves e L') : OneActive L' := by
  have key : e.build = none → OneActive L' := by
    intro hnot
    refine ho.mono fun k r' hr' hactive => ?_
    have hm := h.row k
    rw [hr'] at hm
    exact (hm.was_active hactive).resolve_right (by simp [hnot])
  cases h with
  | insert _ hnone _ _ _ _ => exact ho.opened hnone
  | retry _ hnone _ => exact ho.opened hnone
  | answer _ => exact ho
  | silent _ => exact ho
  | draw _ _ => exact ho
  | draft _ => exact ho
  | expire _ => exact key rfl
  | claim _ _ _ => exact key rfl
  | publish _ _ _ _ _ => exact key rfl
  | fail _ _ _ => exact key rfl

/-! ## Requests and plans -/

def OneRequest (L : Ledger π μ) : Prop := ∀ b v v' r r', L.rows (b, v) = some r → L.rows (b, v') = some r' →
  r.log.job.requestId = r'.log.job.requestId → v = v'

def Answered (es : List Event) (L : Ledger π μ) : Prop := ∀ b requestId v, .answered b requestId v ∈ es →
  ∃ r, L.rows (b, v) = some r ∧ r.log.job.requestId = requestId

def Planned (L : Ledger π μ) : Prop := ∀ k r, L.rows k = some r → ∃ p, L.drafts.plans k.1 r.planVersion = some p

theorem OneRequest.step (ho : OneRequest L) (h : L.Moves e L') : OneRequest L' := by
  -- a version that was there before
  have key : (∀ k r', L'.rows k = some r' → L.rows k ≠ none) → OneRequest L' := by
    intro hthere b v v' r r' hr hr' hsame
    have hm := h.row (b, v)
    have hm' := h.row (b, v')
    rw [hr] at hm
    rw [hr'] at hm'
    obtain ⟨q, hq, hid, -⟩ := hm.was.resolve_right fun h => hthere _ r hr h.1
    obtain ⟨q', hq', hid', -⟩ := hm'.was.resolve_right fun h => hthere _ r' hr' h.1
    exact ho b v v' q q' hq hq' (hid.symm.trans (hsame.trans hid'))
  have hset : ∀ {k r q}, L.rows k = some q → ∀ k' r', (L.setRow k r).rows k' = some r' → L.rows k' ≠ none := by
    intro k r q hk k' r' hr'
    by_cases hkk : k' = k
    · rw [hkk, hk]
      exact Option.some_ne_none q
    · rw [setRow_of_ne hkk] at hr'
      rw [hr']
      exact Option.some_ne_none r'
  cases h with
  | silent _ => exact ho
  | draw _ _ => exact ho
  | draft _ => exact ho
  | answer _ => exact ho
  | @insert k r hnone _ hnew _ _ _ =>
    intro b v v' q q' hq hq' hsame
    by_cases hv : (b, v) = k
    · by_cases hv' : (b, v') = k
      · exact congrArg Prod.snd (hv.trans hv'.symm)
      · -- the other version would have the new request
        rw [setRow_of_ne hv'] at hq'
        subst hv
        rw [setRow_self] at hq
        obtain rfl := Option.some.inj hq
        exact absurd hsame.symm (hnew v' q' hq')
    · rw [setRow_of_ne hv] at hq
      by_cases hv' : (b, v') = k
      · subst hv'
        rw [setRow_self] at hq'
        obtain rfl := Option.some.inj hq'
        exact absurd hsame (hnew v q hq)
      · rw [setRow_of_ne hv'] at hq'
        exact ho b v v' q q' hq hq' hsame
  | retry hrow _ _ => exact key (hset hrow)
  | claim hrow _ _ => exact key (hset hrow)
  | publish hrow _ _ _ _ => exact key (hset hrow)
  | fail hrow _ _ => exact key (hset hrow)
  | @expire t now rows hrows =>
    refine key fun k r' hr' => ?_
    rcases hrows k with hsame | ⟨q, hq, -⟩
    · rw [← hsame]
      exact fun hnone => Option.some_ne_none r' (hr'.symm.trans hnone)
    · rw [hq]
      exact Option.some_ne_none q

theorem Answered.step (ha : Answered es L) (h : L.Moves e L') : Answered (es ++ [e]) L' := by
  intro b requestId v hmem
  rcases List.mem_append.mp hmem with hbefore | hnow
  · obtain ⟨r, hr, hid⟩ := ha b requestId v hbefore
    have hm := h.row (b, v)
    rw [hr] at hm
    obtain ⟨q, hq, hsame, -⟩ := hm.stays
    exact ⟨q, hq, hsame.trans hid⟩
  · obtain rfl := List.mem_singleton.mp hnow
    cases h with
    | silent hsilent => exact absurd hsilent (by simp [Event.Silent])
    | insert _ _ _ _ _ _ => exact ⟨_, setRow_self, rfl⟩
    | answer hrow => exact ⟨_, hrow, rfl⟩

theorem Moves.plans (h : L.Moves e L') {b : Text} {v : ℕ} {p : Plan π} (hp : L.drafts.plans b v = some p) :
    ∃ p', L'.drafts.plans b v = some p' := by
  cases h with
  | draft hd => exact hd.stays hp
  | _ => exact ⟨p, hp⟩

theorem Planned.step (hp : Planned L) (h : L.Moves e L') : Planned L' := by
  intro k r hr
  have hm := h.row k
  rw [hr] at hm
  rcases hm.was with ⟨q, hq, -, hplan⟩ | ⟨hnone, -⟩
  · obtain ⟨p, hp⟩ := hp k q hq
    rw [hplan]
    exact h.plans hp
  · -- a version that was not there has been inserted
    have hnew : ∀ {q}, L.rows k = some q → False := fun hq => Option.some_ne_none _ (hq.symm.trans hnone)
    cases h with
    | @insert k' r' _ _ _ _ _ hplan =>
      by_cases hk : k = k'
      · subst hk
        rw [setRow_self] at hr
        obtain rfl := Option.some.inj hr
        exact hplan
      · rw [setRow_of_ne hk] at hr
        exact (hnew hr).elim
    | silent _ => exact (hnew hr).elim
    | draw _ _ => exact (hnew hr).elim
    | draft _ => exact (hnew hr).elim
    | answer _ => exact (hnew hr).elim
    | _ =>
      rw [hnone] at hm
      cases hm

/-! ## Every ledger -/

structure Sound (es : List Event) (L : Ledger π μ) : Prop where
  counted : ∀ k, Counted es k (L.rows k)
  leased : ∀ k, Leased es L.leases k (L.rows k)
  leases : LeasesUnique L.leases
  oneActive : OneActive L
  oneRequest : OneRequest L
  answered : Answered es L
  planned : Planned L

theorem init_sound (h : (machine (π := π) (μ := μ)).init L) : Sound [] L := by
  obtain ⟨hrows, hleases⟩ := h
  have hno : ∀ {k r}, L.rows k = some r → False := fun hr => Option.some_ne_none _ (hr.symm.trans (hrows _))
  refine ⟨?_, ?_, ?_, ?_, ?_, by simp [Answered], ?_⟩
  · intro k
    rw [hrows]
    exact ⟨rfl, by simp, by simp⟩
  · exact fun k r hr => (hno hr).elim
  · intro t u lease ht
    rw [hleases] at ht
    exact absurd ht (by simp)
  · exact fun b v v' r r' hr => (hno hr).elim
  · exact fun b v v' r r' hr => (hno hr).elim
  · exact fun k r hr => (hno hr).elim

theorem Sound.step (hs : Sound es L) (h : L.Moves e L') : Sound (es ++ [e]) L' where
  counted k := (hs.counted k).step (h.row k)
  leased k := (hs.leased k).step h
  leases := hs.leases.step h
  oneActive := hs.oneActive.step h
  oneRequest := hs.oneRequest.step h
  answered := hs.answered.step h
  planned := hs.planned.step h

theorem run_sound (h : machine.Run es L) : Sound es L :=
  h.invariant (fun _ => init_sound) fun _ _ _ _ hs hstep _ => hs.step hstep

theorem passed_steps {L L' : Ledger π μ} (h : machine.Steps L es L') (hr : L.rows k = some r)
    (hpassed : r.status = .passed) : L'.rows k = some r := by
  induction h with
  | refl => exact hr
  | step hone _ ih =>
    have hm := Moves.row hone k
    rw [hr] at hm
    exact ih (hm.passed hpassed)

/-! ## What holds of a build while its row is locked -/

def NewRequest (L : Ledger π μ) (b requestId : Text) : Prop :=
  ∀ v r, L.rows (b, v) = some r → r.log.job.requestId ≠ requestId

theorem NoneActive.step {b : Text} (hn : L.NoneActive b) (h : L.Moves e L') (hb : e.build ≠ some b) :
    L'.NoneActive b := by
  intro v r' hr'
  have hm := h.row (b, v)
  rw [hr'] at hm
  by_contra hactive
  obtain ⟨r, hr, hactive⟩ := (hm.was_active (by simpa using hactive)).resolve_right hb
  exact absurd (hn v r hr) (by simp [hactive])

theorem NewRequest.step {b requestId : Text} (hn : L.NewRequest b requestId) (h : L.Moves e L')
    (hb : e.build ≠ some b) : L'.NewRequest b requestId := by
  intro v r' hr'
  have hm := h.row (b, v)
  rw [hr'] at hm
  obtain ⟨r, hr, hid, -⟩ := hm.was.resolve_right fun hnew => hb hnew.2
  rw [hid]
  exact hn v r hr

theorem Moves.drafts_of_ne (h : L.Moves e L') {b : Text} (hb : e.build ≠ some b) :
    L'.drafts.latestSpec b = L.drafts.latestSpec b ∧ L'.drafts.plans b = L.drafts.plans b := by
  cases h with
  | @draft b' x hd =>
    have hne : b ≠ b' := fun heq => hb (congrArg some heq.symm)
    have hset : ∀ v p, (L.drafts.setPlan b' v p).plans b = L.drafts.plans b :=
      fun v p => Function.update_of_ne hne _ _
    cases hd with
    | spec => exact ⟨Function.update_of_ne hne _ _, rfl⟩
    | plan _ _ _ => exact ⟨rfl, hset _ _⟩
    | accept _ _ _ => exact ⟨rfl, hset _ _⟩
  | _ => exact ⟨rfl, rfl⟩

theorem current_step {b : Text} {v : ℕ} (hc : L.drafts.Current b v) (h : L.Moves e L')
    (hb : e.build ≠ some b) : L'.drafts.Current b v := by
  obtain ⟨hspec, hplans⟩ := h.drafts_of_ne hb
  obtain ⟨p, hp, hcurrent⟩ := hc
  refine ⟨p, ?_, ?_⟩
  · rw [hplans]
    exact hp
  · rw [hspec]
    exact hcurrent

def Kept (L : Ledger π μ) (k : Key) (lease : Text) (job : Job) (planVersion : ℕ) : Prop :=
  ∀ r, L.rows k = some r → r.leased lease = true → r.log.job = job ∧ r.planVersion = planVersion

theorem Kept.step {t planVersion : ℕ} {lease : Text} {job : Job} (hk : L.Kept k lease job planVersion)
    (h : L.Moves e L') (hlease : L.leases t = some lease) (hu : LeasesUnique L.leases)
    (he : e.claimer k ≠ some t) : L'.Kept k lease job planVersion := by
  intro r' hr' hleased
  have hm := h.row k
  generalize hx : L.rows k = x at hm
  rw [hr'] at hm
  obtain ⟨hrunning, hl⟩ := leased_iff.mp hleased
  cases hm with
  | same _ => exact hk r' hx hleased
  | insert hpending _ => exact absurd (hpending.symm.trans hrunning) (by simp)
  | retry _ => exact absurd hrunning (by simp [retried])
  | expire _ => exact absurd hrunning (by simp [Codegen.expire])
  | @claim u r now lease' hlease' _ =>
    obtain rfl : lease' = lease := Option.some.inj hl
    obtain rfl := hu u t lease' hlease' hlease
    exact absurd (if_pos rfl) he
  | publish _ _ _ _ => exact absurd hrunning (by simp [Codegen.publish])
  | fail _ _ => exact absurd hrunning (by simp [Codegen.fail])

end Ledger

end Albusforge.Codegen
