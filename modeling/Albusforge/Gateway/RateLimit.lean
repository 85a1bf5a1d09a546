import Mathlib.Algebra.Order.Ring.Defs
import Mathlib.Algebra.BigOperators.Group.List.Basic
import Mathlib.Data.List.Sort
import Mathlib.Tactic.Linarith

/-!
# A sliding window

`RateLimiter` keeps, for each key, the times of its hits that were admitted. A call looks at those inside the
window; what it finds there is also what an untrimmed history of all admitted hits has there (`Kept`), although
the lists are trimmed at every call of their key, and all of them now and then.

**Sweeping does not matter** (`outcomes_sweep`), **no window holds more hits than the limit**, a call is rejected
only when the window before it is full, and **the wait it is told is the least that helps** (`limiter_exact`).
-/

namespace Albusforge.Gateway.RateLimit

section

/-! ## The limiter -/

variable {κ α : Type} [DecidableEq κ] [CommRing α] [LinearOrder α]

/-- A `RateLimiter` between two calls. -/
structure RateLimiter (κ α : Type) where
  hits : κ → Option (List α)
  takes : ℕ

/-- A call: a key, and what `now()` says. -/
abbrev Call (κ α : Type) := κ × α

variable (limit : ℕ) (windowMs : α)

def RateLimiter.recent (s : RateLimiter κ α) (key : κ) (now : α) : List α :=
  ((s.hits key).getD []).filter fun t => now - windowMs < t

def RateLimiter.sweep (s : RateLimiter κ α) (now : α) : RateLimiter κ α :=
  { s with
    hits := fun key =>
      match s.hits key with
      | none => none
      | some times => if times.all fun t => t ≤ now - windowMs then none else some times }

def RateLimiter.set (s : RateLimiter κ α) (key : κ) (times : List α) : RateLimiter κ α :=
  { s with hits := Function.update s.hits key (some times) }

/-- `take`. Where it rejects, there is a first recent hit, as the limit is at least one. -/
def RateLimiter.take (s : RateLimiter κ α) (c : Call κ α) : RateLimiter κ α × α :=
  let s := { s with takes := s.takes + 1 }
  let s := if s.takes % 1000 = 0 then s.sweep windowMs c.2 else s
  let recent := s.recent windowMs c.1 c.2
  if recent.length ≥ limit then (s.set c.1 recent, recent.headD 0 + windowMs - c.2)
  else (s.set c.1 (recent ++ [c.2]), 0)

def RateLimiter.calls (s : RateLimiter κ α) : List (Call κ α) → RateLimiter κ α
  | [] => s
  | c :: cs => (s.take limit windowMs c).1.calls cs

def RateLimiter.outcomes (s : RateLimiter κ α) : List (Call κ α) → List α
  | [] => []
  | c :: cs => (s.take limit windowMs c).2 :: (s.take limit windowMs c).1.outcomes cs

def RateLimiter.admitted (s : RateLimiter κ α) : List (Call κ α) → List (Call κ α)
  | [] => []
  | c :: cs =>
    let rest := (s.take limit windowMs c).1.admitted cs
    if (s.take limit windowMs c).2 = 0 then c :: rest else rest

def fresh : RateLimiter κ α := ⟨fun _ => none, 0⟩

/-! ## What is kept -/

def hitsOf (log : List (Call κ α)) (key : κ) : List α := (log.filter fun h => h.1 = key).map Prod.snd

/-- Hits in time order, none of them later than `t`, and from then on nothing inside a window has been forgotten. -/
structure Kept (s : RateLimiter κ α) (log : List (Call κ α)) (t : α) : Prop where
  sorted : log.Pairwise fun h h' => h.2 ≤ h'.2
  past : ∀ h ∈ log, h.2 ≤ t
  recent : ∀ key now, t ≤ now → s.recent windowMs key now = (hitsOf log key).filter fun h => now - windowMs < h

variable {limit windowMs} {s : RateLimiter κ α} {log : List (Call κ α)} {t : α}

theorem Kept.fresh (t : α) : Kept windowMs (fresh : RateLimiter κ α) [] t :=
  ⟨.nil, nofun, fun _ _ _ => rfl⟩

theorem Kept.later (h : Kept windowMs s log t) {t' : α} (ht : t ≤ t') : Kept windowMs s log t' :=
  ⟨h.sorted, fun x hx => (h.past x hx).trans ht, fun key now hnow => h.recent key now (ht.trans hnow)⟩

variable [IsStrictOrderedRing α]

omit [DecidableEq κ] in
theorem recent_sweep (s : RateLimiter κ α) {now now' : α} (hnow : now ≤ now') (key : κ) :
    (s.sweep windowMs now).recent windowMs key now' = s.recent windowMs key now' := by
  unfold RateLimiter.sweep RateLimiter.recent
  dsimp only
  cases s.hits key with
  | none => rfl
  | some times =>
    dsimp only
    split
    · rename_i hold
      symm
      rw [Option.getD_some, Option.getD_none, List.filter_nil, List.filter_eq_nil_iff]
      intro t ht
      have hle := of_decide_eq_true (List.all_eq_true.mp hold t ht)
      simp only [decide_eq_true_eq, not_lt]
      linarith
    · rfl

theorem filter_window {now now' : α} (hnow : now ≤ now') (times : List α) :
    (times.filter fun t => now - windowMs < t).filter (fun t => now' - windowMs < t) =
      times.filter fun t => now' - windowMs < t := by
  rw [List.filter_filter]
  refine List.filter_congr ?_
  intro t _
  have himp : now' - windowMs < t → now - windowMs < t := fun hlt => by linarith
  by_cases hlt : now' - windowMs < t
  · simp [hlt, himp hlt]
  · simp [hlt]

variable (limit windowMs) in
theorem take_eq (s : RateLimiter κ α) (c : Call κ α) :
    ∃ s₁ : RateLimiter κ α, (∀ key now, c.2 ≤ now → s₁.recent windowMs key now = s.recent windowMs key now) ∧
      s.take limit windowMs c =
        if (s.recent windowMs c.1 c.2).length ≥ limit then
          (s₁.set c.1 (s.recent windowMs c.1 c.2), (s.recent windowMs c.1 c.2).headD 0 + windowMs - c.2)
        else (s₁.set c.1 (s.recent windowMs c.1 c.2 ++ [c.2]), 0) := by
  have hcounted : ∀ key now, ({ s with takes := s.takes + 1 } : RateLimiter κ α).recent windowMs key now =
      s.recent windowMs key now := fun _ _ => rfl
  by_cases hsweep : (s.takes + 1) % 1000 = 0
  · refine ⟨({ s with takes := s.takes + 1 } : RateLimiter κ α).sweep windowMs c.2, ?_, ?_⟩
    · intro key now hnow
      rw [recent_sweep _ hnow, hcounted]
    · unfold RateLimiter.take
      dsimp only
      rw [if_pos hsweep, recent_sweep _ le_rfl, hcounted]
  · refine ⟨{ s with takes := s.takes + 1 }, fun key now _ => hcounted key now, ?_⟩
    unfold RateLimiter.take
    dsimp only
    rw [if_neg hsweep, hcounted]

omit [IsStrictOrderedRing α] in
theorem recent_set (s : RateLimiter κ α) (key key' : κ) (times : List α) (now : α) :
    (s.set key times).recent windowMs key' now =
      if key' = key then times.filter (fun t => now - windowMs < t) else s.recent windowMs key' now := by
  unfold RateLimiter.recent RateLimiter.set
  dsimp only
  split
  · rename_i hkey
    rw [hkey, Function.update_self]
    rfl
  · rename_i hkey
    rw [Function.update_of_ne hkey]

def RateLimiter.Admits (limit : ℕ) (windowMs : α) (s : RateLimiter κ α) (c : Call κ α) : Prop :=
  (s.recent windowMs c.1 c.2).length < limit

theorem take_zero_iff (hlimit : 1 ≤ limit) (s : RateLimiter κ α) (c : Call κ α) :
    (s.take limit windowMs c).2 = 0 ↔ s.Admits limit windowMs c := by
  obtain ⟨s₁, _, htake⟩ := take_eq limit windowMs s c
  rw [htake, RateLimiter.Admits]
  by_cases hfull : (s.recent windowMs c.1 c.2).length ≥ limit
  · rw [if_pos hfull]
    refine ⟨?_, fun hroom => absurd hroom (not_lt.mpr hfull)⟩
    intro hzero
    exfalso
    cases hrecent : s.recent windowMs c.1 c.2 with
    | nil =>
      rw [hrecent, List.length_nil] at hfull
      omega
    | cons first rest =>
      have hin : first ∈ s.recent windowMs c.1 c.2 := hrecent ▸ .head _
      have hlt : c.2 - windowMs < first := by simpa using (List.mem_filter.mp hin).2
      rw [hrecent] at hzero
      have hsum : first + windowMs - c.2 = 0 := hzero
      linarith
  · rw [if_neg hfull]
    exact ⟨fun _ => not_le.mp hfull, fun _ => rfl⟩

omit [CommRing α] [LinearOrder α] [IsStrictOrderedRing α] in
theorem hitsOf_append (log log' : List (Call κ α)) (key : κ) :
    hitsOf (log ++ log') key = hitsOf log key ++ hitsOf log' key := by
  rw [hitsOf, List.filter_append, List.map_append]
  rfl

variable (limit) in
/-- **A call keeps what is kept**: the history gains the call if it is admitted. -/
theorem Kept.take (h : Kept windowMs s log t) {c : Call κ α} (ht : t ≤ c.2) :
    (s.Admits limit windowMs c → Kept windowMs (s.take limit windowMs c).1 (log ++ [c]) c.2) ∧
      (¬ s.Admits limit windowMs c → Kept windowMs (s.take limit windowMs c).1 log c.2) := by
  obtain ⟨s₁, hsame, htake⟩ := take_eq limit windowMs s c
  have hlater := h.later ht
  rw [htake, RateLimiter.Admits]
  refine ⟨?_, ?_⟩
  · intro hroom
    rw [if_neg (not_le.mpr hroom)]
    refine ⟨?_, ?_, ?_⟩
    · rw [List.pairwise_append]
      refine ⟨h.sorted, List.pairwise_singleton _ _, ?_⟩
      intro x hx y hy
      rw [List.mem_singleton.mp hy]
      exact hlater.past x hx
    · intro x hx
      rcases List.mem_append.mp hx with hx | hx
      · exact hlater.past x hx
      · rw [List.mem_singleton.mp hx]
    · intro key now hnow
      rw [recent_set, hitsOf_append, List.filter_append]
      split
      · rename_i hkey
        have hone : hitsOf [c] key = [c.2] := by simp [hitsOf, hkey]
        rw [List.filter_append, hlater.recent c.1 c.2 le_rfl, filter_window hnow, hone, hkey]
      · rename_i hkey
        have hnone : hitsOf [c] key = [] := by simp [hitsOf, Ne.symm hkey]
        rw [hsame key now hnow, hlater.recent key now hnow, hnone, List.append_nil]
  · intro hfull
    rw [if_pos (not_lt.mp hfull)]
    refine ⟨h.sorted, hlater.past, ?_⟩
    intro key now hnow
    rw [recent_set]
    split
    · rename_i hkey
      rw [hlater.recent c.1 c.2 le_rfl, filter_window hnow, hkey]
    · rw [hsame key now hnow, hlater.recent key now hnow]

/-! ## Windows -/

def Narrow (windowMs : α) (p : α → Bool) : Prop := ∀ x y, p x = true → p y = true → y - windowMs < x

def Bounded (limit : ℕ) (windowMs : α) (log : List (Call κ α)) : Prop :=
  ∀ key, ∀ p : α → Bool, Narrow windowMs p → (hitsOf log key).countP p ≤ limit

omit [IsStrictOrderedRing α] in
theorem Kept.bounded (h : Kept windowMs s log t) (hb : Bounded limit windowMs log) {c : Call κ α} (ht : t ≤ c.2)
    (hroom : s.Admits limit windowMs c) : Bounded limit windowMs (log ++ [c]) := by
  intro key p hp
  rw [hitsOf_append, List.countP_append]
  by_cases hkey : c.1 = key
  · have hone : hitsOf [c] key = [c.2] := by simp [hitsOf, hkey]
    rw [hone, List.countP_singleton]
    split
    · rename_i hin
      have hfew : (hitsOf log key).countP p ≤ (s.recent windowMs c.1 c.2).length := by
        rw [(h.later ht).recent c.1 c.2 le_rfl, hkey, ← List.countP_eq_length_filter]
        refine List.countP_mono_left ?_
        intro x _ hx
        exact decide_eq_true (hp x c.2 hx hin)
      unfold RateLimiter.Admits at hroom
      omega
    · exact hb key p hp
  · have hnone : hitsOf [c] key = [] := by simp [hitsOf, hkey]
    rw [hnone, List.countP_nil]
    exact hb key p hp

theorem calls_kept (hlimit : 1 ≤ limit) : ∀ {cs : List (Call κ α)} {s : RateLimiter κ α} {log : List (Call κ α)} {t t' : α},
    Kept windowMs s log t → Bounded limit windowMs log → cs.Pairwise (fun c c' => c.2 ≤ c'.2) → (∀ c ∈ cs, t ≤ c.2) →
    (∀ c ∈ cs, c.2 ≤ t') → t ≤ t' →
    Kept windowMs (s.calls limit windowMs cs) (log ++ s.admitted limit windowMs cs) t' ∧
      Bounded limit windowMs (log ++ s.admitted limit windowMs cs)
  | [], s, log, t, t', h, hb, _, _, _, ht => by
      rw [RateLimiter.calls, RateLimiter.admitted, List.append_nil]
      exact ⟨h.later ht, hb⟩
  | c :: cs, s, log, t, t', h, hb, hsorted, hlow, hhigh, _ => by
      obtain ⟨hfirst, hrest⟩ := List.pairwise_cons.mp hsorted
      obtain ⟨hadmitted, hrejected⟩ := h.take limit (hlow c (.head _))
      have hnext : c.2 ≤ t' := hhigh c (.head _)
      have hlater : ∀ c' ∈ cs, c'.2 ≤ t' := fun c' hc' => hhigh c' (.tail _ hc')
      rw [RateLimiter.calls, RateLimiter.admitted]
      by_cases hroom : s.Admits limit windowMs c
      · have hzero := (take_zero_iff hlimit s c).mpr hroom
        have hstep := calls_kept hlimit (hadmitted hroom) (h.bounded hb (hlow c (.head _)) hroom) hrest hfirst hlater hnext
        rw [if_pos hzero, ← List.singleton_append, ← List.append_assoc]
        exact hstep
      · have hwait : (s.take limit windowMs c).2 ≠ 0 := fun hzero => hroom ((take_zero_iff hlimit s c).mp hzero)
        rw [if_neg hwait]
        exact calls_kept hlimit (hrejected hroom) hb hrest hfirst hlater hnext

/-! ## Outcomes -/

def Alike (windowMs : α) (s s' : RateLimiter κ α) (t : α) : Prop :=
  ∀ key now, t ≤ now → s.recent windowMs key now = s'.recent windowMs key now

theorem outcomes_alike : ∀ {cs : List (Call κ α)} {s s' : RateLimiter κ α} {t : α}, Alike windowMs s s' t →
    cs.Pairwise (fun c c' => c.2 ≤ c'.2) → (∀ c ∈ cs, t ≤ c.2) →
    s.outcomes limit windowMs cs = s'.outcomes limit windowMs cs
  | [], _, _, _, _, _, _ => rfl
  | c :: cs, s, s', t, h, hsorted, hlow => by
      obtain ⟨hfirst, hrest⟩ := List.pairwise_cons.mp hsorted
      obtain ⟨s₁, hsame, htake⟩ := take_eq limit windowMs s c
      obtain ⟨s₁', hsame', htake'⟩ := take_eq limit windowMs s' c
      have hrecent := h c.1 c.2 (hlow c (.head _))
      have halike : ∀ times : List α, Alike windowMs (s₁.set c.1 times) (s₁'.set c.1 times) c.2 := by
        intro times key now hnow
        rw [recent_set, recent_set]
        split
        · rfl
        · rw [hsame key now hnow, hsame' key now hnow, h key now ((hlow c (.head _)).trans hnow)]
      rw [RateLimiter.outcomes, RateLimiter.outcomes, htake, htake', hrecent]
      split
      · exact congrArg _ (outcomes_alike (halike _) hrest hfirst)
      · exact congrArg _ (outcomes_alike (halike _) hrest hfirst)

theorem outcomes_sweep (s : RateLimiter κ α) {cs : List (Call κ α)} {now : α} (hsorted : cs.Pairwise fun c c' => c.2 ≤ c'.2)
    (hlow : ∀ c ∈ cs, now ≤ c.2) :
    (s.sweep windowMs now).outcomes limit windowMs cs = s.outcomes limit windowMs cs :=
  outcomes_alike (fun key _ hnow => recent_sweep s hnow key) hsorted hlow

omit [IsStrictOrderedRing α] in
theorem filter_of_first {first : α} {rest : List α} (hsorted : (first :: rest).Pairwise (· ≤ ·)) {now : α}
    (h : now - windowMs < first) : ((first :: rest).filter fun t => now - windowMs < t) = first :: rest := by
  rw [List.filter_eq_self]
  intro t ht
  rcases List.mem_cons.mp ht with rfl | ht
  · exact decide_eq_true h
  · exact decide_eq_true (h.trans_le ((List.pairwise_cons.mp hsorted).1 t ht))

theorem wait_least (hlimit : 1 ≤ limit) {c : Call κ α} (hfull : (s.recent windowMs c.1 c.2).length = limit)
    (hsorted : (s.recent windowMs c.1 c.2).Pairwise (· ≤ ·)) (wait : α) :
    ((s.take limit windowMs c).1.take limit windowMs (c.1, c.2 + wait)).2 = 0 ↔ (s.take limit windowMs c).2 ≤ wait := by
  obtain ⟨s₁, _, htake⟩ := take_eq limit windowMs s c
  rw [take_zero_iff hlimit, RateLimiter.Admits, htake, if_pos hfull.ge]
  dsimp only
  rw [recent_set, if_pos rfl]
  cases hrecent : s.recent windowMs c.1 c.2 with
  | nil =>
    rw [hrecent, List.length_nil] at hfull
    omega
  | cons first rest =>
    rw [hrecent] at hfull hsorted
    rw [List.headD_cons]
    by_cases hin : c.2 + wait - windowMs < first
    · rw [filter_of_first hsorted hin, hfull]
      refine ⟨fun hlt => absurd hlt (lt_irrefl _), fun hle => ?_⟩
      exfalso
      linarith
    · rw [List.filter_cons_of_neg (by simpa using hin)]
      refine ⟨fun _ => by linarith [not_lt.mp hin], fun _ => ?_⟩
      have hshort := List.length_filter_le (fun t => decide (c.2 + wait - windowMs < t)) rest
      rw [List.length_cons] at hfull
      omega

/-! ## The whole -/

structure Exact (limit : ℕ) (windowMs : α) (calls : List (Call κ α)) : Prop where
  /-- **No half-open interval of the window's length has more admitted hits of a key than the limit.** -/
  bounded : ∀ key a,
    ((hitsOf (fresh.admitted limit windowMs calls) key).filter fun t => a < t ∧ t ≤ a + windowMs).length ≤ limit ∧
      ((hitsOf (fresh.admitted limit windowMs calls) key).filter fun t => a ≤ t ∧ t < a + windowMs).length ≤ limit
  /-- **A call is rejected only when the window before it has that many.** -/
  full : ∀ before c after, calls = before ++ c :: after →
    ((fresh.calls limit windowMs before).take limit windowMs c).2 ≠ 0 →
    ((hitsOf (fresh.admitted limit windowMs before) c.1).filter fun t => c.2 - windowMs < t ∧ t ≤ c.2).length = limit
  /-- **It is told the least wait after which it would be admitted.** -/
  wait : ∀ before c after, calls = before ++ c :: after →
    ((fresh.calls limit windowMs before).take limit windowMs c).2 ≠ 0 → ∀ wait, 0 ≤ wait →
    (((fresh.calls limit windowMs (before ++ [c])).take limit windowMs (c.1, c.2 + wait)).2 = 0 ↔
      ((fresh.calls limit windowMs before).take limit windowMs c).2 ≤ wait)
  /-- **A sweep between two calls changes no later outcome.** -/
  swept : ∀ before after, calls = before ++ after → ∀ now, (∀ c ∈ after, now ≤ c.2) →
    ((fresh.calls limit windowMs before).sweep windowMs now).outcomes limit windowMs after =
      (fresh.calls limit windowMs before).outcomes limit windowMs after

omit [IsStrictOrderedRing α] in
theorem calls_append (s : RateLimiter κ α) (cs cs' : List (Call κ α)) :
    s.calls limit windowMs (cs ++ cs') = (s.calls limit windowMs cs).calls limit windowMs cs' := by
  induction cs generalizing s with
  | nil => rfl
  | cons c cs ih => exact ih _

omit [IsStrictOrderedRing α] in
theorem Bounded.nil : Bounded limit windowMs ([] : List (Call κ α)) := fun _ _ _ => Nat.zero_le _

theorem narrow_left (a : α) : Narrow windowMs fun t => decide (a < t ∧ t ≤ a + windowMs) := by
  intro x y hx hy
  have hx := of_decide_eq_true hx
  have hy := of_decide_eq_true hy
  linarith [hx.1, hy.2]

theorem narrow_right (a : α) : Narrow windowMs fun t => decide (a ≤ t ∧ t < a + windowMs) := by
  intro x y hx hy
  have hx := of_decide_eq_true hx
  have hy := of_decide_eq_true hy
  linarith [hx.1, hy.2]

omit [DecidableEq κ] [IsStrictOrderedRing α] in
theorem exists_bounds (cs : List (Call κ α)) : ∃ t t' : α, ∀ c ∈ cs, t ≤ c.2 ∧ c.2 ≤ t' := by
  induction cs with
  | nil => exact ⟨0, 0, nofun⟩
  | cons c cs ih =>
    obtain ⟨t, t', h⟩ := ih
    refine ⟨min c.2 t, max c.2 t', ?_⟩
    intro c' hc'
    rcases List.mem_cons.mp hc' with rfl | hc'
    · exact ⟨min_le_left _ _, le_max_left _ _⟩
    · exact ⟨(min_le_right _ _).trans (h c' hc').1, (h c' hc').2.trans (le_max_right _ _)⟩

theorem calls_fresh (hlimit : 1 ≤ limit) {cs : List (Call κ α)} (hsorted : cs.Pairwise fun c c' => c.2 ≤ c'.2) {t' : α}
    (hhigh : ∀ c ∈ cs, c.2 ≤ t') :
    Kept windowMs (fresh.calls limit windowMs cs) (fresh.admitted limit windowMs cs) t' ∧
      Bounded limit windowMs (fresh.admitted limit windowMs cs) := by
  obtain ⟨t, _, hbounds⟩ := exists_bounds cs
  exact calls_kept hlimit (Kept.fresh (min t t')) Bounded.nil hsorted
    (fun c hc => (min_le_left _ _).trans (hbounds c hc).1) hhigh (min_le_right _ _)

/-- **The limiter is exact** on every sequence of calls in time order. -/
theorem limiter_exact (hlimit : 1 ≤ limit) (windowMs : α) {calls : List (Call κ α)}
    (hsorted : calls.Pairwise fun c c' => c.2 ≤ c'.2) : Exact limit windowMs calls := by
  -- the calls before one of them
  have hbefore : ∀ before c after, calls = before ++ c :: after →
      Kept windowMs (fresh.calls limit windowMs before) (fresh.admitted limit windowMs before) c.2 ∧
        Bounded limit windowMs (fresh.admitted limit windowMs before) := by
    intro before c after heq
    rw [heq, List.pairwise_append] at hsorted
    exact calls_fresh hlimit hsorted.1 fun c' hc' => hsorted.2.2 c' hc' c (.head _)
  -- one that is rejected finds its window full
  have hfull : ∀ before c after, calls = before ++ c :: after →
      ((fresh.calls limit windowMs before).take limit windowMs c).2 ≠ 0 →
      ((fresh.calls limit windowMs before).recent windowMs c.1 c.2).length = limit ∧
        ((hitsOf (fresh.admitted limit windowMs before) c.1).filter fun t => c.2 - windowMs < t ∧ t ≤ c.2).length =
          limit := by
    intro before c after heq hwait
    obtain ⟨hk, hb⟩ := hbefore before c after heq
    have hge : limit ≤ ((fresh.calls limit windowMs before).recent windowMs c.1 c.2).length :=
      not_lt.mp fun hroom => hwait ((take_zero_iff hlimit _ c).mpr hroom)
    have hsame : (hitsOf (fresh.admitted limit windowMs before) c.1).filter (fun t => decide (c.2 - windowMs < t ∧ t ≤ c.2)) =
        (fresh.calls limit windowMs before).recent windowMs c.1 c.2 := by
      rw [hk.recent c.1 c.2 le_rfl]
      refine List.filter_congr ?_
      intro t ht
      obtain ⟨h, hh, rfl⟩ := List.mem_map.mp ht
      simp [hk.past h (List.mem_of_mem_filter hh)]
    have hle : ((fresh.calls limit windowMs before).recent windowMs c.1 c.2).length ≤ limit := by
      rw [← hsame, ← List.countP_eq_length_filter]
      refine hb c.1 _ ?_
      intro x y hx hy
      have hx := of_decide_eq_true hx
      have hy := of_decide_eq_true hy
      linarith [hx.1, hy.2]
    rw [hsame]
    exact ⟨le_antisymm hle hge, le_antisymm hle hge⟩
  refine ⟨?_, fun before c after heq hwait => (hfull before c after heq hwait).2, ?_, ?_⟩
  · intro key a
    obtain ⟨_, t', hbounds⟩ := exists_bounds calls
    have hb : Bounded limit windowMs (fresh.admitted limit windowMs calls) :=
      (calls_fresh hlimit hsorted fun c hc => (hbounds c hc).2).2
    rw [← List.countP_eq_length_filter, ← List.countP_eq_length_filter]
    exact ⟨hb key _ (narrow_left a), hb key _ (narrow_right a)⟩
  · intro before c after heq hwait wait _
    obtain ⟨hk, _⟩ := hbefore before c after heq
    have hrecent : ((fresh.calls limit windowMs before).recent windowMs c.1 c.2).Pairwise (· ≤ ·) := by
      rw [hk.recent c.1 c.2 le_rfl]
      refine List.Pairwise.filter _ ?_
      rw [hitsOf, List.pairwise_map]
      exact hk.sorted.filter _
    rw [calls_append]
    exact wait_least hlimit (hfull before c after heq hwait).1 hrecent wait
  · intro before after heq now hnow
    rw [heq, List.pairwise_append] at hsorted
    exact outcomes_sweep _ hsorted.2.1 hnow

end

/-- Two hits a minute, and a third that comes too early. -/
theorem limiter_exact_bench : (fresh : RateLimiter ℕ ℤ).outcomes 2 60000 [(0, 0), (0, 10000), (0, 10000), (1, 10000)] =
      [0, 0, 50000, 0] ∧
    Exact 2 60000 [((0 : ℕ), (0 : ℤ)), (0, 10000), (0, 10000), (1, 10000)] :=
  ⟨by decide, limiter_exact (by decide) 60000 (by decide)⟩

end Albusforge.Gateway.RateLimit
