import Mathlib
import Albusforge.Web.RequestErrors

/-!
# No failure is lost

**What a step can do** is `Shown`: the timers are as they were, one fewer or one more, and what is logged goes
with it. The table of digests is the timers, sorted by digest and by list (`Sound`), so that all the rest is said
of timers only. From there it is told of a whole run who has cancelled whom (`errors_kept`).
-/

namespace Albusforge.Web.Errors

open Lib

/-! ## The table -/

def Callback.list : Callback → ListName
  | .credit => .credits
  | .held .. => .held

def Logger.waiting (l : Logger) (digest : Text) (list : ListName) : List ℕ :=
  (l.timers.filter fun t => t.digest = digest && t.callback.list = list).map Timer.id

def Logger.under (l : Logger) (digest : Text) : DigestState := (l.states.get digest).getD .none

/-- **The table is the timers**, and keeps to its bounds. -/
structure Sound (settings : Settings) (l : Logger) : Prop where
  keys : l.states.keys.Nodup
  listed : ∀ digest list, (l.under digest).list list = l.waiting digest list
  occupied : ∀ digest s, l.states.get digest = some s → s.isEmpty = false
  apart : ∀ digest, (l.under digest).held = [] ∨ (l.under digest).credits = []
  perDigest : ∀ digest, (l.under digest).size ≤ settings.maxPerDigest
  total : l.total = (l.states.values.map DigestState.size).sum
  timers : l.total = l.timers.length
  maxTotal : l.total ≤ settings.maxTotal
  ids : (l.timers.map Timer.id).Nodup
  fresh : ∀ t ∈ l.timers, t.id < l.calls

section

variable {settings : Settings} {l l' : Logger} {t : Timer} {digest digest' : Text} {list list' : ListName}

theorem mem_waiting {id : ℕ} :
    id ∈ l.waiting digest list ↔ ∃ t ∈ l.timers, t.id = id ∧ t.digest = digest ∧ t.callback.list = list := by
  simp only [Logger.waiting, List.mem_map, List.mem_filter, Bool.and_eq_true, decide_eq_true_eq]
  constructor
  · rintro ⟨t, ⟨ht, hdigest, hlist⟩, rfl⟩
    exact ⟨t, ht, rfl, hdigest, hlist⟩
  · rintro ⟨t, ht, rfl, hdigest, hlist⟩
    exact ⟨t, ⟨ht, hdigest, hlist⟩, rfl⟩

theorem Sound.unique (h : Sound settings l) {t t' : Timer} (ht : t ∈ l.timers) (ht' : t' ∈ l.timers)
    (hid : t.id = t'.id) : t = t' := List.inj_on_of_nodup_map h.ids ht ht' hid

theorem isEmpty_iff {s : DigestState} : s.isEmpty = true ↔ s = .none := by
  obtain ⟨held, credits⟩ := s
  simp [DigestState.isEmpty, DigestState.none, List.isEmpty_iff]

theorem splice_list (s : DigestState) (id : ℕ) :
    (s.splice list id).list list' = if list = list' then (s.list list').erase id else s.list list' := by
  cases list <;> cases list' <;> rfl

theorem push_list (s : DigestState) (id : ℕ) :
    (s.push list id).list list' = if list = list' then s.list list' ++ [id] else s.list list' := by
  cases list <;> cases list' <;> rfl

theorem splice_size {s : DigestState} {id : ℕ} (h : id ∈ s.list list) : (s.splice list id).size + 1 = s.size := by
  have hpos := List.length_pos_of_mem h
  cases list with
  | held =>
    have hlength := List.length_erase_of_mem (show id ∈ s.held from h)
    simp only [DigestState.size, DigestState.splice, DigestState.list] at hpos ⊢
    omega
  | credits =>
    have hlength := List.length_erase_of_mem (show id ∈ s.credits from h)
    simp only [DigestState.size, DigestState.splice, DigestState.list] at hpos ⊢
    omega

theorem push_size (s : DigestState) (id : ℕ) : (s.push list id).size = s.size + 1 := by
  cases list <;> simp [DigestState.size, DigestState.push] <;> omega

/-! ## A timer goes -/

theorem erase_of_nodup {ids : List ℕ} (h : ids.Nodup) (id : ℕ) : ids.erase id = ids.filter fun x => x ≠ id := by
  rw [h.erase_eq_filter]
  refine List.filter_congr ?_
  intro x _
  simp [bne, beq_eq_decide]

theorem forget_waiting (h : Sound settings l) (ht : t ∈ l.timers) :
    (l.forget t.id).waiting digest list =
      if t.digest = digest ∧ t.callback.list = list then (l.waiting digest list).erase t.id
      else l.waiting digest list := by
  have hcomm : (l.forget t.id).waiting digest list = (l.waiting digest list).filter fun id => id ≠ t.id := by
    simp only [Logger.waiting, Logger.forget, List.filter_map, List.filter_filter]
    congr 1
    refine List.filter_congr ?_
    intro u _
    simp [Bool.and_comm]
  have hnodup : (l.waiting digest list).Nodup := (List.filter_sublist.map Timer.id).nodup h.ids
  rw [hcomm]
  split
  · exact (erase_of_nodup hnodup t.id).symm
  · rename_i hother
    refine List.filter_eq_self.mpr ?_
    intro id hid
    obtain ⟨u, hu, rfl, hdigest, hlist⟩ := mem_waiting.mp hid
    have hne : u.id ≠ t.id := by
      intro heq
      obtain rfl := h.unique hu ht heq
      exact hother ⟨hdigest, hlist⟩
    simpa using hne

def Logger.drop (l : Logger) (t : Timer) : Logger := (l.forget t.id).release t.digest t.callback.list t.id

theorem Sound.found (h : Sound settings l) (ht : t ∈ l.timers) :
    ∃ s, l.states.get t.digest = some s ∧ t.id ∈ s.list t.callback.list := by
  have hmem : t.id ∈ (l.under t.digest).list t.callback.list := by
    rw [h.listed]
    exact mem_waiting.mpr ⟨t, ht, rfl, rfl, rfl⟩
  rcases hget : l.states.get t.digest with _ | s
  · rw [Logger.under, hget] at hmem
    cases hlist : t.callback.list <;> rw [hlist] at hmem <;> exact absurd hmem List.not_mem_nil
  · refine ⟨s, rfl, ?_⟩
    rw [Logger.under, hget] at hmem
    exact hmem

theorem drop_eq {s : DigestState} (hget : l.states.get t.digest = some s)
    (hmem : t.id ∈ s.list t.callback.list) :
    l.drop t = { l.forget t.id with
      states := if (s.splice t.callback.list t.id).isEmpty then l.states.delete t.digest
        else l.states.set t.digest (s.splice t.callback.list t.id)
      total := l.total - 1 } := by
  have hforget : (l.forget t.id).states.get t.digest = some s := hget
  rw [Logger.drop, Logger.release, hforget]
  exact if_pos hmem

theorem drop_under {s : DigestState} (hget : l.states.get t.digest = some s)
    (hmem : t.id ∈ s.list t.callback.list) :
    (l.drop t).under digest = if t.digest = digest then s.splice t.callback.list t.id else l.under digest := by
  rw [drop_eq hget hmem, Logger.under]
  dsimp only
  split
  · rename_i hempty
    rw [Entries.get_delete]
    split
    · exact (isEmpty_iff.mp hempty).symm
    · rfl
  · rw [Entries.get_set]
    split <;> rfl

theorem Sound.drop (h : Sound settings l) (ht : t ∈ l.timers) : Sound settings (l.drop t) := by
  obtain ⟨s, hget, hmem⟩ := h.found ht
  have hunder : ∀ digest, (l.drop t).under digest = if t.digest = digest then s.splice t.callback.list t.id
      else l.under digest := fun digest => drop_under hget hmem
  have hs : l.under t.digest = s := by rw [Logger.under, hget]; rfl
  have hsize := splice_size hmem
  have heq := drop_eq hget hmem
  have htimers : (l.drop t).timers = l.timers.filter fun u => u.id ≠ t.id := by rw [heq]; rfl
  have hlength : (l.drop t).timers.length + 1 = l.timers.length := by
    have hcount : ((l.timers.filter fun u => u.id ≠ t.id).map Timer.id) = (l.timers.map Timer.id).erase t.id := by
      rw [erase_of_nodup h.ids, List.filter_map]
      rfl
    have hmap := List.mem_map_of_mem (f := Timer.id) ht
    have hpos := List.length_pos_of_mem hmap
    have hlen := congrArg List.length hcount
    rw [List.length_map, List.length_erase_of_mem hmap, List.length_map] at hlen
    rw [List.length_map] at hpos
    rw [htimers, hlen]
    omega
  have htotal : (l.drop t).total = l.total - 1 := by rw [heq]
  refine ⟨?_, ?_, ?_, ?_, ?_, ?_, ?_, ?_, ?_, ?_⟩
  · rw [heq]
    dsimp only
    split
    · exact Entries.nodup_delete _ h.keys
    · exact Entries.nodup_set _ _ h.keys
  · intro digest list
    have hwaiting : (l.drop t).waiting digest list = (l.forget t.id).waiting digest list := by
      rw [Logger.waiting, htimers]
      rfl
    rw [hunder, hwaiting, forget_waiting h ht]
    by_cases hdigest : t.digest = digest
    · subst hdigest
      rw [if_pos rfl, splice_list, ← h.listed, hs]
      simp
    · rw [if_neg hdigest, if_neg (fun hboth => hdigest hboth.1), h.listed]
  · intro digest s' hs'
    rw [heq] at hs'
    dsimp only at hs'
    split at hs'
    · rw [Entries.get_delete] at hs'
      split at hs'
      · cases hs'
      · exact h.occupied digest s' hs'
    · rename_i hfull
      rw [Entries.get_set] at hs'
      split at hs'
      · exact Option.some.inj hs' ▸ Bool.eq_false_iff.mpr hfull
      · exact h.occupied digest s' hs'
  · intro digest
    rw [hunder]
    split
    · rename_i hdigest
      have hapart := h.apart t.digest
      rw [hs] at hapart
      cases t.callback.list with
      | held =>
        rcases hapart with hheld | hcredits
        · left
          simp [DigestState.splice, hheld]
        · exact Or.inr hcredits
      | credits =>
        rcases hapart with hheld | hcredits
        · exact Or.inl hheld
        · right
          simp [DigestState.splice, hcredits]
    · exact h.apart digest
  · intro digest
    rw [hunder]
    split
    · have hold := h.perDigest t.digest
      rw [hs] at hold
      omega
    · exact h.perDigest digest
  · rw [htotal, heq]
    dsimp only
    have hbefore := h.total
    split
    · rename_i hempty
      have hsum := Entries.sum_delete h.keys t.digest DigestState.size
      have hzero : (s.splice t.callback.list t.id).size = 0 := by rw [isEmpty_iff.mp hempty]; rfl
      rw [hget] at hsum
      simp only [Option.map_some, Option.getD_some] at hsum
      omega
    · have hsum := Entries.sum_set l.states t.digest (s.splice t.callback.list t.id) DigestState.size
      rw [hget] at hsum
      simp only [Option.map_some, Option.getD_some] at hsum
      omega
  · have hbefore := h.timers
    omega
  · have hbefore := h.maxTotal
    omega
  · rw [htimers]
    exact (List.filter_sublist.map Timer.id).nodup h.ids
  · intro u hu
    rw [htimers] at hu
    rw [heq]
    exact h.fresh u (List.mem_filter.mp hu).1

/-! ## A timer comes -/

def Logger.add (l : Logger) (digest : Text) (callback : Callback) : Logger :=
  (l.stateFor digest).1.wait digest (l.stateFor digest).2 callback.list callback

theorem stateFor_under (l : Logger) (digest : Text) : (l.stateFor digest).2 = l.under digest := by
  rw [Logger.stateFor, Logger.under]
  cases l.states.get digest <;> rfl

theorem add_eq (l : Logger) (digest : Text) (callback : Callback) :
    l.add digest callback = { l with
      states := l.states.set digest ((l.under digest).push callback.list l.calls)
      total := l.total + 1
      timers := l.timers ++ [⟨l.calls, digest, callback⟩] } := by
  rw [Logger.add, stateFor_under]
  unfold Logger.stateFor
  cases l.states.get digest with
  | none => simp only [Logger.wait, Entries.set_set]
  | some s => rfl

def Logger.next (l : Logger) : Logger := { l with calls := l.calls + 1 }

theorem Sound.add {callback : Callback} (h : Sound settings l)
    (hroom : l.total < settings.maxTotal) (hsize : (l.under digest).size < settings.maxPerDigest)
    (hother : ∀ list, list ≠ callback.list → (l.under digest).list list = []) :
    Sound settings (l.add digest callback).next := by
  have heq := add_eq l digest callback
  have hunder : ∀ digest', (l.add digest callback).next.under digest' =
      if digest = digest' then (l.under digest).push callback.list l.calls else l.under digest' := by
    intro digest'
    rw [Logger.next, Logger.under, heq]
    dsimp only
    rw [Entries.get_set]
    split <;> rfl
  have hlists : ∀ {callback' : Callback}, callback' = callback → ((l.under digest).push callback'.list l.calls).held = [] ∨
      ((l.under digest).push callback'.list l.calls).credits = [] := by
    intro callback' hcallback
    subst hcallback
    cases hlist : callback'.list with
    | held =>
      right
      exact hother .credits (by rw [hlist]; decide)
    | credits =>
      left
      exact hother .held (by rw [hlist]; decide)
  refine ⟨?_, ?_, ?_, ?_, ?_, ?_, ?_, ?_, ?_, ?_⟩
  · rw [Logger.next, heq]
    exact Entries.nodup_set _ _ h.keys
  · intro digest' list
    have hwaiting : (l.add digest callback).next.waiting digest' list = l.waiting digest' list ++
        if digest = digest' ∧ callback.list = list then [l.calls] else [] := by
      rw [Logger.next, heq]
      simp only [Logger.waiting, List.filter_append, List.map_append]
      congr 1
      by_cases hboth : digest = digest' ∧ callback.list = list
      · simp [hboth.1, hboth.2]
      · rw [if_neg hboth, List.filter_cons_of_neg]
        · rfl
        · simpa using hboth
    rw [hunder, hwaiting]
    by_cases hdigest : digest = digest'
    · subst hdigest
      rw [if_pos rfl, push_list, ← h.listed]
      by_cases hlist : callback.list = list
      · simp [hlist]
      · simp [hlist]
    · rw [if_neg hdigest, if_neg (fun hboth => hdigest hboth.1), List.append_nil, h.listed]
  · intro digest' s hs
    rw [Logger.next, heq] at hs
    dsimp only at hs
    rw [Entries.get_set] at hs
    split at hs
    · obtain rfl := Option.some.inj hs
      cases callback.list <;> simp [DigestState.push, DigestState.isEmpty]
    · exact h.occupied digest' s hs
  · intro digest'
    rw [hunder]
    split
    · exact hlists rfl
    · exact h.apart digest'
  · intro digest'
    rw [hunder]
    split
    · rw [push_size]
      omega
    · exact h.perDigest digest'
  · have hsum := Entries.sum_set l.states digest ((l.under digest).push callback.list l.calls) DigestState.size
    have hold : ((l.states.get digest).map DigestState.size).getD 0 = (l.under digest).size := by
      rw [Logger.under]
      cases l.states.get digest <;> rfl
    have hbefore := h.total
    rw [push_size, hold] at hsum
    rw [Logger.next, heq]
    dsimp only
    omega
  · have hbefore := h.timers
    rw [Logger.next, heq]
    simp only [List.length_append, List.length_singleton]
    omega
  · rw [Logger.next, heq]
    dsimp only
    omega
  · rw [Logger.next, heq]
    simp only [List.map_append, List.map_cons, List.map_nil]
    refine List.nodup_append.mpr ⟨h.ids, List.nodup_singleton _, ?_⟩
    intro id hid id' hid'
    obtain ⟨t, ht, rfl⟩ := List.mem_map.mp hid
    have hfresh := h.fresh t ht
    rw [List.mem_singleton.mp hid']
    omega
  · intro t ht
    rw [Logger.next, heq] at ht ⊢
    rcases List.mem_append.mp ht with ht | ht
    · exact Nat.lt_succ_of_lt (h.fresh t ht)
    · rw [List.mem_singleton.mp ht]
      exact Nat.lt_succ_self l.calls

/-! ## Nothing changes -/

theorem Sound.next (h : Sound settings l) : Sound settings l.next :=
  { h with fresh := fun t ht => Nat.lt_succ_of_lt (h.fresh t ht) }

theorem Sound.remember (h : Sound settings l) (reported : ℕ → Option (List Text)) :
    Sound settings { l with reported } :=
  ⟨h.keys, h.listed, h.occupied, h.apart, h.perDigest, h.total, h.timers, h.maxTotal, h.ids, h.fresh⟩

theorem dropEmpty_stateFor (h : Sound settings l) : (l.stateFor digest).1.dropEmpty digest (l.stateFor digest).2 = l := by
  unfold Logger.stateFor
  cases hget : l.states.get digest with
  | none =>
    have hnot : digest ∉ l.states.keys := by
      rw [← Entries.get_isSome, hget]
      simp
    show { l with states := (l.states.set digest .none).delete digest } = l
    rw [Entries.delete_set hnot]
  | some s =>
    show (if s.isEmpty then { l with states := l.states.delete digest } else l) = l
    rw [h.occupied digest s hget]
    rfl

end

/-! ## What a step can do -/

def errorDigest (error : Value) : Option Text := truthy (digestOf (some error))

def Remembered (l : Logger) (error : Value) (request : Request) : Prop :=
  ∃ o key seen, error = .object o ∧ requestKey (traceFromHeaders request.headers) = some key ∧
    l.reported o.identity = some seen ∧ key ∈ seen

inductive Shown (settings : Settings) (l : Logger) : Event → List Timer → Prop
  | repeated {error : Value} {request : Request} {context : List (Text × Text)} : Remembered l error request →
      Shown settings l ⟨.report l.calls error request context, []⟩ l.timers
  | logged {error : Value} {request : Request} {context : List (Text × Text)} :
      Shown settings l ⟨.report l.calls error request context, [.log (requestEntry error request context)]⟩ l.timers
  | cancelled {error : Value} {request : Request} {context : List (Text × Text)} {t : Timer} : t ∈ l.timers →
      errorDigest error = some t.digest → t.callback.list = .held →
      Shown settings l
        ⟨.report l.calls error request context, [.log (requestEntry error request context), .clearTimeout t.id]⟩
        (l.timers.filter fun u => u.id ≠ t.id)
  | credited {error : Value} {request : Request} {context : List (Text × Text)} {digest : Text} :
      errorDigest error = some digest →
      Shown settings l
        ⟨.report l.calls error request context, [.log (requestEntry error request context), .setTimeout l.calls]⟩
        (l.timers ++ [⟨l.calls, digest, .credit⟩])
  | emitted {severity : Severity} {args : List Value} :
      Shown settings l ⟨.console l.calls severity args, [.log (consoleEntry settings severity args)]⟩ l.timers
  | spent {severity : Severity} {args : List Value} {t : Timer} : t ∈ l.timers →
      consoleDigest args = some t.digest → t.callback = .credit →
      Shown settings l ⟨.console l.calls severity args, [.clearTimeout t.id]⟩ (l.timers.filter fun u => u.id ≠ t.id)
  | held {severity : Severity} {args : List Value} {digest : Text} : consoleDigest args = some digest →
      Shown settings l ⟨.console l.calls severity args, [.setTimeout l.calls]⟩
        (l.timers ++ [⟨l.calls, digest, .held severity args⟩])
  | expired {t : Timer} : t ∈ l.timers → t.callback = .credit →
      Shown settings l ⟨.expire t.id, []⟩ (l.timers.filter fun u => u.id ≠ t.id)
  | released {t : Timer} {severity : Severity} {args : List Value} : t ∈ l.timers → t.callback = .held severity args →
      Shown settings l ⟨.expire t.id, [.log (consoleEntry settings severity args)]⟩
        (l.timers.filter fun u => u.id ≠ t.id)

def Recalls (l l' : Logger) (e : Event) : Prop :=
  ∀ identity key seen, l'.reported identity = some seen → key ∈ seen →
    (∃ seen', l.reported identity = some seen' ∧ key ∈ seen') ∨
      ∃ o request context, e.input = .report l.calls (.object o) request context ∧ o.identity = identity ∧
        requestKey (traceFromHeaders request.headers) = some key ∧ e.effects ≠ []

def Input.callsAfter (calls : ℕ) : Input → ℕ
  | .expire _ => calls
  | _ => calls + 1

section

variable {settings : Settings} {l l' : Logger} {t : Timer} {e : Event} {digest : Text}

theorem drop_timers (h : Sound settings l) (ht : t ∈ l.timers) :
    (l.drop t).timers = l.timers.filter fun u => u.id ≠ t.id := by
  obtain ⟨s, hget, hmem⟩ := h.found ht
  rw [drop_eq hget hmem]
  rfl

theorem drop_rest (h : Sound settings l) (ht : t ∈ l.timers) :
    (l.drop t).reported = l.reported ∧ (l.drop t).calls = l.calls := by
  obtain ⟨s, hget, hmem⟩ := h.found ht
  rw [drop_eq hget hmem]
  exact ⟨rfl, rfl⟩

theorem Sound.head (h : Sound settings l) {list : ListName} {id : ℕ} {rest : List ℕ}
    (hlist : (l.under digest).list list = id :: rest) :
    ∃ t ∈ l.timers, t.id = id ∧ t.digest = digest ∧ t.callback.list = list := by
  refine mem_waiting.mp ?_
  rw [← h.listed, hlist]
  exact List.mem_cons_self

theorem stateFor_found {s : DigestState} (hget : l.states.get digest = some s) : l.stateFor digest = (l, s) := by
  rw [Logger.stateFor, hget]

theorem get_of_list {list : ListName} {id : ℕ} {rest : List ℕ} (hlist : (l.under digest).list list = id :: rest) :
    l.states.get digest = some (l.under digest) := by
  rw [Logger.under] at hlist ⊢
  cases hget : l.states.get digest with
  | none =>
    rw [hget] at hlist
    cases list <;> cases hlist
  | some s => rfl

theorem hasRoom_iff (s : DigestState) : (l.stateFor digest).1.hasRoom settings s = true ↔
    l.total < settings.maxTotal ∧ s.size < settings.maxPerDigest := by
  have htotal : (l.stateFor digest).1.total = l.total := by
    rw [Logger.stateFor]
    cases l.states.get digest <;> rfl
  simp [Logger.hasRoom, htotal]

/-- What follows where a call has a digest to be paired by: the other is there and is dropped, or this call waits
for it, or there is no room for it. -/
theorem paired_cases (h : Sound settings l) (callback : Callback) (digest : Text) (other : ListName)
    (hother : ∀ list, list ≠ callback.list → list = other) :
    (∃ t rest, (l.under digest).list other = t.id :: rest ∧ t ∈ l.timers ∧ t.digest = digest ∧ t.callback.list = other ∧
        l.stateFor digest = (l, l.under digest)) ∨
      (l.under digest).list other = [] ∧
        (((l.stateFor digest).1.hasRoom settings (l.under digest) = false) ∨
          ((l.stateFor digest).1.hasRoom settings (l.under digest) = true ∧
            Sound settings (l.add digest callback).next)) := by
  rcases hlist : (l.under digest).list other with _ | ⟨id, rest⟩
  · refine Or.inr ⟨rfl, ?_⟩
    rcases hroom : (l.stateFor digest).1.hasRoom settings (l.under digest) with _ | _
    · exact Or.inl rfl
    · obtain ⟨htotal, hsize⟩ := (hasRoom_iff _).mp hroom
      exact Or.inr ⟨rfl, h.add htotal hsize fun list hne => hother list hne ▸ hlist⟩
  · obtain ⟨t, ht, rfl, hdigest, hcallback⟩ := h.head hlist
    exact Or.inl ⟨t, rest, rfl, ht, hdigest, hcallback, stateFor_found (get_of_list hlist)⟩

theorem remember_none {error : Value} {request : Request}
    (h : l.remember error (requestKey (traceFromHeaders request.headers)) = none) : Remembered l error request := by
  unfold Logger.remember at h
  split at h
  · rename_i o key hkey
    dsimp only at h
    split at h
    · rename_i hseen
      rcases hreported : l.reported o.identity with _ | seen
      · rw [hreported] at hseen
        exact absurd hseen List.not_mem_nil
      · rw [hreported] at hseen
        exact ⟨o, key, seen, rfl, hkey, hreported, hseen⟩
    · cases h
  · cases h

theorem remember_some {error : Value} {key : Option Text} (h : l.remember error key = some l') :
    ∃ reported, l' = { l with reported } ∧ ∀ identity key' seen, reported identity = some seen → key' ∈ seen →
      (∃ seen', l.reported identity = some seen' ∧ key' ∈ seen') ∨
        ∃ o, error = .object o ∧ o.identity = identity ∧ key = some key' := by
  unfold Logger.remember at h
  split at h
  · rename_i o key
    dsimp only at h
    split at h
    · cases h
    · refine ⟨_, (Option.some.inj h).symm, ?_⟩
      intro identity key' seen hseen hkey
      by_cases hidentity : identity = o.identity
      · subst hidentity
        rw [Function.update_self] at hseen
        obtain rfl := Option.some.inj hseen
        rcases List.mem_append.mp hkey with hold | hnew
        · left
          -- what is forgotten at the bound is not there
          rcases hreported : l.reported o.identity with _ | seen'
          · rw [hreported] at hold
            simp at hold
          · rw [hreported] at hold
            refine ⟨seen', rfl, ?_⟩
            split at hold
            · exact absurd hold List.not_mem_nil
            · exact hold
        · exact Or.inr ⟨o, rfl, rfl, by rw [List.mem_singleton.mp hnew]⟩
      · rw [Function.update_of_ne hidentity] at hseen
        exact Or.inl ⟨seen, hseen, hkey⟩
  · obtain rfl := Option.some.inj h
    exact ⟨l.reported, rfl, fun identity key' seen hseen hkey => Or.inl ⟨seen, hseen, hkey⟩⟩

structure Leaves (settings : Settings) (l : Logger) (e : Event) (l' : Logger) : Prop where
  sound : Sound settings l'.next
  shown : Shown settings l e l'.timers
  calls : l'.calls = l.calls
  recalls : Recalls l l' e

theorem report_leaves (h : Sound settings l) {error : Value} {request : Request} {context : List (Text × Text)}
    {effects : List Effect} (hreport : reportRequestError settings l error request context = (l', effects)) :
    Leaves settings l ⟨.report l.calls error request context, effects⟩ l' := by
  unfold reportRequestError at hreport
  split at hreport
  · rename_i hnone
    obtain ⟨rfl, rfl⟩ := Prod.mk.inj hreport
    exact ⟨h.next, .repeated (remember_none hnone), rfl, fun _ _ seen hseen hkey => Or.inl ⟨seen, hseen, hkey⟩⟩
  · rename_i l₁ hsome
    obtain ⟨reported, rfl, hrecalls⟩ := remember_some hsome
    have h₁ := h.remember reported
    have hrecall : ∀ {effects : List Effect}, effects ≠ [] → Recalls l { l with reported }
        ⟨.report l.calls error request context, effects⟩ := by
      intro effects hne identity key seen hseen hkey
      rcases hrecalls identity key seen hseen hkey with hold | ⟨o, rfl, hidentity, hnew⟩
      · exact Or.inl hold
      · exact Or.inr ⟨o, request, context, rfl, hidentity, hnew, hne⟩
    dsimp only at hreport
    split at hreport
    · obtain ⟨rfl, rfl⟩ := Prod.mk.inj hreport
      exact ⟨h₁.next, .logged, rfl, hrecall (by simp)⟩
    · rename_i digest hdigest
      rw [stateFor_under] at hreport
      rcases paired_cases h₁ .credit digest .held (fun list hne => by cases list <;> simp_all [Callback.list]) with
        ⟨t, rest, hlist, ht, rfl, hcallback, hfound⟩ | ⟨hlist, hfull | ⟨hroom, hadd⟩⟩
      · -- a copy is waiting
        have hheld : (Logger.under { l with reported } t.digest).held = t.id :: rest := hlist
        rw [hheld, hfound] at hreport
        obtain ⟨rfl, rfl⟩ := Prod.mk.inj hreport
        have hdrop : (Logger.forget { l with reported } t.id).release t.digest .held t.id = Logger.drop { l with reported } t := by
          rw [Logger.drop, hcallback]
        rw [hdrop]
        refine ⟨(h₁.drop ht).next, ?_, (drop_rest h₁ ht).2, ?_⟩
        · rw [drop_timers h₁ ht]
          exact .cancelled ht hdigest hcallback
        · intro identity key seen hseen hkey
          rw [(drop_rest h₁ ht).1] at hseen
          exact hrecall (by simp) identity key seen hseen hkey
      · have hheld : (Logger.under { l with reported } digest).held = [] := hlist
        rw [hheld] at hreport
        dsimp only at hreport
        rw [hfull, ← stateFor_under, dropEmpty_stateFor h₁] at hreport
        obtain ⟨rfl, rfl⟩ := Prod.mk.inj hreport
        exact ⟨h₁.next, .logged, rfl, hrecall (by simp)⟩
      · have hheld : (Logger.under { l with reported } digest).held = [] := hlist
        rw [hheld] at hreport
        dsimp only at hreport
        rw [hroom] at hreport
        have hcalls : (Logger.stateFor { l with reported } digest).1.calls = l.calls := by
          rw [Logger.stateFor]
          dsimp only
          cases l.states.get digest <;> rfl
        have hwait : (Logger.stateFor { l with reported } digest).1.wait digest (Logger.under { l with reported } digest)
            .credits .credit = Logger.add { l with reported } digest .credit := by
          rw [Logger.add, stateFor_under]
          rfl
        simp only [Bool.not_true, Bool.false_eq_true, if_false, hcalls, hwait] at hreport
        obtain ⟨rfl, rfl⟩ := Prod.mk.inj hreport
        rw [add_eq] at hadd ⊢
        exact ⟨hadd, .credited hdigest, rfl, hrecall (by simp)⟩

theorem console_leaves (h : Sound settings l) {severity : Severity} {args : List Value} {effects : List Effect}
    (hconsole : routeConsoleCall settings l severity args = (l', effects)) :
    Leaves settings l ⟨.console l.calls severity args, effects⟩ l' := by
  have hrecall : ∀ {effects : List Effect}, Recalls l l ⟨.console l.calls severity args, effects⟩ :=
    fun _ _ seen hseen hkey => Or.inl ⟨seen, hseen, hkey⟩
  unfold routeConsoleCall at hconsole
  dsimp only at hconsole
  split at hconsole
  · obtain ⟨rfl, rfl⟩ := Prod.mk.inj hconsole
    exact ⟨h.next, .emitted, rfl, hrecall⟩
  · rename_i digest hdigest
    rw [stateFor_under] at hconsole
    rcases paired_cases h (.held severity args) digest .credits
        (fun list hne => by cases list <;> simp_all [Callback.list]) with
      ⟨t, rest, hlist, ht, rfl, hcallback, hfound⟩ | ⟨hlist, hfull | ⟨hroom, hadd⟩⟩
    · -- a credit is waiting
      have hcredits : (l.under t.digest).credits = t.id :: rest := hlist
      rw [hcredits, hfound] at hconsole
      obtain ⟨rfl, rfl⟩ := Prod.mk.inj hconsole
      have hdrop : (l.forget t.id).release t.digest .credits t.id = l.drop t := by
        rw [Logger.drop, hcallback]
      have hcredit : t.callback = .credit := by
        cases hc : t.callback with
        | credit => rfl
        | held severity args => rw [hc] at hcallback; cases hcallback
      rw [hdrop]
      refine ⟨(h.drop ht).next, ?_, (drop_rest h ht).2, ?_⟩
      · rw [drop_timers h ht]
        exact .spent ht hdigest hcredit
      · intro identity key seen hseen hkey
        rw [(drop_rest h ht).1] at hseen
        exact Or.inl ⟨seen, hseen, hkey⟩
    · have hcredits : (l.under digest).credits = [] := hlist
      rw [hcredits] at hconsole
      dsimp only at hconsole
      rw [hfull, ← stateFor_under, dropEmpty_stateFor h] at hconsole
      obtain ⟨rfl, rfl⟩ := Prod.mk.inj hconsole
      exact ⟨h.next, .emitted, rfl, hrecall⟩
    · have hcredits : (l.under digest).credits = [] := hlist
      rw [hcredits] at hconsole
      dsimp only at hconsole
      rw [hroom] at hconsole
      have hcalls : (l.stateFor digest).1.calls = l.calls := by
        rw [Logger.stateFor]
        cases l.states.get digest <;> rfl
      have hwait : (l.stateFor digest).1.wait digest (l.under digest) .held (.held severity args) =
          l.add digest (.held severity args) := by
        rw [Logger.add, stateFor_under]
        rfl
      simp only [Bool.not_true, Bool.false_eq_true, if_false, hcalls, hwait] at hconsole
      obtain ⟨rfl, rfl⟩ := Prod.mk.inj hconsole
      rw [add_eq] at hadd ⊢
      exact ⟨hadd, .held hdigest, rfl, hrecall⟩

/-- **A step.** -/
theorem step_shown (h : Sound settings l) (hs : LogStep settings l e l') :
    Sound settings l' ∧ Shown settings l e l'.timers ∧ l'.calls = e.input.callsAfter l.calls ∧ Recalls l l' e := by
  cases hs with
  | @report l₁ error request context effects hreport =>
    have hleaves := report_leaves h hreport
    have hnext : { l₁ with calls := l.calls + 1 } = l₁.next := by rw [Logger.next, hleaves.calls]
    rw [hnext]
    exact ⟨hleaves.sound, hleaves.shown, by rw [Logger.next, hleaves.calls]; rfl, hleaves.recalls⟩
  | @console l₁ severity args effects hconsole =>
    have hleaves := console_leaves h hconsole
    have hnext : { l₁ with calls := l.calls + 1 } = l₁.next := by rw [Logger.next, hleaves.calls]
    rw [hnext]
    exact ⟨hleaves.sound, hleaves.shown, by rw [Logger.next, hleaves.calls]; rfl, hleaves.recalls⟩
  | @expire _ t effects ht hexpire =>
    have hdrop : l' = l.drop t ∧ Shown settings l ⟨.expire t.id, effects⟩ (l.timers.filter fun u => u.id ≠ t.id) := by
      unfold expire at hexpire
      cases hcallback : t.callback with
      | credit =>
        rw [hcallback] at hexpire
        obtain ⟨rfl, rfl⟩ := Prod.mk.inj hexpire
        exact ⟨by rw [Logger.drop, hcallback]; rfl, .expired ht hcallback⟩
      | held severity args =>
        rw [hcallback] at hexpire
        obtain ⟨rfl, rfl⟩ := Prod.mk.inj hexpire
        exact ⟨by rw [Logger.drop, hcallback]; rfl, .released ht hcallback⟩
    obtain ⟨rfl, hshown⟩ := hdrop
    obtain ⟨hreported, hcalls⟩ := drop_rest h ht
    refine ⟨h.drop ht, drop_timers h ht ▸ hshown, hcalls, ?_⟩
    intro identity key seen hseen hkey
    exact Or.inl ⟨seen, hreported ▸ hseen, hkey⟩

end

end Albusforge.Web.Errors
