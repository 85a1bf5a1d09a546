import Mathlib
import Albusforge.Web.ErrorPairs

/-!
# What became of each call

A run is told by its events alone. What is logged for a call, when it comes or when its timer goes off
(`loggedFor`), which timers are still to go off (`pendingTimers`) and who has cancelled whom (`cancellations`) are
read off them, and **every failure is logged, was logged, is cancelled or is still to come** (`errors_kept`).
-/

namespace Albusforge.Web.Errors

open Lib

/-! ## Reading a run -/

def Event.call (e : Event) : ℕ :=
  match e.input with
  | .report n .. => n
  | .console n .. => n
  | .expire timer => timer

def Event.made (e : Event) : Option ℕ :=
  match e.input with
  | .report n .. => some n
  | .console n .. => some n
  | .expire _ => none

def Event.logs (e : Event) : List LogEntry :=
  e.effects.filterMap fun effect =>
    match effect with
    | .log entry => some entry
    | _ => none

def Event.sets (e : Event) : List ℕ :=
  e.effects.filterMap fun effect =>
    match effect with
    | .setTimeout timer => some timer
    | _ => none

def Event.clears (e : Event) : List ℕ :=
  e.effects.filterMap fun effect =>
    match effect with
    | .clearTimeout timer => some timer
    | _ => none

def Event.ends (e : Event) : List ℕ :=
  match e.input with
  | .expire timer => timer :: e.clears
  | _ => e.clears

def Event.cancels (e : Event) : List (ℕ × ℕ) :=
  match e.input with
  | .report n .. => e.clears.map fun copy => (n, copy)
  | .console n .. => e.clears.map fun report => (report, n)
  | .expire _ => []

def loggedFor (es : List Event) (n : ℕ) : List LogEntry := (es.filter fun e => e.call = n).flatMap Event.logs

def pendingTimers (es : List Event) : List ℕ :=
  es.foldl (fun ids e => (ids.filter fun id => id ∉ e.ends) ++ e.sets) []

def cancellations (es : List Event) : List (ℕ × ℕ) := es.flatMap Event.cancels

/-! ## What is to be shown -/

def Repeated (es : List Event) (n : ℕ) (error : Value) (request : Request) : Prop :=
  ∃ n' o o' request' context' effects' trace trace', n' < n ∧ error = .object o ∧
    Event.mk (.report n' (.object o') request' context') effects' ∈ es ∧
    Effect.log (requestEntry (.object o') request' context') ∈ effects' ∧ o'.identity = o.identity ∧
    traceFromHeaders request.headers = some trace ∧ traceFromHeaders request'.headers = some trace' ∧
    trace'.traceId = trace.traceId ∧ trace'.spanId = trace.spanId ∧ trace.spanId.isSome

/-- A report and a copy of one digest, one of which came while the timer of the other was to go off. -/
inductive Paired (es : List Event) (report copy : ℕ) : Prop
  | copyFirst {before after : List Event} {error : Value} {request : Request} {context : List (Text × Text)}
      {severity : Severity} {args : List Value} {digest : Text} :
      es = before ++ ⟨.report report error request context,
        [.log (requestEntry error request context), .clearTimeout copy]⟩ :: after →
      ⟨.console copy severity args, [.setTimeout copy]⟩ ∈ before → copy ∈ pendingTimers before →
      errorDigest error = some digest → consoleDigest args = some digest → Paired es report copy
  | reportFirst {before after : List Event} {error : Value} {request : Request} {context : List (Text × Text)}
      {severity : Severity} {args : List Value} {digest : Text} :
      es = before ++ ⟨.console copy severity args, [.clearTimeout report]⟩ :: after →
      ⟨.report report error request context, [.log (requestEntry error request context), .setTimeout report]⟩ ∈ before →
      report ∈ pendingTimers before →
      errorDigest error = some digest → consoleDigest args = some digest → Paired es report copy

inductive ReportOutcome (es : List Event) (n : ℕ) (error : Value) (request : Request) (context : List (Text × Text)) :
    List Effect → Prop
  | repeated : loggedFor es n = [] → Repeated es n error request → ReportOutcome es n error request context []
  | logged {effects : List Effect} : loggedFor es n = [requestEntry error request context] →
      .log (requestEntry error request context) ∈ effects → ReportOutcome es n error request context effects

inductive CopyOutcome (settings : Settings) (es : List Event) (n : ℕ) (severity : Severity) (args : List Value) : Prop
  | logged : loggedFor es n = [consoleEntry settings severity args] → n ∉ (cancellations es).map Prod.snd →
      n ∉ pendingTimers es → CopyOutcome settings es n severity args
  | cancelled : loggedFor es n = [] → n ∈ (cancellations es).map Prod.snd → n ∉ pendingTimers es →
      CopyOutcome settings es n severity args
  | waiting : loggedFor es n = [] → n ∉ (cancellations es).map Prod.snd → n ∈ pendingTimers es →
      CopyOutcome settings es n severity args

/-! ## One event more -/

section

variable {settings : Settings} {es : List Event} {l l' : Logger} {e : Event} {t : Timer} {timers : List Timer} {n : ℕ}

theorem loggedFor_append (es : List Event) (e : Event) (n : ℕ) :
    loggedFor (es ++ [e]) n = loggedFor es n ++ if e.call = n then e.logs else [] := by
  unfold loggedFor
  rw [List.filter_append, List.flatMap_append]
  by_cases h : e.call = n
  · simp [h]
  · simp [h]

theorem pendingTimers_append (es : List Event) (e : Event) :
    pendingTimers (es ++ [e]) = ((pendingTimers es).filter fun id => id ∉ e.ends) ++ e.sets := by
  rw [pendingTimers, List.foldl_append]
  rfl

theorem cancellations_append (es : List Event) (e : Event) :
    cancellations (es ++ [e]) = cancellations es ++ e.cancels := by
  rw [cancellations, List.flatMap_append, List.flatMap_singleton]
  rfl

theorem Paired.append {report copy : ℕ} (h : Paired es report copy) (e : Event) :
    Paired (es ++ [e]) report copy := by
  cases h with
  | @copyFirst before after error request context severity args digest hes hcopy hpending herror hargs =>
    have hnext : es ++ [e] = before ++ ⟨.report report error request context,
        [.log (requestEntry error request context), .clearTimeout copy]⟩ :: (after ++ [e]) := by
      rw [hes, List.append_assoc, List.cons_append]
    exact .copyFirst hnext hcopy hpending herror hargs
  | @reportFirst before after error request context severity args digest hes hreport hpending herror hargs =>
    have hnext : es ++ [e] = before ++ ⟨.console copy severity args, [.clearTimeout report]⟩ :: (after ++ [e]) := by
      rw [hes, List.append_assoc, List.cons_append]
    exact .reportFirst hnext hreport hpending herror hargs

theorem Repeated.append {error : Value} {request : Request} (h : Repeated es n error request) (e : Event) :
    Repeated (es ++ [e]) n error request := by
  obtain ⟨n', o, o', request', context', effects', trace, trace', hlt, herror, hmem, hrest⟩ := h
  exact ⟨n', o, o', request', context', effects', trace, trace', hlt, herror, List.mem_append_left _ hmem, hrest⟩

/-! ## The invariant -/

def Owned (es : List Event) (t : Timer) : Prop :=
  match t.callback with
  | .credit => ∃ error request context, errorDigest error = some t.digest ∧
      Event.mk (.report t.id error request context) [.log (requestEntry error request context), .setTimeout t.id] ∈ es
  | .held severity args => consoleDigest args = some t.digest ∧
      Event.mk (.console t.id severity args) [.setTimeout t.id] ∈ es

def Recorded (es : List Event) (l : Logger) : Prop :=
  ∀ identity key seen, l.reported identity = some seen → key ∈ seen →
    ∃ n o request context effects, Event.mk (.report n (.object o) request context) effects ∈ es ∧
      o.identity = identity ∧ requestKey (traceFromHeaders request.headers) = some key ∧ effects ≠ []

structure History (settings : Settings) (es : List Event) (l : Logger) : Prop where
  sound : Sound settings l
  calls : es.filterMap Event.made = List.range l.calls
  numbers : ∀ e ∈ es, e.call < l.calls
  pending : pendingTimers es = l.timers.map Timer.id
  owned : ∀ t ∈ l.timers, Owned es t
  recorded : Recorded es l
  reports : ∀ n error request context effects, ⟨.report n error request context, effects⟩ ∈ es →
    ReportOutcome es n error request context effects
  copies : ∀ n severity args effects, ⟨.console n severity args, effects⟩ ∈ es → CopyOutcome settings es n severity args
  plain : ∀ n severity args effects, ⟨.console n severity args, effects⟩ ∈ es → consoleDigest args = none →
    effects = [.log (consoleEntry settings severity args)]
  paired : ∀ p ∈ cancellations es, Paired es p.1 p.2
  once : ((cancellations es).map Prod.fst).Nodup ∧ ((cancellations es).map Prod.snd).Nodup
  past : ∀ p ∈ cancellations es, (p.1 < l.calls ∧ p.1 ∉ pendingTimers es) ∧ p.2 < l.calls ∧ p.2 ∉ pendingTimers es

theorem History.unique (h : History settings es l) {e e' : Event} (he : e ∈ es) (he' : e' ∈ es)
    (hn : e.made = some n) (hn' : e'.made = some n) : e = e' := by
  have hnodup : (es.filterMap Event.made).Nodup := h.calls ▸ List.nodup_range
  have hpairwise := List.pairwise_filterMap.mp hnodup
  have hsymm : Std.Symm fun e e' : Event => ∀ n, e.made = some n → ∀ n', e'.made = some n' → n ≠ n' :=
    ⟨fun _ _ h n hn n' hn' => (h n' hn' n hn).symm⟩
  by_contra hne
  exact hpairwise.forall he he' hne n hn n hn' rfl

theorem Shown.pending (hs : Shown settings l e timers) (h : pendingTimers es = l.timers.map Timer.id) :
    pendingTimers (es ++ [e]) = timers.map Timer.id := by
  have hdrop : ∀ id,
      ((l.timers.map Timer.id).filter fun x => x ∉ [id]) = (l.timers.filter fun u => u.id ≠ id).map Timer.id := by
    intro id
    rw [List.filter_map]
    congr 1
    refine List.filter_congr ?_
    intro u _
    simp
  rw [pendingTimers_append, h]
  cases hs with
  | repeated => simp [Event.ends, Event.clears, Event.sets]
  | logged => simp [Event.ends, Event.clears, Event.sets]
  | @cancelled _ _ _ t => simpa [Event.ends, Event.clears, Event.sets] using hdrop t.id
  | credited => simp [Event.ends, Event.clears, Event.sets]
  | emitted => simp [Event.ends, Event.clears, Event.sets]
  | @spent _ _ t => simpa [Event.ends, Event.clears, Event.sets] using hdrop t.id
  | held => simp [Event.ends, Event.clears, Event.sets]
  | @expired t => simpa [Event.ends, Event.clears, Event.sets] using hdrop t.id
  | @released t => simpa [Event.ends, Event.clears, Event.sets] using hdrop t.id

theorem Shown.call_lt (hs : Shown settings l e timers) (h : Sound settings l) :
    e.call < e.input.callsAfter l.calls := by
  cases hs with
  | expired ht _ => exact h.fresh _ ht
  | released ht _ => exact h.fresh _ ht
  | _ => exact Nat.lt_succ_self l.calls

theorem Shown.made (hs : Shown settings l e timers) :
    List.range (e.input.callsAfter l.calls) = List.range l.calls ++ e.made.toList := by
  cases hs with
  | expired => exact (List.append_nil _).symm
  | released => exact (List.append_nil _).symm
  | _ => exact List.range_succ

theorem le_callsAfter (input : Input) (calls : ℕ) : calls ≤ input.callsAfter calls := by
  cases input <;> simp [Input.callsAfter]

theorem Shown.owned (hs : Shown settings l e timers) (h : ∀ t ∈ l.timers, Owned es t) :
    ∀ t ∈ timers, Owned (es ++ [e]) t := by
  have hold : ∀ t ∈ l.timers, Owned (es ++ [e]) t := by
    intro t ht
    have howned := h t ht
    unfold Owned at howned ⊢
    cases hcallback : t.callback with
    | credit =>
      rw [hcallback] at howned
      obtain ⟨error, request, context, hdigest, hmem⟩ := howned
      exact ⟨error, request, context, hdigest, List.mem_append_left _ hmem⟩
    | held severity args =>
      rw [hcallback] at howned
      exact ⟨howned.1, List.mem_append_left _ howned.2⟩
  intro t ht
  cases hs with
  | @credited error request context digest hdigest =>
    rcases List.mem_append.mp ht with ht | ht
    · exact hold t ht
    · obtain rfl := List.mem_singleton.mp ht
      exact ⟨error, request, context, hdigest, List.mem_append_right _ List.mem_cons_self⟩
  | @held severity args digest hdigest =>
    rcases List.mem_append.mp ht with ht | ht
    · exact hold t ht
    · obtain rfl := List.mem_singleton.mp ht
      exact ⟨hdigest, List.mem_append_right _ List.mem_cons_self⟩
  | repeated | logged | emitted => exact hold t ht
  | cancelled | spent | expired | released => exact hold t (List.mem_filter.mp ht).1

theorem Shown.recorded (hrecalls : Recalls l l' e) (h : Recorded es l) : Recorded (es ++ [e]) l' := by
  intro identity key seen hseen hkey
  rcases hrecalls identity key seen hseen hkey with
    ⟨seen', hseen', hkey'⟩ | ⟨o, request, context, hinput, hidentity, hnew, hne⟩
  · obtain ⟨n, o, request, context, effects, hmem, hrest⟩ := h identity key seen' hseen' hkey'
    exact ⟨n, o, request, context, effects, List.mem_append_left _ hmem, hrest⟩
  · refine ⟨l.calls, o, request, context, e.effects, ?_, hidentity, hnew, hne⟩
    obtain ⟨input, effects⟩ := e
    obtain rfl : input = .report l.calls (.object o) request context := hinput
    exact List.mem_append_right _ List.mem_cons_self

/-! ## Reports -/

theorem History.credit_of_report (h : History settings es l) (ht : t ∈ l.timers) {error : Value} {request : Request}
    {context : List (Text × Text)} {effects : List Effect}
    (he : ⟨.report t.id error request context, effects⟩ ∈ es) : t.callback = .credit := by
  have howned := h.owned t ht
  unfold Owned at howned
  cases hcallback : t.callback with
  | credit => rfl
  | held severity args =>
    rw [hcallback] at howned
    have heq := h.unique he howned.2 rfl rfl
    cases (Event.mk.inj heq).1

theorem History.held_of_console (h : History settings es l) (ht : t ∈ l.timers) {severity : Severity}
    {args : List Value} {effects : List Effect} (he : ⟨.console t.id severity args, effects⟩ ∈ es) :
    t.callback = .held severity args ∧ effects = [.setTimeout t.id] := by
  have howned := h.owned t ht
  unfold Owned at howned
  cases hcallback : t.callback with
  | credit =>
    rw [hcallback] at howned
    obtain ⟨error, request, context, -, hmem⟩ := howned
    have heq := h.unique he hmem rfl rfl
    cases (Event.mk.inj heq).1
  | held severity' args' =>
    rw [hcallback] at howned
    have heq := h.unique he howned.2 rfl rfl
    obtain ⟨hinput, rfl⟩ := Event.mk.inj heq
    obtain ⟨-, rfl, rfl⟩ := Input.console.inj hinput
    exact ⟨rfl, rfl⟩

theorem History.fresh (h : History settings es l) : loggedFor es l.calls = [] ∧ l.calls ∉ pendingTimers es ∧
    l.calls ∉ (cancellations es).map Prod.snd ∧ l.calls ∉ (cancellations es).map Prod.fst := by
  refine ⟨?_, ?_, ?_, ?_⟩
  · rw [loggedFor, List.filter_eq_nil_iff.mpr, List.flatMap_nil]
    intro e he heq
    have hlt := h.numbers e he
    have hcall : e.call = l.calls := of_decide_eq_true heq
    omega
  · intro hmem
    rw [h.pending] at hmem
    obtain ⟨t, ht, hid⟩ := List.mem_map.mp hmem
    have hlt := h.sound.fresh t ht
    omega
  · intro hmem
    obtain ⟨p, hp, heq⟩ := List.mem_map.mp hmem
    have hlt := (h.past p hp).2.1
    omega
  · intro hmem
    obtain ⟨p, hp, heq⟩ := List.mem_map.mp hmem
    have hlt := (h.past p hp).1.1
    omega

theorem Shown.logged_old (hs : Shown settings l e timers) (hn : n < l.calls) :
    loggedFor (es ++ [e]) n = loggedFor es n ∨
      ∃ t ∈ l.timers, ∃ severity args, t.id = n ∧ t.callback = .held severity args ∧
        loggedFor (es ++ [e]) n = loggedFor es n ++ [consoleEntry settings severity args] := by
  rw [loggedFor_append]
  have hother : ∀ {e : Event}, e.call = l.calls → (if e.call = n then e.logs else []) = [] :=
    fun hcall => if_neg (by omega)
  cases hs with
  | @released t severity args ht hcallback =>
    by_cases hid : t.id = n
    · exact Or.inr ⟨t, ht, severity, args, hid, hcallback, by simp [Event.call, Event.logs, hid]⟩
    · exact Or.inl (by simp [Event.call, hid])
  | expired => exact Or.inl (by simp [Event.logs])
  | _ => exact Or.inl (by rw [hother rfl, List.append_nil])

theorem Remembered.repeated (h : History settings es l) {error : Value} {request : Request}
    (hr : Remembered l error request) : Repeated es l.calls error request := by
  obtain ⟨o, key, seen, rfl, hkey, hseen, hmem⟩ := hr
  obtain ⟨n, o', request', context', effects, he, hidentity, hkey', hne⟩ := h.recorded _ _ _ hseen hmem
  obtain ⟨trace, trace', span, htrace, htrace', hid, hspan, hspan'⟩ := requestKey_inj hkey hkey'
  have hlogged : .log (requestEntry (.object o') request' context') ∈ effects := by
    cases h.reports n _ _ _ _ he with
    | repeated => exact absurd rfl hne
    | logged _ hlog => exact hlog
  exact ⟨n, o, o', request', context', effects, trace, trace', h.numbers _ he, rfl, he, hlogged, hidentity, htrace,
    htrace', hid.symm, hspan'.trans hspan.symm, by rw [hspan]; rfl⟩

theorem History.reports_step (h : History settings es l) (hs : Shown settings l e timers) :
    ∀ n error request context effects, ⟨.report n error request context, effects⟩ ∈ es ++ [e] →
      ReportOutcome (es ++ [e]) n error request context effects := by
  intro n error request context effects hmem
  rcases List.mem_append.mp hmem with hold | hnew
  · -- what comes later is not logged for this report
    have hsame : loggedFor (es ++ [e]) n = loggedFor es n := by
      rcases hs.logged_old (h.numbers _ hold) with hsame | ⟨t, ht, severity, args, rfl, hcallback, -⟩
      · exact hsame
      · rw [h.credit_of_report ht hold] at hcallback
        cases hcallback
    cases h.reports n error request context effects hold with
    | repeated hnone hrepeated => exact .repeated (hsame.trans hnone) (hrepeated.append e)
    | logged hlogged hlog => exact .logged (hsame.trans hlogged) hlog
  · obtain rfl := List.mem_singleton.mp hnew
    have hlogged : loggedFor (es ++ [⟨.report l.calls error request context, effects⟩]) l.calls =
        Event.logs ⟨.report l.calls error request context, effects⟩ := by
      rw [loggedFor_append, h.fresh.1, List.nil_append]
      exact if_pos rfl
    cases hs with
    | repeated hremembered => exact .repeated hlogged ((hremembered.repeated h).append _)
    | logged => exact .logged hlogged List.mem_cons_self
    | cancelled => exact .logged hlogged List.mem_cons_self
    | credited => exact .logged hlogged List.mem_cons_self

/-! ## Copies -/

theorem CopyOutcome.other {severity : Severity} {args : List Value} (h : CopyOutcome settings es n severity args)
    (hlogs : loggedFor (es ++ [e]) n = loggedFor es n) (hends : n ∉ e.ends) (hsets : n ∉ e.sets)
    (hcancels : n ∉ e.cancels.map Prod.snd) : CopyOutcome settings (es ++ [e]) n severity args := by
  have hpending : n ∈ pendingTimers (es ++ [e]) ↔ n ∈ pendingTimers es := by
    simp [pendingTimers_append, hends, hsets]
  have hsnd : n ∈ (cancellations (es ++ [e])).map Prod.snd ↔ n ∈ (cancellations es).map Prod.snd := by
    rw [cancellations_append, List.map_append, List.mem_append]
    exact or_iff_left hcancels
  cases h with
  | logged hlogged hnot hgone => exact .logged (hlogs.trans hlogged) (hsnd.not.mpr hnot) (hpending.not.mpr hgone)
  | cancelled hnone hin hgone => exact .cancelled (hlogs.trans hnone) (hsnd.mpr hin) (hpending.not.mpr hgone)
  | waiting hnone hnot hin => exact .waiting (hlogs.trans hnone) (hsnd.not.mpr hnot) (hpending.mpr hin)

theorem CopyOutcome.of_pending {severity : Severity} {args : List Value} (h : CopyOutcome settings es n severity args)
    (hin : n ∈ pendingTimers es) : loggedFor es n = [] ∧ n ∉ (cancellations es).map Prod.snd := by
  cases h with
  | logged _ _ hgone => exact absurd hin hgone
  | cancelled _ _ hgone => exact absurd hin hgone
  | waiting hnone hnot _ => exact ⟨hnone, hnot⟩

theorem History.mem_pending (h : History settings es l) (ht : t ∈ l.timers) : t.id ∈ pendingTimers es := by
  rw [h.pending]
  exact List.mem_map_of_mem ht

theorem History.old_copies_step (h : History settings es l) (hs : Shown settings l e timers) {severity : Severity}
    {args : List Value} {effects : List Effect} (hold : ⟨.console n severity args, effects⟩ ∈ es) :
    CopyOutcome settings (es ++ [e]) n severity args := by
  have houtcome := h.copies n severity args effects hold
  have hlt : n < l.calls := h.numbers _ hold
  have hcopy : ∀ {t : Timer}, t ∈ l.timers → t.id = n → t.callback = .held severity args := by
    rintro t ht rfl
    exact (h.held_of_console ht hold).1
  have hcredit : ∀ {t : Timer}, t ∈ l.timers → t.callback = .credit → n ≠ t.id := by
    intro t ht hcallback heq
    rw [hcopy ht heq.symm] at hcallback
    cases hcallback
  have hsame : (∀ t ∈ l.timers, t.id = n → e.call ≠ n) → loggedFor (es ++ [e]) n = loggedFor es n := by
    intro hnot
    rcases hs.logged_old hlt with hsame | ⟨t, ht, severity, args, hid, hcallback, hlogged⟩
    · exact hsame
    · rw [loggedFor_append, if_neg (hnot t ht hid), List.append_nil]
  have hne : n ≠ l.calls := by omega
  cases hs with
  | repeated | logged | emitted =>
    exact houtcome.other (hsame fun _ _ _ => hne.symm) List.not_mem_nil List.not_mem_nil List.not_mem_nil
  | credited | held =>
    exact houtcome.other (hsame fun _ _ _ => hne.symm) List.not_mem_nil (by simpa [Event.sets] using hne) List.not_mem_nil
  | @spent _ _ t ht _ hcallback =>
    exact houtcome.other (hsame fun _ _ _ => hne.symm) (by simpa [Event.ends, Event.clears] using hcredit ht hcallback)
      List.not_mem_nil (by simpa [Event.cancels, Event.clears] using hne)
  | @expired t ht hcallback =>
    have hother := hcredit ht hcallback
    exact houtcome.other (hsame fun _ _ _ => hother.symm) (by simpa [Event.ends, Event.clears] using hother)
      List.not_mem_nil List.not_mem_nil
  | @cancelled error request context t ht _ _ =>
    by_cases hid : n = t.id
    · -- this copy is the one that the report cancels
      subst hid
      obtain ⟨hnone, -⟩ := houtcome.of_pending (h.mem_pending ht)
      refine .cancelled ((hsame fun _ _ _ => hne.symm).trans hnone) ?_ ?_
      · simp [cancellations_append, Event.cancels, Event.clears]
      · simp [pendingTimers_append, Event.ends, Event.clears, Event.sets]
    · exact houtcome.other (hsame fun _ _ _ => hne.symm) (by simpa [Event.ends, Event.clears] using hid)
        List.not_mem_nil (by simpa [Event.cancels, Event.clears] using hid)
  | @released t severity' args' ht hcallback =>
    by_cases hid : n = t.id
    · -- this copy is the one that has waited for long enough
      obtain ⟨rfl, rfl⟩ := Callback.held.inj ((hcopy ht hid.symm).symm.trans hcallback)
      subst hid
      obtain ⟨hnone, hnot⟩ := houtcome.of_pending (h.mem_pending ht)
      refine .logged ?_ ?_ ?_
      · rw [loggedFor_append, hnone]
        exact if_pos rfl
      · simpa [cancellations_append, Event.cancels, Event.clears] using hnot
      · simp [pendingTimers_append, Event.ends, Event.clears, Event.sets]
    · exact houtcome.other (hsame fun _ _ _ => Ne.symm hid) (by simpa [Event.ends, Event.clears] using hid)
        List.not_mem_nil List.not_mem_nil

theorem History.copies_step (h : History settings es l) (hs : Shown settings l e timers) :
    ∀ n severity args effects, ⟨.console n severity args, effects⟩ ∈ es ++ [e] →
      CopyOutcome settings (es ++ [e]) n severity args := by
  intro n severity args effects hmem
  rcases List.mem_append.mp hmem with hold | hnew
  · exact h.old_copies_step hs hold
  · obtain rfl := List.mem_singleton.mp hnew
    obtain ⟨hnone, hgone, hnot, -⟩ := h.fresh
    have hlogged : loggedFor (es ++ [⟨.console n severity args, effects⟩]) n =
        loggedFor es n ++ Event.logs ⟨.console n severity args, effects⟩ := by
      rw [loggedFor_append]
      exact congrArg _ (if_pos rfl)
    cases hs with
    | emitted =>
      rw [hnone] at hlogged
      refine .logged hlogged ?_ ?_
      · simpa [cancellations_append, Event.cancels, Event.clears] using hnot
      · simpa [pendingTimers_append, Event.ends, Event.clears, Event.sets] using hgone
    | @spent _ _ t ht _ _ =>
      rw [hnone] at hlogged
      refine .cancelled hlogged ?_ ?_
      · simp [cancellations_append, Event.cancels, Event.clears]
      · have hend : l.calls ∉ (pendingTimers es).filter fun id => id ∉ [t.id] :=
          fun hmem => hgone (List.mem_filter.mp hmem).1
        simpa [pendingTimers_append, Event.ends, Event.clears, Event.sets] using hend
    | held =>
      rw [hnone] at hlogged
      refine .waiting hlogged ?_ ?_
      · simpa [cancellations_append, Event.cancels, Event.clears] using hnot
      · simp [pendingTimers_append, Event.sets]

theorem Shown.plain {severity : Severity} {args : List Value} {effects : List Effect}
    (hs : Shown settings l ⟨.console n severity args, effects⟩ timers) (hnone : consoleDigest args = none) :
    effects = [.log (consoleEntry settings severity args)] := by
  cases hs with
  | emitted => rfl
  | spent _ hdigest _ =>
    rw [hnone] at hdigest
    cases hdigest
  | held hdigest =>
    rw [hnone] at hdigest
    cases hdigest

/-! ## Cancellations -/

inductive Cancels (l : Logger) : Event → ℕ × ℕ → Prop
  | report {error : Value} {request : Request} {context : List (Text × Text)} {t : Timer} : t ∈ l.timers →
      errorDigest error = some t.digest → t.callback.list = .held →
      Cancels l ⟨.report l.calls error request context, [.log (requestEntry error request context), .clearTimeout t.id]⟩
        (l.calls, t.id)
  | console {severity : Severity} {args : List Value} {t : Timer} : t ∈ l.timers →
      consoleDigest args = some t.digest → t.callback = .credit →
      Cancels l ⟨.console l.calls severity args, [.clearTimeout t.id]⟩ (t.id, l.calls)

theorem Shown.cancels (hs : Shown settings l e timers) : e.cancels = [] ∨ ∃ p, e.cancels = [p] ∧ Cancels l e p := by
  cases hs with
  | cancelled ht hdigest hlist => exact Or.inr ⟨_, rfl, .report ht hdigest hlist⟩
  | spent ht hdigest hcredit => exact Or.inr ⟨_, rfl, .console ht hdigest hcredit⟩
  | _ => exact Or.inl rfl

theorem Shown.sets (hs : Shown settings l e timers) : ∀ id ∈ e.sets, id = l.calls := by
  cases hs <;> simp [Event.sets]

theorem Cancels.paired {p : ℕ × ℕ} (h : History settings es l) (hc : Cancels l e p) : Paired (es ++ [e]) p.1 p.2 := by
  cases hc with
  | @report error request context t ht hdigest hlist =>
    have howned := h.owned t ht
    unfold Owned at howned
    cases hcallback : t.callback with
    | credit =>
      rw [hcallback] at hlist
      cases hlist
    | held severity args =>
      rw [hcallback] at howned
      exact .copyFirst rfl howned.2 (h.mem_pending ht) hdigest howned.1
  | @console severity args t ht hdigest hcredit =>
    have howned := h.owned t ht
    unfold Owned at howned
    rw [hcredit] at howned
    obtain ⟨error, request, context, herror, hmem⟩ := howned
    exact .reportFirst rfl hmem (h.mem_pending ht) herror hdigest

theorem History.paired_step (h : History settings es l) (hs : Shown settings l e timers) :
    ∀ p ∈ cancellations (es ++ [e]), Paired (es ++ [e]) p.1 p.2 := by
  intro p hp
  rw [cancellations_append] at hp
  rcases List.mem_append.mp hp with hold | hnew
  · exact (h.paired p hold).append e
  · rcases hs.cancels with hnone | ⟨p', hone, hc⟩
    · rw [hnone] at hnew
      cases hnew
    · rw [hone] at hnew
      obtain rfl := List.mem_singleton.mp hnew
      exact hc.paired h

theorem nodup_concat {ids : List ℕ} (h : ids.Nodup) (hn : n ∉ ids) : (ids ++ [n]).Nodup := by
  refine List.nodup_append.mpr ⟨h, List.nodup_singleton n, ?_⟩
  rintro id hid id' hid' rfl
  exact hn (List.mem_singleton.mp hid' ▸ hid)

theorem History.not_cancelled (h : History settings es l) (ht : t ∈ l.timers) :
    t.id ∉ (cancellations es).map Prod.fst ∧ t.id ∉ (cancellations es).map Prod.snd := by
  have hpending := h.mem_pending ht
  constructor
  · intro hmem
    obtain ⟨p, hp, heq⟩ := List.mem_map.mp hmem
    exact (h.past p hp).1.2 (heq ▸ hpending)
  · intro hmem
    obtain ⟨p, hp, heq⟩ := List.mem_map.mp hmem
    exact (h.past p hp).2.2 (heq ▸ hpending)

theorem History.once_step (h : History settings es l) (hs : Shown settings l e timers) :
    ((cancellations (es ++ [e])).map Prod.fst).Nodup ∧ ((cancellations (es ++ [e])).map Prod.snd).Nodup := by
  obtain ⟨-, -, hsnd, hfst⟩ := h.fresh
  rw [cancellations_append, List.map_append, List.map_append]
  rcases hs.cancels with hnone | ⟨p, hone, hc⟩
  · rw [hnone]
    simpa using h.once
  · rw [hone]
    cases hc with
    | report ht => exact ⟨nodup_concat h.once.1 hfst, nodup_concat h.once.2 (h.not_cancelled ht).2⟩
    | console ht => exact ⟨nodup_concat h.once.1 (h.not_cancelled ht).1, nodup_concat h.once.2 hsnd⟩

theorem History.past_step (h : History settings es l) (hs : Shown settings l e timers) :
    ∀ p ∈ cancellations (es ++ [e]), (p.1 < e.input.callsAfter l.calls ∧ p.1 ∉ pendingTimers (es ++ [e])) ∧
      p.2 < e.input.callsAfter l.calls ∧ p.2 ∉ pendingTimers (es ++ [e]) := by
  have hle := le_callsAfter e.input l.calls
  -- what was not to go off is not to go off now, unless it is set
  have hstill : ∀ {id}, id < l.calls → id ∉ pendingTimers es → id ∉ pendingTimers (es ++ [e]) := by
    intro id hlt hnot hmem
    rw [pendingTimers_append] at hmem
    rcases List.mem_append.mp hmem with hold | hnew
    · exact hnot (List.mem_filter.mp hold).1
    · have hcall := hs.sets id hnew
      omega
  intro p hp
  rw [cancellations_append] at hp
  rcases List.mem_append.mp hp with hold | hnew
  · obtain ⟨⟨hfst, hfstPending⟩, hsnd, hsndPending⟩ := h.past p hold
    exact ⟨⟨by omega, hstill hfst hfstPending⟩, by omega, hstill hsnd hsndPending⟩
  · rcases hs.cancels with hnone | ⟨p', hone, hc⟩
    · rw [hnone] at hnew
      cases hnew
    · rw [hone] at hnew
      obtain rfl := List.mem_singleton.mp hnew
      have hfresh := h.fresh.2.1
      cases hc with
      | @report _ _ _ t ht =>
        have hlt := h.sound.fresh t ht
        refine ⟨⟨Nat.lt_succ_self _, ?_⟩, Nat.lt_succ_of_lt hlt, ?_⟩
        · simpa [pendingTimers_append, Event.sets] using fun hmem => absurd hmem hfresh
        · simp [pendingTimers_append, Event.ends, Event.clears, Event.sets]
      | @console _ _ t ht =>
        have hlt := h.sound.fresh t ht
        refine ⟨⟨Nat.lt_succ_of_lt hlt, ?_⟩, Nat.lt_succ_self _, ?_⟩
        · simp [pendingTimers_append, Event.ends, Event.clears, Event.sets]
        · simpa [pendingTimers_append, Event.sets] using fun hmem => absurd hmem hfresh

/-! ## Runs -/

theorem sound_initial (settings : Settings) : Sound settings .initial where
  keys := List.nodup_nil
  listed := by
    intro digest list
    cases list <;> rfl
  occupied := by
    intro digest s hs
    cases hs
  apart := fun _ => Or.inl rfl
  perDigest := fun _ => Nat.zero_le _
  total := rfl
  timers := rfl
  maxTotal := Int.natCast_nonneg _
  ids := List.nodup_nil
  fresh := by
    intro t ht
    cases ht

theorem History.initial (settings : Settings) : History settings [] .initial where
  sound := sound_initial settings
  calls := rfl
  numbers := fun _ he => absurd he List.not_mem_nil
  pending := rfl
  owned := fun _ ht => absurd ht List.not_mem_nil
  recorded := by
    intro identity key seen hseen
    cases hseen
  reports := fun _ _ _ _ _ he => absurd he List.not_mem_nil
  copies := fun _ _ _ _ he => absurd he List.not_mem_nil
  plain := fun _ _ _ _ he => absurd he List.not_mem_nil
  paired := fun _ hp => absurd hp List.not_mem_nil
  once := ⟨List.nodup_nil, List.nodup_nil⟩
  past := fun _ hp => absurd hp List.not_mem_nil

/-- **A step keeps the invariant.** -/
theorem History.step (h : History settings es l) (hs : LogStep settings l e l') : History settings (es ++ [e]) l' := by
  obtain ⟨hsound, hshown, hcalls, hrecalls⟩ := step_shown h.sound hs
  have hle := le_callsAfter e.input l.calls
  refine ⟨hsound, ?_, ?_, hshown.pending h.pending, hshown.owned h.owned, Shown.recorded hrecalls h.recorded,
    h.reports_step hshown, h.copies_step hshown, ?_, h.paired_step hshown, h.once_step hshown, ?_⟩
  · rw [List.filterMap_append, h.calls, hcalls, hshown.made]
    congr 1
  · intro e' he'
    rw [hcalls]
    rcases List.mem_append.mp he' with hold | hnew
    · exact (h.numbers e' hold).trans_le hle
    · rw [List.mem_singleton.mp hnew]
      exact hshown.call_lt h.sound
  · intro n severity args effects hmem hnone
    rcases List.mem_append.mp hmem with hold | hnew
    · exact h.plain n severity args effects hold hnone
    · rw [← List.mem_singleton.mp hnew] at hshown
      exact hshown.plain hnone
  · rw [hcalls]
    exact h.past_step hshown

theorem history_run (h : (errorLogger settings).Run es l) : History settings es l := by
  refine Machine.RunWhere.invariant ?_ ?_ h
  · rintro s rfl
    exact .initial settings
  · intro es l e l' hhistory hs _
    exact hhistory.step hs

theorem Sound.drained (h : Sound settings l) (hnone : l.timers = []) : l.states = [] := by
  rw [List.eq_nil_iff_forall_not_mem]
  rintro ⟨digest, s⟩ hmem
  have hget := (Entries.mem_iff_get h.keys).mp hmem
  have hs : l.under digest = s := by
    rw [Logger.under, hget]
    rfl
  have hempty : ∀ list, s.list list = [] := by
    intro list
    rw [← hs, h.listed, Logger.waiting, hnone]
    rfl
  have hfull := h.occupied digest s hget
  rw [isEmpty_iff.mpr (show s = .none from congrArg₂ DigestState.mk (hempty .held) (hempty .credits))] at hfull
  cases hfull

end

structure NoFailureLost (settings : Settings) (es : List Event) (l : Logger) : Prop where
  numbered : es.filterMap Event.made = List.range l.calls
  reports : ∀ n error request context effects, ⟨.report n error request context, effects⟩ ∈ es →
    ReportOutcome es n error request context effects
  copies : ∀ n severity args effects, ⟨.console n severity args, effects⟩ ∈ es → CopyOutcome settings es n severity args
  plain : ∀ n severity args effects, ⟨.console n severity args, effects⟩ ∈ es → consoleDigest args = none →
    effects = [.log (consoleEntry settings severity args)]
  paired : ∀ p ∈ cancellations es, Paired es p.1 p.2
  once : ((cancellations es).map Prod.fst).Nodup ∧ ((cancellations es).map Prod.snd).Nodup
  apart : ∀ digest s, l.states.get digest = some s → s.held = [] ∨ s.credits = []
  pendingCount : l.pendingCount = (l.states.values.map DigestState.size).sum
  maxTotal : l.pendingCount ≤ settings.maxTotal
  perDigest : ∀ digest s, l.states.get digest = some s → s.size ≤ settings.maxPerDigest
  fires : ∀ timer ∈ pendingTimers es, ∃ effects l', LogStep settings l ⟨.expire timer, effects⟩ l'
  drained : pendingTimers es = [] → l.states = []

/-- **No failure is lost**, whatever comes in whatever order. -/
theorem errors_kept (settings : Settings) {es : List Event} {l : Logger} (h : (errorLogger settings).Run es l) :
    NoFailureLost settings es l := by
  have hhistory := history_run h
  have hsound := hhistory.sound
  have hunder : ∀ {digest s}, l.states.get digest = some s → l.under digest = s := by
    intro digest s hget
    rw [Logger.under, hget]
    rfl
  refine ⟨hhistory.calls, hhistory.reports, hhistory.copies, hhistory.plain, hhistory.paired, hhistory.once, ?_,
    hsound.total, hsound.maxTotal, ?_, ?_, ?_⟩
  · intro digest s hget
    exact hunder hget ▸ hsound.apart digest
  · intro digest s hget
    exact hunder hget ▸ hsound.perDigest digest
  · intro timer htimer
    rw [hhistory.pending] at htimer
    obtain ⟨t, ht, rfl⟩ := List.mem_map.mp htimer
    exact ⟨_, _, .expire ht rfl⟩
  · intro hnone
    rw [hhistory.pending] at hnone
    exact hsound.drained (List.map_eq_nil_iff.mp hnone)

def pageError : ErrorObject :=
  { identity := 0, digest := some (.string (js "42")), error := some (js "Error", js "boom"), text := js "Error: boom" }

def pageRequest : Request := ⟨js "/dashboard?tab=1", js "GET", .record fun _ => none⟩

def defaultSettings : Settings := ⟨50, 1000, fun _ => []⟩

def pageRun : List Event :=
  [⟨.report 0 (.object pageError) pageRequest [], [.log (requestEntry (.object pageError) pageRequest []), .setTimeout 0]⟩,
    ⟨.console 1 .error [.object pageError], [.clearTimeout 0]⟩]

def pageLogger : Logger :=
  { Logger.initial with states := [(js "42", ⟨[], [0]⟩)], total := 1, timers := [⟨0, js "42", .credit⟩] }

theorem pageRun_run : (errorLogger defaultSettings).Run pageRun { Logger.initial with calls := 2 } := by
  have hinit : (errorLogger defaultSettings).Run [] .initial := .init rfl
  have hreport : reportRequestError defaultSettings .initial (.object pageError) pageRequest [] =
      (pageLogger, [.log (requestEntry (.object pageError) pageRequest []), .setTimeout 0]) := rfl
  have hconsole : routeConsoleCall defaultSettings { pageLogger with calls := 1 } .error [.object pageError] =
      ({ Logger.initial with calls := 1 }, [.clearTimeout 0]) := rfl
  have hlast := LogStep.console hconsole
  exact .step (.step hinit (.report hreport) trivial) hlast trivial

theorem errors_kept_page : NoFailureLost defaultSettings pageRun { Logger.initial with calls := 2 } :=
  errors_kept defaultSettings pageRun_run

/-- The copy of the page's failure is cancelled by its report. -/
example : cancellations pageRun = [(0, 1)] := rfl

end Albusforge.Web.Errors
