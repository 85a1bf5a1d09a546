import Albusforge.Llm.Call

/-!
# A structured call is bounded and metered

The provider, the meter, the signal and the ceiling may answer anything, so the record of a call is
all that constrains it (`recorded`). **What a call is known by at the head of its loop** is
`Inv`: what it counts is what it has received, and each received response has been metered and has
spent the truncation retry or the repair. So a third response always ends it, and the code after the
loop is dead.
-/

namespace Albusforge.Llm

open Lib

/-! ## The record of a call -/

inductive Event
  | signal (aborted : Bool)
  | ceiling (used : Except Thrown ℕ)
  | attempt (request : LlmRequest) (answer : Except Thrown LlmResponse)
  | metered (context : CallContext) (response : LlmResponse) (attribution : CallAttribution) (stored : Except Thrown Unit)
  | meterError (error : Thrown) (handled : Except Thrown Unit)
  | paused (ms : ℕ)

abbrev Record : Type := List Event

def eventOf : (op : LlmOp) → op.Ret → Event
  | .aborted, r => .signal r
  | .used, r => .ceiling r
  | .create request, r => .attempt request r
  | .record context response attribution, r => .metered context response attribution r
  | .onMeterError error, r => .meterError error r
  | .pause ms, _ => .paused ms

def recorded : Proc.Surroundings LlmOp.Ret Record := fun log op r log' => log' = eventOf op r :: log

def Event.attempt? : Event → Bool
  | attempt .. => true
  | _ => false

def Event.response? : Event → Option LlmResponse
  | attempt _ (.ok response) => some response
  | _ => none

def Event.metered? : Event → Option LlmResponse
  | metered _ response .. => some response
  | _ => none

def attemptCount (log : Record) : ℕ := log.countP Event.attempt?

def responses (log : Record) : List LlmResponse := log.filterMap Event.response?

def meteredResponses (log : Record) : List LlmResponse := log.filterMap Event.metered?

def SignalClear (options : CallOptions) (log : Record) : Prop :=
  options.signal = true → ∃ older, log = .signal false :: older

def Cleared (options : CallOptions) (log : Record) : Prop :=
  match options.tokenCeiling with
  | none => SignalClear options log
  | some limit => ∃ used older, log = .ceiling (.ok used) :: older ∧ used < limit ∧ SignalClear options older

variable {α : Type}

def IsTruncated (response : LlmResponse) : Bool :=
  match response.stopReason with
  | .maxTokens => true
  | _ => false

def IsRejected (platform : Platform) (schema : Schema α) (response : LlmResponse) : Bool :=
  match response.stopReason, validate platform schema (responseText response) with
  | .other, .rejected .. => true
  | _, _ => false

def IsAccepted (schema : Schema α) (value : α) (response : LlmResponse) : Prop :=
  response.stopReason = .other ∧
    ∃ json, Json.parse (responseText response) = some json ∧ schema.safeParse json = .ok value

section Safety

variable (platform : Platform) (route : LlmRoute) (schema : Schema α) (options : CallOptions)

/-- What precedes an attempt: the two checks, and before them one truncation and one repair at most
and nothing else that was received. -/
structure Allowed (log : Record) : Prop where
  cleared : Cleared options log
  truncated : (responses log).countP IsTruncated ≤ 1
  repaired : (responses log).countP (IsRejected platform schema) ≤ 1
  retried : ∀ r ∈ responses log, IsTruncated r = true ∨ IsRejected platform schema r = true

def callContext : CallContext := ⟨route.stage, prefixHash platform route⟩

structure Safe (log : Record) : Prop where
  attempts : attemptCount log ≤ 6
  answered : (responses log).length ≤ 3
  allowed : ∀ request answer older, Event.attempt request answer :: older <:+ log →
    Allowed platform schema options older
  metered : ∀ e request response older, e :: Event.attempt request (.ok response) :: older <:+ log →
    ∃ stored, e = .metered (callContext platform route) response options.attribution stored
  received : ∀ context response attribution stored older,
    Event.metered context response attribution stored :: older <:+ log →
      ∃ request older', older = .attempt request (.ok response) :: older'

structure Told (log : Record) (result : CallResult α) : Prop where
  calls : result.calls = (responses log).length
  metered : meteredResponses log = responses log
  accepted : ∀ value calls, result = .ok value calls → ∃ r ∈ (responses log).head?, IsAccepted schema value r

def Settled (log : Record) : Prop := ∀ request response older, log ≠ .attempt request (.ok response) :: older

structure Held (s : Turn) (log : Record) : Prop where
  safe : Safe platform route schema options log
  settled : Settled log
  metered : meteredResponses log = responses log
  calls : s.calls = (responses log).length
  truncated : (responses log).countP IsTruncated = s.truncationRetried.toNat
  repaired : (responses log).countP (IsRejected platform schema) = s.repaired.toNat
  retried : ∀ r ∈ responses log, IsTruncated r = true ∨ IsRejected platform schema r = true

structure Inv (s : Turn) (log : Record) : Prop where
  held : Held platform route schema options s log
  attempts : attemptCount log = s.attempts
  sum : s.attempts = s.calls + s.reconnects
  reconnects : s.reconnects ≤ connectionBackoffMs.length

end Safety

/-! ## What one event changes -/

def Event.Quiet (e : Event) : Prop := e.attempt? = false ∧ e.response? = none ∧ e.metered? = none

section Events

variable {platform : Platform} {route : LlmRoute} {schema : Schema α} {options : CallOptions} {s : Turn}
  {log : Record} {e : Event}

theorem attemptCount_quiet (h : e.Quiet) : attemptCount (e :: log) = attemptCount log := by
  simp [attemptCount, h.1]

theorem responses_quiet (h : e.Quiet) : responses (e :: log) = responses log := by
  simp [responses, h.2.1]

theorem meteredResponses_quiet (h : e.Quiet) : meteredResponses (e :: log) = meteredResponses log := by
  simp [meteredResponses, h.2.2]

theorem settled_quiet (h : e.Quiet) : Settled (e :: log) := by
  intro request response older hlog
  have hresponse := h.2.1
  rw [(List.cons.inj hlog).1] at hresponse
  cases hresponse

theorem suffix_cases {e' : Event} {older : Record} (h : e' :: older <:+ e :: log) :
    (e' = e ∧ older = log) ∨ e' :: older <:+ log := by
  rcases List.suffix_cons_iff.mp h with heq | hsuffix
  · exact .inl (List.cons.inj heq)
  · exact .inr hsuffix

theorem Safe.quiet (h : Safe platform route schema options log) (hsettled : Settled log) (he : e.Quiet) :
    Safe platform route schema options (e :: log) where
  attempts := (attemptCount_quiet he).trans_le h.attempts
  answered := (responses_quiet he).symm ▸ h.answered
  allowed := by
    intro request answer older hsuffix
    rcases suffix_cases hsuffix with ⟨heq, _⟩ | hsuffix
    · have hattempt := he.1
      rw [← heq] at hattempt
      cases hattempt
    · exact h.allowed request answer older hsuffix
  metered := by
    intro e' request response older hsuffix
    rcases suffix_cases hsuffix with ⟨_, heq⟩ | hsuffix
    · exact absurd heq.symm (hsettled request response older)
    · exact h.metered e' request response older hsuffix
  received := by
    intro context response attribution stored older hsuffix
    rcases suffix_cases hsuffix with ⟨heq, _⟩ | hsuffix
    · have hmetered := he.2.2
      rw [← heq] at hmetered
      cases hmetered
    · exact h.received context response attribution stored older hsuffix

theorem Held.quiet (h : Held platform route schema options s log) (he : e.Quiet) :
    Held platform route schema options s (e :: log) where
  safe := h.safe.quiet h.settled he
  settled := settled_quiet he
  metered := by rw [meteredResponses_quiet he, responses_quiet he, h.metered]
  calls := by rw [responses_quiet he, h.calls]
  truncated := by rw [responses_quiet he, h.truncated]
  repaired := by rw [responses_quiet he, h.repaired]
  retried := by rw [responses_quiet he]; exact h.retried

theorem Inv.quiet (h : Inv platform route schema options s log) (he : e.Quiet) :
    Inv platform route schema options s (e :: log) where
  held := h.held.quiet he
  attempts := by rw [attemptCount_quiet he, h.attempts]
  sum := h.sum
  reconnects := h.reconnects

theorem quiet_signal (aborted : Bool) : (Event.signal aborted).Quiet := ⟨rfl, rfl, rfl⟩

theorem quiet_ceiling (used : Except Thrown ℕ) : (Event.ceiling used).Quiet := ⟨rfl, rfl, rfl⟩

theorem quiet_meterError (error : Thrown) (handled : Except Thrown Unit) : (Event.meterError error handled).Quiet :=
  ⟨rfl, rfl, rfl⟩

theorem quiet_paused (ms : ℕ) : (Event.paused ms).Quiet := ⟨rfl, rfl, rfl⟩

theorem Held.calls_le (h : Held platform route schema options s log) : s.calls ≤ 2 := by
  have hothers : (responses log).countP (fun r => decide ¬ IsTruncated r = true) ≤
      (responses log).countP (IsRejected platform schema) := by
    refine List.countP_mono_left fun r hr htruncated => ?_
    exact (h.retried r hr).resolve_left (of_decide_eq_true htruncated)
  have hsplit : (responses log).length = _ := List.length_eq_countP_add_countP IsTruncated
  have hone := Bool.toNat_le s.truncationRetried
  have hone' := Bool.toNat_le s.repaired
  rw [← h.truncated] at hone
  rw [← h.repaired] at hone'
  rw [h.calls]
  omega

theorem Held.allowed (h : Held platform route schema options s log) (hcleared : Cleared options log) :
    Allowed platform schema options log where
  cleared := hcleared
  truncated := h.truncated ▸ Bool.toNat_le _
  repaired := h.repaired ▸ Bool.toNat_le _
  retried := h.retried

theorem attemptCount_attempt (request : LlmRequest) (answer : Except Thrown LlmResponse) :
    attemptCount (.attempt request answer :: log) = attemptCount log + 1 := List.countP_cons_of_pos rfl

theorem attemptCount_metered (context : CallContext) (response : LlmResponse) (attribution : CallAttribution)
    (stored : Except Thrown Unit) :
    attemptCount (.metered context response attribution stored :: log) = attemptCount log :=
  List.countP_cons_of_neg (by simp [Event.attempt?])

theorem Inv.failed (h : Inv platform route schema options s log) (hcleared : Cleared options log)
    (request : LlmRequest) (error : Thrown) :
    Held platform route schema options s (.attempt request (.error error) :: log) ∧
      attemptCount (.attempt request (.error error) :: log) = s.attempts + 1 := by
  have hcalls := h.held.calls_le
  have hreconnects : s.reconnects ≤ 3 := h.reconnects
  have hattempts : attemptCount (.attempt request (.error error) :: log) = s.attempts + 1 := by
    rw [attemptCount_attempt, h.attempts]
  refine ⟨⟨⟨?_, h.held.safe.answered, ?_, ?_, ?_⟩, ?_, h.held.metered, h.held.calls, h.held.truncated,
    h.held.repaired, h.held.retried⟩, hattempts⟩
  · rw [hattempts, h.sum]
    omega
  · intro request' answer older hsuffix
    rcases suffix_cases hsuffix with ⟨_, rfl⟩ | hsuffix
    · exact h.held.allowed hcleared
    · exact h.held.safe.allowed request' answer older hsuffix
  · intro e' request' response older hsuffix
    rcases suffix_cases hsuffix with ⟨_, heq⟩ | hsuffix
    · exact absurd heq.symm (h.held.settled request' response older)
    · exact h.held.safe.metered e' request' response older hsuffix
  · intro context response attribution stored older hsuffix
    rcases suffix_cases hsuffix with ⟨heq, _⟩ | hsuffix
    · cases heq
    · exact h.held.safe.received context response attribution stored older hsuffix
  · intro request' response older hlog
    cases hlog

structure Answered (platform : Platform) (route : LlmRoute) (schema : Schema α) (options : CallOptions) (s : Turn)
    (response : LlmResponse) (log : Record) : Prop where
  safe : Safe platform route schema options log
  settled : Settled log
  metered : meteredResponses log = responses log
  attempts : attemptCount log = s.attempts + 1
  responses : ∃ rs, responses log = response :: rs ∧ s.calls = rs.length ∧
    rs.countP IsTruncated = s.truncationRetried.toNat ∧ rs.countP (IsRejected platform schema) = s.repaired.toNat ∧
    ∀ r ∈ rs, IsTruncated r = true ∨ IsRejected platform schema r = true

theorem Inv.received (h : Inv platform route schema options s log) (hcleared : Cleared options log)
    (request : LlmRequest) (response : LlmResponse) :
    Safe platform route schema options (.attempt request (.ok response) :: log) := by
  have hcalls := h.held.calls_le
  have hreconnects : s.reconnects ≤ 3 := h.reconnects
  refine ⟨?_, ?_, ?_, ?_, ?_⟩
  · rw [attemptCount_attempt, h.attempts, h.sum]
    omega
  · change (response :: responses log).length ≤ 3
    rw [List.length_cons, ← h.held.calls]
    omega
  · intro request' answer older hsuffix
    rcases suffix_cases hsuffix with ⟨_, rfl⟩ | hsuffix
    · exact h.held.allowed hcleared
    · exact h.held.safe.allowed request' answer older hsuffix
  · intro e' request' response' older hsuffix
    rcases suffix_cases hsuffix with ⟨_, heq⟩ | hsuffix
    · exact absurd heq.symm (h.held.settled request' response' older)
    · exact h.held.safe.metered e' request' response' older hsuffix
  · intro context response' attribution stored older hsuffix
    rcases suffix_cases hsuffix with ⟨heq, _⟩ | hsuffix
    · cases heq
    · exact h.held.safe.received context response' attribution stored older hsuffix

theorem Inv.answered (h : Inv platform route schema options s log) (hcleared : Cleared options log)
    (request : LlmRequest) (response : LlmResponse) (stored : Except Thrown Unit) :
    Answered platform route schema options s response
      (.metered (callContext platform route) response options.attribution stored ::
        .attempt request (.ok response) :: log) where
  safe := by
    have hsafe := h.received hcleared request response
    refine ⟨?_, hsafe.answered, ?_, ?_, ?_⟩
    · rw [attemptCount_metered]
      exact hsafe.attempts
    · intro request' answer older hsuffix
      rcases suffix_cases hsuffix with ⟨heq, _⟩ | hsuffix
      · cases heq
      · exact hsafe.allowed request' answer older hsuffix
    · intro e' request' response' older hsuffix
      rcases suffix_cases hsuffix with ⟨rfl, heq⟩ | hsuffix
      · obtain ⟨hattempt, _⟩ := List.cons.inj heq
        cases hattempt
        exact ⟨stored, rfl⟩
      · exact hsafe.metered e' request' response' older hsuffix
    · intro context response' attribution stored' older hsuffix
      rcases suffix_cases hsuffix with ⟨heq, rfl⟩ | hsuffix
      · cases heq
        exact ⟨request, log, rfl⟩
      · exact hsafe.received context response' attribution stored' older hsuffix
  settled := by
    intro request' response' older hlog
    cases hlog
  metered := congrArg (response :: ·) h.held.metered
  attempts := by rw [attemptCount_metered, attemptCount_attempt, h.attempts]
  responses := ⟨responses log, rfl, h.held.calls, h.held.truncated, h.held.repaired, h.held.retried⟩

theorem Answered.quiet {response : LlmResponse} (h : Answered platform route schema options s response log)
    (he : e.Quiet) : Answered platform route schema options s response (e :: log) where
  safe := h.safe.quiet h.settled he
  settled := settled_quiet he
  metered := by rw [meteredResponses_quiet he, responses_quiet he, h.metered]
  attempts := by rw [attemptCount_quiet he, h.attempts]
  responses := by rw [responses_quiet he]; exact h.responses

end Events

/-! ## One round -/

section Rounds

variable {platform : Platform} {route : LlmRoute} {schema : Schema α} {messages : List LlmMessage}
  {options : CallOptions} {s : Turn} {log : Record} {I C : Record → Prop}

theorem wp_asked {op : LlmOp} {Q : op.Ret → Record → Prop} (hC : C log)
    (h : ∀ r, Q r (eventOf op r :: log) ∧ C (eventOf op r :: log)) : Proc.wp recorded (Proc.ask op) Q C log :=
  ⟨hC, fun r _ hr => hr ▸ h r⟩

theorem wp_signalAborted (hI : ∀ log aborted, I log → I (.signal aborted :: log)) (hC : ∀ log, I log → C log)
    (h : I log) :
    Proc.wp recorded (signalAborted options)
      (fun aborted log => I log ∧ (aborted = false → SignalClear options log)) C log := by
  unfold signalAborted
  cases hsignal : options.signal with
  | true =>
    rw [if_pos rfl]
    refine wp_asked (hC log h) fun aborted => ⟨⟨hI log aborted h, fun hclear _ => ⟨log, ?_⟩⟩, hC _ (hI log aborted h)⟩
    rw [hclear]
    rfl
  | false =>
    rw [if_neg (by simp)]
    exact ⟨⟨h, fun _ hsome => absurd (hsignal.symm.trans hsome) (by simp)⟩, hC log h⟩

theorem wp_isAbort (error : Thrown) (hI : ∀ log aborted, I log → I (.signal aborted :: log))
    (hC : ∀ log, I log → C log) (h : I log) :
    Proc.wp recorded (isAbort options error) (fun _ log => I log) C log :=
  Proc.wp_bind (Proc.wp_mono (fun _ log hQ => ⟨hQ.1, hC log hQ.1⟩) (fun _ hc => hc) (wp_signalAborted hI hC h))

theorem wp_ceilingReached (hI : ∀ log used, I log → I (.ceiling used :: log)) (hC : ∀ log, I log → C log)
    (h : I log) (hclear : SignalClear options log) :
    Proc.wp recorded (ceilingReached options)
      (fun reached log => I log ∧ (reached = .ok false → Cleared options log)) C log := by
  unfold ceilingReached
  split
  · rename_i hnone
    refine ⟨⟨h, fun _ => ?_⟩, hC log h⟩
    unfold Cleared
    rw [hnone]
    exact hclear
  · rename_i limit hlimit
    refine Proc.wp_bind (wp_asked (hC log h) fun used => ⟨⟨⟨hI log used h, fun hreached => ?_⟩, hC _ (hI log used h)⟩,
      hC _ (hI log used h)⟩)
    unfold Cleared
    rw [hlimit]
    cases used with
    | error thrown => cases hreached
    | ok n =>
      have hlt : ¬ n ≥ limit := of_decide_eq_false (Except.ok.inj hreached)
      exact ⟨n, log, rfl, Nat.lt_of_not_le hlt, hclear⟩

theorem wp_meterRecord {response : LlmResponse} (hsafe : Safe platform route schema options log)
    (h : ∀ stored, Answered platform route schema options s response
      (.metered (callContext platform route) response options.attribution stored :: log)) :
    Proc.wp recorded (meterRecord options (callContext platform route) response)
      (fun _ log => Answered platform route schema options s response log)
      (Safe platform route schema options) log := by
  refine Proc.wp_bind (wp_asked hsafe fun stored => ⟨?_, (h stored).safe⟩)
  cases stored with
  | ok _ => exact ⟨h _, (h _).safe⟩
  | error error =>
    dsimp only
    split
    · refine wp_asked (h _).safe fun handled => ?_
      have hafter := (h (.error error)).quiet (quiet_meterError error handled)
      exact ⟨hafter, hafter.safe⟩
    · exact ⟨h _, (h _).safe⟩

def Leads (platform : Platform) (route : LlmRoute) (schema : Schema α) (options : CallOptions) {s : Turn}
    (next : Except Thrown (Next α s)) (log : Record) : Prop :=
  Safe platform route schema options log ∧
    match next with
    | .error _ => True
    | .ok (.done result) => Told schema log result
    | .ok (.again s' _) => Inv platform route schema options s' log

theorem Held.told (h : Held platform route schema options s log) (failure : CallFailure)
    (diagnostic : Option CallDiagnostic) :
    Told schema log (.failed failure s.calls diagnostic : CallResult α) where
  calls := h.calls
  metered := h.metered
  accepted := by
    intro value calls heq
    cases heq

theorem wp_onError (error : Thrown)
    (h : Held platform route schema options s log ∧ attemptCount log = s.attempts + 1)
    (hsum : s.attempts = s.calls + s.reconnects) :
    Proc.wp recorded (onError options s error : Async (Except Thrown (Next α s)))
      (Leads platform route schema options) (Safe platform route schema options) log := by
  have hquiet : ∀ (log : Record) (e : Event), e.Quiet →
      Held platform route schema options s log ∧ attemptCount log = s.attempts + 1 →
      Held platform route schema options s (e :: log) ∧ attemptCount (e :: log) = s.attempts + 1 := by
    intro log e he hlog
    exact ⟨hlog.1.quiet he, (attemptCount_quiet he).trans hlog.2⟩
  refine Proc.wp_bind (Proc.wp_mono (fun aborted log h => ?_) (fun _ hc => hc)
    (wp_isAbort error (fun log aborted => hquiet log _ (quiet_signal aborted)) (fun log hlog => hlog.1.safe) h))
  cases providerDiagnostic error aborted with
  | error thrown => exact ⟨⟨h.1.safe, trivial⟩, h.1.safe⟩
  | ok diagnostic =>
    dsimp only
    split
    · split
      · refine Proc.wp_bind (wp_asked h.1.safe fun _ => ?_)
        obtain ⟨hheld, hattempts⟩ := hquiet log _ (quiet_paused _) h
        refine ⟨⟨⟨hheld.safe, ?_⟩, hheld.safe⟩, hheld.safe⟩
        rename_i hreconnects _ _
        exact ⟨⟨hheld.safe, hheld.settled, hheld.metered, hheld.calls, hheld.truncated, hheld.repaired,
          hheld.retried⟩, hattempts, congrArg (· + 1) hsum, hreconnects⟩
      · exact ⟨⟨h.1.safe, h.1.told _ _⟩, h.1.safe⟩
    · exact ⟨⟨h.1.safe, h.1.told _ _⟩, h.1.safe⟩

theorem Answered.told {response : LlmResponse} (h : Answered platform route schema options s response log)
    (result : CallResult α) (hcalls : result.calls = s.calls + 1)
    (haccepted : ∀ value calls, result = .ok value calls → IsAccepted schema value response) :
    Told schema log result := by
  obtain ⟨rs, hrs, hcount, _, _, _⟩ := h.responses
  refine ⟨?_, h.metered, fun value calls hok => ⟨response, ?_, haccepted value calls hok⟩⟩
  · rw [hcalls, hrs, List.length_cons, hcount]
  · rw [hrs]
    rfl

theorem Answered.inv {response : LlmResponse} {s' : Turn} (h : Answered platform route schema options s response log)
    (hsum : s.attempts = s.calls + s.reconnects) (hreconnects : s.reconnects ≤ connectionBackoffMs.length)
    (hcalls : s'.calls = s.calls + 1) (hattempts : s'.attempts = s.attempts + 1) (hsame : s'.reconnects = s.reconnects)
    (htruncated : s'.truncationRetried.toNat = s.truncationRetried.toNat + (IsTruncated response).toNat)
    (hrepaired : s'.repaired.toNat = s.repaired.toNat + (IsRejected platform schema response).toNat)
    (hspent : IsTruncated response = true ∨ IsRejected platform schema response = true) :
    Inv platform route schema options s' log := by
  obtain ⟨rs, hrs, hcount, htruncations, hrepairs, hretried⟩ := h.responses
  refine ⟨⟨h.safe, h.settled, h.metered, ?_, ?_, ?_, ?_⟩, ?_, ?_, hsame ▸ hreconnects⟩
  · rw [hcalls, hrs, List.length_cons, hcount]
  · rw [hrs, List.countP_cons, htruncations, htruncated]
    cases IsTruncated response <;> rfl
  · rw [hrs, List.countP_cons, hrepairs, hrepaired]
    cases IsRejected platform schema response <;> rfl
  · intro r hr
    rw [hrs] at hr
    rcases List.mem_cons.mp hr with rfl | hr
    · exact hspent
    · exact hretried r hr
  · rw [h.attempts, hattempts]
  · rw [hattempts, hcalls, hsame, hsum]
    omega

theorem validate_accepted {text : Text} {value : α} (h : validate platform schema text = .accepted value) :
    ∃ json, Json.parse text = some json ∧ schema.safeParse json = .ok value := by
  unfold validate at h
  cases hjson : Json.parse text with
  | none =>
    rw [hjson] at h
    cases h
  | some json =>
    rw [hjson] at h
    cases hparse : schema.safeParse json with
    | error issues =>
      simp only [hparse] at h
      cases h
    | ok value' =>
      simp only [hparse, Validation.accepted.injEq] at h
      exact ⟨json, rfl, h ▸ hparse⟩

theorem leads_onResponse {response : LlmResponse} (hcalls : s.calls < maxCalls)
    (h : Answered platform route schema options s response log)
    (hsum : s.attempts = s.calls + s.reconnects) (hreconnects : s.reconnects ≤ connectionBackoffMs.length) :
    Leads platform route schema options (.ok (onResponse platform route schema messages s hcalls response)) log := by
  refine ⟨h.safe, ?_⟩
  have hfailed : ∀ (failure : CallFailure) (diagnostic : Option CallDiagnostic),
      Told schema log (.failed failure (s.calls + 1) diagnostic : CallResult α) := by
    intro failure diagnostic
    exact h.told _ rfl (fun value calls hok => nomatch hok)
  unfold onResponse
  cases hstop : response.stopReason with
  | refusal => exact hfailed _ _
  | modelContextWindowExceeded => exact hfailed _ _
  | maxTokens =>
    have htruncated : IsTruncated response = true := by simp [IsTruncated, hstop]
    have hread : IsRejected platform schema response = false := by simp [IsRejected, hstop]
    cases hretried : s.truncationRetried with
    | true => exact hfailed _ _
    | false =>
      exact h.inv hsum hreconnects rfl rfl rfl (by rw [hretried, htruncated]; rfl) (by rw [hread]; rfl) (.inl htruncated)
  | other =>
    have htruncated : IsTruncated response = false := by simp [IsTruncated, hstop]
    dsimp only
    cases hvalid : validate platform schema (responseText response) with
    | accepted value =>
      refine h.told _ rfl fun value' calls hok => ?_
      obtain ⟨rfl, _⟩ := CallResult.ok.inj hok
      exact ⟨hstop, validate_accepted hvalid⟩
    | rejected detail diagnostic =>
      have hrejected : IsRejected platform schema response = true := by simp [IsRejected, hstop, hvalid]
      cases hrepaired : s.repaired with
      | true => exact hfailed _ _
      | false =>
        exact h.inv hsum hreconnects rfl rfl rfl (by rw [htruncated]; rfl) (by rw [hrepaired, hrejected]; rfl)
          (.inr hrejected)

/-- **What one round keeps.** -/
theorem wp_round (hcalls : s.calls < maxCalls) (h : Inv platform route schema options s log) :
    Proc.wp recorded (round platform route schema messages options s hcalls)
      (Leads platform route schema options) (Safe platform route schema options) log := by
  have hsafe : ∀ log, Inv platform route schema options s log → Safe platform route schema options log :=
    fun log hlog => hlog.held.safe
  refine Proc.wp_bind (Proc.wp_mono (fun aborted log hQ => ?_) (fun _ hc => hc)
    (wp_signalAborted (fun log aborted hlog => hlog.quiet (quiet_signal aborted)) hsafe h))
  obtain ⟨h, hclear⟩ := hQ
  cases aborted with
  | true => exact ⟨⟨h.held.safe, h.held.told _ _⟩, h.held.safe⟩
  | false =>
    refine Proc.wp_bind (Proc.wp_mono (fun reached log hQ => ?_) (fun _ hc => hc)
      (wp_ceilingReached (fun log used hlog => hlog.quiet (quiet_ceiling used)) hsafe h (hclear rfl)))
    obtain ⟨h, hcleared⟩ := hQ
    cases reached with
    | error thrown => exact ⟨⟨h.held.safe, trivial⟩, h.held.safe⟩
    | ok reached =>
      cases reached with
      | true => exact ⟨⟨h.held.safe, h.held.told _ _⟩, h.held.safe⟩
      | false =>
        refine Proc.wp_bind (wp_asked h.held.safe fun answer => ?_)
        cases answer with
        | error error =>
          have hfailed := h.failed (hcleared rfl) (buildRequest route options.model s.maxTokens schema.format s.transcript)
            error
          exact ⟨wp_onError error hfailed h.sum, hfailed.1.safe⟩
        | ok response =>
          have hreceived := h.received (hcleared rfl)
            (buildRequest route options.model s.maxTokens schema.format s.transcript) response
          refine ⟨?_, hreceived⟩
          refine Proc.wp_bind (Proc.wp_mono (fun stored log hQ => ?_) (fun _ hc => hc)
            (wp_meterRecord hreceived fun stored => h.answered (hcleared rfl) _ response stored))
          cases stored with
          | error thrown => exact ⟨⟨hQ.safe, trivial⟩, hQ.safe⟩
          | ok _ => exact ⟨leads_onResponse hcalls hQ h.sum h.reconnects, hQ.safe⟩

theorem wp_loop (after : Turn → CallResult α) (h : Inv platform route schema options s log) :
    Proc.wp recorded (loop platform route schema messages options after s)
      (fun result log => Safe platform route schema options log ∧ ∀ r, result = .ok r → Told schema log r)
      (Safe platform route schema options) log := by
  induction hleft : s.left using Nat.strong_induction_on generalizing s log with
  | _ n ih =>
    have hcalls : s.calls < maxCalls := Nat.lt_of_le_of_lt h.held.calls_le (by decide)
    rw [loop, dif_pos hcalls]
    refine Proc.wp_bind (Proc.wp_mono (fun next log hnext => ?_) (fun _ hc => hc) (wp_round hcalls h))
    obtain ⟨hsafe, hnext⟩ := hnext
    cases next with
    | error thrown => exact ⟨⟨hsafe, fun _ hr => absurd hr (by simp)⟩, hsafe⟩
    | ok next =>
      cases next with
      | done result =>
        refine ⟨⟨hsafe, fun r hr => ?_⟩, hsafe⟩
        rw [← Except.ok.inj hr]
        exact hnext
      | again s' closer =>
        dsimp only
        exact ih s'.left (hleft ▸ closer) hnext rfl

theorem loop_after (after after' : Turn → CallResult α) (h : Inv platform route schema options s log) :
    loop platform route schema messages options after s = loop platform route schema messages options after' s := by
  induction hleft : s.left using Nat.strong_induction_on generalizing s log with
  | _ n ih =>
    have hcalls : s.calls < maxCalls := Nat.lt_of_le_of_lt h.held.calls_le (by decide)
    rw [loop, loop, dif_pos hcalls, dif_pos hcalls]
    have hall : ∀ log op r, ∃ log', recorded log op r log' := fun _ _ _ => ⟨_, rfl⟩
    refine Proc.bind_congr hall (Proc.wp_mono (fun next log hnext => ?_) (fun _ hc => hc)
      (wp_round hcalls h))
    cases next with
    | error thrown => rfl
    | ok next =>
      cases next with
      | done result => rfl
      | again s' closer => exact ih s'.left (hleft ▸ closer) hnext.2 rfl

theorem inv_start : Inv platform route schema options (.start route messages) [] where
  held := {
    safe := {
      attempts := Nat.zero_le 6
      answered := Nat.zero_le 3
      allowed := fun _ _ _ hsuffix => absurd (List.suffix_nil.mp hsuffix) (by simp)
      metered := fun _ _ _ _ hsuffix => absurd (List.suffix_nil.mp hsuffix) (by simp)
      received := fun _ _ _ _ _ hsuffix => absurd (List.suffix_nil.mp hsuffix) (by simp) }
    settled := nofun
    metered := rfl
    calls := rfl
    truncated := rfl
    repaired := rfl
    retried := nofun }
  attempts := rfl
  sum := rfl
  reconnects := Nat.zero_le _

end Rounds

/-! ## Calls end -/

section Total

variable (platform : Platform) (route : LlmRoute) (schema : Schema α) (messages : List LlmMessage)
  (options : CallOptions)

theorem total_signalAborted : (signalAborted options).Total := by
  unfold signalAborted
  split
  · exact Proc.total_ask _
  · trivial

theorem total_ceilingReached : (ceilingReached options).Total := by
  unfold ceilingReached
  split
  · trivial
  · exact (Proc.total_ask _).bind fun _ => trivial

theorem total_meterRecord (context : CallContext) (response : LlmResponse) :
    (meterRecord options context response).Total := by
  refine (Proc.total_ask _).bind fun stored => ?_
  cases stored with
  | ok _ => trivial
  | error error =>
    dsimp only
    split
    · exact Proc.total_ask _
    · trivial

theorem total_isAbort (error : Thrown) : (isAbort options error).Total :=
  (total_signalAborted options).bind fun _ => trivial

theorem total_onError (s : Turn) (error : Thrown) :
    (onError options s error : Async (Except Thrown (Next α s))).Total := by
  refine (total_isAbort options error).bind fun aborted => ?_
  cases providerDiagnostic error aborted with
  | error thrown => trivial
  | ok diagnostic =>
    dsimp only
    split
    · split
      · exact (Proc.total_ask _).bind fun _ => trivial
      · trivial
    · trivial

theorem total_round (s : Turn) (hcalls : s.calls < maxCalls) :
    (round platform route schema messages options s hcalls).Total := by
  refine (total_signalAborted options).bind fun aborted => ?_
  cases aborted with
  | true => trivial
  | false =>
    refine (total_ceilingReached options).bind fun reached => ?_
    cases reached with
    | error thrown => trivial
    | ok reached =>
      cases reached with
      | true => trivial
      | false =>
        refine (Proc.total_ask _).bind fun answer => ?_
        cases answer with
        | error error => exact total_onError options s error
        | ok response =>
          refine (total_meterRecord options _ response).bind fun stored => ?_
          cases stored with
          | error thrown => trivial
          | ok _ => trivial

theorem total_loop (after : Turn → CallResult α) (s : Turn) :
    (loop platform route schema messages options after s).Total := by
  induction hleft : s.left using Nat.strong_induction_on generalizing s with
  | _ n ih =>
    rw [loop]
    split
    · refine (total_round platform route schema messages options s _).bind fun next => ?_
      cases next with
      | error thrown => trivial
      | ok next =>
        cases next with
        | done result => trivial
        | again s' closer => exact ih s'.left (hleft ▸ closer) s' rfl
    · trivial

end Total

/-- **A structured call, however its surroundings behave.** It ends if they answer; it makes six
attempts at most, each right after the two checks, and receives three responses at most, each of which
is metered before anything else happens; it goes on from one truncated and from one rejected
response at most; and what it gives counts the responses and is a value only if the schema accepts the
last of them. It never gets behind its loop. -/
theorem callStructured_bounded (platform : Platform) (route : LlmRoute) (schema : Schema α)
    (messages : List LlmMessage) (options : CallOptions) :
    (∀ {σ : Type} (env : Proc.Surroundings LlmOp.Ret σ), (∀ st op, ∃ r st', env st op r st') → ∀ st,
      Proc.ends env (callStructured platform route schema messages options) (fun _ _ => True) st) ∧
    (∀ log x, Proc.Exec recorded [] (callStructured platform route schema messages options) log x →
      Safe platform route schema options log ∧ ∀ result, x = some (.ok result) → Told schema log result) ∧
    ∀ after, loop platform route schema messages options after (.start route messages) =
      callStructured platform route schema messages options := by
  refine ⟨fun env hanswers st => (total_loop platform route schema messages options _ _).ends hanswers, ?_,
    fun after => loop_after after fallThrough inv_start⟩
  intro log x hexec
  obtain ⟨hvalue, hcut⟩ := hexec.wp (wp_loop fallThrough inv_start)
  cases x with
  | none => exact ⟨hcut rfl, fun _ hr => absurd hr (by simp)⟩
  | some y =>
    obtain ⟨hsafe, htold⟩ := hvalue y rfl
    exact ⟨hsafe, fun result hresult => htold result (Option.some.inj hresult)⟩

end Albusforge.Llm
