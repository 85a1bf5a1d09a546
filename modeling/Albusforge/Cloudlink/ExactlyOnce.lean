import Mathlib
import Albusforge.Cloudlink.Ingest

/-!
# Exactly once

Any number of requests for any number of devices, their transactions interleaved
statement by statement, sessions lost at any point, credentials revoked in between.
What a device's tables hold is what the receipts of its stored packets add up to
(`Accounted`): **one receipt a sequence, every row and every byte counted once.** A
retry is answered with its receipt, a reused sequence with a conflict, and a rejected
request leaves no trace (`ingest_exactly_once`).
-/

namespace Albusforge.Cloudlink

open Lib Lib.Json

variable {ν : Type} [JsonNumber ν]

def Request.envelope : Request ν → Option (Envelope ν)
  | .malformed _ => none
  | .post _ body _ => Envelope.safeParse body

structure Receipt (ν : Type) where
  envelope : Envelope ν
  received : ℤ
  ack : Ack

def Outcome.receipt (o : Outcome ν) : Option (Receipt ν) :=
  match o.request, o.answer with
  | .post _ body received, .stored ack => (Envelope.safeParse body).map fun e => ⟨e, received, ack⟩
  | _, _ => none

/-- The packets stored for device `k`. -/
def receipts (log : List (Text × Outcome ν)) (k : Text) : List (Receipt ν) :=
  (log.filter fun entry => entry.1 == k).filterMap fun entry => entry.2.receipt

def Receipt.rows (r : Receipt ν) : List (Row ν) := rowsOf r.envelope r.envelope.r 0

def usageOf : List (Receipt ν) → Option Usage
  | [] => none
  | rs => some ⟨(rs.map fun r => r.rows.length).sum,
      (rs.map fun r => byteLength (canonical r.envelope)).sum⟩

section

variable (tokenHash : Text → Text)

/-- The row a receipt leaves in `telemetry.packets`. -/
def Receipt.packet (r : Receipt ν) : Packet := ⟨fingerprint tokenHash r.envelope, r.ack⟩

structure Accounted (tables : Text → DeviceTables ν) (log : List (Text × Outcome ν)) : Prop where
  /-- **At most one packet a sequence.** -/
  once : ∀ k, ((receipts log k).map fun r => r.envelope.seq).Nodup
  valid : ∀ k, ∀ r ∈ receipts log k,
    r.envelope.Valid ∧ uuidOf r.envelope.dev = k ∧ r.ack.accepted = true
  packets : ∀ k seq p, (tables k).packets seq = some p ↔
    ∃ r ∈ receipts log k, r.envelope.seq = seq ∧ r.packet tokenHash = p
  /-- **Each packet's rows are there once.** -/
  readings : ∀ k, (tables k).readings = ((receipts log k).flatMap Receipt.rows : List (Row ν))
  /-- **Each packet is counted once**, in the period it came in. -/
  usage : ∀ k p, (tables k).usage p = usageOf ((receipts log k).filter fun r => period r.received == p)

def requests (k : Text) (txn : Transaction (DeviceTables ν) (Shared ν) (Outcome ν)) : Prop :=
  ∃ q : Request ν, k = q.device ∧ txn = ingest tokenHash q

end

/-- What other writers do between requests: provisioning, revocation, rollups, image captures.
Nobody else writes packets, readings or usage. -/
structure Outside (k : Text) (s s' : DeviceTables ν) : Prop where
  packets : s'.packets = s.packets
  readings : s'.readings = s.readings
  usage : s'.usage = s.usage

section

variable (tokenHash : Text → Text)

def Authorized (s : DeviceTables ν) (o : Outcome ν) (e : Envelope ν) : Prop :=
  ∃ authorization body received credentialHash, o.request = .post authorization body received ∧
    bearerHash tokenHash authorization = some credentialHash ∧ Envelope.safeParse body = some e ∧
    matchesDevice credentialHash s = true ∧ authorizes o.capabilities e = some true

/-- How a request about device `k` is answered, when the tables are `t` before and `t'` after. -/
structure Answered (t : Text → DeviceTables ν) (l : List (Text × Outcome ν))
    (t' : Text → DeviceTables ν) (k : Text) (o : Outcome ν) : Prop where
  /-- **A rejected request changes no table.** -/
  rejected : ∀ err, o.answer = .rejected err → t' = t
  /-- **A retry gets the acknowledgement its packet got**, and changes no table. -/
  retried : ∀ e, Authorized tokenHash (t k) o e → ∀ r ∈ receipts l k, r.envelope.seq = e.seq →
    fingerprint tokenHash e = fingerprint tokenHash r.envelope →
    o.answer = .replayed r.ack ∧ t' = t
  /-- **Another payload under a stored sequence is a conflict**, and changes no table. -/
  conflict : ∀ e, Authorized tokenHash (t k) o e → ∀ r ∈ receipts l k, r.envelope.seq = e.seq →
    e ≠ r.envelope → o.answer = .rejected ⟨409, js "sequence_conflict"⟩ ∧ t' = t

end

structure Fresh (w : World Text (DeviceTables ν) (Shared ν) (Outcome ν)) : Prop where
  sessions : ∀ i, w.sessions i = none
  log : w.log = []
  packets : ∀ k seq, (w.tables k).packets seq = none
  readings : ∀ k, (w.tables k).readings = 0
  usage : ∀ k p, (w.tables k).usage p = none

/-! ## Receipts -/

theorem receipts_append (log : List (Text × Outcome ν)) (k k' : Text) (o : Outcome ν) :
    receipts (log ++ [(k', o)]) k =
      receipts log k ++ (if k' = k then o.receipt.toList else []) := by
  unfold receipts
  rw [List.filter_append, List.filterMap_append]
  by_cases h : k' = k
  · simp [h, List.filterMap_cons]
    cases o.receipt <;> rfl
  · simp [h]

theorem usageOf_append (rs : List (Receipt ν)) (r : Receipt ν) :
    usageOf (rs ++ [r]) =
      some (Usage.add (usageOf rs) r.rows.length (byteLength (canonical r.envelope))) := by
  cases rs with
  | nil => simp [usageOf, Usage.add]
  | cons r' rs => simp [usageOf, Usage.add, add_assoc]

theorem receipts_unchanged {log : List (Text × Outcome ν)} {k' : Text} {o : Outcome ν}
    (h : ∀ ack, o.answer ≠ .stored ack) (k : Text) :
    receipts (log ++ [(k', o)]) k = receipts log k := by
  have hnone : o.receipt = none := by
    unfold Outcome.receipt
    split
    · rename_i hans
      exact absurd hans (h _)
    · rfl
  rw [receipts_append, hnone]
  split <;> simp

theorem receipts_stored {log : List (Text × Outcome ν)} {k : Text} {o : Outcome ν}
    {r : Receipt ν} (h : o.receipt = some r) : receipts (log ++ [(k, o)]) k = receipts log k ++ [r] := by
  rw [receipts_append, if_pos rfl, h]
  rfl

/-! ## The invariant, step by step -/

variable {tokenHash : Text → Text} {t t' : Text → DeviceTables ν} {l l' : List (Text × Outcome ν)}

theorem Accounted.keep (h : Accounted tokenHash t l) (ht : ∀ k, Outside k (t k) (t' k))
    (hl : ∀ k, receipts l' k = receipts l k) : Accounted tokenHash t' l' := by
  refine ⟨?_, ?_, ?_, ?_, ?_⟩
  · intro k
    rw [hl]
    exact h.once k
  · intro k r hr
    rw [hl] at hr
    exact h.valid k r hr
  · intro k seq p
    rw [(ht k).packets, hl]
    exact h.packets k seq p
  · intro k
    rw [(ht k).readings, hl]
    exact h.readings k
  · intro k p
    rw [(ht k).usage, hl]
    exact h.usage k p

theorem Accounted.stored (h : Accounted tokenHash t l) {k : Text} {o : Outcome ν} {r : Receipt ν}
    (present : List (Capability ν)) (ho : o.receipt = some r) (hvalid : r.envelope.Valid)
    (hk : uuidOf r.envelope.dev = k) (hnone : (t k).packets r.envelope.seq = none)
    (hack : r.ack.accepted = true) :
    Accounted tokenHash
      (Function.update t k
        (store present r.envelope r.received (r.packet tokenHash) r.rows (t k)))
      (l ++ [(k, o)]) := by
  have hnew : ∀ r' ∈ receipts l k, r'.envelope.seq ≠ r.envelope.seq := by
    intro r' hr' hseq
    have hthere := (h.packets k r.envelope.seq (r'.packet tokenHash)).mpr ⟨r', hr', hseq, rfl⟩
    rw [hnone] at hthere
    exact absurd hthere (by simp)
  have hself : receipts (l ++ [(k, o)]) k = receipts l k ++ [r] := receipts_stored ho
  have hother : ∀ k', k' ≠ k → receipts (l ++ [(k, o)]) k' = receipts l k' := by
    intro k' hne
    rw [receipts_append, if_neg (Ne.symm hne), List.append_nil]
  refine ⟨?_, ?_, ?_, ?_, ?_⟩
  · intro k'
    by_cases hkk : k' = k
    · subst hkk
      rw [hself, List.map_append, List.nodup_append]
      refine ⟨h.once k', by simp, ?_⟩
      intro a ha b hb
      obtain ⟨r', hr', rfl⟩ := List.mem_map.mp ha
      obtain rfl : b = r.envelope.seq := by simpa using hb
      exact hnew r' hr'
    · rw [hother k' hkk]
      exact h.once k'
  · intro k' r' hr'
    by_cases hkk : k' = k
    · subst hkk
      rw [hself] at hr'
      rcases List.mem_append.mp hr' with hr' | hr'
      · exact h.valid k' r' hr'
      · obtain rfl : r' = r := by simpa using hr'
        exact ⟨hvalid, hk, hack⟩
    · rw [hother k' hkk] at hr'
      exact h.valid k' r' hr'
  · intro k' seq p
    by_cases hkk : k' = k
    · subst hkk
      rw [Function.update_self, store_packets, hself]
      by_cases hseq : seq = r.envelope.seq
      · subst hseq
        rw [Function.update_self]
        refine ⟨fun hp => ⟨r, by simp, rfl, Option.some.inj hp⟩, ?_⟩
        rintro ⟨r', hr', hr'seq, rfl⟩
        rcases List.mem_append.mp hr' with hr' | hr'
        · exact absurd hr'seq (hnew r' hr')
        · obtain rfl : r' = r := by simpa using hr'
          rfl
      · rw [Function.update_of_ne hseq, h.packets k' seq p]
        refine ⟨fun ⟨r', hr', hp⟩ => ⟨r', by simp [hr'], hp⟩, ?_⟩
        rintro ⟨r', hr', hr'seq, hp⟩
        rcases List.mem_append.mp hr' with hr' | hr'
        · exact ⟨r', hr', hr'seq, hp⟩
        · obtain rfl : r' = r := by simpa using hr'
          exact absurd hr'seq.symm hseq
    · rw [Function.update_of_ne hkk, hother k' hkk]
      exact h.packets k' seq p
  · intro k'
    by_cases hkk : k' = k
    · subst hkk
      rw [Function.update_self, store_readings, hself, h.readings k', List.flatMap_append]
      simp
    · rw [Function.update_of_ne hkk, hother k' hkk]
      exact h.readings k'
  · intro k' p
    by_cases hkk : k' = k
    · subst hkk
      rw [Function.update_self, store_usage, hself, List.filter_append]
      by_cases hp : p = period r.received
      · subst hp
        rw [Function.update_self, h.usage, List.filter_cons_of_pos (by simp), List.filter_nil,
          usageOf_append]
      · rw [Function.update_of_ne hp, h.usage k' p,
          List.filter_cons_of_neg (by simpa using Ne.symm hp), List.filter_nil, List.append_nil]
    · rw [Function.update_of_ne hkk, hother k' hkk]
      exact h.usage k' p

omit [JsonNumber ν] in
theorem Outside.refl (k : Text) (s : DeviceTables ν) : Outside k s s := ⟨rfl, rfl, rfl⟩

theorem Accounted.step (h : Accounted tokenHash t l)
    (hs : Serial (requests tokenHash) Outside t l t' l') : Accounted tokenHash t' l' := by
  cases hs with
  | refuse k txn o hreq hun =>
      obtain ⟨q, rfl, rfl⟩ := hreq
      obtain ⟨-, err, hans⟩ := ingest_unmatched tokenHash hun
      refine h.keep (fun k => Outside.refl k _) ?_
      exact receipts_unchanged (fun ack hack => by rw [hans] at hack; exact absurd hack (by simp))
  | outside k s hout =>
      refine h.keep ?_ (fun _ => rfl)
      intro k'
      by_cases hkk : k' = k
      · subst hkk
        rwa [Function.update_self]
      · rw [Function.update_of_ne hkk]
        exact Outside.refl k' _
  | run k txn s o c hreq hun hrun =>
      obtain ⟨q, rfl, rfl⟩ := hreq
      obtain ⟨authorization, body, received, credentialHash, e, rfl, -, hparse, -, hbody⟩ :=
        ingest_matched tokenHash hun
      rw [hbody] at hrun
      have hdevice : (Request.post authorization body received).device = uuidOf e.dev := by
        simp [Request.device, hparse]
      have hreq := (ingestBody_runs tokenHash hrun).request
      rcases (ingestBody_runs tokenHash hrun).all_or_nothing with ⟨hans, hview⟩ |
        ⟨present, ack, hans, hack, hnone, hview⟩
      · rw [hview, Function.update_eq_self]
        exact h.keep (fun k => Outside.refl k _) (receipts_unchanged hans)
      · have ho : o.receipt = some ⟨e, received, ack⟩ := by
          simp only [Outcome.receipt, hreq, hans, hparse, Option.map_some]
        have hnext := h.stored present ho (Envelope.valid_of_safeParse hparse)
          hdevice.symm hnone hack
        rw [hview]
        exact hnext

/-! ## Answers -/

theorem Exit.taken {q : Request ν} {e : Envelope ν} {received : ℤ} {s s' : DeviceTables ν}
    {o : Outcome ν} {c : Bool} {prior : Packet} (h : Exit tokenHash q e received s s' o c)
    (hprior : s.packets e.seq = some prior) (hok : prior.response.accepted = true)
    (hdev : s.device ≠ none) (hauth : authorizes o.capabilities e = some true) :
    (prior.fingerprint = fingerprint tokenHash e → o.answer = .replayed prior.response) ∧
      (prior.fingerprint ≠ fingerprint tokenHash e →
        o.answer = .rejected ⟨409, js "sequence_conflict"⟩) := by
  cases h with
  | broken capabilities hwhy =>
      exfalso
      rcases hwhy with hnone | hnone | hnone
      · exact hdev hnone
      · exact absurd (hauth.symm.trans hnone) (by simp)
      · exact absurd (hprior.symm.trans hnone) (by simp)
  | forbidden capabilities hno => exact absurd (hauth.symm.trans hno) (by simp)
  | conflict capabilities prior' hp hne =>
      obtain rfl := Option.some.inj (hp.symm.trans hprior)
      exact ⟨fun heq => absurd heq hne, fun _ => rfl⟩
  | replay capabilities prior' hp heq =>
      obtain rfl := Option.some.inj (hp.symm.trans hprior)
      exact ⟨fun _ => by simp [hok], fun hne => absurd heq hne⟩
  | unfit capabilities device err _ hnone _ => exact absurd (hprior.symm.trans hnone) (by simp)
  | late capabilities s' hnone => exact absurd (hprior.symm.trans hnone) (by simp)
  | stored capabilities present device rows _ _ hnone =>
      exact absurd (hprior.symm.trans hnone) (by simp)

/-- **Every request is answered from the account.** -/
theorem Accounted.answered [LawfulJson ν] (h : Accounted tokenHash t l)
    (hinj : Function.Injective tokenHash) (hs : Serial (requests tokenHash) Outside t l t' l')
    {k : Text} {o : Outcome ν} (hl : l' = l ++ [(k, o)]) : Answered tokenHash t l t' k o := by
  cases hs with
  | refuse k' txn o' hreq hun =>
      obtain ⟨rfl, rfl⟩ : k' = k ∧ o' = o := by simpa using hl
      obtain ⟨q, rfl, rfl⟩ := hreq
      -- a request that finds no row has no current credential
      have hnot : ∀ e, ¬ Authorized tokenHash (t q.device) o' e := by
        rintro e ⟨authorization, body, received, credentialHash, hq, hhash, hparse, hmatch, -⟩
        rw [(ingest_unmatched tokenHash hun).1] at hq
        subst hq
        simp [ingest, hhash, hparse, hmatch] at hun
      exact ⟨fun _ _ => rfl, fun e he => absurd he (hnot e), fun e he => absurd he (hnot e)⟩
  | outside k' s hout => simp at hl
  | run k' txn s o' c hreq hun hrun =>
      obtain ⟨rfl, rfl⟩ : k' = k ∧ o' = o := by simpa using hl
      obtain ⟨q, -, rfl⟩ := hreq
      obtain ⟨authorization, body, received, credentialHash, e, rfl, -, hparse, hmatch, hbody⟩ :=
        ingest_matched tokenHash hun
      rw [hbody] at hrun
      have hexit := ingestBody_runs tokenHash hrun
      have hsame : (∀ ack, o'.answer ≠ .stored ack) →
          Function.update t k' (if c then s else t k') = t := by
        intro hans
        rcases hexit.all_or_nothing with ⟨-, hview⟩ | ⟨_, ack, hstored, -⟩
        · rw [hview]
          exact Function.update_eq_self _ _
        · exact absurd hstored (hans ack)
      have hdev : (t k').device ≠ none := by
        intro hnone
        simp [matchesDevice, hnone] at hmatch
      have htaken : ∀ e', Authorized tokenHash (t k') o' e' → ∀ r ∈ receipts l k',
          r.envelope.seq = e'.seq →
          (fingerprint tokenHash r.envelope = fingerprint tokenHash e' → o'.answer = .replayed r.ack) ∧
            (fingerprint tokenHash r.envelope ≠ fingerprint tokenHash e' →
              o'.answer = .rejected ⟨409, js "sequence_conflict"⟩) := by
        rintro e' ⟨_, _, _, _, hq, -, hparse', -, hauth⟩ r hr hseq
        rw [hexit.request] at hq
        obtain ⟨rfl, rfl, rfl⟩ := Request.post.inj hq
        obtain rfl : e = e' := Option.some.inj (hparse.symm.trans hparse')
        have hprior := (h.packets _ e.seq (r.packet tokenHash)).mpr ⟨r, hr, hseq, rfl⟩
        exact hexit.taken hprior (h.valid _ r hr).2.2 hdev hauth
      refine ⟨?_, ?_, ?_⟩
      · intro err hrej
        exact hsame (fun ack hack => by rw [hrej] at hack; exact absurd hack (by simp))
      · intro e' hauth r hr hseq hfp
        have hans := (htaken e' hauth r hr hseq).1 hfp.symm
        exact ⟨hans, hsame fun ack hack => by rw [hans] at hack; exact absurd hack (by simp)⟩
      · intro e' hauth r hr hseq hne
        -- different envelopes have different texts, and so different hashes
        have hfp : fingerprint tokenHash r.envelope ≠ fingerprint tokenHash e' := by
          intro heq
          obtain ⟨_, _, _, _, _, _, hparse', _⟩ := hauth
          exact hne (canonical_injective (h.valid _ r hr).1 (Envelope.valid_of_safeParse hparse')
            (hinj heq)).symm
        have hans := (htaken e' hauth r hr hseq).2 hfp
        exact ⟨hans, hsame fun ack hack => by rw [hans] at hack; exact absurd hack (by simp)⟩

omit [JsonNumber ν] in
theorem rowsOf_ordinal {e : Envelope ν} : ∀ {xs : List (WireReading ν)} {n : ℕ},
    (∀ row ∈ rowsOf e xs n, row.seq = e.seq ∧ n ≤ row.ordinal) ∧
      ((rowsOf e xs n).map fun row => (row.seq, row.ordinal)).Nodup
  | [], n => ⟨by simp [rowsOf], by simp [rowsOf]⟩
  | x :: xs, n => by
      obtain ⟨hrows, hnodup⟩ : (∀ row ∈ rowsOf e xs (n + 1), row.seq = e.seq ∧ n + 1 ≤ row.ordinal) ∧
          ((rowsOf e xs (n + 1)).map fun row => (row.seq, row.ordinal)).Nodup := rowsOf_ordinal
      refine ⟨?_, ?_⟩
      · intro row hrow
        rcases List.mem_cons.mp hrow with rfl | hrow
        · exact ⟨rfl, le_refl n⟩
        · exact ⟨(hrows row hrow).1, by have := (hrows row hrow).2; omega⟩
      · rw [rowsOf, List.map_cons, List.nodup_cons]
        refine ⟨?_, hnodup⟩
        intro hmem
        obtain ⟨row, hrow, heq⟩ := List.mem_map.mp hmem
        have hlate := (hrows row hrow).2
        have : row.ordinal = n := congrArg Prod.snd heq
        omega

theorem Fresh.accounted {w : World Text (DeviceTables ν) (Shared ν) (Outcome ν)} (h : Fresh w) :
    Accounted tokenHash w.tables w.log := by
  rw [h.log]
  refine ⟨?_, ?_, ?_, ?_, ?_⟩
  · intro k
    exact List.nodup_nil
  · intro k r hr
    simp [receipts] at hr
  · intro k seq p
    simp [h.packets k seq, receipts]
  · intro k
    simp [h.readings k, receipts]
  · intro k p
    simp [h.usage k p, receipts, usageOf]

theorem accounted_reachable {w₀ w : World Text (DeviceTables ν) (Shared ν) (Outcome ν)}
    (h₀ : Fresh w₀) (hr : Reachable (requests tokenHash) Outside w₀ w) :
    Accounted tokenHash w.tables w.log :=
  hr.serial h₀.sessions h₀.accounted fun _ _ _ _ h hs => h.step hs

/--
**Ingest stores each packet exactly once.**

In every reachable world the tables are what the receipts add up to, and whatever
request is answered next is answered from them.
-/
theorem ingest_exactly_once [LawfulJson ν] (hinj : Function.Injective tokenHash)
    {w₀ w : World Text (DeviceTables ν) (Shared ν) (Outcome ν)} (h₀ : Fresh w₀)
    (hr : Reachable (requests tokenHash) Outside w₀ w) :
    Accounted tokenHash w.tables w.log ∧
      ∀ w' k o, Step (requests tokenHash) Outside w w' → w'.log = w.log ++ [(k, o)] →
        Answered tokenHash w.tables w.log w'.tables k o := by
  have hacc : Accounted tokenHash w.tables w.log := accounted_reachable h₀ hr
  refine ⟨hacc, ?_⟩
  intro w' k o hs hl
  rcases step_serial (LockInv.reachable h₀.sessions hr) hs with ⟨-, hlog⟩ | hser
  · rw [hlog] at hl
    simp at hl
  · exact hacc.answered hinj hser hl

/-! ## Acknowledgements -/

def Answer.ack : Answer → Option Ack
  | .stored ack => some ack
  | .replayed ack => some ack
  | _ => none

omit [JsonNumber ν] in
theorem rowsOf_length {e : Envelope ν} : ∀ (xs : List (WireReading ν)) (n : ℕ), (rowsOf e xs n).length = xs.length
  | [], _ => rfl
  | _ :: xs, n => congrArg (· + 1) (rowsOf_length xs (n + 1))

variable (tokenHash) in
def PacketsCounted (s : DeviceTables ν) : Prop :=
  ∀ seq p, s.packets seq = some p →
    ∃ e : Envelope ν, e.Valid ∧ p.fingerprint = fingerprint tokenHash e ∧ p.response.ok = e.r.length

def Outcome.Counted (o : Outcome ν) : Prop :=
  ∀ e ∈ o.request.envelope, ∀ ack ∈ o.answer.ack, ack.accepted = true ∧ ack.ok = e.r.length

theorem Exit.counted [LawfulJson ν] (hinj : Function.Injective tokenHash) {q : Request ν} {e : Envelope ν} {received : ℤ}
    {s s' : DeviceTables ν} {o : Outcome ν} {c : Bool} (h : Exit tokenHash q e received s s' o c) (hvalid : e.Valid)
    (hcounted : PacketsCounted tokenHash s) :
    (∀ ack ∈ o.answer.ack, ack.accepted = true ∧ ack.ok = e.r.length) ∧ PacketsCounted tokenHash (if c then s' else s) := by
  cases h with
  | replay capabilities prior hprior hsame =>
      refine ⟨?_, hcounted⟩
      intro ack hack
      dsimp only at hack
      split at hack
      · rename_i haccepted
        obtain rfl := Option.some.inj hack
        obtain ⟨e', hvalid', hprint, hok⟩ := hcounted _ _ hprior
        obtain rfl : e' = e := canonical_injective hvalid' hvalid (hinj (hprint.symm.trans hsame))
        exact ⟨haccepted, hok⟩
      · cases hack
  | stored capabilities present device rows _ _ _ _ hrows haccepted =>
      have hcount : ((rows.length : ℕ) : ℤ) = e.r.length := by
        rw [(admission_ok hrows).2, rowsOf_length]
      refine ⟨?_, ?_⟩
      · intro ack hack
        obtain rfl := Option.some.inj hack
        exact ⟨haccepted, hcount⟩
      · intro seq p hp
        rw [if_pos rfl, store_packets] at hp
        by_cases hseq : seq = e.seq
        · subst hseq
          rw [Function.update_self] at hp
          obtain rfl := Option.some.inj hp
          exact ⟨e, hvalid, rfl, hcount⟩
        · rw [Function.update_of_ne hseq] at hp
          exact hcounted _ _ hp
  | _ => exact ⟨nofun, hcounted⟩

structure AllCounted (tokenHash : Text → Text) (tables : Text → DeviceTables ν) (log : List (Text × Outcome ν)) :
    Prop where
  packets : ∀ k, PacketsCounted tokenHash (tables k)
  answers : ∀ entry ∈ log, entry.2.Counted

theorem AllCounted.step [LawfulJson ν] (hinj : Function.Injective tokenHash) (h : AllCounted tokenHash t l)
    (hs : Serial (requests tokenHash) Outside t l t' l') : AllCounted tokenHash t' l' := by
  -- a table that is put in the place of another is counted as well
  have hput : ∀ (k : Text) (s : DeviceTables ν), PacketsCounted tokenHash s →
      ∀ k', PacketsCounted tokenHash (Function.update t k s k') := by
    intro k s hs k'
    by_cases hkk : k' = k
    · subst hkk
      rwa [Function.update_self]
    · rw [Function.update_of_ne hkk]
      exact h.packets k'
  have hlog : ∀ (k : Text) (o : Outcome ν), o.Counted → ∀ entry ∈ l ++ [(k, o)], entry.2.Counted := by
    intro k o ho entry hentry
    rcases List.mem_append.mp hentry with hentry | hentry
    · exact h.answers entry hentry
    · rw [List.mem_singleton.mp hentry]
      exact ho
  cases hs with
  | refuse k txn o hreq hun =>
      obtain ⟨q, rfl, rfl⟩ := hreq
      obtain ⟨_, err, hans⟩ := ingest_unmatched tokenHash hun
      refine ⟨h.packets, hlog _ o ?_⟩
      intro e _ ack hack
      rw [hans] at hack
      cases hack
  | outside k s hout =>
      refine ⟨hput k s ?_, h.answers⟩
      intro seq p hp
      rw [hout.packets] at hp
      exact h.packets k seq p hp
  | run k txn s o c hreq hun hrun =>
      obtain ⟨q, rfl, rfl⟩ := hreq
      obtain ⟨authorization, body, received, credentialHash, e, rfl, _, hparse, _, hbody⟩ := ingest_matched tokenHash hun
      rw [hbody] at hrun
      have hexit := ingestBody_runs tokenHash hrun
      obtain ⟨hack, hpackets⟩ := hexit.counted hinj (Envelope.valid_of_safeParse hparse) (h.packets _)
      refine ⟨hput _ _ hpackets, hlog _ o ?_⟩
      intro e' he'
      rw [hexit.request] at he'
      obtain rfl : e = e' := Option.some.inj (hparse.symm.trans he')
      exact hack

theorem counted_reachable [LawfulJson ν] (hinj : Function.Injective tokenHash)
    {w₀ w : World Text (DeviceTables ν) (Shared ν) (Outcome ν)} (h₀ : Fresh w₀)
    (hr : Reachable (requests tokenHash) Outside w₀ w) : ∀ entry ∈ w.log, entry.2.Counted := by
  have hinit : AllCounted tokenHash w₀.tables w₀.log := by
    refine ⟨?_, ?_⟩
    · intro k seq p hp
      rw [h₀.packets] at hp
      cases hp
    · rw [h₀.log]
      nofun
  exact (hr.serial h₀.sessions hinit fun _ _ _ _ h hs => h.step hinj hs).answers

/-! ## A bench device -/

namespace Bench

def token : Text := List.replicate 43 97

def authorization : Option Text := some (js "Bearer " ++ token)

def device : Text := js "0f8fad5b-d9cb-469f-a165-70867728950e"

def channels : Channels ℚ :=
  ⟨[(js "temperature_c", ⟨js "C", -40, 85⟩), (js "humidity_pct", ⟨js "%", 0, 100⟩)], by decide +kernel⟩

def tables : DeviceTables ℚ :=
  { device := some ⟨id token, false, channels, 300, none, none, none⟩
    packets := fun _ => none
    readings := 0
    latest := fun _ => none
    dirtyHours := fun _ _ => false
    usage := fun _ => none
    presence := fun _ => none }

def shared : Shared ℚ := ⟨0, fun _ => []⟩

def envelope (seq ts : ℤ) (degrees : ℚ) : Envelope ℚ :=
  ⟨device, seq, ts, [⟨js "temperature_c", ts, degrees⟩, ⟨js "humidity_pct", -60, 40⟩],
    ⟨none, some (-60), 60, [js "OK"]⟩⟩

def request (seq ts : ℤ) (degrees : ℚ) : Request ℚ :=
  .post authorization (envelope seq ts degrees).toJson (ts * 1000)

def world : World Text (DeviceTables ℚ) (Shared ℚ) (Outcome ℚ) :=
  { tables := fun _ => tables, shared := shared, sessions := fun _ => none, log := [] }

theorem world_fresh : Fresh world :=
  ⟨fun _ => rfl, rfl, fun _ _ => rfl, fun _ => rfl, fun _ _ => rfl⟩

theorem request_known : requests id (uuidOf device) (ingest id (request 0 1700000000 21)) := by
  refine ⟨request 0 1700000000 21, ?_, rfl⟩
  decide +kernel

end Bench

/-- A packet is stored, and the account holds from there on. -/
theorem ingest_exactly_once_bench :
    ∃ w : World Text (DeviceTables ℚ) (Shared ℚ) (Outcome ℚ),
      (receipts w.log (uuidOf Bench.device)).length = 1 ∧
      (Accounted id w.tables w.log ∧
        ∀ w' k o, Step (requests id) Outside w w' → w'.log = w.log ++ [(k, o)] →
          Answered id w.tables w.log w'.tables k o) := by
  have hinit : Reachable (requests id) Outside Bench.world Bench.world := Reachable.init
  obtain ⟨w, hr, -, -, hlog, -⟩ := hinit.alone Bench.request_known fun _ => rfl
  refine ⟨w, ?_, ingest_exactly_once Function.injective_id Bench.world_fresh hr⟩
  rw [hlog]
  decide +kernel

end Albusforge.Cloudlink
