import Albusforge.SignIn.System

/-!
# The codes of an address

Whoever has the lock of an address is the only one to change its codes, so what a `verifyCode` has found is
still there when it writes (`CodeOk`). A code that has not been consumed is the last one that was issued for
its address, and its counter says how often it was entered wrongly (`RowOk`).
-/

namespace Albusforge.SignIn

open Lib Lib.ReadCommitted Sessions

/-! ## What a run has shown -/

def issues (es : List Event) : List EmailCode :=
  es.filterMap fun e => match e with | .issued c => some c | _ => none

def misses (id : Text) (es : List Event) : ℕ :=
  es.countP fun e => match e with | .missed _ i => i = id | _ => false

def verifications (id : Text) (es : List Event) : ℕ :=
  es.countP fun e => match e with | .verified _ _ i _ => i = id | _ => false

def latest (email : Text) (es : List Event) : Option EmailCode :=
  ((issues es).filter fun c => c.email = email).getLast?

def Event.Silent : Event → Prop
  | .issued _ => False
  | .missed _ _ => False
  | .verified _ _ _ _ => False
  | _ => True

section

variable {es : List Event} {e : Event} {c : EmailCode} {email id id' tenantId : Text} {t : ℕ} {q : VerifyRequest}

theorem issues_append : issues (es ++ [e]) = issues es ++ issues [e] := List.filterMap_append ..

theorem misses_append : misses id (es ++ [e]) = misses id es + misses id [e] := List.countP_append ..

theorem verifications_append : verifications id (es ++ [e]) = verifications id es + verifications id [e] :=
  List.countP_append ..

theorem silent_issues (h : e.Silent) : issues [e] = [] := by
  cases e with
  | issued _ => exact h.elim
  | _ => rfl

theorem silent_misses (h : e.Silent) : misses id [e] = 0 := by
  cases e with
  | missed _ _ => exact h.elim
  | _ => rfl

theorem silent_verifications (h : e.Silent) : verifications id [e] = 0 := by
  cases e with
  | verified _ _ _ _ => exact h.elim
  | _ => rfl

theorem latest_of_issues (h : issues [e] = []) : latest email (es ++ [e]) = latest email es := by
  rw [latest, issues_append, h, List.append_nil, latest]

theorem latest_issued : latest email (es ++ [.issued c]) = if c.email = email then some c else latest email es := by
  rw [latest, issues_append, List.filter_append]
  change (_ ++ List.filter _ [c]).getLast? = _
  by_cases h : c.email = email
  · rw [if_pos h, List.filter_cons_of_pos (by simpa using h), List.getLast?_append]
    rfl
  · rw [if_neg h, List.filter_cons_of_neg (by simpa using h), List.filter_nil, List.append_nil, latest]

end

/-! ## Rows -/

def EmailCode.asIssued (c : EmailCode) : EmailCode := { c with attempts := 0, consumedAt := none }

/-- A code that can be entered at `now`. -/
def EmailCode.Live (email : Text) (now : ℤ) (c : EmailCode) : Prop :=
  c.email = email ∧ c.consumedAt = none ∧ now < c.expiresAt

theorem newest_mem {codes : List EmailCode} {c : EmailCode} (h : newest codes = some c) : c ∈ codes := by
  induction codes generalizing c with
  | nil => exact absurd h (by simp [newest])
  | cons d rest ih =>
    rw [newest] at h
    split at h
    · obtain rfl := Option.some.inj h
      exact List.mem_cons_self
    · rename_i best hbest
      split at h
      · obtain rfl := Option.some.inj h
        exact List.mem_cons_of_mem d (ih hbest)
      · obtain rfl := Option.some.inj h
        exact List.mem_cons_self

theorem liveCode_live {codes : List EmailCode} {email : Text} {now : ℤ} {c : EmailCode}
    (h : liveCode codes email now = some c) : c ∈ codes ∧ c.Live email now := by
  obtain ⟨hc, hlive⟩ := List.mem_filter.mp (newest_mem h)
  simp only [Bool.and_eq_true, decide_eq_true_eq, Option.isNone_iff_eq_none] at hlive
  exact ⟨hc, hlive.1.1, hlive.1.2, hlive.2⟩

section

variable (hash : Text → Text)

/-- What is so of a row after the events `es`. -/
structure RowOk (es : List Event) (c : EmailCode) : Prop where
  issued : c.asIssued ∈ issues es
  attempts : misses c.id es = c.attempts
  once : verifications c.id es ≤ 1
  spare : c.consumedAt = none → c.attempts < CODE_MAX_ATTEMPTS ∧ verifications c.id es = 0 ∧
    latest c.email es = some c.asIssued

/-- The code that a `verifyCode` has found right. -/
def Task.right : Task → Option (VerifyRequest × Text)
  | .checked q (.hit id) => some (q, id)
  | .claiming q id _ _ _ => some (q, id)
  | .ready q id _ => some (q, id)
  | _ => none

/-- What a `verifyCode` has found. -/
structure CodeOk (codes : List EmailCode) (x : Task) : Prop where
  right : ∀ q id, x.right = some (q, id) → ∃ c ∈ codes, c.id = id ∧ c.Live q.email q.now ∧
    hashCode hash id q.code = c.codeHash
  missed : ∀ q id n, x = .checked q (.missed id n) → ∃ c ∈ codes, c.id = id ∧ c.Live q.email q.now ∧
    n = c.attempts + 1

structure CodesInv (es : List Event) (codes : List EmailCode) (tasks : ℕ → Task) : Prop where
  alone : ∀ t u a, (tasks t).lock = some a → (tasks u).lock = some a → t = u
  nodup : (codes.map EmailCode.id).Nodup
  one : ∀ c ∈ codes, ∀ d ∈ codes, c.email = d.email → c.consumedAt = none → d.consumedAt = none → c = d
  rows : ∀ c ∈ codes, RowOk es c
  unknown : ∀ id, (∀ c ∈ codes, c.id ≠ id) → misses id es = 0 ∧ verifications id es = 0
  task : ∀ t, CodeOk hash codes (tasks t)

end

/-! ## Changes -/

section

variable {hash : Text → Text} {es : List Event} {e : Event} {codes codes' : List EmailCode} {tasks : ℕ → Task}
  {t : ℕ} {x : Task} {c d : EmailCode} {a : Text}

theorem row_unique (h : (codes.map EmailCode.id).Nodup) (hc : c ∈ codes) (hd : d ∈ codes) (hid : c.id = d.id) :
    c = d := List.inj_on_of_nodup_map h hc hd hid

theorem right_lock {q : VerifyRequest} {id : Text} (h : x.right = some (q, id)) : x.lock = some q.email := by
  cases x with
  | checked q' k =>
    cases k with
    | hit id' =>
      obtain ⟨rfl, -⟩ := Prod.mk.inj (Option.some.inj h)
      rfl
    | _ => simp [Task.right] at h
  | claiming q' _ _ _ _ =>
    obtain ⟨rfl, -⟩ := Prod.mk.inj (Option.some.inj h)
    rfl
  | ready q' _ _ =>
    obtain ⟨rfl, -⟩ := Prod.mk.inj (Option.some.inj h)
    rfl
  | _ => simp [Task.right] at h

theorem CodeOk.of_no_lock (h : x.lock = none) : CodeOk hash codes x := by
  refine ⟨?_, ?_⟩
  · intro q id hright
    exact absurd (h.symm.trans (right_lock hright)) (by simp)
  · intro q id n heq
    exact absurd (heq ▸ h) (by simp [Task.lock])

theorem CodeOk.frame (hx : CodeOk hash codes x) (hlock : x.lock ≠ some a)
    (hkeep : ∀ c ∈ codes, c.email ≠ a → c ∈ codes') : CodeOk hash codes' x := by
  refine ⟨?_, ?_⟩
  · intro q id hright
    obtain ⟨c, hc, hid, hlive, hhash⟩ := hx.right q id hright
    exact ⟨c, hkeep c hc fun h => hlock ((right_lock hright).trans (by rw [← h, hlive.1])), hid, hlive, hhash⟩
  · intro q id n heq
    obtain ⟨c, hc, hid, hlive, hn⟩ := hx.missed q id n heq
    refine ⟨c, hkeep c hc ?_, hid, hlive, hn⟩
    intro h
    exact hlock (by rw [heq, ← h, hlive.1]; rfl)

theorem RowOk.after (h : RowOk es c) (hd : d.asIssued = c.asIssued)
    (hattempts : d.attempts = c.attempts + misses c.id [e])
    (honce : verifications c.id es + verifications c.id [e] ≤ 1)
    (hspare : d.consumedAt = none → c.consumedAt = none ∧ d.attempts < CODE_MAX_ATTEMPTS ∧
      verifications c.id [e] = 0 ∧ latest c.email (es ++ [e]) = latest c.email es) : RowOk (es ++ [e]) d := by
  have hid : d.asIssued.id = c.asIssued.id := by rw [hd]
  have hemail : d.asIssued.email = c.asIssued.email := by rw [hd]
  change d.id = c.id at hid
  change d.email = c.email at hemail
  refine ⟨?_, ?_, ?_, ?_⟩
  · rw [issues_append, hd]
    exact List.mem_append_left _ h.issued
  · rw [misses_append, hid, h.attempts, hattempts]
  · rw [verifications_append, hid]
    exact honce
  · intro hnone
    obtain ⟨hcnone, hlt, hverified, hlatest⟩ := hspare hnone
    obtain ⟨-, hzero, hlast⟩ := h.spare hcnone
    rw [verifications_append, hid, hzero, hverified, hemail, hlatest, hlast, hd]
    exact ⟨hlt, rfl, rfl⟩

theorem RowOk.other (h : RowOk es c) (hmisses : misses c.id [e] = 0) (hverified : verifications c.id [e] = 0)
    (hlatest : latest c.email (es ++ [e]) = latest c.email es) : RowOk (es ++ [e]) c :=
  h.after rfl (by rw [hmisses, Nat.add_zero]) (by rw [hverified, Nat.add_zero]; exact h.once)
    fun hnone => ⟨hnone, (h.spare hnone).1, hverified, hlatest⟩

theorem CodesInv.next (hs : CodesInv hash es codes tasks) (he : e.Silent)
    (hlock : ∀ a, x.lock = some a → ∀ u, (tasks u).lock = some a → u = t) (hx : CodeOk hash codes x) :
    CodesInv hash (es ++ [e]) codes (Function.update tasks t x) := by
  refine ⟨?_, hs.nodup, hs.one, ?_, ?_, ?_⟩
  · intro u v a hu hv
    by_cases hut : u = t
    · by_cases hvt : v = t
      · rw [hut, hvt]
      · subst hut
        rw [Function.update_self] at hu
        rw [Function.update_of_ne hvt] at hv
        exact (hlock a hu v hv).symm
    · rw [Function.update_of_ne hut] at hu
      by_cases hvt : v = t
      · subst hvt
        rw [Function.update_self] at hv
        exact hlock a hv u hu
      · rw [Function.update_of_ne hvt] at hv
        exact hs.alone u v a hu hv
  · intro c hc
    exact (hs.rows c hc).other (silent_misses he) (silent_verifications he) (latest_of_issues (silent_issues he))
  · intro id hid
    obtain ⟨hmisses, hverified⟩ := hs.unknown id hid
    rw [misses_append, verifications_append, silent_misses he, silent_verifications he, hmisses, hverified]
    exact ⟨rfl, rfl⟩
  · exact (Function.forall_update_iff tasks _).mpr ⟨hx, fun u _ => hs.task u⟩

structure Marks (codes : List EmailCode) (a : Text) (f : EmailCode → EmailCode) : Prop where
  id : ∀ c, (f c).id = c.id
  email : ∀ c, (f c).email = c.email
  spent : ∀ c, (f c).consumedAt = none → c.consumedAt = none
  elsewhere : ∀ c ∈ codes, c.email ≠ a → f c = c

section

variable {f : EmailCode → EmailCode}

theorem Marks.ids (hf : Marks codes a f) : (codes.map f).map EmailCode.id = codes.map EmailCode.id := by
  rw [List.map_map]
  exact List.map_congr_left fun c _ => hf.id c

theorem Marks.one (hf : Marks codes a f)
    (h : ∀ c ∈ codes, ∀ d ∈ codes, c.email = d.email → c.consumedAt = none → d.consumedAt = none → c = d) :
    ∀ c ∈ codes.map f, ∀ d ∈ codes.map f, c.email = d.email → c.consumedAt = none → d.consumedAt = none →
      c = d := by
  intro c' hc' d' hd' hemail hcn hdn
  obtain ⟨c, hc, rfl⟩ := List.mem_map.mp hc'
  obtain ⟨d, hd, rfl⟩ := List.mem_map.mp hd'
  rw [hf.email, hf.email] at hemail
  rw [h c hc d hd hemail (hf.spent c hcn) (hf.spent d hdn)]

theorem Marks.keep (hf : Marks codes a f) (hc : c ∈ codes) (hne : c.email ≠ a) : c ∈ codes.map f :=
  List.mem_map.mpr ⟨c, hc, hf.elsewhere c hc hne⟩

theorem CodesInv.over_alone (hs : CodesInv hash es codes tasks) :
    ∀ u v b, (Function.update tasks t .over u).lock = some b → (Function.update tasks t .over v).lock = some b →
      u = v := by
  intro u v b hu hv
  have hne : ∀ {w : ℕ}, (Function.update tasks t .over w).lock = some b → w ≠ t := by
    intro w hw h
    rw [h, Function.update_self] at hw
    exact absurd hw (by simp [Task.lock])
  rw [Function.update_of_ne (hne hu)] at hu
  rw [Function.update_of_ne (hne hv)] at hv
  exact hs.alone u v b hu hv

theorem CodesInv.over_task (hs : CodesInv hash es codes tasks) (hlock : (tasks t).lock = some a)
    (hkeep : ∀ c ∈ codes, c.email ≠ a → c ∈ codes') (u : ℕ) :
    CodeOk hash codes' (Function.update tasks t .over u) := by
  by_cases hu : u = t
  · rw [hu, Function.update_self]
    exact .of_no_lock rfl
  · rw [Function.update_of_ne hu]
    exact (hs.task u).frame (fun h => hu (hs.alone u t a h hlock)) hkeep

theorem CodesInv.mark (hs : CodesInv hash es codes tasks) (hlock : (tasks t).lock = some a)
    (hf : Marks codes a f) (hrows : ∀ c ∈ codes, RowOk (es ++ [e]) (f c))
    (hunknown : ∀ id, (∀ c ∈ codes, c.id ≠ id) → misses id [e] = 0 ∧ verifications id [e] = 0) :
    CodesInv hash (es ++ [e]) (codes.map f) (Function.update tasks t .over) := by
  refine ⟨hs.over_alone, ?_, hf.one hs.one, ?_, ?_, hs.over_task hlock fun c hc hne => hf.keep hc hne⟩
  · rw [hf.ids]
    exact hs.nodup
  · intro d hd
    obtain ⟨c, hc, rfl⟩ := List.mem_map.mp hd
    exact hrows c hc
  · intro id hid
    have hold : ∀ c ∈ codes, c.id ≠ id := by
      intro c hc
      rw [← hf.id c]
      exact hid (f c) (List.mem_map_of_mem hc)
    obtain ⟨hmisses, hverified⟩ := hs.unknown id hold
    rw [misses_append, verifications_append, hmisses, hverified, (hunknown id hold).1, (hunknown id hold).2]
    exact ⟨rfl, rfl⟩

/-- **A code is issued**, and every other one of the address is consumed. -/
theorem CodesInv.issue {q : IssueRequest} (hs : CodesInv hash es codes tasks)
    (hlock : (tasks t).lock = some q.email) (hnew : ∀ c ∈ codes, c.id ≠ q.id) :
    CodesInv hash (es ++ [.issued (q.row hash)]) (issueCode hash q codes) (Function.update tasks t .over) := by
  have hf : Marks codes q.email fun c =>
      if c.email = q.email ∧ c.consumedAt = none then { c with consumedAt := some q.now } else c := by
    refine ⟨?_, ?_, ?_, ?_⟩
    · intro c
      split
      · rfl
      · rfl
    · intro c
      split
      · rfl
      · rfl
    · intro c
      split
      · simp
      · exact id
    · intro c _ hne
      exact if_neg fun h => hne h.1
  have hspent : ∀ c ∈ consumeAll q.email q.now codes, c.email = q.email → c.consumedAt ≠ none := by
    intro d hd hemail
    obtain ⟨c, hc, rfl⟩ := List.mem_map.mp hd
    split
    · simp
    · rename_i hcond
      rw [if_neg hcond] at hemail
      exact fun h => hcond ⟨hemail, h⟩
  have hrow : (q.row hash).email = q.email := rfl
  refine ⟨hs.over_alone, ?_, ?_, ?_, ?_, ?_⟩
  · rw [issueCode, List.map_append, consumeAll, hf.ids]
    refine List.nodup_append.mpr ⟨hs.nodup, List.nodup_singleton _, ?_⟩
    intro id hid id' hid' heq
    obtain ⟨c, hc, rfl⟩ := List.mem_map.mp hid
    rw [List.map_singleton, List.mem_singleton] at hid'
    exact hnew c hc (heq.trans hid')
  · intro c hc d hd hemail hcn hdn
    rcases List.mem_append.mp hc with hc | hc
    · rcases List.mem_append.mp hd with hd | hd
      · exact hf.one hs.one c hc d hd hemail hcn hdn
      · rw [List.mem_singleton] at hd
        exact absurd hcn (hspent c hc (hemail.trans (hd ▸ hrow)))
    · rw [List.mem_singleton] at hc
      rcases List.mem_append.mp hd with hd | hd
      · exact absurd hdn (hspent d hd (hemail.symm.trans (hc ▸ hrow)))
      · rw [List.mem_singleton] at hd
        rw [hc, hd]
  · intro d hd
    rcases List.mem_append.mp hd with hd | hd
    · obtain ⟨c, hc, rfl⟩ := List.mem_map.mp hd
      have hrowc := hs.rows c hc
      split
      · exact hrowc.after rfl rfl hrowc.once (by simp)
      · rename_i hcond
        refine hrowc.after rfl rfl hrowc.once ?_
        intro hnone
        refine ⟨hnone, (hrowc.spare hnone).1, rfl, ?_⟩
        rw [latest_issued, if_neg]
        intro hemail
        exact hcond ⟨hemail.symm, hnone⟩
    · rw [List.mem_singleton] at hd
      subst hd
      obtain ⟨hmisses, hverified⟩ := hs.unknown q.id hnew
      refine ⟨?_, ?_, ?_, ?_⟩
      · rw [issues_append]
        exact List.mem_append_right _ List.mem_cons_self
      · rw [misses_append]
        exact hmisses
      · rw [verifications_append]
        exact hverified.le.trans zero_le_one
      · intro _
        rw [verifications_append, latest_issued, if_pos rfl]
        exact ⟨(by decide : 0 < CODE_MAX_ATTEMPTS), hverified, rfl⟩
  · intro id hid
    have hold : ∀ c ∈ codes, c.id ≠ id := by
      intro c hc
      rw [← hf.id c]
      exact hid _ (List.mem_append_left _ (List.mem_map_of_mem hc))
    obtain ⟨hmisses, hverified⟩ := hs.unknown id hold
    rw [misses_append, verifications_append, hmisses, hverified]
    exact ⟨rfl, rfl⟩
  · refine hs.over_task hlock ?_
    intro c hc hne
    exact List.mem_append_left _ (hf.keep hc hne)

theorem CodesInv.miss {q : VerifyRequest} {id : Text} {n : ℕ} (hs : CodesInv hash es codes tasks)
    (htask : tasks t = .checked q (.missed id n)) :
    CodesInv hash (es ++ [.missed q.email id]) (countMiss id n q.now codes) (Function.update tasks t .over) := by
  obtain ⟨c₀, hc₀, rfl, ⟨hemail, hnone, -⟩, rfl⟩ := (hs.task t).missed q id n htask
  have hsame : ∀ c ∈ codes, c.id = c₀.id → c = c₀ := fun c hc hid => row_unique hs.nodup hc hc₀ hid
  refine hs.mark (a := q.email) (by rw [htask]; rfl) ⟨?_, ?_, ?_, ?_⟩ ?_ ?_
  · intro c
    split
    · rfl
    · rfl
  · intro c
    split
    · rfl
    · rfl
  · intro c
    split
    · dsimp only
      split
      · simp
      · exact id
    · exact id
  · intro c hc hne
    refine if_neg ?_
    intro hid
    exact hne ((hsame c hc hid) ▸ hemail)
  · intro c hc
    have hrow := hs.rows c hc
    split
    · rename_i hid
      obtain rfl := hsame c hc hid
      have hone : misses c.id [.missed q.email c.id] = 1 := by simp [misses]
      refine hrow.after rfl (by rw [hone]) hrow.once ?_
      dsimp only
      split
      · simp
      · intro _
        exact ⟨hnone, by omega, rfl, latest_of_issues rfl⟩
    · rename_i hid
      refine hrow.other ?_ rfl (latest_of_issues rfl)
      simp [misses, Ne.symm hid]
  · intro id' hid'
    have hne : c₀.id ≠ id' := hid' c₀ hc₀
    simp [misses, verifications, hne]

theorem CodesInv.verify {q : VerifyRequest} {id tenantId : Text} (hs : CodesInv hash es codes tasks)
    (htask : (tasks t).right = some (q, id)) :
    CodesInv hash (es ++ [.verified t q id tenantId]) (consume id q.now codes) (Function.update tasks t .over) := by
  obtain ⟨c₀, hc₀, rfl, ⟨hemail, hnone, -⟩, -⟩ := (hs.task t).right q id htask
  have hsame : ∀ c ∈ codes, c.id = c₀.id → c = c₀ := fun c hc hid => row_unique hs.nodup hc hc₀ hid
  refine hs.mark (a := q.email) (right_lock htask) ⟨?_, ?_, ?_, ?_⟩ ?_ ?_
  · intro c
    split
    · rfl
    · rfl
  · intro c
    split
    · rfl
    · rfl
  · intro c
    split
    · simp
    · exact id
  · intro c hc hne
    refine if_neg ?_
    intro hid
    exact hne ((hsame c hc hid) ▸ hemail)
  · intro c hc
    have hrow := hs.rows c hc
    split
    · rename_i hid
      obtain rfl := hsame c hc hid
      have hone : verifications c.id [.verified t q c.id tenantId] = 1 := by simp [verifications]
      refine hrow.after rfl rfl ?_ (by simp)
      rw [hone, (hrow.spare hnone).2.1]
    · rename_i hid
      refine hrow.other rfl ?_ (latest_of_issues rfl)
      simp [verifications, Ne.symm hid]
  · intro id' hid'
    have hne : c₀.id ≠ id' := hid' c₀ hc₀
    simp [misses, verifications, hne]

end

end

/-! ## Runs -/

section

variable {hash : Text → Text} {mail : Text → Prop} {s s' : State} {e : Event} {es : List Event} {t : ℕ}

theorem init_codes (h : (signInService hash mail).init s) : CodesInv hash [] s.codes s.tasks := by
  obtain ⟨hcodes, -, -, htasks⟩ := h
  refine ⟨?_, ?_, ?_, ?_, fun id _ => ⟨rfl, rfl⟩, ?_⟩
  · intro t u a ht
    rw [htasks] at ht
    exact absurd ht (by simp [Task.lock])
  · rw [hcodes]
    exact List.nodup_nil
  · simp [hcodes]
  · simp [hcodes]
  · intro t
    rw [htasks]
    exact .of_no_lock rfl

theorem check_ok {codes : List EmailCode} {q : VerifyRequest} :
    CodeOk hash codes (.checked q (check hash codes q)) := by
  have hfound : ∀ {c}, liveCode codes q.email q.now = some c → c ∈ codes ∧ c.Live q.email q.now := liveCode_live
  refine ⟨?_, ?_⟩
  · intro q' id hright
    rw [check] at hright
    split at hright
    · exact absurd hright (by simp [Task.right])
    · rename_i c hc
      split at hright
      · exact absurd hright (by simp [Task.right])
      · rename_i hhash
        obtain ⟨rfl, rfl⟩ := Prod.mk.inj (Option.some.inj hright)
        exact ⟨c, (hfound hc).1, rfl, (hfound hc).2, not_not.mp hhash⟩
  · intro q' id n heq
    obtain ⟨rfl, hcheck⟩ := Task.checked.inj heq
    rw [check] at hcheck
    split at hcheck
    · exact absurd hcheck (by simp)
    · rename_i c hc
      split at hcheck
      · obtain ⟨rfl, rfl⟩ := Checked.missed.inj hcheck
        exact ⟨c, (hfound hc).1, rfl, (hfound hc).2, rfl⟩
      · exact absurd hcheck (by simp)

theorem step_codes (hs : CodesInv hash es s.codes s.tasks) (h : SignInStep hash mail t s e s') :
    CodesInv hash (es ++ [e]) s'.codes s'.tasks := by
  -- a step to a task that has found no code
  have key : ∀ {t : ℕ} {x : Task}, e.Silent → x.lock = none →
      CodesInv hash (es ++ [e]) s.codes (Function.update s.tasks t x) := by
    intro t x he hlock
    exact hs.next he (by simp [hlock]) (.of_no_lock hlock)
  -- a step of a task that keeps the code that it has found
  have keep : ∀ {t : ℕ} {x : Task}, e.Silent → (s.tasks t).right = x.right → x.right ≠ none →
      (∀ q id n, x ≠ .checked q (.missed id n)) →
      CodesInv hash (es ++ [e]) s.codes (Function.update s.tasks t x) := by
    intro t x he hright hsome hmissed
    obtain ⟨⟨q, id⟩, hx⟩ := Option.ne_none_iff_exists'.mp hsome
    refine hs.next he ?_ ⟨?_, fun q id n heq => absurd heq (hmissed q id n)⟩
    · intro a ha u hu
      exact hs.alone u t a hu (by rw [right_lock (hright.trans hx), ← right_lock hx, ha])
    · intro q' id' hq'
      exact (hs.task t).right q' id' (hright.trans hq')
  cases h with
  | beginIssue _ _ => exact key trivial rfl
  | beginVerify _ _ => exact key trivial rfl
  | beginCreate _ _ => exact key trivial rfl
  | beginRecord _ _ => exact key trivial rfl
  | lockIssue _ hfree =>
    refine hs.next trivial ?_ ⟨by simp [Task.right], by simp⟩
    intro a ha u hu
    obtain rfl := Option.some.inj ha
    exact hfree u hu
  | commitIssue htask hnew => exact hs.issue (by rw [htask]; rfl) hnew
  | lockVerify _ hfree =>
    refine hs.next trivial ?_ check_ok
    intro a ha u hu
    obtain rfl := Option.some.inj ha
    exact hfree u hu
  | commitRejected _ => exact key trivial rfl
  | commitMissed htask => exact hs.miss htask
  | signIn htask _ _ => exact keep trivial (by rw [htask]; rfl) (by simp [Task.right]) (by simp)
  | claim htask _ _ => exact keep trivial (by rw [htask]; rfl) (by simp [Task.right]) (by simp)
  | claimBuild htask _ _ => exact keep trivial (by rw [htask]; rfl) (by simp [Task.right]) (by simp)
  | claimSpend htask _ => exact keep trivial (by rw [htask]; rfl) (by simp [Task.right]) (by simp)
  | claimCall htask _ _ => exact keep trivial (by rw [htask]; rfl) (by simp [Task.right]) (by simp)
  | claimed htask _ => exact keep trivial (by rw [htask]; rfl) (by simp [Task.right]) (by simp)
  | commitVerified htask => exact hs.verify (by rw [htask]; rfl)
  | commitCreate _ => exact key trivial rfl
  | lockBuild _ _ _ _ => exact key trivial rfl
  | missBuild _ _ _ => exact key trivial rfl
  | noBuild _ _ => exact key trivial rfl
  | insertCall _ _ => exact key trivial rfl
  | commitCall _ => exact key trivial rfl
  | fail _ _ => exact key trivial rfl

theorem run_codes (h : (signInService hash mail).Run es s) : CodesInv hash es s.codes s.tasks := by
  refine h.invariant (I := fun es s => CodesInv hash es s.codes s.tasks) (fun _ => init_codes) ?_
  intro es s e s' hs ⟨t, hstep⟩ _
  exact step_codes hs hstep

end

end Albusforge.SignIn
