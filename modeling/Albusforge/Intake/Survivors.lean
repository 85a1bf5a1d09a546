import Albusforge.Intake.Decide

/-!
# What a decision makes of a valid turn

Of the candidate questions of a turn, the first about a part is kept as long as there are rounds left,
and no other (`filterQuestions_kept`). All else that a decision puts together stays within the schema, so **a
valid turn is lost exactly if the question that is kept is blank** (`decide_parses_iff`). The reply gate
counts the questions about other fields and those over a cap, but not the ones that repeat a field: **the
model's reply is used only for questions that are all asked exactly if none repeats a field with other
words** (`reply_used_iff`).
-/

namespace Albusforge.Intake

open Albusforge.Lib Albusforge.Gateway

/-! ## The questions that are kept -/

def OpenQuestion.relevant (candidate : OpenQuestion) : Bool :=
  solverRelevantFields.contains (Lib.trim candidate.field)

section

variable {f : QuestionFilter} {candidate : OpenQuestion} {candidates : List OpenQuestion}

theorem QuestionFilter.take_irrelevant {capReached : Bool} (h : candidate.relevant = false) :
    f.take capReached candidate = { f with irrelevant := f.irrelevant ++ [candidate] } := by
  unfold QuestionFilter.take
  dsimp only
  rw [if_pos (by simpa [OpenQuestion.relevant] using h)]

theorem QuestionFilter.take_repeated {capReached : Bool} (h : candidate.relevant = true)
    (hseen : Lib.trim candidate.field ∈ f.seen) : f.take capReached candidate = f := by
  unfold QuestionFilter.take
  dsimp only
  rw [if_neg (by simpa [OpenQuestion.relevant] using h), if_pos (by simpa using hseen)]

theorem QuestionFilter.take_capped {capReached : Bool} (h : candidate.relevant = true)
    (hseen : Lib.trim candidate.field ∉ f.seen) (hfull : capReached = true ∨ f.kept ≠ []) :
    f.take capReached candidate = { f with
      seen := Lib.trim candidate.field :: f.seen, cappedOut := f.cappedOut ++ [candidate.tidied] } := by
  have hcap : (capReached || decide (maxQuestionsPerRound ≤ f.kept.length)) = true := by
    rcases hfull with hcap | hkept
    · rw [hcap, Bool.true_or]
    · have hfull : maxQuestionsPerRound ≤ f.kept.length := List.length_pos_iff.mpr hkept
      rw [decide_eq_true hfull, Bool.or_true]
  unfold QuestionFilter.take
  dsimp only
  rw [if_neg (by simpa [OpenQuestion.relevant] using h), if_neg (by simpa using hseen), if_pos hcap]

theorem QuestionFilter.take_first (h : candidate.relevant = true) (hseen : Lib.trim candidate.field ∉ f.seen)
    (hkept : f.kept = []) : f.take false candidate = { f with
      seen := Lib.trim candidate.field :: f.seen, kept := [candidate.tidied] } := by
  unfold QuestionFilter.take
  dsimp only
  rw [if_neg (by simpa [OpenQuestion.relevant] using h), if_neg (by simpa using hseen), if_neg (by simp [hkept]), hkept,
    List.nil_append]

theorem kept_stays {capReached : Bool} (h : f.kept ≠ []) :
    (candidates.foldl (fun f c => f.take capReached c) f).kept = f.kept := by
  induction candidates generalizing f with
  | nil => rfl
  | cons c rest ih =>
      have hone : (f.take capReached c).kept = f.kept := by
        cases hrelevant : c.relevant with
        | false => rw [QuestionFilter.take_irrelevant hrelevant]
        | true =>
            by_cases hseen : Lib.trim c.field ∈ f.seen
            · rw [QuestionFilter.take_repeated hrelevant hseen]
            · rw [QuestionFilter.take_capped hrelevant hseen (Or.inr h)]
      rw [List.foldl_cons, ih (hone ▸ h), hone]

theorem filterQuestions_kept (candidates : List OpenQuestion) (roundsUsed : ℕ) :
    (filterQuestions candidates roundsUsed).kept =
      if maxClarificationRounds ≤ roundsUsed then []
      else ((candidates.find? OpenQuestion.relevant).map OpenQuestion.tidied).toList := by
  split
  · rename_i hcap
    exact (filterQuestions_sound candidates roundsUsed).capped (decide_eq_true hcap)
  · rename_i hcap
    have key : ∀ (l : List OpenQuestion) (f : QuestionFilter), f.kept = [] → f.seen = [] →
        (l.foldl (fun f c => f.take false c) f).kept =
          ((l.find? OpenQuestion.relevant).map OpenQuestion.tidied).toList := by
      intro l
      induction l with
      | nil =>
          intro f hkept _
          exact hkept
      | cons c l ih =>
          intro f hkept hseen
          rw [List.foldl_cons]
          cases hrelevant : c.relevant with
          | false =>
              rw [QuestionFilter.take_irrelevant hrelevant, List.find?_cons_of_neg (by simp [hrelevant])]
              exact ih _ hkept hseen
          | true =>
              rw [QuestionFilter.take_first hrelevant (by simp [hseen]) hkept, List.find?_cons_of_pos hrelevant,
                kept_stays (by simp)]
              rfl
    unfold filterQuestions
    rw [decide_eq_false hcap]
    exact key candidates ⟨[], [], [], []⟩ rfl rfl

end

/-! ## What the schema goes on accepting -/

theorem mem_lastOf {α : Type} {n : ℕ} {l : List α} {a : α} (h : a ∈ lastOf n l) : a ∈ l := List.mem_of_mem_drop h

theorem length_lastOf {α : Type} (n : ℕ) (l : List α) : (lastOf n l).length ≤ n := by
  rw [lastOf, List.length_drop]
  omega

theorem length_eraseDups (l : List Text) : l.eraseDups.length ≤ l.length := by
  induction hn : l.length using Nat.strong_induction_on generalizing l with
  | _ n ih =>
      cases l with
      | nil => simp
      | cons a l =>
          have hfewer : (l.filter fun b => !b == a).length ≤ l.length := List.length_filter_le _ _
          rw [List.length_cons] at hn
          have hrest := ih _ (by omega) (l.filter fun b => !b == a) rfl
          rw [List.eraseDups_cons, List.length_cons]
          omega

theorem all_of_subset {α : Type} {l l' : List α} {p : α → Bool} (h : l.all p = true) (hsub : ∀ a ∈ l', a ∈ l) :
    l'.all p = true := by
  rw [List.all_eq_true] at h ⊢
  exact fun a ha => h a (hsub a ha)

theorem orElse_all {α : Type} {o o' : Option α} {p : α → Bool} (h : o.all p = true) (h' : o'.all p = true) :
    (o <|> o').all p = true := by
  cases o with
  | none => exact h'
  | some a => exact h

theorem getD_all {α : Type} {o : Option α} {a : α} {p : α → Bool} (h : o.all p = true) (ha : p a = true) :
    p (o.getD a) = true := by
  cases o with
  | none => exact ha
  | some b => exact h

theorem map_getD {α β : Type} {o : Option α} {b : β} {g : α → β} {p : α → Bool} {q : β → Bool} (h : o.all p = true)
    (hb : q b = true) (hg : ∀ a, p a = true → q (g a) = true) : q ((o.map g).getD b) = true := by
  cases o with
  | none => exact hb
  | some a => exact hg a h

theorem filter_all {α : Type} {o : Option α} {p q : α → Bool} (h : o.all p = true) : (o.filter q).all p = true := by
  cases o with
  | none => rfl
  | some a =>
      rw [Option.filter]
      split
      · exact h
      · rfl

theorem isFlagList_of_subset {l l' : List Text} (h : isFlagList l = true) (hlength : l'.length ≤ l.length)
    (hsub : ∀ flag ∈ l', flag ∈ l) : isFlagList l' = true := by
  simp only [isFlagList, Bool.and_eq_true, decide_eq_true_eq] at h ⊢
  exact ⟨hlength.trans h.1, all_of_subset h.2 hsub⟩

theorem Spec.accepted_iff {s : Spec} : s.accepted = true ↔
    (isShortList s.sense.what && s.sense.accuracy.all isShort && s.sense.intervalS.all isPositive) = true ∧
    s.act.all (fun a => isShortList a.what) = true ∧
    (isShort s.environment.location && isFlagList s.environment.flags) = true ∧
    isShortList s.connect.experience = true ∧ s.power.targetLifeDays.all isPositive = true ∧
    s.experience.alerts.all isShortList = true ∧
    (s.capabilities.length ≤ 24 ∧ s.capabilities.all isCapabilityId = true) ∧
    (s.assumptions.length ≤ 20 ∧ s.assumptions.all isSentence = true) ∧
    (s.openQuestions.length ≤ 6 ∧ s.openQuestions.all OpenQuestion.accepted = true) := by
  simp only [Spec.accepted, Bool.and_eq_true, decide_eq_true_eq, and_assoc]

theorem emptySpec_accepted : emptySpec.accepted = true := by decide

section

variable {base : Spec} {patch : SpecPatch} {vocabulary : Vocabulary}

theorem length_trim (t : Text) : (Lib.trim t).length ≤ t.length := by
  unfold Lib.trim
  rw [List.length_reverse]
  refine (List.length_dropWhile_le _ _).trans ?_
  rw [List.length_reverse]
  exact List.length_dropWhile_le _ _

theorem mergePatch_capabilities : (mergePatch base patch vocabulary).spec.capabilities =
    match patch.capabilities with
    | none => base.capabilities
    | some ids => (ids.map Lib.trim).eraseDups.filter vocabulary.lists := by
  unfold mergePatch
  cases patch.capabilities with
  | none => rfl
  | some ids => rfl

/-- **A merge keeps to the schema.** -/
theorem mergePatch_accepted (hbase : base.accepted = true) (hpatch : patch.accepted = true) :
    (mergePatch base patch vocabulary).spec.accepted = true := by
  rw [Spec.accepted_iff] at hbase ⊢
  simp only [SpecPatch.accepted, Bool.and_eq_true] at hpatch
  obtain ⟨hsense, hact, henvironment, hconnect, hpower, hexperience, ⟨hcapabilities, hids⟩, ⟨-, hsentences⟩, hquestions⟩ :=
    hbase
  obtain ⟨⟨⟨⟨⟨⟨⟨⟨hsense', hact'⟩, henvironment'⟩, hconnect'⟩, hpower'⟩, hexperience'⟩, hcapabilities'⟩, hassumptions'⟩, -⟩ :=
    hpatch
  refine ⟨?_, ?_, ?_, ?_, ?_, ?_, ⟨?_, ?_⟩, ⟨length_lastOf _ _, ?_⟩, hquestions⟩
  · refine map_getD (q := fun s : Sense => isShortList s.what && s.accuracy.all isShort && s.intervalS.all isPositive)
      hsense' hsense ?_
    intro p hp
    simp only [Bool.and_eq_true] at hp hsense ⊢
    exact ⟨⟨getD_all hp.1.1 hsense.1.1, orElse_all hp.1.2 hsense.1.2⟩, orElse_all hp.2 hsense.2⟩
  · have hbefore : isShortList (base.act.getD ⟨[]⟩).what = true := by
      cases hnow : base.act with
      | none => rfl
      | some a => simpa [hnow] using hact
    refine filter_all ?_
    cases hp : patch.act with
    | none => exact hact
    | some p =>
        rw [hp, Option.all_some] at hact'
        exact getD_all hact' hbefore
  · have hmerged : (isShort ((patch.environment.map base.environment.merge).getD base.environment).location &&
        isFlagList ((patch.environment.map base.environment.merge).getD base.environment).flags) = true := by
      refine map_getD (q := fun e : Environment => isShort e.location && isFlagList e.flags) henvironment' henvironment ?_
      intro p hp
      simp only [Bool.and_eq_true] at hp henvironment ⊢
      exact ⟨getD_all hp.1 henvironment.1, getD_all hp.2 henvironment.2⟩
    rw [Bool.and_eq_true] at hmerged ⊢
    refine ⟨hmerged.1, isFlagList_of_subset hmerged.2 ?_ ?_⟩
    · exact (List.length_filter_le _ _).trans (length_eraseDups _)
    · exact fun flag hflag => List.mem_eraseDups.mp (List.mem_filter.mp hflag).1
  · refine map_getD (q := fun c : Connect => isShortList c.experience) hconnect' hconnect ?_
    exact fun p hp => getD_all hp hconnect
  · refine map_getD (q := fun w : Power => w.targetLifeDays.all isPositive) hpower' hpower ?_
    exact fun p hp => orElse_all hp hpower
  · refine map_getD (q := fun e : Experience => e.alerts.all isShortList) hexperience' hexperience ?_
    exact fun p hp => orElse_all hp hexperience
  · rw [mergePatch_capabilities]
    cases hp : patch.capabilities with
    | none => exact hcapabilities
    | some ids =>
        rw [hp] at hcapabilities'
        simp only [Option.all_some, Bool.and_eq_true, decide_eq_true_eq] at hcapabilities'
        refine (List.length_filter_le _ _).trans ((length_eraseDups _).trans ?_)
        rw [List.length_map]
        exact hcapabilities'.1
  · rw [mergePatch_capabilities]
    cases patch.capabilities with
    | none => exact hids
    | some ids =>
        refine List.all_eq_true.mpr ?_
        intro id hid
        have hlists := (List.mem_filter.mp hid).2
        rw [Vocabulary.lists, Bool.and_eq_true] at hlists
        exact hlists.1
  · refine List.all_eq_true.mpr ?_
    intro a ha
    rcases List.mem_append.mp (List.mem_eraseDups.mp (mem_lastOf ha)) with hold | hnew
    · exact List.all_eq_true.mp hsentences a hold
    · have hpatched : (patch.assumptions.getD []).all isSentence = true := by
        refine getD_all (p := fun l : List Text => l.all isSentence) ?_ rfl
        cases hp : patch.assumptions with
        | none => rfl
        | some l =>
            rw [hp, Option.all_some, Bool.and_eq_true] at hassumptions'
            exact hassumptions'.2
      exact List.all_eq_true.mp hpatched a hnew

end

/-! ## Questions as they are stored -/

theorem filterQuestions_stored {candidates : List OpenQuestion} {roundsUsed : ℕ} {q : OpenQuestion}
    (h : q ∈ (filterQuestions candidates roundsUsed).kept ∨ q ∈ (filterQuestions candidates roundsUsed).cappedOut) :
    ∃ c ∈ candidates, c.relevant = true ∧ q = c.tidied := by
  revert h
  unfold filterQuestions
  generalize decide (maxClarificationRounds ≤ roundsUsed) = capReached
  have key : ∀ (l : List OpenQuestion) (f : QuestionFilter), (∀ c ∈ l, c ∈ candidates) →
      (q ∈ f.kept ∨ q ∈ f.cappedOut → ∃ c ∈ candidates, c.relevant = true ∧ q = c.tidied) →
      q ∈ (l.foldl (fun f c => f.take capReached c) f).kept ∨
        q ∈ (l.foldl (fun f c => f.take capReached c) f).cappedOut →
      ∃ c ∈ candidates, c.relevant = true ∧ q = c.tidied := by
    intro l
    induction l with
    | nil => exact fun f _ h => h
    | cons c l ih =>
        intro f hmem hf
        refine ih _ (fun c' hc' => hmem c' (List.mem_cons_of_mem _ hc')) ?_
        beta_reduce
        have hc := hmem c List.mem_cons_self
        cases hrelevant : c.relevant with
        | false =>
            rw [QuestionFilter.take_irrelevant hrelevant]
            exact hf
        | true =>
        by_cases hseen : Lib.trim c.field ∈ f.seen
        · rw [QuestionFilter.take_repeated hrelevant hseen]
          exact hf
        by_cases hfull : capReached = true ∨ f.kept ≠ []
        · rw [QuestionFilter.take_capped hrelevant hseen hfull]
          intro h
          rcases h with hkept | hcapped
          · exact hf (Or.inl hkept)
          · rcases List.mem_append.mp hcapped with hcapped | hnew
            · exact hf (Or.inr hcapped)
            · exact ⟨c, hc, hrelevant, List.mem_singleton.mp hnew⟩
        · obtain ⟨hcap, hkept⟩ := not_or.mp hfull
          rw [Bool.not_eq_true] at hcap
          rw [not_not] at hkept
          rw [hcap, QuestionFilter.take_first hrelevant hseen hkept]
          intro h
          rcases h with hnew | hcapped
          · exact ⟨c, hc, hrelevant, List.mem_singleton.mp hnew⟩
          · exact hf (Or.inr hcapped)
  exact key candidates ⟨[], [], [], []⟩ (fun _ hc => hc) (by simp)

theorem relevantFields_length : ∀ field ∈ solverRelevantFields, 1 ≤ field.length ∧ field.length ≤ 64 := by decide

theorem OpenQuestion.relevant_length {c : OpenQuestion} (h : c.relevant = true) :
    1 ≤ (Lib.trim c.field).length ∧ (Lib.trim c.field).length ≤ 64 :=
  relevantFields_length _ (List.contains_iff_mem.mp h)

theorem tidied_options {c : OpenQuestion} (h : c.options.all (fun options => 1 ≤ options.length && options.length ≤ 4 &&
      options.all (fun o => 1 ≤ o.length && o.length ≤ 60)) = true) :
    c.tidied.options.all (fun options => 1 ≤ options.length && options.length ≤ 4 &&
      options.all (fun o => 1 ≤ o.length && o.length ≤ 60)) = true := by
  unfold OpenQuestion.tidied
  dsimp only
  cases hc : c.options with
  | none => rfl
  | some options =>
      rw [hc, Option.all_some, Bool.and_eq_true] at h
      rw [Option.map_some]
      generalize hd : (((options.map Lib.trim).filter (· != [])).eraseDups) = distinct
      have hall : ∀ o ∈ distinct, 1 ≤ o.length ∧ o.length ≤ 60 := by
        intro o ho
        rw [← hd, List.mem_eraseDups, List.mem_filter, List.mem_map] at ho
        obtain ⟨⟨o', ho', rfl⟩, hne⟩ := ho
        have hlong := List.all_eq_true.mp h.2 o' ho'
        rw [Bool.and_eq_true, decide_eq_true_eq, decide_eq_true_eq] at hlong
        exact ⟨List.length_pos_iff.mpr (by simpa using hne), (length_trim o').trans hlong.2⟩
      rw [Option.filter]
      split
      · rename_i hne
        have hpos : 0 < distinct.length := List.length_pos_iff.mpr (by simpa using hne)
        rw [Option.map_some, Option.all_some, Bool.and_eq_true, Bool.and_eq_true, decide_eq_true_eq, decide_eq_true_eq,
          List.length_take]
        refine ⟨⟨by omega, by omega⟩, List.all_eq_true.mpr ?_⟩
        intro o ho
        rw [Bool.and_eq_true, decide_eq_true_eq, decide_eq_true_eq]
        exact hall o (List.mem_of_mem_take ho)
      · rfl

theorem OpenQuestion.tidied_accepted {c : OpenQuestion} (hrelevant : c.relevant = true) (h : c.accepted = true) :
    c.tidied.accepted = true ↔ Lib.trim c.question ≠ [] := by
  simp only [OpenQuestion.accepted, Bool.and_eq_true, decide_eq_true_eq] at h
  obtain ⟨⟨⟨⟨-, -⟩, -⟩, hlong⟩, hoptions⟩ := h
  have hfield := OpenQuestion.relevant_length hrelevant
  have hshort := (length_trim c.question).trans hlong
  have hstored := tidied_options hoptions
  have hiff : c.tidied.accepted = true ↔ 1 ≤ (Lib.trim c.question).length := by
    simp only [OpenQuestion.accepted, Bool.and_eq_true, decide_eq_true_eq]
    constructor
    · intro h
      exact h.1.1.2
    · intro hpos
      exact ⟨⟨⟨hfield, hpos⟩, hshort⟩, by simpa using hstored⟩
  rw [hiff, ← List.length_pos_iff, Nat.one_le_iff_ne_zero, Nat.pos_iff_ne_zero]

/-! ## What code adds -/

theorem describeDropped_length (value : Text) {kind : Text} {shape : Text → Bool} (hkind : kind.length ≤ 20)
    (hshape : shape value = true → value.length ≤ 64) : (describeDropped value shape kind).length ≤ 64 := by
  have hunrecognised : (js "an unrecognised ").length = 16 := by decide
  unfold describeDropped
  split
  · rename_i hshown
    exact hshape hshown
  · rw [List.length_append, hunrecognised]
    omega

theorem isCapabilityId_length {t : Text} (h : isCapabilityId t = true) : t.length ≤ 64 := by
  unfold isCapabilityId at h
  rw [Bool.and_eq_true, decide_eq_true_eq] at h
  exact h.1

theorem isFlagShape_length {t : Text} (h : isFlagShape t = true) : t.length ≤ 64 := by
  unfold isFlagShape at h
  simp only [Bool.and_eq_true, decide_eq_true_eq] at h
  exact h.1.1

section

variable {i : DecideInput}

theorem DecideInput.notes_sentences : i.notes.all isSentence = true := by
  have hcatalogue : (js "Left out, not in the parts catalogue: ").length = 38 := by decide
  have hcondition : (js "Left out, not a known environment condition: ").length = 45 := by decide
  rw [List.all_eq_true]
  intro note hnote
  unfold DecideInput.notes at hnote
  rw [isSentence, decide_eq_true_eq]
  rcases List.mem_append.mp hnote with h | h
  · obtain ⟨c, -, rfl⟩ := List.mem_map.mp h
    have hlength := describeDropped_length c (show (js "capability").length ≤ 20 by decide) isCapabilityId_length
    rw [List.length_append, hcatalogue]
    omega
  · obtain ⟨f, -, rfl⟩ := List.mem_map.mp h
    have hlength := describeDropped_length f (show (js "condition").length ≤ 20 by decide) isFlagShape_length
    rw [List.length_append, hcondition]
    omega

theorem DecideInput.defaultsTaken_sentences : i.defaultsTaken.all isSentence = true := by
  have hbefore : (js "No answer on ").length = 13 := by decide
  have hafter : (js "; the spec uses a default for it").length = 32 := by decide
  have hlabels : ∀ field ∈ solverRelevantFields, ((fieldLabel field).getD field).length ≤ 64 := by decide
  rw [List.all_eq_true]
  intro a ha
  unfold DecideInput.defaultsTaken at ha
  dsimp only at ha
  split at ha
  · obtain ⟨field, hfield, rfl⟩ := List.mem_map.mp ha
    obtain ⟨q, hq, rfl⟩ := List.mem_map.mp (List.mem_eraseDups.mp hfield)
    obtain ⟨c, -, hrelevant, rfl⟩ := filterQuestions_stored (Or.inr (List.mem_filter.mp hq).1)
    have hlabel := hlabels _ (List.contains_iff_mem.mp hrelevant)
    have hlabel : ((fieldLabel c.tidied.field).getD c.tidied.field).length ≤ 64 := hlabel
    rw [isSentence, decide_eq_true_eq, List.length_append, List.length_append, hbefore, hafter]
    omega
  · exact absurd ha (by simp)

theorem DecideInput.spec_accepted_iff (hprevious : i.previous.all Spec.accepted = true) (hturn : i.turn.accepted = true) :
    i.spec.accepted = true ↔ ∀ q ∈ i.questions.kept, q.question ≠ [] := by
  have hbase : i.base.accepted = true := by
    unfold DecideInput.base
    exact getD_all hprevious emptySpec_accepted
  simp only [SpecTurn.accepted, Bool.and_eq_true, decide_eq_true_eq] at hturn
  obtain ⟨⟨⟨⟨⟨⟨hpatch, -⟩, hcandidates⟩, -⟩, hassumptions⟩, -⟩, -⟩ := hturn
  have hmerged : i.merged.spec.accepted = true := mergePatch_accepted hbase hpatch
  rw [Spec.accepted_iff] at hmerged ⊢
  obtain ⟨hsense, hact, henvironment, hconnect, hpower, hexperience, hcapabilities, ⟨-, hsentences⟩, -⟩ := hmerged
  have hall : i.spec.assumptions.all isSentence = true := by
    refine List.all_eq_true.mpr ?_
    intro a ha
    have hmem := List.mem_eraseDups.mp (mem_lastOf ha)
    simp only [List.mem_append] at hmem
    rcases hmem with ((hmerged | hturn) | hnote) | hdefault
    · exact List.all_eq_true.mp hsentences a hmerged
    · exact List.all_eq_true.mp hassumptions a hturn
    · exact List.all_eq_true.mp DecideInput.notes_sentences a hnote
    · exact List.all_eq_true.mp DecideInput.defaultsTaken_sentences a hdefault
  have hfew : i.questions.kept.length ≤ 6 := DecideInput.questions_sound.1.trans (by decide)
  have hstored : ∀ q ∈ i.questions.kept, q.accepted = true ↔ q.question ≠ [] := by
    intro q hq
    obtain ⟨c, hc, hrelevant, rfl⟩ := filterQuestions_stored (Or.inl hq)
    exact OpenQuestion.tidied_accepted hrelevant (List.all_eq_true.mp hcandidates c hc)
  constructor
  · intro h q hq
    exact (hstored q hq).mp (List.all_eq_true.mp h.2.2.2.2.2.2.2.2.2 q hq)
  · intro h
    refine ⟨hsense, hact, henvironment, hconnect, hpower, hexperience, hcapabilities, ⟨length_lastOf _ _, hall⟩, hfew, ?_⟩
    exact List.all_eq_true.mpr fun q hq => (hstored q hq).mpr (h q hq)

def DecideInput.Worded (i : DecideInput) : Prop :=
  i.rounds < maxClarificationRounds →
    ∀ c, i.turn.candidateQuestions.find? OpenQuestion.relevant = some c → Lib.trim c.question ≠ []

/-- **A valid turn is decided exactly if the first question about a part, while there are rounds left, is not blank.** -/
theorem decide_parses_iff (hprevious : i.previous.all Spec.accepted = true) (hturn : i.turn.accepted = true) :
    i.decide.isSome = true ↔ i.Worded := by
  have hkept : i.questions.kept = if maxClarificationRounds ≤ i.rounds then []
      else ((i.turn.candidateQuestions.find? OpenQuestion.relevant).map OpenQuestion.tidied).toList :=
    filterQuestions_kept i.turn.candidateQuestions i.rounds
  have hdecide : i.decide.isSome = true ↔ i.spec.accepted = true := by
    unfold DecideInput.decide
    split
    · rename_i haccepted
      simp [haccepted]
    · rename_i hrefused
      simp [hrefused]
  rw [hdecide, DecideInput.spec_accepted_iff hprevious hturn, hkept]
  unfold DecideInput.Worded
  split
  · rename_i hcap
    exact iff_of_true (by simp) fun hleft => absurd hcap (by omega)
  · rename_i hleft
    cases hfirst : i.turn.candidateQuestions.find? OpenQuestion.relevant with
    | none => simp
    | some c =>
        simp only [Option.map_some, Option.toList_some, List.mem_singleton, forall_eq, Option.some.injEq, forall_eq']
        exact ⟨fun h _ => h, fun h => h (by omega)⟩

end

namespace Bench

def asks (questions : List OpenQuestion) : DecideInput where
  previous := none
  turn := ⟨.spec, ⟨none, none, none, none, none, none, none, none, none⟩, questions, [], js "How is it powered?"⟩
  vocabulary := ⟨[], []⟩
  roundsUsed := 0

def battery : OpenQuestion := ⟨js "power.source", js "Battery or USB?", none⟩

def plug : OpenQuestion := ⟨js "power.source", js "Is there a plug nearby?", none⟩

end Bench

theorem decide_parses_battery : (Bench.asks [Bench.battery]).decide.isSome = true := by
  refine (decide_parses_iff rfl (by decide)).mpr ?_
  intro _ c hc
  have hfirst : [Bench.battery].find? OpenQuestion.relevant = some Bench.battery := by decide
  obtain rfl := Option.some.inj (hfirst.symm.trans hc)
  decide

/-- A question of one blank, which the schema has and the spec may not. -/
theorem decide_throws_blank : ¬ ∀ i : DecideInput, i.previous.all Spec.accepted = true → i.turn.accepted = true →
    i.decide.isSome = true := by
  intro h
  exact absurd (h (Bench.asks [⟨js "power.source", js " ", none⟩]) rfl (by decide)) (by decide)

/-! ## The reply gate -/

section

variable {i : DecideInput} {d : Decided} {f : QuestionFilter} {capReached : Bool} {candidates : List OpenQuestion}

def QuestionFilter.Survived (f : QuestionFilter) : Prop := f.cappedOut = [] ∧ f.irrelevant = []

theorem survived_foldl (h : (candidates.foldl (fun f c => f.take capReached c) f).Survived) : f.Survived := by
  induction candidates generalizing f with
  | nil => exact h
  | cons c rest ih =>
      have hone : (f.take capReached c).Survived := ih h
      cases hrelevant : c.relevant with
      | false =>
          rw [QuestionFilter.take_irrelevant hrelevant] at hone
          exact absurd hone.2 (by simp)
      | true =>
      by_cases hseen : Lib.trim c.field ∈ f.seen
      · rwa [QuestionFilter.take_repeated hrelevant hseen] at hone
      by_cases hfull : capReached = true ∨ f.kept ≠ []
      · rw [QuestionFilter.take_capped hrelevant hseen hfull] at hone
        exact absurd hone.1 (by simp)
      · obtain ⟨hcap, hkept⟩ := not_or.mp hfull
        rw [Bool.not_eq_true] at hcap
        rw [not_not] at hkept
        rw [hcap, QuestionFilter.take_first hrelevant hseen hkept] at hone
        exact hone

theorem survived_after {field : Text} (hfield : field ∈ solverRelevantFields) (hseen : f.seen = [field])
    (hkept : f.kept ≠ []) (hf : f.Survived) :
    (candidates.foldl (fun f c => f.take capReached c) f).Survived ↔ ∀ c ∈ candidates, Lib.trim c.field = field := by
  induction candidates with
  | nil => exact iff_of_true hf (by simp)
  | cons c rest ih =>
      rw [List.foldl_cons, List.forall_mem_cons]
      by_cases hsame : Lib.trim c.field = field
      · have hrelevant : c.relevant = true := by
          rw [OpenQuestion.relevant, hsame]
          exact List.contains_iff_mem.mpr hfield
        rw [QuestionFilter.take_repeated hrelevant (by simp [hseen, hsame]), ih]
        exact (and_iff_right hsame).symm
      · refine iff_of_false ?_ fun h => hsame h.1
        intro h
        have hone := survived_foldl h
        cases hrelevant : c.relevant with
        | false =>
            rw [QuestionFilter.take_irrelevant hrelevant] at hone
            exact absurd hone.2 (by simp)
        | true =>
            rw [QuestionFilter.take_capped hrelevant (by simpa [hseen] using hsame) (Or.inr hkept)] at hone
            exact absurd hone.1 (by simp)

def DecideInput.Single (i : DecideInput) : Prop :=
  i.turn.candidateQuestions = [] ∨ i.rounds < maxClarificationRounds ∧
    ∃ field ∈ solverRelevantFields, ∀ c ∈ i.turn.candidateQuestions, Lib.trim c.field = field

theorem DecideInput.survived_iff : i.questions.Survived ↔ i.Single := by
  unfold DecideInput.questions DecideInput.Single filterQuestions
  cases hcandidates : i.turn.candidateQuestions with
  | nil => exact iff_of_true ⟨rfl, rfl⟩ (Or.inl rfl)
  | cons c rest =>
      rw [List.foldl_cons]
      simp only [reduceCtorEq, false_or, List.forall_mem_cons]
      cases hrelevant : c.relevant with
      | false =>
          refine iff_of_false ?_ ?_
          · intro h
            have hone := survived_foldl h
            rw [QuestionFilter.take_irrelevant hrelevant] at hone
            exact absurd hone.2 (by simp)
          · intro ⟨_, field, hfield, hsame, _⟩
            rw [OpenQuestion.relevant, hsame, List.contains_iff_mem.mpr hfield] at hrelevant
            exact absurd hrelevant (by simp)
      | true =>
      have hfield : Lib.trim c.field ∈ solverRelevantFields := List.contains_iff_mem.mp hrelevant
      by_cases hcap : maxClarificationRounds ≤ i.rounds
      · refine iff_of_false ?_ fun h => absurd h.1 (by omega)
        intro h
        have hone := survived_foldl h
        rw [QuestionFilter.take_capped hrelevant (by simp) (Or.inl (decide_eq_true hcap))] at hone
        exact absurd hone.1 (by simp)
      · rw [decide_eq_false hcap, QuestionFilter.take_first hrelevant (by simp) rfl,
          survived_after hfield rfl (by simp) ⟨rfl, rfl⟩]
        constructor
        · intro h
          exact ⟨by omega, _, hfield, rfl, h⟩
        · intro ⟨_, field, _, hsame, hrest⟩ c' hc'
          rw [hrest c' hc', hsame]

def DecideInput.AllAsked (i : DecideInput) (asked : List OpenQuestion) : Prop :=
  ∀ c ∈ i.turn.candidateQuestions, c.tidied ∈ asked

theorem DecideInput.allAsked_iff : i.AllAsked i.questions.kept ↔
    i.Single ∧ ∀ c ∈ i.turn.candidateQuestions, ∀ c' ∈ i.turn.candidateQuestions, c.tidied = c'.tidied := by
  have hkept : i.questions.kept = if maxClarificationRounds ≤ i.rounds then []
      else ((i.turn.candidateQuestions.find? OpenQuestion.relevant).map OpenQuestion.tidied).toList :=
    filterQuestions_kept i.turn.candidateQuestions i.rounds
  unfold DecideInput.AllAsked DecideInput.Single
  constructor
  · intro h
    rw [hkept] at h
    by_cases hcap : maxClarificationRounds ≤ i.rounds
    · -- without a round left nothing is asked, so there are no candidates
      rw [if_pos hcap] at h
      have hnone : i.turn.candidateQuestions = [] := List.eq_nil_iff_forall_not_mem.mpr fun c hc => absurd (h c hc) (by simp)
      exact ⟨Or.inl hnone, by simp [hnone]⟩
    · rw [if_neg hcap] at h
      cases hfirst : i.turn.candidateQuestions.find? OpenQuestion.relevant with
      | none =>
          rw [hfirst] at h
          have hnone : i.turn.candidateQuestions = [] :=
            List.eq_nil_iff_forall_not_mem.mpr fun c hc => absurd (h c hc) (by simp)
          exact ⟨Or.inl hnone, by simp [hnone]⟩
      | some first =>
          have hsame : ∀ c ∈ i.turn.candidateQuestions, c.tidied = first.tidied := by
            intro c hc
            have hc := h c hc
            rw [hfirst] at hc
            exact List.mem_singleton.mp hc
          have hrelevant : first.relevant = true := List.find?_some hfirst
          have hfield : Lib.trim first.field ∈ solverRelevantFields := List.contains_iff_mem.mp hrelevant
          refine ⟨Or.inr ⟨by omega, _, hfield, ?_⟩, ?_⟩
          · exact fun c hc => congrArg OpenQuestion.field (hsame c hc)
          · exact fun c hc c' hc' => (hsame c hc).trans (hsame c' hc').symm
  · intro ⟨hsingle, hequal⟩ c hc
    rcases hsingle with hnone | ⟨hleft, field, hfield, hall⟩
    · rw [hnone] at hc
      exact absurd hc (by simp)
    · have hrelevant : c.relevant = true := by
        rw [OpenQuestion.relevant, hall c hc]
        exact List.contains_iff_mem.mpr hfield
      obtain ⟨first, hfirst⟩ := Option.isSome_iff_exists.mp (List.find?_isSome.mpr ⟨c, hc, hrelevant⟩)
      rw [hkept, if_neg (by omega), hfirst]
      exact List.mem_singleton.mpr (hequal c hc first (List.mem_of_find?_eq_some hfirst))

def DecideInput.written (i : DecideInput) : Text :=
  if !i.questions.kept.isEmpty then questionsReply i.questions.kept
  else if i.settled then settledReply i.spec.assumptions
  else needsMoreReply

theorem DecideInput.reply_eq : (i.Single → i.reply = i.turn.reply) ∧ (¬ i.Single → i.reply = i.written) := by
  have hgate : (i.questions.cappedOut.isEmpty && i.questions.irrelevant.isEmpty) = true ↔ i.Single := by
    rw [← DecideInput.survived_iff, Bool.and_eq_true, List.isEmpty_iff, List.isEmpty_iff]
    exact Iff.rfl
  unfold DecideInput.reply DecideInput.written
  constructor
  · intro hsingle
    rw [if_pos (hgate.mpr hsingle)]
  · intro hsingle
    rw [if_neg fun h => hsingle (hgate.mp h)]

theorem DecideInput.decide_reply (h : i.decide = some d) : d.reply = i.reply := by
  unfold DecideInput.decide at h
  split at h
  · rw [← Option.some.inj h]
  · exact absurd h (by simp)

/-- What is promised of a reply: it is the model's only if all the model's questions are asked, and else
one that code writes from the questions that are. -/
structure Faithful (i : DecideInput) (d : Decided) : Prop where
  asked : d.reply = i.turn.reply → i.AllAsked d.spec.openQuestions
  written : d.reply ≠ i.turn.reply → d.reply = questionsReply d.spec.openQuestions ∨
    d.spec.openQuestions = [] ∧ (d.reply = settledReply d.spec.assumptions ∨ d.reply = needsMoreReply)

/-- **The model's reply is used only for questions that are all asked exactly if no question about the one field that
is asked about comes in other words**, and the model has not written what code would. -/
theorem reply_used_iff (hd : i.decide = some d) : Faithful i d ↔
    (i.Single → ∀ c ∈ i.turn.candidateQuestions, ∀ c' ∈ i.turn.candidateQuestions, c.tidied = c'.tidied) ∧
      (¬ i.Single → i.turn.reply ≠ i.written) := by
  obtain ⟨-, hspec, -⟩ := DecideInput.decide_some hd
  have hreply : d.reply = i.reply := DecideInput.decide_reply hd
  have hasked : d.spec.openQuestions = i.questions.kept := by rw [hspec]; rfl
  obtain ⟨hmodel, hcode⟩ := DecideInput.reply_eq (i := i)
  have hall : i.AllAsked d.spec.openQuestions ↔ i.Single ∧
      ∀ c ∈ i.turn.candidateQuestions, ∀ c' ∈ i.turn.candidateQuestions, c.tidied = c'.tidied := by
    rw [hasked]
    exact DecideInput.allAsked_iff
  by_cases hsingle : i.Single
  · have hused : d.reply = i.turn.reply := hreply.trans (hmodel hsingle)
    constructor
    · intro h
      exact ⟨fun _ => (hall.mp (h.asked hused)).2, fun hno => absurd hsingle hno⟩
    · intro h
      exact ⟨fun _ => hall.mpr ⟨hsingle, h.1 hsingle⟩, fun hother => absurd hused hother⟩
  · have hused : d.reply = i.written := hreply.trans (hcode hsingle)
    constructor
    · intro h
      refine ⟨fun hone => absurd hone hsingle, ?_⟩
      intro _ hsame
      exact hsingle (hall.mp (h.asked (hused.trans hsame.symm))).1
    · intro h
      refine ⟨fun hsame => absurd (hused.symm.trans hsame).symm (h.2 hsingle), ?_⟩
      intro _
      rw [hused, hasked, hspec]
      unfold DecideInput.written
      split
      · exact Or.inl rfl
      · rename_i hnone
        refine Or.inr ⟨by simpa using hnone, ?_⟩
        split
        · exact Or.inl rfl
        · exact Or.inr rfl

/-- One question, asked twice in the same words. -/
theorem reply_used_battery : ∃ d, (Bench.asks [Bench.battery, Bench.battery]).decide = some d ∧
    Faithful (Bench.asks [Bench.battery, Bench.battery]) d := by
  have hsome : (Bench.asks [Bench.battery, Bench.battery]).decide.isSome = true := by decide
  obtain ⟨d, hd⟩ := Option.isSome_iff_exists.mp hsome
  refine ⟨d, hd, (reply_used_iff hd).mpr ⟨?_, ?_⟩⟩
  · intro _
    decide
  · intro hno
    exact absurd (Or.inr ⟨by decide, js "power.source", by decide, by decide⟩) hno

/-- Two questions about the power, of which one is dropped and the reply goes on to speak of both. -/
theorem reply_used_twice : ¬ ∀ (i : DecideInput) (d : Decided), i.previous.all Spec.accepted = true →
    i.turn.accepted = true → i.decide = some d → Faithful i d := by
  intro h
  have hsome : (Bench.asks [Bench.battery, Bench.plug]).decide.isSome = true := by decide
  obtain ⟨d, hd⟩ := Option.isSome_iff_exists.mp hsome
  have hfaithful := h _ d rfl (by decide) hd
  obtain ⟨-, hspec, -⟩ := DecideInput.decide_some hd
  have hused : d.reply = (Bench.asks [Bench.battery, Bench.plug]).turn.reply := by
    rw [DecideInput.decide_reply hd]
    decide
  have hasked := hfaithful.asked hused Bench.plug (by decide)
  rw [hspec] at hasked
  exact absurd hasked (by decide)

end

end Albusforge.Intake
