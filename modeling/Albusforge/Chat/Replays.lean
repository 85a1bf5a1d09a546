import Mathlib.Algebra.GroupWithZero.Nat
import Mathlib.Data.List.Pairwise
import Albusforge.Chat.Submitting

/-!
# A repeated call is answered with what is stored

A repeated submission finds its message in its build. A repeated `createBuild` finds the oldest
build of the owner that has a user message under the id with the build's own ask as its text.
That is the build it created, unless the owner has submitted to an older build, under the same
id, that build's ask once more: then the retry is answered with the older build
(`replay_of_another`). Where no such submission is stored, nothing of the kind happens
(`submitting_exactly_once`).
-/

namespace Albusforge.Chat

open Lib Gateway

/-- What a call asks for is stored, and `r` is the answer that tells so. -/
def Repeats (w : ChatWorld) : Call → Answer → Prop
  | .create c, r => ∃ x, c.clientMessageId = some x ∧ ∃ b ∈ w.builds,
      ownedBy c.owner.owner b = true ∧ b.firstId = some x ∧ r = .replayedBuild b
  | .submit c, r => ∃ b, w.owned c = some b ∧ ∃ m ∈ b.messages,
      m.clientMessageId = some c.clientMessageId ∧ r = .replayedMessage m

def Answer.stores : Answer → Bool
  | .createdBuild _ => true
  | .createdMessage _ => true
  | _ => false

/-- What a step from `w` to `w'` that shows `e` keeps to. -/
structure Kept (pendingWithinS : ℕ) (w w' : ChatWorld) (e : Event) : Prop where
  /-- **A repeated call is answered with what is stored**, and changes neither tables nor limits. -/
  replay : ∀ s a r, e = .answered s a → Repeats w s.call r →
    a = r ∧ w'.builds = w.builds ∧ w'.limits = w.limits
  /-- **Only a call that repeats nothing takes from a limit.** -/
  free : w'.limits ≠ w.limits → e = .restarted ∨
    ∃ s, (e = .took s ∨ ∃ a, e = .answered s a) ∧ ∀ r, ¬ Repeats w s.call r
  /-- **A new message comes after all of its build's**, and the newest of them was not the user's and
  younger than `pendingWithinS`. -/
  ordered : ∀ s m, e = .answered s (.createdMessage m) → ∃ c b, s.call = .submit c ∧
    w.owned c = some b ∧ w'.builds = w.builds.map (Build.say b.id m) ∧
    (∀ last, lastMessageOf b.messages = some last → last.role = .user →
      last.recent s.startedAt pendingWithinS = false) ∧
    ∀ m' ∈ b.messages, m'.createdAt + 2 ≤ m.createdAt
  /-- **A call that is not answered with something new changes no table.** -/
  refused : ∀ s a, e = .answered s a → a.stores = false → w'.builds = w.builds

/-- What is stored keeps ids of builds apart from ids of messages: a submission under an id that the
owner has created a build under does not repeat the ask of a build as old as that one. -/
structure Apart (_before : List Event) (w : ChatWorld) (e : Event) : Prop where
  submission : ∀ s m c b, e = .answered s (.createdMessage m) → s.call = .submit c →
    w.owned c = some b → c.text = b.askText → ∀ owner : Creator, ownedBy owner.owner b = true →
    ∀ b' ∈ w.builds, ownedBy owner.owner b' = true → b'.firstId = some c.clientMessageId →
    b'.createdAt < b.createdAt
  creation : ∀ s b c x, e = .answered s (.createdBuild b) → s.call = .create c →
    c.clientMessageId = some x → ∀ b' ∈ w.builds, b'.asks c.owner.owner x = true →
    s.startedAt < b'.createdAt

def Older (builds : List Build) : Prop :=
  ∀ (owner : Creator) (x : Text), ∀ b ∈ builds, ownedBy owner.owner b = true → b.firstId = some x →
    ∀ b' ∈ builds, b'.asks owner.owner x = true → b' = b ∨ b.createdAt < b'.createdAt

variable {hashtextextended : Text → ℤ} {pendingWithinS : ℕ} {w w' : ChatWorld} {e : Event}

/-! ## Builds under an id -/

theorem row_asks {owner : Creator} {x : Text} {c : CreateBuild} {startedAt : ℕ} {id messageId : Uuid}
    (h : (c.row startedAt id messageId).asks owner.owner x = true) :
    owner = c.owner ∧ c.clientMessageId = some x := by
  obtain ⟨hown, hany⟩ := Bool.and_eq_true_iff.mp h
  refine ⟨ownedBy_row.mp hown, ?_⟩
  simpa [CreateBuild.row] using hany

theorem Older.wrote {builds : List Build} (h : Older builds) (hone : Once builds) {id : Uuid}
    {m : MessageRow} {f : Build → Build} (hf : Wrote id m f)
    (hnew : ∀ b' ∈ builds, b'.id = id → m.text = b'.askText → ∀ (owner : Creator) x,
      ownedBy owner.owner b' = true → m.clientMessageId = some x → ∀ b ∈ builds,
      ownedBy owner.owner b = true → b.firstId = some x → b.createdAt < b'.createdAt) :
    Older (builds.map f) := by
  intro owner x b hb hown hx b' hb' hasks
  obtain ⟨a, ha, rfl⟩ := List.mem_map.mp hb
  obtain ⟨a', ha', rfl⟩ := List.mem_map.mp hb'
  rw [hf.ownedBy_eq] at hown
  rw [hf.firstId_eq (hone.messages_ne_nil ha)] at hx
  rw [hf.createdAt_eq, hf.createdAt_eq]
  rcases hf.asks hasks with hold | ⟨hid, hown', hmx, htext⟩
  · rcases h owner x a ha hown hx a' ha' hold with rfl | hlt
    · exact Or.inl rfl
    · exact Or.inr hlt
  · exact Or.inr (hnew a' ha' hid htext owner x hown' hmx a ha hown hx)

theorem Older.create {builds : List Build} (h : Older builds) {c : CreateBuild} {startedAt : ℕ}
    {id messageId : Uuid}
    (hfresh : ∀ x, c.clientMessageId = some x → ∀ b ∈ builds, ownedBy c.owner.owner b = true →
      b.firstId ≠ some x)
    (hnew : ∀ x, c.clientMessageId = some x → ∀ b' ∈ builds, b'.asks c.owner.owner x = true →
      startedAt < b'.createdAt) : Older (builds ++ [c.row startedAt id messageId]) := by
  intro owner x b hb hown hx b' hb' hasks
  rcases List.mem_append.mp hb with hb | hb
  · rcases List.mem_append.mp hb' with hb' | hb'
    · exact h owner x b hb hown hx b' hb' hasks
    · -- the owner would have had a build under the id
      rw [List.mem_singleton.mp hb'] at hasks
      obtain ⟨rfl, hid⟩ := row_asks hasks
      exact absurd hx (hfresh x hid b hb hown)
  · rcases List.mem_append.mp hb' with hb' | hb'
    · rw [List.mem_singleton.mp hb] at hown hx ⊢
      obtain rfl := ownedBy_row.mp hown
      exact Or.inr (hnew x hx b' hb' hasks)
    · exact Or.inl ((List.mem_singleton.mp hb').trans (List.mem_singleton.mp hb).symm)

theorem Older.step (h : Older w.builds) (hinv : Inv hashtextextended pendingWithinS w)
    (hstep : Stepped hashtextextended pendingWithinS w w' e) {es : List Event} (hapart : Apart es w e) :
    Older w'.builds := by
  cases hstep with
  | arrive => exact h
  | restarted => exact h
  | reply id m f hf hnone hfree =>
      refine h.wrote hinv.once hf ?_
      intro b' _ _ _ owner x _ hx
      exact absurd (hnone.symm.trans hx) (by simp)
  | @statement _ _ i s p hi hset hdid =>
      have hs := List.mem_of_getElem? hi
      rcases hdid.writes with hsame | ⟨-, c, b, hcall, hphase, -, happ, he⟩ |
        ⟨-, c, b, m, hcall, hphase, howned, hmap, he⟩
      · rwa [hsame]
      · have hcreating := hinv.creating s hs c hcall
        obtain ⟨id, messageId, rfl⟩ := hcreating.row b hphase
        rw [happ]
        refine h.create (hcreating.fresh (by rw [hphase]; rfl)) ?_
        intro x hx b' hb' hasks
        exact hapart.creation s _ c x he hcall hx b' hb' hasks
      · obtain ⟨b', howned', hsub⟩ := hinv.submitting s hs c hcall (by simp [hphase]) (by simp [hphase])
        obtain rfl := Option.some.inj (howned.symm.trans howned')
        obtain ⟨_, _, rfl⟩ := hsub.row m hphase
        rw [hmap]
        refine h.wrote hinv.once (say_wrote b.id _) ?_
        intro a ha hid hask owner x hown hx b₀ hb₀ hown₀ hfirst
        obtain rfl := hinv.once.eq_of_id ha (owned_spec howned).1 hid
        exact hapart.submission s _ c a he hcall howned hask owner hown b₀ hb₀ hown₀ (hfirst.trans hx.symm)

theorem older_run {es : List Event}
    (h : (chatStore hashtextextended pendingWithinS).RunWhere Apart es w) : Older w.builds := by
  induction h with
  | init hinit =>
      intro owner x b hb
      simp [hinit.1] at hb
  | step hrun hstep hapart ih => exact ih.step (inv_run hrun) (step_stepped hstep) hapart

/-! ## Repeated calls -/

theorem Inv.not_repeats (h : Inv hashtextextended pendingWithinS w) {s : Session} (hs : s ∈ w.sessions)
    (hsearched : s.phase.searched = true) (r : Answer) : ¬ Repeats w s.call r := by
  cases hcall : s.call with
  | create c =>
      intro ⟨x, hx, b, hb, hown, hfirst, _⟩
      exact (h.creating s hs c hcall).fresh hsearched x hx b hb hown hfirst
  | submit c =>
      intro ⟨b, howned, m, hm, hx, _⟩
      have hlocking : s.phase ≠ .locking := by
        intro hphase
        simp [hphase, Phase.searched] at hsearched
      have hover : s.phase ≠ .ended := by
        intro hphase
        simp [hphase, Phase.searched] at hsearched
      obtain ⟨b', howned', hsub⟩ := h.submitting s hs c hcall hlocking hover
      obtain rfl := Option.some.inj (howned.symm.trans howned')
      exact hsub.fresh hsearched m hm hx

theorem Once.eq_of_clientMessageId {builds : List Build} (h : Once builds) {b : Build} (hb : b ∈ builds)
    {m m' : MessageRow} (hm : m ∈ b.messages) (hm' : m' ∈ b.messages) {x : Text}
    (hx : m.clientMessageId = some x) (hx' : m'.clientMessageId = some x) : m = m' := by
  by_contra hne
  have hpairs := List.pairwise_filterMap.mp (h.said b hb)
  have hsymm : Std.Symm fun a a' : MessageRow => ∀ y, a.clientMessageId = some y →
      ∀ y', a'.clientMessageId = some y' → y ≠ y' :=
    ⟨fun a a' hall y hy y' hy' hyy => hall y' hy' y hy hyy.symm⟩
  exact hpairs.forall hm hm' hne x hx x hx' rfl

theorem Phase.searched_of_looked {p : Phase} (h : p.looked = true) : p.searched = true := by
  cases p with
  | locking => simp [Phase.looked] at h
  | finding => simp [Phase.looked] at h
  | ended => simp [Phase.looked] at h
  | _ => rfl

section

variable {s t : Session} {p : Phase} {builds : List Build} {limits : ℕ → Limits} {a r : Answer}

theorem Did.replay (h : Did hashtextextended pendingWithinS w s p builds limits (.answered t a))
    (hinv : Inv hashtextextended pendingWithinS w) (holder : Older w.builds) (hs : s ∈ w.sessions)
    (hrepeats : Repeats w t.call r) : a = r ∧ builds = w.builds ∧ limits = w.limits := by
  have hnot : ∀ {t : Session}, t ∈ w.sessions → t.phase.searched = true → Repeats w t.call r → False :=
    fun ht hsearched hrep => hinv.not_repeats ht hsearched r hrep
  cases h with
  | foundBuild hcall hid hphase hb hasks hle =>
      rw [hcall] at hrepeats
      obtain ⟨x, hx, b, hstored, hown, hfirst, rfl⟩ := hrepeats
      obtain rfl := Option.some.inj (hid.symm.trans hx)
      -- no candidate is as old as the build that was created under the id
      have hoften := hle b hstored (hinv.once.asks hstored hown hfirst)
      rcases holder _ _ b hstored hown hfirst _ hb hasks with rfl | hlt
      · exact ⟨rfl, rfl, rfl⟩
      · omega
  | foundMessage hcall hphase howned hm hid =>
      rw [hcall] at hrepeats
      obtain ⟨b, howned', m, hm', hid', rfl⟩ := hrepeats
      obtain rfl := Option.some.inj (howned.symm.trans howned')
      rw [hinv.once.eq_of_clientMessageId (owned_spec howned).1 hm hm' hid hid']
      exact ⟨rfl, rfl, rfl⟩
  | notOwned hcall _ howned =>
      rw [hcall] at hrepeats
      obtain ⟨b, howned', -⟩ := hrepeats
      exact absurd (howned.symm.trans howned') (by simp)
  | waiting hcall hphase => exact (hnot hs (by rw [hphase]; rfl) hrepeats).elim
  | limited n limits what retryAfterS hphase => exact (hnot hs (by rw [hphase]; rfl) hrepeats).elim
  | raised hlooked => exact (hnot hs (Phase.searched_of_looked hlooked) hrepeats).elim
  | createdBuild hcall hphase => exact (hnot hs (by rw [hphase]; rfl) hrepeats).elim
  | createdMessage hcall hphase => exact (hnot hs (by rw [hphase]; rfl) hrepeats).elim

theorem Did.free (h : Did hashtextextended pendingWithinS w s p builds limits e)
    (hinv : Inv hashtextextended pendingWithinS w) (hs : s ∈ w.sessions) (hne : limits ≠ w.limits) :
    ∃ s, (e = .took s ∨ ∃ a, e = .answered s a) ∧ ∀ r, ¬ Repeats w s.call r := by
  cases h with
  | admitted n limits hphase =>
      exact ⟨s, Or.inl rfl, hinv.not_repeats hs (by rw [hphase]; rfl)⟩
  | limited n limits what retryAfterS hphase =>
      exact ⟨s, Or.inr ⟨_, rfl⟩, hinv.not_repeats hs (by rw [hphase]; rfl)⟩
  | _ => exact absurd rfl hne

theorem Did.ordered {m : MessageRow}
    (h : Did hashtextextended pendingWithinS w s p builds limits (.answered t (.createdMessage m)))
    (hinv : Inv hashtextextended pendingWithinS w) (hs : s ∈ w.sessions) :
    ∃ c b, t.call = .submit c ∧ w.owned c = some b ∧ builds = w.builds.map (Build.say b.id m) ∧
      (∀ last, lastMessageOf b.messages = some last → last.role = .user →
        last.recent t.startedAt pendingWithinS = false) ∧
      ∀ m' ∈ b.messages, m'.createdAt + 2 ≤ m.createdAt := by
  cases h with
  | @createdMessage c b _ hcall hphase howned _ =>
      obtain ⟨b', howned', hsub⟩ := hinv.submitting s hs c hcall (by simp [hphase]) (by simp [hphase])
      obtain rfl := Option.some.inj (howned.symm.trans howned')
      refine ⟨c, b, hcall, howned, rfl, ?_, ?_⟩
      · intro last hlast hrole
        have hidle := hsub.idle (by rw [hphase]; rfl)
        rw [hlast] at hidle
        simpa [Option.filter, hrole] using hidle
      · obtain ⟨_, clock, rfl⟩ := hsub.row m hphase
        exact fun m' hm' => add_two_le_newCreatedAt clock hm'

theorem Did.refused (h : Did hashtextextended pendingWithinS w s p builds limits (.answered t a))
    (ha : a.stores = false) : builds = w.builds := by
  cases h with
  | createdBuild => exact absurd ha (by simp [Answer.stores])
  | createdMessage => exact absurd ha (by simp [Answer.stores])
  | _ => rfl

def nilUuid : Uuid := ⟨js "00000000-0000-0000-0000-000000000000", by decide⟩

/-- The answer to a submission that `submitUserMessage`, on the messages of one build, gives. -/
def Answer.Tells (a : Answer) : SubmitMessageResult → Prop
  | .created m => a = .createdMessage m
  | .replayed m => a = .replayedMessage m
  | .pending id => a = .pending id
  | .notFound => a = .notFound
  | .refused => a = .raised ∨ ∃ what t, a = .rateLimited what t

/-- **A submission is answered as if it had run at once**, on the messages its build has when it
answers. -/
theorem Did.submission {c : SubmitMessage}
    (h : Did hashtextextended pendingWithinS w s p builds limits (.answered t a))
    (hinv : Inv hashtextextended pendingWithinS w) (hs : s ∈ w.sessions) (hcall : t.call = .submit c) :
    ∃ sub : Submission, sub.text = c.text ∧ sub.clientMessageId = c.clientMessageId ∧
      sub.startedAt = t.startedAt ∧ sub.owned = (w.owned c).isSome ∧
      a.Tells (Gateway.submitUserMessage pendingWithinS sub
        (((w.owned c).map Build.messages).getD [])) := by
  have hsearch : ∀ {b : Build}, (∀ m ∈ b.messages, m.clientMessageId ≠ some c.clientMessageId) →
      b.messages.find? (fun m => m.clientMessageId == some c.clientMessageId) = none := by
    intro b hfresh
    simpa [List.find?_eq_none] using hfresh
  -- a call that is refused past its search is one that is not admitted
  have hrefused : s = t → s.phase.looked = true → s.phase ≠ .ended → s.phase ≠ .locking →
      (a = .raised ∨ ∃ what t, a = .rateLimited what t) →
      ∃ sub : Submission, sub.text = c.text ∧ sub.clientMessageId = c.clientMessageId ∧
        sub.startedAt = t.startedAt ∧ sub.owned = (w.owned c).isSome ∧
        a.Tells (Gateway.submitUserMessage pendingWithinS sub
          (((w.owned c).map Build.messages).getD [])) := by
    intro hst hlooked hover hlocking ha
    subst hst
    obtain ⟨b, howned, hsub⟩ := hinv.submitting s hs c hcall hlocking hover
    refine ⟨⟨_, _, nilUuid, _, 0, true, false⟩, rfl, rfl, rfl, by rw [howned]; rfl, ?_⟩
    have hfresh := hsearch (hsub.fresh (Phase.searched_of_looked hlooked))
    have hidle := hsub.idle hlooked
    simp only [howned, Option.map_some, Option.getD_some, Gateway.submitUserMessage, hfresh, hidle]
    exact ha
  cases h with
  | foundBuild hcreate => exact absurd (hcreate.symm.trans hcall) (by simp)
  | createdBuild hcreate => exact absurd (hcreate.symm.trans hcall) (by simp)
  | notOwned hcall' _ howned =>
      obtain rfl := Call.submit.inj (hcall'.symm.trans hcall)
      refine ⟨⟨_, _, nilUuid, _, 0, false, false⟩, rfl, rfl, rfl, by rw [howned]; rfl, ?_⟩
      simp [Gateway.submitUserMessage, Answer.Tells]
  | @foundMessage c' b m hcall' hphase howned hm hid =>
      obtain rfl := Call.submit.inj (hcall'.symm.trans hcall)
      refine ⟨⟨_, _, nilUuid, _, 0, true, false⟩, rfl, rfl, rfl, by rw [howned]; rfl, ?_⟩
      have hfind : b.messages.find? (fun m => m.clientMessageId == some c'.clientMessageId) = some m := by
        cases hfound : b.messages.find? (fun m => m.clientMessageId == some c'.clientMessageId) with
        | none => exact absurd hid (by simpa using List.find?_eq_none.mp hfound m hm)
        | some m' =>
            have hid' : m'.clientMessageId = some c'.clientMessageId := by
              simpa using List.find?_some hfound
            rw [hinv.once.eq_of_clientMessageId (owned_spec howned).1 hm
              (List.mem_of_find?_eq_some hfound) hid hid']
      simp [howned, Gateway.submitUserMessage, hfind, Answer.Tells]
  | @waiting c' _ _ hcall' hphase howned hlast =>
      obtain rfl := Call.submit.inj (hcall'.symm.trans hcall)
      obtain ⟨b, howned', hsub⟩ := hinv.submitting s hs c' hcall (by simp [hphase]) (by simp [hphase])
      obtain rfl := Option.some.inj (howned.symm.trans howned')
      refine ⟨⟨_, _, nilUuid, _, 0, true, false⟩, rfl, rfl, rfl, by rw [howned]; rfl, ?_⟩
      have hfresh := hsearch (hsub.fresh (by rw [hphase]; rfl))
      simp only [howned, Option.map_some, Option.getD_some, Gateway.submitUserMessage, hfresh, hlast]
      exact rfl
  | limited n limits what retryAfterS hphase =>
      exact hrefused rfl (by rw [hphase]; rfl) (by simp [hphase]) (by simp [hphase]) (Or.inr ⟨_, _, rfl⟩)
  | raised hlooked =>
      refine hrefused rfl hlooked ?_ ?_ (Or.inl rfl)
      · intro hphase
        simp [hphase, Phase.looked] at hlooked
      · intro hphase
        simp [hphase, Phase.looked] at hlooked
  | @createdMessage c' b _ hcall' hphase howned hkey =>
      obtain rfl := Call.submit.inj (hcall'.symm.trans hcall)
      obtain ⟨b', howned', hsub⟩ := hinv.submitting s hs c' hcall (by simp [hphase]) (by simp [hphase])
      obtain rfl := Option.some.inj (howned.symm.trans howned')
      obtain ⟨id, clock, rfl⟩ := hsub.row _ hphase
      refine ⟨⟨_, _, id, _, clock, true, true⟩, rfl, rfl, rfl, by rw [howned]; rfl, ?_⟩
      have hfresh := hsearch (hsub.fresh (by rw [hphase]; rfl))
      have hidle := hsub.idle (by rw [hphase]; rfl)
      -- the new id is not in any build, so not in this one
      have hid : b.messages.any (fun m => m.id == id) = false := by
        have hnone := List.any_eq_false.mp hkey b (owned_spec howned).1
        simpa using hnone
      simp only [howned, Option.map_some, Option.getD_some, Gateway.submitUserMessage, hfresh, hidle, hid]
      exact rfl

end

theorem Stepped.kept (hstep : Stepped hashtextextended pendingWithinS w w' e)
    (hinv : Inv hashtextextended pendingWithinS w) (holder : Older w.builds) :
    Kept pendingWithinS w w' e := by
  cases hstep with
  | statement hi hset hdid =>
      have hs := List.mem_of_getElem? hi
      constructor
      · intro t a r he hrepeats
        subst he
        exact hdid.replay hinv holder hs hrepeats
      · intro hne
        exact Or.inr (hdid.free hinv hs hne)
      · intro t m he
        subst he
        exact hdid.ordered hinv hs
      · intro t a he ha
        subst he
        exact hdid.refused ha
  | arrive => exact ⟨by simp, fun hne => absurd rfl hne, by simp, by simp⟩
  | restarted => exact ⟨by simp, fun _ => Or.inl rfl, by simp, by simp⟩
  | reply => exact ⟨by simp, fun hne => absurd rfl hne, by simp, by simp⟩

theorem submission_atomic {es : List Event} {t : Session} {a : Answer} {c : SubmitMessage}
    (h : (chatStore hashtextextended pendingWithinS).Run es w)
    (hstep : (chatStore hashtextextended pendingWithinS).step w (.answered t a) w')
    (hcall : t.call = .submit c) :
    ∃ sub : Submission, sub.text = c.text ∧ sub.clientMessageId = c.clientMessageId ∧
      sub.startedAt = t.startedAt ∧ sub.owned = (w.owned c).isSome ∧
      a.Tells (submitUserMessage pendingWithinS sub (((w.owned c).map Build.messages).getD [])) := by
  cases step_stepped hstep with
  | statement hi hset hdid => exact hdid.submission (inv_run h) (List.mem_of_getElem? hi) hcall

/--
**Submitting is exactly-once and ordered.**

In every run that keeps the ids of builds apart from those of messages, an owner has at most one
build under a client message id and a build at most one message, and whatever the next step is, it
answers repeated calls with what is stored, stores new messages last, and refuses without a trace.
-/
theorem submitting_exactly_once {es : List Event}
    (h : (chatStore hashtextextended pendingWithinS).RunWhere Apart es w) :
    Once w.builds ∧ ∀ e w', (chatStore hashtextextended pendingWithinS).step w e w' →
      Kept pendingWithinS w w' e := by
  have hinv : Inv hashtextextended pendingWithinS w := inv_run h
  exact ⟨hinv.once, fun e w' hstep => (step_stepped hstep).kept hinv (older_run h)⟩

/-! ## Calls on the bench -/

def ChatWorld.play (hashtextextended : Text → ℤ) (pendingWithinS : ℕ) (check : ChatWorld → Event → Bool)
    (w : ChatWorld) : List Move → Option ChatWorld
  | [] => some w
  | m :: ms => (w.next hashtextextended pendingWithinS m).bind fun r =>
      if check w r.2 then r.1.play hashtextextended pendingWithinS check ms else none

theorem play_run {C : List Event → ChatWorld → Event → Prop} {check : ChatWorld → Event → Bool}
    (hC : ∀ es w e, check w e = true → C es w e) : ∀ (ms : List Move) {es : List Event} {w w' : ChatWorld},
      (chatStore hashtextextended pendingWithinS).RunWhere C es w →
      w.play hashtextextended pendingWithinS check ms = some w' →
      ∃ es', (chatStore hashtextextended pendingWithinS).RunWhere C es' w'
  | [], es, w, w', hrun, h => by
      obtain rfl := Option.some.inj h
      exact ⟨es, hrun⟩
  | m :: ms, es, w, w', hrun, h => by
      obtain ⟨⟨next, e⟩, hnext, h⟩ := Option.bind_eq_some_iff.mp h
      dsimp only at h
      split at h
      · rename_i hcheck
        exact play_run hC ms (hrun.step ⟨m, hnext⟩ (hC es w e hcheck)) h
      · exact absurd h (by simp)

def tame (w : ChatWorld) : Event → Bool
  | .answered _ (.createdMessage _) => false
  | .answered _ (.createdBuild _) => w.builds.isEmpty
  | _ => true

theorem apart_of_tame (es : List Event) (w : ChatWorld) (e : Event) (h : tame w e = true) :
    Apart es w e := by
  constructor
  · intro s m c b he
    subst he
    exact absurd h (by simp [tame])
  · intro s b c x he _ _ b' hb'
    subst he
    have hnil : w.builds = [] := by simpa [tame] using h
    rw [hnil] at hb'
    exact absurd hb' (by simp)

namespace Bench

def hash (t : Text) : ℤ := t.foldl (fun h u => 31 * h + u) 0

scoped instance instNeZeroTen : NeZero 10 := ⟨Nat.succ_ne_zero 9⟩

theorem idOf_shape : ∀ n : Fin 10, isUuidText (js "00000000-0000-4000-8000-00000000000" ++ [48 + n.val]) := by
  decide

def idOf (n : Fin 10) : Uuid := ⟨js "00000000-0000-4000-8000-00000000000" ++ [48 + n.val], idOf_shape n⟩

def limits : Limits :=
  ⟨⟨10, 3600000, fun _ => none, 0⟩, ⟨30, 600000, fun _ => none, 0⟩, ⟨60, 3600000, fun _ => none, 0⟩⟩

def nobody : ChatWorld := ⟨[], fun _ => limits, []⟩

def cookie : Creator := .anon (js "cookie")

def lamp : CreateBuild := ⟨cookie, js "a lamp", some (js "x")⟩

def clock : CreateBuild := ⟨cookie, js "a clock", some (js "y")⟩

def lampAgain : SubmitMessage := ⟨(idOf 1).val, cookie.owner, js "a lamp", js "y"⟩

def given (time : ℕ) (id messageId chosen : Fin 10) : Given :=
  ⟨time, time / 1000, time / 1000, idOf id, idOf messageId, idOf chosen⟩

def calling (i : ℕ) (call : Call) (time statements : ℕ) (id messageId chosen : Fin 10) : List Move :=
  .arrive 0 call time :: List.replicate statements (.statement i (given time id messageId chosen))

def twice : List Move :=
  calling 0 (.create lamp) 1000000 6 1 2 0 ++ calling 1 (.create lamp) 2000000 1 3 4 1

/-- The lamp and the clock are created, the ask of the lamp is submitted to it once more, and the clock
is created again, but for the answer. -/
def mixed : List Move :=
  calling 0 (.create lamp) 1000000 6 1 2 0 ++ calling 1 (.create clock) 2000000 6 3 4 0 ++
    calling 2 (.submit lampAgain) 100000000 6 5 5 0 ++ calling 3 (.create clock) 200000000 1 6 7 1

theorem nobody_starts {C : List Event → ChatWorld → Event → Prop} :
    (chatStore hash turnInProgressS).RunWhere C [] nobody := .init ⟨rfl, rfl⟩

theorem twice_played :
    (nobody.play hash turnInProgressS tame twice).any (fun w =>
      w.builds.length == 1 &&
        w.sessions.any fun s => s.call == .create lamp && s.phase == .finding) = true := by
  decide +kernel

/-- The build a retry is answered with, when its search takes `chosen` for the oldest. -/
def replayed (w : ChatWorld) (chosen : Fin 10) : Option (Call × Build) :=
  (w.next hash turnInProgressS (.statement 3 (given 200000000 6 7 chosen))).bind fun r =>
    match r.2 with
    | .answered s (.replayedBuild b) => some (s.call, b)
    | _ => none

theorem mixed_played :
    (nobody.play hash turnInProgressS (fun _ _ => true) mixed).any (fun w =>
      (w.builds.any fun b => ownedBy cookie.owner b && b.firstId == some (js "y") &&
        b.askText == js "a clock") &&
      (replayed w 1).any fun r => r.1 == .create clock && r.2.askText == js "a lamp") = true := by
  decide +kernel

/-- What the submission of `mixed` is answered by its last statement. -/
def told (w : ChatWorld) : Option (Call × Answer) :=
  (w.next hash turnInProgressS (.statement 1 (given 100000000 5 5 0))).bind fun r =>
    match r.2 with
    | .answered t a => some (t.call, a)
    | _ => none

theorem submitted_played :
    (nobody.play hash turnInProgressS (fun _ _ => true)
      (calling 0 (.create lamp) 1000000 6 1 2 0 ++ calling 1 (.submit lampAgain) 100000000 5 5 5 0)).any (fun w =>
        (told w).any fun r => r.1 == .submit lampAgain) = true := by
  decide +kernel

end Bench

theorem submission_atomic_bench : ∃ (w : ChatWorld) (t : Session) (a : Answer) (sub : Submission), t.call = .submit Bench.lampAgain ∧ sub.text = js "a lamp" ∧
    a.Tells (submitUserMessage turnInProgressS sub (((w.owned Bench.lampAgain).map Build.messages).getD [])) := by
  obtain ⟨w, hplay, hw⟩ := (Option.any_eq_true _ _).mp Bench.submitted_played
  obtain ⟨es, hrun⟩ := play_run (C := fun _ _ _ => True) (fun _ _ _ _ => trivial) _ Bench.nobody_starts hplay
  obtain ⟨⟨call, a⟩, htold, hcall⟩ := (Option.any_eq_true _ _).mp hw
  obtain ⟨⟨w', e⟩, hnext, hmatch⟩ := Option.bind_eq_some_iff.mp htold
  dsimp only at hmatch
  split at hmatch
  · rename_i t a'
    obtain ⟨rfl, rfl⟩ := Prod.mk.inj (Option.some.inj hmatch)
    have hsubmit : t.call = .submit Bench.lampAgain := by simpa using hcall
    obtain ⟨sub, htext, -, -, -, htells⟩ := submission_atomic hrun ⟨_, hnext⟩ hsubmit
    exact ⟨w, t, a', sub, hsubmit, htext, htells⟩
  · exact absurd hmatch (by simp)

/-- The lamp was created once, and its retry, which is about to look for it, is answered with it. -/
theorem submitting_exactly_once_bench :
    ∃ es w, (chatStore Bench.hash turnInProgressS).RunWhere Apart es w ∧ w.builds.length = 1 ∧
      (∃ s ∈ w.sessions, s.call = .create Bench.lamp ∧ s.phase = .finding) ∧
      ∀ e w', (chatStore Bench.hash turnInProgressS).step w e w' → Kept turnInProgressS w w' e := by
  obtain ⟨w, hplay, hw⟩ := (Option.any_eq_true _ _).mp Bench.twice_played
  obtain ⟨es, hrun⟩ := play_run apart_of_tame Bench.twice Bench.nobody_starts hplay
  obtain ⟨hlength, hretry⟩ := Bool.and_eq_true_iff.mp hw
  obtain ⟨s, hs, hcall⟩ := List.any_eq_true.mp hretry
  refine ⟨es, w, hrun, by simpa using hlength, ⟨s, hs, by simpa using hcall⟩, ?_⟩
  exact (submitting_exactly_once hrun).2

/-- **A retry answered with another build.** The clock was created under an id, and after the same id
was submitted to the older lamp with the lamp's ask, the retry for the clock is answered with the lamp. -/
theorem replay_of_another :
    ∃ es w e w' s b b', (chatStore Bench.hash turnInProgressS).Run es w ∧
      (chatStore Bench.hash turnInProgressS).step w e w' ∧ e = .answered s (.replayedBuild b) ∧
      s.call = .create Bench.clock ∧ Repeats w s.call (.replayedBuild b') ∧
      b'.askText = Bench.clock.askText ∧ b.askText = Bench.lamp.askText ∧ b ≠ b' := by
  obtain ⟨w, hplay, hw⟩ := (Option.any_eq_true _ _).mp Bench.mixed_played
  obtain ⟨es, hrun⟩ := play_run (fun _ _ _ _ => trivial) Bench.mixed Bench.nobody_starts hplay
  obtain ⟨hstored, hreplayed⟩ := Bool.and_eq_true_iff.mp hw
  obtain ⟨b', hb', hclock⟩ := List.any_eq_true.mp hstored
  obtain ⟨⟨call, b⟩, hanswer, hlamp⟩ := (Option.any_eq_true _ _).mp hreplayed
  obtain ⟨⟨hown, hfirst⟩, hask⟩ : (ownedBy Bench.cookie.owner b' = true ∧ b'.firstId = some (js "y")) ∧
      b'.askText = js "a clock" := by simpa using hclock
  obtain ⟨hcall, hother⟩ : call = .create Bench.clock ∧ b.askText = js "a lamp" := by simpa using hlamp
  obtain ⟨⟨w', e⟩, hnext, hmatch⟩ := Option.bind_eq_some_iff.mp hanswer
  dsimp only at hmatch
  split at hmatch
  · rename_i s b₀
    obtain ⟨rfl, rfl⟩ := Prod.mk.inj (Option.some.inj hmatch)
    refine ⟨es, w, _, w', s, b₀, b', hrun, ⟨_, hnext⟩, rfl, hcall, ?_, hask, hother, ?_⟩
    · rw [hcall]
      exact ⟨js "y", rfl, b', hb', hown, hfirst, rfl⟩
    · intro hsame
      rw [hsame, hask] at hother
      exact absurd hother (by decide)
  · exact absurd hmatch (by simp)

end Albusforge.Chat
