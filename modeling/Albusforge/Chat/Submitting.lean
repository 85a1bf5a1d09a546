import Albusforge.Lib.Holders
import Albusforge.Chat.Store

/-!
# Submitting is exactly-once and ordered

What a statement of a transaction may do is said once (`Did`), and every invariant is derived
from that. Two transactions never hold one lock, so a build is created under an owner and a
client message id by one of them (`Inv.creating`), and while a submission is under way nobody
else writes to its build (`Inv.submitting`).
-/

namespace Albusforge.Chat

open Lib Gateway

variable {hashtextextended : Text → ℤ} {pendingWithinS : ℕ}

/-! ## What a statement does -/

def Build.firstId (b : Build) : Option Text := b.messages.head?.bind MessageRow.clientMessageId

def Phase.searched : Phase → Bool
  | .locking => false
  | .finding => false
  | .ended => false
  | _ => true

def Phase.looked : Phase → Bool
  | .admitting _ => true
  | .inserting => true
  | .committingBuild _ => true
  | .committingMessage _ => true
  | _ => false

section

variable (hashtextextended : Text → ℤ) (pendingWithinS : ℕ) (w : ChatWorld) (s : Session)

/-- What `s` may do next: its phase then, the builds, the limits, and what is shown. -/
inductive Did : Phase → List Build → (ℕ → Limits) → Event → Prop
  | lost : Did .ended w.builds w.limits .nothing
  | keyed {c : CreateBuild} {id : Text} : s.call = .create c → c.clientMessageId = some id →
      s.phase = .locking →
      w.advisoryFree hashtextextended (hashtextextended (c.lockText id)) = true →
      Did .finding w.builds w.limits .nothing
  | unkeyed {c : CreateBuild} : s.call = .create c → c.clientMessageId = none → s.phase = .locking →
      Did .looking w.builds w.limits .nothing
  | foundBuild {c : CreateBuild} {id : Text} {b : Build} : s.call = .create c →
      c.clientMessageId = some id → s.phase = .finding → b ∈ w.builds →
      b.asks c.owner.owner id = true →
      (∀ b' ∈ w.builds, b'.asks c.owner.owner id = true → b.createdAt ≤ b'.createdAt) →
      Did .ended w.builds w.limits (.answered s (.replayedBuild b))
  | noBuild {c : CreateBuild} {id : Text} : s.call = .create c → c.clientMessageId = some id →
      s.phase = .finding → (∀ b ∈ w.builds, b.asks c.owner.owner id = false) →
      Did .looking w.builds w.limits .nothing
  | counted {c : CreateBuild} (isNewOwner : Bool) : s.call = .create c → s.phase = .looking →
      Did (.admitting isNewOwner) w.builds w.limits .nothing
  | locked {c : SubmitMessage} {b : Build} : s.call = .submit c → s.phase = .locking →
      w.owned c = some b → w.rowFree b.id = true → Did .finding w.builds w.limits .nothing
  | notOwned {c : SubmitMessage} : s.call = .submit c → s.phase = .locking → w.owned c = none →
      Did .ended w.builds w.limits (.answered s .notFound)
  | foundMessage {c : SubmitMessage} {b : Build} {m : MessageRow} : s.call = .submit c →
      s.phase = .finding → w.owned c = some b → m ∈ b.messages →
      m.clientMessageId = some c.clientMessageId →
      Did .ended w.builds w.limits (.answered s (.replayedMessage m))
  | noMessage {c : SubmitMessage} {b : Build} : s.call = .submit c → s.phase = .finding →
      w.owned c = some b → (∀ m ∈ b.messages, m.clientMessageId ≠ some c.clientMessageId) →
      Did .looking w.builds w.limits .nothing
  | waiting {c : SubmitMessage} {b : Build} {m : MessageRow} : s.call = .submit c →
      s.phase = .looking → w.owned c = some b →
      ((lastMessageOf b.messages).filter fun m =>
        m.role == .user && m.recent s.startedAt pendingWithinS) = some m →
      Did .ended w.builds w.limits (.answered s (.pending m.id))
  | answeredLast {c : SubmitMessage} {b : Build} : s.call = .submit c → s.phase = .looking →
      w.owned c = some b →
      ((lastMessageOf b.messages).filter fun m =>
        m.role == .user && m.recent s.startedAt pendingWithinS) = none →
      Did (.admitting false) w.builds w.limits .nothing
  | admitted (isNewOwner : Bool) (limits : ℕ → Limits) : s.phase = .admitting isNewOwner →
      Did .inserting w.builds limits (.took s)
  | limited (isNewOwner : Bool) (limits : ℕ → Limits) (what : Text) (retryAfterS : ℤ) :
      s.phase = .admitting isNewOwner →
      Did .ended w.builds limits (.answered s (.rateLimited what retryAfterS))
  | insertedBuild {c : CreateBuild} (id messageId : Uuid) : s.call = .create c → s.phase = .inserting →
      Did (.committingBuild (c.row s.startedAt id messageId)) w.builds w.limits .nothing
  | insertedMessage {c : SubmitMessage} {b : Build} (id : Uuid) (clock : ℕ) : s.call = .submit c →
      s.phase = .inserting → w.owned c = some b →
      Did (.committingMessage ⟨id, .user, c.text, some c.clientMessageId,
        newCreatedAt clock b.messages⟩) w.builds w.limits .nothing
  | raised : s.phase.looked = true → Did .ended w.builds w.limits (.answered s .raised)
  | createdBuild {c : CreateBuild} {b : Build} : s.call = .create c → s.phase = .committingBuild b →
      (∀ b' ∈ w.builds, b'.id ≠ b.id) →
      Did .ended (w.builds ++ [b]) w.limits (.answered s (.createdBuild b))
  | createdMessage {c : SubmitMessage} {b : Build} {m : MessageRow} : s.call = .submit c →
      s.phase = .committingMessage m → w.owned c = some b → w.hasMessage m.id = false →
      Did .ended (w.builds.map (Build.say b.id m)) w.limits (.answered s (.createdMessage m))

end

variable {w w' : ChatWorld} {s : Session} {e : Event} {i : ℕ}

theorem admitBuild_refusal {l : Limits} {now now' : ℤ} {isNewOwner : Bool} {key : Text} {a : Answer}
    (h : (admitBuild l now now' isNewOwner key).2 = some a) : ∃ what t, a = .rateLimited what t := by
  unfold admitBuild at h
  dsimp only at h
  generalize (if isNewOwner = true then l.anonOwners.take now (js "instance")
    else (l.anonOwners, 0)) = cap at h
  split at h
  · exact ⟨_, _, (Option.some.inj h).symm⟩
  · split at h
    · exact ⟨_, _, (Option.some.inj h).symm⟩
    · exact absurd h (by simp)

theorem admitMessage_refusal {l : Limits} {now : ℤ} {key : Text} {a : Answer}
    (h : (admitMessage l now key).2 = some a) : ∃ what t, a = .rateLimited what t := by
  unfold admitMessage at h
  dsimp only at h
  split at h
  · exact ⟨_, _, (Option.some.inj h).symm⟩
  · exact absurd h (by simp)

theorem oldest_spec {owner : Owner} {id : Text} {chosen : Uuid} {b : Build}
    (h : w.oldest owner id chosen = some b) :
    b ∈ w.builds ∧ b.asks owner id = true ∧
      ∀ b' ∈ w.builds, b'.asks owner id = true → b.createdAt ≤ b'.createdAt := by
  obtain ⟨hmem, hasks⟩ := List.mem_filter.mp (List.mem_of_find?_eq_some h)
  refine ⟨hmem, hasks, ?_⟩
  intro b' hb' hasks'
  have hfound := List.find?_some (show List.find? _ _ = some b from h)
  have hall := (Bool.and_eq_true_iff.mp hfound).2
  exact of_decide_eq_true (List.all_eq_true.mp hall b' (List.mem_filter.mpr ⟨hb', hasks'⟩))

theorem createBuild_did {c : CreateBuild} {x : Given} (hcall : s.call = .create c)
    (h : w.createBuild hashtextextended i s c x = some (w', e)) :
    ∃ p, w'.sessions = w.sessions.set i { s with phase := p } ∧
      Did hashtextextended pendingWithinS w s p w'.builds w'.limits e := by
  unfold ChatWorld.createBuild at h
  cases hphase : s.phase with
  | locking =>
      simp only [hphase] at h
      cases hid : c.clientMessageId with
      | none =>
          simp only [hid] at h
          obtain ⟨rfl, rfl⟩ := Prod.mk.inj (Option.some.inj h)
          exact ⟨.looking, rfl, Did.unkeyed hcall hid hphase⟩
      | some id =>
          simp only [hid] at h
          split at h
          · rename_i hfree
            obtain ⟨rfl, rfl⟩ := Prod.mk.inj (Option.some.inj h)
            exact ⟨.finding, rfl, Did.keyed hcall hid hphase hfree⟩
          · exact absurd h (by simp)
  | finding =>
      simp only [hphase] at h
      cases hid : c.clientMessageId with
      | none => simp [hid] at h
      | some id =>
          simp only [hid] at h
          split at h
          · obtain ⟨b, hb, heq⟩ := Option.map_eq_some_iff.mp h
            obtain ⟨rfl, rfl⟩ := Prod.mk.inj heq
            obtain ⟨hmem, hasks, hle⟩ := oldest_spec hb
            exact ⟨.ended, rfl, Did.foundBuild hcall hid hphase hmem hasks hle⟩
          · rename_i hnone
            obtain ⟨rfl, rfl⟩ := Prod.mk.inj (Option.some.inj h)
            exact ⟨.looking, rfl, Did.noBuild hcall hid hphase (by simpa using hnone)⟩
  | looking =>
      simp only [hphase] at h
      split at h
      · obtain ⟨rfl, rfl⟩ := Prod.mk.inj (Option.some.inj h)
        exact ⟨_, rfl, Did.counted _ hcall hphase⟩
      · obtain ⟨rfl, rfl⟩ := Prod.mk.inj (Option.some.inj h)
        exact ⟨_, rfl, Did.counted _ hcall hphase⟩
  | admitting n =>
      simp only [hphase] at h
      split at h
      · rename_i a ha
        obtain ⟨what, t, rfl⟩ := admitBuild_refusal ha
        obtain ⟨rfl, rfl⟩ := Prod.mk.inj (Option.some.inj h)
        exact ⟨.ended, rfl, Did.limited n _ what t hphase⟩
      · obtain ⟨rfl, rfl⟩ := Prod.mk.inj (Option.some.inj h)
        exact ⟨.inserting, rfl, Did.admitted n _ hphase⟩
  | inserting =>
      simp only [hphase] at h
      obtain ⟨rfl, rfl⟩ := Prod.mk.inj (Option.some.inj h)
      exact ⟨_, rfl, Did.insertedBuild x.id x.messageId hcall hphase⟩
  | committingBuild b =>
      simp only [hphase] at h
      split at h
      · obtain ⟨rfl, rfl⟩ := Prod.mk.inj (Option.some.inj h)
        exact ⟨.ended, rfl, Did.raised (by rw [hphase]; rfl)⟩
      · rename_i hkey
        obtain ⟨rfl, rfl⟩ := Prod.mk.inj (Option.some.inj h)
        refine ⟨.ended, rfl, Did.createdBuild hcall hphase ?_⟩
        intro b' hb' hsame
        exact hkey (by simp only [Bool.or_eq_true, List.any_eq_true]; exact Or.inl ⟨b', hb', by simp [hsame]⟩)
  | committingMessage m => simp [hphase] at h
  | ended => simp [hphase] at h

theorem submitUserMessage_did {c : SubmitMessage} {x : Given} (hcall : s.call = .submit c)
    (h : w.submitUserMessage pendingWithinS i s c x = some (w', e)) :
    ∃ p, w'.sessions = w.sessions.set i { s with phase := p } ∧
      Did hashtextextended pendingWithinS w s p w'.builds w'.limits e := by
  unfold ChatWorld.submitUserMessage at h
  cases howned : w.owned c with
  | none =>
      simp only [howned] at h
      cases hphase : s.phase with
      | locking =>
          simp only [hphase] at h
          obtain ⟨rfl, rfl⟩ := Prod.mk.inj (Option.some.inj h)
          exact ⟨.ended, rfl, Did.notOwned hcall hphase howned⟩
      | _ => simp [hphase] at h
  | some b =>
      simp only [howned] at h
      cases hphase : s.phase with
      | locking =>
          simp only [hphase] at h
          split at h
          · rename_i hfree
            obtain ⟨rfl, rfl⟩ := Prod.mk.inj (Option.some.inj h)
            exact ⟨.finding, rfl, Did.locked hcall hphase howned hfree⟩
          · exact absurd h (by simp)
      | finding =>
          simp only [hphase] at h
          split at h
          · rename_i m hm
            obtain ⟨rfl, rfl⟩ := Prod.mk.inj (Option.some.inj h)
            refine ⟨.ended, rfl, Did.foundMessage hcall hphase howned (List.mem_of_find?_eq_some hm) ?_⟩
            simpa using List.find?_some hm
          · rename_i hnone
            obtain ⟨rfl, rfl⟩ := Prod.mk.inj (Option.some.inj h)
            exact ⟨.looking, rfl, Did.noMessage hcall hphase howned (by simpa using hnone)⟩
      | looking =>
          simp only [hphase] at h
          split at h
          · rename_i m hm
            obtain ⟨rfl, rfl⟩ := Prod.mk.inj (Option.some.inj h)
            exact ⟨.ended, rfl, Did.waiting hcall hphase howned hm⟩
          · rename_i hnone
            obtain ⟨rfl, rfl⟩ := Prod.mk.inj (Option.some.inj h)
            exact ⟨_, rfl, Did.answeredLast hcall hphase howned hnone⟩
      | admitting n =>
          simp only [hphase] at h
          split at h
          · rename_i a ha
            obtain ⟨what, t, rfl⟩ := admitMessage_refusal ha
            obtain ⟨rfl, rfl⟩ := Prod.mk.inj (Option.some.inj h)
            exact ⟨.ended, rfl, Did.limited n _ what t hphase⟩
          · obtain ⟨rfl, rfl⟩ := Prod.mk.inj (Option.some.inj h)
            exact ⟨.inserting, rfl, Did.admitted n _ hphase⟩
      | inserting =>
          simp only [hphase] at h
          obtain ⟨rfl, rfl⟩ := Prod.mk.inj (Option.some.inj h)
          exact ⟨_, rfl, Did.insertedMessage x.id x.clock hcall hphase howned⟩
      | committingMessage m =>
          simp only [hphase] at h
          split at h
          · obtain ⟨rfl, rfl⟩ := Prod.mk.inj (Option.some.inj h)
            exact ⟨.ended, rfl, Did.raised (by rw [hphase]; rfl)⟩
          · rename_i hkey
            obtain ⟨rfl, rfl⟩ := Prod.mk.inj (Option.some.inj h)
            exact ⟨.ended, rfl, Did.createdMessage hcall hphase howned (by simpa using hkey)⟩
      | committingBuild b' => simp [hphase] at h
      | ended => simp [hphase] at h

/-! ## Locks -/

theorem Did.advisory {p : Phase} {builds : List Build} {limits : ℕ → Limits} {k : ℤ}
    (h : Did hashtextextended pendingWithinS w s p builds limits e)
    (hk : Session.advisory hashtextextended { s with phase := p } = some k) :
    s.advisory hashtextextended = some k ∨
      ∀ t ∈ w.sessions, t.advisory hashtextextended ≠ some k := by
  cases hcall : s.call with
  | submit c => simp [Session.advisory, hcall] at hk
  | create c =>
      cases h with
      | keyed hcall' hid hphase hfree =>
          obtain rfl := Call.create.inj (hcall'.symm.trans hcall)
          simp only [Session.advisory, hcall, hid, Option.map_some] at hk
          obtain rfl := Option.some.inj hk
          exact Or.inr (by simpa [ChatWorld.advisoryFree] using hfree)
      | unkeyed hcall' hid hphase =>
          obtain rfl := Call.create.inj (hcall'.symm.trans hcall)
          simp [Session.advisory, hcall, hid] at hk
      | noBuild _ _ hphase => exact Or.inl (by simpa [Session.advisory, hcall, hphase] using hk)
      | counted _ _ hphase => exact Or.inl (by simpa [Session.advisory, hcall, hphase] using hk)
      | admitted _ _ hphase => exact Or.inl (by simpa [Session.advisory, hcall, hphase] using hk)
      | insertedBuild _ _ _ hphase =>
          exact Or.inl (by simpa [Session.advisory, hcall, hphase] using hk)
      | locked hcall' => exact absurd (hcall'.symm.trans hcall) (by simp)
      | noMessage hcall' => exact absurd (hcall'.symm.trans hcall) (by simp)
      | answeredLast hcall' => exact absurd (hcall'.symm.trans hcall) (by simp)
      | insertedMessage _ _ hcall' => exact absurd (hcall'.symm.trans hcall) (by simp)
      | _ => simp [Session.advisory, hcall] at hk

theorem owned_spec {c : SubmitMessage} {b : Build} (h : w.owned c = some b) :
    b ∈ w.builds ∧ uuidOfText c.buildId = some b.id ∧ ownedBy c.owner b = true := by
  unfold ChatWorld.owned at h
  have hfound := List.find?_some h
  obtain ⟨hid, hown⟩ := Bool.and_eq_true_iff.mp hfound
  exact ⟨List.mem_of_find?_eq_some h, (beq_iff_eq.mp hid).symm, hown⟩

theorem Did.row {p : Phase} {builds : List Build} {limits : ℕ → Limits} {id : Uuid}
    (h : Did hashtextextended pendingWithinS w s p builds limits e)
    (hid : Session.row { s with phase := p } = some id) :
    s.row = some id ∨ ∀ t ∈ w.sessions, t.row ≠ some id := by
  cases hcall : s.call with
  | create c => simp [Session.row, hcall] at hid
  | submit c =>
      cases h with
      | locked hcall' hphase howned hfree =>
          obtain rfl := Call.submit.inj (hcall'.symm.trans hcall)
          have hsame : some id = some _ := hid.symm.trans
            ((by simp [Session.row, hcall] : _ = uuidOfText _).trans (owned_spec howned).2.1)
          obtain rfl := Option.some.inj hsame
          exact Or.inr (by simpa [ChatWorld.rowFree] using hfree)
      | noMessage _ hphase => exact Or.inl (by simpa [Session.row, hcall, hphase] using hid)
      | answeredLast _ hphase => exact Or.inl (by simpa [Session.row, hcall, hphase] using hid)
      | admitted _ _ hphase => exact Or.inl (by simpa [Session.row, hcall, hphase] using hid)
      | insertedMessage _ _ _ hphase => exact Or.inl (by simpa [Session.row, hcall, hphase] using hid)
      | keyed hcall' => exact absurd (hcall'.symm.trans hcall) (by simp)
      | unkeyed hcall' => exact absurd (hcall'.symm.trans hcall) (by simp)
      | noBuild hcall' => exact absurd (hcall'.symm.trans hcall) (by simp)
      | counted _ hcall' => exact absurd (hcall'.symm.trans hcall) (by simp)
      | insertedBuild _ _ hcall' => exact absurd (hcall'.symm.trans hcall) (by simp)
      | _ => simp [Session.row, hcall] at hid

/-! ## Writing to a build -/

/-- `f` writes `m` to the build `id`, and leaves the others. -/
structure Wrote (id : Uuid) (m : MessageRow) (f : Build → Build) : Prop where
  other : ∀ b, b.id ≠ id → f b = b
  self : ∀ b, b.id = id → ∃ status updatedAt,
    f b = { b with messages := b.messages ++ [m], status, updatedAt }

theorem say_wrote (id : Uuid) (m : MessageRow) : Wrote id m (Build.say id m) := by
  refine ⟨fun b hb => by simp [Build.say, hb], ?_⟩
  intro b hb
  exact ⟨b.status, b.updatedAt, by simp [Build.say, hb]⟩

theorem reply_wrote (id : Uuid) (m : MessageRow) (status : BuildStatus) (now : ℕ) :
    Wrote id m (Build.reply id m status now) := by
  refine ⟨fun b hb => by simp [Build.reply, hb], ?_⟩
  intro b hb
  exact ⟨status, now, by simp [Build.reply, hb]⟩

section

variable {id : Uuid} {m : MessageRow} {f : Build → Build}

theorem Wrote.id_eq (hf : Wrote id m f) (b : Build) : (f b).id = b.id := by
  by_cases hb : b.id = id
  · obtain ⟨_, _, h⟩ := hf.self b hb
    rw [h]
  · rw [hf.other b hb]

theorem Wrote.ownedBy_eq (hf : Wrote id m f) (owner : Owner) (b : Build) :
    ownedBy owner (f b) = ownedBy owner b := by
  by_cases hb : b.id = id
  · obtain ⟨_, _, h⟩ := hf.self b hb
    rw [h]
    rfl
  · rw [hf.other b hb]

theorem Wrote.createdAt_eq (hf : Wrote id m f) (b : Build) : (f b).createdAt = b.createdAt := by
  by_cases hb : b.id = id
  · obtain ⟨_, _, h⟩ := hf.self b hb
    rw [h]
  · rw [hf.other b hb]

theorem Wrote.firstId_eq (hf : Wrote id m f) {b : Build} (hb : b.messages ≠ []) :
    (f b).firstId = b.firstId := by
  by_cases hid : b.id = id
  · obtain ⟨_, _, h⟩ := hf.self b hid
    rw [h]
    unfold Build.firstId
    dsimp only
    rw [List.head?_append_of_ne_nil _ hb]
  · rw [hf.other b hid]

theorem Wrote.asks (hf : Wrote id m f) {owner : Owner} {x : Text} {b : Build}
    (h : (f b).asks owner x = true) :
    b.asks owner x = true ∨
      (b.id = id ∧ ownedBy owner b = true ∧ m.clientMessageId = some x ∧ m.text = b.askText) := by
  by_cases hid : b.id = id
  · obtain ⟨_, _, hb⟩ := hf.self b hid
    rw [hb] at h
    obtain ⟨hown, hany⟩ := Bool.and_eq_true_iff.mp h
    obtain ⟨m', hm', hmatch⟩ := List.any_eq_true.mp hany
    rcases List.mem_append.mp hm' with hm' | hm'
    · exact Or.inl (Bool.and_eq_true_iff.mpr ⟨hown, List.any_eq_true.mpr ⟨m', hm', hmatch⟩⟩)
    · obtain rfl := List.mem_singleton.mp hm'
      obtain ⟨⟨hx, -⟩, htext⟩ : (m'.clientMessageId = some x ∧ m'.role = .user) ∧
          m'.text = b.askText := by simpa using hmatch
      exact Or.inr ⟨hid, hown, hx, htext⟩
  · rw [hf.other b hid] at h
    exact Or.inl h

theorem Wrote.owned (hf : Wrote id m f) {c : SubmitMessage} (hw : w'.builds = w.builds.map f) :
    w'.owned c = (w.owned c).map f := by
  unfold ChatWorld.owned
  rw [hw, List.find?_map]
  congr 2
  funext b
  simp only [Function.comp, hf.id_eq, hf.ownedBy_eq]

end

/-! ## What holds between statements -/

structure Once (builds : List Build) : Prop where
  ids : (builds.map Build.id).Nodup
  /-- **At most one build of an owner under a client message id**, whatever it asks. -/
  created : ∀ (owner : Creator) (x : Text), ∀ b ∈ builds, ∀ b' ∈ builds,
    ownedBy owner.owner b = true → ownedBy owner.owner b' = true → b.firstId = some x →
    b'.firstId = some x → b = b'
  /-- **At most one message of a build under a client message id.** -/
  said : ∀ b ∈ builds, (b.messages.filterMap MessageRow.clientMessageId).Nodup
  first : ∀ b ∈ builds, ∃ m, b.messages.head? = some m ∧ m.role = .user ∧ m.text = b.askText

/-- What a `createBuild` under way has found. -/
structure Creating (builds : List Build) (s : Session) (c : CreateBuild) : Prop where
  fresh : s.phase.searched = true → ∀ x, c.clientMessageId = some x → ∀ b ∈ builds,
    ownedBy c.owner.owner b = true → b.firstId ≠ some x
  row : ∀ b, s.phase = .committingBuild b → ∃ id messageId, b = c.row s.startedAt id messageId

/-- What a submission that has the lock of its build `b` has found. -/
structure Submitting (pendingWithinS : ℕ) (s : Session) (c : SubmitMessage) (b : Build) : Prop where
  fresh : s.phase.searched = true → ∀ m ∈ b.messages, m.clientMessageId ≠ some c.clientMessageId
  idle : s.phase.looked = true → ((lastMessageOf b.messages).filter fun m =>
    m.role == .user && m.recent s.startedAt pendingWithinS) = none
  row : ∀ m, s.phase = .committingMessage m → ∃ id clock,
    m = ⟨id, .user, c.text, some c.clientMessageId, newCreatedAt clock b.messages⟩

structure Inv (hashtextextended : Text → ℤ) (pendingWithinS : ℕ) (w : ChatWorld) : Prop where
  once : Once w.builds
  advisory : Exclusive (Session.advisory hashtextextended) w.sessions
  row : Exclusive Session.row w.sessions
  creating : ∀ s ∈ w.sessions, ∀ c, s.call = .create c → Creating w.builds s c
  submitting : ∀ s ∈ w.sessions, ∀ c, s.call = .submit c → s.phase ≠ .locking → s.phase ≠ .ended →
    ∃ b, w.owned c = some b ∧ Submitting pendingWithinS s c b

/-! ### The tables -/

theorem Once.messages_ne_nil {builds : List Build} (h : Once builds) {b : Build} (hb : b ∈ builds) :
    b.messages ≠ [] := by
  obtain ⟨m, hm, -⟩ := h.first b hb
  intro hnil
  simp [hnil] at hm

theorem Once.asks {builds : List Build} (h : Once builds) {b : Build} (hb : b ∈ builds) {owner : Owner}
    {x : Text} (hown : ownedBy owner b = true) (hx : b.firstId = some x) : b.asks owner x = true := by
  obtain ⟨m, hm, hrole, htext⟩ := h.first b hb
  have hid : m.clientMessageId = some x := by simpa [Build.firstId, hm] using hx
  refine Bool.and_eq_true_iff.mpr ⟨hown, List.any_eq_true.mpr ⟨m, List.mem_of_mem_head? hm, ?_⟩⟩
  simp [hid, hrole, htext]

theorem Once.eq_of_id {builds : List Build} (h : Once builds) {b b' : Build} (hb : b ∈ builds)
    (hb' : b' ∈ builds) (hid : b.id = b'.id) : b = b' :=
  List.inj_on_of_nodup_map h.ids hb hb' hid

theorem Once.wrote {builds : List Build} (h : Once builds) {id : Uuid} {m : MessageRow}
    {f : Build → Build} (hf : Wrote id m f)
    (hfresh : ∀ x, m.clientMessageId = some x → ∀ b ∈ builds, b.id = id → ∀ m' ∈ b.messages,
      m'.clientMessageId ≠ some x) : Once (builds.map f) := by
  constructor
  · rw [List.map_map]
    have hids : Build.id ∘ f = Build.id := by
      funext b
      exact hf.id_eq b
    rw [hids]
    exact h.ids
  · intro owner x b hb b' hb' hown hown' hx hx'
    obtain ⟨a, ha, rfl⟩ := List.mem_map.mp hb
    obtain ⟨a', ha', rfl⟩ := List.mem_map.mp hb'
    rw [hf.ownedBy_eq] at hown hown'
    rw [hf.firstId_eq (h.messages_ne_nil ha)] at hx
    rw [hf.firstId_eq (h.messages_ne_nil ha')] at hx'
    rw [h.created owner x a ha a' ha' hown hown' hx hx']
  · intro b hb
    obtain ⟨a, ha, rfl⟩ := List.mem_map.mp hb
    by_cases hid : a.id = id
    · obtain ⟨_, _, heq⟩ := hf.self a hid
      rw [heq]
      dsimp only
      rw [List.filterMap_append, List.nodup_append]
      refine ⟨h.said a ha, by cases hm : m.clientMessageId <;> simp [hm], ?_⟩
      intro x hx y hy hxy
      obtain ⟨m', hm', hmx⟩ := List.mem_filterMap.mp hx
      have hmy : m.clientMessageId = some y := by simpa using hy
      exact hfresh y hmy a ha hid m' hm' (hxy ▸ hmx)
    · rw [hf.other a hid]
      exact h.said a ha
  · intro b hb
    obtain ⟨a, ha, rfl⟩ := List.mem_map.mp hb
    obtain ⟨first, hfirst, hrole, htext⟩ := h.first a ha
    by_cases hid : a.id = id
    · obtain ⟨_, _, heq⟩ := hf.self a hid
      rw [heq]
      refine ⟨first, ?_, hrole, htext⟩
      dsimp only
      rw [List.head?_append_of_ne_nil _ (h.messages_ne_nil ha), hfirst]
    · rw [hf.other a hid]
      exact ⟨first, hfirst, hrole, htext⟩

@[simp] theorem row_firstId (c : CreateBuild) (startedAt : ℕ) (id messageId : Uuid) :
    (c.row startedAt id messageId).firstId = c.clientMessageId := rfl

theorem ownedBy_row {owner : Creator} {c : CreateBuild} {startedAt : ℕ} {id messageId : Uuid} :
    ownedBy owner.owner (c.row startedAt id messageId) = true ↔ owner = c.owner := by
  cases hc : c.owner with
  | tenant t =>
      cases owner with
      | tenant t' => simpa [ownedBy, CreateBuild.row, Creator.owner, hc] using eq_comm
      | anon a => simp [ownedBy, CreateBuild.row, Creator.owner, hc]
  | anon a =>
      cases owner with
      | tenant t => simp [ownedBy, CreateBuild.row, Creator.owner, hc]
      | anon a' => simpa [ownedBy, CreateBuild.row, Creator.owner, hc] using eq_comm

theorem Once.create {builds : List Build} (h : Once builds) {c : CreateBuild} {startedAt : ℕ}
    {id messageId : Uuid} (hid : ∀ b ∈ builds, b.id ≠ id)
    (hfresh : ∀ x, c.clientMessageId = some x → ∀ b ∈ builds, ownedBy c.owner.owner b = true →
      b.firstId ≠ some x) : Once (builds ++ [c.row startedAt id messageId]) := by
  constructor
  · rw [List.map_append, List.nodup_append]
    refine ⟨h.ids, by simp, ?_⟩
    intro a ha b hb hab
    obtain ⟨b', hb', rfl⟩ := List.mem_map.mp ha
    obtain rfl : b = id := by simpa [CreateBuild.row] using hb
    exact hid b' hb' hab
  · -- a build of the owner under the id is not one of those there were
    have hother : ∀ owner : Creator, ∀ x, ∀ b ∈ builds, ownedBy owner.owner b = true →
        b.firstId = some x → ownedBy owner.owner (c.row startedAt id messageId) = true →
        (c.row startedAt id messageId).firstId ≠ some x := by
      intro owner x b hb hown hx hnew hnewx
      obtain rfl := ownedBy_row.mp hnew
      exact hfresh x hnewx b hb hown hx
    intro owner x b hb b' hb' hown hown' hx hx'
    rcases List.mem_append.mp hb with hb | hb
    · rcases List.mem_append.mp hb' with hb' | hb'
      · exact h.created owner x b hb b' hb' hown hown' hx hx'
      · obtain rfl := List.mem_singleton.mp hb'
        exact absurd hx' (hother owner x b hb hown hx hown')
    · obtain rfl := List.mem_singleton.mp hb
      rcases List.mem_append.mp hb' with hb' | hb'
      · exact absurd hx (hother owner x b' hb' hown' hx' hown)
      · exact (List.mem_singleton.mp hb').symm
  · intro b hb
    rcases List.mem_append.mp hb with hb | hb
    · exact h.said b hb
    · rw [List.mem_singleton.mp hb]
      cases hx : c.clientMessageId <;> simp [CreateBuild.row, hx]
  · intro b hb
    rcases List.mem_append.mp hb with hb | hb
    · exact h.first b hb
    · rw [List.mem_singleton.mp hb]
      exact ⟨_, rfl, rfl, rfl⟩

/-! ### The transactions -/

section

variable {p : Phase} {builds : List Build} {limits : ℕ → Limits}

theorem Did.writes (h : Did hashtextextended pendingWithinS w s p builds limits e) :
    builds = w.builds ∨
      (p = .ended ∧ ∃ c b, s.call = .create c ∧ s.phase = .committingBuild b ∧
        (∀ b' ∈ w.builds, b'.id ≠ b.id) ∧ builds = w.builds ++ [b] ∧
        e = .answered s (.createdBuild b)) ∨
      (p = .ended ∧ ∃ c b m, s.call = .submit c ∧ s.phase = .committingMessage m ∧
        w.owned c = some b ∧ builds = w.builds.map (Build.say b.id m) ∧
        e = .answered s (.createdMessage m)) := by
  cases h with
  | createdBuild hcall hphase hid => exact Or.inr (Or.inl ⟨rfl, _, _, hcall, hphase, hid, rfl, rfl⟩)
  | createdMessage hcall hphase howned _ =>
      exact Or.inr (Or.inr ⟨rfl, _, _, _, hcall, hphase, howned, rfl, rfl⟩)
  | _ => exact Or.inl rfl

theorem Did.creating {c : CreateBuild} (h : Did hashtextextended pendingWithinS w s p builds limits e)
    (hinv : Inv hashtextextended pendingWithinS w) (hs : s ∈ w.sessions) (hcall : s.call = .create c) :
    Creating w.builds { s with phase := p } c := by
  have hold := hinv.creating s hs c hcall
  cases h with
  | keyed => exact ⟨by simp [Phase.searched], by simp⟩
  | unkeyed hcall' hid =>
      obtain rfl := Call.create.inj (hcall'.symm.trans hcall)
      refine ⟨?_, by simp⟩
      intro _ x hx
      exact absurd (hid.symm.trans hx) (by simp)
  | noBuild hcall' hid _ hnone =>
      obtain rfl := Call.create.inj (hcall'.symm.trans hcall)
      refine ⟨?_, by simp⟩
      intro _ x hx b hb hown hfirst
      obtain rfl := Option.some.inj (hid.symm.trans hx)
      have hasks := hinv.once.asks hb hown hfirst
      rw [hnone b hb] at hasks
      exact absurd hasks (by simp)
  | counted n _ hphase => exact ⟨fun _ => hold.fresh (by rw [hphase]; rfl), by simp⟩
  | admitted n _ hphase => exact ⟨fun _ => hold.fresh (by rw [hphase]; rfl), by simp⟩
  | insertedBuild id messageId hcall' hphase =>
      obtain rfl := Call.create.inj (hcall'.symm.trans hcall)
      refine ⟨fun _ => hold.fresh (by rw [hphase]; rfl), ?_⟩
      intro b hb
      obtain rfl := Phase.committingBuild.inj hb
      exact ⟨id, messageId, rfl⟩
  | locked hcall' => exact absurd (hcall'.symm.trans hcall) (by simp)
  | noMessage hcall' => exact absurd (hcall'.symm.trans hcall) (by simp)
  | answeredLast hcall' => exact absurd (hcall'.symm.trans hcall) (by simp)
  | insertedMessage _ _ hcall' => exact absurd (hcall'.symm.trans hcall) (by simp)
  | _ => exact ⟨by simp [Phase.searched], by simp⟩

theorem Did.submitting {c : SubmitMessage}
    (h : Did hashtextextended pendingWithinS w s p builds limits e)
    (hinv : Inv hashtextextended pendingWithinS w) (hs : s ∈ w.sessions) (hcall : s.call = .submit c)
    (hover : p ≠ .ended) :
    ∃ b, w.owned c = some b ∧ Submitting pendingWithinS { s with phase := p } c b := by
  have hold : s.phase ≠ .locking → s.phase ≠ .ended →
      ∃ b, w.owned c = some b ∧ Submitting pendingWithinS s c b := hinv.submitting s hs c hcall
  cases h with
  | locked hcall' _ howned =>
      obtain rfl := Call.submit.inj (hcall'.symm.trans hcall)
      exact ⟨_, howned, by simp [Phase.searched], by simp [Phase.looked], by simp⟩
  | noMessage hcall' _ howned hnone =>
      obtain rfl := Call.submit.inj (hcall'.symm.trans hcall)
      exact ⟨_, howned, fun _ => hnone, by simp [Phase.looked], by simp⟩
  | answeredLast hcall' hphase howned hnone =>
      obtain rfl := Call.submit.inj (hcall'.symm.trans hcall)
      obtain ⟨b, hb, hsub⟩ := hold (by simp [hphase]) (by simp [hphase])
      obtain rfl := Option.some.inj (howned.symm.trans hb)
      exact ⟨_, howned, fun _ => hsub.fresh (by rw [hphase]; rfl), fun _ => hnone, by simp⟩
  | admitted n _ hphase =>
      obtain ⟨b, hb, hsub⟩ := hold (by simp [hphase]) (by simp [hphase])
      exact ⟨b, hb, fun _ => hsub.fresh (by rw [hphase]; rfl),
        fun _ => hsub.idle (by rw [hphase]; rfl), by simp⟩
  | insertedMessage id clock hcall' hphase howned =>
      obtain rfl := Call.submit.inj (hcall'.symm.trans hcall)
      obtain ⟨b, hb, hsub⟩ := hold (by simp [hphase]) (by simp [hphase])
      obtain rfl := Option.some.inj (howned.symm.trans hb)
      refine ⟨_, howned, fun _ => hsub.fresh (by rw [hphase]; rfl),
        fun _ => hsub.idle (by rw [hphase]; rfl), ?_⟩
      intro m hm
      exact ⟨id, clock, (Phase.committingMessage.inj hm).symm⟩
  | keyed hcall' => exact absurd (hcall'.symm.trans hcall) (by simp)
  | unkeyed hcall' => exact absurd (hcall'.symm.trans hcall) (by simp)
  | noBuild hcall' => exact absurd (hcall'.symm.trans hcall) (by simp)
  | counted _ hcall' => exact absurd (hcall'.symm.trans hcall) (by simp)
  | insertedBuild _ _ hcall' => exact absurd (hcall'.symm.trans hcall) (by simp)
  | _ => exact absurd rfl hover

theorem Creating.wrote {c : CreateBuild} {t : Session} (h : Creating w.builds t c) (hone : Once w.builds)
    {id : Uuid} {m : MessageRow} {f : Build → Build} (hf : Wrote id m f) :
    Creating (w.builds.map f) t c := by
  refine ⟨?_, h.row⟩
  intro hsearched x hx b hb hown
  obtain ⟨a, ha, rfl⟩ := List.mem_map.mp hb
  rw [hf.ownedBy_eq] at hown
  rw [hf.firstId_eq (hone.messages_ne_nil ha)]
  exact h.fresh hsearched x hx a ha hown

theorem Creating.create {c c' : CreateBuild} {t : Session} (h : Creating w.builds t c) {startedAt : ℕ}
    {id messageId : Uuid}
    (hother : t.phase.searched = true → ∀ x, c.clientMessageId = some x → c.owner = c'.owner →
      c'.clientMessageId ≠ some x) :
    Creating (w.builds ++ [c'.row startedAt id messageId]) t c := by
  refine ⟨?_, h.row⟩
  intro hsearched x hx b hb hown
  rcases List.mem_append.mp hb with hb | hb
  · exact h.fresh hsearched x hx b hb hown
  · rw [List.mem_singleton.mp hb] at hown ⊢
    rw [row_firstId]
    exact hother hsearched x hx (ownedBy_row.mp hown)

theorem advisory_of_searched {t : Session} {c : CreateBuild} {x : Text} (hcall : t.call = .create c)
    (hsearched : t.phase.searched = true) (hx : c.clientMessageId = some x) :
    t.advisory hashtextextended = some (hashtextextended (c.lockText x)) := by
  unfold Session.advisory
  cases hphase : t.phase with
  | locking => simp [hphase, Phase.searched] at hsearched
  | ended => simp [hphase, Phase.searched] at hsearched
  | _ => simp [hcall, hx]

theorem row_of_owned {t : Session} {c : SubmitMessage} {b : Build} (hcall : t.call = .submit c)
    (hlocking : t.phase ≠ .locking) (hover : t.phase ≠ .ended) (howned : w.owned c = some b) :
    t.row = some b.id := by
  unfold Session.row
  cases hphase : t.phase with
  | locking => exact absurd hphase hlocking
  | ended => exact absurd hphase hover
  | _ => simp [hcall, (owned_spec howned).2.1]

end

/-! ### Steps -/

/-- What a step of `w` leads to. -/
inductive Stepped (hashtextextended : Text → ℤ) (pendingWithinS : ℕ) (w : ChatWorld) :
    ChatWorld → Event → Prop
  | statement {w' : ChatWorld} {e : Event} {i : ℕ} {s : Session} {p : Phase} :
      w.sessions[i]? = some s → w'.sessions = w.sessions.set i { s with phase := p } →
      Did hashtextextended pendingWithinS w s p w'.builds w'.limits e →
      Stepped hashtextextended pendingWithinS w w' e
  | arrive (s : Session) : s.phase = .locking →
      Stepped hashtextextended pendingWithinS w { w with sessions := w.sessions ++ [s] } .nothing
  | restarted (f : Session → Session) (limits : ℕ → Limits) :
      (∀ s, f s = s ∨ f s = { s with phase := .ended }) →
      Stepped hashtextextended pendingWithinS w
        { w with limits, sessions := w.sessions.map f } .restarted
  | reply (id : Uuid) (m : MessageRow) (f : Build → Build) : Wrote id m f → m.clientMessageId = none →
      (∀ s ∈ w.sessions, s.row ≠ some id) →
      Stepped hashtextextended pendingWithinS w { w with builds := w.builds.map f } .nothing

theorem step_stepped (h : (chatStore hashtextextended pendingWithinS).step w e w') :
    Stepped hashtextextended pendingWithinS w w' e := by
  obtain ⟨move, h⟩ := h
  cases move with
  | arrive server call startedAt =>
      obtain ⟨rfl, rfl⟩ := Prod.mk.inj (Option.some.inj h)
      exact Stepped.arrive _ rfl
  | statement i x =>
      obtain ⟨s, hs, h⟩ := Option.bind_eq_some_iff.mp h
      split at h
      · rename_i c hcall
        obtain ⟨p, hset, hdid⟩ := createBuild_did hcall h
        exact Stepped.statement hs hset hdid
      · rename_i c hcall
        obtain ⟨p, hset, hdid⟩ := submitUserMessage_did hcall h
        exact Stepped.statement hs hset hdid
  | lose i =>
      obtain ⟨s, hs, heq⟩ := Option.map_eq_some_iff.mp h
      obtain ⟨rfl, rfl⟩ := Prod.mk.inj heq
      exact Stepped.statement hs rfl Did.lost
  | reply id m status now =>
      simp only [ChatWorld.next] at h
      split at h
      · rename_i hguard
        obtain ⟨rfl, rfl⟩ := Prod.mk.inj (Option.some.inj h)
        obtain ⟨⟨⟨hfree, -⟩, hnone⟩, -⟩ : ((w.rowFree id = true ∧ m.role = .assistant) ∧
            m.clientMessageId = none) ∧ w.hasMessage m.id = false := by simpa using hguard
        exact Stepped.reply id m _ (reply_wrote id m status now) hnone
          (by simpa [ChatWorld.rowFree] using hfree)
      · exact absurd h (by simp)
  | restart server fresh =>
      obtain ⟨rfl, rfl⟩ := Prod.mk.inj (Option.some.inj h)
      refine Stepped.restarted _ _ ?_
      intro s
      split
      · exact Or.inr rfl
      · exact Or.inl rfl

theorem Inv.said (h : Inv hashtextextended pendingWithinS w) {id : Uuid} {m : MessageRow}
    {f : Build → Build} (hf : Wrote id m f) {t : Session} (ht : t ∈ w.sessions) (hfree : t.row ≠ some id)
    (hbuilds : w'.builds = w.builds.map f) :
    (∀ c, t.call = .create c → Creating w'.builds t c) ∧
      ∀ c, t.call = .submit c → t.phase ≠ .locking → t.phase ≠ .ended →
        ∃ b, w'.owned c = some b ∧ Submitting pendingWithinS t c b := by
  refine ⟨?_, ?_⟩
  · intro c hcall
    rw [hbuilds]
    exact (h.creating t ht c hcall).wrote h.once hf
  · intro c hcall hlocking hover
    obtain ⟨b, howned, hsub⟩ := h.submitting t ht c hcall hlocking hover
    refine ⟨b, ?_, hsub⟩
    -- the build it holds is not the one written to
    have hne : b.id ≠ id := by
      intro hid
      exact hfree (hid ▸ row_of_owned hcall hlocking hover howned)
    rw [hf.owned hbuilds, howned, Option.map_some, hf.other b hne]

/-- **A statement keeps what holds.** -/
theorem Inv.statement (h : Inv hashtextextended pendingWithinS w) {p : Phase}
    (hi : w.sessions[i]? = some s) (hset : w'.sessions = w.sessions.set i { s with phase := p })
    (hdid : Did hashtextextended pendingWithinS w s p w'.builds w'.limits e) :
    Inv hashtextextended pendingWithinS w' := by
  have hs : s ∈ w.sessions := List.mem_of_getElem? hi
  -- the tables, what the other transactions know, and what this one knows
  have hkeep : Once w'.builds ∧ (∀ j t, j ≠ i → w.sessions[j]? = some t →
      (∀ c, t.call = .create c → Creating w'.builds t c) ∧
        ∀ c, t.call = .submit c → t.phase ≠ .locking → t.phase ≠ .ended →
          ∃ b, w'.owned c = some b ∧ Submitting pendingWithinS t c b) ∧
      (p ≠ .ended → w'.builds = w.builds) := by
    rcases hdid.writes with hsame | ⟨hp, c, b, hcall, hphase, hid, happ, -⟩ |
      ⟨hp, c, b, m, hcall, hphase, howned, hmap, -⟩
    · have howned : ∀ c, w'.owned c = w.owned c := fun c => by rw [ChatWorld.owned, hsame]; rfl
      refine ⟨hsame ▸ h.once, ?_, fun _ => hsame⟩
      intro j t _ ht
      refine ⟨?_, ?_⟩
      · rw [hsame]
        exact h.creating t (List.mem_of_getElem? ht)
      · intro c
        rw [howned]
        exact h.submitting t (List.mem_of_getElem? ht) c
    · have hcreating := h.creating s hs c hcall
      obtain ⟨id, messageId, rfl⟩ := hcreating.row b hphase
      have hsearched : s.phase.searched = true := by rw [hphase]; rfl
      refine ⟨?_, ?_, fun hne => absurd hp hne⟩
      · rw [happ]
        exact h.once.create hid (hcreating.fresh hsearched)
      · intro j t hj ht
        have htmem := List.mem_of_getElem? ht
        refine ⟨?_, ?_⟩
        · intro c' hcall'
          rw [happ]
          refine (h.creating t htmem c' hcall').create ?_
          intro htsearched x hx howner hx'
          -- two transactions would hold the lock of one owner and id
          have hkey : c'.lockText x = c.lockText x := by rw [CreateBuild.lockText, howner]; rfl
          refine hj (h.advisory j i t s _ ht hi (advisory_of_searched hcall' htsearched hx) ?_)
          rw [hkey]
          exact advisory_of_searched hcall hsearched hx'
        · intro c' hcall' hlocking hover
          obtain ⟨b, howned, hsub⟩ := h.submitting t htmem c' hcall' hlocking hover
          refine ⟨b, ?_, hsub⟩
          unfold ChatWorld.owned at howned ⊢
          rw [happ, List.find?_append, howned]
          rfl
    · obtain ⟨b', howned', hsub⟩ := h.submitting s hs c hcall (by simp [hphase]) (by simp [hphase])
      obtain rfl := Option.some.inj (howned.symm.trans howned')
      obtain ⟨hmem, -, -⟩ := owned_spec howned
      have hrow : s.row = some b.id := row_of_owned hcall (by simp [hphase]) (by simp [hphase]) howned
      refine ⟨?_, ?_, fun hne => absurd hp hne⟩
      · rw [hmap]
        refine h.once.wrote (say_wrote b.id m) ?_
        intro x hx b' hb' hid m' hm' hx'
        obtain rfl := h.once.eq_of_id hb' hmem hid
        obtain ⟨_, _, rfl⟩ := hsub.row m hphase
        exact hsub.fresh (by rw [hphase]; rfl) m' hm' (hx'.trans hx.symm)
      · intro j t hj ht
        refine h.said (say_wrote b.id m) (List.mem_of_getElem? ht) ?_ hmap
        intro htrow
        exact hj (h.row j i t s b.id ht hi htrow hrow)
  obtain ⟨honce, hothers, hsame⟩ := hkeep
  constructor
  · exact honce
  · rw [hset]
    exact h.advisory.set hi fun k hk => hdid.advisory hk
  · rw [hset]
    exact h.row.set hi fun k hk => hdid.row hk
  · intro t ht c hcall
    rw [hset] at ht
    rcases mem_set_cases ht with rfl | ⟨j, hj, ht⟩
    · by_cases hover : p = .ended
      · subst hover
        exact ⟨by simp [Phase.searched], by simp⟩
      · rw [hsame hover]
        exact hdid.creating h hs hcall
    · exact (hothers j t hj ht).1 c hcall
  · intro t ht c hcall hlocking hover
    rw [hset] at ht
    rcases mem_set_cases ht with rfl | ⟨j, hj, ht⟩
    · obtain ⟨b, howned, hsub⟩ := hdid.submitting h hs hcall hover
      refine ⟨b, ?_, hsub⟩
      rw [← howned, ChatWorld.owned, hsame hover]
      rfl
    · exact (hothers j t hj ht).2 c hcall hlocking hover

theorem Inv.step (h : Inv hashtextextended pendingWithinS w)
    (hstep : Stepped hashtextextended pendingWithinS w w' e) :
    Inv hashtextextended pendingWithinS w' := by
  cases hstep with
  | statement hi hset hdid => exact h.statement hi hset hdid
  | arrive s hphase =>
      refine ⟨h.once, h.advisory.append ?_, h.row.append ?_, ?_, ?_⟩
      · unfold Session.advisory
        rw [hphase]
        cases s.call <;> rfl
      · unfold Session.row
        rw [hphase]
        cases s.call <;> rfl
      · intro t ht c hcall
        rcases List.mem_append.mp ht with ht | ht
        · exact h.creating t ht c hcall
        · rw [List.mem_singleton.mp ht]
          exact ⟨by simp [hphase, Phase.searched], by simp [hphase]⟩
      · intro t ht c hcall hlocking hover
        rcases List.mem_append.mp ht with ht | ht
        · exact h.submitting t ht c hcall hlocking hover
        · rw [List.mem_singleton.mp ht] at hlocking
          exact absurd hphase hlocking
  | restarted f limits hf =>
      have hlock : ∀ t k, (f t).advisory hashtextextended = some k → t.advisory hashtextextended = some k := by
        intro t k hk
        rcases hf t with hsame | hover
        · rwa [hsame] at hk
        · rw [hover] at hk
          unfold Session.advisory at hk
          cases hcall : t.call <;> simp [hcall] at hk
      have hrow : ∀ t k, (f t).row = some k → t.row = some k := by
        intro t k hk
        rcases hf t with hsame | hover
        · rwa [hsame] at hk
        · rw [hover] at hk
          unfold Session.row at hk
          cases hcall : t.call <;> simp [hcall] at hk
      refine ⟨h.once, h.advisory.map hlock, h.row.map hrow, ?_, ?_⟩
      · intro t ht c hcall
        obtain ⟨u, hu, rfl⟩ := List.mem_map.mp ht
        rcases hf u with hsame | hover
        · rw [hsame] at hcall ⊢
          exact h.creating u hu c hcall
        · rw [hover]
          exact ⟨by simp [Phase.searched], by simp⟩
      · intro t ht c hcall hlocking hne
        obtain ⟨u, hu, rfl⟩ := List.mem_map.mp ht
        rcases hf u with hsame | hover
        · rw [hsame] at hcall hlocking hne ⊢
          exact h.submitting u hu c hcall hlocking hne
        · rw [hover] at hne
          exact absurd rfl hne
  | reply id m f hf hnone hfree =>
      refine ⟨h.once.wrote hf (fun x hx => absurd (hnone.symm.trans hx) (by simp)), h.advisory, h.row,
        ?_, ?_⟩
      · intro t ht c hcall
        exact (h.said hf ht (hfree t ht) rfl).1 c hcall
      · intro t ht c hcall hlocking hover
        exact (h.said hf ht (hfree t ht) rfl).2 c hcall hlocking hover

theorem inv_run {C : List Event → ChatWorld → Event → Prop} {es : List Event}
    (h : (chatStore hashtextextended pendingWithinS).RunWhere C es w) :
    Inv hashtextextended pendingWithinS w := by
  refine Machine.RunWhere.invariant (I := fun _ w => Inv hashtextextended pendingWithinS w) ?_
    (fun _ _ _ _ hinv hstep _ => hinv.step (step_stepped hstep)) h
  intro w₀ ⟨hbuilds, hsessions⟩
  refine ⟨⟨?_, ?_, ?_, ?_⟩, ?_, ?_, ?_, ?_⟩
  all_goals simp [hbuilds, hsessions, exclusive_nil]

end Albusforge.Chat
