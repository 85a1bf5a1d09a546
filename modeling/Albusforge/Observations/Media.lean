import Albusforge.Observations.Once

/-!
# Live media

An image and a deletion intent never have one key (`Media.fenced`), and an object is deleted for the
generation of an intent that was listed. Whatever a sweep has listed, what it deletes has no image any
more, or is not the object that stands there now (`Task.Safe`); so **the object of a stored receipt is
never deleted** (`live_media`). What is gone stays gone: the receipt expired or its device deleted
(`Dead`).
-/

namespace Albusforge.Observations

open Lib Lib.Json Cloudlink

/-! ## Images, and what is gone -/

def Imaged (s : Service) (id o key : Text) : Prop :=
  ∃ d r i, s.devices id = .alive d ∧ d.receipts.find o = some r ∧ r.image = some i ∧ i.objectKey = key

def Gone (o : Text) : Slot → Prop
  | .unborn => False
  | .alive d => ∃ r t, d.receipts.find o = some r ∧ r.state = .expired t
  | .deleted => True

def Dead (s : Service) (key : Text) : Prop :=
  ∃ x, objectIdentity key = some x ∧ Gone x.observation (s.devices x.device)

theorem hasImage_iff {s : Service} {key : Text} : s.HasImage key ↔ ∃ id o, Imaged s id o key := by
  constructor
  · intro ⟨id, d, r, i, hd, hr, hi, hkey⟩
    exact ⟨id, _, d, r, i, hd, Table.mem_find hr, hi, hkey⟩
  · intro ⟨id, o, d, r, i, hd, hr, hi, hkey⟩
    exact ⟨id, d, r, i, hd, Table.find_mem hr, hi, hkey⟩

section

variable {tokenHash : Text → Text} {digest : List UInt8 → Text}
  {validateJpeg : List UInt8 → ℕ → ℕ → Option (ℕ × ℕ)} {limits : Limits} {options : UploadOptions}
  {s s' : Service} {e : Event} {free : Text → Prop} {id o key : Text}

theorem Describes.identity {d : Device} {r : Receipt} {i : Image} (h : Described tokenHash id d.tenantId r)
    (hi : r.image = some i) : ∃ tenant, objectIdentity i.objectKey = some ⟨tenant, id, r.observationId⟩ := by
  obtain ⟨m, width, height, hm⟩ := h
  refine ⟨uuidOf d.tenantId, ?_⟩
  rw [hm.key i hi, objectIdentity_objectKey d.tenant_uuid m.device_uuid m.observation_uuid, hm.device,
    hm.observation]

theorem Imaged.identity (hall : AllDescribed tokenHash s) (h : Imaged s id o key) :
    ∃ tenant, objectIdentity key = some ⟨tenant, id, o⟩ := by
  obtain ⟨d, r, i, hd, hr, hi, rfl⟩ := h
  obtain ⟨tenant, htenant⟩ := Describes.identity (hall id d hd o r hr) hi
  exact ⟨tenant, Table.find_key hr ▸ htenant⟩

theorem Imaged.not_gone (hall : AllDescribed tokenHash s) (h : Imaged s id o key) :
    ¬ Gone o (s.devices id) := by
  intro hgone
  obtain ⟨d, r, i, hd, hr, hi, -⟩ := h
  rw [hd] at hgone
  obtain ⟨r', t, hr', ht⟩ := hgone
  obtain rfl := Option.some.inj (hr.symm.trans hr')
  obtain ⟨m, width, height, hm⟩ := hall id d hd o r hr
  have hnone := hm.imaged.mp ⟨t, ht⟩
  exact absurd (hi.symm.trans hnone) (by simp)

theorem Imaged.not_dead (hall : AllDescribed tokenHash s) (h : Imaged s id o key) : ¬ Dead s key := by
  intro ⟨x, hx, hgone⟩
  obtain ⟨tenant, htenant⟩ := h.identity hall
  obtain rfl := Option.some.inj (htenant.symm.trans hx)
  exact h.not_gone hall hgone

theorem Moves.gone {fresh : ℕ} {slot slot' : Slot} {x : Option Acceptance}
    (h : Moves tokenHash limits free id fresh slot x slot') (hgone : Gone o slot) : Gone o slot' := by
  cases h with
  | same => exact hgone
  | change hchange =>
      obtain ⟨r, t, hr, ht⟩ := hgone
      obtain ⟨r', hr', hfollows⟩ := hchange.follows hr
      obtain ⟨t', ht'⟩ := hfollows.expired ⟨t, ht⟩
      exact ⟨r', t', hr', ht'⟩
  | provision _ => exact absurd hgone (by simp [Gone])
  | delete => trivial

theorem step_imaged (hinj : Function.Injective tokenHash) (hall : AllDescribed tokenHash s)
    (hall' : AllDescribed tokenHash s')
    (h : ServiceStep tokenHash digest validateJpeg limits options s e s') (himaged : Imaged s id o key) :
    Gone o (s'.devices id) ∨ Imaged s' id o key := by
  obtain ⟨d, r, i, hd, hr, hi, hkey⟩ := himaged
  have hmoves := step_moves id hinj hall h
  rw [hd] at hmoves
  generalize hslot : s'.devices id = slot at hmoves ⊢
  generalize e.acceptanceAt id = x at hmoves
  cases hmoves with
  | same => exact Or.inr ⟨d, r, i, hslot, hr, hi, hkey⟩
  | delete => exact Or.inl trivial
  | @change _ d' _ hchange =>
      obtain ⟨r', hr', hfollows⟩ := hchange.follows hr
      cases hi' : r'.image with
      | some i' =>
          obtain ⟨i₀, hi₀, hsame⟩ := hfollows.key i' hi'
          obtain rfl := Option.some.inj (hi.symm.trans hi₀)
          exact Or.inr ⟨d', r', i', hslot, hr', hi', hsame.trans hkey⟩
      | none =>
          obtain ⟨m, width, height, hm⟩ := hall' id d' hslot o r' hr'
          obtain ⟨t, ht⟩ := hm.imaged.mpr hi'
          exact Or.inl ⟨r', t, hr', ht⟩

theorem imaged_before (hinj : Function.Injective tokenHash) (hall : AllDescribed tokenHash s)
    (h : ServiceStep tokenHash digest validateJpeg limits options s e s') (himaged : Imaged s' id o key) :
    Imaged s id o key ∨ s.intents key = none := by
  obtain ⟨d', r', i', hd', hr', hi', hkey⟩ := himaged
  have hmoves := step_moves id hinj hall h
  rw [hd'] at hmoves
  generalize hslot : s.devices id = slot at hmoves
  generalize e.acceptanceAt id = x at hmoves
  cases hmoves with
  | same => exact Or.inl ⟨d', r', i', hslot, hr', hi', hkey⟩
  | provision hnew => exact absurd ((hnew.find o).symm.trans hr') (by simp)
  | @change d _ _ hchange =>
      rcases hchange.found hr' with hsame | ⟨-, -, hfree, -⟩ | ⟨r, hr, hgoes⟩
      · exact Or.inl ⟨d, r', i', hslot, hsame, hi', hkey⟩
      · exact Or.inr (hkey ▸ hfree i' hi')
      · obtain ⟨i, hi, hsame⟩ := hgoes.follows.key i' hi'
        exact Or.inl ⟨d, r, i, hslot, hr, hi, hsame.symm.trans hkey⟩

/-! ## What a step does to the store and to the intents -/

def Dropped (s s' : Service) (i : Image) : Prop :=
  ∃ id d r, s.devices id = .alive d ∧ d.receipts.find r.observationId = some r ∧ r.image = some i ∧
    Gone r.observationId (s'.devices id)

inductive Effect (s s' : Service) : Prop
  | quiet : s'.objects = s.objects → s'.intents = s.intents → s'.nextGeneration = s.nextGeneration →
      Effect s s'
  | create {key : Text} {x : StoredObject} : s.objects key = none → x.generation = s.nextGeneration →
      s'.objects = Function.update s.objects key (some x) → s'.intents = s.intents →
      s'.nextGeneration = s.nextGeneration + 1 → Effect s s'
  | remove {i : ℕ} {key : Text} {listed : Option ℕ} {x : StoredObject} :
      s.tasks i = .deleting key listed x.generation → s.objects key = some x →
      s'.objects = Function.update s.objects key none → s'.intents = s.intents →
      s'.nextGeneration = s.nextGeneration → Effect s s'
  | unqueue {i : ℕ} {key : Text} {listed : Option ℕ} : s.tasks i = .removed key listed →
      s'.objects = s.objects → s'.intents = Function.update s.intents key
        ((s.intents key).filter fun x => x.generation ≠ listed) →
      s'.nextGeneration = s.nextGeneration → Effect s s'
  | drop {images : List Image} : (∀ i ∈ images, Dropped s s' i) → s'.objects = s.objects →
      s'.intents = images.foldl queueImageDeletion s.intents →
      s'.nextGeneration = s.nextGeneration → Effect s s'
  | orphan {i : ℕ} {key : Text} {generation : ℕ} : s.tasks i = .orphan key generation →
      ¬ s.HasImage key → s'.devices = s.devices → s'.objects = s.objects →
      s'.intents = Function.update s.intents key
        (some ⟨(s.intents key).bind Intent.generation <|> some generation⟩) → s'.nextGeneration = s.nextGeneration →
      Effect s s'

theorem gone_sweepAway {α : Type} (d : Device) (r : Receipt) (i : Image) (value : α) :
    Gone r.observationId (.alive (sweepAway d r i value).device) :=
  ⟨expire r, r.receivedAt, Table.find_put_key rfl, rfl⟩

theorem step_effect (h : ServiceStep tokenHash digest validateJpeg limits options s e s') :
    Effect s s' := by
  cases h with
  | @delete id d hd =>
      refine .drop (?_ : ∀ i ∈ d.receipts.rows.filterMap Receipt.image, Dropped _ _ i) rfl rfl rfl
      intro i hi
      obtain ⟨r, hr, hi⟩ := List.mem_filterMap.mp hi
      refine ⟨id, d, r, hd, Table.mem_find hr, hi, ?_⟩
      simp [Service.dropImages, Gone]
  | create _ hnone => exact .create hnone rfl rfl rfl rfl
  | createUnanswered _ hnone => exact .create hnone rfl rfl rfl rfl
  | @claim i id observation time d swept _ hd hclaim =>
      have hclaims := claim_cases hclaim
      clear hclaim
      cases hclaims with
      | left => exact .quiet rfl rfl rfl
      | claimed _ _ _ _ => exact .quiet rfl rfl rfl
      | @expired r image hr hi =>
          refine .drop (?_ : ∀ i ∈ [image], Dropped _ _ i) rfl rfl rfl
          intro i hmem
          obtain rfl := List.mem_singleton.mp hmem
          have hkey := Table.find_key hr
          refine ⟨id, d, r, hd, hkey ▸ hr, hi, ?_⟩
          have hslot := gone_sweepAway d r i (none : Option Claim)
          simpa [Service.dropImages] using hslot
  | @settle i c object time d swept _ hd hsettle =>
      have hsettles := settle_cases hsettle
      clear hsettle
      cases hsettles with
      | left => exact .quiet rfl rfl rfl
      | failed _ _ _ => exact .quiet rfl rfl rfl
      | stored _ _ _ _ _ _ _ _ _ _ => exact .quiet rfl rfl rfl
      | @expired r image hr hi =>
          refine .drop (?_ : ∀ i ∈ [image], Dropped _ _ i) rfl rfl rfl
          intro i hmem
          obtain rfl := List.mem_singleton.mp hmem
          have hkey := Table.find_key hr
          refine ⟨c.device, d, r, hd, hkey ▸ hr, hi, ?_⟩
          have hslot := gone_sweepAway d r i (none : Option ℕ)
          simpa [Service.dropImages] using hslot
  | remove htask hobject => exact .remove htask hobject rfl rfl rfl
  | removeUnanswered htask hobject => exact .remove htask hobject rfl rfl rfl
  | unqueue htask => exact .unqueue htask rfl rfl rfl
  | queueOrphan htask himage => exact .orphan htask himage rfl rfl rfl rfl
  | _ => exact .quiet rfl rfl rfl

theorem queued_other {images : List Image} {intents : Text → Option Intent}
    (h : ∀ i ∈ images, i.objectKey ≠ key) : images.foldl queueImageDeletion intents key = intents key := by
  induction images generalizing intents with
  | nil => rfl
  | cons i images ih =>
      rw [List.foldl_cons, ih fun i' hi' => h i' (List.mem_cons_of_mem _ hi'), queueImageDeletion,
        Function.update_of_ne (Ne.symm (h i List.mem_cons_self))]

theorem queued_generation {images : List Image} {intents : Text → Option Intent} {x : Intent} {g : ℕ}
    (h : images.foldl queueImageDeletion intents key = some x) (hg : x.generation = some g) :
    (∃ i ∈ images, i.generation = some g) ∨ ∃ y, intents key = some y ∧ y.generation = some g := by
  induction images generalizing intents with
  | nil => exact Or.inr ⟨x, h, hg⟩
  | cons i images ih =>
      rw [List.foldl_cons] at h
      rcases ih h with ⟨i', hi', hg'⟩ | ⟨y, hy, hy'⟩
      · exact Or.inl ⟨i', List.mem_cons_of_mem _ hi', hg'⟩
      by_cases hkey : key = i.objectKey
      · subst hkey
        rw [queueImageDeletion, Function.update_self] at hy
        obtain rfl := Option.some.inj hy
        cases hi : i.generation with
        | some g₀ =>
            rw [hi] at hy'
            exact Or.inl ⟨i, List.mem_cons_self, hi.trans hy'⟩
        | none =>
            rw [hi] at hy'
            obtain ⟨y, hy, hy'⟩ := Option.bind_eq_some_iff.mp hy'
            exact Or.inr ⟨y, hy, hy'⟩
      · rw [queueImageDeletion, Function.update_of_ne hkey] at hy
        exact Or.inr ⟨y, hy, hy'⟩

/-! ## What a task may do -/

def Claimed (s : Service) (id o key : Text) : Prop :=
  (∃ tenant, objectIdentity key = some ⟨tenant, id, o⟩) ∧ (Gone o (s.devices id) ∨ Imaged s id o key)

def Keeps (s : Service) (id o key : Text) (x : StoredObject) : Prop :=
  Claimed s id o key ∧ (Imaged s id o key → s.objects key = some x)

def Past (s : Service) (key : Text) (g : ℕ) : Prop :=
  g < s.nextGeneration ∧ ∀ x, s.objects key = some x → x.generation ≠ g

def Aimed (s : Service) (key : Text) : Option ℕ → Prop
  | none => Dead s key
  | some g => Dead s key ∨ Past s key g ∨ s.intents key = some ⟨some g⟩ ∧ g < s.nextGeneration

def Task.Safe (tokenHash : Text → Text) (digest : List UInt8 → Text) (s : Service) : Task → Prop
  | .creating a => digest a.upload.body = a.upload.metadata.sha256 ∧ Claimed s a.device a.observation a.key
  | .existing a => digest a.upload.body = a.upload.metadata.sha256 ∧ Claimed s a.device a.observation a.key
  | .holding a x => digest a.upload.body = a.upload.metadata.sha256 ∧
      a.matches tokenHash digest x = true ∧ Keeps s a.device a.observation a.key x
  | .claimed c => Claimed s c.device c.observation c.key
  | .headed c x => ∀ y, x = some y → Keeps s c.device c.observation c.key y
  | .listed key g => Aimed s key g
  | .checked key g => Aimed s key g
  | .deleting key aim g => Aimed s key aim ∧ (aim = none ∨ aim = some g)
  | .removed key aim => Dead s key ∨ ∃ g, aim = some g ∧ Past s key g
  | .orphan _ g => g < s.nextGeneration
  | .idle => True
  | .admitted _ _ => True

def Kept (s : Service) (r : Receipt) : Prop :=
  ∃ i x, r.image = some i ∧ i.generation = some x.generation ∧ s.objects i.objectKey = some x ∧
    x.sha256 = r.sha256 ∧ x.fingerprint = r.fingerprint ∧ x.bytes = r.bytes

structure Media (tokenHash : Text → Text) (digest : List UInt8 → Text) (s : Service) : Prop where
  described : AllDescribed tokenHash s
  fenced : ∀ id o key, Imaged s id o key → s.intents key = none
  unknown : ∀ key, s.intents key = some ⟨none⟩ → Dead s key
  past : ∀ key g, s.intents key = some ⟨some g⟩ → g < s.nextGeneration
  objects : ∀ key x, s.objects key = some x → x.generation < s.nextGeneration
  safe : ∀ i, (s.tasks i).Safe tokenHash digest s
  kept : ∀ id d o r t, s.devices id = .alive d → d.receipts.find o = some r → r.state = .stored t → Kept s r

structure Onward (s s' : Service) : Prop where
  gone : ∀ id o, Gone o (s.devices id) → Gone o (s'.devices id)
  imaged : ∀ id o key, Imaged s id o key → Gone o (s'.devices id) ∨ Imaged s' id o key
  apart : ∀ id o key, Imaged s' id o key → ¬ Gone o (s'.devices id)
  next : s.nextGeneration ≤ s'.nextGeneration
  fresh : ∀ key x, s'.objects key = some x → s.objects key = some x ∨
    x.generation = s.nextGeneration ∧ s.nextGeneration < s'.nextGeneration
  stays : ∀ id o key x, Imaged s id o key → s.objects key = some x → s'.objects key = some x
  aimed : ∀ key g, s.intents key = some ⟨some g⟩ → s'.intents key = some ⟨some g⟩ ∨ Dead s key ∨ Past s key g

theorem Onward.dead (h : Onward s s') (hdead : Dead s key) : Dead s' key := by
  obtain ⟨x, hx, hgone⟩ := hdead
  exact ⟨x, hx, h.gone _ _ hgone⟩

theorem Onward.past {g : ℕ} (h : Onward s s') (hpast : Past s key g) : Past s' key g := by
  obtain ⟨hless, hne⟩ := hpast
  refine ⟨Nat.lt_of_lt_of_le hless h.next, ?_⟩
  intro x hx
  rcases h.fresh key x hx with hold | hnew
  · exact hne x hold
  · omega

theorem Onward.claimed (h : Onward s s') (hclaimed : Claimed s id o key) : Claimed s' id o key := by
  obtain ⟨hidentity, hgone | himaged⟩ := hclaimed
  · exact ⟨hidentity, Or.inl (h.gone _ _ hgone)⟩
  · exact ⟨hidentity, h.imaged _ _ _ himaged⟩

theorem Onward.keeps {x : StoredObject} (h : Onward s s') (hkeeps : Keeps s id o key x) :
    Keeps s' id o key x := by
  refine ⟨h.claimed hkeeps.1, ?_⟩
  intro himaged'
  obtain ⟨⟨-, hgone | himaged⟩, hobject⟩ := hkeeps
  · exact absurd (h.gone _ _ hgone) (h.apart _ _ _ himaged')
  · exact h.stays _ _ _ _ himaged (hobject himaged)

theorem Onward.aims {g : Option ℕ} (h : Onward s s') (haimed : Aimed s key g) : Aimed s' key g := by
  cases g with
  | none => exact h.dead haimed
  | some g =>
      rcases haimed with hdead | hpast | ⟨hintent, hless⟩
      · exact Or.inl (h.dead hdead)
      · exact Or.inr (Or.inl (h.past hpast))
      · rcases h.aimed key g hintent with hstill | hdead | hpast
        · exact Or.inr (Or.inr ⟨hstill, Nat.lt_of_lt_of_le hless h.next⟩)
        · exact Or.inl (h.dead hdead)
        · exact Or.inr (Or.inl (h.past hpast))

theorem Onward.safe (h : Onward s s') {t : Task} (ht : t.Safe tokenHash digest s) :
    t.Safe tokenHash digest s' := by
  cases t with
  | idle => trivial
  | admitted q granted => trivial
  | creating a => exact ⟨ht.1, h.claimed ht.2⟩
  | existing a => exact ⟨ht.1, h.claimed ht.2⟩
  | holding a x => exact ⟨ht.1, ht.2.1, h.keeps ht.2.2⟩
  | claimed c => exact h.claimed ht
  | headed c x => exact fun y hy => h.keeps (ht y hy)
  | listed key g => exact h.aims ht
  | checked key g => exact h.aims ht
  | deleting key listed g => exact ⟨h.aims ht.1, ht.2⟩
  | removed key listed =>
      rcases ht with hdead | ⟨g, hg, hpast⟩
      · exact Or.inl (h.dead hdead)
      · exact Or.inr ⟨g, hg, h.past hpast⟩
  | orphan key g => exact Nat.lt_of_lt_of_le ht h.next

theorem Media.deleting (hs : Media tokenHash digest s) {i : ℕ} {listed : Option ℕ} {x : StoredObject}
    (htask : s.tasks i = .deleting key listed x.generation) (hx : s.objects key = some x) :
    ¬ Imaged s id o key := by
  intro himaged
  have hsafe := hs.safe i
  rw [htask] at hsafe
  obtain ⟨haimed, rfl | rfl⟩ := hsafe
  · exact himaged.not_dead hs.described haimed
  · rcases haimed with hdead | ⟨-, hne⟩ | ⟨hintent, -⟩
    · exact himaged.not_dead hs.described hdead
    · exact hne x hx rfl
    · rw [hs.fenced _ _ _ himaged] at hintent
      exact absurd hintent (by simp)

theorem step_onward (hinj : Function.Injective tokenHash) (hs : Media tokenHash digest s)
    (hall' : AllDescribed tokenHash s')
    (h : ServiceStep tokenHash digest validateJpeg limits options s e s') : Onward s s' := by
  have hgone : ∀ id o, Gone o (s.devices id) → Gone o (s'.devices id) := fun id o hgone =>
    (step_moves _ hinj hs.described h).gone hgone
  have himaged : ∀ id o key, Imaged s id o key → Gone o (s'.devices id) ∨ Imaged s' id o key :=
    fun id o key himaged => step_imaged hinj hs.described hall' h himaged
  have hapart : ∀ id o key, Imaged s' id o key → ¬ Gone o (s'.devices id) := fun id o key himaged =>
    himaged.not_gone hall'
  cases step_effect h with
  | quiet hobjects hintents hnext =>
      refine ⟨hgone, himaged, hapart, hnext.ge, ?_, ?_, ?_⟩
      · exact fun key x hx => Or.inl (hobjects ▸ hx)
      · exact fun id o key x _ hx => hobjects ▸ hx
      · exact fun key g hintent => Or.inl (hintents ▸ hintent)
  | @create key₀ x₀ hnone hgeneration hobjects hintents hnext =>
      refine ⟨hgone, himaged, hapart, by omega, ?_, ?_, ?_⟩
      · intro key x hx
        by_cases hkey : key = key₀
        · rw [hobjects, hkey, Function.update_self] at hx
          obtain rfl := Option.some.inj hx
          exact Or.inr ⟨hgeneration, by omega⟩
        · rw [hobjects, Function.update_of_ne hkey] at hx
          exact Or.inl hx
      · intro id o key x _ hx
        by_cases hkey : key = key₀
        · rw [hkey, hnone] at hx
          exact absurd hx (by simp)
        · rw [hobjects, Function.update_of_ne hkey]
          exact hx
      · exact fun key g hintent => Or.inl (hintents ▸ hintent)
  | @remove i key₀ listed x₀ htask hx₀ hobjects hintents hnext =>
      refine ⟨hgone, himaged, hapart, hnext.ge, ?_, ?_, ?_⟩
      · intro key x hx
        by_cases hkey : key = key₀
        · rw [hobjects, hkey, Function.update_self] at hx
          exact absurd hx (by simp)
        · rw [hobjects, Function.update_of_ne hkey] at hx
          exact Or.inl hx
      · intro id o key x himaged hx
        by_cases hkey : key = key₀
        · subst hkey
          exact absurd himaged (hs.deleting htask hx₀)
        · rw [hobjects, Function.update_of_ne hkey]
          exact hx
      · exact fun key g hintent => Or.inl (hintents ▸ hintent)
  | @unqueue i key₀ listed htask hobjects hintents hnext =>
      refine ⟨hgone, himaged, hapart, hnext.ge, ?_, ?_, ?_⟩
      · exact fun key x hx => Or.inl (hobjects ▸ hx)
      · exact fun id o key x _ hx => hobjects ▸ hx
      · intro key g hintent
        by_cases hkey : key = key₀
        · subst hkey
          by_cases hlisted : listed = some g
          · -- the object that was listed has been removed
            have hsafe := hs.safe i
            rw [htask] at hsafe
            rcases hsafe with hdead | ⟨g', hg', hpast⟩
            · exact Or.inr (Or.inl hdead)
            · obtain rfl := Option.some.inj (hlisted.symm.trans hg')
              exact Or.inr (Or.inr hpast)
          · refine Or.inl ?_
            rw [hintents, Function.update_self, hintent, Option.filter_some_pos]
            simpa using Ne.symm hlisted
        · refine Or.inl ?_
          rw [hintents, Function.update_of_ne hkey]
          exact hintent
  | @drop images hdropped hobjects hintents hnext =>
      refine ⟨hgone, himaged, hapart, hnext.ge, ?_, ?_, ?_⟩
      · exact fun key x hx => Or.inl (hobjects ▸ hx)
      · exact fun id o key x _ hx => hobjects ▸ hx
      · intro key g hintent
        refine Or.inl ?_
        rw [hintents, queued_other]
        · exact hintent
        · intro i hi hkey
          obtain ⟨id, d, r, hd, hr, hi, -⟩ := hdropped i hi
          have hnone := hs.fenced id _ key ⟨d, r, i, hd, hr, hi, hkey⟩
          exact absurd (hnone.symm.trans hintent) (by simp)
  | @orphan i key₀ generation htask _ _ hobjects hintents hnext =>
      refine ⟨hgone, himaged, hapart, hnext.ge, ?_, ?_, ?_⟩
      · exact fun key x hx => Or.inl (hobjects ▸ hx)
      · exact fun id o key x _ hx => hobjects ▸ hx
      · intro key g hintent
        refine Or.inl ?_
        rw [hintents]
        by_cases hkey : key = key₀
        · subst hkey
          rw [Function.update_self, hintent]
          rfl
        · rw [Function.update_of_ne hkey]
          exact hintent

/-! ## One step -/

theorem Reserves.imaged (hinj : Function.Injective tokenHash) {a : Attempt} {admitted : ℤ} {fenced : Bool}
    {d d' : Device} (hreceipts : ∀ o r, d.receipts.find o = some r → Described tokenHash id d.tenantId r)
    (h : Reserves tokenHash digest limits options a admitted fenced d d') :
    ∃ r i, d'.receipts.find a.observation = some r ∧ r.image = some i ∧ i.objectKey = a.key := by
  obtain ⟨htenant, hprior, -, -, rfl⟩ := h
  cases hr : d.receipts.find a.observation with
  | none => exact ⟨_, _, Table.find_put_key rfl, rfl, rfl⟩
  | some r =>
      obtain ⟨hfingerprint, hopen⟩ := hprior r hr
      obtain ⟨_, _, hm, -⟩ := (hreceipts _ r hr).attempt hinj hfingerprint
      cases hi : r.image with
      | none => exact absurd (hm.imaged.mpr hi) hopen.unexpired
      | some i =>
          have hkey : i.objectKey = a.key := by rw [hm.key i hi, htenant, Attempt.key]
          have hobservation : r.observationId = a.observation := Table.find_key hr
          exact ⟨_, i, Table.find_put_key hobservation, hi, hkey⟩

theorem Attempt.identity (a : Attempt) :
    ∃ tenant, objectIdentity a.key = some ⟨tenant, a.device, a.observation⟩ :=
  ⟨_, objectIdentity_objectKey a.granted.tenant_uuid a.upload.metadata.device_uuid
    a.upload.metadata.observation_uuid⟩

theorem safe_update {i : ℕ} {t : Task} (hold : ∀ j, (s.tasks j).Safe tokenHash digest s')
    (htasks : s'.tasks = Function.update s.tasks i t) (ht : t.Safe tokenHash digest s') :
    ∀ j, (s'.tasks j).Safe tokenHash digest s' := by
  intro j
  rw [htasks]
  by_cases hj : j = i
  · rw [hj, Function.update_self]
    exact ht
  · rw [Function.update_of_ne hj]
    exact hold j

theorem step_safe (hinj : Function.Injective tokenHash) (hs : Media tokenHash digest s) (honward : Onward s s')
    (h : ServiceStep tokenHash digest validateJpeg limits options s e s') :
    ∀ i, (s'.tasks i).Safe tokenHash digest s' := by
  have hold : ∀ i, (s.tasks i).Safe tokenHash digest s' := fun i => honward.safe (hs.safe i)
  cases h with
  | provision _ _ => exact hold
  | change _ => exact hold
  | delete _ => exact hold
  | admitRefused _ _ _ => exact hold
  | admitUnknown _ _ => exact hold
  | @reserve i a admitted d' hready hreserve =>
      obtain ⟨d, hd, hreserved⟩ := reserveSlot_alive hreserve
      obtain ⟨r, image, hr, hi, hkey⟩ := (reserve_reserved hreserved).imaged hinj (hs.described _ d hd)
      refine safe_update hold rfl ⟨validate_digest hready.valid, a.identity, Or.inr ?_⟩
      exact ⟨d', r, image, by simp, hr, hi, hkey⟩
  | @create i a htask _ =>
      have hsafe := hold i
      rw [htask] at hsafe
      refine safe_update hold rfl ⟨hsafe.1, ?_, hsafe.2, ?_⟩
      · simp [Attempt.matches, Attempt.object]
      · intro _
        exact Function.update_self ..
  | @createRefused i a object htask _ =>
      have hsafe := hold i
      rw [htask] at hsafe
      exact safe_update hold rfl hsafe
  | @head i a object htask hobject hmatches =>
      have hsafe := hold i
      rw [htask] at hsafe
      exact safe_update hold rfl ⟨hsafe.1, hmatches, hsafe.2, fun _ => hobject⟩
  | @claim i deviceId observation time d swept _ hd hclaim =>
      have hclaims := claim_cases hclaim
      clear hclaim
      cases hclaims with
      | left => exact safe_update hold rfl trivial
      | expired _ _ => exact safe_update hold rfl trivial
      | @claimed r image hr hi _ _ =>
          have himaged : Imaged s deviceId observation image.objectKey := ⟨d, r, image, hd, hr, hi, rfl⟩
          refine safe_update hold rfl ?_
          exact ⟨himaged.identity hs.described, honward.imaged _ _ _ himaged⟩
  | @headClaimed i c htask =>
      have hsafe := hold i
      rw [htask] at hsafe
      exact safe_update hold rfl fun y hy => ⟨hsafe, fun _ => hy⟩
  | @list i key intent _ hintent =>
      refine safe_update hold rfl ?_
      obtain ⟨generation⟩ := intent
      cases generation with
      | none => exact honward.dead (hs.unknown key hintent)
      | some g => exact Or.inr (Or.inr ⟨hintent, hs.past key g hintent⟩)
  | @check i key generation htask _ =>
      have hsafe := hold i
      rw [htask] at hsafe
      exact safe_update hold rfl hsafe
  | @request i key generation htask =>
      have hsafe := hold i
      rw [htask] at hsafe
      exact safe_update hold rfl ⟨hsafe, Or.inr rfl⟩
  | @resolve i key htask =>
      have hsafe := hold i
      rw [htask] at hsafe
      refine safe_update hold rfl ?_
      cases s.objects key with
      | none => exact Or.inl hsafe
      | some x => exact ⟨hsafe, Or.inl rfl⟩
  | @remove i key aim object htask hobject =>
      have hsafe := hs.safe i
      have hsafe' := hold i
      rw [htask] at hsafe hsafe'
      refine safe_update hold rfl ?_
      obtain ⟨haimed, rfl | rfl⟩ := hsafe'
      · exact Or.inl haimed
      · refine Or.inr ⟨_, rfl, hs.objects key object hobject, ?_⟩
        intro x hx
        have hnone : (s.removeObject key).objects key = none := Function.update_self ..
        exact absurd (hnone.symm.trans hx) (by simp)
  | @removeMissed i key aim generation htask hmissed =>
      have hsafe := hold i
      rw [htask] at hsafe
      refine safe_update hold rfl ?_
      obtain ⟨haimed, rfl | rfl⟩ := hsafe
      · exact Or.inl haimed
      · rcases haimed with hdead | hpast | ⟨hintent, hless⟩
        · exact Or.inl hdead
        · exact Or.inr ⟨_, rfl, hpast⟩
        · exact Or.inr ⟨_, rfl, hless, hmissed⟩
  | @listObject i key object _ hobject _ => exact safe_update hold rfl (hs.objects key object hobject)
  | _ => exact safe_update hold rfl trivial

theorem Device.store_find {d : Device} {r : Receipt} {generation bytes : ℕ} {received captured : ℤ}
    {capability : Text} (h : r.observationId = o) :
    (d.store r generation received bytes capability captured).receipts.find o = some { r with
      state := .stored received
      image := r.image.map fun i => { i with generation := some generation } } :=
  Table.find_put_key h

theorem Keeps.store {x : StoredObject} {d : Device} {r : Receipt} {received : ℤ} (h : Keeps s id o key x)
    (hd : s.devices id = .alive d) (hr : d.receipts.find o = some r) (hopen : r.Open)
    (hobjects : s'.objects = s.objects) (hsha : x.sha256 = r.sha256)
    (hfingerprint : x.fingerprint = r.fingerprint) (hbytes : x.bytes = r.bytes) :
    Kept s' { r with
      state := .stored received
      image := r.image.map fun i => { i with generation := some x.generation } } := by
  obtain ⟨⟨-, hgone | himaged⟩, hstands⟩ := h
  · rw [hd] at hgone
    obtain ⟨r₀, t, hr₀, ht⟩ := hgone
    obtain rfl := Option.some.inj (hr.symm.trans hr₀)
    exact absurd ⟨t, ht⟩ hopen.unexpired
  · have hstands := hstands himaged
    obtain ⟨d₀, r₀, i, hd₀, hr₀, hi, rfl⟩ := himaged
    obtain rfl := Slot.alive.inj (hd.symm.trans hd₀)
    obtain rfl := Option.some.inj (hr.symm.trans hr₀)
    refine ⟨{ i with generation := some x.generation }, x, by simp [hi], rfl, ?_, hsha, hfingerprint, hbytes⟩
    rw [hobjects]
    exact hstands

/-- **What is accepted has its object.** -/
theorem accepted_kept (hs : Media tokenHash digest s) (hinj : Function.Injective tokenHash)
    (h : ServiceStep tokenHash digest validateJpeg limits options s e s') {x : Acceptance}
    (hx : e.shown.acceptance = some x) {d' : Device} {r' : Receipt}
    (hd' : s'.devices x.device = .alive d') (hr' : d'.receipts.find x.observation = some r') :
    Kept s' r' := by
  cases h with
  | @finalize i a object received _ d₁ htask hfinalize =>
      obtain rfl := Option.some.inj hx
      obtain rfl := Slot.alive.inj (Service.setDevice_self.symm.trans hd')
      obtain ⟨d, hd, hfinal⟩ := finalizeSlot_alive hfinalize
      obtain ⟨r, l, hfound⟩ := finalize_ok hfinal
      have hr := hfound.found
      have hsafe := hs.safe i
      rw [htask] at hsafe
      obtain ⟨hdigest, hmatches, hkeeps⟩ := hsafe
      obtain ⟨_, _, hm, hbytes⟩ := (hs.described _ d hd _ r hr).attempt hinj hfound.fingerprint
      simp only [Attempt.matches, Bool.and_eq_true, decide_eq_true_eq] at hmatches
      rw [hfound.eq] at hr'
      obtain rfl := Option.some.inj ((Device.store_find (Table.find_key hr)).symm.trans hr')
      refine hkeeps.store hd hr (Or.inl ⟨l, hfound.state⟩) rfl ?_ ?_ ?_
      · exact hmatches.1.1.trans (hdigest.trans hm.sha256.symm)
      · exact hmatches.1.2.trans hfound.fingerprint.symm
      · exact hmatches.2.trans hbytes.symm
  | @settle i c object time d swept htask hd hsettle =>
      have hsettles := settle_cases hsettle
      clear hsettle
      have hsafe := hs.safe i
      rw [htask] at hsafe
      cases hsettles with
      | left => exact absurd hx (by simp [leave, Shown.acceptance])
      | expired _ _ => exact absurd hx (by simp [sweepAway, Shown.acceptance])
      | failed _ _ _ => exact absurd hx (by simp [Shown.acceptance])
      | @stored r image l o hr hi hstate _ _ hobject hsha hfingerprint hbytes _ =>
          obtain rfl := Option.some.inj hx
          obtain rfl := Slot.alive.inj (Service.setDevice_self.symm.trans hd')
          obtain rfl := Option.some.inj ((Device.store_find (Table.find_key hr)).symm.trans hr')
          exact (hsafe o hobject).store hd hr (Or.inl ⟨l, hstate⟩) rfl hsha hfingerprint hbytes
  | _ => exact absurd hx (by simp [Shown.acceptance])

theorem Onward.kept (h : Onward s s') (hs : Media tokenHash digest s) {d : Device} {r : Receipt} {t : ℤ}
    (hd : s.devices id = .alive d) (hr : d.receipts.find o = some r) (hstate : r.state = .stored t) :
    Kept s' r := by
  obtain ⟨i, x, hi, hg, hx, hsame⟩ := hs.kept id d o r t hd hr hstate
  exact ⟨i, x, hi, hg, h.stays id o _ x ⟨d, r, i, hd, hr, hi, rfl⟩ hx, hsame⟩

theorem Dropped.imaged {i : Image} (h : Dropped s s' i) :
    ∃ id o, Imaged s id o i.objectKey ∧ Gone o (s'.devices id) := by
  obtain ⟨id, d, r, hd, hr, hi, hgone⟩ := h
  exact ⟨id, r.observationId, ⟨d, r, i, hd, hr, hi, rfl⟩, hgone⟩

theorem Dropped.dead (hall : AllDescribed tokenHash s) {i : Image} (h : Dropped s s' i) :
    Dead s' i.objectKey := by
  obtain ⟨id, o, himaged, hgone⟩ := h.imaged
  obtain ⟨tenant, htenant⟩ := himaged.identity hall
  exact ⟨_, htenant, hgone⟩

theorem Dropped.generation (hs : Media tokenHash digest s) {i : Image} {g : ℕ} (h : Dropped s s' i)
    (hg : i.generation = some g) : g < s.nextGeneration := by
  obtain ⟨id, d, r, hd, hr, hi, -⟩ := h
  obtain ⟨m, width, height, hm⟩ := hs.described id d hd _ r hr
  obtain ⟨t, ht⟩ := hm.generated i g hi hg
  obtain ⟨i', x, hi', hg', hx, -⟩ := hs.kept id d _ r t hd hr ht
  obtain rfl := Option.some.inj (hi.symm.trans hi')
  obtain rfl := Option.some.inj (hg.symm.trans hg')
  exact hs.objects _ x hx

theorem step_media (hinj : Function.Injective tokenHash) (hs : Media tokenHash digest s)
    (h : ServiceStep tokenHash digest validateJpeg limits options s e s') : Media tokenHash digest s' := by
  have hall' : AllDescribed tokenHash s' := fun id =>
    (step_moves id hinj hs.described h).described (hs.described id)
  have honward := step_onward hinj hs hall' h
  -- an image that was there, or whose key is free
  have hfree : ∀ id o key, Imaged s' id o key → s.intents key = none := by
    intro id o key himaged
    rcases imaged_before hinj hs.described h himaged with hbefore | hnone
    · exact hs.fenced id o key hbefore
    · exact hnone
  have hobjects : ∀ key x, s'.objects key = some x → x.generation < s'.nextGeneration := by
    intro key x hx
    rcases honward.fresh key x hx with hold | ⟨hgeneration, hless⟩
    · exact Nat.lt_of_lt_of_le (hs.objects key x hold) honward.next
    · omega
  have hkept : ∀ id d o r t, s'.devices id = .alive d → d.receipts.find o = some r →
      r.state = .stored t → Kept s' r := by
    intro id d' o r t hd' hr hstate
    rcases step_enters hinj hs.described h hd' hr hstate with ⟨d, hd, hold⟩ | ⟨x, hx, rfl⟩
    · exact honward.kept hs hd hold hstate
    · obtain ⟨hshown, hdevice⟩ := Option.filter_eq_some_iff.mp hx
      obtain rfl : x.device = id := by simpa using hdevice
      exact accepted_kept hs hinj h hshown hd' hr
  have hsafe := step_safe hinj hs honward h
  -- the intents
  suffices hintents : (∀ id o key, Imaged s' id o key → s'.intents key = none) ∧
      (∀ key, s'.intents key = some ⟨none⟩ → Dead s' key) ∧
      ∀ key g, s'.intents key = some ⟨some g⟩ → g < s'.nextGeneration from
    ⟨hall', hintents.1, hintents.2.1, hintents.2.2, hobjects, hsafe, hkept⟩
  have hsame : s'.intents = s.intents → (∀ id o key, Imaged s' id o key → s'.intents key = none) ∧
      (∀ key, s'.intents key = some ⟨none⟩ → Dead s' key) ∧
      ∀ key g, s'.intents key = some ⟨some g⟩ → g < s'.nextGeneration := by
    intro heq
    rw [heq]
    exact ⟨hfree, fun key hintent => honward.dead (hs.unknown key hintent),
      fun key g hintent => Nat.lt_of_lt_of_le (hs.past key g hintent) honward.next⟩
  cases step_effect h with
  | quiet _ hintents _ => exact hsame hintents
  | create _ _ _ hintents _ => exact hsame hintents
  | remove _ _ _ hintents _ => exact hsame hintents
  | @unqueue i key₀ listed _ _ hintents _ =>
      have hbefore : ∀ key x, s'.intents key = some x → s.intents key = some x := by
        intro key x hx
        by_cases hkey : key = key₀
        · rw [hintents, hkey, Function.update_self] at hx
          exact hkey ▸ (Option.filter_eq_some_iff.mp hx).1
        · rwa [hintents, Function.update_of_ne hkey] at hx
      refine ⟨?_, ?_, ?_⟩
      · intro id o key himaged
        cases hx : s'.intents key with
        | none => rfl
        | some x => exact absurd ((hfree id o key himaged).symm.trans (hbefore key x hx)) (by simp)
      · exact fun key hintent => honward.dead (hs.unknown key (hbefore key _ hintent))
      · exact fun key g hintent =>
          Nat.lt_of_lt_of_le (hs.past key g (hbefore key _ hintent)) honward.next
  | @drop images hdropped _ hintents _ =>
      refine ⟨?_, ?_, ?_⟩
      · intro id o key himaged
        rw [hintents, queued_other]
        · exact hfree id o key himaged
        · intro i hi hkey
          exact himaged.not_dead hall' (hkey ▸ (hdropped i hi).dead hs.described)
      · intro key hintent
        by_cases hkey : ∃ i ∈ images, i.objectKey = key
        · obtain ⟨i, hi, rfl⟩ := hkey
          exact (hdropped i hi).dead hs.described
        · rw [hintents, queued_other fun i hi heq => hkey ⟨i, hi, heq⟩] at hintent
          exact honward.dead (hs.unknown key hintent)
      · intro key g hintent
        rw [hintents] at hintent
        rcases queued_generation hintent rfl with ⟨i, hi, hg⟩ | ⟨⟨generation⟩, hy, rfl⟩
        · exact Nat.lt_of_lt_of_le ((hdropped i hi).generation hs hg) honward.next
        · exact Nat.lt_of_lt_of_le (hs.past key g hy) honward.next
  | @orphan i key₀ generation htask himage hdevices _ hintents hnext =>
      have hother : ∀ key, key ≠ key₀ → s'.intents key = s.intents key := by
        intro key hkey
        rw [hintents, Function.update_of_ne hkey]
      refine ⟨?_, ?_, ?_⟩
      · intro id o key himaged
        have hbefore : Imaged s id o key := by
          rw [Imaged, hdevices] at himaged
          exact himaged
        rw [hother key fun hkey => himage (hasImage_iff.mpr ⟨id, o, hkey ▸ hbefore⟩)]
        exact hs.fenced id o key hbefore
      · intro key hintent
        by_cases hkey : key = key₀
        · rw [hintents, hkey, Function.update_self] at hintent
          cases hg : (s.intents key₀).bind Intent.generation with
          | none => exact absurd hintent (by simp [hg])
          | some g => exact absurd hintent (by simp [hg])
        · rw [hother key hkey] at hintent
          exact honward.dead (hs.unknown key hintent)
      · intro key g hintent
        by_cases hkey : key = key₀
        · rw [hintents, hkey, Function.update_self] at hintent
          have hless := hs.safe i
          rw [htask] at hless
          cases hx : s.intents key₀ with
          | none =>
              have heq : generation = g := by simpa [hx] using hintent
              exact heq ▸ hnext ▸ hless
          | some x =>
              obtain ⟨_ | g'⟩ := x
              · have heq : generation = g := by simpa [hx] using hintent
                exact heq ▸ hnext ▸ hless
              · have heq : g' = g := by simpa [hx] using hintent
                exact heq ▸ hnext ▸ hs.past key₀ g' hx
        · rw [hother key hkey] at hintent
          exact hnext ▸ hs.past key g hintent

theorem media_run (hinj : Function.Injective tokenHash) {es : List Event}
    (hrun : (service tokenHash digest validateJpeg limits options).Run es s) : Media tokenHash digest s := by
  refine hrun.invariant (I := fun _ s => Media tokenHash digest s) ?_ ?_
  · intro s ⟨hunborn, hintents, hidle, hobjects⟩
    have hnone : ∀ id d, s.devices id ≠ .alive d := fun id d hd =>
      absurd ((hunborn id).symm.trans hd) (by simp)
    refine ⟨fun id d hd => absurd hd (hnone id d), fun _ _ key _ => hintents key, ?_, ?_, hobjects, ?_, ?_⟩
    · exact fun key hintent => absurd ((hintents key).symm.trans hintent) (by simp)
    · exact fun key g hintent => absurd ((hintents key).symm.trans hintent) (by simp)
    · intro i
      rw [hidle i]
      trivial
    · exact fun id d _ _ _ hd => absurd hd (hnone id d)
  · intro es s e s' hs hone _
    exact step_media hinj hs hone

/-! ## Runs -/

theorem gone_steps (hinj : Function.Injective tokenHash) {es es' : List Event}
    (hrun : (service tokenHash digest validateJpeg limits options).Run es s)
    (hsteps : (service tokenHash digest validateJpeg limits options).Steps s es' s')
    (hgone : Gone o (s.devices id)) :
    Gone o (s'.devices id) ∧ ∀ e ∈ es', ∀ x, e.acceptanceAt id = some x → x.observation ≠ o := by
  induction hsteps generalizing es with
  | refl => exact ⟨hgone, fun e he => absurd he (by simp)⟩
  | step hone _ ih =>
      have hnext := (step_moves _ hinj (described_run hinj hrun) hone).gone hgone
      obtain ⟨hlast, hrest⟩ := ih (.step hrun hone trivial) hnext
      refine ⟨hlast, ?_⟩
      intro e' he' x hx ho
      rcases List.mem_cons.mp he' with rfl | hmem
      · obtain ⟨hshown, hdevice⟩ := Option.filter_eq_some_iff.mp hx
        obtain rfl : x.device = id := by simpa using hdevice
        obtain ⟨_, d, r, l, -, -, hd, hr, hl, -⟩ := step_accepts hone hshown
        rw [hd] at hgone
        obtain ⟨r', t, hr', ht⟩ := hgone
        rw [← ho, hr] at hr'
        obtain rfl := Option.some.inj hr'
        exact absurd (hl.symm.trans ht) (by simp)
      · exact hrest e' hmem x hx ho

structure LiveMedia (tokenHash : Text → Text) (digest : List UInt8 → Text)
    (validateJpeg : List UInt8 → ℕ → ℕ → Option (ℕ × ℕ)) (limits : Limits) (options : UploadOptions)
    (s : Service) : Prop where
  fenced : ∀ key, s.HasImage key → s.intents key = none
  kept : ∀ id d o r t, s.devices id = .alive d → d.receipts.find o = some r → r.state = .stored t → Kept s r
  undeleted : ∀ e s' key x, ServiceStep tokenHash digest validateJpeg limits options s e s' →
    e.shown = .deleted key x → ∀ id d o r i t, s.devices id = .alive d → d.receipts.find o = some r →
    r.state = .stored t → r.image = some i → i.objectKey ≠ key
  expired : ∀ id d o r t, s.devices id = .alive d → d.receipts.find o = some r → r.state = .expired t →
    ∀ es' s', (service tokenHash digest validateJpeg limits options).Steps s es' s' →
    (∀ d', s'.devices id = .alive d' → ∃ r' t', d'.receipts.find o = some r' ∧ r'.state = .expired t') ∧
      ∀ e ∈ es', ∀ x, e.acceptanceAt id = some x → x.observation ≠ o

/-- **Live media is never deleted**, whatever sweeps, uploads and crashes there are. -/
theorem live_media (hinj : Function.Injective tokenHash) {es : List Event}
    (hrun : (service tokenHash digest validateJpeg limits options).Run es s) :
    LiveMedia tokenHash digest validateJpeg limits options s := by
  have hs := media_run hinj hrun
  refine ⟨?_, hs.kept, ?_, ?_⟩
  · intro key himage
    obtain ⟨id, o, himaged⟩ := hasImage_iff.mp himage
    exact hs.fenced id o key himaged
  · intro e s' key x hone hshown id d o r i t hd hr _ hi hkey
    have himaged : Imaged s id o key := ⟨d, r, i, hd, hr, hi, hkey⟩
    cases hone with
    | remove htask hx =>
        obtain ⟨rfl, rfl⟩ := Shown.deleted.inj hshown
        exact hs.deleting htask hx himaged
    | removeUnanswered htask hx =>
        obtain ⟨rfl, rfl⟩ := Shown.deleted.inj hshown
        exact hs.deleting htask hx himaged
    | @settle _ _ _ _ _ swept _ _ _ =>
        cases hvalue : swept.value with
        | none => exact absurd hshown (by simp [hvalue])
        | some bytes => exact absurd hshown (by simp [hvalue])
    | _ => exact absurd hshown (by simp)
  · intro id d o r t hd hr hstate es' s' hsteps
    have hgone : Gone o (s.devices id) := by
      rw [hd]
      exact ⟨r, t, hr, hstate⟩
    obtain ⟨hlast, hnever⟩ := gone_steps hinj hrun hsteps hgone
    refine ⟨?_, hnever⟩
    intro d' hd'
    rw [hd'] at hlast
    exact hlast

end

theorem live_media_bench :
    LiveMedia id Bench.digest Bench.validateJpeg Bench.limits Bench.options Bench.s₅ :=
  live_media Function.injective_id Bench.stored_run

end Albusforge.Observations
