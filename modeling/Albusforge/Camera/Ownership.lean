import Albusforge.Lib.Machine
import Albusforge.Camera.Owner

/-!
# One card, and whoever calls

Any identities check a card and probe it, in any order; the power may be lost during every call,
and others use the card for what they like but for its marker. The marker is created exclusively
and written once, so that it only ever loses bytes: **at most one identity is ever told that the
card is its own** (`sdcard_ownership`).
-/

namespace Albusforge.Camera

open Lib Lib.Disk Lib.Proc

inductive CardEvent
  /-- A call of `obs_owner_check`; no status when the power was lost during it. -/
  | check (identity : Option OwnerIdentity) (initializing : Bool) (status : Option OwnerStatus)
  /-- A call of `obs_owner_write_probe`, with the status it had from `obs_owner_check`. -/
  | probe (identity : Option OwnerIdentity) (status : OwnerStatus) (result : Option Bool)
  | other (after : Disk)
  | powerLoss

inductive CardStep (esp : Bool) (root : CString) : Disk → CardEvent → Disk → Prop
  | check {d d' : Disk} {identity : Option OwnerIdentity} {initializing : Bool} {status : OwnerStatus} :
      Exec serves d (obsOwnerCheck esp (some root) identity initializing) d' (some status) →
      CardStep esp root d (.check identity initializing (some status)) d'
  | checkCut {d d₁ d' : Disk} {identity : Option OwnerIdentity} {initializing : Bool} :
      Exec serves d (obsOwnerCheck esp (some root) identity initializing) d₁ none → PowerLoss d₁ d' →
      CardStep esp root d (.check identity initializing none) d'
  | probe {d d₁ d' : Disk} {identity : Option OwnerIdentity} {status : OwnerStatus} {result : Bool} :
      Exec serves d (obsOwnerCheck esp (some root) identity false) d₁ (some status) →
      Exec serves d₁ (probeAfter (some root) status) d' (some result) →
      CardStep esp root d (.probe identity status (some result)) d'
  | probeCut {d d₁ d₂ d' : Disk} {identity : Option OwnerIdentity} {status : OwnerStatus} :
      Exec serves d (obsOwnerCheck esp (some root) identity false) d₁ (some status) →
      Exec serves d₁ (probeAfter (some root) status) d₂ none → PowerLoss d₂ d' →
      CardStep esp root d (.probe identity status none) d'
  | other {d d' : Disk} : d' (markerPath root) = d (markerPath root) →
      CardStep esp root d (.other d') d'
  | powerLoss {d d' : Disk} : PowerLoss d d' → CardStep esp root d .powerLoss d'

def card (esp : Bool) (root : CString) : Machine Disk CardEvent where
  init d := ∀ p c k, d p = some (.file c k) → c.length ≤ k
  step := CardStep esp root

def Received (identity : Option OwnerIdentity) (es : List CardEvent) : Prop :=
  (∃ initializing, .check identity initializing (some .ok) ∈ es) ∨
    ∃ result, .probe identity .ok result ∈ es

def Malformed (root : CString) (d : Disk) : Prop :=
  ∃ n, d (markerPath root) = some n ∧ ∀ c k, n = .file c k → wellFormed c = false

def Claimed (root : CString) (d : Disk) (directory : Bytes) (n : Bytes) : Prop :=
  d (markerPath root) = none ∧ (directory = ownerSpool ∨ directory = ownerQuarantine) ∧
    IsName n ∧ isDot n = false ∧ (d (Path.child root.bytes directory)).isSome = true ∧
    (d (Path.child (Path.child root.bytes directory) n)).isSome = true

section

variable {esp : Bool} {root : CString} {d d' : Disk} {e : CardEvent} {es : List CardEvent}
  {identity identity' : Option OwnerIdentity}

def Kept (p : Path) (d d' : Disk) : Prop :=
  ∀ n, d p = some n → d' p = some n ∨
    ∃ c k j, n = .file c k ∧ k ≤ j ∧ d' p = some (.file (c.take j) (c.take j).length)

theorem PowerLoss.kept {p : Path} (h : PowerLoss d d') : Kept p d d' := by
  intro n hn
  have hp := h p
  rw [hn] at hp
  cases n with
  | file c k =>
      obtain ⟨j, hj, hd⟩ := hp
      exact Or.inr ⟨c, k, j, rfl, hj, hd⟩
  | directory => exact Or.inl hp
  | special => exact Or.inl hp

theorem PowerLoss.absent {p : Path} (h : PowerLoss d d') (hp : d p = none) : d' p = none := by
  have hd := h p
  rwa [hp] at hd

theorem Preserves.kept {p : Path} (h : Preserves d d') : Kept p d d' := fun n hn => Or.inl (h p n hn)

theorem Preserves.kept_loss {p : Path} {d₁ : Disk} (h : Preserves d d₁) (hloss : PowerLoss d₁ d') :
    Kept p d d' := fun n hn => PowerLoss.kept hloss n (h p n hn)

theorem Kept.isSome {p : Path} (h : Kept p d d') (hp : (d p).isSome = true) :
    (d' p).isSome = true := by
  obtain ⟨n, hn⟩ := Option.isSome_iff_exists.mp hp
  rcases h n hn with hd | ⟨_, _, _, _, _, hd⟩
  · rw [hd]
    rfl
  · rw [hd]
    rfl

theorem check_preserves {initializing : Bool} {x : Option OwnerStatus}
    (h : Exec serves d (obsOwnerCheck esp (some root) identity initializing) d' x) : Preserves d d' := by
  have hwp := wp_mono (fun _ _ h => Checked.preserves h.1) (fun _ h => Checked.preserves h)
    (@check_wp esp root identity d initializing)
  cases x with
  | some status => exact h.value hwp
  | none => exact h.left hwp

theorem probeAfter_preserves {status : OwnerStatus} {x : Option Bool}
    (h : Exec serves d (probeAfter (some root) status) d' x) : Preserves d d' := by
  cases x with
  | some r => exact (h.value probeAfter_wp).1
  | none => exact (h.left probeAfter_wp).1

theorem probe_preserves {x : Option Bool}
    (h : Exec serves d (obsOwnerWriteProbe esp (some root) identity) d' x) : Preserves d d' := by
  rcases exec_bind.mp h with ⟨d₁, status, hcheck, hafter⟩ | ⟨hcheck, -⟩
  · intro p n hn
    exact probeAfter_preserves hafter p n (check_preserves hcheck p n hn)
  · exact check_preserves hcheck

theorem probe_reads {status : OwnerStatus} {d₁ : Disk}
    (h : Exec serves d (obsOwnerCheck esp (some root) identity false) d₁ (some status)) :
    d₁ = d ∧ (status = .ok → Bound root identity d) := h.value check_reads

theorem CardStep.kept (h : CardStep esp root d e d') : Kept (markerPath root) d d' := by
  cases h with
  | check hexec => exact (check_preserves hexec).kept
  | checkCut hexec hloss => exact (check_preserves hexec).kept_loss hloss
  | probe hcheck hafter =>
      obtain ⟨rfl, -⟩ := probe_reads hcheck
      exact (probeAfter_preserves hafter).kept
  | probeCut hcheck hafter hloss =>
      obtain ⟨rfl, -⟩ := probe_reads hcheck
      exact (probeAfter_preserves hafter).kept_loss hloss
  | other hsame =>
      intro n hn
      exact Or.inl (hsame.trans hn)
  | powerLoss hloss => exact PowerLoss.kept hloss

theorem content_file {p : Path} {c : Bytes} (h : d.content p = some c) : ∃ k, d p = some (.file c k) := by
  unfold Disk.content at h
  split at h
  · rename_i c' k hp
    obtain rfl := Option.some.inj h
    exact ⟨k, hp⟩
  · exact absurd h (by simp)

theorem Kept.content {p : Path} {c : Bytes} (h : Kept p d d') (hc : d.content p = some c) :
    ∃ c', d'.content p = some c' ∧ c' <+: c := by
  obtain ⟨k, hp⟩ := content_file hc
  rcases h _ hp with hd | ⟨_, _, j, heq, _, hd⟩
  · exact ⟨c, by simp [Disk.content, hd], List.prefix_refl c⟩
  · obtain ⟨rfl, rfl⟩ := Node.file.inj heq
    exact ⟨c.take j, by simp [Disk.content, hd], List.take_prefix j c⟩

theorem CardStep.received (h : CardStep esp root d e d') (hr : Received identity [e]) :
    ∃ m, expectedMarker identity = some m ∧
      ((d (markerPath root)).isSome = true → d.content (markerPath root) = some m) ∧
      ∃ c, d'.content (markerPath root) = some c ∧ c <+: m := by
  -- a probe is told of the marker before it writes anything
  have hprobe : ∀ {m}, d.content (markerPath root) = some m →
      ∃ c, d'.content (markerPath root) = some c ∧ c <+: m := fun hm => h.kept.content hm
  cases h with
  | check hexec =>
      rename_i told initializing status
      obtain ⟨rfl, hok⟩ : identity = told ∧ OwnerStatus.ok = status := by simpa [Received] using hr
      obtain ⟨-, hbound⟩ := hexec.value check_wp
      obtain ⟨m, hm, hcontent⟩ := hbound hok.symm
      refine ⟨m, hm, ?_, m, hcontent, List.prefix_refl m⟩
      intro hsome
      obtain ⟨n, hn⟩ := Option.isSome_iff_exists.mp hsome
      have hkept := check_preserves hexec _ n hn
      simpa [Disk.content, hn, hkept] using hcontent
  | checkCut _ _ => exact absurd hr (by simp [Received])
  | probe hcheck hafter =>
      rename_i told status result
      obtain ⟨rfl, hok⟩ : identity = told ∧ OwnerStatus.ok = status := by simpa [Received] using hr
      obtain ⟨rfl, hbound⟩ := probe_reads hcheck
      obtain ⟨m, hm, hcontent⟩ := hbound hok.symm
      exact ⟨m, hm, fun _ => hcontent, hprobe hcontent⟩
  | probeCut hcheck hafter hloss =>
      rename_i told status
      obtain ⟨rfl, hok⟩ : identity = told ∧ OwnerStatus.ok = status := by simpa [Received] using hr
      obtain ⟨rfl, hbound⟩ := probe_reads hcheck
      obtain ⟨m, hm, hcontent⟩ := hbound hok.symm
      exact ⟨m, hm, fun _ => hcontent, hprobe hcontent⟩
  | other _ => exact absurd hr (by simp [Received])
  | powerLoss _ => exact absurd hr (by simp [Received])

theorem received_append {es' : List CardEvent} :
    Received identity (es ++ es') ↔ Received identity es ∨ Received identity es' := by
  simp only [Received, List.mem_append]
  constructor
  · intro h
    rcases h with ⟨i, h | h⟩ | ⟨r, h | h⟩
    · exact Or.inl (Or.inl ⟨i, h⟩)
    · exact Or.inr (Or.inl ⟨i, h⟩)
    · exact Or.inl (Or.inr ⟨r, h⟩)
    · exact Or.inr (Or.inr ⟨r, h⟩)
  · intro h
    rcases h with (⟨i, h⟩ | ⟨r, h⟩) | ⟨i, h⟩ | ⟨r, h⟩
    · exact Or.inl ⟨i, Or.inl h⟩
    · exact Or.inr ⟨r, Or.inl h⟩
    · exact Or.inl ⟨i, Or.inr h⟩
    · exact Or.inr ⟨r, Or.inr h⟩

theorem expectedMarker_length {m : Bytes} (h : expectedMarker identity = some m) :
    m.length = ownerSize := by
  obtain ⟨o, -, hm⟩ := marked_of_expected h
  rw [hm.eq, sealed_length hm.short]

structure Owned (root : CString) (es : List CardEvent) (d : Disk) : Prop where
  begun : ∀ i, Received i es → ∃ m, expectedMarker i = some m ∧
    ∃ c, d.content (markerPath root) = some c ∧ c <+: m
  one : ∀ i i', Received i es → Received i' es → i = i'

theorem Owned.step (h : Owned root es d) (hs : CardStep esp root d e d') :
    Owned root (es ++ [e]) d' := by
  have hbegun : ∀ i, Received i (es ++ [e]) → ∃ m, expectedMarker i = some m ∧
      ∃ c, d'.content (markerPath root) = some c ∧ c <+: m := by
    intro i hi
    rcases received_append.mp hi with hold | hnew
    · obtain ⟨m, hm, c, hc, hpre⟩ := h.begun i hold
      obtain ⟨c', hc', hpre'⟩ := hs.kept.content hc
      exact ⟨m, hm, c', hc', hpre'.trans hpre⟩
    · obtain ⟨m, hm, -, hafter⟩ := hs.received hnew
      exact ⟨m, hm, hafter⟩
  -- a marker that is there is the one of the earlier identity, whole or not
  have hone : ∀ i i', Received i es → Received i' [e] → i = i' := by
    intro i i' hold hnew
    obtain ⟨m, hm, c, hc, hpre⟩ := h.begun i hold
    obtain ⟨m', hm', hthere, -⟩ := hs.received hnew
    obtain ⟨k, hk⟩ := content_file hc
    have heq := hthere (by rw [hk]; rfl)
    obtain rfl := Option.some.inj (hc.symm.trans heq)
    have hlength : c.length = m.length := by
      rw [expectedMarker_length hm, expectedMarker_length hm']
    obtain rfl := hpre.eq_of_length hlength
    exact expectedMarker_injective hm hm'
  have hsame : ∀ i i', Received i [e] → Received i' [e] → i = i' := by
    intro i i' hi hi'
    simp only [Received, List.mem_singleton] at hi hi'
    rcases hi with ⟨a, rfl⟩ | ⟨a, rfl⟩
    · rcases hi' with ⟨b, hb⟩ | ⟨b, hb⟩
      · exact (CardEvent.check.inj hb).1.symm
      · exact absurd hb (by simp)
    · rcases hi' with ⟨b, hb⟩ | ⟨b, hb⟩
      · exact absurd hb (by simp)
      · exact (CardEvent.probe.inj hb).1.symm
  refine ⟨hbegun, ?_⟩
  intro i i' hi hi'
  rcases received_append.mp hi with hold | hnew
  · rcases received_append.mp hi' with hold' | hnew'
    · exact h.one i i' hold hold'
    · exact hone i i' hold hnew'
  · rcases received_append.mp hi' with hold' | hnew'
    · exact (hone i' i hold' hnew).symm
    · exact hsame i i' hnew hnew'

theorem owned_run (h : (card esp root).Run es d) : Owned root es d := by
  refine Machine.RunWhere.invariant ?_ ?_ h
  · intro d _
    exact ⟨by simp [Received], by simp [Received]⟩
  · intro es d e d' ho hs _
    exact ho.step hs

def Traceable (root : CString) (d : Disk) : Prop :=
  ∀ c k, d (markerPath root) = some (.file c k) →
    c.length ≤ k ∨ ∃ i m, expectedMarker i = some m ∧ c <+: m

theorem Traceable.check {initializing : Bool} {x : Option OwnerStatus} (h : Traceable root d)
    (hexec : Exec serves d (obsOwnerCheck esp (some root) identity initializing) d' x) :
    Traceable root d' := by
  have hchecked : Checked root identity d d' := by
    cases x with
    | some status => exact (hexec.value check_wp).1
    | none => exact hexec.left check_wp
  rcases hchecked with rfl | ⟨m, hm, _, _, _, c, k, hc, rfl⟩
  · exact h
  · intro c' k' hc'
    rw [set_self] at hc'
    obtain ⟨rfl, rfl⟩ := Node.file.inj (Option.some.inj hc')
    exact Or.inr ⟨identity, m, hm, hc⟩

theorem Traceable.loss (hloss : PowerLoss d d') : Traceable root d' := by
  intro c k hc
  have hp := hloss (markerPath root)
  split at hp
  · obtain ⟨n, -, hd⟩ := hp
    obtain ⟨rfl, rfl⟩ := Node.file.inj (Option.some.inj (hc.symm.trans hd))
    exact Or.inl (Nat.le_refl _)
  · rename_i hfile
    exact absurd (hp.symm.trans hc) (hfile c k)

theorem Traceable.probe {status : OwnerStatus} {d₁ : Disk} {x : Option Bool} (h : Traceable root d)
    (hcheck : Exec serves d (obsOwnerCheck esp (some root) identity false) d₁ (some status))
    (hafter : Exec serves d₁ (probeAfter (some root) status) d' x) : Traceable root d' := by
  obtain ⟨rfl, hbound⟩ := probe_reads hcheck
  intro c k hc
  by_cases hok : status = .ok
  · obtain ⟨m, -, hm⟩ := hbound hok
    obtain ⟨k', hk'⟩ := content_file hm
    have hsame := probeAfter_preserves hafter _ _ hk'
    exact h c k (by rw [hk', ← hsame, hc])
  · have hsame : d' = d₁ := by
      cases x with
      | some r => exact (hafter.value probeAfter_wp).2 hok
      | none => exact (hafter.left probeAfter_wp).2 hok
    subst hsame
    exact h c k hc

theorem Traceable.step (h : Traceable root d) (hs : CardStep esp root d e d') : Traceable root d' := by
  cases hs with
  | check hexec => exact h.check hexec
  | checkCut _ hloss => exact Traceable.loss hloss
  | probe hcheck hafter => exact h.probe hcheck hafter
  | probeCut _ _ hloss => exact Traceable.loss hloss
  | other hsame =>
      intro c k hc
      exact h c k (hsame ▸ hc)
  | powerLoss hloss => exact Traceable.loss hloss

theorem traceable_run (h : (card esp root).Run es d) : Traceable root d := by
  refine Machine.RunWhere.invariant (I := fun _ d => Traceable root d) ?_ ?_ h
  · intro d hd c k hc
    exact Or.inl (hd _ c k hc)
  · intro es d e d' ht hs _
    exact ht.step hs

theorem wellFormed_length {c : Bytes} (h : wellFormed c = true) : c.length = ownerSize := by
  simp only [wellFormed, Bool.and_eq_true, decide_eq_true_eq] at h
  exact h.1.1

theorem Malformed.step (h : Malformed root d) (ht : Traceable root d) (hs : CardStep esp root d e d') :
    Malformed root d' ∧ ∀ i, ¬ Received i [e] := by
  obtain ⟨n, hn, hbad⟩ := h
  constructor
  · rcases hs.kept n hn with hd | ⟨c, k, j, rfl, hj, hd⟩
    · exact ⟨n, hd, hbad⟩
    · refine ⟨_, hd, ?_⟩
      intro c' k' heq
      obtain ⟨rfl, -⟩ := Node.file.inj heq
      have hc := hbad c k rfl
      rcases ht c k hn with hall | ⟨i, m, hm, hpre⟩
      · rw [List.take_of_length_le (by omega)]
        exact hc
      · -- a whole marker would have been whole before
        by_contra hgood
        rw [Bool.not_eq_false] at hgood
        have hlength := wellFormed_length hgood
        have hle := hpre.length_le
        rw [expectedMarker_length hm] at hle
        rw [List.length_take] at hlength
        rw [List.take_of_length_le (by omega)] at hgood
        exact absurd hgood (by simp [hc])
  · intro i hi
    obtain ⟨m, hm, hthere, -⟩ := hs.received hi
    obtain ⟨k, hk⟩ := content_file (hthere (by rw [hn]; rfl))
    obtain ⟨o, -, hmarked⟩ := marked_of_expected hm
    have hc := hbad m k (Option.some.inj (hn.symm.trans hk))
    exact absurd hmarked.wellFormed (by simp [hc])

theorem malformed_steps (h : Malformed root d) (ht : Traceable root d)
    (hs : (card esp root).Steps d es d') : ∀ i, ¬ Received i es := by
  induction hs with
  | refl => simp [Received]
  | @step d d₁ d' e es hone _ ih =>
      obtain ⟨h₁, hnow⟩ := h.step ht hone
      intro i hi
      rw [← List.singleton_append] at hi
      rcases received_append.mp hi with hfirst | hrest
      · exact hnow i hfirst
      · exact ih h₁ (ht.step hone) i hrest

theorem Claimed.not_vacant {directory n : Bytes} (h : Claimed root d directory n) :
    ¬ (Vacant d (Path.child root.bytes ownerSpool) ∧ Vacant d (Path.child root.bytes ownerQuarantine)) := by
  obtain ⟨-, hdirectory, hname, hdot, hthere, hentry⟩ := h
  intro hvacant
  have hone : Vacant d (Path.child root.bytes directory) := by
    rcases hdirectory with rfl | rfl
    · exact hvacant.1
    · exact hvacant.2
  rcases hone with hnone | hnone
  · exact absurd hthere (by simp [hnone])
  · exact absurd hentry (by simp [hnone n hname hdot])

/-- **A card with entries and no marker is left without one.** -/
theorem Claimed.step {directory n : Bytes} (h : Claimed root d directory n)
    (hs : CardStep esp root d e d')
    (hkeep : ∀ after, e = .other after → (after (Path.child root.bytes directory)).isSome = true ∧
      (after (Path.child (Path.child root.bytes directory) n)).isSome = true) :
    Claimed root d' directory n ∧ ∀ i, ¬ Received i [e] := by
  have hnot := h.not_vacant
  obtain ⟨hnone, hdirectory, hname, hdot, hthere, hentry⟩ := h
  have hloss : ∀ {d₁ d₂ : Disk}, d₁ = d → PowerLoss d₁ d₂ → Claimed root d₂ directory n := by
    intro d₁ d₂ heq hl
    subst heq
    exact ⟨PowerLoss.absent hl hnone, hdirectory, hname, hdot, (PowerLoss.kept hl).isSome hthere,
      (PowerLoss.kept hl).isSome hentry⟩
  have hsame : ∀ {d₁ : Disk}, d₁ = d → Claimed root d₁ directory n := by
    intro d₁ heq
    subst heq
    exact ⟨hnone, hdirectory, hname, hdot, hthere, hentry⟩
  have hchecked : ∀ {i : Option OwnerIdentity} {d₁ : Disk}, Checked root i d d₁ → d₁ = d := by
    intro i d₁ hc
    rcases hc with heq | ⟨_, _, _, hspool, hquarantine, _⟩
    · exact heq
    · exact absurd ⟨hspool, hquarantine⟩ hnot
  have hunbound : ∀ {i : Option OwnerIdentity}, ¬ Bound root i d := by
    intro i ⟨m, _, hm⟩
    exact absurd hm (by simp [Disk.content, hnone])
  constructor
  · cases hs with
    | check hexec => exact hsame (hchecked (hexec.value check_wp).1)
    | checkCut hexec hl => exact hloss (hchecked (hexec.left check_wp)) hl
    | probe hcheck hafter =>
        obtain ⟨rfl, hbound⟩ := probe_reads hcheck
        exact hsame ((hafter.value probeAfter_wp).2 fun hok => hunbound (hbound hok))
    | probeCut hcheck hafter hl =>
        obtain ⟨rfl, hbound⟩ := probe_reads hcheck
        exact hloss ((hafter.left probeAfter_wp).2 fun hok => hunbound (hbound hok)) hl
    | other hmarker =>
        obtain ⟨hd, he⟩ := hkeep _ rfl
        exact ⟨hmarker.trans hnone, hdirectory, hname, hdot, hd, he⟩
    | powerLoss hl => exact hloss rfl hl
  · intro i hi
    cases hs with
    | check hexec =>
        obtain ⟨hc, hbound⟩ := hexec.value check_wp
        rename_i told initializing status
        obtain ⟨rfl, hok⟩ : i = told ∧ OwnerStatus.ok = status := by simpa [Received] using hi
        have heq := hchecked hc
        subst heq
        exact hunbound (hbound hok.symm)
    | checkCut _ _ => exact absurd hi (by simp [Received])
    | probe hcheck hafter =>
        obtain ⟨rfl, hbound⟩ := probe_reads hcheck
        rename_i told status result
        obtain ⟨-, hok⟩ : i = told ∧ OwnerStatus.ok = status := by simpa [Received] using hi
        exact hunbound (hbound hok.symm)
    | probeCut hcheck hafter hl =>
        rename_i told status
        obtain ⟨rfl, hbound⟩ := probe_reads hcheck
        obtain ⟨-, hok⟩ : i = told ∧ OwnerStatus.ok = status := by simpa [Received] using hi
        exact hunbound (hbound hok.symm)
    | other _ => exact absurd hi (by simp [Received])
    | powerLoss _ => exact absurd hi (by simp [Received])

def Keeping (root : CString) (directory n : Bytes) (es : List CardEvent) : Prop :=
  ∀ after, .other after ∈ es → (after (Path.child root.bytes directory)).isSome = true ∧
    (after (Path.child (Path.child root.bytes directory) n)).isSome = true

theorem claimed_steps {directory n : Bytes} (h : Claimed root d directory n)
    (hs : (card esp root).Steps d es d') (hkeep : Keeping root directory n es) :
    Claimed root d' directory n ∧ ∀ i, ¬ Received i es := by
  induction hs with
  | refl => exact ⟨h, by simp [Received]⟩
  | @step d d₁ d' e es hone _ ih =>
      obtain ⟨h₁, hnow⟩ := h.step hone fun after he => hkeep after (by simp [he])
      obtain ⟨hlast, hrest⟩ := ih h₁ fun after ha => hkeep after (List.mem_cons_of_mem _ ha)
      refine ⟨hlast, ?_⟩
      intro i hi
      rw [← List.singleton_append] at hi
      rcases received_append.mp hi with hfirst | hlater
      · exact hnow i hfirst
      · exact hrest i hlater

end

/--
**The marker is one identity's alone; at most one identity is ever told that a card is its own;
a card with a partial or malformed marker, or with entries and no marker, is nobody's; and no
call changes or removes what it did not make.**
-/
theorem sdcard_ownership (esp : Bool) (root : CString) :
    (∀ {i i' : Option OwnerIdentity} {m : Bytes}, expectedMarker i = some m →
      expectedMarker i' = some m → i = i') ∧
    (∀ {es : List CardEvent} {d : Disk}, (card esp root).Run es d →
      ∀ i i', Received i es → Received i' es → i = i') ∧
    (∀ {es es' : List CardEvent} {d d' : Disk}, (card esp root).Run es d → Malformed root d →
      (card esp root).Steps d es' d' → ∀ i, ¬ Received i es') ∧
    (∀ {es es' : List CardEvent} {d d' : Disk} {directory n : Bytes}, (card esp root).Run es d →
      Claimed root d directory n → (card esp root).Steps d es' d' → Keeping root directory n es' →
      d' (markerPath root) = none ∧ ∀ i, ¬ Received i es') ∧
    (∀ {d d' : Disk} {i : Option OwnerIdentity} {initializing : Bool} {x : Option OwnerStatus},
      Exec serves d (obsOwnerCheck esp (some root) i initializing) d' x → Preserves d d') ∧
    (∀ {d d' : Disk} {i : Option OwnerIdentity} {x : Option Bool},
      Exec serves d (obsOwnerWriteProbe esp (some root) i) d' x → Preserves d d') := by
  refine ⟨expectedMarker_injective, fun hrun => (owned_run hrun).one, ?_, ?_, check_preserves,
    probe_preserves⟩
  · intro es es' d d' hrun hbad hsteps
    exact malformed_steps hbad (traceable_run hrun) hsteps
  · intro es es' d d' directory n _ hclaimed hsteps hkeep
    obtain ⟨hlast, hnone⟩ := claimed_steps hclaimed hsteps hkeep
    exact ⟨hlast.1, hnone⟩

namespace Bench

theorem root_chars : 0 ∉ chars "/sdcard" := by decide

def root : CString := ⟨chars "/sdcard", root_chars⟩

def owner : OwnerIdentity :=
  { deviceId := some ⟨chars "12345678-1234-4234-8234-123456789abc", by decide⟩
    observationUrl := some ⟨chars "https://staging.albusforge.ai/ingest/v2/devices/12345678-1234-4234-8234-123456789abc/observations", by decide⟩
    capabilityId := some ⟨chars "camera", by decide⟩
    payloadSchema := some ⟨chars "jpeg.v1", by decide⟩
    profileId := some ⟨chars "freenove-esp32s3-n16r8-gc0308-usb-v1", by decide⟩
    profileVersion := 1 }

def blank : Disk := fun _ => none

theorem marker_path : ((some root).bind fun r => ownerPath r ownerMarker) = some (markerPath root) := by
  decide

theorem read_bound {m : Bytes} {d : Disk} (hm : expectedMarker (some owner) = some m)
    (hfile : d (markerPath root) = some (.file m m.length)) :
    Exec serves d (obsOwnerCheck true (some root) (some owner) false) d (some .ok) := by
  obtain ⟨o, -, hmarked⟩ := marked_of_expected hm
  have hlength := expectedMarker_length hm
  have hcontent : d.content (markerPath root) = some m := by
    rw [Disk.content, hfile]
  have hstat : ∀ st, some (Stat.mk true ownerSize) = some st → ∃ n,
      d (markerPath root) = some n ∧ n.stat = st := by
    intro st hst
    obtain rfl := Option.some.inj hst
    exact ⟨_, hfile, by rw [Node.stat, hlength]⟩
  have hread : ∀ b, some m = some b → ∃ c, d.content (markerPath root) = some c ∧
      b = (c.drop 0).take ownerSize := by
    intro b hb
    obtain rfl := Option.some.inj hb
    exact ⟨m, hcontent, by rw [List.drop_zero, List.take_of_length_le (le_of_eq hlength)]⟩
  have hend : ∀ b, some [] = some b → ∃ c, d.content (markerPath root) = some c ∧
      b = (c.drop ownerSize).take 1 := by
    intro b hb
    obtain rfl := Option.some.inj hb
    exact ⟨m, hcontent, by rw [List.drop_of_length_le (le_of_eq hlength), List.take_nil]⟩
  simp only [obsOwnerCheck, checkWith, hm, marker_path, Bool.not_false, if_true]
  refine (Exec.ask (r := Outcome.done) ⟨rfl, by simp [hfile], by simp⟩).andThen ?_
  refine (Exec.ask (r := some (Stat.mk true ownerSize)) ⟨rfl, hstat⟩).andThen ?_
  rw [if_neg (by simp)]
  refine (Exec.ask (r := true) rfl).andThen ?_
  refine (Exec.ask (r := some m) ⟨rfl, hread⟩).andThen ?_
  refine (Exec.ask (r := some []) ⟨rfl, hend⟩).andThen ?_
  refine (Exec.ask (r := true) rfl).andThen ?_
  simp only [hlength, hmarked.wellFormed]
  exact .ret

theorem blank_bound {m : Bytes} (hm : expectedMarker (some owner) = some m) :
    Exec serves blank (obsOwnerCheck true (some root) (some owner) true)
      (blank.set (markerPath root) (.file m m.length)) (some .ok) := by
  have hread := read_bound hm (set_self blank (markerPath root) (.file m m.length))
  have hnone : ∀ p, blank p = none := fun _ => rfl
  have hwritten : blank.set (markerPath root) (.file m 0) =
      (blank.set (markerPath root) (.file [] 0)).appended (markerPath root) (m.take m.length) := by
    simp [appended, Disk.set]
  have hsynced : blank.set (markerPath root) (.file m m.length) =
      (blank.set (markerPath root) (.file m 0)).synced (markerPath root) := by
    simp [synced, Disk.set]
  have hvacant : ∀ name, (ownerPath root name).isSome = true →
      Exec serves blank (empty root name) blank (some .ok) := by
    intro name hname
    obtain ⟨p, hp⟩ := Option.isSome_iff_exists.mp hname
    simp only [empty, hp]
    refine (Exec.ask (r := Listing.absent) ⟨rfl, rfl⟩).andThen ?_
    exact .ret
  have hboth : Exec serves blank (bothEmpty root) blank (some .ok) := by
    refine (hvacant ownerSpool (by decide)).andThen ?_
    exact hvacant ownerQuarantine (by decide)
  have hfile : (blank.set (markerPath root) (.file [] 0)).isFile (markerPath root) := by
    simp [isFile, Disk.content]
  have hwrite : Exec serves (blank.set (markerPath root) (.file [] 0))
      (Posix.andThen (Posix.write (markerPath root) m) (Posix.sync (markerPath root)))
      (blank.set (markerPath root) (.file m m.length)) (some true) := by
    refine (Exec.ask (r := true) ⟨m.length, hwritten, fun _ => ⟨hfile, Nat.le_refl _⟩⟩).andThen ?_
    rw [if_pos rfl]
    exact Exec.call ⟨Or.inr hsynced, fun _ => hsynced⟩ .ret
  have hpublish : Exec serves blank (publish true root.bytes (markerPath root) m)
      (blank.set (markerPath root) (.file m m.length)) (some true) := by
    refine (Exec.ask (r := true) ⟨fun _ => ⟨rfl, rfl⟩, by simp⟩).andThen ?_
    refine (Exec.ask (r := true) rfl).andThen ?_
    refine hwrite.andThen ?_
    refine (Exec.ask (r := true) rfl).andThen ?_
    exact .ret
  simp only [obsOwnerCheck, checkWith, hm, marker_path, Bool.not_true, Bool.false_eq_true, if_false]
  refine (Exec.ask (r := Outcome.absent) ⟨rfl, by simp, fun _ => rfl⟩).andThen ?_
  refine hboth.andThen ?_
  rw [if_neg (by simp)]
  refine hpublish.andThen ?_
  simp only [obsOwnerCheck, checkWith, hm, marker_path, Bool.not_false, if_true] at hread
  exact hread

def events : List CardEvent :=
  [.check (some owner) true (some .ok), .powerLoss, .check (some owner) false (some .ok)]

theorem card_run {m : Bytes} (hm : expectedMarker (some owner) = some m) :
    (card true root).Run events (blank.set (markerPath root) (.file m m.length)) := by
  have hblank : (card true root).Run [] blank := .init (by simp [card, blank])
  have hloss : PowerLoss (blank.set (markerPath root) (.file m m.length))
      (blank.set (markerPath root) (.file m m.length)) := by
    intro p
    by_cases hp : p = markerPath root
    · subst hp
      rw [set_self]
      exact ⟨m.length, Nat.le_refl _, by rw [List.take_length]⟩
    · rw [set_of_ne _ _ hp]
      rfl
  have hbound := hblank.step (.check (blank_bound hm)) trivial
  have hlost := hbound.step (.powerLoss hloss) trivial
  exact hlost.step (.check (read_bound hm (set_self _ _ _))) trivial

end Bench

/-- The owner is told so twice, and nobody else is. -/
theorem sdcard_ownership_bench : Received (some Bench.owner) Bench.events ∧
    ∀ i, Received i Bench.events → i = some Bench.owner := by
  have hsome : (expectedMarker (some Bench.owner)).isSome = true := by decide +kernel
  obtain ⟨m, hm⟩ := Option.isSome_iff_exists.mp hsome
  have hreceived : Received (some Bench.owner) Bench.events := Or.inl ⟨true, by simp [Bench.events]⟩
  refine ⟨hreceived, ?_⟩
  intro i hi
  exact (sdcard_ownership true Bench.root).2.1 (Bench.card_run hm) i _ hi hreceived

end Albusforge.Camera
