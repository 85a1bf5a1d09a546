import Albusforge.Lib.Disk

/-!
# A disk whose calls succeed

Of `Disk.serves` only what a call does that finds what it is about: nothing fails, a file is read to
its end, and a listing is whole. A procedure over such a disk can be followed call by call, and the
rules below say where each one leads.
-/

namespace Albusforge.Lib

open Proc

namespace Disk

def Succeeds (d : Disk) : (op : DiskOp) → op.Ret → Prop
  | .openRead _, r => r ≠ .failed
  | .openNew p, r => d p = none → r = true
  | .openTruncated p, r => d p = none ∨ d.isFile p → r = true
  | .stream, r => r = true
  | .close, r => r = true
  | .stat p, r => (d p).isSome = true → r.isSome = true
  | .read p _ _, r => d.isFile p → r.isSome = true
  | .seekEnd p, r => d.isFile p → r.isSome = true
  | .write p _, r => d.isFile p → r = true
  | .sync _, r => r = true
  | .syncDirectory _, r => r = true
  | .list _, r => ∃ names, r = .names names true
  | .unlink _, r => r ≠ .failed
  | .rename p q, r => d.isFile p → d q = none → r = true

def prompt : Surroundings DiskOp.Ret Disk := fun d op r d' => serves d op r d' ∧ d.Succeeds op r

variable {d : Disk} {p q : Path}

theorem prompt_openRead {Q : Outcome → Disk → Prop} (h : (d p).isSome = true → Q .done d)
    (habsent : d p = none → Q .absent d) : ends prompt (Posix.openRead p) Q d := by
  refine ends_ask ?_ ?_
  · cases hp : d p with
    | none => exact ⟨.absent, d, ⟨rfl, by simp, fun _ => hp⟩, by simp [Succeeds]⟩
    | some n => exact ⟨.done, d, ⟨rfl, fun _ => by simp [hp], by simp⟩, by simp [Succeeds]⟩
  · intro r d' ⟨⟨hd, hdone, hnone⟩, hr⟩
    subst hd
    cases r with
    | done => exact h (hdone rfl)
    | absent => exact habsent (hnone rfl)
    | failed => exact absurd rfl hr

theorem prompt_close {Q : Bool → Disk → Prop} (h : Q true d) : ends prompt Posix.close Q d := by
  refine ends_ask ⟨true, d, rfl, rfl⟩ ?_
  intro r d' ⟨hd, hr⟩
  obtain rfl : d' = d := hd
  obtain rfl : r = true := hr
  exact h

theorem prompt_read {Q : Option Bytes → Disk → Prop} {offset length : ℕ}
    (h : Q ((d.content p).map fun c => (c.drop offset).take length) d) :
    ends prompt (Posix.read p offset length) Q d := by
  refine ends_ask ⟨(d.content p).map fun c => (c.drop offset).take length, d, ⟨rfl, ?_⟩, ?_⟩ ?_
  · intro b hb
    obtain ⟨c, hc, rfl⟩ := Option.map_eq_some_iff.mp hb
    exact ⟨c, hc, rfl⟩
  · intro hfile
    rw [Option.isSome_map]
    exact hfile
  · intro r d' ⟨⟨hd, hread⟩, hr⟩
    subst hd
    cases hc : d'.content p with
    | none =>
        cases r with
        | none => rwa [hc] at h
        | some b =>
            obtain ⟨c, hc', -⟩ := hread b rfl
            exact absurd (hc.symm.trans hc') (by simp)
    | some c =>
        obtain ⟨b, rfl⟩ := Option.isSome_iff_exists.mp (hr (by simp [isFile, hc]))
        obtain ⟨c', hc', rfl⟩ := hread b rfl
        obtain rfl := Option.some.inj (hc.symm.trans hc')
        rwa [hc] at h

theorem prompt_seekEnd {Q : Option ℕ → Disk → Prop} (h : Q ((d.content p).map List.length) d) :
    ends prompt (Posix.seekEnd p) Q d := by
  refine ends_ask ⟨(d.content p).map List.length, d, ⟨rfl, ?_⟩, ?_⟩ ?_
  · intro n hn
    obtain ⟨c, hc, rfl⟩ := Option.map_eq_some_iff.mp hn
    exact ⟨c, hc, rfl⟩
  · intro hfile
    rw [Option.isSome_map]
    exact hfile
  · intro r d' ⟨⟨hd, hsize⟩, hr⟩
    subst hd
    cases hc : d'.content p with
    | none =>
        cases r with
        | none => rwa [hc] at h
        | some n =>
            obtain ⟨c, hc', -⟩ := hsize n rfl
            exact absurd (hc.symm.trans hc') (by simp)
    | some c =>
        obtain ⟨n, rfl⟩ := Option.isSome_iff_exists.mp (hr (by simp [isFile, hc]))
        obtain ⟨c', hc', rfl⟩ := hsize n rfl
        obtain rfl := Option.some.inj (hc.symm.trans hc')
        rwa [hc] at h

theorem prompt_list {Q : Listing → Disk → Prop} (hlists : ∃ names, d.Lists p (.names names true))
    (h : ∀ names, d.Lists p (.names names true) → Q (.names names true) d) :
    ends prompt (Posix.list p) Q d := by
  obtain ⟨names, hnames⟩ := hlists
  refine ends_ask ⟨.names names true, d, ⟨rfl, hnames⟩, names, rfl⟩ ?_
  intro r d' ⟨⟨hd, hlisted⟩, names, hr⟩
  subst hd hr
  exact h names hlisted

theorem prompt_unlink {Q : Outcome → Disk → Prop} (h : (d p).isSome = true → Q .done (d.erase p))
    (habsent : d p = none → Q .absent d) : ends prompt (Posix.unlink p) Q d := by
  refine ends_ask ?_ ?_
  · cases hp : d p with
    | none => exact ⟨.absent, d, ⟨by simp, fun _ => ⟨hp, rfl⟩, by simp⟩, by simp [Succeeds]⟩
    | some n =>
        exact ⟨.done, d.erase p, ⟨fun _ => ⟨by simp [hp], rfl⟩, by simp, by simp⟩, by simp [Succeeds]⟩
  · intro r d' ⟨⟨hdone, hnone, _⟩, hr⟩
    cases r with
    | done =>
        obtain ⟨hsome, rfl⟩ := hdone rfl
        exact h hsome
    | absent =>
        obtain ⟨hp, rfl⟩ := hnone rfl
        exact habsent hp
    | failed => exact absurd rfl hr

/-! ## What is gone -/

structure Without (d d' : Disk) (away : Path → Prop) : Prop where
  gone : ∀ p, away p → d' p = Option.none
  same : ∀ p, ¬ away p → d' p = d p

theorem Without.erase (d : Disk) (p : Path) : Without d (d.erase p) fun q => q = p :=
  ⟨fun _ hq => hq ▸ erase_self d p, fun _ hq => erase_of_ne d hq⟩

theorem Without.trans {d' d'' : Disk} {gone gone' : Path → Prop} (h : Without d d' gone)
    (h' : Without d' d'' gone') : Without d d'' fun p => gone p ∨ gone' p := by
  refine ⟨?_, ?_⟩
  · intro p hp
    by_cases hlater : gone' p
    · exact h'.gone p hlater
    · rw [h'.same p hlater]
      exact h.gone p (hp.resolve_right hlater)
  · intro p hp
    obtain ⟨hfirst, hlater⟩ := not_or.mp hp
    rw [h'.same p hlater, h.same p hfirst]

theorem Without.congr {d' : Disk} {gone gone' : Path → Prop} (h : Without d d' gone)
    (hall : ∀ p, gone p → gone' p) (hmore : ∀ p, gone' p → ¬ gone p → d p = Option.none) :
    Without d d' gone' := by
  refine ⟨?_, ?_⟩
  · intro p hp
    by_cases hgone : gone p
    · exact h.gone p hgone
    · rw [h.same p hgone]
      exact hmore p hp hgone
  · intro p hp
    exact h.same p fun hgone => hp (hall p hgone)

theorem Without.lists {d' : Disk} {gone : Path → Prop} {dir : Path} {names : List Bytes}
    (h : Without d d' gone) (hlists : d.Lists dir (.names names true)) :
    ∃ names', names'.length ≤ names.length ∧ d'.Lists dir (.names names' true) := by
  obtain ⟨hnodup, hthere, hwhole⟩ := hlists
  have hold : ∀ p, (d' p).isSome = true → d' p = d p := by
    intro p hp
    refine h.same p ?_
    intro hgone
    rw [h.gone p hgone] at hp
    exact absurd hp (by simp)
  refine ⟨names.filter fun n => isDot n || (d' (Path.child dir n)).isSome, List.length_filter_le _ _, ?_⟩
  refine ⟨hnodup.filter _, ?_, ?_⟩
  · intro n hn hdot
    obtain ⟨hmem, hkept⟩ := List.mem_filter.mp hn
    refine ⟨(hthere n hmem hdot).1, ?_⟩
    simpa [hdot] using hkept
  · intro _ n hname hn
    refine List.mem_filter.mpr ⟨?_, by simp [hn]⟩
    refine hwhole rfl n hname ?_
    rw [← hold _ hn]
    exact hn

end Disk

end Albusforge.Lib
