import Mathlib.Logic.Function.Basic
import Mathlib.Logic.Relation
import Albusforge.Lib.Proc

/-!
# Procedures that run side by side

Any number of procedures share their surroundings, and go on in any order, one request at a time; the
surroundings also change by themselves. **What a procedure relies on is what the others keep**: if each request
that is made where it may be (`allowed`) leaves an invariant and what every other procedure relies on, then a
procedure that would be right among others that do only this (`guarded`) is right among the others (`Run.guarded`).
-/

namespace Albusforge.Lib.Proc

variable {Op Op' : Type} {Ret : Op → Type} {Ret' : Op' → Type} {σ α β : Type}

def translate (answer : (op : Op) → Proc Ret' (Ret op)) : Proc Ret α → Proc Ret' α
  | ret a => ret a
  | call op next => answer op >>= fun r => (next r).translate answer
  | never => never

/-- However a procedure goes among others that do what it relies on: each request is allowed where it is made, and
its value meets `Q`. -/
def guarded (env : Surroundings Ret σ) (rely : σ → σ → Prop) (allowed : Op → σ → Prop) :
    Proc Ret α → (α → σ → Prop) → σ → Prop
  | ret a, Q, s => ∀ s₁, rely s s₁ → Q a s₁
  | call op next, Q, s => ∀ s₁, rely s s₁ → allowed op s₁ ∧
      ∀ r s', env s₁ op r s' → guarded env rely allowed (next r) Q s'
  | never, _, _ => True

section Guarded

variable {env : Surroundings Ret σ} {rely : σ → σ → Prop} {allowed : Op → σ → Prop} {Q Q' : α → σ → Prop} {s s₁ : σ}

theorem guarded_ask {op : Op} {Q : Ret op → σ → Prop}
    (h : ∀ s₁, rely s s₁ → allowed op s₁ ∧ ∀ r s', env s₁ op r s' → ∀ s₂, rely s' s₂ → Q r s₂) :
    guarded env rely allowed (ask op) Q s := h

theorem guarded_call (op : Op) {next : Ret op → Proc Ret α}
    (h : ∀ s₁, rely s s₁ → allowed op s₁ ∧ ∀ r s', env s₁ op r s' → guarded env rely allowed (next r) Q s') :
    guarded env rely allowed (ask op >>= next) Q s := h

theorem guarded_mono {t : Proc Ret α} (hQ : ∀ a s, Q a s → Q' a s) (h : guarded env rely allowed t Q s) :
    guarded env rely allowed t Q' s := by
  induction t generalizing s with
  | ret a => exact fun s₁ hs => hQ a s₁ (h s₁ hs)
  | call op next ih =>
    intro s₁ hs
    obtain ⟨hallowed, hnext⟩ := h s₁ hs
    exact ⟨hallowed, fun r s' hr => ih r (hnext r s' hr)⟩
  | never => trivial

theorem guarded_bind {t : Proc Ret α} {f : α → Proc Ret β} {Q : β → σ → Prop} (hrefl : ∀ s, rely s s)
    (h : guarded env rely allowed t (fun a => guarded env rely allowed (f a) Q) s) :
    guarded env rely allowed (t >>= f) Q s := by
  induction t generalizing s with
  | ret a => exact h s (hrefl s)
  | call op next ih =>
    intro s₁ hs
    obtain ⟨hallowed, hnext⟩ := h s₁ hs
    exact ⟨hallowed, fun r s' hr => ih r (hnext r s' hr)⟩
  | never => trivial

theorem guarded_rely {t : Proc Ret α} (htrans : ∀ s₁ s₂ s₃, rely s₁ s₂ → rely s₂ s₃ → rely s₁ s₃)
    (h : guarded env rely allowed t Q s) (hs : rely s s₁) : guarded env rely allowed t Q s₁ := by
  cases t with
  | ret a => exact fun s₂ hs₂ => h s₂ (htrans _ _ _ hs hs₂)
  | call op next => exact fun s₂ hs₂ => h s₂ (htrans _ _ _ hs hs₂)
  | never => trivial

theorem guarded_keeps {I : σ → Prop} {t : Proc Ret α} (hrely : ∀ s s₁, rely s s₁ → I s → I s₁)
    (henv : ∀ s op r s', env s op r s' → I s → I s') (h : guarded env rely allowed t Q s) (hI : I s) :
    guarded env rely allowed t (fun a s => Q a s ∧ I s) s := by
  induction t generalizing s with
  | ret a => exact fun s₁ hs => ⟨h s₁ hs, hrely s s₁ hs hI⟩
  | call op next ih =>
    intro s₁ hs
    obtain ⟨hallowed, hnext⟩ := h s₁ hs
    exact ⟨hallowed, fun r s' hr => ih r (hnext r s' hr) (henv s₁ op r s' hr (hrely s s₁ hs hI))⟩
  | never => trivial

end Guarded

/-! ## Requests that are answered by procedures -/

section Translate

variable {answer : (op : Op) → Proc Ret' (Ret op)}

theorem bind_assoc {γ : Type} {t : Proc Ret α} {f : α → Proc Ret β} {g : β → Proc Ret γ} :
    t >>= f >>= g = t >>= fun a => f a >>= g := by
  induction t with
  | ret a => rfl
  | call op next ih => exact congrArg (call op) (funext ih)
  | never => rfl

theorem translate_bind {t : Proc Ret α} {f : α → Proc Ret β} :
    (t >>= f).translate answer = t.translate answer >>= fun a => (f a).translate answer := by
  induction t with
  | ret a => rfl
  | call op next ih =>
    change (answer op >>= fun r => (next r >>= f).translate answer) = _
    simp only [ih]
    exact bind_assoc.symm
  | never => rfl

theorem translate_ask {op : Op} {next : Ret op → Proc Ret α} :
    (ask op >>= next).translate answer = answer op >>= fun r => (next r).translate answer := rfl

variable {env : Surroundings Ret' σ} {rely : σ → σ → Prop} {allowed : Op' → σ → Prop} {s : σ}

theorem Asks.guarded {P : Op → Prop} {I : σ → Prop} {t : Proc Ret α} (h : t.Asks P) (hrefl : ∀ s, rely s s)
    (hrely : ∀ s s₁, rely s s₁ → I s → I s₁)
    (hanswer : ∀ op s, P op → I s → Proc.guarded env rely allowed (answer op) (fun _ => I) s) (hs : I s) :
    Proc.guarded env rely allowed (t.translate answer) (fun _ => I) s := by
  induction t generalizing s with
  | ret a => exact fun s₁ hs₁ => hrely s s₁ hs₁ hs
  | call op next ih =>
    exact guarded_bind hrefl (guarded_mono (fun r s' hs' => ih r (h.2 r) hs') (hanswer op s h.1 hs))
  | never => trivial

end Translate

end Proc

/-! ## Procedures side by side -/

structure Threads (ι : Type) {Op : Type} (Ret : Op → Type) (σ α : Type) where
  world : σ
  threads : ι → Option (Proc Ret α)

namespace Threads

variable {ι : Type} [DecidableEq ι] {Op : Type} {Ret : Op → Type} {σ α : Type}

/-- Which procedures may begin, what each of them may be answered, and what goes on without them. -/
structure System (ι : Type) {Op : Type} (Ret : Op → Type) (σ α : Type) where
  init : σ → Prop
  begins : ι → Proc Ret α → σ → σ → Prop
  env : ι → Proc.Surroundings Ret σ
  idle : σ → σ → Prop

inductive Run (m : System ι Ret σ α) : Threads ι Ret σ α → Prop
  | init {s : σ} : m.init s → Run m ⟨s, fun _ => none⟩
  | begins {p : Threads ι Ret σ α} {i : ι} {t : Proc Ret α} {s' : σ} : Run m p → p.threads i = none →
      m.begins i t p.world s' → Run m ⟨s', Function.update p.threads i (some t)⟩
  | goesOn {p : Threads ι Ret σ α} {i : ι} {op : Op} {next : Ret op → Proc Ret α} {r : Ret op} {s' : σ} : Run m p →
      p.threads i = some (.call op next) → m.env i p.world op r s' →
      Run m ⟨s', Function.update p.threads i (some (next r))⟩
  | idle {p : Threads ι Ret σ α} {s' : σ} : Run m p → m.idle p.world s' → Run m ⟨s', p.threads⟩

/-- What the procedures rely on, where requests are allowed, and an invariant that these keep. -/
structure Discipline (m : System ι Ret σ α) where
  inv : σ → Prop
  rely : ι → σ → σ → Prop
  allowed : ι → Op → σ → Prop
  post : ι → α → σ → Prop
  rely_refl : ∀ i s, rely i s s
  rely_trans : ∀ i s₁ s₂ s₃, rely i s₁ s₂ → rely i s₂ s₃ → rely i s₁ s₃
  inv_init : ∀ s, m.init s → inv s
  begins : ∀ i t s s', inv s → m.begins i t s s' →
    inv s' ∧ t.guarded (m.env i) (rely i) (allowed i) (post i) s' ∧ ∀ j, j ≠ i → rely j s s'
  goesOn : ∀ i op r s s', inv s → allowed i op s → m.env i s op r s' → inv s' ∧ ∀ j, j ≠ i → rely j s s'
  idle : ∀ s s', inv s → m.idle s s' → inv s' ∧ ∀ j, rely j s s'

/-- **The invariant holds, and every procedure is right from where it is.** -/
theorem Run.guarded {m : System ι Ret σ α} (d : Discipline m) {p : Threads ι Ret σ α} (h : Run m p) :
    d.inv p.world ∧ ∀ i t, p.threads i = some t →
      t.guarded (m.env i) (d.rely i) (d.allowed i) (d.post i) p.world := by
  induction h with
  | init hinit => exact ⟨d.inv_init _ hinit, nofun⟩
  | @begins p i t s' _ _ hbegins ih =>
    obtain ⟨hinv, hguarded⟩ := ih
    obtain ⟨hinv', hfirst, hrely⟩ := d.begins i t p.world s' hinv hbegins
    refine ⟨hinv', ?_⟩
    intro j t' ht'
    change Function.update p.threads i (some t) j = some t' at ht'
    by_cases hj : j = i
    · subst hj
      rw [Function.update_self] at ht'
      obtain rfl := Option.some.inj ht'
      exact hfirst
    · rw [Function.update_of_ne hj] at ht'
      exact Proc.guarded_rely (d.rely_trans j) (hguarded j t' ht') (hrely j hj)
  | @goesOn p i op next r s' _ hthread henv ih =>
    obtain ⟨hinv, hguarded⟩ := ih
    obtain ⟨hallowed, hnext⟩ := hguarded i _ hthread p.world (d.rely_refl i p.world)
    obtain ⟨hinv', hrely⟩ := d.goesOn i op r p.world s' hinv hallowed henv
    refine ⟨hinv', ?_⟩
    intro j t' ht'
    change Function.update p.threads i (some (next r)) j = some t' at ht'
    by_cases hj : j = i
    · subst hj
      rw [Function.update_self] at ht'
      obtain rfl := Option.some.inj ht'
      exact hnext r s' henv
    · rw [Function.update_of_ne hj] at ht'
      exact Proc.guarded_rely (d.rely_trans j) (hguarded j t' ht') (hrely j hj)
  | @idle p s' _ hidle ih =>
    obtain ⟨hinv, hguarded⟩ := ih
    obtain ⟨hinv', hrely⟩ := d.idle p.world s' hinv hidle
    exact ⟨hinv', fun j t' ht' => Proc.guarded_rely (d.rely_trans j) (hguarded j t' ht') (hrely j)⟩

theorem Run.exec {m : System ι Ret σ α} {p : Threads ι Ret σ α} {i : ι} {t : Proc Ret α} {s s' : σ} {x : Option α}
    (hexec : Proc.Exec (fun s op r s' => ∃ s₁, Relation.ReflTransGen m.idle s s₁ ∧ m.env i s₁ op r s') s t s' x)
    (h : Run m p) (hworld : p.world = s) (ht : p.threads i = some t) : ∃ p', Run m p' ∧ p'.world = s' := by
  induction hexec generalizing p with
  | ret => exact ⟨p, h, hworld⟩
  | @call s s₂ s₃ op r next x hop _ ih =>
    obtain ⟨s₁, hidle, henv⟩ := hop
    have hwaits : Run m ⟨s₁, p.threads⟩ := by
      clear henv ih
      induction hidle with
      | refl => exact hworld ▸ h
      | tail _ hidle ih => exact ih.idle hidle
    exact ih (hwaits.goesOn ht henv) rfl (Function.update_self ..)
  | cut => exact ⟨p, h, hworld⟩

end Threads

end Albusforge.Lib
