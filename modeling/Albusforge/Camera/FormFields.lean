import Mathlib
import Albusforge.Camera.SetupForm

/-!
# What a setup form says

A form is fields between `&`s, each a name, `=` and an encoded value. What the decoder makes of a value is
a relation between the two (`Encodes`), and the loops over the buffers are followed field by field
(`decodeLoop_spec`, `parameterLoop_spec`). **The parser takes a form exactly if each of the three
fields is in it once, with a value that decodes to what it must be, and it never leaves its
buffers** (`setupFormParse_correct`).
-/

namespace Albusforge.Camera

open Lib Lib.CMemory

/-! ## Values and their encodings -/

inductive Encodes : Bytes → Bytes → Prop
  | nil : Encodes [] []
  | plain {c : UInt8} {v e : Bytes} : c ≠ 0 → c ≠ 37 → c ≠ 38 → c ≠ 43 → Encodes v e → Encodes (c :: v) (c :: e)
  | plus {v e : Bytes} : Encodes v e → Encodes (32 :: v) (43 :: e)
  | escape {a b : UInt8} {high low : ℕ} {v e : Bytes} : hexValue a = some high → hexValue b = some low →
      UInt8.ofNat (high * 16 + low) ≠ 0 → Encodes v e →
      Encodes (UInt8.ofNat (high * 16 + low) :: v) (37 :: a :: b :: e)

theorem hexValue_ne {c : UInt8} {n : ℕ} (h : hexValue c = some n) : c ≠ 0 ∧ c ≠ 38 := by
  have hzero : hexValue 0 = none := by decide
  have hamp : hexValue 38 = none := by decide
  constructor
  · intro heq
    exact absurd (hzero.symm.trans (heq ▸ h)) (by simp)
  · intro heq
    exact absurd (hamp.symm.trans (heq ▸ h)) (by simp)

variable {v v' e body name csrf more extra : Bytes}

theorem Encodes.bytes (h : Encodes v e) : 0 ∉ v ∧ 0 ∉ e ∧ 38 ∉ e := by
  induction h with
  | nil => simp
  | plain hzero _ hamp _ _ ih =>
      obtain ⟨hv, he, he'⟩ := ih
      exact ⟨by simp [hv, hzero.symm], by simp [he, hzero.symm], by simp [he', hamp.symm]⟩
  | plus _ ih =>
      obtain ⟨hv, he, he'⟩ := ih
      exact ⟨by simp [hv], by simp [he], by simp [he']⟩
  | escape ha hb hzero _ ih =>
      obtain ⟨hv, he, he'⟩ := ih
      obtain ⟨ha, ha'⟩ := hexValue_ne ha
      obtain ⟨hb, hb'⟩ := hexValue_ne hb
      refine ⟨?_, by simp [he, ha.symm, hb.symm], by simp [he', ha'.symm, hb'.symm]⟩
      rw [List.mem_cons, not_or]
      exact ⟨hzero.symm, hv⟩

theorem Encodes.length_le (h : Encodes v e) : e.length ≤ 3 * v.length := by
  induction h with
  | nil => simp
  | plain _ _ _ _ _ ih =>
      rw [List.length_cons, List.length_cons]
      omega
  | plus _ ih =>
      rw [List.length_cons, List.length_cons]
      omega
  | escape _ _ _ _ ih =>
      rw [List.length_cons, List.length_cons, List.length_cons, List.length_cons]
      omega

theorem Encodes.unique (h : Encodes v e) (h' : Encodes v' e) : v = v' := by
  induction h generalizing v' with
  | nil =>
      cases h'
      rfl
  | plain hzero hpercent _ hplus _ ih =>
      cases h' with
      | plain _ _ _ _ hrest => rw [ih hrest]
      | plus _ => exact absurd rfl hplus
      | escape _ _ _ _ => exact absurd rfl hpercent
  | plus _ ih =>
      cases h' with
      | plain _ _ _ hplus _ => exact absurd rfl hplus
      | plus hrest => rw [ih hrest]
  | escape ha hb _ _ ih =>
      cases h' with
      | plain _ hpercent _ _ _ => exact absurd rfl hpercent
      | escape ha' hb' _ hrest =>
          obtain rfl := Option.some.inj (ha.symm.trans ha')
          obtain rfl := Option.some.inj (hb.symm.trans hb')
          rw [ih hrest]

/-- What has come of decoding an encoded value into what is left of a buffer after `done`. -/
inductive Decoded (e done : Bytes) (size : ℕ) : Bool → Bytes → Prop
  | value {v rest : Bytes} : Encodes v e → done.length + v.length < size → (done ++ v ++ 0 :: rest).length = size →
      Decoded e done size true (done ++ v ++ 0 :: rest)
  | refused {out : Bytes} : out.length = size → (∀ v, Encodes v e → size ≤ done.length + v.length) →
      Decoded e done size false out

/-! ## The decoder in its buffers -/

section

variable {front post t done old : Bytes} {c : UInt8} {input length size i : ℕ}

/-- What `decodeByte` makes of the first byte: the value goes on after it, or there is none. -/
inductive FirstByte (e : Bytes) (i : ℕ) : Option (UInt8 × ℕ) → Prop
  | none : (∀ v, ¬ Encodes v e) → FirstByte e i none
  | some {b : UInt8} {i' : ℕ} {taken rest : Bytes} : e = taken ++ rest → i' + 1 = i + taken.length → 0 < taken.length →
      (∀ v, Encodes v e ↔ b ≠ 0 ∧ ∃ v', v = b :: v' ∧ Encodes v' rest) → FirstByte e i (some (b, i'))

theorem no_escape (h : ∀ a b e, t = a :: b :: e → hexValue a = none ∨ hexValue b = none) : ¬ Encodes v (37 :: t) := by
  intro hv
  generalize he : 37 :: t = e at hv
  cases hv with
  | nil => exact absurd he (by simp)
  | plain _ hpercent _ _ _ => exact hpercent (List.cons.inj he).1.symm
  | plus _ => exact absurd (List.cons.inj he).1 (by decide)
  | escape ha hb _ _ =>
      rcases h _ _ _ (List.cons.inj he).2 with hnone | hnone
      · exact absurd (hnone.symm.trans ha) (by simp)
      · exact absurd (hnone.symm.trans hb) (by simp)

theorem decodeByte_spec (hfront : front.length = input + i) (hlength : i + (c :: t).length = length)
    (hamp : 38 ∉ c :: t) : ∃ r, decodeByte (front ++ (c :: t ++ post)) input length i = some r ∧ FirstByte (c :: t) i r := by
  have hload : load (front ++ (c :: t ++ post)) (input + i) = some c := by
    rw [List.cons_append]
    exact load_append hfront
  rw [List.length_cons] at hlength
  unfold decodeByte
  rw [hload]
  simp only [Option.bind_eq_bind, Option.bind_some]
  split
  · rename_i hplus
    subst hplus
    refine ⟨_, rfl, .some (show 43 :: t = [43] ++ t from rfl) rfl (by simp) ?_⟩
    intro v
    constructor
    · intro h
      cases h with
      | plain _ _ _ hne _ => exact absurd rfl hne
      | plus h => exact ⟨by decide, _, rfl, h⟩
    · intro ⟨_, v', hv, h⟩
      subst hv
      exact .plus h
  split
  · rename_i hpercent
    subst hpercent
    match t, hlength with
    | [], hlength =>
        rw [if_pos (by simp at hlength; omega)]
        exact ⟨_, rfl, .none fun v => no_escape (by simp)⟩
    | [_], hlength =>
        rw [if_pos (by simp at hlength; omega)]
        exact ⟨_, rfl, .none fun v => no_escape (by simp)⟩
    | a :: b :: t, hlength =>
        have hfirst : load (front ++ (37 :: a :: b :: t ++ post)) (input + (i + 1)) = some a := by
          rw [show front ++ (37 :: a :: b :: t ++ post) = (front ++ [37]) ++ a :: (b :: t ++ post) by simp]
          exact load_append (by rw [List.length_append, List.length_singleton]; omega)
        have hsecond : load (front ++ (37 :: a :: b :: t ++ post)) (input + (i + 2)) = some b := by
          rw [show front ++ (37 :: a :: b :: t ++ post) = (front ++ [37, a]) ++ b :: (t ++ post) by simp]
          exact load_append (by rw [List.length_append, List.length_cons, List.length_singleton]; omega)
        rw [if_neg (by simp at hlength; omega), hfirst]
        simp only [Option.bind_some]
        cases ha : hexValue a with
        | none =>
            refine ⟨_, rfl, .none fun v => no_escape ?_⟩
            intro a' b' e' heq
            rw [← (List.cons.inj heq).1]
            exact Or.inl ha
        | some high =>
            simp only [hsecond, Option.bind_some]
            cases hb : hexValue b with
            | none =>
                refine ⟨_, rfl, .none fun v => no_escape ?_⟩
                intro a' b' e' heq
                rw [← (List.cons.inj (List.cons.inj heq).2).1]
                exact Or.inr hb
            | some low =>
                refine ⟨_, rfl, .some (show 37 :: a :: b :: t = [37, a, b] ++ t from rfl) rfl (by simp) ?_⟩
                intro v
                constructor
                · intro h
                  cases h with
                  | plain _ hne _ _ _ => exact absurd rfl hne
                  | escape ha' hb' hzero h =>
                      obtain rfl := Option.some.inj (ha.symm.trans ha')
                      obtain rfl := Option.some.inj (hb.symm.trans hb')
                      exact ⟨hzero, _, rfl, h⟩
                · intro ⟨hzero, v', hv, h⟩
                  subst hv
                  exact .escape ha hb hzero h
  · rename_i hplus hpercent
    refine ⟨_, rfl, .some (show c :: t = [c] ++ t from rfl) rfl (by simp) ?_⟩
    intro v
    constructor
    · intro h
      cases h with
      | plain hzero _ _ _ h => exact ⟨hzero, _, rfl, h⟩
      | plus _ => exact absurd rfl hplus
      | escape _ _ _ _ => exact absurd rfl hpercent
    · intro ⟨hzero, v', hv, h⟩
      subst hv
      exact .plain hzero hpercent (fun heq => hamp (by rw [heq]; exact List.mem_cons_self)) hplus h

theorem decoded_end (hsize : (done ++ old).length = size) (hroom : done.length < size) :
    ∃ ok out, (do return (true, ← store (done ++ old) done.length 0) : Access (Bool × Bytes)) = some (ok, out) ∧
      Decoded [] done size ok out := by
  cases old with
  | nil =>
      rw [List.append_nil] at hsize
      omega
  | cons o old =>
      rw [store_append rfl]
      refine ⟨true, done ++ [] ++ 0 :: old, by simp, .value .nil (by simpa using hroom) ?_⟩
      rw [List.append_nil]
      simpa using hsize

/-- **The decoder stays in its buffers, and writes the value if there is one and it has room.** -/
theorem decodeLoop_spec {rounds : ℕ} (hrounds : t.length ≤ rounds) (hfront : front.length = input + i)
    (hlength : i + t.length = length) (hsize : (done ++ old).length = size) (hroom : done.length < size)
    (hamp : 38 ∉ t) :
    ∃ ok out, decodeLoop (front ++ (t ++ post)) input length size rounds i done.length (done ++ old) =
      some (ok, out) ∧ Decoded t done size ok out := by
  induction rounds generalizing t front done old i with
  | zero =>
      obtain rfl := List.eq_nil_of_length_eq_zero (Nat.le_zero.mp hrounds)
      exact decoded_end hsize hroom
  | succ rounds ih =>
      unfold decodeLoop
      cases t with
      | nil =>
          rw [if_pos (by simp at hlength; omega)]
          exact decoded_end hsize hroom
      | cons c t =>
          rw [if_neg (by rw [List.length_cons] at hlength; omega)]
          obtain ⟨r, hr, hfirst⟩ : ∃ r, decodeByte (front ++ (c :: t ++ post)) input length i = some r ∧
              FirstByte (c :: t) i r := decodeByte_spec hfront hlength hamp
          rw [hr]
          simp only [Option.bind_eq_bind, Option.bind_some]
          cases hfirst with
          | none hnone => exact ⟨_, _, rfl, .refused hsize fun v h => absurd h (hnone v)⟩
          | @some b i' taken rest heq hi hpos hiff =>
              dsimp only
              split
              · rename_i hstop
                refine ⟨_, _, rfl, .refused hsize ?_⟩
                intro v h
                obtain ⟨hzero, v', rfl, -⟩ := (hiff v).mp h
                have hfull := hstop.resolve_left hzero
                rw [List.length_cons]
                omega
              · rename_i hgo
                obtain ⟨hzero, hmore⟩ := not_or.mp hgo
                rw [not_le] at hmore
                obtain ⟨o, old, rfl⟩ : ∃ o old', old = o :: old' := by
                  cases old with
                  | nil => simp at hsize; omega
                  | cons o old => exact ⟨o, old, rfl⟩
                rw [store_append rfl, Option.bind_some]
                have hrest : rest.length + taken.length = (c :: t).length := by
                  rw [heq, List.length_append]
                  omega
                have hfront' : (front ++ taken).length = input + (i' + 1) := by
                  rw [List.length_append]
                  omega
                have hsize' : ((done ++ [b]) ++ old).length = size := by simpa using hsize
                have hroom' : (done ++ [b]).length < size := by
                  rw [List.length_append, List.length_singleton]
                  omega
                obtain ⟨ok, out, hloop, hdecoded⟩ := ih (show rest.length ≤ rounds by omega) hfront'
                  (show i' + 1 + rest.length = length by omega) hsize' hroom'
                  fun hmem => hamp (heq ▸ List.mem_append_right _ hmem)
                refine ⟨ok, out, ?_, ?_⟩
                · rw [← hloop, heq, List.length_append, List.length_singleton]
                  simp only [List.append_assoc, List.singleton_append]
                · -- the value goes on after the byte
                  cases hdecoded with
                  | @value v' tail hv hfits hwhole =>
                      have hsame : done ++ [b] ++ v' ++ 0 :: tail = done ++ (b :: v') ++ 0 :: tail := by simp
                      rw [hsame] at hwhole ⊢
                      refine .value ((hiff _).mpr ⟨hzero, v', rfl, hv⟩) ?_ hwhole
                      rw [List.length_append, List.length_singleton] at hfits
                      rw [List.length_cons]
                      omega
                  | refused hout hno =>
                      refine .refused hout ?_
                      intro v hv
                      obtain ⟨_, v', rfl, hv'⟩ := (hiff v).mp hv
                      have hfull := hno v' hv'
                      rw [List.length_append, List.length_singleton] at hfull
                      rw [List.length_cons]
                      omega

theorem decode_spec {out : Bytes} (hfront : front.length = input) (hsize : out.length = size) (hroom : 0 < size)
    (hamp : 38 ∉ e) : ∃ ok out', decode (front ++ (e ++ post)) input e.length out size = some (ok, out') ∧
      Decoded e [] size ok out' := by
  have hwhole : ([] ++ out).length = size := hsize
  exact decodeLoop_spec (Nat.le_refl _) hfront (Nat.zero_add _) hwhole hroom hamp

/-! ## Fields -/

def isField (name segment : Bytes) : Bool := (name ++ [61]).isPrefixOf segment

/-- The fields of a name in a body, between its `&`s. -/
def fields (name body : Bytes) : List Bytes := (body.splitOn 38).filter (isField name)

def Occurs (name v body : Bytes) : Prop := ∃ e, fields name body = [name ++ 61 :: e] ∧ Encodes v e

theorem isField_iff {s : Bytes} : isField name s = true ↔ ∃ e, s = name ++ 61 :: e := by
  rw [isField, List.isPrefixOf_iff_prefix]
  constructor
  · intro ⟨e, he⟩
    exact ⟨e, by rw [← he, List.append_assoc, List.singleton_append]⟩
  · intro ⟨e, he⟩
    exact ⟨e, by rw [he, List.append_assoc, List.singleton_append]⟩

theorem not_isField_nil : isField name [] = false := by
  rw [Bool.eq_false_iff]
  intro h
  obtain ⟨e, he⟩ := isField_iff.mp h
  exact absurd he (by simp)

theorem fields_first (r : Bytes) : ∃ s rest after, 38 ∉ s ∧ r = s ++ after ∧ (after = 38 :: rest ∨ after = [] ∧ rest = []) ∧
    ∀ name, fields name r = (if isField name s then [s] else []) ++ fields name rest := by
  by_cases hamp : 38 ∈ r
  · obtain ⟨s, rest, hr, hs⟩ := List.eq_append_cons_of_mem hamp
    refine ⟨s, rest, 38 :: rest, hs, hr, Or.inl rfl, ?_⟩
    intro name
    rw [hr, fields, List.splitOn_append_cons_self_of_not_mem hs, List.filter_cons]
    split
    · rw [List.singleton_append, fields]
    · rw [List.nil_append, fields]
  · refine ⟨r, [], [], hamp, (List.append_nil r).symm, Or.inr ⟨rfl, rfl⟩, ?_⟩
    intro name
    rw [fields, List.splitOn_eq_singleton hamp, fields, List.splitOn_nil, List.filter_cons, List.filter_cons,
      not_isField_nil]
    simp

theorem isParameter_spec {s : Bytes} {p : ℕ} (hfront : front.length = p) :
    isParameter (front ++ (s ++ post)) name p (p + s.length) = some (isField name s) := by
  have hdiff : p + s.length - p = s.length := by omega
  unfold isParameter
  dsimp only
  rw [hdiff]
  split
  · rename_i hshort
    symm
    rw [show isField name s = false from ?_]
    · rfl
    · rw [Bool.eq_false_iff]
      intro h
      obtain ⟨e, he⟩ := isField_iff.mp h
      rw [he, List.length_append, List.length_cons] at hshort
      omega
  · rename_i hlong
    obtain ⟨a, x, e, ha, rfl⟩ : ∃ a x e, a.length = name.length ∧ s = a ++ x :: e := by
      have hin : name.length < s.length := by omega
      refine ⟨s.take name.length, s[name.length], s.drop (name.length + 1), ?_, ?_⟩
      · rw [List.length_take]
        omega
      · rw [List.getElem_cons_drop, List.take_append_drop]
    have hload : load (front ++ (a ++ x :: e ++ post)) (p + name.length) = some x := by
      rw [show front ++ (a ++ x :: e ++ post) = (front ++ a) ++ x :: (e ++ post) by simp]
      exact load_append (by rw [List.length_append]; omega)
    have hsame : isField name (a ++ x :: e) = (decide (x = 61) && decide (a = name)) := by
      rw [Bool.eq_iff_iff, isField_iff, Bool.and_eq_true, decide_eq_true_eq, decide_eq_true_eq]
      constructor
      · intro ⟨e', he'⟩
        obtain ⟨hname, hrest⟩ := List.append_inj he' ha
        exact ⟨(List.cons.inj hrest).1, hname⟩
      · intro ⟨hx, hname⟩
        exact ⟨e, by rw [hx, hname]⟩
    rw [hload, Option.bind_eq_bind, Option.bind_some, hsame]
    split
    · rename_i hne
      simp [hne]
    · rename_i heq
      rw [not_not] at heq
      rw [sameBytes_append hfront (by simp; omega) (Nat.le_refl _), List.append_assoc, ← ha, List.take_left, ha, List.take_length]
      simp [heq]

theorem fieldEnd_spec {s after rest : Bytes} {p : ℕ} (hfront : front.length = p) (hs : 38 ∉ s)
    (hafter : after = 38 :: rest ∨ after = [] ∧ rest = []) (hzero : 0 ∉ s ++ after) :
    fieldEnd (front ++ (s ++ after ++ 0 :: more)) p = some (p + s.length) := by
  have hstring : stringAt (front ++ (s ++ after ++ 0 :: more)) p = some (s ++ after) := stringAt_append hfront hzero
  have htaken : ∀ c ∈ s, decide (c ≠ 38) = true := by
    intro c hc
    rw [decide_eq_true_eq]
    intro heq
    exact hs (heq ▸ hc)
  unfold fieldEnd strchr
  rw [hstring]
  simp only [Option.map_some, Option.bind_eq_bind, Option.bind_some]
  rcases hafter with rfl | ⟨rfl, -⟩
  · rw [if_pos (by simp), List.takeWhile_append_of_pos htaken, List.takeWhile_cons_of_neg (by simp), List.append_nil]
    rfl
  · rw [List.append_nil] at hstring ⊢
    rw [if_neg hs]
    simp [strlen, hstring]

inductive Searched (name : Bytes) (size : ℕ) (out : Bytes) (all : List Bytes) : Bool → Bool → Bytes → Prop
  | kept : all = [] → Searched name size out all true true out
  | again {out' : Bytes} : all ≠ [] → out'.length = size → Searched name size out all true false out'
  | found {v e rest : Bytes} : all = [name ++ 61 :: e] → Encodes v e → v.length < size →
      (v ++ 0 :: rest).length = size → Searched name size out all false true (v ++ 0 :: rest)
  | refused {out' : Bytes} : out'.length = size →
      (∀ v e, all = [name ++ 61 :: e] → Encodes v e → size ≤ v.length) → Searched name size out all false false out'

theorem Searched.empty {found : Bool} {out : Bytes} (hsize : out.length = size) :
    Searched name size out [] found found out := by
  cases found with
  | true => exact .kept rfl
  | false => exact .refused hsize (by simp)

theorem parameterLoop_spec {r out : Bytes} {rounds p : ℕ} {found : Bool} (hrounds : r.length ≤ rounds)
    (hfront : front.length = p) (hzero : 0 ∉ r) (hsize : out.length = size) (hroom : 0 < size) :
    ∃ ok out', parameterLoop (front ++ (r ++ 0 :: more)) name size rounds p found out = some (ok, out') ∧
      Searched name size out (fields name r) found ok out' := by
  induction rounds generalizing r front p found out with
  | zero =>
      obtain rfl := List.eq_nil_of_length_eq_zero (Nat.le_zero.mp hrounds)
      refine ⟨found, out, rfl, ?_⟩
      simpa [fields, not_isField_nil] using Searched.empty hsize
  | succ rounds ih =>
      unfold parameterLoop
      cases r with
      | nil =>
          rw [List.nil_append, load_append hfront]
          refine ⟨found, out, by simp, ?_⟩
          simpa [fields, not_isField_nil] using Searched.empty hsize
      | cons c r =>
          obtain ⟨s, rest, after, hs, hr, hafter, hfields⟩ := fields_first (c :: r)
          have hc : c ≠ 0 := fun heq => hzero (heq ▸ List.mem_cons_self)
          have hload : load (front ++ (c :: r ++ 0 :: more)) p = some c := by
            rw [List.cons_append]
            exact load_append hfront
          rw [hload, hfields name]
          rw [hr] at hzero ⊢
          -- where the loop goes on
          obtain ⟨front', stop, hbody, hstop, hfront'⟩ : ∃ (front' : Bytes) (stop : UInt8),
              front ++ (s ++ after ++ 0 :: more) = front' ++ (rest ++ 0 :: more) ∧
              load (front ++ (s ++ after ++ 0 :: more)) (p + s.length) = some stop ∧
              front'.length = if stop ≠ 0 then p + s.length + 1 else p + s.length := by
            have hend : (front ++ s).length = p + s.length := by rw [List.length_append, hfront]
            rcases hafter with rfl | ⟨rfl, rfl⟩
            · refine ⟨front ++ s ++ [38], 38, by simp, ?_, by simp; omega⟩
              rw [show front ++ (s ++ 38 :: rest ++ 0 :: more) = (front ++ s) ++ 38 :: (rest ++ 0 :: more) by simp]
              exact load_append hend
            · refine ⟨front ++ s, 0, by simp, ?_, by simpa using hend⟩
              rw [show front ++ (s ++ [] ++ 0 :: more) = (front ++ s) ++ 0 :: more by simp]
              exact load_append hend
          have hshorter : rest.length ≤ rounds := by
            rw [List.length_cons] at hrounds
            have hlengths := congrArg List.length hr
            rw [List.length_cons, List.length_append] at hlengths
            rcases hafter with rfl | ⟨rfl, rfl⟩
            · rw [List.length_cons] at hlengths
              omega
            · simp
          have hrest : 0 ∉ rest := by
            intro hmem
            rcases hafter with rfl | ⟨rfl, rfl⟩
            · exact hzero (List.mem_append_right _ (List.mem_cons_of_mem _ hmem))
            · exact absurd hmem (by simp)
          rw [Option.bind_eq_bind, Option.bind_some, if_neg hc, fieldEnd_spec hfront hs hafter hzero]
          simp only [Option.bind_eq_bind, Option.bind_some]
          have hparameter : isParameter (front ++ (s ++ after ++ 0 :: more)) name p (p + s.length) = some (isField name s) := by
            rw [List.append_assoc s]
            exact isParameter_spec hfront
          rw [hstop, Option.bind_some, hparameter, Option.bind_some, ← hfront']
          cases hfield : isField name s with
          | false =>
              rw [if_neg Bool.false_ne_true, if_neg Bool.false_ne_true, hbody]
              exact ih hshorter rfl hrest hsize
          | true =>
              rw [if_pos rfl, if_pos rfl, List.singleton_append]
              cases found with
              | true => exact ⟨false, out, rfl, .again (by simp) hsize⟩
              | false =>
                  obtain ⟨e, rfl⟩ := isField_iff.mp hfield
                  have hamp : 38 ∉ e := fun hmem => hs (by simp [hmem])
                  have hvalue : (front ++ (name ++ [61])).length = p + name.length + 1 := by simp; omega
                  have hlength : p + (name ++ 61 :: e).length - p - name.length - 1 = e.length := by
                    rw [List.length_append, List.length_cons]
                    omega
                  have hwhere : front ++ (name ++ 61 :: e ++ after ++ 0 :: more) =
                      (front ++ (name ++ [61])) ++ (e ++ (after ++ 0 :: more)) := by simp
                  obtain ⟨ok, out', hdecode, hdecoded⟩ : ∃ ok out', decode (front ++ (name ++ [61]) ++ (e ++ (after ++ 0 :: more)))
                      (p + name.length + 1) e.length out size = some (ok, out') ∧ Decoded e [] size ok out' :=
                    decode_spec hvalue hsize hroom hamp
                  rw [← hwhere, ← hlength] at hdecode
                  rw [if_neg Bool.false_ne_true, hdecode, Option.bind_some]
                  cases hdecoded with
                  | refused hout hno =>
                      refine ⟨false, out', rfl, .refused hout ?_⟩
                      intro v e' hall hv
                      obtain ⟨heq, -⟩ := List.cons.inj hall
                      obtain rfl := (List.cons.inj (List.append_cancel_left heq)).2
                      simpa using hno v hv
                  | @value v tail hv hfits hwhole =>
                      rw [List.nil_append] at hwhole ⊢
                      obtain ⟨ok, out'', hloop, hsearched⟩ : ∃ ok out'',
                          parameterLoop (front' ++ (rest ++ 0 :: more)) name size rounds front'.length true (v ++ 0 :: tail) =
                            some (ok, out'') ∧ Searched name size (v ++ 0 :: tail) (fields name rest) true ok out'' :=
                        ih hshorter rfl hrest hwhole
                      rw [← hbody] at hloop
                      refine ⟨ok, out'', hloop, ?_⟩
                      cases hsearched with
                      | kept hnone =>
                          rw [hnone]
                          exact .found rfl hv (by simpa using hfits) hwhole
                      | again hmore hout =>
                          refine .refused hout ?_
                          intro v' e' hall _
                          exact absurd (List.cons.inj hall).2 hmore

end

/-! ## The form -/

theorem Occurs.unique (h : Occurs name v body) (h' : Occurs name v' body) : v = v' := by
  obtain ⟨e, hall, hv⟩ := h
  obtain ⟨e', hall', hv'⟩ := h'
  obtain rfl := (List.cons.inj (List.append_cancel_left (List.cons.inj (hall.symm.trans hall')).1)).2
  exact hv.unique hv'

theorem Occurs.nonzero (h : Occurs name v body) : 0 ∉ v := by
  obtain ⟨e, -, hv⟩ := h
  exact hv.bytes.1

/-- What `parameter` comes to: the value of the one field, or nothing that is taken. -/
inductive Sought (name body : Bytes) (size : ℕ) : Bool → Bytes → Prop
  | found {v rest : Bytes} : Occurs name v body → v.length < size → (v ++ 0 :: rest).length = size →
      Sought name body size true (v ++ 0 :: rest)
  | refused {out : Bytes} : (∀ v, Occurs name v body → size ≤ v.length) → Sought name body size false out

theorem parameter_spec {out : Bytes} {size : ℕ} (hzero : 0 ∉ body) (hsize : out.length = size) (hroom : 0 < size) :
    ∃ ok out', parameter (body ++ 0 :: more) name out size = some (ok, out') ∧ Sought name body size ok out' := by
  have hlength : strlen (body ++ 0 :: more) 0 = some body.length := strlen_zero hzero
  unfold parameter
  rw [hlength, Option.bind_eq_bind, Option.bind_some]
  obtain ⟨ok, out', hloop, hsearched⟩ : ∃ ok out', parameterLoop ([] ++ (body ++ 0 :: more)) name size body.length 0 false out =
      some (ok, out') ∧ Searched name size out (fields name body) false ok out' :=
    parameterLoop_spec (Nat.le_refl _) rfl hzero hsize hroom
  refine ⟨ok, out', hloop, ?_⟩
  cases hsearched with
  | found hall hv hfits hwhole => exact .found ⟨_, hall, hv⟩ hfits hwhole
  | refused _ hno =>
      refine .refused ?_
      intro v ⟨e, hall, hv⟩
      exact hno v e hall hv

/-- `setup_wifi_valid` -/
def WifiValid (ssid password : Bytes) : Prop :=
  0 < ssid.length ∧ ssid.length ≤ 32 ∧ 8 ≤ password.length ∧ password.length ≤ 63

instance (ssid password : Bytes) : Decidable (WifiValid ssid password) :=
  inferInstanceAs (Decidable (0 < ssid.length ∧ ssid.length ≤ 32 ∧ 8 ≤ password.length ∧ password.length ≤ 63))

theorem setupWifiValid_spec {ssid password rest rest' : Bytes} (hssid : 0 ∉ ssid) (hpassword : 0 ∉ password) :
    setupWifiValid (ssid ++ 0 :: rest) (password ++ 0 :: rest') = some (decide (WifiValid ssid password)) := by
  have hfirst : strlen (ssid ++ 0 :: rest) 0 = some ssid.length := strlen_zero hssid
  have hsecond : strlen (password ++ 0 :: rest') 0 = some password.length := strlen_zero hpassword
  unfold setupWifiValid
  rw [hfirst, hsecond]
  refine congrArg some (Bool.eq_iff_iff.mpr ?_)
  rw [decide_eq_true_iff]
  simp [WifiValid, and_assoc]

structure Form (body csrf ssid password : Bytes) : Prop where
  short : body.length ≤ 512
  token : csrf.length ≤ 32
  tokenField : Occurs (chars "csrf") csrf body
  ssidField : Occurs (chars "ssid") ssid body
  passwordField : Occurs (chars "password") password body
  valid : WifiValid ssid password

theorem setupFormParse_spec (more extra : Bytes) {nonce ssid password : Bytes} (hbody : 0 ∉ body) (hcsrf : 0 ∉ csrf)
    (hnonce : nonce.length = 33) (hssid : ssid.length = 33) (hpassword : password.length = 64) :
    ∃ ok ssid' password', setupFormParse (body ++ 0 :: more) (csrf ++ 0 :: extra) nonce ssid password = some (ok, ssid', password') ∧
      (ok = true ↔ ∃ s p, Form body csrf s p) ∧
      (ok = true → ∀ s p, Form body csrf s p → stringAt ssid' 0 = some s ∧ stringAt password' 0 = some p) := by
  have hlength : strlen (body ++ 0 :: more) 0 = some body.length := strlen_zero hbody
  -- a form that is refused
  have hrefused : ∀ {ssid' password' : Bytes}, (∀ s p, ¬ Form body csrf s p) →
      ∃ ok ssid'' password'', (pure (false, ssid', password') : Access (Bool × Bytes × Bytes)) = some (ok, ssid'', password'') ∧
        (ok = true ↔ ∃ s p, Form body csrf s p) ∧
        (ok = true → ∀ s p, Form body csrf s p → stringAt ssid'' 0 = some s ∧ stringAt password'' 0 = some p) := by
    intro ssid' password' hno
    refine ⟨false, ssid', password', rfl, ⟨by simp, ?_⟩, by simp⟩
    intro ⟨s, p, hform⟩
    exact absurd hform (hno s p)
  unfold setupFormParse
  rw [hlength]
  simp only [Option.bind_eq_bind, Option.bind_some]
  split
  · rename_i hlong
    exact hrefused fun s p hform => absurd hform.short (by omega)
  rename_i hshort
  obtain ⟨ok, nonce', hparameter, hsought⟩ : ∃ ok nonce', parameter (body ++ 0 :: more) (chars "csrf") nonce 33 =
      some (ok, nonce') ∧ Sought (chars "csrf") body 33 ok nonce' := parameter_spec hbody hnonce (by omega)
  rw [hparameter, Option.bind_some]
  cases hsought with
  | refused hno =>
      refine hrefused fun s p hform => ?_
      have hlong := hno _ hform.tokenField
      have htoken := hform.token
      omega
  | @found token rest htoken htokenFits _ =>
  have hsame : sameString (token ++ 0 :: rest) (csrf ++ 0 :: extra) = some (decide (token = csrf)) := by
    simp [sameString, stringAt_zero htoken.nonzero, stringAt_zero hcsrf]
  rw [Bool.not_true, if_neg Bool.false_ne_true, hsame, Option.bind_some]
  by_cases htokenSame : token = csrf
  case neg =>
    rw [decide_eq_false htokenSame, Bool.not_false, if_pos rfl]
    exact hrefused fun s p hform => htokenSame (htoken.unique hform.tokenField)
  subst htokenSame
  rw [decide_eq_true rfl, Bool.not_true, if_neg Bool.false_ne_true]
  obtain ⟨ok, ssid', hparameter, hsought⟩ : ∃ ok ssid', parameter (body ++ 0 :: more) (chars "ssid") ssid 33 =
      some (ok, ssid') ∧ Sought (chars "ssid") body 33 ok ssid' := parameter_spec hbody hssid (by omega)
  rw [hparameter, Option.bind_some]
  cases hsought with
  | refused hno =>
      refine hrefused fun s p hform => ?_
      have hlong := hno _ hform.ssidField
      have hvalid := hform.valid.2.1
      omega
  | @found s restS hs hsFits _ =>
  rw [Bool.not_true, if_neg Bool.false_ne_true]
  obtain ⟨ok, password', hparameter, hsought⟩ : ∃ ok password',
      parameter (body ++ 0 :: more) (chars "password") password 64 = some (ok, password') ∧
        Sought (chars "password") body 64 ok password' := parameter_spec hbody hpassword (by omega)
  rw [hparameter, Option.bind_some]
  cases hsought with
  | refused hno =>
      refine hrefused fun s p hform => ?_
      have hlong := hno _ hform.passwordField
      have hvalid := hform.valid.2.2.2
      omega
  | @found p restP hp hpFits _ =>
  rw [Bool.not_true, if_neg Bool.false_ne_true, setupWifiValid_spec hs.nonzero hp.nonzero]
  refine ⟨decide (WifiValid s p), _, _, rfl, ?_, ?_⟩
  · rw [decide_eq_true_iff]
    constructor
    · intro hvalid
      exact ⟨s, p, by omega, by omega, htoken, hs, hp, hvalid⟩
    · intro ⟨s', p', hform⟩
      rw [hs.unique hform.ssidField, hp.unique hform.passwordField]
      exact hform.valid
  · intro _ s' p' hform
    rw [← hs.unique hform.ssidField, ← hp.unique hform.passwordField]
    exact ⟨stringAt_zero hs.nonzero, stringAt_zero hp.nonzero⟩

/-! ## Forms that are made of fields -/

theorem encodes_plain (h : (v.all fun c => c ≠ 0 ∧ c ≠ 37 ∧ c ≠ 38 ∧ c ≠ 43) = true) : Encodes v v := by
  induction v with
  | nil => exact .nil
  | cons c v ih =>
      rw [List.all_cons, Bool.and_eq_true, decide_eq_true_iff] at h
      obtain ⟨⟨hzero, hpercent, hamp, hplus⟩, hrest⟩ := h
      exact .plain hzero hpercent hamp hplus (ih hrest)

theorem hexValue_hexDigit {n : ℕ} (h : n < 16) : hexValue (hexDigit n) = some n := by
  have hall : ∀ n < 16, hexValue (hexDigit n) = some n := by decide
  exact hall n h

theorem exists_encoding (h : 0 ∉ v) : ∃ e, Encodes v e := by
  induction v with
  | nil => exact ⟨[], .nil⟩
  | cons c v ih =>
      obtain ⟨hc, hv⟩ := not_or.mp fun hmem => h (List.mem_cons.mpr hmem)
      obtain ⟨e, he⟩ := ih hv
      have hbyte : UInt8.ofNat (c.toNat / 16 * 16 + c.toNat % 16) = c := by
        rw [Nat.div_add_mod', UInt8.ofNat_toNat]
      have hlt : c.toNat < 256 := c.toNat_lt
      have hescape := Encodes.escape (hexValue_hexDigit (n := c.toNat / 16) (by omega)) (hexValue_hexDigit (n := c.toNat % 16) (by omega))
        (by rw [hbyte]; exact fun heq => hc heq.symm) he
      rw [hbyte] at hescape
      exact ⟨_, hescape⟩

theorem intercalate_length {fs : List Bytes} (hne : fs ≠ []) :
    ([38].intercalate fs).length + 1 = (fs.map fun f => f.length + 1).sum := by
  induction fs with
  | nil => exact absurd rfl hne
  | cons f fs ih =>
      cases fs with
      | nil => simp
      | cons g gs =>
          have hrest := ih (by simp)
          rw [List.intercalate_cons_cons, List.map_cons, List.sum_cons, ← hrest]
          simp
          omega

theorem isField_field {name' : Bytes} (h : 61 ∉ name) (h' : 61 ∉ name') :
    isField name (name' ++ 61 :: e) = decide (name = name') := by
  have htaken : ∀ {n e : Bytes}, 61 ∉ n → (n ++ 61 :: e).takeWhile (· ≠ 61) = n := by
    intro n e hn
    rw [List.takeWhile_append_of_pos, List.takeWhile_cons_of_neg (by simp), List.append_nil]
    intro c hc
    rw [decide_eq_true_eq]
    intro heq
    exact hn (heq ▸ hc)
  rw [Bool.eq_iff_iff, isField_iff, decide_eq_true_eq]
  constructor
  · intro ⟨e', he'⟩
    have hsame := congrArg (List.takeWhile (· ≠ 61)) he'
    rw [htaken h', htaken h] at hsame
    exact hsame.symm
  · intro heq
    subst heq
    exact ⟨e, rfl⟩

def Made (fs : List Bytes) (csrf ssid password : Bytes) : Prop :=
  ∃ ec es ep, Encodes csrf ec ∧ Encodes ssid es ∧ Encodes password ep ∧
    fs.Perm [chars "csrf" ++ 61 :: ec, chars "ssid" ++ 61 :: es, chars "password" ++ 61 :: ep]

variable {fs : List Bytes} {s p : Bytes}

theorem Made.bytes (h : Made fs csrf s p) : ∀ f ∈ fs, 0 ∉ f ∧ 38 ∉ f := by
  obtain ⟨ec, es, ep, hc, hs, hp, hperm⟩ := h
  have hone : ∀ {n v e : Bytes}, 0 ∉ n ∧ 38 ∉ n → Encodes v e → 0 ∉ n ++ 61 :: e ∧ 38 ∉ n ++ 61 :: e := by
    intro n v e hn hv
    obtain ⟨-, hzero, hamp⟩ := hv.bytes
    simp [hn, hzero, hamp]
  intro f hf
  have hmem := hperm.mem_iff.mp hf
  simp only [List.mem_cons, List.not_mem_nil, or_false] at hmem
  rcases hmem with rfl | rfl | rfl
  · exact hone (by decide) hc
  · exact hone (by decide) hs
  · exact hone (by decide) hp

theorem Made.ne_nil (h : Made fs csrf s p) : fs ≠ [] := by
  obtain ⟨_, _, _, _, _, _, hperm⟩ := h
  intro hnil
  exact absurd (hnil ▸ hperm).nil_eq (by simp)

theorem intercalate_nonzero (h : ∀ f ∈ fs, 0 ∉ f) : 0 ∉ [38].intercalate fs := by
  induction fs with
  | nil => simp
  | cons f fs ih =>
      have hf := h f List.mem_cons_self
      cases fs with
      | nil => simpa using hf
      | cons g gs =>
          have hrest := ih fun f hf => h f (List.mem_cons_of_mem _ hf)
          rw [List.intercalate_cons_cons]
          simp [hf, hrest]

theorem Made.form (h : Made fs csrf s p) (htoken : csrf.length ≤ 32) (hvalid : WifiValid s p) :
    Form ([38].intercalate fs) csrf s p := by
  have hbytes := h.bytes
  have hne := h.ne_nil
  obtain ⟨ec, es, ep, hc, hs, hp, hperm⟩ := h
  have hfields : ∀ name, fields name ([38].intercalate fs) = fs.filter (isField name) := by
    intro name
    rw [fields, List.splitOn_intercalate 38 (fun f hf => (hbytes f hf).2) hne]
  have hone : ∀ {name f : Bytes}, [chars "csrf" ++ 61 :: ec, chars "ssid" ++ 61 :: es, chars "password" ++ 61 :: ep].filter
      (isField name) = [f] → fields name ([38].intercalate fs) = [f] := by
    intro name f hf
    have hfiltered := hperm.filter (isField name)
    rw [hf] at hfiltered
    rw [hfields name]
    exact List.perm_singleton.mp hfiltered
  have hnames : 61 ∉ chars "csrf" ∧ 61 ∉ chars "ssid" ∧ 61 ∉ chars "password" := by decide
  obtain ⟨hcsrf, hssid, hpassword⟩ := hnames
  refine ⟨?_, htoken, ⟨ec, hone ?_, hc⟩, ⟨es, hone ?_, hs⟩, ⟨ep, hone ?_, hp⟩, hvalid⟩
  · have hlength := intercalate_length hne
    rw [(hperm.map fun f => f.length + 1).sum_eq] at hlength
    have hlengths := And.intro hc.length_le (And.intro hs.length_le hp.length_le)
    have hcsrfLength : (chars "csrf").length = 4 := by decide
    have hssidLength : (chars "ssid").length = 4 := by decide
    have hpasswordLength : (chars "password").length = 8 := by decide
    obtain ⟨-, hs32, -, hp63⟩ := hvalid
    simp only [List.map_cons, List.map_nil, List.sum_cons, List.sum_nil, List.length_append, List.length_cons,
      hcsrfLength, hssidLength, hpasswordLength] at hlength
    omega
  · simp only [List.filter_cons, List.filter_nil, isField_field hcsrf hcsrf, isField_field hcsrf hssid,
      isField_field hcsrf hpassword]
    rfl
  · simp only [List.filter_cons, List.filter_nil, isField_field hssid hcsrf, isField_field hssid hssid,
      isField_field hssid hpassword]
    rfl
  · simp only [List.filter_cons, List.filter_nil, isField_field hpassword hcsrf, isField_field hpassword hssid,
      isField_field hpassword hpassword]
    rfl

/-- **The parser never leaves its buffers; it takes a body exactly if each field is in it once and decodes to
what it must be; and a form of three encoded fields gives them back.** -/
theorem setupFormParse_correct {nonce ssid password : Bytes} (hnonce : nonce.length = 33) (hssid : ssid.length = 33)
    (hpassword : password.length = 64) (csrf : CString) :
    (∀ body : CString, ∃ ok ssid' password',
      setupFormParse (body.bytes ++ [0]) (csrf.bytes ++ [0]) nonce ssid password = some (ok, ssid', password') ∧
      (ok = true ↔ ∃ s p, Form body.bytes csrf.bytes s p) ∧
      (ok = true → ∀ s p, Form body.bytes csrf.bytes s p →
        stringAt ssid' 0 = some s ∧ stringAt password' 0 = some p)) ∧
    ∀ fs s p, Made fs csrf.bytes s p → csrf.bytes.length ≤ 32 → WifiValid s p → ∃ ssid' password',
      setupFormParse ([38].intercalate fs ++ [0]) (csrf.bytes ++ [0]) nonce ssid password =
        some (true, ssid', password') ∧ stringAt ssid' 0 = some s ∧ stringAt password' 0 = some p := by
  refine ⟨fun body => setupFormParse_spec [] [] body.nonzero csrf.nonzero hnonce hssid hpassword, ?_⟩
  intro fs s p hmade htoken hvalid
  have hform := hmade.form htoken hvalid
  obtain ⟨ok, ssid', password', hparse, hok, hvalues⟩ := setupFormParse_spec [] []
    (intercalate_nonzero fun f hf => (hmade.bytes f hf).1) csrf.nonzero hnonce hssid hpassword
  obtain rfl := hok.mpr ⟨s, p, hform⟩
  exact ⟨ssid', password', hparse, hvalues rfl s p hform⟩

/-- A form as a browser sends it. -/
theorem setupFormParse_correct_plant :
    ∃ ssid' password', setupFormParse
        ([38].intercalate [chars "csrf=nonce", chars "ssid=Plant", chars "password=password"] ++ [0])
        (chars "nonce" ++ [0]) (List.replicate 33 0) (List.replicate 33 0) (List.replicate 64 0) =
      some (true, ssid', password') ∧
      stringAt ssid' 0 = some (chars "Plant") ∧ stringAt password' 0 = some (chars "password") := by
  refine (setupFormParse_correct (by decide) (by decide) (by decide) ⟨chars "nonce", by decide⟩).2 _ _ _ ?_
    (by decide) (by decide)
  exact ⟨chars "nonce", chars "Plant", chars "password", encodes_plain (by decide), encodes_plain (by decide),
    encodes_plain (by decide), .refl _⟩

end Albusforge.Camera
