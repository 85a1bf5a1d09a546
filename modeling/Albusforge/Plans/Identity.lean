import Albusforge.Lib.Double
import Albusforge.Lib.JsonCanonical

/-!
# What a plan was solved from

`serializeBuildPlanInput` of `packages/schema/src/build-plan.ts`, and `planInputDigest` of
`apps/gateway/src/build-plan-store.ts`. The gateway stores the digest of a spec, a runtime and the
evidence with each plan, and whoever uses the plan builds the input again and compares digests.

A value that is not thrown at is a value of JSON once undefined properties are dropped and the two
zeros are one (`toJson`), and it is written as that value is with its names in order (`encode_eq`). So
**two inputs have one text exactly when they are equal** (`plan_identity`).
-/

namespace Albusforge.Plans

open Lib Lib.Json

inductive JsData where
  | undefined
  | null
  | bool (b : Bool)
  | num (x : Double)
  | str (s : Text)
  | arr (items : List JsData)
  | obj (members : List (Text × JsData))
  | foreign

namespace JsData

/-! ## The code -/

/-- `([a], [b]) => (a < b ? -1 : a > b ? 1 : 0)` on what has been encoded. -/
def byKey (a b : Text × Text) : Ordering := compareText a.1 b.1

mutual

/-- `encode`, and `none` where it throws. Entries are sorted by key, so it is all the same whether
their values are encoded before or after. -/
def encode : JsData → Option Text
  | undefined => none
  | null => some (js "null")
  | bool b => some (if b then js "true" else js "false")
  | num x => if x.isFinite then some x.text else none
  | str s => some (quote s)
  | arr items => (encodeItems items).map fun texts => lbracket :: (join comma texts ++ [rbracket])
  | obj members => (encodeMembers members).map fun entries =>
      lbrace :: (join comma ((sortBy byKey entries).map fun e => quote e.1 ++ colon :: e.2) ++ [rbrace])
  | foreign => none

def encodeItems : List JsData → Option (List Text)
  | [] => some []
  | j :: items => do
      let text ← encode j
      let texts ← encodeItems items
      return text :: texts

def encodeMembers : List (Text × JsData) → Option (List (Text × Text))
  | [] => some []
  | (k, j) :: members => do
      match j with
      | undefined => encodeMembers members
      | j => do
          let text ← encode j
          let entries ← encodeMembers members
          return (k, text) :: entries
end

end JsData

structure PlanInput where
  spec : JsData
  runtime : Text
  evidence : JsData

def PlanInput.properties (input : PlanInput) : List (Text × JsData) :=
  [(js "spec", input.spec), (js "runtime", .str input.runtime), (js "evidence", input.evidence)]

/-- `{ spec: input.spec, runtime: input.runtime, evidence: input.evidence }` -/
def PlanInput.data (input : PlanInput) : JsData := .obj input.properties

def serializeBuildPlanInput (input : PlanInput) : Option Text := input.data.encode

/-- `planInputDigest`, with the hash of a text. -/
def planInputDigest {δ : Type} (hash : Text → δ) (input : PlanInput) : Option δ :=
  (serializeBuildPlanInput input).map hash

/-! ## Equal values -/

namespace JsData

/-- Equal as values of JSON: the order of keys and undefined properties do not count, and numbers are
compared by `===`. -/
inductive Equal : JsData → JsData → Prop where
  | null : Equal null null
  | bool (b : Bool) : Equal (bool b) (bool b)
  | num {x y : Double} : x.StrictEq y → Equal (num x) (num y)
  | str (s : Text) : Equal (str s) (str s)
  | arr {l l' : List JsData} : l.length = l'.length →
      (∀ (i : ℕ) (j j' : JsData), l[i]? = some j → l'[i]? = some j' → Equal j j') → Equal (arr l) (arr l')
  | obj {m m' : List (Text × JsData)} :
      (∀ k, (∃ j, (k, j) ∈ m ∧ j ≠ undefined) ↔ ∃ j', (k, j') ∈ m' ∧ j' ≠ undefined) →
      (∀ k j j', (k, j) ∈ m → (k, j') ∈ m' → j ≠ undefined → j' ≠ undefined → Equal j j') →
      Equal (obj m) (obj m')

def EqualProperty (a b : JsData) : Prop := a = undefined ∧ b = undefined ∨ Equal a b

mutual

def Distinct : JsData → Prop
  | arr items => AllDistinct items
  | obj members => (members.map Prod.fst).Nodup ∧ MembersDistinct members
  | _ => True

def AllDistinct : List JsData → Prop
  | [] => True
  | j :: items => Distinct j ∧ AllDistinct items

def MembersDistinct : List (Text × JsData) → Prop
  | [] => True
  | (_, j) :: members => Distinct j ∧ MembersDistinct members
end

/-! ## As JSON -/

mutual

def toJson : JsData → Option (Json JsonDouble)
  | undefined => none
  | null => some .null
  | bool b => some (.bool b)
  | num x => (JsonDouble.ofDouble x).map .num
  | str s => some (.str s)
  | arr items => (toJsonItems items).map .arr
  | obj members => (toJsonMembers members).map .obj
  | foreign => none

def toJsonItems : List JsData → Option (List (Json JsonDouble))
  | [] => some []
  | j :: items => do
      let value ← toJson j
      let values ← toJsonItems items
      return value :: values

def toJsonMembers : List (Text × JsData) → Option (List (Text × Json JsonDouble))
  | [] => some []
  | (k, j) :: members => do
      match j with
      | undefined => toJsonMembers members
      | j => do
          let value ← toJson j
          let values ← toJsonMembers members
          return (k, value) :: values
end

/-! ## The text is that of the value of JSON -/

def sortedText (j : Json JsonDouble) : Text := stringify (arranged (sortBy byName) j)

theorem encodeMembers_cons {k : Text} {j : JsData} {m : List (Text × JsData)} (hj : j ≠ undefined) :
    encodeMembers ((k, j) :: m) =
      (encode j).bind fun text => (encodeMembers m).map fun entries => (k, text) :: entries := by
  cases j with
  | undefined => exact absurd rfl hj
  | _ => cases h : encodeMembers m <;> simp [encodeMembers, h]

theorem toJsonMembers_cons {k : Text} {j : JsData} {m : List (Text × JsData)} (hj : j ≠ undefined) :
    toJsonMembers ((k, j) :: m) =
      (toJson j).bind fun value => (toJsonMembers m).map fun values => (k, value) :: values := by
  cases j with
  | undefined => exact absurd rfl hj
  | _ => cases h : toJsonMembers m <;> simp [toJsonMembers, h]

mutual

theorem encode_eq : ∀ d : JsData, d.encode = d.toJson.map sortedText
  | undefined => rfl
  | null => rfl
  | bool _ => rfl
  | num x => by
      cases x <;> rfl
  | str _ => rfl
  | arr items => by
      rw [encode, toJson, encodeItems_eq items, Option.map_map, Option.map_map]
      congr 1
      funext values
      change _ = stringify (arranged _ (.arr values))
      rw [arranged, stringify_arr, arrangedItems_eq, List.map_map]
      rfl
  | obj members => by
      rw [encode, toJson, encodeMembers_eq members, Option.map_map, Option.map_map]
      congr 1
      funext ms
      change lbrace :: (join comma ((sortBy byKey (ms.map fun x => (x.1, sortedText x.2))).map _) ++ _) =
        stringify (arranged _ (.obj ms))
      rw [sortBy_map (f := fun x : Text × Json JsonDouble => (x.1, sortedText x.2)) (fun _ _ => rfl), arranged,
        stringify_obj, arrangedMembers_eq, sortBy_map (f := fun x : Text × Json JsonDouble =>
          (x.1, arranged (sortBy byName) x.2)) (fun _ _ => rfl), List.map_map, List.map_map]
      rfl
  | foreign => rfl

theorem encodeItems_eq : ∀ l : List JsData, encodeItems l = (toJsonItems l).map fun vs => vs.map sortedText
  | [] => rfl
  | j :: l => by
      rw [encodeItems, toJsonItems, encode_eq j, encodeItems_eq l]
      cases toJson j <;> cases toJsonItems l <;> rfl

theorem encodeMembers_eq : ∀ m : List (Text × JsData),
    encodeMembers m = (toJsonMembers m).map fun vs => vs.map fun x => (x.1, sortedText x.2)
  | [] => rfl
  | (k, j) :: m => by
      by_cases hj : j = undefined
      · rw [hj, encodeMembers, toJsonMembers, encodeMembers_eq m]
      · rw [encodeMembers_cons hj, toJsonMembers_cons hj, encodeMembers_eq m, encode_eq j]
        cases toJson j <;> cases toJsonMembers m <;> rfl
end

/-! ## Equal values are the same as JSON -/

theorem toJsonItems_forall : ∀ {l : List JsData} {vs : List (Json JsonDouble)}, toJsonItems l = some vs →
    List.Forall₂ (fun j v => toJson j = some v) l vs
  | [], vs, h => by
      obtain rfl : [] = vs := by simpa [toJsonItems] using h
      exact .nil
  | j :: l, vs, h => by
      simp only [toJsonItems, Option.bind_eq_bind, Option.bind_eq_some_iff] at h
      obtain ⟨v, hv, rest, hrest, heq⟩ := h
      obtain rfl : v :: rest = vs := by simpa using heq
      exact .cons hv (toJsonItems_forall hrest)

theorem mem_toJsonMembers : ∀ {m : List (Text × JsData)} {ms : List (Text × Json JsonDouble)},
    toJsonMembers m = some ms → (∀ k v, (k, v) ∈ ms → ∃ j, (k, j) ∈ m ∧ j ≠ undefined ∧ toJson j = some v) ∧
      ∀ k j, (k, j) ∈ m → j ≠ undefined → ∃ v, (k, v) ∈ ms ∧ toJson j = some v
  | [], ms, h => by
      obtain rfl : [] = ms := by simpa [toJsonMembers] using h
      simp
  | (c, i) :: m, ms, h => by
      by_cases hi : i = undefined
      · subst hi
        obtain ⟨hback, hforth⟩ := mem_toJsonMembers (m := m) h
        refine ⟨?_, ?_⟩
        · intro k v hv
          obtain ⟨j, hj, hrest⟩ := hback k v hv
          exact ⟨j, List.mem_cons_of_mem _ hj, hrest⟩
        · intro k j hj hdef
          rcases List.mem_cons.mp hj with heq | hj
          · exact absurd (Prod.mk.inj heq).2 hdef
          · exact hforth k j hj hdef
      · rw [toJsonMembers_cons hi] at h
        obtain ⟨w, hw, hrest⟩ := Option.bind_eq_some_iff.mp h
        obtain ⟨ws, hws, rfl⟩ := Option.map_eq_some_iff.mp hrest
        obtain ⟨hback, hforth⟩ := mem_toJsonMembers hws
        refine ⟨?_, ?_⟩
        · intro k v hv
          rcases List.mem_cons.mp hv with heq | hv
          · obtain ⟨rfl, rfl⟩ := Prod.mk.inj heq
            exact ⟨i, List.mem_cons_self, hi, hw⟩
          · obtain ⟨j, hj, hrest⟩ := hback k v hv
            exact ⟨j, List.mem_cons_of_mem _ hj, hrest⟩
        · intro k j hj hdef
          rcases List.mem_cons.mp hj with heq | hj
          · obtain ⟨rfl, rfl⟩ := Prod.mk.inj heq
            exact ⟨w, List.mem_cons_self, hw⟩
          · obtain ⟨v, hv, hrest⟩ := hforth k j hj hdef
            exact ⟨v, List.mem_cons_of_mem _ hv, hrest⟩

theorem mem_toJsonMembers_keys {m : List (Text × JsData)} {ms : List (Text × Json JsonDouble)}
    (h : toJsonMembers m = some ms) (k : Text) :
    k ∈ ms.map Prod.fst ↔ ∃ j, (k, j) ∈ m ∧ j ≠ undefined := by
  obtain ⟨hback, hforth⟩ := mem_toJsonMembers h
  constructor
  · intro hk
    obtain ⟨⟨k', v⟩, hv, rfl⟩ := List.mem_map.mp hk
    obtain ⟨j, hj, hdef, -⟩ := hback k' v hv
    exact ⟨j, hj, hdef⟩
  · intro hk
    obtain ⟨j, hj, hdef⟩ := hk
    obtain ⟨v, hv, -⟩ := hforth k j hj hdef
    exact List.mem_map_of_mem hv

theorem toJsonMembers_keys : ∀ {m : List (Text × JsData)} {ms : List (Text × Json JsonDouble)},
    toJsonMembers m = some ms → (ms.map Prod.fst).Sublist (m.map Prod.fst)
  | [], ms, h => by
      obtain rfl : [] = ms := by simpa [toJsonMembers] using h
      exact .slnil
  | (c, i) :: m, ms, h => by
      by_cases hi : i = undefined
      · subst hi
        exact (toJsonMembers_keys (m := m) h).cons _
      · rw [toJsonMembers_cons hi] at h
        obtain ⟨w, -, hrest⟩ := Option.bind_eq_some_iff.mp h
        obtain ⟨ws, hws, rfl⟩ := Option.map_eq_some_iff.mp hrest
        exact (toJsonMembers_keys hws).cons_cons _

mutual

theorem toJson_distinct : ∀ {d : JsData} {j : Json JsonDouble}, d.toJson = some j → d.Distinct → j.Distinct
  | undefined, _, h, _ => by simp [toJson] at h
  | foreign, _, h, _ => by simp [toJson] at h
  | null, _, h, _ => by
      obtain rfl := Option.some.inj h
      trivial
  | bool _, _, h, _ => by
      obtain rfl := Option.some.inj h
      trivial
  | str _, _, h, _ => by
      obtain rfl := Option.some.inj h
      trivial
  | num _, _, h, _ => by
      obtain ⟨_, _, rfl⟩ := Option.map_eq_some_iff.mp h
      trivial
  | arr _, _, h, hd => by
      obtain ⟨vs, hvs, rfl⟩ := Option.map_eq_some_iff.mp h
      exact toJsonItems_distinct hvs hd
  | obj _, _, h, hd => by
      obtain ⟨ms, hms, rfl⟩ := Option.map_eq_some_iff.mp h
      exact ⟨(toJsonMembers_keys hms).nodup hd.1, toJsonMembers_distinct hms hd.2⟩

theorem toJsonItems_distinct : ∀ {l : List JsData} {vs : List (Json JsonDouble)}, toJsonItems l = some vs →
    AllDistinct l → Json.AllDistinct vs
  | [], vs, h, _ => by
      obtain rfl : [] = vs := by simpa [toJsonItems] using h
      trivial
  | j :: l, vs, h, hd => by
      simp only [toJsonItems, Option.bind_eq_bind, Option.bind_eq_some_iff] at h
      obtain ⟨v, hv, rest, hrest, heq⟩ := h
      obtain rfl : v :: rest = vs := by simpa using heq
      exact ⟨toJson_distinct hv hd.1, toJsonItems_distinct hrest hd.2⟩

theorem toJsonMembers_distinct : ∀ {m : List (Text × JsData)} {ms : List (Text × Json JsonDouble)},
    toJsonMembers m = some ms → MembersDistinct m → Json.MembersDistinct ms
  | [], ms, h, _ => by
      obtain rfl : [] = ms := by simpa [toJsonMembers] using h
      trivial
  | (c, i) :: m, ms, h, hd => by
      by_cases hi : i = undefined
      · subst hi
        exact toJsonMembers_distinct (m := m) h hd.2
      · rw [toJsonMembers_cons hi] at h
        obtain ⟨w, hw, hrest⟩ := Option.bind_eq_some_iff.mp h
        obtain ⟨ws, hws, rfl⟩ := Option.map_eq_some_iff.mp hrest
        exact ⟨toJson_distinct hw hd.1, toJsonMembers_distinct hws hd.2⟩
end

/-- **Equal values are the same value of JSON.** -/
theorem Equal.same {a b : JsData} (h : Equal a b) : ∀ {ja jb : Json JsonDouble}, a.toJson = some ja →
    b.toJson = some jb → Same ja jb := by
  induction h with
  | null =>
    intro ja jb ha hb
    obtain rfl := Option.some.inj ha
    obtain rfl := Option.some.inj hb
    exact .null
  | bool b =>
    intro ja jb ha hb
    obtain rfl := Option.some.inj ha
    obtain rfl := Option.some.inj hb
    exact .bool b
  | str s =>
    intro ja jb ha hb
    obtain rfl := Option.some.inj ha
    obtain rfl := Option.some.inj hb
    exact .str s
  | @num x y hxy =>
    intro ja jb ha hb
    obtain ⟨m, hm, rfl⟩ := Option.map_eq_some_iff.mp ha
    obtain ⟨n, hn, rfl⟩ := Option.map_eq_some_iff.mp hb
    rw [(JsonDouble.ofDouble_eq_iff hm hn).mpr hxy]
    exact .num n
  | @arr l l' hlen _ ih =>
    intro ja jb ha hb
    obtain ⟨vs, hvs, rfl⟩ := Option.map_eq_some_iff.mp ha
    obtain ⟨ws, hws, rfl⟩ := Option.map_eq_some_iff.mp hb
    have hl := toJsonItems_forall hvs
    have hl' := toJsonItems_forall hws
    refine .arr (by rw [← hl.length_eq, ← hl'.length_eq, hlen]) ?_
    intro i v w hv hw
    obtain ⟨hi, rfl⟩ := List.getElem?_eq_some_iff.mp hv
    obtain ⟨hi', rfl⟩ := List.getElem?_eq_some_iff.mp hw
    have hlt : i < l.length := by rw [hl.length_eq]; exact hi
    have hlt' : i < l'.length := by rw [hl'.length_eq]; exact hi'
    exact ih i l[i] l'[i] (List.getElem?_eq_getElem hlt) (List.getElem?_eq_getElem hlt') (hl.get hlt hi)
      (hl'.get hlt' hi')
  | @obj m m' hkeys _ ih =>
    intro ja jb ha hb
    obtain ⟨ms, hms, rfl⟩ := Option.map_eq_some_iff.mp ha
    obtain ⟨ms', hms', rfl⟩ := Option.map_eq_some_iff.mp hb
    refine .obj ?_ ?_
    · intro k
      rw [mem_toJsonMembers_keys hms, mem_toJsonMembers_keys hms']
      exact hkeys k
    · intro k v v' hv hv'
      obtain ⟨j, hj, hdef, hjv⟩ := (mem_toJsonMembers hms).1 k v hv
      obtain ⟨j', hj', hdef', hjv'⟩ := (mem_toJsonMembers hms').1 k v' hv'
      exact ih k j j' hj hj' hdef hdef' hjv hjv'

theorem toJson_null {a : JsData} (h : a.toJson = some .null) : a = null := by
  cases a <;> simp [toJson] at h ⊢

theorem toJson_bool {a : JsData} {b : Bool} (h : a.toJson = some (.bool b)) : a = bool b := by
  cases a <;> simp [toJson] at h ⊢
  exact h

theorem toJson_str {a : JsData} {s : Text} (h : a.toJson = some (.str s)) : a = str s := by
  cases a <;> simp [toJson] at h ⊢
  exact h

theorem toJson_num {a : JsData} {n : JsonDouble} (h : a.toJson = some (.num n)) :
    ∃ x, a = num x ∧ JsonDouble.ofDouble x = some n := by
  cases a <;> simp [toJson] at h ⊢
  exact h

theorem toJson_arr {a : JsData} {vs : List (Json JsonDouble)} (h : a.toJson = some (.arr vs)) :
    ∃ l, a = arr l ∧ toJsonItems l = some vs := by
  cases a <;> simp [toJson] at h ⊢
  exact h

theorem toJson_obj {a : JsData} {ms : List (Text × Json JsonDouble)} (h : a.toJson = some (.obj ms)) :
    ∃ m, a = obj m ∧ toJsonMembers m = some ms := by
  cases a <;> simp [toJson] at h ⊢
  exact h

theorem equal_of_same {ja jb : Json JsonDouble} (h : Same ja jb) : ∀ {a b : JsData}, a.toJson = some ja →
    b.toJson = some jb → Equal a b := by
  induction h with
  | null =>
    intro a b ha hb
    rw [toJson_null ha, toJson_null hb]
    exact .null
  | bool c =>
    intro a b ha hb
    rw [toJson_bool ha, toJson_bool hb]
    exact .bool c
  | str s =>
    intro a b ha hb
    rw [toJson_str ha, toJson_str hb]
    exact .str s
  | num n =>
    intro a b ha hb
    obtain ⟨x, rfl, hx⟩ := toJson_num ha
    obtain ⟨y, rfl, hy⟩ := toJson_num hb
    exact .num ((JsonDouble.ofDouble_eq_iff hx hy).mp rfl)
  | @arr vs ws hlen _ ih =>
    intro a b ha hb
    obtain ⟨l, rfl, hvs⟩ := toJson_arr ha
    obtain ⟨l', rfl, hws⟩ := toJson_arr hb
    have hl := toJsonItems_forall hvs
    have hl' := toJsonItems_forall hws
    refine .arr (by rw [hl.length_eq, hl'.length_eq, hlen]) ?_
    intro i j j' hj hj'
    obtain ⟨hi, rfl⟩ := List.getElem?_eq_some_iff.mp hj
    obtain ⟨hi', rfl⟩ := List.getElem?_eq_some_iff.mp hj'
    have hlt : i < vs.length := by rw [← hl.length_eq]; exact hi
    have hlt' : i < ws.length := by rw [← hl'.length_eq]; exact hi'
    exact ih i vs[i] ws[i] (List.getElem?_eq_getElem hlt) (List.getElem?_eq_getElem hlt') (hl.get hi hlt)
      (hl'.get hi' hlt')
  | @obj ms ms' hkeys _ ih =>
    intro a b ha hb
    obtain ⟨m, rfl, hms⟩ := toJson_obj ha
    obtain ⟨m', rfl, hms'⟩ := toJson_obj hb
    refine .obj ?_ ?_
    · intro k
      rw [← mem_toJsonMembers_keys hms, ← mem_toJsonMembers_keys hms']
      exact hkeys k
    · intro k j j' hj hj' hdef hdef'
      obtain ⟨v, hv, hjv⟩ := (mem_toJsonMembers hms).2 k j hj hdef
      obtain ⟨v', hv', hjv'⟩ := (mem_toJsonMembers hms').2 k j' hj' hdef'
      exact ih k v v' hv hv' hjv hjv'

theorem encode_eq_iff {a b : JsData} (ha : a.Distinct) (hb : b.Distinct) {s t : Text} (hs : a.encode = some s)
    (ht : b.encode = some t) : s = t ↔ Equal a b := by
  rw [encode_eq] at hs ht
  obtain ⟨ja, hja, rfl⟩ := Option.map_eq_some_iff.mp hs
  obtain ⟨jb, hjb, rfl⟩ := Option.map_eq_some_iff.mp ht
  unfold sortedText
  rw [stringify_arranged_eq_iff byName_arranges (toJson_distinct hja ha) (toJson_distinct hjb hb)]
  exact ⟨fun h => equal_of_same h hja hjb, fun h => h.same hja hjb⟩

end JsData

/-! ## Equal inputs -/

namespace PlanInput

structure Distinct (input : PlanInput) : Prop where
  spec : input.spec.Distinct
  evidence : input.evidence.Distinct

structure Equal (a b : PlanInput) : Prop where
  spec : JsData.EqualProperty a.spec b.spec
  runtime : a.runtime = b.runtime
  evidence : JsData.EqualProperty a.evidence b.evidence

theorem Distinct.data {input : PlanInput} (h : input.Distinct) : input.data.Distinct := by
  refine ⟨?_, h.spec, trivial, h.evidence, trivial⟩
  change [js "spec", js "runtime", js "evidence"].Nodup
  decide

theorem mem_properties {input : PlanInput} {k : Text} {j : JsData} : (k, j) ∈ input.properties ↔
    k = js "spec" ∧ j = input.spec ∨ k = js "runtime" ∧ j = .str input.runtime ∨
      k = js "evidence" ∧ j = input.evidence := by
  simp [properties]

theorem property_iff {input : PlanInput} {j : JsData} :
    ((js "spec", j) ∈ input.properties ↔ j = input.spec) ∧
      ((js "runtime", j) ∈ input.properties ↔ j = .str input.runtime) ∧
      ((js "evidence", j) ∈ input.properties ↔ j = input.evidence) := by
  have hspec : js "spec" ≠ js "runtime" ∧ js "spec" ≠ js "evidence" := by decide
  have hruntime : js "runtime" ≠ js "evidence" := by decide
  simp [mem_properties, hspec.1, hspec.2, hspec.1.symm, hspec.2.symm, hruntime, hruntime.symm]

theorem equal_defined {x y : JsData} (h : JsData.Equal x y) : x ≠ .undefined ∧ y ≠ .undefined := by
  cases h <;> simp

theorem equal_str {s t : Text} (h : JsData.Equal (.str s) (.str t)) : s = t := by
  cases h with
  | str => rfl

theorem equalProperty_defined {x y : JsData} (h : JsData.EqualProperty x y) :
    x ≠ .undefined ↔ y ≠ .undefined := by
  rcases h with ⟨hx, hy⟩ | h
  · rw [hx, hy]
  · exact ⟨fun _ => (equal_defined h).2, fun _ => (equal_defined h).1⟩

theorem equalProperty_of {m m' : List (Text × JsData)} (h : JsData.Equal (.obj m) (.obj m')) {k : Text}
    {x y : JsData} (hx : ∀ j, (k, j) ∈ m ↔ j = x) (hy : ∀ j, (k, j) ∈ m' ↔ j = y) : JsData.EqualProperty x y := by
  cases h with
  | obj hkeys hall =>
    have hdef := hkeys k
    simp only [hx, hy, exists_eq_left] at hdef
    by_cases hxu : x = .undefined
    · exact Or.inl ⟨hxu, not_not.mp fun hyu => (hdef.mpr hyu) hxu⟩
    · exact Or.inr (hall k x y ((hx x).mpr rfl) ((hy y).mpr rfl) hxu (hdef.mp hxu))

theorem data_equal_iff {a b : PlanInput} : JsData.Equal a.data b.data ↔ a.Equal b := by
  constructor
  · intro h
    refine ⟨?_, ?_, ?_⟩
    · exact equalProperty_of h (fun _ => property_iff.1) fun _ => property_iff.1
    · have hruntime := equalProperty_of h (fun _ => property_iff.2.1) fun _ => property_iff.2.1
      rcases hruntime with ⟨hno, -⟩ | heq
      · exact absurd hno (by simp)
      · exact equal_str heq
    · exact equalProperty_of h (fun _ => property_iff.2.2) fun _ => property_iff.2.2
  · intro h
    have hruntime : JsData.EqualProperty (.str a.runtime) (.str b.runtime) := by
      rw [h.runtime]
      exact Or.inr (.str _)
    refine .obj ?_ ?_
    · intro k
      simp only [mem_properties, or_and_right, exists_or, and_assoc, exists_and_left, exists_eq_left]
      rw [equalProperty_defined h.spec, equalProperty_defined hruntime, equalProperty_defined h.evidence]
    · intro k j j' hj hj' hdef hdef'
      have hequal : ∀ {x y : JsData}, JsData.EqualProperty x y → j = x → j' = y → JsData.Equal j j' := by
        intro x y hxy hx hy
        subst hx hy
        exact hxy.resolve_left fun hno => hdef hno.1
      rcases mem_properties.mp hj with ⟨rfl, hx⟩ | ⟨rfl, hx⟩ | ⟨rfl, hx⟩
      · exact hequal h.spec hx (property_iff.1.mp hj')
      · exact hequal hruntime hx (property_iff.2.1.mp hj')
      · exact hequal h.evidence hx (property_iff.2.2.mp hj')

end PlanInput

/-- **The text of an input, and the digest if no two texts have one hash, identify the input.** -/
theorem plan_identity {a b : PlanInput} (ha : a.Distinct) (hb : b.Distinct) {s t : Text}
    (hs : serializeBuildPlanInput a = some s) (ht : serializeBuildPlanInput b = some t) :
    (s = t ↔ a.Equal b) ∧ ∀ {δ : Type} {hash : Text → δ}, Function.Injective hash →
      (planInputDigest hash a = planInputDigest hash b ↔ a.Equal b) := by
  have htext : s = t ↔ a.Equal b := by
    rw [JsData.encode_eq_iff ha.data hb.data hs ht, PlanInput.data_equal_iff]
  refine ⟨htext, ?_⟩
  intro δ hash hhash
  unfold planInputDigest
  rw [hs, ht, ← htext, Option.map_some, Option.map_some, Option.some.injEq]
  exact hhash.eq_iff

def spelled : PlanInput :=
  ⟨.obj [(js "name", .str (js "lamp")), (js "note", .undefined), (js "days", .num (.zero true))], js "1.0.0",
    .obj [(js "parts", .arr [])]⟩

def respelled : PlanInput :=
  ⟨.obj [(js "days", .num (.zero false)), (js "name", .str (js "lamp"))], js "1.0.0", .obj [(js "parts", .arr [])]⟩

/-- They have one text. -/
theorem plan_identity_lamp :
    serializeBuildPlanInput spelled = serializeBuildPlanInput respelled ∧ spelled.Equal respelled := by
  have hdistinct : spelled.Distinct ∧ respelled.Distinct :=
    ⟨⟨⟨by decide, trivial, trivial, trivial, trivial⟩, ⟨by decide, trivial, trivial⟩⟩,
      ⟨⟨by decide, trivial, trivial, trivial⟩, ⟨by decide, trivial, trivial⟩⟩⟩
  have htext : serializeBuildPlanInput spelled = some
      (js "\x7b\"evidence\":\x7b\"parts\":[]\x7d,\"runtime\":\"1.0.0\",\"spec\":\x7b\"days\":0,\"name\":\"lamp\"\x7d\x7d") := by
    decide +kernel
  have htext' : serializeBuildPlanInput respelled = some
      (js "\x7b\"evidence\":\x7b\"parts\":[]\x7d,\"runtime\":\"1.0.0\",\"spec\":\x7b\"days\":0,\"name\":\"lamp\"\x7d\x7d") := by
    decide +kernel
  exact ⟨htext.trans htext'.symm,
    (plan_identity hdistinct.1 hdistinct.2 htext htext').1.mp rfl⟩

end Albusforge.Plans
