import Mathlib.Algebra.BigOperators.Group.List.Basic
import Mathlib.Algebra.Order.BigOperators.Group.List
import Albusforge.Matcher.Assembly

/-!
# Placing peripherals one by one

The assignment checks a port when it puts a peripheral there, against the edges
wired so far. `Within` says that a finished placement keeps to its ports. The two
agree (`placeable_iff`): what a port holds only grows, and no draw is negative, so
a placement that ends within its ports was within them all along.
-/

namespace Albusforge.Matcher

open Lib

structure Within (placed : List (PartDefinition ℚ × ProfilePort ℚ)) : Prop where
  room : ∀ x ∈ placed, (placed.filter (fun y => y.2.id = x.2.id)).length ≤ x.2.capacity
  pins : ∀ x ∈ placed, ∀ y ∈ placed, x.2.id ≠ y.2.id → ∀ r ∈ x.2.resources, r ∉ y.2.resources
  currents : ∀ x ∈ placed, ((placed.filter (fun y => y.2.id = x.2.id)).map
    (fun y => y.1.electrical.currentDrawMa.active)).sum ≤ x.2.maxCurrentMa

theorem Within.nil : Within [] := ⟨by simp, by simp, by simp⟩

theorem Within.sublist {l l' : List (PartDefinition ℚ × ProfilePort ℚ)} (h : Within l)
    (hs : l'.Sublist l) (hdraw : ∀ x ∈ l, 0 ≤ x.1.electrical.currentDrawMa.active) : Within l' := by
  refine ⟨?_, ?_, ?_⟩
  · intro x hx
    exact ((hs.filter _).length_le).trans (h.room x (hs.subset hx))
  · intro x hx y hy
    exact h.pins x (hs.subset hx) y (hs.subset hy)
  · intro x hx
    refine le_trans (List.Sublist.sum_le_sum ((hs.filter _).map _) ?_) (h.currents x (hs.subset hx))
    intro d hd
    obtain ⟨y, hy, rfl⟩ := List.mem_map.mp hd
    exact hdraw y (List.mem_of_mem_filter hy)

theorem Within.perm {l l' : List (PartDefinition ℚ × ProfilePort ℚ)} (h : Within l)
    (hp : l.Perm l') : Within l' := by
  refine ⟨?_, ?_, ?_⟩
  · intro x hx
    rw [← (hp.filter _).length_eq]
    exact h.room x (hp.mem_iff.mpr hx)
  · intro x hx y hy
    exact h.pins x (hp.mem_iff.mpr hx) y (hp.mem_iff.mpr hy)
  · intro x hx
    rw [← ((hp.filter _).map _).sum_eq]
    exact h.currents x (hp.mem_iff.mpr hx)

theorem foldl_add_eq {α : Type} (g : α → ℚ) : ∀ (l : List α) (s : ℚ),
    l.foldl (fun sum x => sum + g x) s = s + (l.map g).sum
  | [], s => by simp
  | x :: l, s => by
      rw [List.foldl_cons, foldl_add_eq g l, List.map_cons, List.sum_cons, add_assoc]

def edges (placed : List (PartDefinition ℚ × ProfilePort ℚ)) : List WiringEdge :=
  placed.map (fun x => edgeFor x.1 x.2)

theorem edges_at (placed : List (PartDefinition ℚ × ProfilePort ℚ)) (port : Text) :
    (edges placed).filter (fun edge => edge.port == port)
      = edges (placed.filter (fun y => y.2.id = port)) := by
  unfold edges
  rw [List.filter_map]
  congr 1
  refine List.filter_congr (fun y _ => ?_)
  rw [Bool.eq_iff_iff, decide_eq_true_iff]
  exact beq_iff_eq

structure WireContext.Regular (ctx : WireContext ℚ) : Prop where
  peripherals : (ctx.peripherals.map (fun p => pinKey p.pin)).Nodup
  ports : (ctx.ports.map (·.id)).Nodup
  draws : ∀ p ∈ ctx.peripherals, 0 ≤ p.electrical.currentDrawMa.active

variable {ctx : WireContext ℚ}

theorem WireContext.Regular.edgeDraw (hctx : ctx.Regular) {x : PartDefinition ℚ × ProfilePort ℚ}
    (hx : x.1 ∈ ctx.peripherals) :
    ctx.edgeDraw (edgeFor x.1 x.2) = x.1.electrical.currentDrawMa.active := by
  have hfind : ctx.peripherals.find? (fun p => pinKey p.pin == pinKey x.1.pin) = some x.1 := by
    refine find?_eq_some_of_unique hx (by simp) ?_
    intro p hp heq
    exact Separates.of_nodup hctx.peripherals p hp x.1 hx (eq_of_beq heq)
  unfold WireContext.edgeDraw edgeFor
  simp only [hfind]

theorem WireContext.Regular.current (hctx : ctx.Regular)
    {done : List (PartDefinition ℚ × ProfilePort ℚ)}
    (hdone : ∀ y ∈ done, y.1 ∈ ctx.peripherals) (port : Text) (s : ℚ) :
    ((edges done).filter (fun edge => edge.port == port)).foldl
        (fun sum edge => sum + ctx.edgeDraw edge) s
      = s + ((done.filter (fun y => y.2.id = port)).map
          (fun y => y.1.electrical.currentDrawMa.active)).sum := by
  rw [foldl_add_eq, edges_at]
  unfold edges
  rw [List.map_map]
  congr 2
  refine List.map_congr_left ?_
  intro y hy
  exact hctx.edgeDraw (hdone y (List.mem_of_mem_filter hy))

/-- **A port is free exactly when the placement with the new peripheral is within its ports.** -/
theorem WireContext.Regular.portFree_iff (hctx : ctx.Regular)
    {done : List (PartDefinition ℚ × ProfilePort ℚ)}
    {x : PartDefinition ℚ × ProfilePort ℚ}
    (hdone : ∀ y ∈ done, y.1 ∈ ctx.peripherals ∧ y.2 ∈ ctx.ports)
    (hport : x.2 ∈ ctx.ports) (hwithin : Within done) :
    ctx.portFree x.1 x.2 (edges done) = true ↔ Within (done ++ [x]) := by
  have hlen : ((edges done).filter (fun edge => edge.port == x.2.id)).length
      = (done.filter (fun y => y.2.id = x.2.id)).length := by
    rw [edges_at]
    exact List.length_map _
  have hcurrent := hctx.current (fun y hy => (hdone y hy).1) x.2.id
    x.1.electrical.currentDrawMa.active
  have hsame : ∀ y ∈ done, y.2.id = x.2.id → y.2 = x.2 := fun y hy heq =>
    Separates.of_nodup hctx.ports y.2 (hdone y hy).2 x.2 hport heq
  -- the peripherals at a port, with and without the new one
  have hat : (done ++ [x]).filter (fun y => y.2.id = x.2.id)
      = done.filter (fun y => y.2.id = x.2.id) ++ [x] := by
    rw [List.filter_append]
    simp
  have helse : ∀ id, id ≠ x.2.id → (done ++ [x]).filter (fun y => y.2.id = id)
      = done.filter (fun y => y.2.id = id) := by
    intro id hid
    rw [List.filter_append, List.filter_cons_of_neg (by simpa using Ne.symm hid)]
    simp
  unfold WireContext.portFree
  dsimp only
  rw [hlen, hcurrent]
  simp only [Bool.and_eq_true, decide_eq_true_eq, Bool.not_eq_true', rat_gt, decide_eq_false_iff_not,
    not_lt, List.any_eq_false, Bool.and_eq_true, bne_iff_ne, ne_eq, List.any_eq_true,
    List.contains_eq_mem, not_and, not_exists]
  constructor
  · rintro ⟨⟨hroom, hpins⟩, hload⟩
    have hpins' : ∀ y ∈ done, y.2.id ≠ x.2.id → ∀ r ∈ y.2.resources, r ∉ x.2.resources := by
      intro y hy hne r hr
      exact hpins (edgeFor y.1 y.2) (List.mem_map.mpr ⟨y, hy, rfl⟩) hne r
        (mem_sortBy.mpr hr)
    refine ⟨?_, ?_, ?_⟩
    · intro y hy
      by_cases hid : y.2.id = x.2.id
      · have hyx : y.2 = x.2 := by
          rcases List.mem_append.mp hy with hy | hy
          · exact hsame y hy hid
          · rw [List.mem_singleton.mp hy]
        rw [hyx, hat, List.length_append]
        exact hroom
      · rw [helse _ hid]
        rcases List.mem_append.mp hy with hy | hy
        · exact hwithin.room y hy
        · exact absurd (by rw [List.mem_singleton.mp hy]) hid
    · intro y hy z hz hne r hr
      rcases List.mem_append.mp hy with hy | hy
      · rcases List.mem_append.mp hz with hz | hz
        · exact hwithin.pins y hy z hz hne r hr
        · rw [List.mem_singleton.mp hz] at hne ⊢
          exact hpins' y hy hne r hr
      · rw [List.mem_singleton.mp hy] at hne hr
        rcases List.mem_append.mp hz with hz | hz
        · exact fun hr' => hpins' z hz (Ne.symm hne) r hr' hr
        · exact absurd (by rw [List.mem_singleton.mp hz]) hne
    · intro y hy
      by_cases hid : y.2.id = x.2.id
      · have hyx : y.2 = x.2 := by
          rcases List.mem_append.mp hy with hy | hy
          · exact hsame y hy hid
          · rw [List.mem_singleton.mp hy]
        rw [hyx, hat, List.map_append, List.sum_append]
        simpa [add_comm] using hload
      · rw [helse _ hid]
        rcases List.mem_append.mp hy with hy | hy
        · exact hwithin.currents y hy
        · exact absurd (by rw [List.mem_singleton.mp hy]) hid
  · intro h
    have hx : x ∈ done ++ [x] := by simp
    refine ⟨⟨?_, ?_⟩, ?_⟩
    · have := h.room x hx
      rw [hat, List.length_append] at this
      exact this
    · intro edge hedge hne r hr
      obtain ⟨y, hy, rfl⟩ := List.mem_map.mp hedge
      exact h.pins y (List.mem_append_left _ hy) x hx hne r (mem_sortBy.mp hr)
    · have := h.currents x hx
      rw [hat, List.map_append, List.sum_append] at this
      simpa [add_comm] using this

/--
**Placing one by one ends exactly at the placements that keep within their ports.**

By induction on what is still to be placed, with everything placed before it kept
within its ports.
-/
theorem WireContext.Regular.placeable_iff (hctx : ctx.Regular) :
    ∀ (todo done : List (PartDefinition ℚ × ProfilePort ℚ)),
      (∀ y ∈ done ++ todo, y.1 ∈ ctx.peripherals) → (∀ y ∈ done, y.2 ∈ ctx.ports) → Within done →
      (Placeable ctx (edges done) todo ↔
        (∀ x ∈ todo, x.2 ∈ ctx.ports ∧ ctx.portFits x.1 x.2 = true) ∧ Within (done ++ todo))
  | [], done, _, _, hwithin => by simpa [Placeable] using hwithin
  | x :: rest, done, hparts, hports, hwithin => by
      have hsplit : done ++ x :: rest = (done ++ [x]) ++ rest := by simp
      have hfree (hport : x.2 ∈ ctx.ports) := hctx.portFree_iff (x := x)
        (fun y hy => ⟨hparts y (List.mem_append_left _ hy), hports y hy⟩) hport hwithin
      have hrest (hport : x.2 ∈ ctx.ports) (hwithin' : Within (done ++ [x])) :=
        hctx.placeable_iff rest (done ++ [x]) (by rwa [← hsplit])
          (by
            intro y hy
            rcases List.mem_append.mp hy with hy | hy
            · exact hports y hy
            · rw [List.mem_singleton.mp hy]; exact hport)
          hwithin'
      have hedges : edges (done ++ [x]) = edges done ++ [edgeFor x.1 x.2] := by
        unfold edges
        rw [List.map_append, List.map_cons, List.map_nil]
      rw [hedges] at hrest
      rw [List.forall_mem_cons, hsplit]
      constructor
      · rintro ⟨hport, hfits, hfr, hplace⟩
        have hw := (hfree hport).mp hfr
        obtain ⟨h1, h2⟩ := (hrest hport hw).mp hplace
        exact ⟨⟨⟨hport, hfits⟩, h1⟩, h2⟩
      · rintro ⟨⟨⟨hport, hfits⟩, h1⟩, h2⟩
        have hw : Within (done ++ [x]) := h2.sublist (List.sublist_append_left _ _)
          (fun y hy => hctx.draws _ (hparts y (by rwa [hsplit])))
        exact ⟨hport, hfits, (hfree hport).mpr hw, (hrest hport hw).mpr ⟨h1, h2⟩⟩

end Albusforge.Matcher
