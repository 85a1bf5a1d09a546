import Albusforge.Fit.Layout

/-!
# What a layout without errors is

The cavity is sized from the parts and their openings, so that **what is not validated follows from its size**:
nothing reaches the far walls or the lid. What is validated is read off the list of errors (`validate_nil`).

Nothing is said of where along its wall a port's cut lies, nor of two cuts that meet: the two openings of one board
may be one (`fridge_cuts_meet`).
-/

namespace Albusforge.Fit

open Lib

/-! ## What is to be shown -/

def tolerance : ℚ := 1 / 2000

structure Profile.Positive (profile : Profile) : Prop where
  partClearance : 0 < profile.partClearance
  portClearance : 0 < profile.portClearance
  cradleClearance : 0 < profile.cradleClearance
  glandClearance : 0 < profile.glandClearance
  standoffHeight : 0 < profile.standoffHeight
  minWall : 0 < profile.minWall

structure Inset (c : ℚ) (cavity : Cavity) (b : Box) : Prop where
  x0 : c - eps ≤ b.x0
  y0 : c - eps ≤ b.y0
  z0 : 0 ≤ b.z0
  x1 : b.x1 ≤ cavity.w - c + tolerance
  y1 : b.y1 ≤ cavity.d - c + tolerance
  z1 : b.z1 ≤ cavity.h - c + tolerance

def Apart (need : ℚ) (a b : Box) : Prop :=
  a.x1 + need ≤ b.x0 ∨ b.x1 + need ≤ a.x0 ∨ a.y1 + need ≤ b.y0 ∨ b.y1 + need ≤ a.y0

def Cavity.span (cavity : Cavity) (side : Side) : ℚ := if side.alongY then cavity.d else cavity.w

structure Enclosed (l : Layout) (cavity : Cavity) : Prop where
  parts : ∀ p ∈ l.placements, Inset l.profile.partClearance cavity p.box
  apart : l.placements.Pairwise fun a b => Apart (keepout a l.profile + keepout b l.profile - eps) a.box b.box
  reach : ∀ p ∈ l.placements, ∀ port ∈ p.ports, |flush p port.side l.profile.partClearance cavity| ≤ eps
  ports : ∀ p ∈ l.placements, ∀ port ∈ p.ports, ∀ s z, (portCut l.profile p port).Covers s z →
    -tolerance ≤ z ∧ z ≤ cavity.h + tolerance
  glands : ∀ g ∈ l.glands, ∀ side : Side, g.side = side.text → ∃ r, g.radius l.profile = some r ∧
    (∀ s z, (glandCut g r).Covers s z → (0 ≤ s ∧ s ≤ cavity.span side) ∧ 0 ≤ z ∧ z ≤ cavity.h) ∧
      ∀ p ∈ l.placements, overlaps (glandCorridor g r cavity) p.box = false

def PortsWithin (l : Layout) (cavity : Cavity) : Prop :=
  ∀ p ∈ l.placements, ∀ port ∈ p.ports, ∀ s z, (portCut l.profile p port).Covers s z →
    -tolerance ≤ s ∧ s ≤ cavity.span port.side + tolerance

def Layout.cuts (l : Layout) (side : Side) : List Cut :=
  (l.placements.flatMap fun p => (p.ports.filter fun port => port.side = side).map (portCut l.profile p)) ++
    l.glands.filterMap fun g => if g.side = side.text then (g.radius l.profile).map (glandCut g) else none

def CutsApart (l : Layout) : Prop :=
  ∀ side, (l.cuts side).Pairwise fun c c' => ∀ s z, ¬ (c.Inside s z ∧ c'.Inside s z)

/-! ## Rounding -/

theorem halfEven_near (q : ℚ) : |(halfEven q : ℚ) - q| ≤ 1 / 2 := by
  have hfloor := Int.floor_le q
  have hlt := Int.lt_floor_add_one q
  unfold halfEven
  dsimp only
  rw [abs_le]
  split_ifs <;> push_cast <;> constructor <;> linarith

theorem roundTo_near (digits : ℕ) (q : ℚ) : |roundTo digits q - q| ≤ 1 / 2 / 10 ^ digits := by
  have hten : (0 : ℚ) < 10 ^ digits := by positivity
  have heq : roundTo digits q - q = (halfEven (q * 10 ^ digits) - q * 10 ^ digits) / 10 ^ digits := by
    rw [roundTo, sub_div, mul_div_cancel_right₀ _ hten.ne']
  rw [heq, abs_div, abs_of_pos hten]
  exact div_le_div_of_nonneg_right (halfEven_near _) hten.le

theorem le_roundTo {q x : ℚ} (h : x ≤ q) : x ≤ roundTo 3 q + tolerance := by
  have hnear := abs_le.mp (roundTo_near 3 q)
  have htolerance : (1 : ℚ) / 2 / 10 ^ 3 = tolerance := by norm_num [tolerance]
  rw [htolerance] at hnear
  linarith [hnear.1]

/-! ## Loading -/

theorem mapM_eq_map {α β : Type} {f : α → Option β} : ∀ {as : List α} {bs : List β}, as.mapM f = some bs →
    as.map f = bs.map some
  | [], bs, h => by
    obtain rfl : [] = bs := by simpa using h
    rfl
  | a :: as, bs, h => by
    simp only [List.mapM_cons, Option.bind_eq_bind, Option.bind_eq_some_iff] at h
    obtain ⟨b, hb, bs', hbs, heq⟩ := h
    obtain rfl : b :: bs' = bs := by simpa using heq
    rw [List.map_cons, List.map_cons, hb, mapM_eq_map hbs]

theorem mapM_mem {α β : Type} {f : α → Option β} {as : List α} {bs : List β} (h : as.mapM f = some bs) {b : β}
    (hb : b ∈ bs) : ∃ a ∈ as, f a = some b := by
  have hmem : some b ∈ as.map f := mapM_eq_map h ▸ List.mem_map_of_mem hb
  exact List.mem_map.mp hmem

theorem mapM_made {α β : Type} {f : α → Option β} {as : List α} {bs : List β} (h : as.mapM f = some bs) {a : α}
    (ha : a ∈ as) : ∃ b ∈ bs, f a = some b := by
  have hmem : f a ∈ bs.map some := mapM_eq_map h ▸ List.mem_map_of_mem ha
  obtain ⟨b, hb, heq⟩ := List.mem_map.mp hmem
  exact ⟨b, hb, heq.symm⟩

section

variable {profile : Profile} {item : Item} {items : List Item} {glands : List Gland} {p : Placement} {l : Layout}
  {cavity : Cavity}

theorem raise_nonneg (hprofile : profile.Positive) (flat : Placement) : 0 ≤ raise profile flat := by
  refine le_trans ?_ (le_max_left _ _)
  split
  · exact hprofile.standoffHeight.le
  · exact le_rfl

theorem le_raise (flat : Placement) {port : Port} (hport : port ∈ flat.ports) :
    (port.opening profile.portClearance).2 - port.v ≤ raise profile flat + tolerance := by
  set needs := flat.ports.map fun port => (port.opening profile.portClearance).2 - port.v with hneeds
  have hmem : (port.opening profile.portClearance).2 - port.v ∈ needs := List.mem_map_of_mem hport
  obtain ⟨need, hneed⟩ : ∃ need, needs.max? = some need := by
    cases hmax : needs.max? with
    | none =>
      rw [List.max?_eq_none_iff] at hmax
      rw [hmax] at hmem
      cases hmem
    | some need => exact ⟨need, rfl⟩
  have hle := (List.max?_eq_some_iff.mp hneed).2 _ hmem
  have hraise : (⌈roundTo 6 need * 20⌉ : ℚ) / 20 ≤ raise profile flat := by
    unfold raise
    dsimp only
    rw [← hneeds, hneed]
    exact le_max_right _ _
  have hceil := Int.le_ceil (roundTo 6 need * 20)
  have hnear := abs_le.mp (roundTo_near 6 need)
  have hsmall : (1 : ℚ) / 2 / 10 ^ 6 ≤ tolerance := by norm_num [tolerance]
  linarith [hnear.1]

theorem loadPlacement_z0 (h : loadPlacement profile item = some p) : p.z0 = raise profile { p with z0 := 0 } := by
  unfold loadPlacement at h
  simp only [Option.bind_eq_bind, Option.bind_eq_some_iff] at h
  obtain ⟨rot, -, hp⟩ := h
  obtain rfl := Option.some.inj hp
  rfl

theorem loadLayout_z0 (h : loadLayout profile items glands = some l) :
    l.profile = profile ∧ ∀ p ∈ l.placements, p.z0 = raise profile { p with z0 := 0 } := by
  unfold loadLayout at h
  simp only [Option.bind_eq_bind, Option.bind_eq_some_iff] at h
  obtain ⟨placements, hplacements, hl⟩ := h
  obtain rfl := Option.some.inj hl
  refine ⟨rfl, ?_⟩
  intro p hp
  obtain ⟨item, -, hitem⟩ := mapM_mem hplacements hp
  exact loadPlacement_z0 hitem

/-! ## The cavity -/

theorem cavity_reaches (h : l.cavity = some cavity) :
    (∀ p ∈ l.placements, p.box.x1 + l.profile.partClearance ≤ cavity.w + tolerance ∧
      p.box.y1 + l.profile.partClearance ≤ cavity.d + tolerance) ∧ ∀ top ∈ l.tops, top ≤ cavity.h + tolerance := by
  unfold Layout.cavity at h
  simp only [Option.bind_eq_bind, Option.bind_eq_some_iff] at h
  obtain ⟨xs, hxs, ys, hys, top, htop, hcavity⟩ := h
  obtain rfl := Option.some.inj hcavity
  refine ⟨fun p hp => ⟨le_roundTo ?_, le_roundTo ?_⟩, fun t ht => le_roundTo ?_⟩
  · have hle := (List.max?_eq_some_iff.mp hxs).2 p.box.x1 (List.mem_map_of_mem hp)
    linarith
  · have hle := (List.max?_eq_some_iff.mp hys).2 p.box.y1 (List.mem_map_of_mem hp)
    linarith
  · exact (List.max?_eq_some_iff.mp htop).2 t ht

/-! ## No errors -/

theorem crowding_nil {profile : Profile} : ∀ {placements : List Placement}, crowding profile placements = [] →
    placements.Pairwise fun a b => pairErrors profile a b = []
  | [], _ => List.Pairwise.nil
  | a :: rest, h => by
    obtain ⟨hfirst, hrest⟩ := List.append_eq_nil_iff.mp h
    exact List.Pairwise.cons (List.flatMap_eq_nil_iff.mp hfirst) (crowding_nil hrest)

/-- **A list without errors**, read part by part. -/
theorem validate_nil (h : l.validate = some []) : ∃ cavity, l.cavity = some cavity ∧
    (∀ p ∈ l.placements, placementErrors l.profile.partClearance cavity p = []) ∧
    (l.placements.Pairwise fun a b => pairErrors l.profile a b = []) ∧
    ∀ g ∈ l.glands, ∃ r, g.radius l.profile = some r ∧ g.fits r cavity = true ∧
      ∀ p ∈ l.placements, overlaps (glandCorridor g r cavity) p.box = false := by
  unfold Layout.validate at h
  simp only [Option.bind_eq_bind, Option.bind_eq_some_iff] at h
  obtain ⟨cavity, hcavity, errors, herrors, hnil⟩ := h
  obtain ⟨hfront, hglands⟩ := List.append_eq_nil_iff.mp (Option.some.inj hnil)
  obtain ⟨hplacements, hcrowding⟩ := List.append_eq_nil_iff.mp hfront
  refine ⟨cavity, hcavity, List.flatMap_eq_nil_iff.mp hplacements, crowding_nil hcrowding, ?_⟩
  intro g hg
  obtain ⟨mine, hmine, hmade⟩ := mapM_made herrors hg
  have hempty : mine = [] := List.flatten_eq_nil_iff.mp hglands mine hmine
  unfold glandErrors at hmade
  simp only [Option.bind_eq_bind, Option.bind_eq_some_iff] at hmade
  obtain ⟨r, hr, hlist⟩ := hmade
  rw [hempty] at hlist
  obtain ⟨hmisfit, hblocked⟩ := List.append_eq_nil_iff.mp (Option.some.inj hlist)
  refine ⟨r, hr, ?_, ?_⟩
  · by_contra hnot
    rw [if_neg hnot] at hmisfit
    cases hmisfit
  · intro p hp
    have hclear := List.flatMap_eq_nil_iff.mp hblocked p hp
    by_contra hnot
    rw [if_pos (Bool.not_eq_false _ ▸ hnot)] at hclear
    cases hclear

theorem placementErrors_nil {c : ℚ} (h : placementErrors c cavity p = []) :
    c - eps ≤ p.box.x0 ∧ c - eps ≤ p.box.y0 ∧ ∀ port ∈ p.ports, |flush p port.side c cavity| ≤ eps := by
  obtain ⟨hclose, hports⟩ := List.append_eq_nil_iff.mp h
  have hnear : ¬ (p.box.x0 < c - eps ∨ p.box.y0 < c - eps) := by
    intro hnear
    rw [if_pos hnear] at hclose
    cases hclose
  obtain ⟨hx, hy⟩ := not_or.mp hnear
  refine ⟨not_lt.mp hx, not_lt.mp hy, ?_⟩
  intro port hport
  have hport := List.flatMap_eq_nil_iff.mp hports port hport
  dsimp only at hport
  by_contra hoff
  rw [if_pos (not_le.mp hoff)] at hport
  cases hport

theorem pairErrors_nil {a b : Placement} (h : pairErrors profile a b = []) :
    Apart (keepout a profile + keepout b profile - eps) a.box b.box := by
  have hgap : keepout a profile + keepout b profile - eps ≤ gap a.box b.box := by
    unfold pairErrors at h
    dsimp only at h
    by_contra hless
    rw [if_pos (not_le.mp hless)] at h
    cases h
  rw [gap, le_max_iff, le_max_iff, le_max_iff] at hgap
  rcases hgap with ((hgap | hgap) | hgap) | hgap
  · exact Or.inl (by linarith)
  · exact Or.inr (Or.inl (by linarith))
  · exact Or.inr (Or.inr (Or.inl (by linarith)))
  · exact Or.inr (Or.inr (Or.inr (by linarith)))

/-! ## Cuts -/

theorem teardrop_within {a b r s z : ℚ} (hr : 0 ≤ r) (h : (Cut.teardrop a b r).Covers s z) :
    |s - a| ≤ r ∧ b - r ≤ z ∧ z ≤ b + r * sqrt2 := by
  have hlow : r ≤ r * sqrt2 := le_mul_of_one_le_right hr (by norm_num [sqrt2])
  have hhigh : r * sqrt2 ≤ r * 2 := mul_le_mul_of_nonneg_left (by norm_num [sqrt2]) hr
  rcases h with hcircle | ⟨habove, htip⟩
  · have hs : |s - a| ≤ r := abs_le_of_sq_le_sq (by nlinarith [sq_nonneg (z - b)]) hr
    have hz : |z - b| ≤ r := abs_le_of_sq_le_sq (by nlinarith [sq_nonneg (s - a)]) hr
    obtain ⟨hz₁, hz₂⟩ := abs_le.mp hz
    exact ⟨hs, by linarith, by linarith⟩
  · have hpos := abs_nonneg (s - a)
    exact ⟨by linarith, by linarith, by linarith⟩

theorem portCut_height {port : Port} {s z : ℚ} (h : (portCut profile p port).Covers s z) :
    p.z0 + port.v - (port.opening profile.portClearance).2 ≤ z ∧
      z ≤ p.z0 + port.v + (port.opening profile.portClearance).2 + (port.opening profile.portClearance).1 := by
  have hcovers : |s - ((if port.side.alongY then p.corner.2 else p.corner.1) + port.u)| ≤
      (port.opening profile.portClearance).1 ∧ p.z0 + port.v - (port.opening profile.portClearance).2 ≤ z ∧
      z + |s - ((if port.side.alongY then p.corner.2 else p.corner.1) + port.u)| ≤
        p.z0 + port.v + (port.opening profile.portClearance).2 + (port.opening profile.portClearance).1 := h
  obtain ⟨-, hbottom, hroof⟩ := hcovers
  have hpos := abs_nonneg (s - ((if port.side.alongY then p.corner.2 else p.corner.1) + port.u))
  exact ⟨hbottom, by linarith⟩

theorem span_of_side {g : Gland} {side : Side} (hside : g.side = side.text) : g.span cavity = cavity.span side := by
  unfold Gland.span Cavity.span
  rw [hside]
  cases side <;> rfl

theorem gland_within {g : Gland} {side : Side} {r s z : ℚ} (hside : g.side = side.text) (hr : 0 ≤ r)
    (hfits : g.fits r cavity = true) (h : (glandCut g r).Covers s z) :
    (0 ≤ s ∧ s ≤ cavity.span side) ∧ 0 ≤ z ∧ z ≤ cavity.h := by
  obtain ⟨hs, hz₁, hz₂⟩ := teardrop_within hr h
  obtain ⟨hs₁, hs₂⟩ := abs_le.mp hs
  simp only [Gland.fits, span_of_side hside, Bool.and_eq_true, decide_eq_true_eq] at hfits
  obtain ⟨⟨⟨hleft, hright⟩, hbottom⟩, htop⟩ := hfits
  exact ⟨⟨by linarith, by linarith⟩, by linarith, by linarith⟩

end

/-! ## The layout -/

/-- **A layout without errors** holds its parts apart in its cavity, and its cuts between floor and lid. -/
theorem layout_enclosed {profile : Profile} {items : List Item} {glands : List Gland} {l : Layout}
    (hprofile : profile.Positive) (hload : loadLayout profile items glands = some l) (hvalid : l.validate = some []) :
    ∃ cavity, l.cavity = some cavity ∧ Enclosed l cavity := by
  obtain ⟨rfl, hz0⟩ := loadLayout_z0 hload
  obtain ⟨cavity, hcavity, hplacements, hpairs, hglands⟩ := validate_nil hvalid
  obtain ⟨hwalls, htops⟩ := cavity_reaches hcavity
  refine ⟨cavity, hcavity, ?_, ?_, ?_, ?_, ?_⟩
  · intro p hp
    obtain ⟨hx, hy, -⟩ := placementErrors_nil (hplacements p hp)
    obtain ⟨hxs, hys⟩ := hwalls p hp
    have htop := htops _ (List.mem_append_left _ (List.mem_map_of_mem hp))
    have hbottom : 0 ≤ p.z0 := hz0 p hp ▸ raise_nonneg hprofile _
    exact ⟨hx, hy, hbottom, by linarith, by linarith, by linarith⟩
  · exact hpairs.imp fun hpair => pairErrors_nil hpair
  · intro p hp port hport
    exact (placementErrors_nil (hplacements p hp)).2.2 port hport
  · intro p hp port hport s z hcovers
    have htop := htops (p.z0 + port.v + (port.opening l.profile.portClearance).2 + (port.opening l.profile.portClearance).1)
      (List.mem_append_right _ (List.mem_flatMap.mpr ⟨p, hp, List.mem_map.mpr ⟨port, hport, rfl⟩⟩))
    -- the part was raised as it would be from the floor
    have hraise : (port.opening l.profile.portClearance).2 - port.v ≤ p.z0 + tolerance := by
      rw [hz0 p hp]
      exact le_raise { p with z0 := 0 } hport
    obtain ⟨hbottom, hroof⟩ := portCut_height hcovers
    exact ⟨by linarith, by linarith⟩
  · intro g hg side hside
    obtain ⟨r, hr, hfits, hclear⟩ := hglands g hg
    refine ⟨r, hr, ?_, hclear⟩
    intro s z hcovers
    have hnonneg : 0 ≤ r := by
      obtain ⟨d, -, rfl⟩ := Option.map_eq_some_iff.mp hr
      have hd : (0 : ℚ) ≤ d := d.coe_nonneg
      linarith [hprofile.glandClearance]
    exact gland_within hside hnonneg hfits hcovers

/-! ## Two openings of one board -/

/-- `tolerances/generic-fdm-0.4.json` -/
def genericFdm : Profile where
  partClearance := 2 / 5
  portClearance := 1 / 2
  cradleClearance := 3 / 10
  glandClearance := 3 / 10
  standoffHeight := 3
  minWall := 8 / 5

theorem genericFdm_positive : genericFdm.Positive := by
  constructor <;> norm_num [genericFdm]

def usbC (name : Text) (u : ℚ) : Port :=
  { name, side := .negX, u, v := 47 / 4, w := 9, h := 33 / 10, plug := some (247 / 20, 13 / 2) }

def esp32 : Part where
  id := js "C-001"
  width := 63
  depth := 51 / 2
  height := 27 / 2
  mount := ⟨.cradle, none⟩
  ports := [usbC (js "usb-c-uart") 7, usbC (js "usb-c-otg") (37 / 2)]

def batteryHolder : Part where
  id := js "E-001"
  width := 77
  depth := 21
  height := 19
  mount := ⟨.pcbStandoff, none⟩
  ports := []

def probe : Part where
  id := js "P-002"
  width := 6
  depth := 6
  height := 50
  mount := ⟨.other (js "cable-gland"), some (31 / 5)⟩
  ports := []

/-- `layouts/fridge-v09.json` -/
def fridge : List Item × List Gland :=
  ([⟨batteryHolder, (2 / 5, 2 / 5), none⟩, ⟨esp32, (2 / 5, 237 / 10), none⟩], [⟨js "+y", 70, 14, probe⟩])

def cornered : List Item × List Gland :=
  ([⟨{ esp32 with ports := [usbC (js "usb-c") 1] }, (2 / 5, 2 / 5), none⟩], [])

def fridgeLayout : Layout where
  profile := genericFdm
  placements := [⟨batteryHolder, (2 / 5, 2 / 5), .zero, 3⟩, ⟨esp32, (2 / 5, 237 / 10), .zero, 0⟩]
  glands := fridge.2

def corneredLayout : Layout where
  profile := genericFdm
  placements := [⟨{ esp32 with ports := [usbC (js "usb-c") 1] }, (2 / 5, 2 / 5), .zero, 0⟩]
  glands := []

theorem fridge_loaded : loadLayout genericFdm fridge.1 fridge.2 = some fridgeLayout ∧ fridgeLayout.validate = some [] := by
  decide +kernel

/-- **Two openings may be one**, and the wall may end before an opening does. -/
theorem fridge_cuts_meet :
    (loadLayout genericFdm fridge.1 fridge.2 = some fridgeLayout ∧ fridgeLayout.validate = some [] ∧
      ¬ CutsApart fridgeLayout) ∧
    ∃ cavity, loadLayout genericFdm cornered.1 cornered.2 = some corneredLayout ∧ corneredLayout.validate = some [] ∧
      corneredLayout.cavity = some cavity ∧ ¬ PortsWithin corneredLayout cavity := by
  have hcuts : fridgeLayout.cuts .negX =
      [.roofed (307 / 10) (47 / 4) (267 / 40) (15 / 4), .roofed (211 / 5) (47 / 4) (267 / 40) (15 / 4)] := by
    decide +kernel
  have hcavity : corneredLayout.cavity = some ⟨319 / 5, 263 / 10, 887 / 40⟩ := by decide +kernel
  refine ⟨⟨fridge_loaded.1, fridge_loaded.2, ?_⟩, _, by decide +kernel, by decide +kernel, hcavity, ?_⟩
  · intro hapart
    have hpair := hapart .negX
    rw [hcuts, List.pairwise_pair] at hpair
    refine hpair (729 / 20) (47 / 4) ?_
    simp only [Cut.Inside]
    norm_num [abs_lt]
  · intro hwithin
    have hport : usbC (js "usb-c") 1 ∈ Placement.ports ⟨{ esp32 with ports := [usbC (js "usb-c") 1] }, (2 / 5, 2 / 5), .zero, 0⟩ :=
      List.mem_cons_self
    have hleft := (hwithin _ List.mem_cons_self _ hport (-5) (47 / 4) ?_).1
    · norm_num [tolerance] at hleft
    · have hcut : portCut corneredLayout.profile
          ⟨{ esp32 with ports := [usbC (js "usb-c") 1] }, (2 / 5, 2 / 5), .zero, 0⟩ (usbC (js "usb-c") 1) =
          .roofed (7 / 5) (47 / 4) (267 / 40) (15 / 4) := by
        decide +kernel
      rw [hcut]
      simp only [Cut.Covers]
      norm_num [abs_le]

theorem layout_enclosed_fridge : ∃ cavity, fridgeLayout.cavity = some cavity ∧ Enclosed fridgeLayout cavity :=
  layout_enclosed genericFdm_positive fridge_loaded.1 fridge_loaded.2

end Albusforge.Fit
