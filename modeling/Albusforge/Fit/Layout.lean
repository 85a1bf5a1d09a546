import Mathlib.Data.NNRat.Defs
import Albusforge.Lib.Double

/-!
# Layouts of an enclosure

`spikes/fit/fit/model.py`: parts are placed in a cavity that is as large as they need, raised until no opening of
theirs meets the floor, and the layout is validated. Numbers are exact, but for the two places where the source
rounds and for `math.sqrt(2)`, which is the double it is there. The cuts are those of `enclosure.py`, in the cavity's
coordinates.
-/

namespace Albusforge.Fit

open Lib

/-! ## Parts -/

/-- `SIDES` -/
inductive Side
  | negX | posX | negY | posY
  deriving DecidableEq

def Side.text : Side → Text
  | .negX => js "-x"
  | .posX => js "+x"
  | .negY => js "-y"
  | .posY => js "+y"

/-- `ROT90_SIDE` -/
def Side.rot90 : Side → Side
  | .negX => .negY
  | .posY => .negX
  | .posX => .posY
  | .negY => .posX

/-- `in ("-x", "+x")` -/
def Side.alongY : Side → Bool
  | .negX | .posX => true
  | .negY | .posY => false

structure Port where
  name : Text
  side : Side
  u : ℚ
  v : ℚ
  w : ℚ
  h : ℚ
  plug : Option (ℚ × ℚ)
  deriving DecidableEq

def Port.opening (port : Port) (clearance : ℚ) : ℚ × ℚ :=
  let (w, h) := match port.plug with
    | some plug => (max port.w plug.1, max port.h plug.2)
    | none => (port.w, port.h)
  (w / 2 + clearance, h / 2 + clearance)

inductive MountType
  | cradle | pcbStandoff | other (name : Text)
  deriving DecidableEq

structure Mount where
  type : MountType
  /-- `d_mm` -/
  diameter : Option ℚ≥0
  deriving DecidableEq

structure Part where
  id : Text
  width : ℚ
  depth : ℚ
  height : ℚ
  mount : Mount
  ports : List Port
  deriving DecidableEq

structure Profile where
  partClearance : ℚ
  portClearance : ℚ
  cradleClearance : ℚ
  glandClearance : ℚ
  standoffHeight : ℚ
  /-- `["lint"]["min_wall_mm"]` -/
  minWall : ℚ
  deriving DecidableEq

/-! ## Placements -/

/-- `(x0, y0, z0, x1, y1, z1)` -/
structure Box where
  x0 : ℚ
  y0 : ℚ
  z0 : ℚ
  x1 : ℚ
  y1 : ℚ
  z1 : ℚ

inductive Rot
  | zero | ninety
  deriving DecidableEq

structure Placement where
  part : Part
  /-- `at` -/
  corner : ℚ × ℚ
  rot : Rot
  z0 : ℚ
  deriving DecidableEq

def Placement.footprint (p : Placement) : ℚ × ℚ :=
  match p.rot with
  | .zero => (p.part.width, p.part.depth)
  | .ninety => (p.part.depth, p.part.width)

def Placement.box (p : Placement) : Box where
  x0 := p.corner.1
  y0 := p.corner.2
  z0 := p.z0
  x1 := p.corner.1 + p.footprint.1
  y1 := p.corner.2 + p.footprint.2
  z1 := p.z0 + p.part.height

def Placement.ports (p : Placement) : List Port :=
  match p.rot with
  | .zero => p.part.ports
  | .ninety => p.part.ports.map fun port =>
      { port with
        side := port.side.rot90
        u := if port.side.alongY then p.part.depth - port.u else port.u }

structure Gland where
  side : Text
  u : ℚ
  v : ℚ
  part : Part
  deriving DecidableEq

structure Layout where
  profile : Profile
  placements : List Placement
  glands : List Gland
  deriving DecidableEq

/-! ## Loading -/

/-- `round(q, digits)` -/
def roundTo (digits : ℕ) (q : ℚ) : ℚ := halfEven (q * 10 ^ digits) / 10 ^ digits

structure Item where
  part : Part
  corner : ℚ × ℚ
  rot : Option ℚ

def raise (profile : Profile) (flat : Placement) : ℚ :=
  let z0 := if flat.part.mount.type = .pcbStandoff then profile.standoffHeight else 0
  let need := ((flat.ports.map fun port => (port.opening profile.portClearance).2 - port.v).max?).getD 0
  max z0 (⌈roundTo 6 need * 20⌉ / 20)

/-- `item.get("rot", 0)`, where it is 0 or 90. -/
def rotOf (rot : Option ℚ) : Option Rot :=
  if rot.getD 0 = 0 then some .zero else if rot.getD 0 = 90 then some .ninety else none

def loadPlacement (profile : Profile) (item : Item) : Option Placement := do
  let rot ← rotOf item.rot
  let flat : Placement := { part := item.part, corner := item.corner, rot, z0 := 0 }
  return { flat with z0 := raise profile flat }

/-- `load_layout`, of the parts that `load_part` has read. -/
def loadLayout (profile : Profile) (items : List Item) (glands : List Gland) : Option Layout := do
  let placements ← items.mapM (loadPlacement profile)
  return { profile, placements, glands }

/-! ## The cavity -/

structure Cavity where
  w : ℚ
  d : ℚ
  h : ℚ
  deriving DecidableEq

def Layout.tops (l : Layout) : List ℚ :=
  (l.placements.map fun p => p.box.z1 + l.profile.partClearance) ++
    l.placements.flatMap fun p => p.ports.map fun port =>
      let (hw, hh) := port.opening l.profile.portClearance
      p.z0 + port.v + hh + hw

/-- None of nothing: `max` raises an error. -/
def Layout.cavity (l : Layout) : Option Cavity := do
  let xs ← (l.placements.map fun p => p.box.x1).max?
  let ys ← (l.placements.map fun p => p.box.y1).max?
  let top ← l.tops.max?
  return ⟨roundTo 3 (xs + l.profile.partClearance), roundTo 3 (ys + l.profile.partClearance), roundTo 3 top⟩

/-! ## Validation -/

def eps : ℚ := 1 / 1000000

/-- The double that `math.sqrt(2)` is. -/
def sqrt2 : ℚ := 6369051672525773 / 4503599627370496

inductive LayoutError
  /-- `closer than c mm to the -x or -y wall` -/
  | close (part : Text) (clearance : ℚ)
  /-- `part must sit at clearance from the side wall to reach it (off by flush mm)` -/
  | off (part port : Text) (side : Side) (flush : ℚ)
  /-- `a and b: gap mm < need mm` -/
  | gap (a b : Text) (gap need : ℚ)
  /-- `gland for part does not fit on the side wall` -/
  | gland (part side : Text)
  /-- `gland for part on side: other blocks the cable path` -/
  | blocked (part side other : Text)
  deriving DecidableEq

def keepout (p : Placement) (profile : Profile) : ℚ :=
  if p.part.mount.type = .cradle then profile.cradleClearance + profile.minWall else profile.partClearance

def gap (a b : Box) : ℚ := max (max (max (b.x0 - a.x1) (a.x0 - b.x1)) (b.y0 - a.y1)) (a.y0 - b.y1)

def overlaps (a b : Box) : Bool :=
  (a.x0 < b.x1 && b.x0 < a.x1) && (a.y0 < b.y1 && b.y0 < a.y1) && (a.z0 < b.z1 && b.z0 < a.z1)

/-- `GLAND_CORRIDOR_MM` -/
def corridorLength : ℚ := 8

def glandCorridor (g : Gland) (r : ℚ) (cavity : Cavity) : Box :=
  let k := corridorLength
  let z0 := g.v - r
  let z1 := g.v + r
  if g.side = Side.negX.text then ⟨0, g.u - r, z0, k, g.u + r, z1⟩
  else if g.side = Side.posX.text then ⟨cavity.w - k, g.u - r, z0, cavity.w, g.u + r, z1⟩
  else if g.side = Side.negY.text then ⟨g.u - r, 0, z0, g.u + r, k, z1⟩
  else ⟨g.u - r, cavity.d - k, z0, g.u + r, cavity.d, z1⟩

/-- None where the part has no `d_mm`. -/
def Gland.radius (g : Gland) (profile : Profile) : Option ℚ :=
  g.part.mount.diameter.map fun d : ℚ≥0 => (d : ℚ) / 2 + profile.glandClearance

def flush (p : Placement) (side : Side) (c : ℚ) (cavity : Cavity) : ℚ :=
  match side with
  | .negX => p.box.x0 - c
  | .posX => cavity.w - c - p.box.x1
  | .negY => p.box.y0 - c
  | .posY => cavity.d - c - p.box.y1

def portErrors (p : Placement) (c : ℚ) (cavity : Cavity) : List LayoutError :=
  p.ports.flatMap fun port =>
    let off := flush p port.side c cavity
    if eps < |off| then [.off p.part.id port.name port.side off] else []

def placementErrors (c : ℚ) (cavity : Cavity) (p : Placement) : List LayoutError :=
  (if p.box.x0 < c - eps ∨ p.box.y0 < c - eps then [.close p.part.id c] else []) ++ portErrors p c cavity

def pairErrors (profile : Profile) (a b : Placement) : List LayoutError :=
  let gap := gap a.box b.box
  let need := keepout a profile + keepout b profile
  if gap < need - eps then [.gap a.part.id b.part.id gap need] else []

def crowding (profile : Profile) : List Placement → List LayoutError
  | [] => []
  | a :: rest => rest.flatMap (pairErrors profile a) ++ crowding profile rest

def Gland.span (g : Gland) (cavity : Cavity) : ℚ :=
  if g.side = Side.negY.text ∨ g.side = Side.posY.text then cavity.w else cavity.d

/-- `r <= g.u <= span - r and r <= g.v and g.v + r * math.sqrt(2) <= ch` -/
def Gland.fits (g : Gland) (r : ℚ) (cavity : Cavity) : Bool :=
  (r ≤ g.u && g.u ≤ g.span cavity - r) && r ≤ g.v && g.v + r * sqrt2 ≤ cavity.h

def glandErrors (l : Layout) (cavity : Cavity) (g : Gland) : Option (List LayoutError) := do
  let r ← g.radius l.profile
  let misfit := if g.fits r cavity then [] else [.gland g.part.id g.side]
  let corridor := glandCorridor g r cavity
  return misfit ++ l.placements.flatMap fun p =>
    if overlaps corridor p.box then [.blocked g.part.id g.side p.part.id] else []

def Layout.validate (l : Layout) : Option (List LayoutError) := do
  let c := l.profile.partClearance
  let cavity ← l.cavity
  let glands ← l.glands.mapM (glandErrors l cavity)
  return l.placements.flatMap (placementErrors c cavity) ++ crowding l.profile l.placements ++ glands.flatten

/-! ## Cuts -/

inductive Cut
  /-- `roofed_rect` -/
  | roofed (a b hw hh : ℚ)
  | teardrop (a b r : ℚ)
  deriving DecidableEq

def Cut.Covers : Cut → ℚ → ℚ → Prop
  | .roofed a b hw hh, s, z => |s - a| ≤ hw ∧ b - hh ≤ z ∧ z + |s - a| ≤ b + hh + hw
  -- a circle, and the point above it
  | .teardrop a b r, s, z =>
    (s - a) ^ 2 + (z - b) ^ 2 ≤ r ^ 2 ∨ (r * sqrt2 / 2 ≤ z - b ∧ |s - a| + (z - b) ≤ r * sqrt2)

def Cut.Inside : Cut → ℚ → ℚ → Prop
  | .roofed a b hw hh, s, z => |s - a| < hw ∧ b - hh < z ∧ z + |s - a| < b + hh + hw
  | .teardrop a b r, s, z =>
    (s - a) ^ 2 + (z - b) ^ 2 < r ^ 2 ∨ (r * sqrt2 / 2 < z - b ∧ |s - a| + (z - b) < r * sqrt2)

def portCut (profile : Profile) (p : Placement) (port : Port) : Cut :=
  let along := if port.side.alongY then p.corner.2 else p.corner.1
  let (hw, hh) := port.opening profile.portClearance
  .roofed (along + port.u) (p.z0 + port.v) hw hh

def glandCut (g : Gland) (r : ℚ) : Cut := .teardrop g.u g.v r

end Albusforge.Fit
