import StatusBar.Proofs.Geometry.Words

/-!
# Gaps around a bar

How far a bar lies from the edges of its monitor.  A bar that fits on its monitor together with
its margins lies inside: it keeps its margin from the edge that it stands at, and along its
length it either keeps both margins, where bar and margins fill the monitor, or is centred.
-/

namespace StatusBar

/-- The first and the last edge of a direction. -/
def Orientation.ends : Orientation → Position × Position
  | .horizontal => (.left, .right)
  | .vertical => (.top, .bottom)

/-- The margin on the side of an edge. -/
def Margins.side (margins : Margins) : Position → Int32
  | .left => margins.left
  | .right => margins.right
  | .top => margins.top
  | .bottom => margins.bottom

/-- The extent of a bar in a direction. -/
def Size.extent (size : Size) : Orientation → Int
  | .horizontal => size.width.toNat
  | .vertical => size.height.toNat

namespace Rect

/-- Where a monitor starts in a direction. -/
def start (monitor : Rect) : Orientation → Int
  | .horizontal => monitor.x.toInt
  | .vertical => monitor.y.toInt

/-- The extent of a monitor in a direction. -/
def extent (monitor : Rect) : Orientation → Int
  | .horizontal => monitor.width.toInt
  | .vertical => monitor.height.toInt

/-- How far a bar of some size lies from an edge of the monitor, by its top left corner. -/
def gap (monitor : Rect) (size : Size) (corner : Point) : Position → Int
  | .left => corner.x.toInt - monitor.x.toInt
  | .right => monitor.x.toInt + monitor.width.toInt - (corner.x.toInt + size.width.toNat)
  | .top => corner.y.toInt - monitor.y.toInt
  | .bottom => monitor.y.toInt + monitor.height.toInt - (corner.y.toInt + size.height.toNat)

end Rect

/-- The extent that a bar takes in a direction together with its margins. -/
def Size.outerExtent (size : Size) (margins : Margins) (direction : Orientation) : Int :=
  size.extent direction + (margins.side direction.ends.1).toInt
    + (margins.side direction.ends.2).toInt

/-- A bar fits on its monitor together with its margins, of which none is negative, and the
monitor ends within 32 bits. -/
structure Fits (margins : Margins) (monitor : Rect) (size : Size) : Prop where
  side : ∀ edge, 0 ≤ (margins.side edge).toInt
  extent : ∀ direction, size.outerExtent margins direction ≤ monitor.extent direction
  range : ∀ direction, monitor.start direction + monitor.extent direction ≤ Int32.maxValue.toInt

/-- A bar lies inside its monitor, as far from its edge as its margin says.  Along its length it
keeps both margins if they fill the monitor together with it, and is centred otherwise. -/
structure Placed (position : Position) (margins : Margins) (monitor : Rect) (size : Size)
    (corner : Point) : Prop where
  inside : ∀ edge, 0 ≤ monitor.gap size corner edge
  anchored : monitor.gap size corner position = (margins.side position).toInt
  filling : size.outerExtent margins position.orientation = monitor.extent position.orientation →
    monitor.gap size corner position.orientation.ends.1
        = (margins.side position.orientation.ends.1).toInt
      ∧ monitor.gap size corner position.orientation.ends.2
        = (margins.side position.orientation.ends.2).toInt
  centred : size.outerExtent margins position.orientation ≠ monitor.extent position.orientation →
    (monitor.gap size corner position.orientation.ends.1
      - monitor.gap size corner position.orientation.ends.2).natAbs ≤ 1

/-! ### Clamping -/

/-- A clamped integer is the nearest one of 32 bits. -/
theorem toInt_clamp (value : Int) :
  (clamp value).toInt = max Int32.minValue.toInt (min value Int32.maxValue.toInt)
  := by
  rw [clamp, Int32.toInt_minValue, Int32.toInt_maxValue]
  apply Int32.toInt_ofInt_of_le <;> omega

/-- An integer of 32 bits is left alone. -/
theorem toInt_clamp_of_le {value : Int} (hlow : Int32.minValue.toInt ≤ value)
    (hhigh : value ≤ Int32.maxValue.toInt) :
  (clamp value).toInt = value
  := by
  rw [toInt_clamp, Int.min_eq_left hhigh, Int.max_eq_right hlow]

/-! ### Exact corners -/

/-- Where a bar starts along its length that fits there: after its first margin if the margins
fill the rest, and in the middle otherwise. -/
theorem startAlong_of_fits {extent length first last : Int} (hfirst : 0 ≤ first)
    (hlast : 0 ≤ last) (hfits : length + first + last ≤ extent) :
  let start := startAlong extent length first last
  (length + first + last = extent → start = first)
    ∧ (length + first + last ≠ extent →
      2 * start ≤ extent - length ∧ extent - length ≤ 2 * start + 1)
  := by
  intro start
  constructor
  · intro hfills
    exact if_pos (Int.le_of_eq hfills.symm)
  · intro hfree
    have hstart : start = (extent - length).tdiv 2 := if_neg (by omega)
    rw [Int.tdiv_eq_ediv_of_nonneg (by omega)] at hstart
    omega

/-- Whether or not margins fill the rest, a bar that fits lies between its ends. -/
theorem startAlong_between {extent length first last : Int} (hfirst : 0 ≤ first)
    (hlast : 0 ≤ last) (hfits : length + first + last ≤ extent) :
  0 ≤ startAlong extent length first last
    ∧ startAlong extent length first last + length ≤ extent
  := by
  obtain ⟨hfills, hfree⟩ := startAlong_of_fits hfirst hlast hfits
  by_cases h : length + first + last = extent
  · have hstart := hfills h
    omega
  · have hstart := hfree h
    omega

namespace Fits

variable {margins : Margins} {monitor : Rect} {size : Size} (h : Fits margins monitor size)

include h

/-- The exact corner of a bar that fits lies on the monitor, with room for the bar. -/
theorem exactOffset_between (position : Position) :
  let corner := exactOffset position margins monitor size
  (monitor.x.toInt ≤ corner.1
      ∧ corner.1 + size.width.toNat ≤ monitor.x.toInt + monitor.width.toInt)
    ∧ monitor.y.toInt ≤ corner.2
      ∧ corner.2 + size.height.toNat ≤ monitor.y.toInt + monitor.height.toInt
  := by
  have hleft : 0 ≤ margins.left.toInt := h.side .left
  have hright : 0 ≤ margins.right.toInt := h.side .right
  have htop : 0 ≤ margins.top.toInt := h.side .top
  have hbottom : 0 ≤ margins.bottom.toInt := h.side .bottom
  have hwidth : size.width.toNat + margins.left.toInt + margins.right.toInt
      ≤ monitor.width.toInt := h.extent .horizontal
  have hheight : size.height.toNat + margins.top.toInt + margins.bottom.toInt
      ≤ monitor.height.toInt := h.extent .vertical
  have halongX := startAlong_between hleft hright hwidth
  have halongY := startAlong_between htop hbottom hheight
  cases position with
  | top | bottom | left | right =>
    simp only [exactOffset]
    omega

/-- Nothing is clamped where the bar fits. -/
theorem toInt_offset (position : Position) :
  (offset position margins monitor size).x.toInt
      = (exactOffset position margins monitor size).1
    ∧ (offset position margins monitor size).y.toInt
      = (exactOffset position margins monitor size).2
  := by
  obtain ⟨⟨hx, hx'⟩, hy, hy'⟩ := h.exactOffset_between position
  have hrangeX : monitor.x.toInt + monitor.width.toInt ≤ Int32.maxValue.toInt :=
    h.range .horizontal
  have hrangeY : monitor.y.toInt + monitor.height.toInt ≤ Int32.maxValue.toInt :=
    h.range .vertical
  have hlowX := monitor.x.le_toInt
  have hlowY := monitor.y.le_toInt
  have hmin := Int32.toInt_minValue
  constructor
  · exact toInt_clamp_of_le (by omega) (by omega)
  · exact toInt_clamp_of_le (by omega) (by omega)

/-- The gaps at the ends of a bar that fits: where it starts along its length, and what is left
of the monitor. -/
theorem gap_ends (position : Position) :
  let direction := position.orientation
  let corner := offset position margins monitor size
  let start := startAlong (monitor.extent direction) (size.extent direction)
    (margins.side direction.ends.1).toInt (margins.side direction.ends.2).toInt
  monitor.gap size corner direction.ends.1 = start
    ∧ monitor.gap size corner direction.ends.2
      = monitor.extent direction - size.extent direction - start
  := by
  obtain ⟨hx, hy⟩ := h.toInt_offset position
  cases position with
  | left | right =>
    simp only [Position.orientation, Orientation.ends, Rect.gap, hy, exactOffset]
    simp only [Rect.extent, Size.extent, Margins.side]
    omega
  | top | bottom =>
    simp only [Position.orientation, Orientation.ends, Rect.gap, hx, exactOffset]
    simp only [Rect.extent, Size.extent, Margins.side]
    omega

/-- A bar that fits is placed on its monitor. -/
theorem placed (position : Position) :
  Placed position margins monitor size (offset position margins monitor size)
  := by
  obtain ⟨hx, hy⟩ := h.toInt_offset position
  obtain ⟨hfirst, hlast⟩ := h.gap_ends position
  obtain ⟨hfills, hfree⟩ := startAlong_of_fits (h.side _) (h.side _) (h.extent position.orientation)
  constructor
  case inside =>
    obtain ⟨⟨hleft, hright⟩, htop, hbottom⟩ := h.exactOffset_between position
    intro edge
    cases edge with
    | left | right | top | bottom =>
      simp only [Rect.gap, hx, hy]
      omega
  case anchored =>
    cases position with
    | left | right | top | bottom =>
      simp only [Rect.gap, Margins.side, hx, hy, exactOffset]
      omega
  case filling =>
    intro hwhole
    have hstart := hfills hwhole
    rw [Size.outerExtent] at hwhole
    omega
  case centred =>
    intro hrest
    have hstart := hfree hrest
    omega

end Fits

/-! ### Every corner -/

/-- The corner of a bar is computed in words of 64 bits without leaving them, and each coordinate
is the exact one clamped to 32 bits.  A bar that fits on its monitor together with its margins is
placed there. -/
theorem offset_placed (position : Position) (margins : Margins) (monitor : Rect) (size : Size) :
  let corner := offset position margins monitor size
  let exact := exactOffset position margins monitor size
  Word.offset position margins monitor size = some corner
    ∧ corner.x.toInt = max Int32.minValue.toInt (min exact.1 Int32.maxValue.toInt)
    ∧ corner.y.toInt = max Int32.minValue.toInt (min exact.2 Int32.maxValue.toInt)
    ∧ (Fits margins monitor size → Placed position margins monitor size corner)
  := by
  intro corner exact
  use Word.offset_eq_some position margins monitor size
  use toInt_clamp exact.1, toInt_clamp exact.2
  intro hfits
  apply hfits.placed

/-- A bar that leaves one column over at the bottom of the second monitor. -/
theorem offset_placed_secondMonitor :
  let margins : Margins := ⟨0, 5, 7, 3⟩
  let monitor : Rect := ⟨1920, -200, 1280, 1024⟩
  let size : Size := ⟨801, 30⟩
  let corner := offset .bottom margins monitor size
  Fits margins monitor size
    ∧ corner = ⟨2159, 787⟩
    ∧ Word.offset .bottom margins monitor size = some corner
    ∧ monitor.gap size corner .bottom = 7
    ∧ monitor.gap size corner .left = 239
    ∧ monitor.gap size corner .right = 240
    ∧ Placed .bottom margins monitor size corner
  := by
  intro margins monitor size corner
  have hfits : Fits margins monitor size := by
    constructor
    case side =>
      intro edge
      cases edge <;> decide
    case extent =>
      intro direction
      cases direction <;> decide
    case range =>
      intro direction
      cases direction <;> decide
  obtain ⟨hwords, -, -, hplaced⟩ := offset_placed .bottom margins monitor size
  have hplaced := hplaced hfits
  use hfits, by decide, hwords, hplaced.anchored, by decide, by decide

end StatusBar
