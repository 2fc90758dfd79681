import StatusBar.Proofs.Geometry.Words

/-!
# Exchanging the axes

To transpose is to exchange the horizontal axis with the vertical one: left with top, right with
bottom, widths with heights.  What is true of a bar at the top is then true of one at the left,
since the corner of a transposed bar is the transposed corner, in exact integers, in words and
once clamped, and it is attached to the transposed edges.
-/

namespace StatusBar

/-! ### Transposition -/

/-- The edge that takes the place of another. -/
def Position.transposed : Position → Position
  | left => top
  | right => bottom
  | top => left
  | bottom => right

/-- Margins with their sides exchanged. -/
def Margins.transposed (margins : Margins) : Margins where
  top := margins.left
  right := margins.bottom
  bottom := margins.right
  left := margins.top

/-- A monitor with its coordinates and its extents exchanged. -/
def Rect.transposed (monitor : Rect) : Rect where
  x := monitor.y
  y := monitor.x
  width := monitor.height
  height := monitor.width

/-- A size with its extents exchanged. -/
def Size.transposed (size : Size) : Size where
  width := size.height
  height := size.width

/-- A point with its coordinates exchanged. -/
def Point.transposed (point : Point) : Point where
  x := point.y
  y := point.x

/-- The edges that take the places of others. -/
def Anchors.transposed (anchors : Anchors) : Anchors where
  left := anchors.top
  right := anchors.bottom
  top := anchors.left
  bottom := anchors.right

variable (position : Position) (margins : Margins) (monitor : Rect) (size : Size)

/-! ### Transposed bars -/

/-- The corner of a bar at the left or at the right is computed as that of a bar at the top or at
the bottom, with the other half of the data. -/
theorem exactOffset_transposed :
  exactOffset position.transposed margins.transposed monitor.transposed size.transposed
    = (exactOffset position margins monitor size).swap
  := by
  cases position with
  | left | right | top | bottom => rfl

/-- Both coordinates are clamped to the same range. -/
theorem offset_transposed :
  offset position.transposed margins.transposed monitor.transposed size.transposed
    = (offset position margins monitor size).transposed
  := by
  rw [offset, exactOffset_transposed]
  rfl

theorem Word.offset_transposed :
  Word.offset position.transposed margins.transposed monitor.transposed size.transposed
    = (Word.offset position margins monitor size).map Point.transposed
  := by
  rw [Word.offset_eq_some, Word.offset_eq_some, StatusBar.offset_transposed, Option.map_some]

/-- The ends of a transposed bar are freed by its height where those of the bar are by its
width. -/
theorem Anchors.ofPosition_transposed :
  ofPosition position.transposed size.transposed = (ofPosition position size).transposed
  := by
  cases position with
  | left | right | top | bottom => rfl

/-- A transposed bar lies at the transposed corner, whether it is computed exactly and clamped or
in words, and is attached to the transposed edges. -/
theorem layout_transposed :
  offset position.transposed margins.transposed monitor.transposed size.transposed
      = (offset position margins monitor size).transposed
    ∧ Word.offset position.transposed margins.transposed monitor.transposed size.transposed
      = (Word.offset position margins monitor size).map Point.transposed
    ∧ Anchors.ofPosition position.transposed size.transposed
      = (Anchors.ofPosition position size).transposed
  := by
  use offset_transposed position margins monitor size
  use Word.offset_transposed position margins monitor size
  exact Anchors.ofPosition_transposed position size

-- The coordinate along the bar is past 32 bits before it is clamped.
example :
    offset .top ⟨7, 1, 2, 3⟩ ⟨2147483400, -20, 2000, 1080⟩ ⟨801, 30⟩ = ⟨2147483647, -13⟩
      ∧ offset .left ⟨3, 2, 1, 7⟩ ⟨-20, 2147483400, 1080, 2000⟩ ⟨30, 801⟩ = ⟨-13, 2147483647⟩ := by
  decide

end StatusBar
