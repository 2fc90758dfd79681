import StatusBar.Decode

/-!
# Positions and orientations

A bar stands at one edge of the screen, and its edge decides which way its modules run.
-/

namespace StatusBar

/-- The direction in which modules follow each other. -/
inductive Orientation where
  | horizontal
  | vertical
  deriving DecidableEq, Repr, Inhabited

namespace Orientation

/-- The other direction. -/
def flipped : Orientation → Orientation
  | horizontal => vertical
  | vertical => horizontal

theorem flipped_ne (orientation : Orientation) :
  orientation.flipped ≠ orientation
  := by
  cases orientation <;> decide

/-- The name of a direction. -/
def name : Orientation → String
  | horizontal => "horizontal"
  | vertical => "vertical"

end Orientation

/-- The edge of the screen that a bar stands at. -/
inductive Position where
  | left
  | right
  | top
  | bottom
  deriving DecidableEq, Repr, Inhabited

namespace Position

/-- The edge of that name. -/
def ofName? (name : String) : Option Position :=
  match name with
  | "left" => some left
  | "right" => some right
  | "top" => some top
  | "bottom" => some bottom
  | _ => none

/-- The name of an edge. -/
def name : Position → String
  | left => "left"
  | right => "right"
  | top => "top"
  | bottom => "bottom"

@[simp]
theorem ofName?_name (position : Position) :
  ofName? position.name = some position
  := by
  cases position <;> rfl

theorem name_injective :
  Function.Injective name
  := by
  intro position position' h
  have hread := congrArg ofName? h
  rw [ofName?_name, ofName?_name] at hread
  apply Option.some.inj hread

/-- At the left and the right edge modules stand one above the other. -/
def orientation : Position → Orientation
  | left | right => .vertical
  | top | bottom => .horizontal

/-- Bars run horizontally at the top and at the bottom. -/
theorem orientation_eq_horizontal_iff (position : Position) :
  position.orientation = .horizontal ↔ position = top ∨ position = bottom
  := by
  cases position <;> decide

/-- Where a bar stands unless something else is said. -/
def initial : Position := top

instance : Decode Position := Decode.ofRead initial fun doc => doc.text?.bind ofName?

end Position

end StatusBar
