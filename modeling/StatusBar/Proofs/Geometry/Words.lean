import Mathlib.Algebra.Group.Int.Defs
import Mathlib.Algebra.Group.Nat.Defs
import Mathlib.Tactic.Use
import StatusBar.Geometry

/-!
# Corners in words

The corner of a bar computed in words of 64 bits, each step of which fails where its exact
result is no such word.  No step ever does: all quantities come from words of 32 bits, and few
of them are added up.  So the computation gives the exact corner, clamped at the end.
-/

namespace StatusBar.Word

/-! ### Words of 64 bits -/

/-- Whether an integer is a word of 64 bits. -/
def InRange (value : Int) : Prop :=
  Int64.minValue.toInt ≤ value ∧ value ≤ Int64.maxValue.toInt

instance (value : Int) : Decidable (InRange value) :=
  inferInstanceAs (Decidable (_ ∧ _))

/-- The word for an integer, if there is one. -/
def ofInt? (value : Int) : Option Int64 :=
  if InRange value then some (.ofInt value) else none

/-- The sum of two words, if it is a word. -/
def add (a b : Int64) : Option Int64 :=
  ofInt? (a.toInt + b.toInt)

/-- The difference of two words, if it is a word. -/
def sub (a b : Int64) : Option Int64 :=
  ofInt? (a.toInt - b.toInt)

/-- Half of a word without its fraction, if it is a word. -/
def half (a : Int64) : Option Int64 :=
  ofInt? (a.toInt.tdiv 2)

/-- A word clamped to 32 bits. -/
def clamp (word : Int64) : Int32 :=
  if word < Int32.minValue.toInt64 then
    Int32.minValue
  else if Int32.maxValue.toInt64 < word then
    Int32.maxValue
  else
    word.toInt32

/-! ### The corner in words -/

/-- Where a bar starts along its length, if no step fails. -/
def startAlong (extent length first last : Int64) : Option Int64 := do
  let whole ← add (← add length first) last
  if extent ≤ whole then return first else half (← sub extent length)

/-- Where a bar starts that stands at the far edge, if no step fails. -/
def startBefore (extent length last : Int64) : Option Int64 := do
  sub (← sub extent length) last

/-- The corner of a bar from the corner of its monitor, if no step fails. -/
def corner (position : Position) (margins : Margins) (monitor : Rect) (size : Size) :
    Option (Int64 × Int64) :=
  let width := Int64.ofInt size.width.toNat
  let height := Int64.ofInt size.height.toNat
  let top := margins.top.toInt64
  let right := margins.right.toInt64
  let bottom := margins.bottom.toInt64
  let left := margins.left.toInt64
  let alongX := startAlong monitor.width.toInt64 width left right
  let alongY := startAlong monitor.height.toInt64 height top bottom
  match position with
  | .top => do return (← alongX, top)
  | .bottom => do return (← alongX, ← startBefore monitor.height.toInt64 height bottom)
  | .left => do return (left, ← alongY)
  | .right => do return (← startBefore monitor.width.toInt64 width right, ← alongY)

/-- The corner of a bar, if no step fails. -/
def offset (position : Position) (margins : Margins) (monitor : Rect) (size : Size) :
    Option Point := do
  let (x, y) ← corner position margins monitor size
  return ⟨clamp (← add x monitor.x.toInt64), clamp (← add y monitor.y.toInt64)⟩

/-! ### Steps that cannot fail -/

theorem inRange_iff {value : Int} :
  InRange value ↔ -2 ^ 63 ≤ value ∧ value < 2 ^ 63
  := by
  rw [InRange, Int64.toInt_minValue, Int64.toInt_maxValue, Int.le_sub_one_iff]

theorem InRange.toInt_ofInt {value : Int} (h : InRange value) :
  (Int64.ofInt value).toInt = value
  := by
  obtain ⟨hlow, hhigh⟩ := inRange_iff.mp h
  apply Int64.toInt_ofInt_of_le hlow hhigh

/-- An integer is at most so far from zero. -/
def Within (bound : Nat) (value : Int) : Prop :=
  value.natAbs ≤ bound

section

variable {m n : Nat} {a b : Int} (ha : Within m a) (hb : Within n b)

include ha

theorem Within.inRange (hm : m < 2 ^ 63) :
  InRange a
  := by
  rw [inRange_iff]
  unfold Within at ha
  omega

theorem Within.half :
  Within m (a.tdiv 2)
  := by
  apply Nat.le_trans _ ha
  apply Int.natAbs_tdiv_le_natAbs

theorem half_eq_some (hm : m < 2 ^ 63) :
  half (.ofInt a) = some (.ofInt (a.tdiv 2))
  := by
  rw [half, (ha.inRange hm).toInt_ofInt]
  exact if_pos (ha.half.inRange hm)

include hb

theorem Within.add :
  Within (m + n) (a + b)
  := by
  unfold Within at ha hb ⊢
  omega

theorem Within.sub :
  Within (m + n) (a - b)
  := by
  unfold Within at ha hb ⊢
  omega

theorem add_eq_some (hm : m + n < 2 ^ 63) :
  add (.ofInt a) (.ofInt b) = some (.ofInt (a + b))
  := by
  rw [Word.add, (ha.inRange (by omega)).toInt_ofInt, (hb.inRange (by omega)).toInt_ofInt]
  exact if_pos ((ha.add hb).inRange hm)

theorem sub_eq_some (hm : m + n < 2 ^ 63) :
  sub (.ofInt a) (.ofInt b) = some (.ofInt (a - b))
  := by
  rw [Word.sub, (ha.inRange (by omega)).toInt_ofInt, (hb.inRange (by omega)).toInt_ofInt]
  exact if_pos ((ha.sub hb).inRange hm)

end

/-- To clamp a word is to clamp the integer that it stands for. -/
theorem clamp_ofInt {value : Int} (h : InRange value) :
  clamp (.ofInt value) = StatusBar.clamp value
  := by
  rw [clamp, StatusBar.clamp]
  have hbounds : Int32.minValue.toInt ≤ Int32.maxValue.toInt := by decide
  split
  case isTrue hlow =>
    rw [Int64.lt_iff_toInt_lt, h.toInt_ofInt, Int32.toInt_toInt64] at hlow
    rw [Int.max_eq_left (by omega), Int32.ofInt_toInt]
  case isFalse hlow =>
    rw [Int64.lt_iff_toInt_lt, h.toInt_ofInt, Int32.toInt_toInt64] at hlow
    split
    case isTrue hhigh =>
      rw [Int64.lt_iff_toInt_lt, h.toInt_ofInt, Int32.toInt_toInt64] at hhigh
      rw [Int.min_eq_right (by omega), Int.max_eq_right hbounds, Int32.ofInt_toInt]
    case isFalse hhigh =>
      rw [Int64.lt_iff_toInt_lt, h.toInt_ofInt, Int32.toInt_toInt64] at hhigh
      rw [Int.min_eq_left (by omega), Int.max_eq_right (by omega), Int64.toInt32_ofInt]

/-! ### Quantities of 32 bits -/

/-- No word of 32 bits, with a sign or without, is farther from zero. -/
def narrow : Nat := 2 ^ 32

theorem within_int32 (word : Int32) :
  Within narrow word.toInt
  := by
  have hlow := word.le_toInt
  have hhigh := word.toInt_lt
  unfold Within narrow
  omega

theorem within_uint32 (word : UInt32) :
  Within narrow word.toNat
  := by
  have hhigh := word.toNat_lt
  unfold Within narrow
  omega

theorem startAlong_eq_some {extent length first last : Int} (hextent : Within narrow extent)
    (hlength : Within narrow length) (hfirst : Within narrow first) (hlast : Within narrow last) :
  startAlong (.ofInt extent) (.ofInt length) (.ofInt first) (.ofInt last)
    = some (.ofInt (StatusBar.startAlong extent length first last))
  := by
  have hwhole : Within (narrow + narrow + narrow) (length + first + last) :=
    (hlength.add hfirst).add hlast
  have hfills : Int64.ofInt extent ≤ .ofInt (length + first + last)
      ↔ extent ≤ length + first + last := by
    rw [Int64.le_iff_toInt_le, (hextent.inRange (by decide)).toInt_ofInt,
      (hwhole.inRange (by decide)).toInt_ofInt]
  rw [startAlong, add_eq_some hlength hfirst (by decide), Option.bind_eq_bind, Option.bind_some,
    add_eq_some (hlength.add hfirst) hlast (by decide), Option.bind_some, StatusBar.startAlong]
  by_cases h : extent ≤ length + first + last
  · rw [if_pos (hfills.mpr h), if_pos h]
    rfl
  · rw [if_neg (mt hfills.mp h), if_neg h, sub_eq_some hextent hlength (by decide),
      Option.bind_some, half_eq_some (hextent.sub hlength) (by decide)]

theorem within_startAlong {extent length first : Int} (hextent : Within narrow extent)
    (hlength : Within narrow length) (hfirst : Within narrow first) (last : Int) :
  Within (narrow + narrow) (StatusBar.startAlong extent length first last)
  := by
  rw [StatusBar.startAlong]
  split
  · apply Nat.le_trans hfirst
    decide
  · exact (hextent.sub hlength).half

theorem startBefore_eq_some {extent length last : Int} (hextent : Within narrow extent)
    (hlength : Within narrow length) (hlast : Within narrow last) :
  startBefore (.ofInt extent) (.ofInt length) (.ofInt last)
    = some (.ofInt (extent - length - last))
  := by
  rw [startBefore, sub_eq_some hextent hlength (by decide), Option.bind_eq_bind, Option.bind_some,
    sub_eq_some (hextent.sub hlength) hlast (by decide)]

/-- The corner of a bar from the corner of its monitor is computed without a failing step. -/
theorem exists_corner (position : Position) (margins : Margins) (monitor : Rect) (size : Size) :
  ∃ x y, corner position margins monitor size = some (.ofInt x, .ofInt y)
    ∧ Within (narrow + narrow + narrow) x ∧ Within (narrow + narrow + narrow) y
    ∧ exactOffset position margins monitor size = (monitor.x.toInt + x, monitor.y.toInt + y)
  := by
  have hwidth := within_uint32 size.width
  have hheight := within_uint32 size.height
  have hextentX := within_int32 monitor.width
  have hextentY := within_int32 monitor.height
  have hmargin := within_int32
  have hsmall : ∀ {value}, Within narrow value → Within (narrow + narrow + narrow) value :=
    fun h => Nat.le_trans h (by decide)
  have hmiddle : ∀ {value}, Within (narrow + narrow) value →
      Within (narrow + narrow + narrow) value := fun h => Nat.le_trans h (by decide)
  simp only [corner, ← Int64.ofInt_int32ToInt,
    startAlong_eq_some hextentX hwidth (hmargin margins.left) (hmargin margins.right),
    startAlong_eq_some hextentY hheight (hmargin margins.top) (hmargin margins.bottom),
    startBefore_eq_some hextentX hwidth (hmargin margins.right),
    startBefore_eq_some hextentY hheight (hmargin margins.bottom)]
  have halongX := hmiddle
    (within_startAlong hextentX hwidth (hmargin margins.left) margins.right.toInt)
  have halongY := hmiddle
    (within_startAlong hextentY hheight (hmargin margins.top) margins.bottom.toInt)
  cases position with
  | top => exact ⟨_, _, rfl, halongX, hsmall (hmargin margins.top), rfl⟩
  | bottom =>
    exact ⟨_, _, rfl, halongX, (hextentY.sub hheight).sub (hmargin margins.bottom), rfl⟩
  | left => exact ⟨_, _, rfl, hsmall (hmargin margins.left), halongY, rfl⟩
  | right => exact ⟨_, _, rfl, (hextentX.sub hwidth).sub (hmargin margins.right), halongY, rfl⟩

/-- The corner of a bar is computed without a failing step, and is the exact one, clamped. -/
theorem offset_eq_some (position : Position) (margins : Margins) (monitor : Rect) (size : Size) :
  offset position margins monitor size
    = some (StatusBar.offset position margins monitor size)
  := by
  obtain ⟨x, y, hcorner, hx, hy, hexact⟩ := exists_corner position margins monitor size
  have hmonitor := within_int32
  rw [offset, hcorner, StatusBar.offset, hexact]
  simp only [Option.bind_eq_bind, Option.bind_some, ← Int64.ofInt_int32ToInt,
    add_eq_some hx (hmonitor monitor.x) (by decide),
    add_eq_some hy (hmonitor monitor.y) (by decide),
    clamp_ofInt ((hx.add (hmonitor monitor.x)).inRange (by decide)),
    clamp_ofInt ((hy.add (hmonitor monitor.y)).inRange (by decide)), Int.add_comm]
  rfl

end StatusBar.Word
