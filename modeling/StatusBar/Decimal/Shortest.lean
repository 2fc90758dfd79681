/-!
# Shortest decimals

Every decimal that lies close enough to a 64-bit float reads back as it.  `shortest`
finds the decimal of fewest digits that does, and of those the nearest to the float.

A positive float is `m * 2 ^ q`.  The decimals that read back as it form an interval
around it, given here in quarters of the float's last place; its ends belong to it when `m`
is even.  A decimal of few digits is a multiple of a large power of ten, so the search
goes down the powers of ten and stops at the first with a multiple in the interval.
-/

namespace StatusBar.Decimal

/-- A positive float `m * 2 ^ q`. -/
structure Binary where
  m : Nat
  q : Int
  /-- The float below is only half as far away as the one above. -/
  narrowBelow : Bool
  deriving DecidableEq, Repr

/-- The decimal `digits * 10 ^ exponent`. -/
structure Scaled where
  digits : Nat
  exponent : Int
  deriving DecidableEq, Repr

/-- The magnitude of a finite float, from its IEEE bits. -/
def Binary.ofBits (bits : UInt64) : Binary :=
  let fraction := bits.toNat % Nat.pow 2 52
  let biased : Nat := bits.toNat / Nat.pow 2 52 % Nat.pow 2 11
  if biased = 0 then
    ⟨fraction, -1074, false⟩
  else
    ⟨Nat.pow 2 52 + fraction, Int.ofNat biased - 1075, fraction = 0 && biased != 1⟩

namespace Binary

variable (b : Binary)

/-- The size of `c` steps of `10 ^ k`, on a scale shared with `quarters`. -/
def steps (c : Nat) (k : Int) : Nat :=
  c * Nat.pow 10 k.toNat * Nat.pow 2 (2 - b.q).toNat

/-- The size of `n` quarters of the last place, on a scale shared with `steps`. -/
def quarters (n : Nat) (k : Int) : Nat :=
  n * Nat.pow 10 (-k).toNat * Nat.pow 2 (b.q - 2).toNat

/-- Whether `c * 10 ^ k` reads back as the float. -/
def admits (c : Nat) (k : Int) : Bool :=
  let low := b.quarters (4 * b.m - if b.narrowBelow then 1 else 2) k
  let high := b.quarters (4 * b.m + 2) k
  if b.m % 2 = 0 then
    low ≤ b.steps c k && b.steps c k ≤ high
  else
    low < b.steps c k && b.steps c k < high

/-- Of the two multiples of `10 ^ k` around the float, the nearest that reads back as
it; of two equally near, the even one. -/
def nearest? (k : Int) : Option Nat :=
  let exact := b.quarters (4 * b.m) k
  let below := exact / b.steps 1 k
  let above := below + 1
  match decide (0 < below) && b.admits below k, b.admits above k with
  | false, false => none
  | true, false => some below
  | false, true => some above
  | true, true =>
    let toBelow := exact - b.steps below k
    let toAbove := b.steps above k - exact
    if toBelow < toAbove then some below
    else if toAbove < toBelow then some above
    else if below % 2 = 0 then some below
    else some above

/-- The powers of ten from above the largest float to below the least one, downwards. -/
def powers : List Int :=
  (List.range 640).map fun i => 309 - Int.ofNat i

/-- The decimal of fewest digits that reads back as the float. -/
def shortest : Scaled :=
  (powers.findSome? fun k => (b.nearest? k).map fun c => ⟨c, k⟩).getD ⟨0, 0⟩

end Binary

end StatusBar.Decimal
