/-!
# Splitting texts

`pieces` cuts a text at every separator, `cut` at the first one only, and `after?` takes
a given beginning off.  `words` are the maximal runs of characters that are not blank, left to
right; the characters with the Unicode property `White_Space` are.
-/

namespace StatusBar.Text

/-- The pieces of a text between the characters that satisfy `p`.  There is always one
more piece than there are separators. -/
def pieces (p : Char → Bool) : List Char → List (List Char)
  | [] => [[]]
  | c :: rest =>
    if p c then
      [] :: pieces p rest
    else
      match pieces p rest with
      | [] => [[c]]
      | piece :: more => (c :: piece) :: more

theorem pieces_ne_nil (p : Char → Bool) (text : List Char) :
  pieces p text ≠ []
  := by
  cases text with
  | nil => simp [pieces]
  | cons c rest =>
    rw [pieces]
    split
    · simp
    · split <;> simp

/-- What stands before the first `separator`, and what stands after it if there is one. -/
def cut (separator : Char) (text : String) : String × Option String :=
  (String.ofList (text.toList.takeWhile (· != separator)),
   match text.toList.dropWhile (· != separator) with
   | [] => none
   | _ :: rest => some (String.ofList rest))

/-- The rest of a text that begins with `start`. -/
def after? (start text : String) : Option String :=
  (start.toList.isPrefixOf? text.toList).map String.ofList

/-- Whether a text begins with `start`. -/
def beginsWith (start text : String) : Bool :=
  start.toList.isPrefixOf text.toList

/-- The code points with the property `White_Space`, as ascending closed ranges. -/
def blankRanges : List (Nat × Nat) :=
  [(0x09, 0x0D), (0x20, 0x20), (0x85, 0x85), (0xA0, 0xA0), (0x1680, 0x1680),
   (0x2000, 0x200A), (0x2028, 0x2029), (0x202F, 0x202F), (0x205F, 0x205F), (0x3000, 0x3000)]

/-- Whether a character separates words. -/
def isBlank (c : Char) : Bool :=
  blankRanges.any fun range => range.1 ≤ c.toNat && c.toNat ≤ range.2

/-- The words of a text: its pieces between blanks, less the empty ones. -/
def words (text : List Char) : List (List Char) :=
  (pieces isBlank text).filter fun word => !word.isEmpty

example : words "\u00a010px  5\t".toList = ["10px".toList, ['5']] := by decide

end StatusBar.Text
