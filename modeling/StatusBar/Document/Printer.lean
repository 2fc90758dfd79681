import StatusBar.Decimal.Shortest
import StatusBar.Document.Basic

/-!
# Writing documents

`Document.compact` writes a document without spaces.  A float has the fewest digits that
read back as it, in positional notation with at least one digit after the point when its
leading digit stands for a power of ten from `10 ^ -5` to `10 ^ 15`, else with an exponent.
In a string only quotes, backslashes and control characters are escaped.
-/

namespace StatusBar

/-- How a float is written. -/
structure FloatLayout where
  /-- The least and the largest power of ten of a leading digit in positional notation. -/
  least : Int
  largest : Int
  /-- What stands between the digits and the digits of the exponent. -/
  upwards : List Char
  downwards : List Char

namespace FloatLayout

/-- The digits of a number, written. -/
def decimalDigits (n : Nat) : List Char :=
  Nat.toDigits 10 n

/-- Digits and a point after the first `whole` of them; zeros fill up both sides. -/
def positional (digits : List Char) (whole : Int) : List Char :=
  if whole ≤ 0 then
    ['0', '.'] ++ List.replicate (-whole).toNat '0' ++ digits
  else if digits.length ≤ whole.toNat then
    digits ++ List.replicate (whole.toNat - digits.length) '0' ++ ['.', '0']
  else
    digits.take whole.toNat ++ ['.'] ++ digits.drop whole.toNat

/-- Digits with a point after the first, and an exponent. -/
def scientific (layout : FloatLayout) (digits : List Char) (power : Int) : List Char :=
  let mantissa :=
    match digits with
    | first :: second :: rest => first :: '.' :: second :: rest
    | digits => digits
  mantissa ++ (if power < 0 then layout.downwards else layout.upwards) ++ decimalDigits power.natAbs

/-- A float in a layout, from its bits. -/
def write (layout : FloatLayout) (bits : UInt64) : List Char :=
  let sign := if bits.toNat < UInt64.size / 2 then [] else ['-']
  let magnitude := Decimal.Binary.ofBits bits
  if magnitude.m = 0 then
    sign ++ ['0', '.', '0']
  else
    let decimal := magnitude.shortest
    let digits := decimalDigits decimal.digits
    let power := decimal.exponent + digits.length - 1
    sign ++
      if layout.least ≤ power ∧ power ≤ layout.largest then
        positional digits (power + 1)
      else
        layout.scientific digits power

end FloatLayout

/-- Floats of documents: positional from `10 ^ -5` to `10 ^ 15`, then `e+` or `e-`. -/
def Number.floatLayout : FloatLayout where
  least := -5
  largest := 15
  upwards := ['e', '+']
  downwards := ['e', '-']

/-- A number, written. -/
def Number.chars : Number → List Char
  | .integer value =>
    if value < 0 then
      '-' :: FloatLayout.decimalDigits value.natAbs
    else
      FloatLayout.decimalDigits value.natAbs
  | .float bits => Number.floatLayout.write bits

/-- How one character of a string is written. -/
def Document.encodeChar (c : Char) : List Char :=
  match c with
  | '"' => ['\\', '"']
  | '\\' => ['\\', '\\']
  | '\x08' => ['\\', 'b']
  | '\x0c' => ['\\', 'f']
  | '\n' => ['\\', 'n']
  | '\r' => ['\\', 'r']
  | '\t' => ['\\', 't']
  | c =>
    if c.toNat < 0x20 then
      ['\\', 'u', '0', '0', Nat.digitChar (c.toNat / 16), Nat.digitChar (c.toNat % 16)]
    else
      [c]

/-- A string, written between quotes. -/
def Document.stringChars (text : String) : List Char :=
  '"' :: text.toList.flatMap Document.encodeChar ++ ['"']

mutual

/-- The characters of a document written without spaces. -/
def Document.chars : Document → List Char
  | .null => ['n', 'u', 'l', 'l']
  | .bool true => ['t', 'r', 'u', 'e']
  | .bool false => ['f', 'a', 'l', 's', 'e']
  | .number value => value.chars
  | .string value => Document.stringChars value
  | .array [] => ['[', ']']
  | .array (first :: more) => '[' :: first.chars ++ Document.itemChars more ++ [']']
  | .object [] => ['\x7b', '\x7d']
  | .object ((name, value) :: more) =>
    '\x7b' :: Document.stringChars name ++ ':' :: value.chars ++ Document.memberChars more
      ++ ['\x7d']

/-- The items after the first, each after a comma. -/
def Document.itemChars : List Document → List Char
  | [] => []
  | item :: more => ',' :: item.chars ++ Document.itemChars more

/-- The members after the first, each after a comma. -/
def Document.memberChars : List (String × Document) → List Char
  | [] => []
  | (name, value) :: more =>
    ',' :: Document.stringChars name ++ ':' :: value.chars ++ Document.memberChars more

end

/-- A document written without spaces. -/
def Document.compact (document : Document) : String :=
  String.ofList document.chars

end StatusBar
