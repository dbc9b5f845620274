/-
# Text operations

Stripping of white space, with the white space of the source language, the folding of the case
to lower and to upper case, and the clipping to the width of a column.
-/

namespace GuvFX
namespace Text

def isSpace (c : Char) : Bool :=
  let n := c.toNat
  (9 ≤ n && n ≤ 13) || (28 ≤ n && n ≤ 32) || n == 0x85 || n == 0xA0 || n == 0x1680
    || (0x2000 ≤ n && n ≤ 0x200A) || n == 0x2028 || n == 0x2029 || n == 0x202F || n == 0x205F
    || n == 0x3000

/-- Remove the white space at both ends. -/
def strip (s : String) : String :=
  String.ofList ((s.toList.dropWhile isSpace).reverse.dropWhile isSpace).reverse

/-- The text with its letters in lower case, for comparisons that ignore the case. -/
def casefold (s : String) : String := String.ofList (s.toList.map Char.toLower)

/-- The text with its letters in lower case; one letter outside the plain alphabet has a plain letter
as its lower case. -/
def lower (s : String) : String :=
  String.ofList (s.toList.map fun c => if c.toNat = 0x212A then 'k' else c.toLower)

/-- The text with its letters in upper case; two letters outside the plain alphabet have a plain
letter as their upper case. -/
def upper (s : String) : String :=
  String.ofList (s.toList.map fun c => if c = 'ı' then 'I' else if c = 'ſ' then 'S' else c.toUpper)

/-- The first `n` characters of a text. -/
def clip (n : Nat) (text : String) : String := String.ofList (text.toList.take n)

end Text
end GuvFX
