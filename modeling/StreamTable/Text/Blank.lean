/-
Blank characters: the white space of Unicode and the four information separators of ASCII.  A
descriptor and an input line are trimmed of these; a number is trimmed of all but the separators.
-/
import StreamTable.Text.Ranges

namespace StreamTable
namespace Text

def blanks : Array (Nat × Nat) :=
  #[(0x9, 0xD), (0x1C, 0x20), (0x85, 0x85), (0xA0, 0xA0), (0x1680, 0x1680), (0x2000, 0x200A),
    (0x2028, 0x2029), (0x202F, 0x202F), (0x205F, 0x205F), (0x3000, 0x3000)]

def isBlank (c : Char) : Bool := inRanges blanks c.toNat

/-- The text without the blanks at both ends. -/
def trim (s : List Char) : List Char :=
  ((s.dropWhile isBlank).reverse.dropWhile isBlank).reverse

/-- One of the four information separators of ASCII. -/
def isSeparator (c : Char) : Bool := 0x1C ≤ c.toNat && c.toNat ≤ 0x1F

/-- The text without the blanks at both ends that may stand around a number. -/
def trimNumber (s : List Char) : List Char :=
  let isMargin (c : Char) : Bool := isBlank c && !isSeparator c
  ((s.dropWhile isMargin).reverse.dropWhile isMargin).reverse

/-- The text without the blanks at its end. -/
def trimRight (s : List Char) : List Char :=
  (s.reverse.dropWhile isBlank).reverse

end Text
end StreamTable
