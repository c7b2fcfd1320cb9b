import Deduction.Text.Ranges

/-!
White space: the characters that separate words and are trimmed from the ends of a text.
-/

namespace Deduction.Text

/-- The white-space characters of every script, the four information separators included. -/
def blankRanges : Ranges := [
  (0x9, 0xD), (0x1C, 0x20), (0x85, 0x85), (0xA0, 0xA0), (0x1680, 0x1680), (0x2000, 0x200A),
  (0x2028, 0x2029), (0x202F, 0x202F), (0x205F, 0x205F), (0x3000, 0x3000)]

def isBlank (c : Char) : Bool := blankRanges.covers c.toNat

/-- The pieces of a text between single blanks, empty pieces included. -/
def piecesAtBlanks : List Char → List (List Char)
  | [] => [[]]
  | c :: rest =>
      if isBlank c then
        [] :: piecesAtBlanks rest
      else
        match piecesAtBlanks rest with
        | [] => [[c]]
        | piece :: pieces => (c :: piece) :: pieces

/-- The maximal runs of characters that are not blank. -/
def words (cs : List Char) : List (List Char) :=
  (piecesAtBlanks cs).filter fun piece => !piece.isEmpty

def trimLeft (cs : List Char) : List Char := cs.dropWhile isBlank

def trimRight (cs : List Char) : List Char := (cs.reverse.dropWhile isBlank).reverse

def trim (cs : List Char) : List Char := trimRight (trimLeft cs)

end Deduction.Text
