/-!
# Pieces

A text with separators falls into one piece more than it has separators.
-/

namespace OutOfOrder.Text

/-- Adds a character in front of pieces: to the first one, or as the end of a new one if it is the
separator. -/
def addToPieces (separator c : Char) : List (List Char) → List (List Char)
  | [] => [[c]]
  | piece :: pieces => if c == separator then [] :: piece :: pieces else (c :: piece) :: pieces

/-- The pieces of a text between the separators. -/
def pieces (separator : Char) (text : List Char) : List (List Char) :=
  text.foldr (addToPieces separator) [[]]

end OutOfOrder.Text
