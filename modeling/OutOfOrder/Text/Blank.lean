import OutOfOrder.Text.Ranges

/-!
# Blanks

The characters that separate words, and what is left of a text without them at its ends.
-/

namespace OutOfOrder.Text

/-- The code points of the blanks: the white space of every script, and the four ASCII
separators. -/
def blankRanges : List (Nat × Nat) := [
  (0x9, 0xd), (0x1c, 0x20), (0x85, 0x85), (0xa0, 0xa0), (0x1680, 0x1680), (0x2000, 0x200a),
  (0x2028, 0x2029), (0x202f, 0x202f), (0x205f, 0x205f), (0x3000, 0x3000)]

/-- The character separates words. -/
def isBlank (c : Char) : Bool :=
  inRanges c.toNat blankRanges

def stripLeft (text : List Char) : List Char :=
  text.dropWhile isBlank

def stripRight (text : List Char) : List Char :=
  (text.reverse.dropWhile isBlank).reverse

def strip (text : List Char) : List Char :=
  stripRight (stripLeft text)

/-- The first word of a text and what follows it, without the blanks before and behind that
word.  A text of blanks has no first word. -/
def firstWord? (text : List Char) : Option (List Char × List Char) :=
  match stripLeft text with
  | [] => none
  | c :: rest =>
    some (c :: rest.takeWhile (!isBlank ·), stripLeft (rest.dropWhile (!isBlank ·)))

end OutOfOrder.Text
