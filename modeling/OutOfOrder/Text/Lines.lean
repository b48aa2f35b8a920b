import OutOfOrder.Text.Ranges

/-!
# Lines

A text is cut into lines at every line break.  The break that ends the text opens no further line,
and a carriage return before a line feed is one break with it.
-/

namespace OutOfOrder.Text

def isLineBreak (c : Char) : Bool :=
  inRanges c.toNat [(0xa, 0xd), (0x1c, 0x1e), (0x85, 0x85), (0x2028, 0x2029)]

/-- The lines of a text, where `line` holds the characters of the first line read so far, the last
one first. -/
def linesFrom (line : List Char) : List Char → List (List Char)
  | [] => if line.isEmpty then [] else [line.reverse]
  | '\r' :: '\n' :: rest => line.reverse :: linesFrom [] rest
  | c :: rest =>
    if isLineBreak c then line.reverse :: linesFrom [] rest else linesFrom (c :: line) rest

/-- The lines of a text, without their breaks. -/
def lines (text : List Char) : List (List Char) :=
  linesFrom [] text

/-- The text with every carriage return, and every carriage return before a line feed, written as
one line feed. -/
def unifyBreaks : List Char → List Char
  | [] => []
  | '\r' :: '\n' :: rest => '\n' :: unifyBreaks rest
  | c :: rest => (if c == '\r' then '\n' else c) :: unifyBreaks rest

end OutOfOrder.Text
