import OutOfOrder.Text.Blank
import OutOfOrder.Text.Digit
import OutOfOrder.Text.Quoted

/-!
# Integer numerals

An integer is written in base ten, or in base sixteen, eight or two behind `0x`, `0o` or `0b`, with
an optional sign.  Decimal digits of any script count, and single underscores may stand between
digits.  A numeral in base ten has at most 4300 digits; a longer one is refused before it is looked
at further.  Nor is an integer with more digits written, though it may be read in another base or
computed.
-/

namespace OutOfOrder.Numeral

open Text

/-- Why a text is no integer numeral. -/
inductive Failure where
  /-- The text does not have the form of a numeral. -/
  | malformed (text : List Char)
  /-- The numeral has the given number of decimal digits, which is more than a numeral may have. -/
  | tooLong (digits : Nat)

def maxDigits : Nat := 4300

/-- The wording of a failure.  A malformed text is quoted, and the quotation cut to 200
characters. -/
def Failure.message : Failure → String
  | .malformed text =>
    "invalid literal for int() with base 10: " ++ String.ofList ((quoted text).take 200)
  | .tooLong digits =>
    s!"Exceeds the limit ({maxDigits} digits) for integer string conversion: value has {digits} " ++
      "digits; use sys.set_int_max_str_digits() to increase the limit"

/-- The least natural number that has too many digits to be written. -/
def writingBound : Nat := Nat.pow 10 maxDigits

/-- The integer has few enough digits to be written. -/
def isWritable (value : Int) : Bool :=
  value.natAbs < writingBound

def unwritableMessage : String :=
  s!"Exceeds the limit ({maxDigits} digits) for integer string conversion; " ++
    "use sys.set_int_max_str_digits() to increase the limit"

/-- The ASCII character that stands for a character in a numeral: a space for a blank and a digit
for a digit of the same value.  A character that has no place in a numeral becomes a question
mark. -/
def simplify (c : Char) : Char :=
  if c.toNat < 127 then c
  else if isBlank c then ' '
  else match digitValue? c with
    | some value => Char.ofNat (0x30 + value)
    | none => '?'

/-- The blanks that may surround a numeral once it is in ASCII. -/
def isSpace (c : Char) : Bool :=
  inRange c.toNat 0x9 0xd || c == ' '

/-- The value of an ASCII digit in a base up to 36. -/
def valueIn? (base : Nat) (c : Char) : Option Nat :=
  let value? :=
    if inRange c.toNat 0x30 0x39 then some (c.toNat - 0x30)
    else if inRange c.toNat 0x61 0x7a then some (c.toNat - 0x61 + 10)
    else if inRange c.toNat 0x41 0x5a then some (c.toNat - 0x41 + 10)
    else none
  value?.filter (· < base)

/-- The character may stand in the digits of a numeral. -/
def isDigitOrMark (base : Nat) (c : Char) : Bool :=
  c == '_' || (valueIn? base c).isSome

/-- Every underscore stands between two digits, and the last character is a digit.  Where
`digitDue` holds the next character has to be a digit. -/
def groupedFrom (digitDue : Bool) : List Char → Bool
  | [] => !digitDue
  | c :: rest =>
    if c == '_' then !digitDue && groupedFrom true rest else groupedFrom false rest

/-- The value of digits, the most significant one first. -/
def ofDigits (base : Nat) (digits : List Char) : Nat :=
  digits.foldl (fun value c => value * base + (valueIn? base c).getD 0) 0

/-- The value of an unsigned numeral in the given base, behind which only spaces may stand.  The
whole text is named when it is malformed. -/
def magnitude (whole : List Char) (base : Nat) (text : List Char) : Except Failure Nat :=
  let run := text.takeWhile (isDigitOrMark base)
  let digits := run.filter (· != '_')
  if !groupedFrom true run then .error (.malformed whole)
  else if base == 10 && maxDigits < digits.length then .error (.tooLong digits.length)
  else if (text.dropWhile (isDigitOrMark base)).all isSpace then .ok (ofDigits base digits)
  else .error (.malformed whole)

/-- Splits off the sign: whether it is a minus, and what follows it. -/
def splitSign : List Char → Bool × List Char
  | '-' :: rest => (true, rest)
  | '+' :: rest => (false, rest)
  | text => (false, text)

def withSign (negative : Bool) (magnitude : Nat) : Int :=
  if negative then -(magnitude : Int) else magnitude

/-- Sign and unsigned part of a numeral, in ASCII and without spaces in front. -/
def signAndRest (text : List Char) : Bool × List Char :=
  splitSign ((text.map simplify).dropWhile isSpace)

def decimal (text : List Char) : Except Failure Int :=
  let (negative, rest) := signAndRest text
  (magnitude text 10 rest).map (withSign negative)

/-- One underscore may follow the letter that names the base. -/
def skipMark : List Char → List Char
  | '_' :: rest => rest
  | text => text

/-- The value of an unsigned numeral whose base is told by its first characters.  A decimal one that
begins with a zero has to be zero. -/
def magnitudeByMark (whole : List Char) : List Char → Except Failure Nat
  | '0' :: rest =>
    match rest with
    | 'x' :: digits | 'X' :: digits => magnitude whole 16 (skipMark digits)
    | 'o' :: digits | 'O' :: digits => magnitude whole 8 (skipMark digits)
    | 'b' :: digits | 'B' :: digits => magnitude whole 2 (skipMark digits)
    | _ =>
      match magnitude whole 10 ('0' :: rest) with
      | .ok 0 => .ok 0
      | .ok _ => .error (.malformed whole)
      | .error failure => .error failure
  | text => magnitude whole 10 text

def marked (text : List Char) : Except Failure Int :=
  let (negative, rest) := signAndRest text
  (magnitudeByMark text rest).map (withSign negative)

/-- Reads an integer, blanks around it ignored: a numeral with or without a mark of its base, or
a decimal one with zeros in front. -/
def parse (text : List Char) : Except Failure Int :=
  let text := strip text
  match marked text with
  | .ok value => .ok value
  | .error _ => decimal text

end OutOfOrder.Numeral
