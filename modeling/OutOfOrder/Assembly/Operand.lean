import OutOfOrder.Isa.Opcode
import OutOfOrder.Text.Numeral
import OutOfOrder.Text.WordChar

/-!
# Written operands

Registers are written as a bank letter and a number, and addresses as an offset with a base register
in parentheses.  Blanks around an operand, and inside an address around the parentheses, do not
count.
-/

namespace OutOfOrder.Assembly

open Text

/-- Why a text is no instruction. -/
inductive DecodeError where
  /-- There is no text. -/
  | blank
  | unknownMnemonic (text : List Char)
  /-- The operation does not take this number of operands. -/
  | wrongCount (opcode : Opcode) (count : Nat)
  | invalidRegister (text : List Char)
  | invalidAddress (text : List Char)
  | invalidNumeral (failure : Numeral.Failure)
  | undefinedLabel (text : List Char)

def operandCount : Form → Nat
  | .load | .store => 2
  | .immediate | .register | .branch => 3
  | .bare => 0

def DecodeError.message : DecodeError → String
  | .blank => "not enough values to unpack (expected at least 1, got 0)"
  | .unknownMnemonic text => "unknown mnemonic " ++ String.ofList (quoted text)
  | .wrongCount opcode count =>
    s!"{opcode.mnemonic} takes {operandCount opcode.form} operands, got {count}"
  | .invalidRegister text => "invalid register " ++ String.ofList (quoted text)
  | .invalidAddress text => "expected offset(base), got " ++ String.ofList (quoted text)
  | .invalidNumeral failure => failure.message
  | .undefinedLabel text => "undefined label " ++ String.ofList (quoted text)

def bankSize : Nat := 32

/-- The bank that a letter of either case names. -/
def bank? (letter : Char) : Option Char :=
  if letter == 'R' || letter == 'r' then some 'R'
  else if letter == 'F' || letter == 'f' then some 'F'
  else none

def registerName (bank : Char) (number : Nat) : String :=
  String.ofList (bank :: Nat.toDigits 10 number)

def parseInteger (text : List Char) : Except DecodeError Int :=
  (Numeral.parse text).mapError .invalidNumeral

def parseRegister (text : List Char) : Except DecodeError String :=
  let text := strip text
  match text with
  | [] => .error (.invalidRegister text)
  | letter :: digits =>
    match bank? letter with
    | none => .error (.invalidRegister text)
    | some bank =>
      if digits.isEmpty || !digits.all isDigit then .error (.invalidRegister text)
      else match Numeral.decimal digits with
        | .error failure => .error (.invalidNumeral failure)
        | .ok number =>
          if number < bankSize then .ok (registerName bank number.toNat)
          else .error (.invalidRegister text)

/-- The optional sign at the front of an offset, and what follows it. -/
def splitOffsetSign : List Char → List Char × List Char
  | '-' :: rest => (['-'], rest)
  | '+' :: rest => (['+'], rest)
  | text => ([], text)

/-- Splits an address into the text of the offset and the text of the base register. -/
def splitAddress? (text : List Char) : Option (List Char × List Char) :=
  let (sign, text) := splitOffsetSign text
  let digits := text.takeWhile isWordChar
  match stripLeft (text.dropWhile isWordChar) with
  | '(' :: inner =>
    let inner := stripLeft inner
    let isBase := fun c => c != ')' && !isBlank c
    let base := inner.takeWhile isBase
    if base.isEmpty then none
    else match stripLeft (inner.dropWhile isBase) with
      | [')'] => some (sign ++ digits, base)
      | _ => none
  | _ => none

/-- Reads an offset.  One without digits is zero. -/
def parseOffset (text : List Char) : Except DecodeError Int :=
  if text = [] ∨ text = ['+'] ∨ text = ['-'] then .ok 0 else parseInteger text

/-- Reads an address: its offset and its base register.  The offset is looked at first. -/
def parseAddress (text : List Char) : Except DecodeError (Int × String) := do
  let text := strip text
  match splitAddress? text with
  | none => .error (.invalidAddress text)
  | some (offset, base) =>
    let offset ← parseOffset offset
    let base ← parseRegister base
    return (offset, base)

end OutOfOrder.Assembly
