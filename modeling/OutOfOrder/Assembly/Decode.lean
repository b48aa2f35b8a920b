import OutOfOrder.Assembly.Operand
import OutOfOrder.Directory
import OutOfOrder.Isa.Instruction
import OutOfOrder.Text.Pieces
import OutOfOrder.Text.Upper

/-!
# Decoding instructions

An instruction is a mnemonic and, behind blanks, operands between commas.  The mnemonic may be in
either case, with a point or an underscore.  The distance of a branch is an integer or the name of
a label, and then counts from the instruction behind the branch.
-/

namespace OutOfOrder.Assembly

open Text

def opcodeName (mnemonic : List Char) : List Char :=
  (upper (strip mnemonic)).map fun c => if c == '.' then '_' else c

def parseOpcode? (mnemonic : List Char) : Option Opcode :=
  Opcode.ofName? (String.ofList (opcodeName mnemonic))

/-- The operands in the text behind a mnemonic, without the blanks around them. -/
def splitOperands (text : List Char) : List (List Char) :=
  if text.all isBlank then [] else (pieces ',' text).map strip

/-- The labels of a program and the index of the instruction that each of them stands before. -/
abbrev Labels := Directory String Int

def parseDistance (labels : Labels) (index : Int) (text : List Char) : Except DecodeError Int :=
  match labels.get? (String.ofList text) with
  | some destination => .ok (destination - (index + 1))
  | none => (parseInteger text).mapError fun _ => .undefinedLabel text

/-- Decodes the operands of an operation.  In a load or store the address is looked at before the
other register; elsewhere the operands are looked at from left to right. -/
def decodeOperands (labels : Labels) (index : Int) (text : String) (opcode : Opcode)
    (operands : List (List Char)) : Except DecodeError Instruction :=
  match opcode.form, operands with
  | .load, [register, address] => do
    let (offset, base) ← parseAddress address
    let dest ← parseRegister register
    return { opcode, dest, src1 := base, immediate := offset, text }
  | .store, [register, address] => do
    let (offset, base) ← parseAddress address
    let value ← parseRegister register
    return { opcode, src1 := base, src2 := value, immediate := offset, text }
  | .register, [dest, first, second] => do
    let dest ← parseRegister dest
    let first ← parseRegister first
    let second ← parseRegister second
    return { opcode, dest, src1 := first, src2 := second, text }
  | .immediate, [dest, source, constant] => do
    let dest ← parseRegister dest
    let source ← parseRegister source
    let constant ← parseInteger constant
    return { opcode, dest, src1 := source, immediate := constant, text }
  | .branch, [first, second, distance] => do
    let first ← parseRegister first
    let second ← parseRegister second
    let distance ← parseDistance labels index distance
    return { opcode, src1 := first, src2 := second, immediate := distance, text }
  | .bare, [] => return { opcode, text }
  | _, _ => .error (.wrongCount opcode operands.length)

/-- Decodes one instruction, which stands at an index of its program. -/
def decode (labels : Labels) (index : Int) (text : List Char) : Except DecodeError Instruction :=
  let text := strip text
  match firstWord? text with
  | none => .error .blank
  | some (mnemonic, rest) =>
    match parseOpcode? mnemonic with
    | none => .error (.unknownMnemonic mnemonic)
    | some opcode =>
      decodeOperands labels index (String.ofList text) opcode (splitOperands rest)

end OutOfOrder.Assembly
