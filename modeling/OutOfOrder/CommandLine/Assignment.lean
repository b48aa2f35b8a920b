import OutOfOrder.Assembly.Operand

/-!
# Assignments

On the command line registers and memory words are set by assignments such as `F4=5` or
`0x64=10`.
-/

namespace OutOfOrder.CommandLine

open Text Assembly

/-- Why a text is no assignment. -/
inductive AssignmentError where
  | malformed (text : List Char)
  | operand (error : DecodeError)

def AssignmentError.message : AssignmentError → String
  | .malformed text => "expected NAME=VALUE, got " ++ String.ofList (quoted text)
  | .operand error => error.message

/-- The two sides of an assignment, without the blanks around them. -/
def splitAssignment (text : List Char) : Except AssignmentError (List Char × List Char) :=
  let name := strip (text.takeWhile (· != '='))
  let value := strip ((text.dropWhile (· != '=')).drop 1)
  if name.isEmpty || value.isEmpty then .error (.malformed text) else .ok (name, value)

def parseRegisterAssignment (text : List Char) : Except AssignmentError (String × Int) := do
  let (name, value) ← splitAssignment text
  let register ← (parseRegister name).mapError .operand
  let value ← (parseInteger value).mapError .operand
  return (register, value)

def parseMemoryAssignment (text : List Char) : Except AssignmentError (Int × Int) := do
  let (name, value) ← splitAssignment text
  let address ← (parseInteger name).mapError .operand
  let value ← (parseInteger value).mapError .operand
  return (address, value)

end OutOfOrder.CommandLine
