import OutOfOrder.Isa.Opcode

/-!
# Instructions

An instruction names its operation and its operands.  Any of the operands may be missing, whatever
the form of the operation.
-/

namespace OutOfOrder

structure Instruction where
  opcode : Opcode
  /-- The destination register. -/
  dest : Option String := none
  /-- The first source, or the base register of an address. -/
  src1 : Option String := none
  /-- The second source, or the register that a store writes to memory. -/
  src2 : Option String := none
  /-- The constant, the offset of an address or the distance of a branch. -/
  immediate : Option Int := none
  /-- The source text, for display. -/
  text : String := ""
  deriving DecidableEq, Repr

namespace Instruction

def nop : Instruction where
  opcode := .nop
  text := "NOP"

/-- How the instruction is shown: as its source text, or as its mnemonic if it has none. -/
def display (ins : Instruction) : String :=
  if ins.text.isEmpty then ins.opcode.mnemonic else ins.text

/-- The constant of the instruction, where a missing one counts as zero. -/
def constant (ins : Instruction) : Int :=
  ins.immediate.getD 0

/-- The register that the instruction defines, if it names one and its operation writes one. -/
def target? (ins : Instruction) : Option String :=
  if ins.opcode.definesDestination then ins.dest else none

end Instruction

/-- An instruction with the stamp it got when it was handed to a machine.  No two instructions that
are handed to one machine have the same stamp, so equal stamped instructions are one and the same. -/
structure Stamped where
  stamp : Nat
  instruction : Instruction
  deriving DecidableEq, Repr

end OutOfOrder
