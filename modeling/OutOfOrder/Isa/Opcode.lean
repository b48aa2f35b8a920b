import OutOfOrder.Word

/-!
# Operations

The operations of the machine, the form in which each is written, the pool of reservation stations
that works on it, and the value that it computes.
-/

namespace OutOfOrder

/-- A pool of reservation stations. -/
inductive Pool where
  | add
  | mul
  | int
  | loadStore
  deriving DecidableEq, Repr

namespace Pool

/-- The pools in the order in which the result bus favours them. -/
def busOrder : List Pool :=
  [.add, .mul, .int, .loadStore]

/-- What the names of the pool's stations begin with. -/
def label : Pool → String
  | .add => "Add"
  | .mul => "Mul"
  | .int => "Int"
  | .loadStore => "Load"

/-- The name of the pool in a snapshot. -/
def key : Pool → String
  | .add => "add"
  | .mul => "mul"
  | .int => "int"
  | .loadStore => "load_store"

end Pool

/-- How an operation is written and what its operands are. -/
inductive Form where
  /-- A destination, and an address as offset and base register. -/
  | load
  /-- A value register, and an address as offset and base register. -/
  | store
  /-- A destination, a source register and a constant. -/
  | immediate
  /-- A destination and two source registers. -/
  | register
  /-- Two source registers, and a label or an offset. -/
  | branch
  /-- No operands. -/
  | bare
  deriving DecidableEq, Repr

inductive Opcode where
  | ld | lw | lS | lD
  | sd | sw | sD | sW
  | addi | subi | daddi | dsubi
  | add | sub | mul | div
  | addD | subD | mulD | divD
  | beq | bne
  | nop
  deriving DecidableEq, Repr

namespace Opcode

def all : List Opcode :=
  [.ld, .lw, .lS, .lD, .sd, .sw, .sD, .sW, .addi, .subi, .daddi, .dsubi, .add, .sub, .mul, .div,
    .addD, .subD, .mulD, .divD, .beq, .bne, .nop]

/-- How the operation is spelled in a program. -/
def mnemonic : Opcode → String
  | .ld => "LD"
  | .lw => "LW"
  | .lS => "L.S"
  | .lD => "L.D"
  | .sd => "SD"
  | .sw => "SW"
  | .sD => "S.D"
  | .sW => "S.W"
  | .addi => "ADDI"
  | .subi => "SUBI"
  | .daddi => "DADDI"
  | .dsubi => "DSUBI"
  | .add => "ADD"
  | .sub => "SUB"
  | .mul => "MUL"
  | .div => "DIV"
  | .addD => "ADD.D"
  | .subD => "SUB.D"
  | .mulD => "MUL.D"
  | .divD => "DIV.D"
  | .beq => "BEQ"
  | .bne => "BNE"
  | .nop => "NOP"

/-- The operation's name: its mnemonic with an underscore for the point. -/
def name : Opcode → String
  | .lS => "L_S"
  | .lD => "L_D"
  | .sD => "S_D"
  | .sW => "S_W"
  | .addD => "ADD_D"
  | .subD => "SUB_D"
  | .mulD => "MUL_D"
  | .divD => "DIV_D"
  | op => op.mnemonic

def ofName? (name : String) : Option Opcode :=
  all.find? (·.name == name)

def form : Opcode → Form
  | .ld | .lw | .lS | .lD => .load
  | .sd | .sw | .sD | .sW => .store
  | .addi | .subi | .daddi | .dsubi => .immediate
  | .add | .sub | .mul | .div | .addD | .subD | .mulD | .divD => .register
  | .beq | .bne => .branch
  | .nop => .bare

def isLoad (op : Opcode) : Bool :=
  op.form = .load

def isStore (op : Opcode) : Bool :=
  op.form = .store

/-- The operation has an address. -/
def isMemory (op : Opcode) : Bool :=
  op.isLoad || op.isStore

/-- The second operand of the operation is a constant. -/
def isImmediate (op : Opcode) : Bool :=
  op.form = .immediate

/-- The operation may continue elsewhere in the program. -/
def isBranch (op : Opcode) : Bool :=
  op.form = .branch

def isRegister (op : Opcode) : Bool :=
  op.form = .register

def definesDestination (op : Opcode) : Bool :=
  op.isLoad || op.isImmediate || op.isRegister

def pool : Opcode → Pool
  | .mul | .div | .mulD | .divD => .mul
  | op => match op.form with
    | .load | .store => .loadStore
    | .immediate | .branch => .int
    | .register | .bare => .add

/-- The value that an arithmetic operation yields for its two operands and its constant.  Any other
operation yields zero. -/
def evaluate (op : Opcode) (a b constant : Int) : Int :=
  match op with
  | .add | .addD => Word.add a b
  | .sub | .subD => Word.sub a b
  | .mul | .mulD => Word.mul a b
  | .div | .divD => Word.div a b
  | .addi | .daddi => Word.add a constant
  | .subi | .dsubi => Word.sub a constant
  | _ => 0

/-- Whether a branch on the two operands is taken.  Only `beq` asks for equal operands. -/
def taken (op : Opcode) (a b : Int) : Bool :=
  if op = .beq then a == b else a != b

end Opcode

end OutOfOrder
