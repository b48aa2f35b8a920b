import OutOfOrder.Event
import OutOfOrder.Machine.State

/-!
# Issue

In a cycle at most one instruction is issued, in the order of the program.  It goes to the first
free station of its pool, and waits as long as there is none.  Its sources are read before its
destination is renamed, so an instruction may read the register that it writes.
-/

namespace OutOfOrder

/-- The operand that a source register stands for: the station that is going to write it, or its
value. -/
def RegisterFile.operand (file : RegisterFile) : Option String → Operand
  | none => .absent
  | some name =>
    match file.tag? name with
    | some tag => .pending tag
    | none => .ready (file.read name)

/-- The second operand of an instruction.  A load has none. -/
def RegisterFile.secondOperand (file : RegisterFile) (ins : Instruction) : Operand :=
  match ins.opcode.form with
  | .load => .absent
  | .immediate => .ready ins.constant
  | _ => file.operand ins.src2

namespace Machine

def occupied (m : Machine) (station : Station) (next : Stamped) : Station :=
  let ins := next.instruction
  { station.occupy next (m.config.value ins.opcode.latency) with
    j := m.registers.operand ins.src1
    k := m.registers.secondOperand ins }

/-- Issues the next instruction if its pool has a free station. -/
def issue (m : Machine) : Machine × List Happening :=
  match m.queue with
  | [] => (m, [])
  | next :: rest =>
    let ins := next.instruction
    match m.bank.free? ins.opcode.pool with
    | none => (m, [.stalled ins])
    | some station =>
      let registers := match ins.target? with
        | some register => m.registers.setTag register station.name
        | none => m.registers
      ({ m with
          bank := m.bank.changeFirst (·.isFreeIn ins.opcode.pool) (m.occupied · next)
          registers
          queue := rest
          issuedCount := m.issuedCount + 1 },
        [.issued station.name ins])

end Machine

end OutOfOrder
