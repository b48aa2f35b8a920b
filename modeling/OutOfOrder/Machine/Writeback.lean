import OutOfOrder.Event
import OutOfOrder.Machine.State

/-!
# Write-back

In a cycle at most one station has the result bus.  A store changes memory then, a branch may change
what is issued next, and every other instruction gives its value to its destination register and to
the stations that wait for it.  The station is free before the value goes round.
-/

namespace OutOfOrder

def Station.result (station : Station) (ins : Instruction) : Int :=
  ins.opcode.evaluate station.j.value station.k.value ins.constant

namespace Machine

/-- Gives the value of a station to the register that it defines and to the stations that wait for
it. -/
def publish (m : Machine) (producer : String) (ins : Instruction) (value : Int) :
    Machine × List Happening :=
  let registers := match ins.target? with
    | some register => (m.registers.write register value).clearTag register producer
    | none => m.registers
  ({ m with registers, bank := m.bank.broadcast producer value },
    (m.bank.hearers producer).map fun station => .received station producer value)

/-- Continues behind a branch.  A taken branch jumps from the next instruction to be issued, and
does nothing if the program has no instruction there. -/
def redirect (m : Machine) (station : Station) (ins : Instruction) : Machine × List Happening :=
  let a := station.j.value
  let b := station.k.value
  let index := (m.issuedCount : Int) + ins.constant
  if !ins.opcode.taken a b then (m, [.notTaken station.name a b])
  else match if index < 0 then none else m.program[index.toNat]? with
    | none => (m, [.outOfRange station.name index m.program.length])
    | some next =>
      ({ m with queue := m.program.drop index.toNat, issuedCount := index.toNat },
        [.taken station.name index.toNat next.instruction a b])

/-- Carries out what a station's instruction does before the station is free: a store changes memory
and a branch the instructions to be issued. -/
def settle (m : Machine) (station : Station) (ins : Instruction) : Machine × List Happening :=
  match ins.opcode.form with
  | .store =>
    let value := station.k.value
    ({ m with cache := m.cache.writeWord station.address value },
      [.stored station.name value station.address])
  | .branch =>
    let (m, log) := m.redirect station ins
    (m, .resolved station.name ins :: log)
  | .load => (m, [.loaded station.name (m.cache.readWord station.address) station.address])
  | _ => (m, [.computed station.name (station.result ins)])

/-- The value that a station's instruction yields.  Stores and branches yield none. -/
def product? (m : Machine) (station : Station) (ins : Instruction) : Option Int :=
  match ins.opcode.form with
  | .store | .branch => none
  | .load => some (m.cache.readWord station.address)
  | _ => some (station.result ins)

/-- Frees the station that has the bus, whose instruction is settled, and sends its value round. -/
def complete (m : Machine) (station : Station) (ins : Instruction) : Machine × List Happening :=
  let released := { m with bank := m.bank.changeFirst Station.asksForBus Station.release }
  match m.product? station ins with
  | none => (released, [])
  | some value => released.publish station.name ins value

/-- Lets the first station that asks for the bus have it.  The station keeps its instruction where
the outcome cannot be told, and is stuck if it has none. -/
def writeback (m : Machine) : Machine × List Happening :=
  match m.bank.granted? with
  | none => (m, [])
  | some station =>
    match station.instruction? with
    | none => (m, [.stuck station.name])
    | some ins =>
      let (m, settled) := m.settle station ins
      if !isTold settled then (m, settled)
      else
        let (m, received) := m.complete station ins
        (m, settled ++ received)

end Machine

end OutOfOrder
