import OutOfOrder.Machine.Execute
import OutOfOrder.Machine.Issue
import OutOfOrder.Machine.Writeback

/-!
# Cycles

A cycle ends the pauses of the last one, writes one result back, issues one instruction, and lets
every station take a step, in this order.  So a station that is freed may be issued to in the same
cycle, and what is issued or received in a cycle takes its first step in the next one.

A cycle is broken off where something happens that cannot be told: what was done by then stays done,
and the rest of the cycle does not take place.

A simulation is a machine with the events that nobody has taken yet.
-/

namespace OutOfOrder

/-- One cycle of the machine, and what happened in it.  Nothing behind the first happening that
cannot be told is done. -/
def Machine.advance (m : Machine) : Machine × List Happening :=
  let m := { m with cycle := m.cycle + 1, bank := m.bank.map Station.endPause }
  let (m, written) := m.writeback
  if !isTold written then (m, .cycleStarted :: written)
  else
    let (m, issued) := m.issue
    let (m, executed) := m.execute
    (m, .cycleStarted :: written ++ issued ++ executed)

/-- A machine, and its events since they were last taken. -/
structure Simulation where
  machine : Machine
  buffer : Array Event := #[]

/-- What a cycle leaves behind that was broken off, and why it was. -/
structure Breakdown where
  simulation : Simulation
  obstacle : Obstacle

namespace Simulation

def advance (sim : Simulation) : Except Breakdown Simulation :=
  let (machine, log) := sim.machine.advance
  let told := log.takeWhile Happening.isTellable
  let sim := ⟨machine, sim.buffer ++ told.map (Event.mk machine.cycle)⟩
  match log.findSome? Happening.obstacle? with
  | none => .ok sim
  | some obstacle => .error ⟨sim, obstacle⟩

/-- As many cycles as given, up to one that is broken off. -/
def advanceBy : Nat → Simulation → Except Breakdown Simulation
  | 0, sim => .ok sim
  | count + 1, sim => sim.advance.bind (advanceBy count)

/-- Cycles until the machine is idle, at most as many as given and up to one that is broken off.
Yields the number of cycles also. -/
def run : Nat → Simulation → Except Breakdown (Nat × Simulation)
  | 0, sim => .ok (0, sim)
  | limit + 1, sim =>
    if sim.machine.isIdle then .ok (0, sim)
    else do
      let (cycles, sim) ← run limit (← sim.advance)
      return (cycles + 1, sim)

def drain (sim : Simulation) : List Event × Simulation :=
  (sim.buffer.toList, { sim with buffer := #[] })

end Simulation

end OutOfOrder
