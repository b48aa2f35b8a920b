import OutOfOrder.Proofs.Ledger
import OutOfOrder.Proofs.Phases

/-!
# Runs

A run is what a simulation makes of a list of actions: cycles, and changes
from outside between them.  A cycle that is broken off is part of the run, with
what it leaves behind.

A property of machines and ledgers holds along every run if each phase of a
cycle and each action from outside keeps it.
-/

namespace OutOfOrder

/-- A cycle, or a change of the machine from outside. -/
inductive Action where
  | cycle
  | load (program : List Instruction)
  | writeRegister (name : String) (value : Int)
  | storeWord (address value : Int)
  | fillBlock (address : Int)
  deriving DecidableEq, Repr

/-- The ledger after a cycle of a machine, of which it hears what was told. -/
def Ledger.afterCycle (ledger : Ledger) (m : Machine) : Ledger :=
  ledger.noteAll (m.advance.2.takeWhile Happening.isTellable)

namespace Simulation

/-- A machine without a program, before anything has happened. -/
def fresh (config : Config) (preload : List (Int × Int)) : Simulation where
  machine := .create config preload

/-- One cycle, be it completed or broken off. -/
def cycle (sim : Simulation) : Simulation :=
  match sim.advance with
  | .ok sim => sim
  | .error breakdown => breakdown.simulation

def act (sim : Simulation) : Action → Simulation
  | .cycle => sim.cycle
  | .load program => { sim with machine := sim.machine.load program }
  | .writeRegister name value =>
    { sim with machine := sim.machine.writeRegister name value }
  | .storeWord address value =>
    { sim with machine := sim.machine.storeWord address value }
  | .fillBlock address =>
    { sim with machine := sim.machine.fillBlock address }

def after (sim : Simulation) (actions : List Action) : Simulation :=
  actions.foldl act sim

/-- A simulation before its first cycle, whose registers and memory have been
written from outside. -/
def prepared (config : Config) (preload : List (Int × Int))
    (registers : List (String × Int)) (words : List (Int × Int)) :
    Simulation :=
  (fresh config preload).after
    (registers.map (fun (name, value) => .writeRegister name value) ++
      words.map fun (address, value) => .storeWord address value)

/-- A program loaded into a simulation and run for a number of cycles. -/
def running (start : Simulation) (program : List Instruction) (cycles : Nat) :
    Simulation :=
  (start.act (.load program)).after (.replicate cycles .cycle)

/-- What happened in a simulation since its events were last taken. -/
def happenings (sim : Simulation) : List Happening :=
  sim.buffer.toList.map (·.happening)

def ledger (sim : Simulation) : Ledger :=
  ({} : Ledger).noteAll (sim.buffer.toList.map (·.happening))

/-! ## Cycles -/

/-- Completed or broken off, a cycle leaves behind what the machine's cycle
does and what could be told of it. -/
theorem cycle_eq (sim : Simulation) :
    sim.cycle =
      ⟨sim.machine.advance.1,
        sim.buffer ++ (sim.machine.advance.2.takeWhile Happening.isTellable).map
          (Event.mk sim.machine.advance.1.cycle)⟩ := by
  unfold cycle advance
  dsimp only
  cases sim.machine.advance.2.findSome? Happening.obstacle? <;> rfl

theorem machine_cycle (sim : Simulation) :
    sim.cycle.machine = sim.machine.advance.1 := by
  rw [cycle_eq]

theorem happenings_cycle (sim : Simulation) :
    sim.cycle.happenings = sim.happenings ++
      sim.machine.advance.2.takeWhile Happening.isTellable := by
  rw [cycle_eq]
  simp [happenings, Function.comp_def]

theorem ledger_cycle (sim : Simulation) :
    sim.cycle.ledger = sim.ledger.afterCycle sim.machine := by
  have hnoted : sim.cycle.ledger =
      ({} : Ledger).noteAll sim.cycle.happenings := rfl
  rw [hnoted, happenings_cycle, Ledger.noteAll_append]
  rfl

theorem after_append (sim : Simulation) (actions more : List Action) :
    sim.after (actions ++ more) = (sim.after actions).after more :=
  List.foldl_append

/-! ## Before the first cycle -/

theorem after_writeRegisters (sim : Simulation)
    (registers : List (String × Int)) :
    sim.after (registers.map fun (name, value) => .writeRegister name value) =
      { sim with machine := { sim.machine with
          registers := sim.machine.registers.writeAll registers } } := by
  induction registers generalizing sim with
  | nil => rfl
  | cons entry rest ih => exact ih (sim.act (.writeRegister entry.1 entry.2))

theorem after_storeWords (sim : Simulation) (words : List (Int × Int)) :
    sim.after (words.map fun (address, value) => .storeWord address value) =
      { sim with machine := { sim.machine with
          cache := words.foldl (fun cache (address, value) =>
            cache.storeWord address value) sim.machine.cache } } := by
  induction words generalizing sim with
  | nil => rfl
  | cons entry rest ih => exact ih (sim.act (.storeWord entry.1 entry.2))

/-- What is prepared differs from what is fresh in its registers and in its
memory. -/
theorem prepared_eq (config : Config) (preload : List (Int × Int))
    (registers : List (String × Int)) (words : List (Int × Int)) :
    prepared config preload registers words =
      { machine := { Machine.create config preload with
          registers := RegisterFile.initial.writeAll registers
          cache := words.foldl (fun cache (address, value) =>
            cache.storeWord address value)
              (Machine.create config preload).cache } } := by
  rw [prepared, after_append, after_writeRegisters, after_storeWords]
  rfl

theorem bank_prepared (config : Config) (preload : List (Int × Int))
    (registers : List (String × Int)) (words : List (Int × Int)) :
    (prepared config preload registers words).machine.bank =
      (Machine.create config preload).bank := by
  rw [prepared_eq]

theorem registers_prepared (config : Config) (preload : List (Int × Int))
    (registers : List (String × Int)) (words : List (Int × Int)) :
    (prepared config preload registers words).machine.registers =
      RegisterFile.initial.writeAll registers := by
  rw [prepared_eq]

theorem happenings_prepared (config : Config) (preload : List (Int × Int))
    (registers : List (String × Int)) (words : List (Int × Int)) :
    (prepared config preload registers words).happenings = [] := by
  rw [prepared_eq]
  rfl

theorem ledger_prepared (config : Config) (preload : List (Int × Int))
    (registers : List (String × Int)) (words : List (Int × Int)) :
    (prepared config preload registers words).ledger = {} := by
  rw [prepared_eq]
  rfl

end Simulation

theorem Machine.map_instruction_stamped (first : Nat)
    (program : List Instruction) :
    (stamped first program).map (·.instruction) = program := by
  apply List.ext_getElem?
  intro index
  rw [stamped, List.getElem?_map, List.getElem?_mapIdx, Option.map_map]
  exact congrFun Option.map_id program[index]?

/-! ## What every phase keeps -/

/-- Who takes no notes of execution has the same notes behind it. -/
theorem foldl_of_isExecution {Notes : Type} {note : Notes → Happening → Notes}
    (hquiet : ∀ notes happening, happening.kind.isExecution = true →
      note notes happening = notes) {log : List Happening}
    (hlog : ∀ happening ∈ log, happening.kind.isExecution = true)
    (notes : Notes) : log.foldl note notes = notes := by
  induction log generalizing notes with
  | nil => rfl
  | cons happening rest ih =>
      rw [List.foldl_cons, hquiet _ _ (hlog happening (by simp))]
      exact ih (fun other hother => hlog other (by simp [hother])) notes

/-- What a cycle makes of a property of machines and of the notes that somebody
takes of a run, from what its phases make of it.  Nothing is noted of the start
of a cycle and of execution.  A cycle whose write-back cannot be told ends with
it, and every other one goes on to issue and execute. -/
theorem Machine.advance_phases {Notes : Type}
    (note : Notes → Happening → Notes)
    (hstart : ∀ notes, note notes .cycleStarted = notes)
    (hquiet : ∀ notes happening, happening.kind.isExecution = true →
      note notes happening = notes)
    {P Q R : Machine → Notes → Prop}
    (hbegin : ∀ m notes, P m notes → P m.begin notes)
    (huntold : ∀ m notes m' log, m.WritesBack m' log → isTold log = false →
      P m notes →
      R m' ((log.takeWhile Happening.isTellable).foldl note notes))
    (htold : ∀ m notes m' log, m.WritesBack m' log → isTold log = true →
      P m notes →
      Q m' ((log.takeWhile Happening.isTellable).foldl note notes))
    (hissue : ∀ m notes m' log, m.Issues m' log → Q m notes →
      Q m' (log.foldl note notes))
    (hexecute : ∀ m notes, Q m notes → R m.execute.1 notes)
    {m : Machine} {notes : Notes} (h : P m notes) :
    R m.advance.1
      ((m.advance.2.takeWhile Happening.isTellable).foldl note notes) := by
  have hbegun := hbegin m notes h
  have hphase := m.begin.writeback_writesBack
  cases hall : isTold m.begin.writeback.2 with
  | false =>
      have hbroken := huntold _ _ _ _ hphase hall hbegun
      rw [advance_of_untold hall, List.takeWhile_cons_of_pos rfl,
        List.foldl_cons, hstart]
      exact hbroken
  | true =>
      have hwritten := htold _ _ _ _ hphase hall hbegun
      have hissues := m.begin.writeback.1.issue_issues
      rw [takeWhile_isTellable_of_isTold hall] at hwritten
      have hexecuted := hexecute _ _ (hissue _ _ _ _ hissues hwritten)
      have htellable := takeWhile_advance hall
      rw [htellable, advance_of_told hall,
        List.foldl_append, foldl_of_isExecution hquiet fun _ hmem =>
          isExecution_of_mem_execute (mem_of_mem_takeWhile_isTellable hmem),
        List.foldl_append, List.foldl_cons, hstart]
      exact hexecuted

/-- What a cycle makes of a property of machines and ledgers, from what its
phases make of it. -/
theorem Machine.advance_cases {P Q R : Machine → Ledger → Prop}
    (hbegin : ∀ m ledger, P m ledger → P m.begin ledger)
    (huntold : ∀ m ledger m' log, m.WritesBack m' log → isTold log = false →
      P m ledger → R m' (ledger.noteAll (log.takeWhile Happening.isTellable)))
    (htold : ∀ m ledger m' log, m.WritesBack m' log → isTold log = true →
      P m ledger → Q m' (ledger.noteAll (log.takeWhile Happening.isTellable)))
    (hissue : ∀ m ledger m' log, m.Issues m' log → Q m ledger →
      Q m' (ledger.noteAll log))
    (hexecute : ∀ m ledger, Q m ledger → R m.execute.1 ledger)
    {m : Machine} {ledger : Ledger} (h : P m ledger) :
    R m.advance.1 (ledger.afterCycle m) :=
  advance_phases Ledger.note (fun _ => rfl)
    (fun ledger _ hkind => Ledger.note_of_isExecution hkind ledger)
    hbegin huntold htold hissue hexecute h

/-- What the write-back phase makes of one property into another, which issue and
execution keep, a cycle does as well, be it completed or broken off. -/
theorem Machine.advance_induction {P Q : Machine → Ledger → Prop}
    (hbegin : ∀ m ledger, P m ledger → P m.begin ledger)
    (hwriteback : ∀ m ledger m' log, m.WritesBack m' log → P m ledger →
      Q m' (ledger.noteAll (log.takeWhile Happening.isTellable)))
    (hissue : ∀ m ledger m' log, m.Issues m' log → Q m ledger →
      Q m' (ledger.noteAll log))
    (hexecute : ∀ m ledger, Q m ledger → Q m.execute.1 ledger)
    {m : Machine} {ledger : Ledger} (h : P m ledger) :
    Q m.advance.1 (ledger.afterCycle m) :=
  advance_cases hbegin
    (fun m ledger m' log hphase _ => hwriteback m ledger m' log hphase)
    (fun m ledger m' log hphase _ => hwriteback m ledger m' log hphase)
    hissue hexecute h

theorem Machine.advance_keeps {P : Machine → Prop}
    (hbegin : ∀ m, P m → P m.begin)
    (hwriteback : ∀ m m' log, m.WritesBack m' log → P m → P m')
    (hissue : ∀ m m' log, m.Issues m' log → P m → P m')
    (hexecute : ∀ m, P m → P m.execute.1) {m : Machine} (h : P m) :
    P m.advance.1 :=
  @advance_induction (fun m _ => P m) (fun m _ => P m)
    (fun m _ => hbegin m) (fun m _ => hwriteback m) (fun m _ => hissue m)
    (fun m _ => hexecute m) m {} h

/-- A property that cycles and changes from outside keep holds along a run. -/
theorem Simulation.after_induction {P : Machine → Ledger → Prop}
    (hcycle : ∀ m ledger, P m ledger →
      P m.advance.1 (ledger.afterCycle m))
    (hload : ∀ m ledger program, P m ledger → P (m.load program) ledger)
    (hwrite : ∀ m ledger name value, P m ledger →
      P (m.writeRegister name value) ledger)
    (hstore : ∀ m ledger address value, P m ledger →
      P (m.storeWord address value) ledger)
    (hfill : ∀ m ledger address, P m ledger → P (m.fillBlock address) ledger)
    {sim : Simulation} (h : P sim.machine sim.ledger) (actions : List Action) :
    P (sim.after actions).machine (sim.after actions).ledger := by
  induction actions generalizing sim with
  | nil => exact h
  | cons action rest ih =>
      apply ih
      cases action with
      | cycle =>
          rw [act, machine_cycle, ledger_cycle]
          exact hcycle _ _ h
      | load program => exact hload _ _ program h
      | writeRegister name value => exact hwrite _ _ name value h
      | storeWord address value => exact hstore _ _ address value h
      | fillBlock address => exact hfill _ _ address h

/-- A property of machines and of the notes taken of a run that cycles keep holds
of a program after any number of them, if it holds when the program has been
loaded. -/
theorem Simulation.running_notes {Notes : Type}
    (note : Notes → Happening → Notes) {P : Machine → Notes → Prop}
    (hcycle : ∀ m notes, P m notes → P m.advance.1
      ((m.advance.2.takeWhile Happening.isTellable).foldl note notes))
    {start : Simulation} {program : List Instruction} {notes : Notes}
    (h : P (start.machine.load program) (start.happenings.foldl note notes))
    (cycles : Nat) :
    P (start.running program cycles).machine
      ((start.running program cycles).happenings.foldl note notes) := by
  induction cycles with
  | zero => exact h
  | succ cycles ih =>
      have hsplit : start.running program (cycles + 1) =
          (start.running program cycles).cycle := by
        rw [running, List.replicate_succ', after_append]
        rfl
      rw [hsplit, machine_cycle, happenings_cycle, List.foldl_append]
      exact hcycle _ _ ih

/-- A property that cycles keep holds of a program after any number of them, if
it holds when the program has been loaded. -/
theorem Simulation.running_induction {P : Machine → Ledger → Prop}
    (hcycle : ∀ m ledger, P m ledger →
      P m.advance.1 (ledger.afterCycle m))
    {start : Simulation} {program : List Instruction}
    (h : P (start.machine.load program) start.ledger) (cycles : Nat) :
    P (start.running program cycles).machine
      (start.running program cycles).ledger :=
  running_notes Ledger.note hcycle h cycles

end OutOfOrder
