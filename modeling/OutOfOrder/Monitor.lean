import OutOfOrder.Machine.Cycle
import OutOfOrder.Text.Quoted

/-!
# Monitors

A monitor watches a machine: it may take a sample before a cycle, and judges the machine after the
cycle together with the cycle's events, of which it sees the kind and the station.

* The bus monitor: at most one result crosses the bus.
* The tag monitor: every tag names a station at work that is going to write the register, and `R0`
  has none.
* The pause monitor: no station starts in the cycle in which it was issued to or received an operand.
* The port monitor: at most one station uses the load/store port.
-/

namespace OutOfOrder

structure Signal where
  kind : EventKind
  station : Option String
  deriving DecidableEq, Repr

def Event.signal (event : Event) : Signal :=
  ⟨event.happening.kind, event.happening.station?⟩

/-- What a monitor watches over. -/
inductive Rule where
  | bus
  | tags
  | pause
  | port
  deriving DecidableEq, Repr

namespace Rule

/-- Every rule, in the order in which they are checked. -/
def all : List Rule :=
  [.bus, .tags, .pause, .port]

def name : Rule → String
  | .bus => "CommonDataBusMonitor"
  | .tags => "RegisterTagMonitor"
  | .pause => "BubbleMonitor"
  | .port => "LoadStoreUnitMonitor"

def ofName? (name : String) : Option Rule :=
  all.find? (·.name == name)

end Rule

/-- How a machine broke a rule. -/
inductive Violation where
  /-- These stations wrote back in one cycle. -/
  | manyWritebacks (stations : List (Option String))
  /-- These stations stopped asking for the bus in one cycle. -/
  | manyLeft (stations : List String)
  /-- There is no station any more of the name that a sampled one had. -/
  | lostStation (station : String)
  | zeroTagged (tag : String)
  | freeStation (register tag : String)
  /-- The station of the tag is at work without an instruction. -/
  | emptyStation (register tag : String)
  | wrongProducer (register tag : String) (ins : Instruction)
  | startInPause (station : Option String)
  /-- These stations used the port in one cycle. -/
  | sharedPort (stations : List String)
  deriving DecidableEq, Repr

def nameList (names : List (Option String)) : String :=
  let shown := names.map fun
    | some name => Text.quote name
    | none => "None"
  "[" ++ String.intercalate ", " shown ++ "]"

def Violation.message : Violation → String
  | .manyWritebacks stations =>
    toString stations.length ++ " writebacks: " ++ nameList stations
  | .manyLeft stations =>
    toString stations.length ++ " stations left ResultPending: " ++ nameList (stations.map some)
  | .lostStation _ => "'NoneType' object has no attribute " ++ "'instruction'"
  | .zeroTagged tag => zeroRegister ++ " tagged with " ++ tag
  | .freeStation register tag => register ++ " tagged with free station " ++ tag
  | .emptyStation _ _ => "'NoneType' object has no attribute " ++ "'dest'"
  | .wrongProducer register tag ins =>
    register ++ " tagged with " ++ tag ++ " which holds " ++ ins.display
  | .startInPause station => station.getD "None" ++ " started executing in its bubble cycle"
  | .sharedPort stations => "port used by " ++ nameList (stations.map some)

/-- What a monitor keeps from cycle to cycle. -/
structure Monitor where
  /-- The stations of the last sample, by name. -/
  sample : Directory String Station := {}
  /-- The cycles that were found to keep the rule. -/
  cyclesChecked : Nat := 0

namespace Monitor

/-- The stations by name. -/
def byName (stations : List Station) : Directory String Station :=
  .ofList (stations.map fun station => (station.name, station))

/-- Takes the sample that the rule needs: the stations that ask for the bus, or those at work on a
memory access. -/
def beforeCycle (rule : Rule) (m : Machine) (monitor : Monitor) : Monitor :=
  match rule with
  | .bus => { monitor with sample := byName (m.bank.filter (·.asksForBus)) }
  | .port => { monitor with sample := byName ((m.bank.ofPool .loadStore).filter (·.busy)) }
  | .tags | .pause => monitor

/-- Counts a cycle that was found to keep the rule. -/
def count (monitor : Monitor) : Monitor :=
  { monitor with cyclesChecked := monitor.cyclesChecked + 1 }

/-- A sampled station no longer asks for the bus with the instruction it had. -/
def hasLeft (m : Machine) (sampled : Station) : Bool :=
  match m.bank.station? sampled.name with
  | some station => station.held ≠ sampled.held || !station.resultPending
  | none => true

def checkLeft (sampled : List Station) (m : Machine) : Option Violation :=
  match sampled.find? fun station => (m.bank.station? station.name).isNone with
  | some station => some (.lostStation station.name)
  | none =>
    let left := (sampled.filter (hasLeft m)).map (·.name)
    if 1 < left.length then some (.manyLeft left) else none

def checkBus (sample : Directory String Station) (m : Machine) (signals : List Signal) :
    Option Violation :=
  let writebacks := (signals.filter (·.kind = .writeback)).map (·.station)
  if 1 < writebacks.length then some (.manyWritebacks writebacks)
  else checkLeft (sample.entries.map (·.2)) m

def checkTag (m : Machine) (register tag : String) : Option Violation :=
  match (m.bank.station? tag).filter (·.busy) with
  | none => some (.freeStation register tag)
  | some station =>
    match station.instruction? with
    | none => some (.emptyStation register tag)
    | some ins =>
      if ins.target? = some register then none else some (.wrongProducer register tag ins)

def checkTags (m : Machine) : Option Violation :=
  match m.registers.tags.get? zeroRegister with
  | some tag => some (.zeroTagged tag)
  | none => m.registers.tags.entries.findSome? fun (register, tag) => checkTag m register tag

def checkPauses (signals : List Signal) : Option Violation :=
  let paused := signals.filter fun signal => signal.kind = .issue || signal.kind = .broadcast
  let started := signals.filter (·.kind = .execStart)
  (started.find? fun signal => paused.any (·.station = signal.station)).map
    (.startInPause ·.station)

/-- The station used the port since the sample.  A station that has another instruction since then
began without the port. -/
def usedPort (sample : Directory String Station) (station : Station) : Bool :=
  let before := match sample.get? station.name with
    | some sampled => if sampled.held = station.held then sampled.portCycles else 0
    | none => 0
  before < station.portCycles

def checkPort (sample : Directory String Station) (m : Machine) : Option Violation :=
  let users := ((m.bank.ofPool .loadStore).filter fun station =>
    station.busy && usedPort sample station).map (·.name)
  if 1 < users.length then some (.sharedPort users) else none

/-- Judges the cycle that just ran. -/
def check (rule : Rule) (monitor : Monitor) (m : Machine) (signals : List Signal) :
    Option Violation :=
  match rule with
  | .bus => checkBus monitor.sample m signals
  | .tags => checkTags m
  | .pause => checkPauses signals
  | .port => checkPort monitor.sample m

end Monitor

/-- A violation with the rule and the cycle in which it was found. -/
structure Alarm where
  rule : Rule
  cycle : Nat
  violation : Violation
  deriving DecidableEq, Repr

/-- The station that a rule has to look into is not there, or holds no instruction. -/
def Violation.isBlind : Violation → Bool
  | .lostStation _ | .emptyStation .. => true
  | _ => false

/-- The wording of an alarm.  It tells where it was raised, unless the rule is blind. -/
def Alarm.message (alarm : Alarm) : String :=
  if alarm.violation.isBlind then alarm.violation.message
  else s!"{alarm.rule.name} at cycle {alarm.cycle}: " ++ alarm.violation.message

/-- One monitor for each rule. -/
structure Panel where
  bus : Monitor := {}
  tags : Monitor := {}
  pause : Monitor := {}
  port : Monitor := {}

namespace Panel

def monitor (panel : Panel) : Rule → Monitor
  | .bus => panel.bus
  | .tags => panel.tags
  | .pause => panel.pause
  | .port => panel.port

def update (panel : Panel) (rule : Rule) (change : Monitor → Monitor) : Panel :=
  match rule with
  | .bus => { panel with bus := change panel.bus }
  | .tags => { panel with tags := change panel.tags }
  | .pause => { panel with pause := change panel.pause }
  | .port => { panel with port := change panel.port }

def beforeCycle (panel : Panel) (m : Machine) (rule : Rule) : Panel :=
  panel.update rule (Monitor.beforeCycle rule m)

/-- Judges the cycle that just ran by a rule, and counts it unless there is an alarm. -/
def observe (panel : Panel) (m : Machine) (signals : List Signal) (rule : Rule) :
    Except Alarm Panel :=
  match (panel.monitor rule).check rule m signals with
  | some violation => .error ⟨rule, m.cycle, violation⟩
  | none => .ok (panel.update rule Monitor.count)

/-- Judges a cycle by one rule after another, up to the first alarm.  A rule that is named twice
judges, and counts, twice. -/
def observeAll (panel : Panel) (m : Machine) (signals : List Signal) :
    List Rule → Panel × Option Alarm
  | [] => (panel, none)
  | rule :: rest =>
    match panel.observe m signals rule with
    | .error alarm => (panel, some alarm)
    | .ok panel => panel.observeAll m signals rest

end Panel

/-- How a run under monitors ends. -/
inductive RunEnd where
  /-- The cycles asked for are done. -/
  | completed
  | alarm (alarm : Alarm)
  /-- The last cycle was broken off. -/
  | brokenOff (obstacle : Obstacle)
  deriving DecidableEq, Repr

/-- A run under monitors: what it leaves behind, the events in order, and how it ended. -/
structure MonitoredRun where
  simulation : Simulation
  panel : Panel
  events : List Event
  ending : RunEnd

/-- Cycles under the monitors of the given rules, at most as many as given, and until the machine is
idle if that is asked for.  Events are taken in every cycle, other than one that is broken off.  The
first alarm ends the run. -/
def Simulation.runMonitored (untilIdle : Bool) (rules : List Rule) :
    Nat → Simulation → Panel → MonitoredRun
  | 0, sim, panel => ⟨sim, panel, [], .completed⟩
  | limit + 1, sim, panel =>
    if untilIdle && sim.machine.isIdle then ⟨sim, panel, [], .completed⟩
    else
      let panel := rules.foldl (·.beforeCycle sim.machine) panel
      match sim.advance with
      | .error ⟨sim, obstacle⟩ => ⟨sim, panel, [], .brokenOff obstacle⟩
      | .ok sim =>
        let (events, sim) := sim.drain
        match panel.observeAll sim.machine (events.map Event.signal) rules with
        | (panel, some alarm) => ⟨sim, panel, events, .alarm alarm⟩
        | (panel, none) =>
          let run := sim.runMonitored untilIdle rules limit panel
          { run with events := events ++ run.events }

end OutOfOrder
