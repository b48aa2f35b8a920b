import OutOfOrder.CommandLine.Arguments
import OutOfOrder.CommandLine.Assignment
import OutOfOrder.CommandLine.ProgramFile
import OutOfOrder.Monitor
import OutOfOrder.Report

/-!
# Sessions

A session of the command line sets a machine up, runs it, and prints the events and the final
report.  It is a function of the arguments and the program file.  A session fails without a response
where an integer cannot be written, or where an option that is needed is given without a value.
-/

namespace OutOfOrder.CommandLine

/-- What a session leaves behind: the exit code, and the lines printed and the lines of errors and
the log. -/
structure Response where
  exitCode : UInt32
  output : List String := []
  errors : List String := []

def printed (lines : List String) : String :=
  String.join (lines.map (· ++ "\n"))

/-- Why a session fails without a response. -/
inductive Fault where
  /-- Something cannot be told. -/
  | untold (obstacle : Obstacle)
  /-- The option for the number of cycles has no value. -/
  | cyclesMissing
  /-- The option for the greatest number of cycles has no value, and one is needed. -/
  | limitMissing
  /-- An option for an assignment has no value. -/
  | assignmentMissing
  deriving DecidableEq, Repr

def Fault.message : Fault → String
  | .untold obstacle => obstacle.message
  | .cyclesMissing =>
    "'<' not supported between instances of " ++ "'list'" ++ " and " ++ "'int'"
  | .limitMissing => "'list' object cannot be interpreted as an integer"
  | .assignmentMissing => "'list' object has no attribute " ++ "'partition'"

/-- Why a session ends before its machine runs. -/
inductive SetupError where
  | program (error : ProgramError)
  | config (error : ConfigError)
  | assignment (error : AssignmentError)
  | negativeCycles (cycles : Int)
  | fault (reason : Fault)

def SetupError.message : SetupError → String
  | .program error => error.message
  | .config error => error.message
  | .assignment error => error.message
  | .negativeCycles cycles => "--cycles must be non-negative, got " ++ toString cycles
  | .fault reason => reason.message

def readAssignments {α : Type} (parse : List Char → Except AssignmentError α)
    (texts : List (Option String)) : Except SetupError (List α) :=
  texts.mapM fun
    | none => .error (.fault .assignmentMissing)
    | some text => (parse text.toList).mapError .assignment

/-- Checks that the number of cycles to run, if there is one, is no negative number. -/
def checkCycles : Option (Option Int) → Except SetupError Unit
  | none => .ok ()
  | some none => .error (.fault .cyclesMissing)
  | some (some cycles) => if cycles < 0 then .error (.negativeCycles cycles) else .ok ()

/-- The machine that the arguments describe, with the program loaded.  The configuration is looked
at first, then the registers, the memory words and the number of cycles. -/
def Arguments.machine (arguments : Arguments) (program : List Instruction) :
    Except SetupError Machine := do
  let config ← (Config.ofSettings arguments.settings).mapError .config
  let registers ← readAssignments parseRegisterAssignment arguments.registers
  let words ← readAssignments parseMemoryAssignment arguments.pokes
  checkCycles arguments.cycles
  let m := Machine.create config (if arguments.demoMemory then OutOfOrder.demoMemory else [])
  let m := { m with registers := (m.registers.writeAll arguments.preset).writeAll registers }
  let m := words.foldl (fun m (address, value) => m.storeWord address value) m
  return m.load program

def shownLog (verbose : Bool) (log : List LogRecord) : List String :=
  (log.filter fun record => verbose || record.level ≠ .debug).map LogRecord.line

/-- The events that are printed: all but the starts of cycles. -/
def eventLines (events : List Event) : List String :=
  (events.filter (·.happening ≠ .cycleStarted)).map Event.display

def Arguments.respond (arguments : Arguments) (run : MonitoredRun) : Except Fault Response :=
  let m := run.simulation.machine
  match run.ending with
  | .brokenOff obstacle => .error (.untold obstacle)
  | .alarm alarm => .ok { exitCode := 1, errors := ["Check failed: " ++ alarm.message] }
  | .completed => do
    let report ← m.snapshot.report.mapError .untold
    let events := if arguments.quiet then [] else eventLines run.events ++ [""]
    let unfinished := arguments.cycles.isNone && !m.isIdle
    return {
      exitCode := 0
      output := events ++ report
      errors :=
        if unfinished then [s!"Warning: not idle after {arguments.maxCycles.getD 0} cycles"]
        else [] }

def Arguments.run (arguments : Arguments) (m : Machine) : Except Fault MonitoredRun := do
  let rules := if arguments.check then Rule.all else []
  let limit? := match arguments.cycles with
    | some cycles => cycles
    | none => arguments.maxCycles
  match limit? with
  | none => .error .limitMissing
  | some limit =>
    return Simulation.runMonitored arguments.cycles.isNone rules limit.toNat { machine := m } {}

def Arguments.simulate (arguments : Arguments) (assembled : Assembly.Assembled) :
    Except Fault Response := do
  let shown := shownLog arguments.verbose
  match arguments.machine assembled.program with
  | .error (.fault reason) => throw reason
  | .error error =>
    return { exitCode := 1, errors := shown assembled.log ++ ["Error: " ++ error.message] }
  | .ok m =>
    let run ← arguments.run m
    let loaded : LogRecord := ⟨.debug, .commandLine,
      s!"Loaded {assembled.program.length} instructions from " ++ arguments.program⟩
    let log := assembled.log ++ loaded :: run.events.map Event.record
    let response ← arguments.respond run
    return { response with errors := shown log ++ response.errors }

def Stop.response : Stop → Response
  | .refused error => { exitCode := 2, errors := ["tomasim: error: " ++ error.message] }
  | .version => { exitCode := 0, output := ["tomasim 0.1.0"] }
  | .help =>
    { exitCode := 0
      output := "usage: tomasim [option ...] program" :: "" :: "options:" ::
        spellings.map fun spelling => "  " ++ spelling.1 }

/-- The session that the arguments ask for, where `file` yields the bytes of the program file. -/
def session (arguments : Except Stop Arguments) (file : Except FileError (List UInt8)) :
    Except Fault Response :=
  match arguments with
  | .error stop => .ok stop.response
  | .ok arguments =>
    let path := normalizePath arguments.program.toList
    let assembled := do
      let bytes ← file.mapError (ProgramError.unreadable path)
      readProgram (!arguments.numericBranches) bytes
    match assembled with
    | .error error =>
      .ok { exitCode := 1, errors := ["Error: " ++ (SetupError.program error).message] }
    | .ok assembled => arguments.simulate assembled

end OutOfOrder.CommandLine
