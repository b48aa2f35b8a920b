import OutOfOrder.Isa.Instruction
import OutOfOrder.Log
import OutOfOrder.Text.Numeral

/-!
# Events

What a machine does in a cycle shows as a sequence of events, each of which is told in words.  What
involves an integer that has too many digits to be written cannot be told, nor can what a station
does that is at work without an instruction.
-/

namespace OutOfOrder

inductive EventKind where
  | cycle
  | issue
  | stall
  | address
  | cacheHit
  | cacheMiss
  | cacheFill
  | execStart
  | execFinish
  | writeback
  | broadcast
  | branchTaken
  | branchNotTaken
  | branchOutOfRange
  deriving DecidableEq, Repr

namespace EventKind

def all : List EventKind :=
  [.cycle, .issue, .stall, .address, .cacheHit, .cacheMiss, .cacheFill, .execStart, .execFinish,
    .writeback, .broadcast, .branchTaken, .branchNotTaken, .branchOutOfRange]

def name : EventKind → String
  | .cycle => "CYCLE"
  | .issue => "ISSUE"
  | .stall => "STALL"
  | .address => "ADDRESS"
  | .cacheHit => "CACHE_HIT"
  | .cacheMiss => "CACHE_MISS"
  | .cacheFill => "CACHE_FILL"
  | .execStart => "EXEC_START"
  | .execFinish => "EXEC_FINISH"
  | .writeback => "WRITEBACK"
  | .broadcast => "BROADCAST"
  | .branchTaken => "BRANCH_TAKEN"
  | .branchNotTaken => "BRANCH_NOT_TAKEN"
  | .branchOutOfRange => "BRANCH_OUT_OF_RANGE"

def ofName? (name : String) : Option EventKind :=
  all.find? (·.name == name)

end EventKind

/-- Why something cannot be told. -/
inductive Obstacle where
  /-- An integer in it has too many digits to be written. -/
  | unwritable
  /-- The station that it is about holds no instruction. -/
  | noInstruction
  deriving DecidableEq, Repr

def Obstacle.message : Obstacle → String
  | .unwritable => Numeral.unwritableMessage
  | .noInstruction => "'NoneType' object has no attribute " ++ "'kind'"

/-- What happened.  Where a station is involved it comes first. -/
inductive Happening where
  | cycleStarted
  | issued (station : String) (ins : Instruction)
  /-- No station was free for the next instruction. -/
  | stalled (ins : Instruction)
  | addressed (station : String) (address : Int)
  | hit (station : String) (address : Int)
  | missed (station : String) (address : Int) (penalty : Nat)
  | filled (station : String) (address : Int)
  | started (station : String) (ins : Instruction)
  | finished (station : String) (ins : Instruction)
  | stored (station : String) (value address : Int)
  | loaded (station : String) (value address : Int)
  | computed (station : String) (value : Int)
  /-- A branch had the bus. -/
  | resolved (station : String) (ins : Instruction)
  /-- The station received a value from the producer. -/
  | received (station producer : String) (value : Int)
  /-- A branch went to the instruction at an index. -/
  | taken (station : String) (index : Nat) (next : Instruction) (a b : Int)
  | notTaken (station : String) (a b : Int)
  /-- A branch was to be taken but has no destination in a program of the given size. -/
  | outOfRange (station : String) (index : Int) (size : Nat)
  /-- A station was to go on with its instruction but holds none. -/
  | stuck (station : String)
  deriving DecidableEq, Repr

namespace Happening

def kind : Happening → EventKind
  | .cycleStarted => .cycle
  | .issued .. => .issue
  | .stalled .. | .stuck _ => .stall
  | .addressed .. => .address
  | .hit .. => .cacheHit
  | .missed .. => .cacheMiss
  | .filled .. => .cacheFill
  | .started .. => .execStart
  | .finished .. => .execFinish
  | .stored .. | .loaded .. | .computed .. | .resolved .. => .writeback
  | .received .. => .broadcast
  | .taken .. => .branchTaken
  | .notTaken .. => .branchNotTaken
  | .outOfRange .. => .branchOutOfRange

/-- The station that is involved; of a value's way, the one that received it. -/
def station? : Happening → Option String
  | .cycleStarted => none
  | .stalled _ => none
  | .issued station _ | .addressed station _ | .hit station _ | .missed station _ _
  | .filled station _ | .started station _ | .finished station _ | .stored station _ _
  | .loaded station _ _ | .computed station _ | .resolved station _ | .received station _ _
  | .taken station _ _ _ _ | .notTaken station _ _ | .outOfRange station _ _
  | .stuck station => some station

def message : Happening → String
  | .cycleStarted => "start"
  | .issued station ins => "Issued " ++ ins.display ++ " to " ++ station
  | .stalled ins => "Stall: no free station for " ++ ins.display
  | .addressed station address => s!"{station} computed address: {address}"
  | .hit station address => s!"{station} cache hit at addr {address}"
  | .missed station address penalty =>
    s!"{station} cache miss at addr {address} (penalty={penalty})"
  | .filled station address => s!"{station} filled block for addr {address}"
  | .started station ins => station ++ " starts executing " ++ ins.display
  | .finished station ins => station ++ " finished execution of " ++ ins.display
  | .stored station value address =>
    s!"{station} writeback: store value={value} to addr={address}"
  | .loaded station value address =>
    s!"{station} writeback: load value={value} from addr={address}"
  | .computed station value => s!"{station} writeback: ALU result={value}"
  | .resolved station ins => station ++ " writeback: " ++ ins.display
  | .received station producer value => s!"{station} received {producer}={value}"
  | .taken station index next a b =>
    s!"{station} branch TAKEN to instruction {index} (" ++ next.display ++
      s!"), val1={a} val2={b}"
  | .notTaken station a b => s!"{station} branch NOT TAKEN, val1={a} val2={b}"
  | .outOfRange station index size =>
    s!"{station} branch target {index} out of range (program has {size} instructions)"
  | .stuck station => "Stall: no instruction in " ++ station

/-- The integers in the wording. -/
def numbers : Happening → List Int
  | .addressed _ address | .hit _ address | .filled _ address => [address]
  | .missed _ address penalty => [address, penalty]
  | .stored _ value address | .loaded _ value address => [value, address]
  | .computed _ value | .received _ _ value => [value]
  | .taken _ index _ a b => [index, a, b]
  | .notTaken _ a b => [a, b]
  | .outOfRange _ index size => [index, size]
  | .cycleStarted | .issued .. | .stalled _ | .started .. | .finished .. | .resolved ..
  | .stuck _ => []

/-- Why what happened cannot be told, if it cannot. -/
def obstacle? : Happening → Option Obstacle
  | .stuck _ => some .noInstruction
  | happening => if happening.numbers.all Numeral.isWritable then none else some .unwritable

def isTellable (happening : Happening) : Bool :=
  happening.obstacle?.isNone

end Happening

/-- All that happened can be told. -/
def isTold (log : List Happening) : Bool :=
  log.all Happening.isTellable

/-- Something that happened in a cycle. -/
structure Event where
  cycle : Nat
  happening : Happening
  deriving DecidableEq, Repr

namespace Event

def display (event : Event) : String :=
  "Cycle " ++ toString event.cycle ++ ": " ++ event.happening.message

/-- The record of the event in the log.  Only a branch without a destination is of interest
there. -/
def record (event : Event) : LogRecord where
  level := if event.happening.kind = .branchOutOfRange then .info else .debug
  source := .machine
  message := event.display

end Event

end OutOfOrder
