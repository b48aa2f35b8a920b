import OutOfOrder.Isa.Instruction

/-!
# Reservation stations

A station holds one instruction from issue to write-back, with its two operands, its counters and
how far it has come.  An operand is absent, ready with a value, or pending on the station that will
produce it.

Counters count down while they are positive.  A counter below zero never runs out.
-/

namespace OutOfOrder

/-- An operand of a station's instruction. -/
inductive Operand where
  | absent
  | ready (value : Int)
  /-- The value will come from the station of this name. -/
  | pending (tag : String)
  deriving DecidableEq, Repr

namespace Operand

/-- The operand waits for no station. -/
def isReady : Operand → Bool
  | .pending _ => false
  | _ => true

/-- The value of a ready operand, and zero otherwise. -/
def value : Operand → Int
  | .ready value => value
  | _ => 0

def value? : Operand → Option Int
  | .ready value => some value
  | _ => none

/-- The station that a pending operand waits for. -/
def tag? : Operand → Option String
  | .pending tag => some tag
  | _ => none

/-- The operand after the station `tag` has announced a value. -/
def receive (operand : Operand) (tag : String) (value : Int) : Operand :=
  if operand = .pending tag then .ready value else operand

end Operand

structure Station where
  /-- The station's name, which is also the tag of what it produces. -/
  name : String
  pool : Pool
  busy : Bool := false
  /-- The instruction that the station works on. -/
  held : Option Stamped := none
  j : Operand := .absent
  k : Operand := .absent
  /-- The address of a load or store. -/
  address : Int := 0
  /-- The address is computed. -/
  addressReady : Bool := false
  /-- The cycles that execution still takes. -/
  remaining : Int := 0
  executing : Bool := false
  /-- Execution is over and the result waits for the bus. -/
  resultPending : Bool := false
  /-- The station pauses in this cycle, as it was issued to or has received an operand. -/
  justTransitioned : Bool := false
  /-- The cycles that the cache still takes. -/
  cacheRemaining : Int := 0
  /-- The block of the address is in the cache for this access. -/
  blockResident : Bool := false
  /-- The cycles in which the station had the load/store port. -/
  portCycles : Int := 0
  deriving DecidableEq, Repr

namespace Station

def instruction? (station : Station) : Option Instruction :=
  station.held.map (·.instruction)

/-- The station without anything to work on. -/
def release (station : Station) : Station where
  name := station.name
  pool := station.pool

/-- The station as it begins on an instruction, with a pause in the current cycle. -/
def occupy (station : Station) (held : Stamped) (latency : Int) : Station where
  name := station.name
  pool := station.pool
  busy := true
  held := held
  remaining := latency
  justTransitioned := true

def operandsReady (station : Station) : Bool :=
  station.j.isReady && station.k.isReady

/-- An operand waits for the station `tag`. -/
def awaits (station : Station) (tag : String) : Bool :=
  station.j = .pending tag || station.k = .pending tag

/-- The station after the station `tag` has announced a value.  Receiving an operand costs a
pause. -/
def receive (station : Station) (tag : String) (value : Int) : Station :=
  if station.awaits tag then
    { station with
      j := station.j.receive tag value
      k := station.k.receive tag value
      justTransitioned := true }
  else station

/-- The station is at work and waits for the station `tag`. -/
def hears (station : Station) (tag : String) : Bool :=
  station.busy && station.awaits tag

def isFreeIn (station : Station) (pool : Pool) : Bool :=
  station.pool = pool && !station.busy

def asksForBus (station : Station) : Bool :=
  station.busy && station.resultPending

/-- The station at the start of a cycle, when its pause is over. -/
def endPause (station : Station) : Station :=
  if station.busy then { station with justTransitioned := false } else station

end Station

/-- Stations, those first that the result bus favours. -/
abbrev Bank := List Station

namespace Bank

/-- Free stations: pool after pool, as many as each pool has, numbered within the pool. -/
def ofSizes (sizes : List (Pool × Nat)) : Bank :=
  sizes.flatMap fun (pool, size) => (List.range size).map fun index =>
    { name := pool.label ++ toString index, pool }

def station? (bank : Bank) (name : String) : Option Station :=
  bank.find? (·.name = name)

/-- Changes the first station that meets a condition. -/
def changeFirst (bank : Bank) (condition : Station → Bool) (change : Station → Station) : Bank :=
  bank.modify (bank.findIdx condition) change

def update (bank : Bank) (name : String) (change : Station → Station) : Bank :=
  bank.changeFirst (·.name = name) change

def ofPool (bank : Bank) (pool : Pool) : Bank :=
  bank.filter (·.pool = pool)

def free? (bank : Bank) (pool : Pool) : Option Station :=
  bank.find? (·.isFreeIn pool)

/-- The first station that asks for the result bus. -/
def granted? (bank : Bank) : Option Station :=
  bank.find? (·.asksForBus)

/-- The names of the stations that wait for the station `tag`. -/
def hearers (bank : Bank) (tag : String) : List String :=
  (bank.filter (·.hears tag)).map (·.name)

/-- Announces a value of the station `tag` to all stations at work. -/
def broadcast (bank : Bank) (tag : String) (value : Int) : Bank :=
  bank.map fun station => if station.busy then station.receive tag value else station

def isFree (bank : Bank) : Bool :=
  bank.all (!·.busy)

end Bank

end OutOfOrder
