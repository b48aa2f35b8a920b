import OutOfOrder.Event
import OutOfOrder.Machine.State

/-!
# Execution

In every cycle each station at work takes a step, those first that the bus favours.  Arithmetic
waits for its operands and counts its latency down.  A memory access computes its address, looks it
up in the cache, waits for its block if the block is not there, and then counts the cache's and its
own latency down as long as it has the load/store port, which one station at a time may use and
keeps until it is done.

A step ends early where something happens that cannot be told, and no further station takes a step
then.  So it is where a station that is to take a step holds no instruction.
-/

namespace OutOfOrder

/-- The load/store port: the station that keeps it, and whether it was used in this cycle. -/
structure Port where
  owner : Option String
  used : Bool
  deriving DecidableEq, Repr

/-- The station of a name may use the port. -/
def Port.isOpenTo (port : Port) (station : String) : Bool :=
  !port.used && (port.owner = none || port.owner = some station)

def countDown (counter : Int) : Int :=
  if 0 < counter then counter - 1 else counter

namespace Station

def compute (station : Station) (ins : Instruction) : Station × List Happening :=
  if !station.executing && !station.operandsReady then (station, [])
  else
    let started := if station.executing then [] else [.started station.name ins]
    let remaining := countDown station.remaining
    if remaining = 0 then
      ({ station with executing := true, remaining, resultPending := true },
        started ++ [.finished station.name ins])
    else ({ station with executing := true, remaining }, started)

/-- Computes the address once the base is known. -/
def findAddress (station : Station) (ins : Instruction) : Station × List Happening :=
  if station.addressReady || !station.j.isReady then (station, [])
  else
    let address := station.j.value + ins.constant
    ({ station with address, addressReady := true }, [.addressed station.name address])

/-- The access may begin: the address is known, and the value if it is a store. -/
def mayAccess (station : Station) (ins : Instruction) : Bool :=
  station.addressReady && (station.executing || !ins.opcode.isStore || station.k.isReady)

/-- Looks the address up.  Without a penalty to wait the block counts as brought in. -/
def startAccess (station : Station) (ins : Instruction) (cache : Cache) :
    Station × Cache × List Happening :=
  let resident := cache.isResident station.address
  let (penalty, cache) := cache.probe station.address
  let log :=
    [if resident then .hit station.name station.address
      else .missed station.name station.address penalty,
      .started station.name ins]
  if penalty = 0 then
    ({ station with
        executing := true
        cacheRemaining := cache.geometry.hitLatency
        blockResident := true },
      cache.fillBlock station.address, log)
  else
    ({ station with executing := true, cacheRemaining := penalty, blockResident := false },
      cache, log)

def awaitBlock (station : Station) (cache : Cache) : Station × Cache × List Happening :=
  let cacheRemaining := countDown station.cacheRemaining
  if cacheRemaining = 0 then
    ({ station with cacheRemaining, blockResident := true },
      cache.fillBlock station.address, [.filled station.name station.address])
  else ({ station with cacheRemaining }, cache, [])

/-- One cycle at the port, if it is open to the station. -/
def usePort (station : Station) (ins : Instruction) (port : Port) :
    Station × Port × List Happening :=
  if !port.isOpenTo station.name then (station, port, [])
  else
    let cacheRemaining := countDown station.cacheRemaining
    let remaining :=
      if 0 < station.cacheRemaining then station.remaining else countDown station.remaining
    let station := { station with
      cacheRemaining, remaining, portCycles := station.portCycles + 1 }
    if cacheRemaining = 0 ∧ remaining = 0 then
      ({ station with resultPending := true }, ⟨none, true⟩, [.finished station.name ins])
    else (station, ⟨some station.name, true⟩, [])

/-- What a station's step leaves behind. -/
structure Step where
  station : Station
  port : Port
  cache : Cache
  log : List Happening

def continueAccess (station : Station) (ins : Instruction) (port : Port) (cache : Cache) : Step :=
  if station.blockResident then
    let (station, port, log) := station.usePort ins port
    ⟨station, port, cache, log⟩
  else
    let (station, cache, log) := station.awaitBlock cache
    ⟨station, port, cache, log⟩

def access (station : Station) (ins : Instruction) (port : Port) (cache : Cache) : Step :=
  let (station, found) := station.findAddress ins
  if !isTold found || !station.mayAccess ins then ⟨station, port, cache, found⟩
  else
    let (station, cache, started) :=
      if station.executing then (station, cache, []) else station.startAccess ins cache
    if !isTold started then ⟨station, port, cache, found ++ started⟩
    else
      let step := station.continueAccess ins port cache
      { step with log := found ++ started ++ step.log }

/-- The station takes no step in this cycle. -/
def rests (station : Station) : Bool :=
  !station.busy || station.justTransitioned || station.resultPending

def execute (station : Station) (port : Port) (cache : Cache) : Step :=
  if station.rests then ⟨station, port, cache, []⟩
  else
    match station.instruction? with
    | none => ⟨station, port, cache, [.stuck station.name]⟩
    | some ins =>
      if ins.opcode.isMemory then station.access ins port cache
      else
        let (station, log) := station.compute ins
        ⟨station, port, cache, log⟩

end Station

def Bank.execute : Bank → Port → Cache → Bank × Port × Cache × List Happening
  | [], port, cache => ([], port, cache, [])
  | station :: rest, port, cache =>
    let step := station.execute port cache
    if !isTold step.log then (step.station :: rest, step.port, step.cache, step.log)
    else
      let (rest, port, cache, log) := Bank.execute rest step.port step.cache
      (step.station :: rest, port, cache, step.log ++ log)

def Machine.execute (m : Machine) : Machine × List Happening :=
  let (bank, port, cache, log) := m.bank.execute ⟨m.portOwner, false⟩ m.cache
  ({ m with bank, cache, portOwner := port.owner }, log)

end OutOfOrder
