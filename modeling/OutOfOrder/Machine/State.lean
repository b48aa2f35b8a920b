import OutOfOrder.Cache
import OutOfOrder.RegisterFile
import OutOfOrder.Station

/-!
# The state of a machine

A machine is a register file, a bank of stations, a cache, and a program of which a part is still to
be issued.
-/

namespace OutOfOrder

/-- A machine between two cycles. -/
structure Machine where
  config : Config
  bank : Bank
  registers : RegisterFile
  cache : Cache
  /-- The loaded program. -/
  program : List Stamped
  /-- The instructions that are to be issued next, in this order. -/
  queue : List Stamped
  /-- The place in the program of the next instruction to issue. -/
  issuedCount : Nat
  /-- The number of stamps given out. -/
  stamps : Nat
  /-- The number of cycles gone by. -/
  cycle : Nat
  /-- The station that holds the load/store port. -/
  portOwner : Option String

namespace Machine

/-- A machine without a program, whose memory holds the given words. -/
def create (config : Config) (preload : List (Int × Int)) : Machine where
  config
  bank := .ofSizes (Pool.busOrder.map fun pool => (pool, config.value pool.size))
  registers := .initial
  cache := .create (.ofConfig config) preload
  program := []
  queue := []
  issuedCount := 0
  stamps := 0
  cycle := 0
  portOwner := none

/-- The instructions, stamped from a first stamp on. -/
def stamped (first : Nat) (program : List Instruction) : List Stamped :=
  program.mapIdx fun index ins => ⟨first + index, ins⟩

/-- Replaces the program.  All of the new one is to be issued; stations at work stay at work. -/
def load (m : Machine) (program : List Instruction) : Machine :=
  let fresh := stamped m.stamps program
  { m with
    program := fresh
    queue := fresh
    issuedCount := 0
    stamps := m.stamps + program.length }

/-- Nothing is to be issued and no station is at work. -/
def isIdle (m : Machine) : Bool :=
  m.queue.isEmpty && m.bank.isFree

/-- Writes a register from outside. -/
def writeRegister (m : Machine) (name : String) (value : Int) : Machine :=
  { m with registers := m.registers.write name value }

def tagRegister (m : Machine) (name station : String) : Machine :=
  { m with registers := m.registers.setTag name station }

def storeWord (m : Machine) (address value : Int) : Machine :=
  { m with cache := m.cache.storeWord address value }

def fillBlock (m : Machine) (address : Int) : Machine :=
  { m with cache := m.cache.fillBlock address }

/-- Changes a station from outside.  The change is given a stamp of its own, for an instruction that
it may put into the station. -/
def updateStation (m : Machine) (name : String) (change : Nat → Station → Station) : Machine :=
  { m with bank := m.bank.update name (change m.stamps), stamps := m.stamps + 1 }

end Machine

end OutOfOrder
