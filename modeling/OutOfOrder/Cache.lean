import OutOfOrder.Config
import OutOfOrder.Directory
import OutOfOrder.Memory
import OutOfOrder.Text.Quoted

/-!
# The data cache

A direct-mapped cache stands before the memory.  It decides how long an access takes and nothing
else: a line knows which block it holds, and all data are in memory.  Looking an address up does not
bring its block in; that is a step of its own, so that the penalty of a miss can be waited for in
between.
-/

namespace OutOfOrder

/-- The shape and timing of a cache. -/
structure Geometry where
  blockSize : Nat
  lineCount : Nat
  hitLatency : Nat
  missPenalty : Nat
  blockSize_pos : 0 < blockSize
  lineCount_pos : 0 < lineCount

/-- Why sizes and latencies describe no cache. -/
inductive GeometryError where
  | blockSize (size : Int)
  | negative
  deriving DecidableEq, Repr

def GeometryError.message : GeometryError → String
  | .blockSize size => "block size must be positive, got " ++ toString size
  | .negative => "cache size and latencies must be non-negative"

namespace Geometry

/-- The geometry of a cache of a size in bytes, which has one line at least. -/
def ofSizes (cacheSize blockSize hitLatency missPenalty : Nat) (positive : 0 < blockSize) :
    Geometry where
  blockSize
  lineCount := max 1 (cacheSize / blockSize)
  hitLatency
  missPenalty
  blockSize_pos := positive
  lineCount_pos := by omega

/-- The geometry that sizes and latencies describe, if they do. -/
def ofIntegers (cacheSize blockSize hitLatency missPenalty : Int) :
    Except GeometryError Geometry :=
  if positive : 0 < blockSize then
    if cacheSize < 0 ∨ hitLatency < 0 ∨ missPenalty < 0 then .error .negative
    else .ok (ofSizes cacheSize.toNat blockSize.toNat hitLatency.toNat missPenalty.toNat (by omega))
  else .error (.blockSize blockSize)

def ofConfig (config : Config) : Geometry :=
  ofSizes (config.value .cacheSizeBytes) (config.value .blockSizeBytes)
    (config.value .cacheHitLatency) (config.value .cacheMissPenalty) config.blockSize_pos

def blockOf (geometry : Geometry) (address : Int) : Int :=
  address / geometry.blockSize

def lineOf (geometry : Geometry) (address : Int) : Fin geometry.lineCount :=
  ⟨(geometry.blockOf address % geometry.lineCount).toNat, by
    have := geometry.lineCount_pos
    have := Int.emod_nonneg (geometry.blockOf address)
      (show (geometry.lineCount : Int) ≠ 0 by omega)
    have := Int.emod_lt_of_pos (geometry.blockOf address)
      (show (0 : Int) < geometry.lineCount by omega)
    omega⟩

end Geometry

/-- A cache and the memory behind it. -/
structure Cache where
  geometry : Geometry
  /-- The number of the block that each line holds. -/
  lines : Vector (Option Int) geometry.lineCount
  memory : Memory
  hits : Nat
  misses : Nat

/-- What a filled line shows: its block, the addresses of the block's first and last bytes, and its
first bytes in hexadecimal. -/
structure LineView where
  block : Int
  first : Int
  last : Int
  data : String

namespace Cache

/-- An empty cache before a memory that holds the given words.  Where an address is given twice the
later word counts, in the place of the earlier one. -/
def create (geometry : Geometry) (preload : List (Int × Int)) : Cache where
  geometry
  lines := Vector.replicate geometry.lineCount none
  memory := .ofWords (Directory.ofList preload).entries
  hits := 0
  misses := 0

def isResident (cache : Cache) (address : Int) : Bool :=
  cache.lines[cache.geometry.lineOf address] = some (cache.geometry.blockOf address)

/-- Looks an address up and counts a hit or a miss.  Yields the penalty to wait before the block may
be brought in, which is zero for a hit. -/
def probe (cache : Cache) (address : Int) : Nat × Cache :=
  if cache.isResident address then (0, { cache with hits := cache.hits + 1 })
  else (cache.geometry.missPenalty, { cache with misses := cache.misses + 1 })

/-- Brings the block of an address in, in place of what its line holds. -/
def fillBlock (cache : Cache) (address : Int) : Cache :=
  { cache with lines :=
      cache.lines.set (cache.geometry.lineOf address) (some (cache.geometry.blockOf address)) }

def readByte (cache : Cache) (address : Int) : UInt8 :=
  cache.memory.readByte address

/-- Writes a byte past the cache. -/
def writeByte (cache : Cache) (address value : Int) : Cache :=
  { cache with memory := cache.memory.writeByte address value }

def readWord (cache : Cache) (address : Int) : Int :=
  cache.memory.readWord address

/-- Writes a word past the cache. -/
def storeWord (cache : Cache) (address value : Int) : Cache :=
  { cache with memory := cache.memory.storeWord address value }

/-- Writes a word through the cache.  The access counts as a hit or a miss, and a block that has a
penalty to wait is brought in at once. -/
def writeWord (cache : Cache) (address value : Int) : Cache :=
  let (penalty, cache) := cache.probe address
  let cache := if penalty = 0 then cache else cache.fillBlock address
  cache.storeWord address value

/-- What a line that holds a block shows. -/
def lineView (cache : Cache) (block : Int) : LineView where
  block
  first := block * cache.geometry.blockSize
  last := block * cache.geometry.blockSize + cache.geometry.blockSize - 1
  data :=
    let offsets := List.range (min 4 cache.geometry.blockSize)
    String.intercalate " " (offsets.map fun (offset : Nat) =>
      String.ofList (Text.hex 2
        (cache.readByte (block * cache.geometry.blockSize + offset)).toNat))

def lineTable (cache : Cache) : List (Nat × Option LineView) :=
  cache.lines.toList.mapIdx fun index block => (index, block.map cache.lineView)

/-- Bringing a block in makes it resident, and drives out what its line held. -/
theorem isResident_fillBlock (cache : Cache) (address other : Int) :
    (cache.fillBlock address).isResident other =
      if cache.geometry.lineOf other = cache.geometry.lineOf address then
        decide (cache.geometry.blockOf other = cache.geometry.blockOf address)
      else cache.isResident other := by
  unfold isResident fillBlock
  split
  · next h => simp [h, eq_comm]
  · next h =>
    have : (cache.geometry.lineOf address).val ≠ (cache.geometry.lineOf other).val :=
      fun e => h (Fin.ext e.symm)
    simp [Vector.getElem_set_ne, this]

end Cache

end OutOfOrder
