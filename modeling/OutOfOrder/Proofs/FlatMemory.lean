import Mathlib.Algebra.Group.Int.Defs
import OutOfOrder.Proofs.InOrder

/-!
# Memory behind a cache

The cache decides how long an access takes, and its data are those of a flat map
of bytes.  The map knows nothing of blocks and lines: a byte is zero until it is
written, a write puts the bytes of a value in their places, and a word is read
from its four bytes as a signed number.

Whatever a cache is asked, in any order, its reads return what the flat map
returns.  So the geometry of the cache makes no difference to them.
-/

namespace OutOfOrder

/-- What a cache is asked for. -/
inductive CacheCall where
  | probe (address : Int)
  | fillBlock (address : Int)
  | isResident (address : Int)
  | lineTable
  | writeByte (address value : Int)
  | writeWord (address value : Int)
  | storeWord (address value : Int)
  | readByte (address : Int)
  | readWord (address : Int)
  deriving DecidableEq, Repr

/-- The call writes the byte under an address. -/
def CacheCall.Writes (call : CacheCall) (other : Int) : Prop :=
  match call with
  | .writeByte address _ => other = address
  | .writeWord address _ | .storeWord address _ =>
    address ≤ other ∧ other < address + 4
  | _ => False

namespace Cache

/-- The cache after a call. -/
def call (cache : Cache) : CacheCall → Cache
  | .probe address => (cache.probe address).2
  | .fillBlock address => cache.fillBlock address
  | .writeByte address value => cache.writeByte address value
  | .writeWord address value => cache.writeWord address value
  | .storeWord address value => cache.storeWord address value
  | .isResident _ | .lineTable | .readByte _ | .readWord _ => cache

/-- What a call reads, if it is a read. -/
def answer? (cache : Cache) : CacheCall → Option Int
  | .readByte address => some (cache.readByte address).toNat
  | .readWord address => some (cache.readWord address)
  | _ => none

def after (cache : Cache) (calls : List CacheCall) : Cache :=
  calls.foldl call cache

def answers (cache : Cache) : List CacheCall → List Int
  | [] => []
  | call :: rest => (cache.answer? call).toList ++ (cache.call call).answers rest

end Cache

/-- A number under every address. -/
abbrev ByteMap := Int → Int

namespace ByteMap

/-- The map in which nothing has been written. -/
def zeros : ByteMap := fun _ => 0

def putByte (map : ByteMap) (address value : Int) : ByteMap := fun other =>
  if other = address then value % 256 else map other

/-- Writes the four low bytes of a value, the lowest one first. -/
def putWord (map : ByteMap) (address value : Int) : ByteMap := fun other =>
  if address ≤ other ∧ other < address + 4 then
    value / 256 ^ (other - address).toNat % 256
  else map other

/-- The signed number in the four bytes from an address on, the lowest one
first. -/
def word (map : ByteMap) (address : Int) : Int :=
  let unsigned := map address + 256 * map (address + 1) +
    65536 * map (address + 2) + 16777216 * map (address + 3)
  if unsigned < 2147483648 then unsigned else unsigned - 4294967296

/-- The map into which words are written one after another.  Where an address is
given twice the later word counts, in the place of the earlier one. -/
def preloaded (preload : List (Int × Int)) : ByteMap :=
  (Directory.ofList preload).entries.foldl
    (fun map (address, value) => map.putWord address value) zeros

/-- The map after a call.  Only writes change it. -/
def call (map : ByteMap) : CacheCall → ByteMap
  | .writeByte address value => map.putByte address value
  | .writeWord address value | .storeWord address value =>
    map.putWord address value
  | _ => map

/-- What a call reads, if it is a read. -/
def answer? (map : ByteMap) : CacheCall → Option Int
  | .readByte address => some (map address)
  | .readWord address => some (map.word address)
  | _ => none

def after (map : ByteMap) (calls : List CacheCall) : ByteMap :=
  calls.foldl call map

def answers (map : ByteMap) : List CacheCall → List Int
  | [] => []
  | call :: rest => (map.answer? call).toList ++ (map.call call).answers rest

end ByteMap

/-! ## The bytes of a word -/

/-- The bytes that storing a word puts under an address are the digits of its
value to the base 256. -/
theorem Word.toNat_byte?_getD (address value other : Int) (byte : UInt8) :
    (((byte? address value other).getD byte).toNat : Int) =
      if address ≤ other ∧ other < address + 4 then
        value / 256 ^ (other - address).toNat % 256
      else byte.toNat := by
  split
  · next hrange =>
      obtain ⟨offset, rfl⟩ : ∃ offset : Nat, other = address + offset :=
        ⟨(other - address).toNat, by omega⟩
      have hoffset : (address + offset - address).toNat = offset := by omega
      have hlt : offset < 4 := by omega
      have hsecond : address + 1 ≠ address := by omega
      have hthird : address + 2 ≠ address := by omega
      have hfourth : address + 3 ≠ address := by omega
      rw [hoffset]
      unfold byte?
      obtain rfl | rfl | rfl | rfl :
        offset = 0 ∨ offset = 1 ∨ offset = 2 ∨ offset = 3 := by omega
      all_goals simp [toNat_lowByte, hsecond, hthird, hfourth]
  · next hrange =>
      rw [byte?_eq_none (by omega)]
      rfl

/-! ## The cache and the map -/

namespace Memory

def Mirrors (memory : Memory) (map : ByteMap) : Prop :=
  ∀ address, ((memory.readByte address).toNat : Int) = map address

variable {memory : Memory} {map : ByteMap}

theorem Mirrors.byte_range (h : memory.Mirrors map) (address : Int) :
    0 ≤ map address ∧ map address < 256 := by
  have hlt := (memory.readByte address).toNat_lt
  rw [← h address]
  omega

theorem Mirrors.writeByte (h : memory.Mirrors map) (address value : Int) :
    (memory.writeByte address value).Mirrors (map.putByte address value) := by
  intro other
  rw [readByte_writeByte, ByteMap.putByte]
  split
  · exact Word.toNat_lowByte value
  · exact h other

theorem Mirrors.storeWord (h : memory.Mirrors map) (address value : Int) :
    (memory.storeWord address value).Mirrors (map.putWord address value) := by
  intro other
  rw [readByte_storeWord, Word.toNat_byte?_getD, ByteMap.putWord, h other]

theorem Mirrors.readWord (h : memory.Mirrors map) (address : Int) :
    memory.readWord address = map.word address := by
  have hfirst := h.byte_range address
  have hsecond := h.byte_range (address + 1)
  have hthird := h.byte_range (address + 2)
  have hfourth := h.byte_range (address + 3)
  simp only [Memory.readWord, Word.ofBytes, List.foldr_cons, List.foldr_nil,
    Word.wrap, h address, h (address + 1), h (address + 2),
    h (address + 3)]
  unfold ByteMap.word
  dsimp only
  split <;> split <;> omega

theorem mirrors_ofWords (words : List (Int × Int)) :
    (ofWords words).Mirrors (words.foldl
      (fun map (address, value) => map.putWord address value)
        ByteMap.zeros) := by
  suffices hfold : ∀ {memory : Memory} {map : ByteMap}, memory.Mirrors map →
      (words.foldl (fun memory (address, value) =>
        memory.storeWord address value) memory).Mirrors
      (words.foldl (fun map (address, value) =>
        map.putWord address value) map) from
    hfold fun _ => rfl
  induction words with
  | nil => exact fun h => h
  | cons word rest ih => exact fun h => ih (h.storeWord word.1 word.2)

theorem readWord_storeWord (memory : Memory) (address value : Int) :
    (memory.storeWord address value).readWord address = Word.wrap value := by
  have hsecond : address + 1 ≠ address := by omega
  have hthird : address + 2 ≠ address := by omega
  have hfourth : address + 3 ≠ address := by omega
  rw [← Word.ofBytes_lowByte, readWord]
  simp [readByte_storeWord, Word.byte?, hsecond, hthird, hfourth]

/-- Two memories with the same four bytes from an address on hold the same word
there. -/
theorem readWord_congr {memory other : Memory} {address : Int}
    (h : ∀ byte, address ≤ byte → byte < address + 4 →
      memory.readByte byte = other.readByte byte) :
    memory.readWord address = other.readWord address := by
  unfold readWord
  rw [h address (by omega) (by omega), h (address + 1) (by omega) (by omega),
    h (address + 2) (by omega) (by omega), h (address + 3) (by omega) (by omega)]

end Memory

namespace Cache

variable {cache : Cache} {map : ByteMap}

theorem memory_probe (cache : Cache) (address : Int) :
    (cache.probe address).2.memory = cache.memory := by
  unfold probe
  split <;> rfl

theorem mirrors_call (h : cache.memory.Mirrors map) (call : CacheCall) :
    (cache.call call).memory.Mirrors (map.call call) := by
  cases call with
  | probe address => simpa [Cache.call, ByteMap.call, memory_probe] using h
  | fillBlock address => exact h
  | isResident address => exact h
  | lineTable => exact h
  | writeByte address value => exact h.writeByte address value
  | writeWord address value =>
      simpa [Cache.call, ByteMap.call, memory_writeWord] using
        h.storeWord address value
  | storeWord address value => exact h.storeWord address value
  | readByte address => exact h
  | readWord address => exact h

theorem answer?_eq (h : cache.memory.Mirrors map) (call : CacheCall) :
    cache.answer? call = map.answer? call := by
  cases call with
  | readByte address => exact congrArg some (h address)
  | readWord address => exact congrArg some (h.readWord address)
  | _ => rfl

theorem mirrors_after (h : cache.memory.Mirrors map) (calls : List CacheCall) :
    (cache.after calls).memory.Mirrors (map.after calls) := by
  induction calls generalizing cache map with
  | nil => exact h
  | cons call rest ih => exact ih (mirrors_call h call)

theorem answers_eq (h : cache.memory.Mirrors map) (calls : List CacheCall) :
    cache.answers calls = map.answers calls := by
  induction calls generalizing cache map with
  | nil => rfl
  | cons call rest ih =>
      rw [answers, ByteMap.answers, answer?_eq h call, ih (mirrors_call h call)]

theorem mirrors_create (geometry : Geometry) (preload : List (Int × Int)) :
    (create geometry preload).memory.Mirrors (.preloaded preload) :=
  Memory.mirrors_ofWords _

/-! ## Reading back -/

theorem readByte_call {call : CacheCall} {other : Int}
    (h : ¬ call.Writes other) :
    (cache.call call).readByte other = cache.readByte other := by
  cases call with
  | probe address => simp [Cache.call, readByte, memory_probe]
  | writeByte address value =>
      have hne : other ≠ address := h
      simp [Cache.call, readByte, writeByte, Memory.readByte_writeByte, hne]
  | writeWord address value =>
      have hrange : ¬ (address ≤ other ∧ other < address + 4) := h
      have hnone : Word.byte? address value other = none :=
        Word.byte?_eq_none (by omega)
      simp [Cache.call, readByte, memory_writeWord, Memory.readByte_storeWord,
        hnone]
  | storeWord address value =>
      have hrange : ¬ (address ≤ other ∧ other < address + 4) := h
      have hnone : Word.byte? address value other = none :=
        Word.byte?_eq_none (by omega)
      simp [Cache.call, readByte, storeWord, Memory.readByte_storeWord, hnone]
  | _ => rfl

theorem readByte_after {calls : List CacheCall} {other : Int}
    (h : ∀ call ∈ calls, ¬ call.Writes other) :
    (cache.after calls).readByte other = cache.readByte other := by
  induction calls generalizing cache with
  | nil => rfl
  | cons call rest ih =>
      have hrest : ((cache.call call).after rest).readByte other =
          (cache.call call).readByte other :=
        ih fun later hlater => h later (List.mem_cons_of_mem call hlater)
      exact hrest.trans (readByte_call (h call List.mem_cons_self))

/-- A word that nothing has overwritten reads as it was written. -/
theorem readWord_after {write : CacheCall} {address value : Int}
    (hwrite : write = .storeWord address value ∨
      write = .writeWord address value) {between : List CacheCall}
    (hbetween : ∀ call ∈ between, ∀ byte, address ≤ byte →
      byte < address + 4 → ¬ call.Writes byte) :
    (cache.after (write :: between)).readWord address = Word.wrap value := by
  have hwritten : (cache.call write).readWord address = Word.wrap value := by
    have hmemory : (cache.call write).memory =
        cache.memory.storeWord address value := by
      rcases hwrite with rfl | rfl
      · rfl
      · exact memory_writeWord cache address value
    rw [readWord, hmemory, Memory.readWord_storeWord]
  rw [← hwritten]
  refine Memory.readWord_congr fun byte hlow hhigh => ?_
  exact readByte_after fun call hcall => hbetween call hcall byte hlow hhigh

/-- **A cache never affects data.**  For every preload and all calls: whatever
its geometry, a cache returns at each read what the flat map of bytes returns,
its bytes are those of the map and lie in `0..255`, a word is the signed number
in its four bytes, and a word that nothing has overwritten since reads as the
word of the value that was written.  Two caches differ in geometry alone, and so
return the same. -/
theorem reads_flat_memory (preload : List (Int × Int))
    (calls : List CacheCall) :
    (∀ geometry, (create geometry preload).answers calls =
      (ByteMap.preloaded preload).answers calls) ∧
    (∀ geometry geometry', (create geometry preload).answers calls =
      (create geometry' preload).answers calls) ∧
    (∀ geometry address,
      let byte : Int := (((create geometry preload).after calls).readByte address).toNat
      byte = (ByteMap.preloaded preload).after calls address ∧
        0 ≤ byte ∧ byte ≤ 255) ∧
    (∀ geometry address,
      let cache := (create geometry preload).after calls
      cache.readWord address =
        ByteMap.word (fun byte => (cache.readByte byte).toNat) address) ∧
    ∀ geometry before write between address value,
      calls = before ++ write :: between →
      (write = .storeWord address value ∨ write = .writeWord address value) →
      (∀ call ∈ between, ∀ byte, address ≤ byte → byte < address + 4 →
        ¬ call.Writes byte) →
      ((create geometry preload).after calls).readWord address =
        Word.wrap value := by
  have hmirrors (geometry : Geometry) := mirrors_create geometry preload
  refine ⟨fun geometry => answers_eq (hmirrors geometry) calls, ?_, ?_, ?_, ?_⟩
  · intro geometry geometry'
    rw [answers_eq (hmirrors geometry), answers_eq (hmirrors geometry')]
  · intro geometry address
    have hafter := mirrors_after (hmirrors geometry) calls
    have hrange := hafter.byte_range address
    have hbyte := hafter address
    refine ⟨hbyte, ?_, ?_⟩
    · omega
    · rw [readByte, hbyte]
      omega
  · intro geometry address
    exact Memory.Mirrors.readWord (fun _ => rfl) address
  · rintro geometry before write between address value rfl hwrite hbetween
    have hsplit : (create geometry preload).after (before ++ write :: between) =
        ((create geometry preload).after before).after (write :: between) :=
      List.foldl_append
    rw [hsplit, readWord_after hwrite hbetween]

end Cache

end OutOfOrder
