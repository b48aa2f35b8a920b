import OutOfOrder.Word

/-!
# Byte memory

Memory holds a byte under every integer address.  Only the bytes that were written are kept, in the
order of their addresses; every other byte is zero.
-/

namespace OutOfOrder

/-- The written bytes, by ascending address. -/
structure Memory where
  cells : List (Int × UInt8) := []
  deriving Repr

namespace Memory

/-- The cells with a byte under an address, in its place or between its neighbours. -/
def putCell (address : Int) (byte : UInt8) : List (Int × UInt8) → List (Int × UInt8)
  | [] => [(address, byte)]
  | cell :: rest =>
    if cell.1 < address then cell :: putCell address byte rest
    else if cell.1 = address then (address, byte) :: rest
    else (address, byte) :: cell :: rest

def readByte (memory : Memory) (address : Int) : UInt8 :=
  ((memory.cells.find? (·.1 = address)).map (·.2)).getD 0

/-- Writes the low byte of a value. -/
def writeByte (memory : Memory) (address value : Int) : Memory :=
  ⟨putCell address (Word.lowByte value) memory.cells⟩

/-- The word in the four bytes from an address on, the lowest one first. -/
def readWord (memory : Memory) (address : Int) : Int :=
  Word.ofBytes [memory.readByte address, memory.readByte (address + 1),
    memory.readByte (address + 2), memory.readByte (address + 3)]

/-- Writes the low word of a value into the four bytes from an address on. -/
def storeWord (memory : Memory) (address value : Int) : Memory :=
  (((memory.writeByte address value).writeByte (address + 1) (value / 256)).writeByte
    (address + 2) (value / 65536)).writeByte (address + 3) (value / 16777216)

/-- The memory into which the words are written one after another. -/
def ofWords (words : List (Int × Int)) : Memory :=
  words.foldl (fun memory (address, value) => memory.storeWord address value) {}

theorem find?_putCell (address other : Int) (byte : UInt8) (cells : List (Int × UInt8)) :
    (putCell address byte cells).find? (·.1 = other) =
      if other = address then some (address, byte) else cells.find? (·.1 = other) := by
  induction cells with
  | nil => by_cases h : other = address <;> simp [putCell, h, Ne.symm]
  | cons cell rest ih => grind [putCell]

theorem readByte_writeByte (memory : Memory) (address other value : Int) :
    (memory.writeByte address value).readByte other =
      if other = address then Word.lowByte value else memory.readByte other := by
  simp only [readByte, writeByte, find?_putCell]
  split <;> rfl

end Memory

end OutOfOrder
