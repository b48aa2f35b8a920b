import Mathlib.Data.Nat.Init
import OutOfOrder.Machine.Cycle
import OutOfOrder.Proofs.Ledger

/-!
# The in-order interpreter

The interpreter knows no stations, tags or cycles.  It executes one instruction
after the other on the values of the registers and the bytes of memory.  A
machine is judged by it.

Stores that are over before older ones are over leave behind a memory that the
interpreter never sees.  It is described here as the memory after a part of the
stores, and compared to the interpreter's memory byte by byte.
-/

namespace OutOfOrder

theorem Word.toNat_lowByte (value : Int) :
    ((lowByte value).toNat : Int) = value % 256 := by
  have hlt : (value % 256).toNat < 256 := by omega
  rw [lowByte, UInt8.toNat_ofNat_of_lt' hlt]
  omega

/-- A word is made up of the bytes that storing it writes. -/
theorem Word.ofBytes_lowByte (value : Int) :
    ofBytes [lowByte value, lowByte (value / 256), lowByte (value / 65536),
      lowByte (value / 16777216)] = wrap value := by
  have hvalue : value % 256 + 256 * (value / 256 % 256 + 256 *
      (value / 65536 % 256 + 256 * (value / 16777216 % 256 + 256 * 0))) =
        value % 4294967296 := by
    omega
  simp only [ofBytes, List.foldr_cons, List.foldr_nil, toNat_lowByte]
  rw [hvalue, wrap, wrap, Int.emod_emod_of_dvd value (Int.dvd_refl _)]

/-- The byte that storing a word puts under another address, if it is one of the
four that are written. -/
def Word.byte? (address value other : Int) : Option UInt8 :=
  if other = address then some (lowByte value)
  else if other = address + 1 then some (lowByte (value / 256))
  else if other = address + 2 then some (lowByte (value / 65536))
  else if other = address + 3 then some (lowByte (value / 16777216))
  else none

theorem Word.byte?_eq_none {address value other : Int}
    (h : other < address ∨ address + 4 ≤ other) :
    byte? address value other = none := by
  unfold byte?
  rw [if_neg (by omega), if_neg (by omega), if_neg (by omega),
    if_neg (by omega)]

theorem Word.range_of_byte? {address value other : Int} {byte : UInt8}
    (h : byte? address value other = some byte) :
    address ≤ other ∧ other < address + 4 := by
  by_contra hrange
  rw [byte?_eq_none (by omega)] at h
  contradiction

theorem Memory.readByte_storeWord (memory : Memory)
    (address value other : Int) :
    (memory.storeWord address value).readByte other =
      (Word.byte? address value other).getD (memory.readByte other) := by
  unfold storeWord Word.byte?
  simp only [readByte_writeByte]
  grind

theorem Cache.memory_writeWord (cache : Cache) (address value : Int) :
    (cache.writeWord address value).memory =
      cache.memory.storeWord address value := by
  unfold writeWord probe
  dsimp only
  split <;> split <;> rfl

namespace Opcode

variable {op : Opcode}

theorem isMemory_of_isStore (h : op.isStore = true) : op.isMemory = true := by
  rw [isMemory, h, Bool.or_true]

theorem pool_of_isMemory (h : op.isMemory = true) : op.pool = .loadStore := by
  cases op <;> simp_all [isMemory, isLoad, isStore, form, pool]

end Opcode

/-! ## The interpreter -/

/-- What a program sees of a machine: the values of the registers, and the byte
under every address. -/
structure Architecture where
  registers : String → Int
  memory : Int → UInt8

def Machine.architecture (m : Machine) : Architecture where
  registers := m.registers.read
  memory := m.cache.readByte

namespace Architecture

/-- The value of a source register, which is zero if the source is missing. -/
def source (state : Architecture) : Option String → Int
  | none => 0
  | some register => state.registers register

def address (state : Architecture) (ins : Instruction) : Int :=
  state.source ins.src1 + ins.constant

def word (state : Architecture) (address : Int) : Int :=
  Word.ofBytes [state.memory address, state.memory (address + 1),
    state.memory (address + 2), state.memory (address + 3)]

/-- The value that an operand of an instruction stands for. -/
def input (state : Architecture) (ins : Instruction) : Slot → Int
  | .first => state.source ins.src1
  | .second => match ins.opcode.form with
    | .load => 0
    | .immediate => ins.constant
    | _ => state.source ins.src2

def result (state : Architecture) (ins : Instruction) : Int :=
  match ins.opcode.form with
  | .load => state.word (state.address ins)
  | _ => ins.opcode.evaluate (state.source ins.src1) (state.source ins.src2)
      ins.constant

/-- Gives a register a value.  The zero register keeps its own. -/
def write (state : Architecture) (register : Option String) (value : Int) :
    Architecture :=
  { state with
    registers := fun other =>
      if register = some other ∧ other ≠ zeroRegister then value
      else state.registers other }

/-- Puts the bytes of a word into memory. -/
def store (state : Architecture) (address value : Int) : Architecture :=
  { state with
    memory := fun other =>
      (Word.byte? address value other).getD (state.memory other) }

/-- The state after an instruction that is no branch. -/
def step (state : Architecture) (ins : Instruction) : Architecture :=
  match ins.opcode.form with
  | .load | .immediate | .register => state.write ins.dest (state.result ins)
  | .store => state.store (state.address ins) (state.source ins.src2)
  | .branch | .bare => state

def run (state : Architecture) (program : List Instruction) : Architecture :=
  program.foldl step state

/-- The state before the instruction at an index of a program. -/
def before (state : Architecture) (program : List Instruction) (index : Nat) :
    Architecture :=
  state.run (program.take index)

variable {state : Architecture} {program : List Instruction}
  {ins : Instruction} {register : String}

theorem registers_step (state : Architecture) (ins : Instruction)
    (register : String) :
    (state.step ins).registers register =
      if ins.target? = some register ∧ register ≠ zeroRegister
      then state.result ins else state.registers register := by
  have htarget : ins.target? = match ins.opcode.form with
      | .load | .immediate | .register => ins.dest
      | .store | .branch | .bare => none := by
    unfold Instruction.target? Opcode.definesDestination Opcode.isLoad
      Opcode.isImmediate Opcode.isRegister
    cases ins.opcode.form <;> rfl
  rw [htarget]
  unfold step
  cases ins.opcode.form <;> simp [write, store]

theorem word_congr {other : Architecture} {address : Int}
    (h : ∀ place, address ≤ place → place < address + 4 →
      state.memory place = other.memory place) :
    state.word address = other.word address := by
  rw [word, word, h _ (by omega) (by omega), h _ (by omega) (by omega),
    h _ (by omega) (by omega), h _ (by omega) (by omega)]

theorem input_of_source? {slot : Slot} (h : ins.source? slot = some register) :
    state.input ins slot = state.registers register := by
  cases slot with
  | first =>
      have hsrc : ins.src1 = some register := h
      rw [input, hsrc]
      rfl
  | second =>
      unfold Instruction.source? at h
      unfold input
      cases hform : ins.opcode.form with
      | load | immediate => simp [hform] at h
      | store | register | branch | bare =>
          simp only [hform] at h
          simp [h, source]

/-- Arithmetic with a constant does not ask for its second operand. -/
theorem evaluate_input (state : Architecture) (ins : Instruction) :
    ins.opcode.evaluate (state.input ins .first) (state.input ins .second)
        ins.constant =
      ins.opcode.evaluate (state.source ins.src1) (state.source ins.src2)
        ins.constant := by
  unfold input
  cases hop : ins.opcode <;> simp [Opcode.form, Opcode.evaluate]

theorem before_succ {index : Nat} (h : program[index]? = some ins) :
    state.before program (index + 1) = (state.before program index).step ins := by
  rw [before, before, run, run, List.take_add_one, h]
  simp

theorem before_succ_of_none {index : Nat} (h : program[index]? = none) :
    state.before program (index + 1) = state.before program index := by
  rw [before, before, List.take_add_one, h]
  simp

theorem before_length (state : Architecture) (program : List Instruction) :
    state.before program program.length = state.run program := by
  rw [before, List.take_length]

theorem registers_before_eq {low high : Nat} (hle : low ≤ high)
    (h : ∀ index, low ≤ index → index < high →
      program[index]?.bind Instruction.target? ≠ some register) :
    (state.before program high).registers register =
      (state.before program low).registers register := by
  induction high, hle using Nat.le_induction with
  | base => rfl
  | succ high hle ih =>
      have hkept := ih fun index hlow hhigh => h index hlow (by omega)
      have hlast := h high hle (Nat.lt_succ_self high)
      cases hins : program[high]? with
      | none => rw [before_succ_of_none hins, hkept]
      | some ins =>
          rw [hins] at hlast
          rw [before_succ hins, registers_step,
            if_neg fun htarget => hlast htarget.1, hkept]

/-! ## Memory -/

/-- The byte that an instruction writes under an address. -/
def written? (state : Architecture) (ins : Instruction) (address : Int) :
    Option UInt8 :=
  if ins.opcode.isStore then
    Word.byte? (state.address ins) (state.source ins.src2) address
  else none

theorem memory_step (state : Architecture) (ins : Instruction)
    (address : Int) :
    (state.step ins).memory address =
      (state.written? ins address).getD (state.memory address) := by
  unfold step written? Opcode.isStore
  cases ins.opcode.form <;> simp [write, store]

/-- The byte that the instruction at an index of a program writes under an
address. -/
def writtenAt? (state : Architecture) (program : List Instruction)
    (index : Nat) (address : Int) : Option UInt8 :=
  program[index]?.bind fun ins =>
    (state.before program index).written? ins address

theorem memory_before_succ (state : Architecture) (program : List Instruction)
    (index : Nat) (address : Int) :
    (state.before program (index + 1)).memory address =
      (state.writtenAt? program index address).getD
        ((state.before program index).memory address) := by
  cases hins : program[index]? with
  | none => simp [before_succ_of_none hins, writtenAt?, hins]
  | some ins => simp [before_succ hins, memory_step, writtenAt?, hins]

/-- Memory after those of the first instructions that are over. -/
def committed (state : Architecture) (program : List Instruction)
    (isOver : Nat → Bool) : Nat → Int → UInt8
  | 0, address => state.memory address
  | index + 1, address =>
    (if isOver index then state.writtenAt? program index address else none).getD
      (state.committed program isOver index address)

variable {isOver : Nat → Bool} {index bound : Nat} {address : Int}

/-- Memory is the interpreter's at an instruction, as far as every older store
is over and no younger one is. -/
theorem committed_eq (hle : index ≤ bound)
    (hold : ∀ other < index, isOver other = true ∨
      state.writtenAt? program other address = none)
    (hnew : ∀ other, index ≤ other → other < bound → isOver other = false ∨
      state.writtenAt? program other address = none) :
    state.committed program isOver bound address =
      (state.before program index).memory address := by
  induction bound, hle using Nat.le_induction with
  | base =>
      clear hnew
      induction index with
      | zero => rfl
      | succ index ih =>
          have hbefore := ih fun other hlt => hold other (by omega)
          rw [committed, memory_before_succ, hbefore]
          rcases hold index (Nat.lt_succ_self index) with hover | hnone
          · rw [if_pos hover]
          · simp [hnone]
  | succ bound hle ih =>
      have hbound := ih fun other hlow hhigh => hnew other hlow (by omega)
      rw [committed, hbound]
      rcases hnew bound hle (Nat.lt_succ_self bound) with hopen | hnone
      · simp [hopen]
      · simp [hnone]

/-- The instruction at an index counts as over as well. -/
def finish (isOver : Nat → Bool) (index other : Nat) : Bool :=
  decide (other = index) || isOver other

theorem committed_finish_of_le (hle : bound ≤ index) :
    state.committed program (finish isOver index) bound address =
      state.committed program isOver bound address := by
  induction bound with
  | zero => rfl
  | succ bound ih =>
      have hne : bound ≠ index := by omega
      simp [committed, finish, hne, ih (by omega)]

/-- A store may be over late if no younger one that is over writes the same
byte. -/
theorem committed_finish (hlt : index < bound) (hover : isOver index = false)
    (hapart : ∀ other, index < other → other < bound → isOver other = true →
      state.writtenAt? program index address = none ∨
        state.writtenAt? program other address = none) :
    state.committed program (finish isOver index) bound address =
      (state.writtenAt? program index address).getD
        (state.committed program isOver bound address) := by
  induction bound, hlt using Nat.le_induction with
  | base =>
      simp [committed, committed_finish_of_le (Nat.le_refl index), hover,
        finish]
  | succ bound hlt ih =>
      have hbound := ih fun other hlow hhigh => hapart other hlow (by omega)
      have hne : bound ≠ index := by omega
      have hsame : finish isOver index bound = isOver bound := by
        simp [finish, hne]
      rw [committed, committed, hsame, hbound]
      split
      · next hopen =>
          rcases hapart bound hlt (Nat.lt_succ_self bound) hopen with
            hnone | hnone
          · simp [hnone]
          · simp [hnone]
      · rfl

/-! ## Programs that may be executed out of order -/

/-- Two words in memory have no byte in common. -/
def Apart (address other : Int) : Prop :=
  address + 4 ≤ other ∨ other + 4 ≤ address

instance (address other : Int) : Decidable (Apart address other) :=
  inferInstanceAs (Decidable (_ ∨ _))

theorem Apart.symm {address other : Int} (h : Apart address other) :
    Apart other address :=
  Or.symm h

/-- No register but the zero register is defined by two instructions. -/
def DefinesOnce (program : List Instruction) : Prop :=
  ∀ i j : Fin program.length, i ≠ j → ∀ register ∈ (program.get i).target?,
    register ≠ zeroRegister → (program.get j).target? ≠ some register

instance (program : List Instruction) : Decidable (DefinesOnce program) :=
  inferInstanceAs (Decidable (∀ _ _, _))

/-- In the in-order execution, no store touches a byte that another access
touches. -/
def StoresApart (state : Architecture) (program : List Instruction) : Prop :=
  ∀ i j : Fin program.length, i ≠ j →
    (program.get i).opcode.isStore = true →
    (program.get j).opcode.isMemory = true →
    Apart ((state.before program i).address (program.get i))
      ((state.before program j).address (program.get j))

instance (state : Architecture) (program : List Instruction) :
    Decidable (state.StoresApart program) :=
  inferInstanceAs (Decidable (∀ _ _, _))

/-- In the in-order execution, the instructions at two indices of a program do
not touch the same byte, unless neither of them is a store. -/
def Independent (state : Architecture) (program : List Instruction)
    (i j : Nat) : Prop :=
  ∀ ins other, program[i]? = some ins → program[j]? = some other →
    ins.opcode.isMemory = true → other.opcode.isMemory = true →
    ins.opcode.isStore = true ∨ other.opcode.isStore = true →
    Apart ((state.before program i).address ins)
      ((state.before program j).address other)

theorem Independent.symm {i j : Nat} (h : state.Independent program i j) :
    state.Independent program j i :=
  fun ins other hins hother hmemory hmemory' hstore =>
    (h other ins hother hins hmemory' hmemory hstore.symm).symm

theorem StoresApart.independent (h : state.StoresApart program) {i j : Nat}
    (hne : i ≠ j) : state.Independent program i j := by
  intro ins other hins hother hmemory hmemory' hstore
  obtain ⟨hi, rfl⟩ := List.getElem?_eq_some_iff.mp hins
  obtain ⟨hj, rfl⟩ := List.getElem?_eq_some_iff.mp hother
  have hne' : (⟨i, hi⟩ : Fin program.length) ≠ ⟨j, hj⟩ := by
    simpa using hne
  rcases hstore with hstore | hstore
  · exact h ⟨i, hi⟩ ⟨j, hj⟩ hne' hstore hmemory'
  · exact (h ⟨j, hj⟩ ⟨i, hi⟩ hne'.symm hstore hmemory).symm

/-- A store writes nothing into the word of an instruction that is independent
of it. -/
theorem Independent.writtenAt?_eq_none {i j : Nat}
    (h : state.Independent program i j) {other : Instruction} {address : Int}
    (hother : program[j]? = some other) (hmemory : other.opcode.isMemory = true)
    (hlow : (state.before program j).address other ≤ address)
    (hhigh : address < (state.before program j).address other + 4) :
    state.writtenAt? program i address = none := by
  cases hwritten : state.writtenAt? program i address with
  | none => rfl
  | some byte =>
      obtain ⟨ins, hins, hbyte⟩ := Option.bind_eq_some_iff.mp hwritten
      unfold written? at hbyte
      split at hbyte
      · next hstore =>
          have hrange := Word.range_of_byte? hbyte
          have hapart := h ins other hins hother (Opcode.isMemory_of_isStore hstore)
            hmemory (.inl hstore)
          unfold Apart at hapart
          omega
      · contradiction

/-- Of two independent instructions one at most writes a byte. -/
theorem Independent.writtenAt?_or {i j : Nat}
    (h : state.Independent program i j) (address : Int) :
    state.writtenAt? program j address = none ∨
      state.writtenAt? program i address = none := by
  cases hwritten : state.writtenAt? program j address with
  | none => exact .inl rfl
  | some byte =>
      obtain ⟨other, hother, hbyte⟩ := Option.bind_eq_some_iff.mp hwritten
      unfold written? at hbyte
      split at hbyte
      · next hstore =>
          have hrange := Word.range_of_byte? hbyte
          exact .inr (h.writtenAt?_eq_none hother (Opcode.isMemory_of_isStore hstore)
            hrange.1 hrange.2)
      · contradiction

theorem DefinesOnce.eq {i j : Nat} (h : DefinesOnce program)
    (hne : register ≠ zeroRegister)
    (hi : program[i]?.bind Instruction.target? = some register)
    (hj : program[j]?.bind Instruction.target? = some register) : i = j := by
  by_contra hij
  obtain ⟨ins, hins, htarget⟩ := Option.bind_eq_some_iff.mp hi
  obtain ⟨other, hother, htarget'⟩ := Option.bind_eq_some_iff.mp hj
  obtain ⟨hlt, rfl⟩ := List.getElem?_eq_some_iff.mp hins
  obtain ⟨hlt', rfl⟩ := List.getElem?_eq_some_iff.mp hother
  exact h ⟨i, hlt⟩ ⟨j, hlt'⟩ (by simpa using hij) register htarget hne htarget'

end Architecture

end OutOfOrder
