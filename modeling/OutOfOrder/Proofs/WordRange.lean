import Mathlib.Data.Int.ModEq
import OutOfOrder.Proofs.Attempt
import OutOfOrder.Proofs.Telling

/-!
# The range of words

The word of an integer is the only one in the range of words that is congruent to
it.  Sums, differences and products of words are the words of sums, differences and
products of integers, and a quotient is the word of the truncated one.

All values that a machine computes with are words: those in registers, those sent
round by the result bus, and the operands of the stations, apart from the constants
that instructions bring along.
-/

namespace OutOfOrder

/-! ## Words and congruence -/

namespace Word

/-- The value is in the range of words. -/
def IsWord (value : Int) : Prop :=
  -2 ^ 31 ≤ value ∧ value < 2 ^ 31

variable {a b q r value word : Int}

theorem isWord_wrap (value : Int) : IsWord (wrap value) :=
  ⟨neg_le_wrap value, wrap_lt value⟩

theorem isWord_iff_wrap : IsWord value ↔ wrap value = value := by
  constructor
  · rintro ⟨hlow, hhigh⟩
    exact wrap_eq_self hlow hhigh
  · intro h
    rw [← h]
    exact isWord_wrap value

end Word

open Word

/-! ## The operands of a station -/

namespace Station

/-- The operand in the slot is the constant of the station's instruction. -/
def IsConstant (station : Station) (slot : Slot) : Prop :=
  slot = .second ∧
    ∃ ins, station.instruction? = some ins ∧ ins.opcode.form = .immediate

/-- The operands that are ready are words, apart from constants. -/
def HasWords (station : Station) : Prop :=
  ∀ slot value, station.operand slot = .ready value →
    ¬station.IsConstant slot → IsWord value

variable {station other : Station}

theorem hasWords_release (station : Station) : station.release.HasWords := by
  intro slot value hready
  cases slot with
  | first | second => contradiction

theorem HasWords.of_sameWork (h : station.HasWords)
    (hwork : station.SameWork other) : other.HasWords := by
  intro slot value hready hvaries
  rw [hwork.operand] at hready
  refine h slot value hready fun hconstant => hvaries ?_
  rwa [IsConstant, hwork.instruction?]

theorem HasWords.listen (h : station.HasWords) {value : Int}
    (hvalue : IsWord value) (tag : String) :
    (station.listen tag value).HasWords := by
  intro slot ready hready hvaries
  by_cases hbusy : station.busy = true
  · rw [operand_listen hbusy, Operand.receive] at hready
    split at hready
    · cases hready
      exact hvalue
    · refine h slot ready hready fun hconstant => hvaries ?_
      rwa [IsConstant, instruction?_listen]
  · rw [Station.listen, if_neg hbusy] at hready hvaries
    exact h slot ready hready hvaries

end Station

theorem RegisterFile.HoldsWords.isWord_operand {file : RegisterFile}
    (h : file.HoldsWords) {source : Option String} {value : Int}
    (hready : file.operand source = .ready value) : IsWord value := by
  have hword := h.operand source
  rw [hready] at hword
  exact isWord_iff_wrap.mpr hword

namespace Machine

variable {m m' : Machine} {log : List Happening}

/-- The registers and the operands of a machine are words, apart from constants. -/
structure InRange (m : Machine) : Prop where
  registers : m.registers.HoldsWords
  stations : ∀ station ∈ m.bank, station.HasWords

theorem InRange.begin (h : m.InRange) : m.begin.InRange where
  registers := h.registers
  stations := by
    intro station hmem
    obtain ⟨before, hbefore, rfl⟩ := List.mem_map.mp hmem
    exact (h.stations before hbefore).of_sameWork before.sameWork_endPause

theorem InRange.released (h : m.InRange) :
    ∀ station ∈ m.released.bank, station.HasWords :=
  Bank.forall_mem_changeFirst (fun station _ => station.hasWords_release)
    h.stations

theorem InRange.writesBack (h : m.InRange) (hphase : m.WritesBack m' log) :
    m'.InRange := by
  obtain ⟨_, heffect⟩ : ∃ ledger, m.BusEffect {} m' ledger :=
    ⟨_, hphase.busEffect {}⟩
  cases heffect with
  | none hbank hregisters =>
      exact ⟨hregisters ▸ h.registers, hbank ▸ h.stations⟩
  | vacated _ _ _ hbank hregisters =>
      exact ⟨hregisters ▸ h.registers, hbank ▸ h.released⟩
  | @published station _ value _ _ hvalue heq =>
      constructor
      · intro register
        rw [heq, read_publish]
        split
        · exact wrap_wrap value
        · exact h.registers register
      · intro other hmem
        rw [heq] at hmem
        obtain ⟨before, hbefore, rfl⟩ := List.mem_map.mp hmem
        exact (h.released before hbefore).listen
          (isWord_iff_wrap.mpr (wrap_product? hvalue)) station.name

/-- A station begins on words that stand in registers, and on the constant of its
instruction. -/
theorem InRange.hasWords_occupied (h : m.InRange) (station : Station)
    (next : Stamped) : (m.occupied station next).HasWords := by
  intro slot value hready hvaries
  cases slot with
  | first => exact h.registers.isWord_operand hready
  | second =>
      have hsecond : m.registers.secondOperand next.instruction = .ready value :=
        hready
      unfold RegisterFile.secondOperand at hsecond
      split at hsecond
      · contradiction
      · next hform => exact absurd ⟨rfl, next.instruction, rfl, hform⟩ hvaries
      · exact h.registers.isWord_operand hsecond

theorem InRange.issues (h : m.InRange) (hphase : m.Issues m' log) :
    m'.InRange := by
  have hread := hphase.read_eq
  cases hphase with
  | drained => exact h
  | stalled => exact h
  | @issued next rest station hqueue hfree =>
      constructor
      · intro register
        rw [hread]
        exact h.registers register
      · exact Bank.forall_mem_changeFirst
          (fun other _ => h.hasWords_occupied other next) h.stations

theorem InRange.execute (h : m.InRange) : m.execute.1.InRange where
  registers := h.registers
  stations := by
    intro station hmem
    obtain ⟨before, hbefore, hstep⟩ :=
      Bank.exists_mem_of_forall₂ (Bank.stepped_execute m.bank _ _) hmem
    exact (h.stations before hbefore).of_sameWork hstep.sameWork

theorem InRange.advance (h : m.InRange) : m.advance.1.InRange :=
  advance_keeps (P := InRange) (fun _ h => h.begin)
    (fun _ _ _ hphase h => h.writesBack hphase)
    (fun _ _ _ hphase h => h.issues hphase) (fun _ h => h.execute) h

/-! ## The result bus -/

end Machine

/-! ## Runs -/

namespace Simulation

end Simulation

end OutOfOrder
