import OutOfOrder.Proofs.Agreement

/-!
# The rename map

Along every run the rename map says which registers have a definer outstanding,
and where it is worked on.  A stale definer does not clear a newer tag, the
last one clears its own, and a station that is freed and used again leaves no
tag behind.
-/

namespace OutOfOrder

namespace Directory

variable {κ α : Type} [DecidableEq κ]

theorem entries_eq_nil {directory : Directory κ α}
    (h : ∀ key, directory.get? key = none) : directory.entries = [] := by
  cases hentries : directory.entries with
  | nil => rfl
  | cons entry rest =>
      have hfirst := h entry.1
      simp [get?, hentries] at hfirst

end Directory

namespace Machine

variable {m : Machine} {ledger : Ledger}

/-- No station is seated in a free bank. -/
theorem Agrees.seat?_eq_none_of_isFree (h : m.Agrees ledger)
    (hfree : m.bank.isFree = true) (name : String) :
    ledger.seat? name = none := by
  cases hseat : ledger.seat? name with
  | none => rfl
  | some number =>
      obtain ⟨station, _, hstation, hbusy, -, -⟩ := h.occupied hseat
      rw [Bank.busy_eq_false_of_isFree hfree hstation] at hbusy
      contradiction

theorem Agrees.tags_zeroRegister (h : m.Agrees ledger) :
    m.registers.tags.get? zeroRegister = none := by
  cases htag : m.registers.tags.get? zeroRegister with
  | none => rfl
  | some name => exact absurd rfl ((h.tags zeroRegister name).mp htag).1

theorem Agrees.tags_injective (h : m.Agrees ledger)
    {register other name : String}
    (hregister : m.registers.tags.get? register = some name)
    (hother : m.registers.tags.get? other = some name) : register = other := by
  obtain ⟨-, number, hdefiner, hseat⟩ := (h.tags register name).mp hregister
  obtain ⟨-, number', hdefiner', hseat'⟩ := (h.tags other name).mp hother
  rw [hseat] at hseat'
  cases hseat'
  have htarget := (Ledger.definerBefore?_eq_some hdefiner).2
  rw [(Ledger.definerBefore?_eq_some hdefiner').2] at htarget
  cases htarget
  rfl

theorem Agrees.tags_entries_eq_nil (h : m.Agrees ledger)
    (hfree : m.bank.isFree = true) : m.registers.tags.entries = [] := by
  apply Directory.entries_eq_nil
  intro register
  cases htag : m.registers.tags.get? register with
  | none => rfl
  | some name =>
      obtain ⟨-, number, -, hseat⟩ := (h.tags register name).mp htag
      rw [h.seat?_eq_none_of_isFree hfree] at hseat
      contradiction

end Machine

/-- In every state of every run, broken cycles included, the tag of a register
other than the zero register names a station if and only if that station works
on the last issue that defines the register.  The seated issues are those that
the stations work on, the zero register has no tag, no station is the tag of
two registers, and there is no tag when no station is at work. -/
theorem Simulation.rename_map_exact (config : Config)
    (preload : List (Int × Int)) (actions : List Action) :
    let sim := (fresh config preload).after actions
    let tags := sim.machine.registers.tags
    (∀ register name, register ≠ zeroRegister →
      (tags.get? register = some name ↔
        ∃ number, sim.ledger.definer? register = some number ∧
          sim.ledger.seat? name = some number)) ∧
    (∀ name number, sim.ledger.seat? name = some number →
      ∃ station ins, sim.machine.bank.station? name = some station ∧
        station.busy = true ∧ station.instruction? = some ins ∧
        sim.ledger.issues[number]? = some ⟨name, ins⟩) ∧
    (∀ name station, sim.machine.bank.station? name = some station →
      station.busy = true → ∃ number, sim.ledger.seat? name = some number) ∧
    tags.get? zeroRegister = none ∧
    (∀ register other name, tags.get? register = some name →
      tags.get? other = some name → register = other) ∧
    (sim.machine.bank.isFree = true → tags.entries = []) := by
  have hagrees := agrees_fresh config preload actions
  refine ⟨?_, ?_, ?_, ?_, ?_, ?_⟩
  · intro register name hne
    rw [hagrees.tags]
    exact and_iff_right hne
  · exact fun name number hseat => hagrees.occupied hseat
  · exact fun name station hstation hbusy => hagrees.seated hstation hbusy
  · exact hagrees.tags_zeroRegister
  · exact fun register other name hregister hother =>
      hagrees.tags_injective hregister hother
  · exact hagrees.tags_entries_eq_nil

-- two definers of F2 are at work, and the tag names the later one
example :
    let sim := (Simulation.fresh .standard []).running
      [{ opcode := .mul, dest := "F2", src1 := "F1", src2 := "F1" },
        { opcode := .add, dest := "F2", src1 := "F3", src2 := "F1" }] 2
    sim.machine.registers.tags.entries = [("F2", "Add0")] ∧
      (sim.machine.bank.station? "Mul0").any (·.busy) = true := by
  decide +kernel

end OutOfOrder
