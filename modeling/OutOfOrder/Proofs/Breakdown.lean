import OutOfOrder.Proofs.Agreement

/-!
# Cycles that break off for good

The write-back of an instruction other than a branch says the same when it is
tried again.  So a machine whose cycle is broken off there, where the outcome
cannot be told, is stuck: every later cycle breaks off in the same place, the
station keeps its instruction, and the machine is never idle.
-/

namespace OutOfOrder.Machine

variable {m m' : Machine} {ledger : Ledger} {log : List Happening}
  {station : Station} {ins : Instruction}

/-- The station that has the bus works on an instruction, no branch, whose
outcome cannot be told. -/
def Stuck (m : Machine) : Prop :=
  ∃ station ins, m.bank.granted? = some station ∧
    station.instruction? = some ins ∧ ins.opcode.form ≠ .branch ∧
    isTold (m.settle station ins).2 = false

/-- A write-back that cannot be told ends when its instruction is settled. -/
theorem writeback_of_untold (hgranted : m.bank.granted? = some station)
    (hins : station.instruction? = some ins)
    (huntold : isTold (m.settle station ins).2 = false) :
    m.writeback = m.settle station ins := by
  simp [writeback, hgranted, hins, huntold]

theorem settle_settle (hform : ins.opcode.form ≠ .branch) :
    ((m.settle station ins).1.settle station ins).2 =
      (m.settle station ins).2 := by
  cases h : ins.opcode.form with
  | branch => exact absurd h hform
  | load | store | immediate | register | bare => simp [settle, h]

theorem granted?_begin (m : Machine) :
    m.begin.bank.granted? = m.bank.granted?.map Station.endPause := by
  have hasks : (Station.asksForBus ∘ Station.endPause) = Station.asksForBus := by
    funext station
    unfold Function.comp Station.endPause
    split <;> rfl
  rw [Bank.granted?, Bank.granted?, begin, List.find?_map, hasks]

/-- The end of a pause does not change what an instruction does. -/
theorem settle_begin (hform : ins.opcode.form ≠ .branch) :
    (m.begin.settle station.endPause ins).2 = (m.settle station ins).2 := by
  unfold Station.endPause
  cases h : ins.opcode.form with
  | branch => exact absurd h hform
  | load | store | immediate | register | bare =>
      split <;> simp [settle, h, begin, Station.result]

theorem Stuck.begin (h : m.Stuck) : m.begin.Stuck := by
  obtain ⟨station, ins, hgranted, hins, hform, huntold⟩ := h
  refine ⟨station.endPause, ins, ?_, ?_, hform, ?_⟩
  · rw [granted?_begin, hgranted]
    rfl
  · rw [(Station.sameWork_endPause station).instruction?, hins]
  · rw [settle_begin hform, huntold]

theorem Stuck.settle (hgranted : m.bank.granted? = some station)
    (hins : station.instruction? = some ins)
    (hform : ins.opcode.form ≠ .branch)
    (huntold : isTold (m.settle station ins).2 = false) :
    (m.settle station ins).1.Stuck := by
  obtain ⟨cache, queue, issuedCount, heq⟩ := settle_eq m station ins
  refine ⟨station, ins, ?_, hins, hform, ?_⟩
  · rw [heq, hgranted]
  · rw [settle_settle hform, huntold]

theorem Stuck.advance (h : m.Stuck) : m.advance.1.Stuck := by
  obtain ⟨station, ins, hgranted, hins, hform, huntold⟩ := h.begin
  have hwriteback := writeback_of_untold hgranted hins huntold
  have hbroken : isTold m.begin.writeback.2 = false := by
    rw [hwriteback, huntold]
  rw [advance_of_untold hbroken, hwriteback]
  exact .settle hgranted hins hform huntold

theorem Stuck.isIdle_eq_false (h : m.Stuck) : m.isIdle = false := by
  obtain ⟨station, ins, hgranted, -, -, -⟩ := h
  have hmem := List.mem_of_find?_eq_some hgranted
  have hbusy : station.busy = true := by
    have hasks := List.find?_some hgranted
    simp only [Station.asksForBus, Bool.and_eq_true] at hasks
    exact hasks.1
  have hbank : m.bank.isFree = false :=
    Bank.isFree_eq_false_iff.mpr ⟨station, hmem, hbusy⟩
  rw [isIdle, hbank, Bool.and_false]

/-- A write-back that cannot be told leaves the machine stuck, unless it is that
of a branch. -/
theorem Agrees.stuck_of_untold (h : m.Agrees ledger)
    (hphase : m.WritesBack m' log) (huntold : isTold log = false)
    (hbranch : ∀ {station ins}, m.bank.granted? = some station →
      station.instruction? = some ins → ins.opcode.form ≠ .branch) :
    m'.Stuck := by
  cases hphase with
  | idle => nomatch huntold
  | @empty station hgranted hins =>
      obtain ⟨number, hseat⟩ := h.seated_granted hgranted
      have hstation := station?_granted h.sound.distinct hgranted
      obtain ⟨other, ins, hother, -, hheld, -⟩ := h.occupied hseat
      rw [hstation] at hother
      cases hother
      rw [hins] at hheld
      contradiction
  | broken hgranted hins huntold =>
      exact .settle hgranted hins (hbranch hgranted hins) huntold
  | stored _ _ _ htold =>
      rw [htold] at huntold
      nomatch huntold
  | branched hgranted hins hform =>
      exact absurd hform (hbranch hgranted hins)
  | published _ _ _ hhappening htold =>
      rw [isTold_publish hhappening htold] at huntold
      nomatch huntold

end OutOfOrder.Machine
