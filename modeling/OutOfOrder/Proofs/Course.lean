import OutOfOrder.Proofs.Kept

/-!
# The course of a program

A machine that has been handed one program issues it from some place on, and its
stations work on instructions of it.  A taken branch alone changes the place,
and it goes forward if its constant is not negative.
-/

namespace OutOfOrder.Machine

variable {m m' : Machine} {log : List Happening} {program : List Instruction}

/-- What is to be issued is the program from the place of the next instruction
on, and the stations work on instructions of the program. -/
structure WorksOn (m : Machine) (program : List Instruction) : Prop where
  program_eq : m.program.map (·.instruction) = program
  queue_eq : m.queue = m.program.drop m.issuedCount
  issuedCount_le : m.issuedCount ≤ program.length
  held : ∀ {name station ins}, m.bank.station? name = some station →
    station.busy = true → station.instruction? = some ins → ins ∈ program

theorem WorksOn.length_program (h : m.WorksOn program) :
    m.program.length = program.length := by
  rw [← h.program_eq, List.length_map]

theorem WorksOn.mem_of_mem_queue (h : m.WorksOn program) {next : Stamped}
    (hmem : next ∈ m.queue) : next.instruction ∈ program := by
  rw [h.queue_eq] at hmem
  rw [← h.program_eq]
  exact List.mem_map_of_mem (List.mem_of_mem_drop hmem)

theorem WorksOn.mem_of_granted? (h : m.WorksOn program)
    (hdistinct : m.bank.Distinct) {station : Station} {ins : Instruction}
    (hgranted : m.bank.granted? = some station)
    (hins : station.instruction? = some ins) : ins ∈ program :=
  h.held (station?_granted hdistinct hgranted)
    (Machine.mem_of_granted? hgranted).2.1 hins

theorem WorksOn.begin (h : m.WorksOn program) : m.begin.WorksOn program where
  program_eq := h.program_eq
  queue_eq := h.queue_eq
  issuedCount_le := h.issuedCount_le
  held := by
    intro name station ins hstation hbusy hins
    rw [station?_begin] at hstation
    obtain ⟨before, hbefore, rfl⟩ := Option.map_eq_some_iff.mp hstation
    obtain ⟨_, _, _, heq⟩ := before.kept_endPause
    rw [heq] at hbusy hins
    exact h.held hbefore hbusy hins

/-- A write-back leaves the place in the program as it is, or it is that of a
branch that goes to its destination. -/
theorem WritesBack.place_cases (hphase : m.WritesBack m' log)
    (htold : isTold log = true) :
    (m'.queue = m.queue ∧ m'.issuedCount = m.issuedCount) ∨
      ∃ station ins, m.bank.granted? = some station ∧
        station.instruction? = some ins ∧ ins.opcode.isBranch = true ∧
        (m'.issuedCount : Int) = m.issuedCount + ins.constant ∧
        m'.issuedCount < m.program.length ∧
        m'.queue = m.program.drop m'.issuedCount := by
  cases hphase with
  | idle => exact .inl ⟨rfl, rfl⟩
  | empty => nomatch htold
  | broken _ _ huntold =>
      rw [huntold] at htold
      nomatch htold
  | stored => exact .inl ⟨rfl, rfl⟩
  | @branched station ins hgranted hins hform =>
      rcases m.redirect_cases station ins with
        heq | heq | ⟨index, next, hindex, hnext, heq⟩
      · rw [heq]
        exact .inl ⟨rfl, rfl⟩
      · rw [heq]
        exact .inl ⟨rfl, rfl⟩
      · rw [heq]
        have hbranch : ins.opcode.isBranch = true := by
          simp [Opcode.isBranch, hform]
        exact .inr ⟨station, ins, hgranted, hins, hbranch, hindex,
          (List.getElem?_eq_some_iff.mp hnext).1, rfl⟩
  | published => exact .inl ⟨rfl, rfl⟩

theorem WorksOn.writesBack (h : m.WorksOn program)
    (hphase : m.WritesBack m' log) (htold : isTold log = true)
    (hdistinct : m.bank.Distinct) : m'.WorksOn program := by
  have hprogram := hphase.sameFrame.program
  have hheld : ∀ {name station ins}, m'.bank.station? name = some station →
      station.busy = true → station.instruction? = some ins →
      ins ∈ program := by
    intro name station ins hstation hbusy hins
    obtain ⟨before, hbefore, hkept⟩ :=
      hphase.kept_of_busy htold hdistinct hstation hbusy
    obtain ⟨_, _, _, rfl⟩ := hkept
    exact h.held hbefore hbusy hins
  rcases hphase.place_cases htold with
    ⟨hqueue, hplace⟩ | ⟨_, _, -, -, -, -, hlt, hqueue⟩
  · refine ⟨hprogram ▸ h.program_eq, ?_, hplace ▸ h.issuedCount_le, hheld⟩
    rw [hqueue, hplace, hprogram]
    exact h.queue_eq
  · refine ⟨hprogram ▸ h.program_eq, ?_, ?_, hheld⟩
    · rw [hqueue, hprogram]
    · rw [h.length_program] at hlt
      exact Nat.le_of_lt hlt

/-- Where no branch goes back, a write-back drops instructions at most. -/
theorem WorksOn.queue_suffix (h : m.WorksOn program)
    (hforward : ∀ ins ∈ program, ins.opcode.isBranch = true →
      0 ≤ ins.constant)
    (hphase : m.WritesBack m' log) (htold : isTold log = true)
    (hdistinct : m.bank.Distinct) : m'.queue <:+ m.queue := by
  rcases hphase.place_cases htold with
    ⟨hqueue, -⟩ | ⟨station, ins, hgranted, hins, hbranch, hindex, -, hqueue⟩
  · exact hqueue ▸ List.suffix_refl m.queue
  · have hconstant := hforward ins
      (h.mem_of_granted? hdistinct hgranted hins) hbranch
    have hplace : m'.issuedCount =
        m.issuedCount + (m'.issuedCount - m.issuedCount) := by
      omega
    rw [hqueue, h.queue_eq, hplace, ← List.drop_drop]
    exact List.drop_suffix _ _

theorem WorksOn.issues (h : m.WorksOn program) (hphase : m.Issues m' log)
    (hdistinct : m.bank.Distinct) : m'.WorksOn program := by
  cases hphase with
  | drained => exact h
  | stalled => exact h
  | @issued next rest station hqueue hfree =>
      have hnext : next ∈ m.queue := hqueue ▸ List.mem_cons_self
      have hdrop : m.program.drop m.issuedCount = next :: rest :=
        h.queue_eq.symm.trans hqueue
      refine ⟨h.program_eq, ?_, ?_, ?_⟩
      · have htail := congrArg List.tail hdrop
        rw [List.tail_drop] at htail
        exact htail.symm
      · have hlength := congrArg List.length hdrop
        rw [List.length_drop, List.length_cons, h.length_program] at hlength
        dsimp only
        omega
      · intro name other ins hother hbusy hins
        rw [station?_occupied hdistinct hfree] at hother
        split at hother
        · cases hother
          cases hins
          exact h.mem_of_mem_queue hnext
        · exact h.held hother hbusy hins

theorem WorksOn.execute (h : m.WorksOn program) :
    m.execute.1.WorksOn program where
  program_eq := h.program_eq
  queue_eq := h.queue_eq
  issuedCount_le := h.issuedCount_le
  held := by
    intro name station ins hstation hbusy hins
    obtain ⟨before, hbefore, hstep⟩ := exists_stepped_of_execute hstation
    have hwork := hstep.sameWork
    exact h.held hbefore (hwork.busy.symm.trans hbusy)
      (hwork.instruction?.symm.trans hins)

end OutOfOrder.Machine
