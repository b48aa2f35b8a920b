import OutOfOrder.Proofs.Completed
import OutOfOrder.Proofs.InOrderResult

/-!
# A machine with one station

If all instructions of a program go to a pool that has one station, the machine
works on one instruction at a time: the next one is issued when the one before
it was written back.  It is an interpreter then that takes some cycles for each
instruction, be it an access to bytes that others access, a register that is
defined again, or a branch that goes back.

Between two instructions the queue is what the interpreter still sees of the
program, and within an instruction the station holds the interpreter's operands.
-/

namespace OutOfOrder

/-! ## The interpreter with branches -/

/-- A program in the course of its interpretation: what it sees of the machine,
and the index of its next instruction. -/
structure Interpretation where
  state : Architecture
  place : Nat

namespace Interpretation

/-- The index at which a program of a size goes on behind an instruction.  A
branch that is taken goes to its target if the program has an instruction
there. -/
def next (current : Interpretation) (size : Nat) (ins : Instruction) : Nat :=
  let target : Int := current.place + 1 + ins.constant
  if ins.opcode.isBranch = true ∧
      ins.opcode.taken (current.state.source ins.src1)
        (current.state.source ins.src2) = true ∧
      0 ≤ target ∧ target < size
  then target.toNat else current.place + 1

/-- Interprets one instruction, if there is one. -/
def step? (program : List Instruction) (current : Interpretation) :
    Option Interpretation :=
  program[current.place]?.map fun ins =>
    ⟨current.state.step ins, current.next program.length ins⟩

/-- Interprets as many instructions as given, if there are so many. -/
def run? (program : List Instruction) (start : Interpretation) :
    Nat → Option Interpretation
  | 0 => some start
  | count + 1 => (start.run? program count).bind (step? program)

variable {program : List Instruction} {current : Interpretation}

theorem next_le {ins : Instruction} (h : program[current.place]? = some ins) :
    current.next program.length ins ≤ program.length := by
  have hlt := (List.getElem?_eq_some_iff.mp h).1
  unfold next
  dsimp only
  split
  · next htaken => omega
  · exact hlt

theorem run?_add (start : Interpretation) (first second : Nat) :
    start.run? program (first + second) =
      (start.run? program first).bind (·.run? program second) := by
  induction second with
  | zero =>
      cases start.run? program first with
      | none => rfl
      | some => rfl
  | succ second ih =>
      rw [← Nat.add_assoc, run?, ih]
      cases start.run? program first with
      | none => rfl
      | some => rfl

/-- The interpreter does not leave the program but behind its end. -/
theorem place_le_of_run? {start : Interpretation} {count : Nat}
    (hstart : start.place ≤ program.length)
    (h : start.run? program count = some current) :
    current.place ≤ program.length := by
  cases count with
  | zero =>
      cases h
      exact hstart
  | succ count =>
      obtain ⟨before, -, hstep⟩ := Option.bind_eq_some_iff.mp h
      obtain ⟨ins, hins, rfl⟩ := Option.map_eq_some_iff.mp hstep
      exact next_le hins

end Interpretation

namespace Machine

variable {pool : Pool} {program : List Instruction} {m m' : Machine}
  {current : Interpretation} {log : List Happening} {station : Station}
  {ins : Instruction} {value : Int} {ledger : Ledger}

/-! ## The interpreter's instruction at its station -/

/-- No station is at work, and what is to be issued is what the interpreter has
before it. -/
structure Between (m : Machine) (current : Interpretation) : Prop where
  free : m.bank.isFree = true
  index : m.issuedCount = current.place
  queue : m.queue = m.program.drop current.place

/-- The only station at work holds the interpreter's next instruction with its
operands. -/
structure Within (program : List Instruction) (m : Machine)
    (current : Interpretation) (name : String) (ins : Instruction) : Prop where
  holds : ∃ station, m.bank.station? name = some station ∧
    station.busy = true ∧ station.instruction? = some ins ∧
    ∀ slot, (station.operand slot).value = current.state.input ins slot
  only : ∀ {tag other}, m.bank.station? tag = some other →
    other.busy = true → tag = name
  instruction : program[current.place]? = some ins
  index : m.issuedCount = current.place + 1
  queue : m.queue = m.program.drop (current.place + 1)

/-- The machine is at the interpreter's next instruction. -/
structure Interprets (pool : Pool) (program : List Instruction) (m : Machine)
    (current : Interpretation) : Prop where
  agrees : ∃ ledger, m.Agrees ledger
  one : m.HasOne pool
  instructions : m.program.map (·.instruction) = program
  architecture : m.architecture = current.state
  phase : m.Between current ∨ ∃ name ins, m.Within program current name ins

theorem isFree_of_station? (hdistinct : m.bank.Distinct)
    (h : ∀ {name station}, m.bank.station? name = some station →
      station.busy = false) : m.bank.isFree = true :=
  Bank.isFree_iff.mpr fun _ hmem => h (hdistinct.station?_name hmem)

/-! ## Write-back -/

/-- A branch goes where the interpreter goes. -/
theorem redirect_next (hindex : m.issuedCount = current.place + 1)
    (hqueue : m.queue = m.program.drop (current.place + 1))
    (hinstructions : m.program.map (·.instruction) = program)
    (hbranch : ins.opcode.isBranch = true)
    (hfirst : station.j.value = current.state.source ins.src1)
    (hsecond : station.k.value = current.state.source ins.src2) :
    (m.redirect station ins).1.issuedCount =
        current.next program.length ins ∧
      (m.redirect station ins).1.queue =
        m.program.drop (current.next program.length ins) := by
  have hlength : m.program.length = program.length := by
    rw [← hinstructions, List.length_map]
  have htarget : (m.issuedCount : Int) + ins.constant =
      current.place + 1 + ins.constant := by
    rw [hindex]
    rfl
  unfold redirect Interpretation.next
  rw [hfirst, hsecond, htarget]
  dsimp only
  generalize (current.place : Int) + 1 + ins.constant = target
  by_cases htaken : ins.opcode.taken (current.state.source ins.src1)
      (current.state.source ins.src2) = true
  · simp only [htaken, hbranch, Bool.not_true, Bool.false_eq_true, if_false,
      true_and]
    by_cases hlow : target < 0
    · rw [if_pos hlow, if_neg (by omega)]
      exact ⟨hindex, hqueue⟩
    · rw [if_neg hlow]
      by_cases hhigh : target.toNat < m.program.length
      · rw [List.getElem?_eq_getElem hhigh, if_pos (by omega)]
        exact ⟨rfl, rfl⟩
      · rw [List.getElem?_eq_none (by omega), if_neg (by omega)]
        exact ⟨hindex, hqueue⟩
  · have hkept : ¬ (ins.opcode.isBranch = true ∧
        ins.opcode.taken (current.state.source ins.src1)
          (current.state.source ins.src2) = true ∧
        0 ≤ target ∧ target < program.length) :=
      fun hboth => htaken hboth.2.1
    have hfalse : ins.opcode.taken (current.state.source ins.src1)
        (current.state.source ins.src2) = false := by
      simpa using htaken
    rw [if_neg hkept, hfalse]
    exact ⟨hindex, hqueue⟩

theorem memory_stored {state : Architecture}
    (hform : ins.opcode.form = .store)
    (haddress : station.address = state.address ins)
    (hvalue : station.k.value = state.input ins .second)
    (hmemory : m.cache.readByte = state.memory) :
    (m.cache.writeWord station.address station.k.value).readByte =
      (state.step ins).memory := by
  have hstore : ins.opcode.isStore = true := by
    simp [Opcode.isStore, hform]
  have hsource : station.k.value = state.source ins.src2 := by
    rw [hvalue, Architecture.input, hform]
  funext address
  rw [Architecture.memory_step, Architecture.written?, if_pos hstore,
    ← hmemory, Cache.readByte, Cache.memory_writeWord,
    Memory.readByte_storeWord, haddress, hsource]
  rfl

theorem memory_step_of_form {state : Architecture}
    (hform : ins.opcode.form ≠ .store) :
    (state.step ins).memory = state.memory := by
  have hstore : ins.opcode.isStore = false := by
    simpa [Opcode.isStore] using hform
  funext address
  rw [Architecture.memory_step, Architecture.written?, hstore]
  rfl

/-- The state behind a write-back is the interpreter's behind its instruction. -/
theorem WritesBack.architecture_eq (hphase : m.WritesBack m' log)
    (htold : isTold log = true) (hsound : m.Sound)
    (hgranted : m.bank.granted? = some station)
    (hins : station.instruction? = some ins)
    (hinputs : ∀ slot,
      (station.operand slot).value = m.architecture.input ins slot) :
    m'.architecture = m.architecture.step ins := by
  have haddress : ins.opcode.isMemory = true →
      station.address = m.architecture.address ins := by
    intro hmemory
    rw [hsound.address_granted hgranted hins hmemory]
    exact congrArg (· + ins.constant) (hinputs .first)
  rcases hphase.of_granted htold hgranted hins with
    ⟨hform, rfl⟩ | ⟨hform, rfl⟩ | ⟨value, _, hvalue, -, -, rfl, -⟩
  · have hmemory : ins.opcode.isMemory = true :=
      Opcode.isMemory_of_isStore (by simp [Opcode.isStore, hform])
    have hregisters : m.registers.read =
        (m.architecture.step ins).registers := by
      rw [Architecture.step, hform]
      rfl
    exact congrArg₂ Architecture.mk hregisters
      (memory_stored hform (haddress hmemory) (hinputs .second) rfl)
  · obtain ⟨queue, issuedCount, heq⟩ := redirect_eq m station ins
    rw [Architecture.step, hform, heq]
    rfl
  · have hresult : value = m.architecture.result ins :=
      result_of_product? hinputs (fun hload =>
        product?_of_isLoad hload (haddress (by simp [Opcode.isMemory, hload]))
          hvalue) hvalue
    have hform : ins.opcode.form ≠ .store := by
      intro hform
      simp [product?, hform] at hvalue
    have hregisters : (m.released.publish station.name ins
        value).1.registers.read = (m.architecture.step ins).registers := by
      funext register
      rw [read_publish, Architecture.registers_step, wrap_product? hvalue,
        hresult]
      rfl
    have hmemory : m.cache.readByte = (m.architecture.step ins).memory := by
      rw [memory_step_of_form hform]
      rfl
    exact congrArg₂ Architecture.mk hregisters hmemory

/-- Behind a write-back the program goes on where the interpreter goes on. -/
theorem WritesBack.queue_eq (hphase : m.WritesBack m' log)
    (htold : isTold log = true)
    (hgranted : m.bank.granted? = some station)
    (hins : station.instruction? = some ins)
    (hinputs : ∀ slot,
      (station.operand slot).value = current.state.input ins slot)
    (hinstructions : m.program.map (·.instruction) = program)
    (hindex : m.issuedCount = current.place + 1)
    (hqueue : m.queue = m.program.drop (current.place + 1)) :
    m'.issuedCount = current.next program.length ins ∧
      m'.queue = m'.program.drop (current.next program.length ins) := by
  have hstraight : ins.opcode.form ≠ .branch →
      current.next program.length ins = current.place + 1 := by
    intro hform
    have hbranch : ins.opcode.isBranch = false := by
      simpa [Opcode.isBranch] using hform
    rw [Interpretation.next, hbranch]
    rfl
  rcases hphase.of_granted htold hgranted hins with
    ⟨hform, rfl⟩ | ⟨hform, rfl⟩ | ⟨value, _, hvalue, -, -, rfl, -⟩
  · rw [hstraight (by simp [hform])]
    exact ⟨hindex, hqueue⟩
  · have hbranch : ins.opcode.isBranch = true := by
      simp [Opcode.isBranch, hform]
    have hsecond : station.k.value = current.state.source ins.src2 := by
      have hinput := hinputs .second
      rwa [Architecture.input, hform] at hinput
    have hnext := redirect_next hindex hqueue hinstructions hbranch
      (hinputs .first) hsecond
    obtain ⟨queue, issuedCount, heq⟩ := redirect_eq m station ins
    rw [heq] at hnext ⊢
    exact hnext
  · have hform : ins.opcode.form ≠ .branch := by
      intro hform
      simp [product?, hform] at hvalue
    rw [hstraight hform]
    exact ⟨hindex, hqueue⟩

/-- A write-back takes the machine behind the interpreter's instruction. -/
theorem Interprets.writesBack (h : m.Interprets pool program current)
    (hphase : m.WritesBack m' log) (htold : isTold log = true) :
    (m.bank.granted? = none ∧ m'.Interprets pool program current) ∨
      (∃ station, m.bank.granted? = some station) ∧
        ∃ next, current.step? program = some next ∧
          m'.Interprets pool program next := by
  obtain ⟨ledger, hagrees⟩ := h.agrees
  have hafter := hagrees.writesBack hphase
  have hplaces := map_place_writesBack hphase
  cases hgranted : m.bank.granted? with
  | none =>
      left
      rw [hphase.eq_self htold hgranted]
      exact ⟨rfl, h⟩
  | some station =>
      right
      refine ⟨⟨station, rfl⟩, ?_⟩
      have hsound := hagrees.sound
      have hstation := station?_granted hsound.distinct hgranted
      have hbusy := (mem_of_granted? hgranted).2.1
      rcases h.phase with hbetween | ⟨name, ins, hwithin⟩
      · rw [Bank.busy_eq_false_of_isFree hbetween.free hstation] at hbusy
        contradiction
      -- the station that has the bus is the only one at work
      · obtain ⟨held, hheld, -, hins, hinputs⟩ := hwithin.holds
        cases hwithin.only hstation hbusy
        cases hstation.symm.trans hheld
        refine ⟨⟨current.state.step ins, current.next program.length ins⟩,
          ?_, ⟨_, hafter⟩, h.one.of_map_place_eq hplaces, ?_, ?_, .inl ?_⟩
        · rw [Interpretation.step?, hwithin.instruction]
          rfl
        · rw [hphase.sameFrame.program]
          exact h.instructions
        · rw [hphase.architecture_eq htold hsound hgranted hins, h.architecture]
          rw [h.architecture]
          exact hinputs
        · obtain ⟨hindex, hqueue⟩ := hphase.queue_eq htold hgranted hins hinputs
            h.instructions hwithin.index hwithin.queue
          refine ⟨isFree_of_station? hafter.sound.distinct ?_, hindex, hqueue⟩
          intro tag other hother
          by_contra hworks
          have hbusy' : other.busy = true := by simpa using hworks
          obtain ⟨hne, before, hbefore, hbusyBefore, -⟩ :=
            hphase.busy_before htold hsound.distinct hgranted hother hbusy'
          exact hne (hwithin.only hbefore hbusyBefore)

/-! ## Issue -/

/-- Without tags every source register is ready with its value. -/
theorem operand_of_isFree (hagrees : m.Agrees ledger)
    (hfree : m.bank.isFree = true) (source : Option String) :
    (m.registers.operand source).value = m.architecture.source source := by
  cases source with
  | none => rfl
  | some register =>
      have htag : m.registers.tag? register = none := by
        rw [RegisterFile.tag?, Directory.get?,
          hagrees.tags_entries_eq_nil hfree]
        split <;> rfl
      rw [RegisterFile.operand, htag]
      rfl

/-- An instruction that is issued between two instructions is the interpreter's,
and has its operands at once. -/
theorem Between.issued (h : m.Between current) (hagrees : m.Agrees ledger)
    (hinstructions : m.program.map (·.instruction) = program)
    (harchitecture : m.architecture = current.state)
    {next : Stamped} {rest : List Stamped} (hqueue : m.queue = next :: rest)
    (hfree : m.bank.free? next.instruction.opcode.pool = some station)
    (hbank : m'.bank = m.bank.changeFirst
      (·.isFreeIn next.instruction.opcode.pool) (m.occupied · next))
    (hindex : m'.issuedCount = m.issuedCount + 1) (hrest : m'.queue = rest)
    (hprogram : m'.program = m.program) :
    m'.Within program current station.name next.instruction := by
  have hdistinct := hagrees.sound.distinct
  have hdrop : m.program.drop current.place = next :: rest := by
    rw [← h.queue, hqueue]
  have hready : ∀ slot,
      ((m.occupied station next).operand slot).isReady = true := by
    intro slot
    cases hoperand : (m.occupied station next).operand slot with
    | absent => rfl
    | ready => rfl
    | pending tag =>
        obtain ⟨register, -, -, htag⟩ := operand_occupied_eq_pending hoperand
        rw [Directory.get?, hagrees.tags_entries_eq_nil h.free] at htag
        contradiction
  refine ⟨⟨m.occupied station next, ?_, rfl, rfl, ?_⟩, ?_, ?_, ?_, ?_⟩
  · rw [hbank, station?_occupied hdistinct hfree, if_pos rfl]
  · intro slot
    apply value_operand_occupied _ slot (hready slot)
    intro source _
    rw [← harchitecture]
    exact operand_of_isFree hagrees h.free source
  · intro tag other hother hbusy
    rw [hbank, station?_occupied hdistinct hfree] at hother
    by_contra hne
    rw [if_neg hne] at hother
    rw [Bank.busy_eq_false_of_isFree h.free hother] at hbusy
    contradiction
  · have hnext : m.program[current.place]? = some next := by
      rw [← List.head?_drop, hdrop]
      rfl
    rw [← hinstructions, List.getElem?_map, hnext]
    rfl
  · rw [hindex, h.index]
  · rw [hrest, hprogram, ← List.tail_drop, hdrop]
    rfl

/-- The next instruction is issued to the only station, when that is free. -/
theorem Interprets.issues (h : m.Interprets pool program current)
    (hpool : ∀ ins ∈ program, ins.opcode.pool = pool)
    (hphase : m.Issues m' log) : m'.Interprets pool program current := by
  obtain ⟨ledger, hagrees⟩ := h.agrees
  have hafter := hagrees.issues hphase
  have hplaces := map_place_issues hphase
  have hread := funext hphase.read_eq
  cases hphase with
  | drained => exact h
  | stalled => exact h
  | @issued next rest station hqueue hfree =>
      rcases h.phase with hbetween | ⟨name, ins, hwithin⟩
      · exact ⟨⟨_, hafter⟩, h.one.of_map_place_eq hplaces, h.instructions,
          (congrArg₂ Architecture.mk hread rfl).trans h.architecture,
          .inr ⟨station.name, next.instruction,
            hbetween.issued hagrees h.instructions h.architecture hqueue hfree
              rfl rfl rfl rfl⟩⟩
      · -- the station at work is of the pool as well, and there is only one
        exfalso
        obtain ⟨hmem, hstationPool, hidle⟩ := mem_of_free? hfree
        obtain ⟨held, hheld, hbusy, hins, -⟩ := hwithin.holds
        obtain ⟨worked, hworked, hprogress⟩ :=
          (hagrees.sound.station hheld).working hbusy
        cases hins.symm.trans hworked
        have hheldPool : held.pool = pool :=
          hprogress.pool.trans
            (hpool ins (List.mem_of_getElem? hwithin.instruction))
        have hnext : next.instruction ∈ program := by
          rw [← h.instructions]
          apply List.mem_map_of_mem
          apply List.mem_of_mem_drop (i := current.place + 1)
          rw [← hwithin.queue, hqueue]
          exact List.mem_cons_self
        have hsame : held = station := h.one.eq_of_mem hagrees.sound.distinct
          (Bank.mem_of_station? hheld) hmem hheldPool
          (hstationPool.trans (hpool _ hnext))
        rw [hsame, hidle] at hbusy
        contradiction

/-! ## Nothing but progress -/

theorem Interprets.of_sameWork (h : m.Interprets pool program current)
    (hagrees : ∃ ledger, m'.Agrees ledger)
    (hplaces : m'.bank.map place = m.bank.map place)
    (hback : ∀ {name other}, m'.bank.station? name = some other →
      ∃ station, m.bank.station? name = some station ∧ station.SameWork other)
    (hforth : ∀ {name station}, m.bank.station? name = some station →
      ∃ other, m'.bank.station? name = some other ∧ station.SameWork other)
    (hprogram : m'.program = m.program) (hqueue : m'.queue = m.queue)
    (hindex : m'.issuedCount = m.issuedCount)
    (harchitecture : m'.architecture = m.architecture) :
    m'.Interprets pool program current := by
  refine ⟨hagrees, h.one.of_map_place_eq hplaces, hprogram ▸ h.instructions,
    harchitecture.trans h.architecture, ?_⟩
  have hindex' : ∀ {place}, m.issuedCount = place → m'.issuedCount = place :=
    fun heq => hindex.trans heq
  have hqueue' : ∀ {place}, m.queue = m.program.drop place →
      m'.queue = m'.program.drop place := by
    intro place heq
    rw [hqueue, hprogram, heq]
  rcases h.phase with hbetween | ⟨name, ins, hwithin⟩
  · left
    refine ⟨?_, hindex' hbetween.index, hqueue' hbetween.queue⟩
    obtain ⟨ledger, hledger⟩ := hagrees
    apply isFree_of_station? hledger.sound.distinct
    intro name other hother
    obtain ⟨station, hstation, hwork⟩ := hback hother
    rw [hwork.busy]
    exact Bank.busy_eq_false_of_isFree hbetween.free hstation
  · right
    refine ⟨name, ins, ?_, ?_, hwithin.instruction, hindex' hwithin.index,
      hqueue' hwithin.queue⟩
    · obtain ⟨station, hstation, hbusy, hins, hinputs⟩ := hwithin.holds
      obtain ⟨other, hother, hwork⟩ := hforth hstation
      refine ⟨other, hother, hwork.busy.trans hbusy,
        hwork.instruction?.trans hins, fun slot => ?_⟩
      rw [hwork.operand]
      exact hinputs slot
    · intro tag other hother hbusy
      obtain ⟨station, hstation, hwork⟩ := hback hother
      exact hwithin.only hstation (hwork.busy.symm.trans hbusy)

theorem Interprets.begin (h : m.Interprets pool program current) :
    m.begin.Interprets pool program current := by
  obtain ⟨ledger, hagrees⟩ := h.agrees
  apply h.of_sameWork ⟨ledger, hagrees.begin⟩ (map_place_begin m) _ _ rfl rfl
    rfl rfl
  · intro name other hother
    rw [station?_begin] at hother
    obtain ⟨station, hstation, rfl⟩ := Option.map_eq_some_iff.mp hother
    exact ⟨station, hstation, Station.sameWork_endPause station⟩
  · intro name station hstation
    refine ⟨station.endPause, ?_, Station.sameWork_endPause station⟩
    rw [station?_begin, hstation]
    rfl

theorem Interprets.execute (h : m.Interprets pool program current) :
    m.execute.1.Interprets pool program current := by
  obtain ⟨ledger, hagrees⟩ := h.agrees
  have hmemory : m.execute.1.architecture = m.architecture := by
    have hcache : m.execute.1.cache.memory = m.cache.memory :=
      Bank.memory_execute _ _ _
    refine congrArg₂ Architecture.mk rfl (funext fun address => ?_)
    rw [Cache.readByte, hcache]
    rfl
  apply h.of_sameWork ⟨ledger, hagrees.execute⟩ (map_place_execute m) _ _ rfl
    rfl rfl hmemory
  · intro name other hother
    obtain ⟨station, hstation, hstep⟩ := exists_stepped_of_execute hother
    exact ⟨station, hstation, hstep.sameWork⟩
  · intro name station hstation
    obtain ⟨other, hother, hstep⟩ := exists_stepped_execute hstation
    exact ⟨other, hother, hstep.sameWork⟩

/-! ## Cycles -/

theorem Interprets.completes (h : m.Interprets pool program current)
    (hpool : ∀ ins ∈ program, ins.opcode.pool = pool)
    (hcycle : m.Completes m' log) :
    ∃ next, current.run? program (writebackCount log) = some next ∧
      m'.Interprets pool program next := by
  cases hcycle with
  | @intro m₁ m₂ written issued hwrites htold hissues =>
      have hcount : writebackCount (.cycleStarted :: written ++ issued ++
          m₂.execute.2) = writebackCount written := by
        have hstarted : writebackCount (.cycleStarted :: written) =
            writebackCount written := rfl
        rw [writebackCount_append, writebackCount_append, hstarted,
          hissues.writebackCount_eq, writebackCount_execute]
        rfl
      rw [hcount, hwrites.writebackCount_eq htold]
      rcases h.begin.writesBack hwrites htold with
        ⟨hgranted, hkept⟩ | ⟨⟨station, hgranted⟩, next, hstep, hnext⟩
      · rw [hgranted]
        exact ⟨current, rfl, (hkept.issues hpool hissues).execute⟩
      · rw [hgranted]
        exact ⟨next, hstep, (hnext.issues hpool hissues).execute⟩

theorem Interprets.place_eq (h : m.Interprets pool program current)
    (hle : current.place ≤ program.length) (hidle : m.isIdle = true) :
    current.place = program.length := by
  simp only [isIdle, Bool.and_eq_true, List.isEmpty_iff] at hidle
  obtain ⟨hqueue, hfree⟩ := hidle
  rcases h.phase with hbetween | ⟨name, ins, hwithin⟩
  · have hdrop : m.program.drop current.place = [] := by
      rw [← hbetween.queue, hqueue]
    have hlength : m.program.length = program.length := by
      rw [← h.instructions, List.length_map]
    have hend := List.drop_eq_nil_iff.mp hdrop
    omega
  · obtain ⟨station, hstation, hbusy, -⟩ := hwithin.holds
    rw [Bank.busy_eq_false_of_isFree hfree hstation] at hbusy
    contradiction

end Machine

/-! ## Whole runs -/

namespace Simulation

/-- A machine with one station is an interpreter.  Let all instructions of a
program, with branches in any direction, go to a pool that has one station,
whatever the other parameters, the registers and the memory are.  After any
number of completed cycles the registers and the bytes of memory are those of
the interpreter after as many instructions as were written back; and if the
machine is idle, the interpreter has come to the end of the program. -/
theorem lone_station_interprets (config : Config) (preload : List (Int × Int))
    (registers : List (String × Int)) (words : List (Int × Int))
    (program : List Instruction) (pool : Pool) (cycles : Nat)
    (sim : Simulation) (hpool : ∀ ins ∈ program, ins.opcode.pool = pool)
    (hsize : config.value pool.size = 1)
    (hrun : advanceBy cycles ((prepared config preload registers words).act
      (.load program)) = .ok sim) :
    let initial :=
      (prepared config preload registers words).machine.architecture
    ∃ reached, Interpretation.run? program ⟨initial, 0⟩ sim.writebacks =
        some reached ∧
      sim.machine.architecture = reached.state ∧
      (sim.machine.isIdle = true → reached.place = program.length) := by
  intro initial
  let start := prepared config preload registers words
  let P : Machine → List Happening → Prop := fun m past =>
    ∃ reached, Interpretation.run? program ⟨initial, 0⟩
      (writebackCount past) = some reached ∧ m.Interprets pool program reached
  have hbank : (start.act (.load program)).machine.bank =
      (Machine.create config preload).bank :=
    bank_prepared config preload registers words
  have hpast : (start.act (.load program)).happenings = [] :=
    happenings_prepared config preload registers words
  have hstart : P (start.act (.load program)).machine
      (start.act (.load program)).happenings := by
    rw [hpast]
    refine ⟨_, rfl, ⟨_, agrees_loaded config preload registers words program⟩,
      ?_, Machine.map_instruction_stamped _ program, rfl, .inl ⟨?_, rfl, rfl⟩⟩
    · exact (Machine.hasOne_create hsize preload).of_map_place_eq
        (congrArg (List.map Machine.place) hbank)
    · rw [hbank]
      exact Machine.isFree_create config preload
  have hcycle : ∀ {m m' past log}, m.Completes m' log → P m past →
      P m' (past ++ log) := by
    rintro m m' past log hcompletes ⟨current, hcurrent, hinterprets⟩
    obtain ⟨next, hnext, hafter⟩ := hinterprets.completes hpool hcompletes
    refine ⟨next, ?_, hafter⟩
    rw [writebackCount_append, Interpretation.run?_add, hcurrent]
    exact hnext
  obtain ⟨reached, hreached, hinterprets⟩ :=
    advanceBy_induction (P := P) hcycle hrun hstart
  refine ⟨reached, hreached, hinterprets.architecture, fun hidle => ?_⟩
  exact hinterprets.place_eq
    (Interpretation.place_le_of_run? (Nat.zero_le _) hreached) hidle

/-- A loop that counts down twice is interpreted to its end. -/
theorem lone_station_interprets_loop :
    let config : Config :=
      ⟨fun parameter => if parameter = .numIntStations then 1
        else parameter.standard, by decide⟩
    let program : List Instruction :=
      [{ opcode := .addi, dest := "R1", src1 := "R1", immediate := some (-1) },
        { opcode := .bne, src1 := "R1", src2 := "R0", immediate := some (-2) }]
    let start := prepared config [] [("R1", 2)] []
    ∃ sim reached,
      advanceBy 12 (start.act (.load program)) = .ok sim ∧
        sim.writebacks = 4 ∧
        Interpretation.run? program ⟨start.machine.architecture, 0⟩ 4 =
          some reached ∧
        sim.machine.architecture = reached.state ∧ reached.place = 2 := by
  intro config program start
  have hends : (advanceBy 12 (start.act (.load program))).toOption.map
      (fun sim => (sim.machine.isIdle, sim.writebacks)) = some (true, 4) := by
    decide +kernel
  obtain ⟨sim, hsim, hend⟩ := Option.map_eq_some_iff.mp hends
  have hrun : advanceBy 12 (start.act (.load program)) = .ok sim := by
    generalize advanceBy 12 (start.act (.load program)) = run at hsim ⊢
    cases run with
    | error breakdown => nomatch hsim
    | ok other => exact congrArg Except.ok (Option.some.inj hsim)
  obtain ⟨hidle, hcount⟩ := Prod.mk.inj hend
  obtain ⟨reached, hreached, hstate, hplace⟩ := lone_station_interprets config
    [] [("R1", 2)] [] program .int 12 sim (by decide) (by decide) hrun
  exact ⟨sim, reached, hrun, hcount, hcount ▸ hreached, hstate, hplace hidle⟩

end Simulation

end OutOfOrder
