import OutOfOrder.Proofs.Breakdown
import OutOfOrder.Proofs.InOrder
import OutOfOrder.Proofs.LastWrite
import OutOfOrder.Proofs.Operands
import OutOfOrder.Proofs.Renaming

/-!
# Refinement of the in-order interpreter

A machine that works on a program without branches is compared to the in-order
interpreter.  Every issue is judged by the interpreter's state before its
instruction: what its station has received are the values that the interpreter
reads there.  Registers without a tag are judged by the state before the next
instruction to be issued, and memory by the stores that are over.

A load finds the interpreter's memory as long as no store overtakes, and is
overtaken by, another access to one of its bytes.  Either no two accesses are
under way at a time, or the stores touch bytes of their own.
-/

namespace OutOfOrder

open Architecture (DefinesOnce)

namespace Machine

/-- At most one station of the bank works on loads and stores. -/
def SingleAccess (m : Machine) : Prop :=
  ∀ entry ∈ m.bank.map place, ∀ other ∈ m.bank.map place,
    entry.2 = .loadStore → other.2 = .loadStore → entry = other

/-- The machine's memory is what those stores leave behind that are over. -/
def Commits (initial : Architecture) (program : List Instruction)
    (m : Machine) (ledger : Ledger) : Prop :=
  ∃ isOver : Nat → Bool,
    (∀ number, isOver number = true ↔ number < ledger.issues.length ∧
      ∀ name, ledger.seat? name ≠ some number) ∧
    ∀ address, m.cache.readByte address =
      initial.committed program isOver ledger.issues.length address

/-- The program is what was issued and what is to be issued. -/
abbrev Streams (program : List Instruction) (m : Machine) (ledger : Ledger) :
    Prop :=
  ledger.issues.map (·.instruction) ++ m.queue.map (·.instruction) = program

/-- The machine has come so far only to values of a program's in-order
execution. -/
structure Follows (initial : Architecture) (program : List Instruction)
    (m : Machine) (ledger : Ledger) : Prop where
  agrees : m.Agrees ledger
  stream : Streams program m ledger
  /-- A register without a tag is up to date. -/
  registers : ∀ {register}, m.registers.tags.get? register = none →
    m.registers.read register =
      (initial.before program ledger.issues.length).registers register
  /-- An operand has the value that the interpreter reads. -/
  inputs : ∀ {name station number ins},
    m.bank.station? name = some station → ledger.seat? name = some number →
    station.instruction? = some ins →
    ∀ slot, (station.operand slot).isReady = true →
      (station.operand slot).value =
        (initial.before program number).input ins slot
  commits : Commits initial program m ledger

/-- Every issue that is not independent of the one with the given number comes
before it and is over. -/
def Ordered (initial : Architecture) (program : List Instruction)
    (ledger : Ledger) (number : Nat) : Prop :=
  ∀ other < ledger.issues.length, other ≠ number →
    initial.Independent program other number ∨
      other < number ∧ ∀ name, ledger.seat? name ≠ some other

/-- What the instruction that has the bus publishes is what the interpreter
computes. -/
def Exact (initial : Architecture) (program : List Instruction) (m : Machine)
    (ledger : Ledger) : Prop :=
  ∀ {station ins number value}, m.bank.granted? = some station →
    station.instruction? = some ins →
    ledger.seat? station.name = some number →
    m.product? station ins = some value →
    value = (initial.before program number).result ins

/-- The instruction that has the bus writes no byte that a later issue writes. -/
def WritesApart (initial : Architecture) (program : List Instruction)
    (m : Machine) (ledger : Ledger) : Prop :=
  ∀ {station number}, m.bank.granted? = some station →
    ledger.seat? station.name = some number →
    ∀ other, number < other → other < ledger.issues.length → ∀ address,
      initial.writtenAt? program number address = none ∨
        initial.writtenAt? program other address = none

/-- The machine is on its way to the result of a program's in-order
execution. -/
structure Refines (initial : Architecture) (program : List Instruction)
    (m : Machine) (ledger : Ledger) : Prop extends
    Follows initial program m ledger where
  /-- Two accesses that are not independent are executed in their order. -/
  ordered : ∀ {name number other}, ledger.seat? name = some number →
    other < ledger.issues.length → other ≠ number →
    initial.Independent program other number ∨
      other < number ∧ ∀ name, ledger.seat? name ≠ some other

variable {initial : Architecture} {program : List Instruction}
  {m m' : Machine} {ledger ledger' : Ledger} {log : List Happening}
  {station : Station} {ins : Instruction} {name register : String}
  {number : Nat} {value : Int}

/-! ## Issues as instructions of the program -/

theorem Streams.getElem?_program (h : Streams program m ledger)
    (hlt : number < ledger.issues.length) :
    program[number]? = ledger.issues[number]?.map (·.instruction) := by
  rw [← h, List.getElem?_append_left (by simpa using hlt), List.getElem?_map]

theorem Streams.target?_eq (h : Streams program m ledger)
    (hlt : number < ledger.issues.length) :
    program[number]?.bind Instruction.target? = ledger.target? number := by
  rw [h.getElem?_program hlt, Ledger.target?]
  cases ledger.issues[number]? <;> rfl

theorem Streams.seated (h : Streams program m ledger)
    (hagrees : m.Agrees ledger)
    (hstation : m.bank.station? name = some station)
    (hseat : ledger.seat? name = some number)
    (hins : station.instruction? = some ins) : program[number]? = some ins := by
  obtain ⟨other, held, hother, -, hheld, hissue⟩ := hagrees.occupied hseat
  rw [hstation] at hother
  cases hother
  rw [hins] at hheld
  cases hheld
  rw [h.getElem?_program (hagrees.number_lt hseat), hissue]
  rfl

theorem Streams.next (h : Streams program m ledger)
    {next : Stamped} {rest : List Stamped} (hqueue : m.queue = next :: rest) :
    program[ledger.issues.length]? = some next.instruction := by
  rw [← h, hqueue, List.getElem?_append_right (by simp)]
  simp

/-- In a program without branches no branch has the bus. -/
theorem Streams.form_ne_branch (h : Streams program m ledger)
    (hagrees : m.Agrees ledger)
    (hstraight : ∀ ins ∈ program, ins.opcode.isBranch = false)
    (hgranted : m.bank.granted? = some station)
    (hins : station.instruction? = some ins) : ins.opcode.form ≠ .branch := by
  intro hform
  obtain ⟨number, hseat⟩ := hagrees.seated_granted hgranted
  have hstation := station?_granted hagrees.sound.distinct hgranted
  have hprogram := h.seated hagrees hstation hseat hins
  have hfalse := hstraight ins (List.mem_of_getElem? hprogram)
  simp [Opcode.isBranch, hform] at hfalse

theorem Streams.of_queue_eq (h : Streams program m ledger)
    (hissues : ledger'.issues = ledger.issues) (hqueue : m'.queue = m.queue) :
    Streams program m' ledger' := by
  rw [Streams, hissues, hqueue]
  exact h

theorem Streams.issued (h : Streams program m ledger)
    {next : Stamped} {rest : List Stamped} (hqueue : m.queue = next :: rest)
    (hrest : m'.queue = rest) (name : String) :
    Streams program m' (ledger.issue name next.instruction) := by
  rw [Streams, ← h, hqueue, hrest]
  simp [Ledger.issue]

theorem Streams.issues (h : Streams program m ledger)
    (hphase : m.Issues m' log) : Streams program m' (ledger.noteAll log) := by
  cases hphase with
  | drained => exact h
  | stalled => exact h
  | issued hqueue => exact h.issued hqueue rfl _

theorem Streams.writesBack (h : Streams program m ledger)
    (hagrees : m.Agrees ledger)
    (hstraight : ∀ ins ∈ program, ins.opcode.isBranch = false)
    (hphase : m.WritesBack m' log) (htold : isTold log = true) :
    Streams program m' (ledger.noteAll log) := by
  have hissues := (hphase.busEffect ledger).issues_eq
  rw [takeWhile_isTellable_of_isTold htold] at hissues
  apply h.of_queue_eq hissues
  cases hphase with
  | idle => rfl
  | empty => rfl
  | broken _ _ huntold =>
      rw [huntold] at htold
      nomatch htold
  | stored => rfl
  | branched hgranted hins hform =>
      exact absurd hform (h.form_ne_branch hagrees hstraight hgranted hins)
  | published => rfl

/-! ## What a station computes -/

theorem product?_of_isLoad {address : Int} (hload : ins.opcode.isLoad = true)
    (haddress : station.address = address)
    (hvalue : m.product? station ins = some value) :
    value = m.architecture.word address := by
  have hform : ins.opcode.form = .load := of_decide_eq_true hload
  simp only [product?, hform, Option.some.injEq] at hvalue
  rw [← hvalue, haddress]
  rfl

/-- A station with the interpreter's operands yields the interpreter's result, a
load at least if it reads the interpreter's word. -/
theorem result_of_product? {state : Architecture}
    (hinputs : ∀ slot, (station.operand slot).value = state.input ins slot)
    (hword : ins.opcode.isLoad = true → value = state.word (state.address ins))
    (hvalue : m.product? station ins = some value) :
    value = state.result ins := by
  have hresult : station.result ins =
      ins.opcode.evaluate (state.source ins.src1) (state.source ins.src2)
        ins.constant := by
    rw [← Architecture.evaluate_input, ← hinputs .first, ← hinputs .second]
    rfl
  unfold Architecture.result
  cases hform : ins.opcode.form with
  | store | branch => simp [product?, hform] at hvalue
  | immediate | register | bare =>
      simp only [product?, hform, Option.some.injEq] at hvalue
      rw [← hvalue]
      exact hresult
  | load => exact hword (by simp [Opcode.isLoad, hform])

/-- A station that begins on an instruction has the interpreter's operands, as
far as ready registers have the interpreter's values. -/
theorem value_operand_occupied {state : Architecture} {next : Stamped}
    (hvalue : ∀ source, (m.registers.operand source).isReady = true →
      (m.registers.operand source).value = state.source source)
    (slot : Slot)
    (hready : ((m.occupied station next).operand slot).isReady = true) :
    ((m.occupied station next).operand slot).value =
      state.input next.instruction slot := by
  cases slot with
  | first => exact hvalue next.instruction.src1 hready
  | second =>
      have hsecond : (m.occupied station next).operand .second =
          m.registers.secondOperand next.instruction := rfl
      rw [hsecond] at hready ⊢
      unfold RegisterFile.secondOperand Architecture.input
      unfold RegisterFile.secondOperand at hready
      cases hform : next.instruction.opcode.form with
      | load | immediate => rfl
      | store | register | branch | bare =>
          simp only [hform] at hready
          exact hvalue next.instruction.src2 hready

/-! ## The values of the in-order execution -/

/-- Within the word of an access, memory is what the interpreter finds. -/
theorem Follows.readByte_eq (h : m.Follows initial program ledger)
    (hordered : Ordered initial program ledger number)
    (hstation : m.bank.station? name = some station)
    (hseat : ledger.seat? name = some number)
    (hins : station.instruction? = some ins)
    (hmemory : ins.opcode.isMemory = true) {address : Int}
    (hlow : (initial.before program number).address ins ≤ address)
    (hhigh : address < (initial.before program number).address ins + 4) :
    m.cache.readByte address =
      (initial.before program number).memory address := by
  obtain ⟨isOver, hover, hbytes⟩ := h.commits
  have hprogram := h.stream.seated h.agrees hstation hseat hins
  have hlt := h.agrees.number_lt hseat
  rw [hbytes]
  apply Architecture.committed_eq (Nat.le_of_lt hlt)
  · intro other hother
    have hother' : other < ledger.issues.length := by omega
    rcases hordered other hother' (by omega) with hindependent | hdone
    · exact .inr (hindependent.writtenAt?_eq_none hprogram hmemory hlow hhigh)
    · exact .inl ((hover other).mpr ⟨by omega, hdone.2⟩)
  · intro other hle hother
    by_cases hsame : other = number
    · left
      cases hovered : isOver other with
      | false => rfl
      | true =>
          exact absurd (hsame ▸ hseat) (((hover other).mp hovered).2 name)
    · rcases hordered other hother hsame with hindependent | hdone
      · exact .inr (hindependent.writtenAt?_eq_none hprogram hmemory hlow hhigh)
      · omega

/-- What the operands of the instruction that has the bus are worth. -/
theorem Follows.operand_granted (h : m.Follows initial program ledger)
    (hgranted : m.bank.granted? = some station)
    (hins : station.instruction? = some ins)
    (hseat : ledger.seat? station.name = some number) (slot : Slot) :
    (station.operand slot).value =
      (initial.before program number).input ins slot :=
  h.inputs (station?_granted h.agrees.sound.distinct hgranted) hseat hins slot
    (h.agrees.isReady_of_granted hgranted slot)

theorem Follows.address_granted (h : m.Follows initial program ledger)
    (hgranted : m.bank.granted? = some station)
    (hins : station.instruction? = some ins)
    (hmemory : ins.opcode.isMemory = true)
    (hseat : ledger.seat? station.name = some number) :
    station.address = (initial.before program number).address ins := by
  rw [h.agrees.sound.address_granted hgranted hins hmemory]
  exact congrArg (· + ins.constant)
    (h.operand_granted hgranted hins hseat .first)

/-- A load publishes the word that memory holds at the interpreter's address. -/
theorem Follows.product_eq_word (h : m.Follows initial program ledger)
    (hgranted : m.bank.granted? = some station)
    (hins : station.instruction? = some ins)
    (hload : ins.opcode.isLoad = true)
    (hseat : ledger.seat? station.name = some number)
    (hvalue : m.product? station ins = some value) :
    value = m.architecture.word
      ((initial.before program number).address ins) := by
  have hmemory : ins.opcode.isMemory = true := by
    rw [Opcode.isMemory, hload, Bool.true_or]
  have haddress := h.address_granted hgranted hins hmemory hseat
  exact product?_of_isLoad hload haddress hvalue

/-- What an instruction publishes is what the interpreter computes, a load at
least if its access is ordered. -/
theorem Follows.product_eq (h : m.Follows initial program ledger)
    (hordered : ins.opcode.isLoad = true →
      Ordered initial program ledger number)
    (hgranted : m.bank.granted? = some station)
    (hins : station.instruction? = some ins)
    (hseat : ledger.seat? station.name = some number)
    (hvalue : m.product? station ins = some value) :
    value = (initial.before program number).result ins := by
  apply result_of_product? (h.operand_granted hgranted hins hseat) _ hvalue
  intro hload
  have hmemory : ins.opcode.isMemory = true := by
    rw [Opcode.isMemory, hload, Bool.true_or]
  have hstation := station?_granted h.agrees.sound.distinct hgranted
  rw [h.product_eq_word hgranted hins hload hseat hvalue]
  apply Architecture.word_congr
  exact fun place hlow hhigh =>
    h.readByte_eq (hordered hload) hstation hseat hins hmemory hlow hhigh

/-- What a definer publishes is what the interpreter finds in its register, up to
the next definer. -/
theorem Follows.product_eq_registers (h : m.Follows initial program ledger)
    (hexact : Exact initial program m ledger)
    (hgranted : m.bank.granted? = some station)
    (hins : station.instruction? = some ins)
    (hseat : ledger.seat? station.name = some number)
    (hvalue : m.product? station ins = some value)
    (htarget : ins.target? = some register) (hne : register ≠ zeroRegister)
    {bound : Nat} (hlt : number < bound) (hle : bound ≤ ledger.issues.length)
    (hbetween : ∀ other, number < other → other < bound →
      ledger.target? other ≠ some register) :
    value = (initial.before program bound).registers register := by
  have hstation := station?_granted h.agrees.sound.distinct hgranted
  have hprogram := h.stream.seated h.agrees hstation hseat hins
  have hafter : (initial.before program (number + 1)).registers register =
      value := by
    rw [Architecture.before_succ hprogram, Architecture.registers_step,
      if_pos ⟨htarget, hne⟩, hexact hgranted hins hseat hvalue]
  rw [← hafter]
  symm
  apply Architecture.registers_before_eq hlt
  intro other hlow hhigh
  rw [h.stream.target?_eq (by omega)]
  exact hbetween other hlow hhigh

/-! ## Write-back -/

/-- Memory follows the stores that are over when an instruction has written what
the interpreter writes. -/
theorem Follows.commits_leave (h : m.Follows initial program ledger)
    (hapart : ∀ other, number < other → other < ledger.issues.length →
      ∀ address, initial.writtenAt? program number address = none ∨
        initial.writtenAt? program other address = none)
    (hseat : ledger.seat? name = some number)
    (hissues : ledger'.issues = ledger.issues)
    (hseats : ∀ other, ledger'.seat? other =
      if other = name then none else ledger.seat? other)
    (hbytes : ∀ address, m'.cache.readByte address =
      (initial.writtenAt? program number address).getD
        (m.cache.readByte address)) :
    Commits initial program m' ledger' := by
  obtain ⟨isOver, hover, hmemory⟩ := h.commits
  have hlt := h.agrees.number_lt hseat
  have hopen : isOver number = false := by
    cases hovered : isOver number with
    | false => rfl
    | true => exact absurd hseat (((hover number).mp hovered).2 name)
  refine ⟨Architecture.finish isOver number, ?_, ?_⟩
  · intro other
    rw [Architecture.finish, Bool.or_eq_true, decide_eq_true_eq, hover]
    exact (h.agrees.isOver_leave hseat hissues hseats).symm
  · intro address
    rw [hbytes, hmemory, hissues]
    symm
    apply Architecture.committed_finish hlt hopen
    exact fun other hlow hhigh _ => hapart other hlow hhigh address

/-- A register without a tag is up to date after a write-back.  The instruction
that has the bus is the only definer of its register. -/
theorem Follows.registers_busEffect (h : m.Follows initial program ledger)
    (hexact : Exact initial program m ledger)
    (honce : DefinesOnce program) (heffect : m.BusEffect ledger m' ledger')
    (htag : m'.registers.tags.get? register = none) :
    m'.registers.read register =
      (initial.before program ledger'.issues.length).registers register := by
  rw [heffect.issues_eq]
  cases heffect with
  | none _ hregisters | vacated _ _ _ _ hregisters =>
      rw [hregisters] at htag ⊢
      exact h.registers htag
  | @published station ins value hgranted hins hvalue heq =>
      have hstation := station?_granted h.agrees.sound.distinct hgranted
      obtain ⟨number, hseat⟩ := h.agrees.seated_granted hgranted
      rw [heq, tags_publish] at htag
      rw [heq, read_publish, wrap_product? hvalue]
      split
      · next hwritten =>
          obtain ⟨htarget, hne⟩ := hwritten
          have hlt := h.agrees.number_lt hseat
          apply h.product_eq_registers hexact hgranted hins hseat hvalue
            htarget hne hlt (Nat.le_refl _)
          intro other hlow hhigh hother
          have hsame := honce.eq hne ((h.stream.target?_eq hhigh).trans hother)
            ((h.stream.target?_eq hlt).trans
              ((h.agrees.target?_eq hstation hseat hins).trans htarget))
          omega
      · next hkept =>
          apply h.registers
          by_cases hzero : register = zeroRegister
          · rw [hzero]
            exact h.agrees.tags_zeroRegister
          · rw [if_neg fun howned => hkept ⟨howned.1, hzero⟩] at htag
            exact htag

/-- The operands have the interpreter's values after a write-back.  Those that
have waited for the instruction that has the bus get its value. -/
theorem Follows.inputs_busEffect (h : m.Follows initial program ledger)
    (hexact : Exact initial program m ledger)
    (heffect : m.BusEffect ledger m' ledger')
    (hstation : m'.bank.station? name = some station)
    (hseat : ledger'.seat? name = some number)
    (hins : station.instruction? = some ins) (slot : Slot)
    (hready : (station.operand slot).isReady = true) :
    (station.operand slot).value =
      (initial.before program number).input ins slot := by
  have hseat' := heffect.seat? hseat
  cases heffect with
  | none hbank =>
      exact h.inputs (hbank ▸ hstation) hseat' hins slot hready
  | @vacated granted _ hgranted _ _ hbank =>
      rw [hbank, station?_released h.agrees.sound.distinct hgranted] at hstation
      split at hstation
      · cases hstation
        simp [Station.release, Station.instruction?] at hins
      · exact h.inputs hstation hseat' hins slot hready
  | @published granted held value hgranted hheld hvalue heq =>
      rw [heq, station?_publish h.agrees.sound.distinct hgranted] at hstation
      split at hstation
      · cases hstation
        simp [Station.release, Station.instruction?] at hins
      · obtain ⟨reader, hreader, rfl⟩ := Option.map_eq_some_iff.mp hstation
        have hbusy := h.agrees.busy_of_seat? hseat' hreader
        rw [Station.instruction?_listen] at hins
        rw [Station.operand_listen hbusy] at hready ⊢
        by_cases hpending : reader.operand slot = .pending granted.name
        · obtain ⟨ins', register, producer, hins', hsource, hne, hdefiner,
            hproducer⟩ := h.agrees.operands hreader hseat' hpending
          rw [hins] at hins'
          cases hins'
          obtain ⟨hlt, htarget⟩ := Ledger.definerBefore?_eq_some hdefiner
          have hgranted' := station?_granted h.agrees.sound.distinct hgranted
          rw [h.agrees.target?_eq hgranted' hproducer hheld] at htarget
          rw [Architecture.input_of_source? hsource, hpending]
          simp only [Operand.receive, if_true, Operand.value]
          exact h.product_eq_registers hexact hgranted hheld hproducer hvalue
            htarget hne hlt (Nat.le_of_lt (h.agrees.number_lt hseat'))
            fun _ => Ledger.target?_ne_of_definerBefore? hdefiner
        · rw [Operand.receive, if_neg hpending] at hready ⊢
          exact h.inputs hreader hseat' hins slot hready

theorem Follows.busEffect (h : m.Follows initial program ledger)
    (hexact : Exact initial program m ledger) (honce : DefinesOnce program)
    (heffect : m.BusEffect ledger m' ledger') (hqueue : m'.queue = m.queue)
    (hcommits : Commits initial program m' ledger') :
    m'.Follows initial program ledger' where
  agrees := h.agrees.busEffect heffect
  stream := h.stream.of_queue_eq heffect.issues_eq hqueue
  registers := h.registers_busEffect hexact honce heffect
  inputs := h.inputs_busEffect hexact heffect
  commits := hcommits

theorem Follows.readByte_stored (h : m.Follows initial program ledger)
    (hgranted : m.bank.granted? = some station)
    (hins : station.instruction? = some ins)
    (hseat : ledger.seat? station.name = some number)
    (hform : ins.opcode.form = .store) (address : Int) :
    (m.cache.writeWord station.address station.k.value).readByte address =
      (initial.writtenAt? program number address).getD
        (m.cache.readByte address) := by
  have hstation := station?_granted h.agrees.sound.distinct hgranted
  have hstore : ins.opcode.isStore = true := by simp [Opcode.isStore, hform]
  have haddress := h.address_granted hgranted hins
    (Opcode.isMemory_of_isStore hstore) hseat
  have hvalue : station.k.value =
      (initial.before program number).source ins.src2 := by
    have hinput := h.operand_granted hgranted hins hseat .second
    simpa [Architecture.input, hform, Station.operand] using hinput
  have hprogram := h.stream.seated h.agrees hstation hseat hins
  rw [Cache.readByte, Cache.memory_writeWord, Memory.readByte_storeWord,
    haddress, hvalue, Architecture.writtenAt?, hprogram, Option.bind_some,
    Architecture.written?, if_pos hstore]
  rfl

/-- A write-back of the interpreter's value keeps to the values of the in-order
execution. -/
theorem Follows.writesBack (h : m.Follows initial program ledger)
    (hexact : Exact initial program m ledger)
    (hapart : WritesApart initial program m ledger)
    (hstraight : ∀ ins ∈ program, ins.opcode.isBranch = false)
    (honce : DefinesOnce program) (hphase : m.WritesBack m' log)
    (htold : isTold log = true) :
    m'.Follows initial program
      (ledger.noteAll (log.takeWhile Happening.isTellable)) := by
  have heffect := hphase.busEffect ledger
  cases hphase with
  | idle => exact h
  | empty => nomatch htold
  | broken _ _ huntold =>
      rw [huntold] at htold
      nomatch htold
  | branched hgranted hins hform =>
      exact absurd hform
        (h.stream.form_ne_branch h.agrees hstraight hgranted hins)
  | @stored station ins hgranted hins hform =>
      obtain ⟨number, hseat⟩ := h.agrees.seated_granted hgranted
      rw [takeWhile_isTellable_of_isTold htold] at heffect ⊢
      apply h.busEffect hexact honce heffect rfl
      exact h.commits_leave (hapart hgranted hseat) hseat rfl (fun _ => rfl)
        (h.readByte_stored hgranted hins hseat hform)
  | @published station ins value happening hgranted hins hvalue hhappening
      htellable =>
      obtain ⟨number, hseat⟩ := h.agrees.seated_granted hgranted
      have hstation := station?_granted h.agrees.sound.distinct hgranted
      rw [ledger.noteAll_publish hhappening htellable] at heffect ⊢
      have hstore : ins.opcode.isStore = false := by
        cases hform : ins.opcode.form with
        | store => simp [product?, hform] at hvalue
        | load | immediate | register | branch | bare =>
            simp [Opcode.isStore, hform]
      apply h.busEffect hexact honce heffect rfl
      refine h.commits_leave (hapart hgranted hseat) hseat ?_ ?_ ?_
      · rfl
      · exact fun _ => rfl
      · intro address
        rw [Architecture.writtenAt?,
          h.stream.seated h.agrees hstation hseat hins]
        simp only [Option.bind_some, Architecture.written?, hstore]
        rfl

theorem Refines.exact (h : m.Refines initial program ledger) :
    Exact initial program m ledger :=
  fun hgranted hins hseat hvalue =>
    h.product_eq (fun _ _ => h.ordered hseat) hgranted hins hseat hvalue

theorem Refines.writesApart (h : m.Refines initial program ledger) :
    WritesApart initial program m ledger := by
  intro station number _ hseat other hlow hhigh address
  rcases h.ordered hseat hhigh (by omega) with hindependent | hdone
  · exact hindependent.writtenAt?_or address
  · omega

theorem Refines.writesBack (h : m.Refines initial program ledger)
    (hstraight : ∀ ins ∈ program, ins.opcode.isBranch = false)
    (honce : DefinesOnce program) (hphase : m.WritesBack m' log)
    (htold : isTold log = true) :
    m'.Refines initial program
      (ledger.noteAll (log.takeWhile Happening.isTellable)) := by
  have heffect := hphase.busEffect ledger
  refine ⟨h.toFollows.writesBack h.exact h.writesApart hstraight honce hphase
    htold, ?_⟩
  intro name number other hseat hlt hne
  rw [heffect.issues_eq] at hlt
  rcases h.ordered (heffect.seat? hseat) hlt hne with hindependent | hdone
  · exact .inl hindependent
  · exact .inr ⟨hdone.1, fun tag htag => hdone.2 tag (heffect.seat? htag)⟩

/-! ## Issue -/

/-- A new operand has the value that the interpreter reads, if it has one. -/
theorem Follows.value_operand (h : m.Follows initial program ledger)
    (source : Option String)
    (hready : (m.registers.operand source).isReady = true) :
    (m.registers.operand source).value =
      (initial.before program ledger.issues.length).source source := by
  cases source with
  | none => rfl
  | some name =>
      cases htag : m.registers.tag? name with
      | some tag =>
          simp [RegisterFile.operand, htag, Operand.isReady] at hready
      | none =>
          have huntagged : m.registers.tags.get? name = none := by
            by_cases hzero : name = zeroRegister
            · rw [hzero]
              exact h.agrees.tags_zeroRegister
            · simpa [RegisterFile.tag?, hzero] using htag
          simp only [RegisterFile.operand, htag, Operand.value]
          exact h.registers huntagged

/-- While the only station for loads and stores is free, no access is under
way. -/
theorem SingleAccess.isMemory_eq_false (h : m.SingleAccess)
    (hagrees : m.Agrees ledger) (hfree : m.bank.free? .loadStore = some station)
    {held : Station} (hheld : m.bank.station? name = some held)
    (hseat : ledger.seat? name = some number)
    (hins : held.instruction? = some ins) : ins.opcode.isMemory = false := by
  by_contra hmemory
  have hbusy := hagrees.busy_of_seat? hseat hheld
  obtain ⟨hmem, hpool, hidle⟩ := mem_of_free? hfree
  obtain ⟨worked, hworked, hprogress⟩ :=
    (hagrees.sound.station hheld).working hbusy
  rw [hins] at hworked
  cases hworked
  have hheldPool : held.pool = .loadStore :=
    hprogress.pool.trans (Opcode.pool_of_isMemory (by simpa using hmemory))
  have hsame : held = station := HasOne.eq_of_mem h hagrees.sound.distinct
    (Bank.mem_of_station? hheld) hmem hheldPool hpool
  rw [hsame, hidle] at hbusy
  contradiction

/-- While an access is under way, the next instruction touches no byte of it:
either it is no access, as there is no second station for one, or the program
keeps them apart. -/
theorem Refines.independent_next (h : m.Refines initial program ledger)
    (haccess : m.SingleAccess ∨ initial.StoresApart program)
    {next : Stamped} {rest : List Stamped} (hqueue : m.queue = next :: rest)
    (hfree : m.bank.free? next.instruction.opcode.pool = some station)
    (hseat : ledger.seat? name = some number) :
    initial.Independent program number ledger.issues.length := by
  rcases haccess with hsingle | hapart
  · intro ins other hins hother hmemory hmemory' _
    rw [h.stream.next hqueue] at hother
    cases hother
    rw [Opcode.pool_of_isMemory hmemory'] at hfree
    obtain ⟨held, holding, hheld, -, hholding, -⟩ := h.agrees.occupied hseat
    rw [h.stream.seated h.agrees hheld hseat hholding] at hins
    cases hins
    rw [hsingle.isMemory_eq_false h.agrees hfree hheld hseat hholding]
      at hmemory
    contradiction
  · exact hapart.independent (Nat.ne_of_lt (h.agrees.number_lt hseat))

/-- A register without a tag is up to date when the next instruction is issued,
which tags the register that it defines. -/
theorem Follows.registers_issued (h : m.Follows initial program ledger)
    {next : Stamped} {rest : List Stamped} (hqueue : m.queue = next :: rest)
    {file : RegisterFile}
    (hfile : file = match next.instruction.target? with
      | some target => m.registers.setTag target name
      | none => m.registers)
    (htag : file.tags.get? register = none) :
    file.read register =
      (initial.before program (ledger.issues.length + 1)).registers
        register := by
  rw [Architecture.before_succ (h.stream.next hqueue),
    Architecture.registers_step]
  cases htarget : next.instruction.target? with
  | none =>
      rw [hfile, htarget] at htag ⊢
      simp only [reduceCtorEq, false_and, if_false]
      exact h.registers htag
  | some target =>
      rw [hfile, htarget] at htag ⊢
      simp only [RegisterFile.tags_setTag] at htag
      simp only [RegisterFile.read_setTag, Option.some.injEq]
      split at htag
      · contradiction
      · next hkept =>
          rw [if_neg fun htarget => hkept ⟨htarget.1.symm, htarget.2⟩]
          exact h.registers htag

theorem Follows.commits_issued (h : m.Follows initial program ledger)
    (hempty : ledger.seat? name = none) (hcache : m'.cache = m.cache) :
    Commits initial program m' (ledger.issue name ins) := by
  obtain ⟨isOver, hover, hmemory⟩ := h.commits
  have hopen : isOver ledger.issues.length = false := by
    cases hovered : isOver ledger.issues.length with
    | false => rfl
    | true => exact absurd ((hover _).mp hovered).1 (Nat.lt_irrefl _)
  refine ⟨isOver, ?_, ?_⟩
  · exact fun number =>
      (hover number).trans (Ledger.isOver_issue hempty).symm
  · intro address
    rw [hcache, hmemory, Ledger.length_issue, Architecture.committed, hopen]
    rfl

theorem Follows.issued (h : m.Follows initial program ledger)
    {next : Stamped} {rest : List Stamped} (hqueue : m.queue = next :: rest)
    (hfree : m.bank.free? next.instruction.opcode.pool = some station)
    (hagrees : m'.Agrees (ledger.issue station.name next.instruction))
    (hbank : m'.bank = m.bank.changeFirst
      (·.isFreeIn next.instruction.opcode.pool) (m.occupied · next))
    (hregisters : m'.registers = match next.instruction.target? with
      | some target => m.registers.setTag target station.name
      | none => m.registers)
    (hrest : m'.queue = rest) (hcache : m'.cache = m.cache) :
    m'.Follows initial program
      (ledger.issue station.name next.instruction) := by
  have hstation := station?_free h.agrees.sound.distinct hfree
  have hempty := h.agrees.seat?_eq_none hstation (mem_of_free? hfree).2.2
  refine ⟨hagrees, h.stream.issued hqueue hrest _, ?_, ?_,
    h.commits_issued hempty hcache⟩
  · intro register htag
    rw [Ledger.length_issue]
    exact h.registers_issued hqueue hregisters htag
  · intro name other number ins hother hseat hins slot hready
    rw [hbank, station?_occupied h.agrees.sound.distinct hfree] at hother
    rw [Ledger.seat?_issue] at hseat
    split at hother
    · next hname =>
        rw [if_pos hname] at hseat
        cases hother
        cases hseat
        cases hins
        exact value_operand_occupied h.value_operand slot hready
    · next hname =>
        rw [if_neg hname] at hseat
        exact h.inputs hother hseat hins slot hready

theorem Follows.issues (h : m.Follows initial program ledger)
    (hphase : m.Issues m' log) :
    m'.Follows initial program (ledger.noteAll log) := by
  have hagrees := h.agrees.issues hphase
  cases hphase with
  | drained => exact h
  | stalled => exact h
  | issued hqueue hfree => exact h.issued hqueue hfree hagrees rfl rfl rfl rfl

/-- The next instruction takes its place behind the accesses that are not
independent of it, which are over. -/
theorem Refines.ordered_issue (h : m.Refines initial program ledger)
    (haccess : m.SingleAccess ∨ initial.StoresApart program)
    {next : Stamped} {rest : List Stamped} (hqueue : m.queue = next :: rest)
    (hfree : m.bank.free? next.instruction.opcode.pool = some station)
    {name : String} {number : Nat}
    (hseat : (ledger.issue station.name next.instruction).seat? name =
      some number) :
    Ordered initial program (ledger.issue station.name next.instruction)
      number := by
  intro other hlt hne
  rw [Ledger.length_issue] at hlt
  simp only [Ledger.seat?_issue] at hseat ⊢
  split at hseat
  · -- the new access comes after those that are over
    cases hseat
    have hother : other < ledger.issues.length := by omega
    by_cases hworked : ∃ tag, ledger.seat? tag = some other
    · obtain ⟨tag, htag⟩ := hworked
      exact .inl (h.independent_next haccess hqueue hfree htag)
    · refine .inr ⟨hother, fun tag htag => ?_⟩
      split at htag
      · cases htag
        omega
      · exact hworked ⟨tag, htag⟩
  · by_cases hlast : other = ledger.issues.length
    · rw [hlast]
      exact .inl (h.independent_next haccess hqueue hfree hseat).symm
    · rcases h.ordered hseat (by omega) hne with hindependent | hdone
      · exact .inl hindependent
      · refine .inr ⟨hdone.1, fun tag htag => ?_⟩
        split at htag
        · cases htag
          exact hlast rfl
        · exact hdone.2 tag htag

theorem Refines.issues (h : m.Refines initial program ledger)
    (haccess : m.SingleAccess ∨ initial.StoresApart program)
    (hphase : m.Issues m' log) :
    m'.Refines initial program (ledger.noteAll log) := by
  refine ⟨h.toFollows.issues hphase, ?_⟩
  cases hphase with
  | drained => exact h.ordered
  | stalled => exact h.ordered
  | issued hqueue hfree =>
      exact fun hseat => h.ordered_issue haccess hqueue hfree hseat _

/-! ## Nothing but progress -/

theorem Follows.of_sameWork (h : m.Follows initial program ledger)
    (hagrees : m'.Agrees ledger)
    (hback : ∀ {name other}, m'.bank.station? name = some other →
      ∃ station, m.bank.station? name = some station ∧ station.SameWork other)
    (hqueue : m'.queue = m.queue) (hregisters : m'.registers = m.registers)
    (hmemory : m'.cache.memory = m.cache.memory) :
    m'.Follows initial program ledger where
  agrees := hagrees
  stream := h.stream.of_queue_eq rfl hqueue
  registers := by
    intro register htag
    rw [hregisters] at htag ⊢
    exact h.registers htag
  inputs := by
    intro name other number ins hother hseat hins slot hready
    obtain ⟨station, hstation, hwork⟩ := hback hother
    rw [hwork.instruction?] at hins
    rw [hwork.operand] at hready ⊢
    exact h.inputs hstation hseat hins slot hready
  commits := by
    obtain ⟨isOver, hover, hbytes⟩ := h.commits
    refine ⟨isOver, hover, fun address => ?_⟩
    rw [Cache.readByte, hmemory]
    exact hbytes address

theorem Follows.begin (h : m.Follows initial program ledger) :
    m.begin.Follows initial program ledger := by
  refine h.of_sameWork h.agrees.begin ?_ rfl rfl rfl
  intro name other hother
  rw [station?_begin] at hother
  obtain ⟨station, hstation, rfl⟩ := Option.map_eq_some_iff.mp hother
  exact ⟨station, hstation, Station.sameWork_endPause station⟩

theorem Follows.execute (h : m.Follows initial program ledger) :
    m.execute.1.Follows initial program ledger := by
  refine h.of_sameWork h.agrees.execute ?_ rfl rfl
    (Bank.memory_execute _ _ _)
  intro name other hother
  obtain ⟨station, hstation, hstep⟩ := exists_stepped_of_execute hother
  exact ⟨station, hstation, hstep.sameWork⟩

theorem Refines.begin (h : m.Refines initial program ledger) :
    m.begin.Refines initial program ledger :=
  ⟨h.toFollows.begin, h.ordered⟩

theorem Refines.execute (h : m.Refines initial program ledger) :
    m.execute.1.Refines initial program ledger :=
  ⟨h.toFollows.execute, h.ordered⟩

end Machine

end OutOfOrder
