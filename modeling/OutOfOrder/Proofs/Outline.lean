import OutOfOrder.Proofs.Phases

/-!
# Outlines

The outline of a machine is the machine without its data: the values of ready
operands are zero, the registers have no values and memory is empty.  What is
left is what decides the timing: the instructions, the tags, the flags and
counters of the stations, and the lines of the cache.

Every phase of a cycle does the same to the outline of a machine as to the
machine, up to data.  The one place where data could get into the outline is the
address of an access, which is the value of its base and a constant.  So here the
base is always ready with zero, or missing.
-/

namespace OutOfOrder

/-! ## What an outline is -/

def Operand.outline : Operand → Operand
  | .ready _ => .ready 0
  | operand => operand

/-- The station without the values of its operands. -/
@[simps] def Station.outline (station : Station) : Station :=
  { station with j := station.j.outline, k := station.k.outline }

def RegisterFile.outline (file : RegisterFile) : RegisterFile :=
  { file with values := {} }

/-- The cache before an empty memory. -/
def Cache.outline (cache : Cache) : Cache :=
  { cache with memory := {} }

def Machine.outline (m : Machine) : Machine :=
  { m with
    bank := m.bank.map Station.outline
    registers := m.registers.outline
    cache := m.cache.outline }

/-- What happened, without the values of instructions. -/
def Happening.outline : Happening → Happening
  | .stored station _ address => .stored station 0 address
  | .loaded station _ address => .loaded station 0 address
  | .computed station _ => .computed station 0
  | .received station producer _ => .received station producer 0
  | happening => happening

@[simp] theorem Happening.kind_outline (happening : Happening) :
    happening.outline.kind = happening.kind := by
  cases happening <;> rfl

@[simp] theorem Happening.station?_outline (happening : Happening) :
    happening.outline.station? = happening.station? := by
  cases happening <;> rfl

/-! ## The cache -/

namespace Cache

@[simp] theorem isResident_outline (cache : Cache) (address : Int) :
    cache.outline.isResident address = cache.isResident address :=
  rfl

theorem probe_outline (cache : Cache) (address : Int) :
    cache.outline.probe address =
      ((cache.probe address).1, (cache.probe address).2.outline) := by
  unfold probe
  rw [isResident_outline]
  split <;> rfl

theorem outline_writeWord (cache : Cache) (address value value' : Int) :
    (cache.writeWord address value).outline =
      (cache.outline.writeWord address value').outline := by
  simp only [writeWord, probe_outline]
  split <;> rfl

end Cache

/-! ## Operands and stations -/

namespace Operand

@[simp] theorem isReady_outline (operand : Operand) :
    operand.outline.isReady = operand.isReady := by
  cases operand <;> rfl

@[simp] theorem outline_eq_pending (operand : Operand) (tag : String) :
    operand.outline = .pending tag ↔ operand = .pending tag := by
  cases operand <;> simp [outline]

theorem value_outline (operand : Operand) : operand.outline.value = 0 := by
  cases operand <;> rfl

@[simp] theorem outline_outline (operand : Operand) :
    operand.outline.outline = operand.outline := by
  cases operand <;> rfl

theorem outline_receive (operand : Operand) (tag : String) (value value' : Int) :
    (operand.receive tag value).outline =
      (operand.outline.receive tag value').outline := by
  simp only [receive, outline_eq_pending]
  split
  · rfl
  · rw [outline_outline]

end Operand

namespace Station

variable {station : Station} {ins : Instruction}

@[simp] theorem asksForBus_outline (station : Station) :
    station.outline.asksForBus = station.asksForBus :=
  rfl

@[simp] theorem isFreeIn_outline (station : Station) (pool : Pool) :
    station.outline.isFreeIn pool = station.isFreeIn pool :=
  rfl

@[simp] theorem instruction?_outline (station : Station) :
    station.outline.instruction? = station.instruction? :=
  rfl

@[simp] theorem rests_outline (station : Station) :
    station.outline.rests = station.rests :=
  rfl

@[simp] theorem operandsReady_outline (station : Station) :
    station.outline.operandsReady = station.operandsReady := by
  simp [operandsReady, outline]

@[simp] theorem awaits_outline (station : Station) (tag : String) :
    station.outline.awaits tag = station.awaits tag := by
  simp [awaits, outline]

@[simp] theorem hears_outline (station : Station) (tag : String) :
    station.outline.hears tag = station.hears tag := by
  rw [hears, hears, awaits_outline]
  rfl

@[simp] theorem outline_outline (station : Station) :
    station.outline.outline = station.outline := by
  simp [outline]

theorem outline_endPause (station : Station) :
    station.endPause.outline = station.outline.endPause := by
  unfold endPause outline
  split <;> rfl

theorem outline_release (station : Station) :
    station.release.outline = station.outline.release.outline :=
  rfl

theorem outline_receive (station : Station) (tag : String)
    (value value' : Int) :
    (station.receive tag value).outline =
      (station.outline.receive tag value').outline := by
  unfold receive
  rw [awaits_outline]
  split
  · simp only [outline]
    rw [Operand.outline_receive station.j tag value value',
      Operand.outline_receive station.k tag value value']
  · rw [outline_outline]

/-! ## A step of a station -/

/-- An access of the station has no base, or one that is ready with zero. -/
def Unbased (station : Station) : Prop :=
  station.j = .absent ∨ station.j = .ready 0

theorem compute_outline (station : Station) (ins : Instruction) :
    station.outline.compute ins =
      ((station.compute ins).1.outline, (station.compute ins).2) := by
  simp only [compute, operandsReady_outline, outline_executing,
    outline_remaining, outline_name]
  split
  · rfl
  · split <;> rfl

theorem findAddress_outline (h : station.Unbased) (ins : Instruction) :
    station.outline.findAddress ins =
      ((station.findAddress ins).1.outline, (station.findAddress ins).2) := by
  have hvalue : station.j.value = 0 := by
    rcases h with h | h <;> rw [h] <;> rfl
  simp only [findAddress, outline_addressReady, outline_j,
    Operand.isReady_outline, Operand.value_outline, hvalue, outline_name]
  split <;> rfl

theorem mayAccess_outline (station : Station) (ins : Instruction) :
    station.outline.mayAccess ins = station.mayAccess ins := by
  simp only [mayAccess, outline_addressReady, outline_executing, outline_k,
    Operand.isReady_outline]

theorem startAccess_outline (station : Station) (ins : Instruction)
    (cache : Cache) :
    station.outline.startAccess ins cache.outline =
      ((station.startAccess ins cache).1.outline,
        (station.startAccess ins cache).2.1.outline,
        (station.startAccess ins cache).2.2) := by
  simp only [startAccess, Cache.isResident_outline, Cache.probe_outline,
    outline_address, outline_name]
  split <;> rfl

def Step.outline (step : Step) : Step :=
  ⟨step.station.outline, step.port, step.cache.outline, step.log⟩

theorem usePort_outline (station : Station) (ins : Instruction) (port : Port) :
    station.outline.usePort ins port =
      ((station.usePort ins port).1.outline, (station.usePort ins port).2) := by
  simp only [usePort, outline_name, outline_cacheRemaining, outline_remaining]
  generalize (if 0 < station.cacheRemaining
    then station.remaining else countDown station.remaining) = remaining
  split
  · rfl
  · split <;> rfl

theorem awaitBlock_outline (station : Station) (cache : Cache) :
    station.outline.awaitBlock cache.outline =
      ((station.awaitBlock cache).1.outline,
        (station.awaitBlock cache).2.1.outline,
        (station.awaitBlock cache).2.2) := by
  simp only [awaitBlock, outline_cacheRemaining, outline_address, outline_name]
  split <;> rfl

theorem continueAccess_outline (station : Station) (ins : Instruction)
    (port : Port) (cache : Cache) :
    station.outline.continueAccess ins port cache.outline =
      (station.continueAccess ins port cache).outline := by
  simp only [continueAccess, outline_blockResident, usePort_outline,
    awaitBlock_outline]
  split <;> rfl

theorem access_outline (h : station.Unbased) (ins : Instruction) (port : Port)
    (cache : Cache) :
    station.outline.access ins port cache.outline =
      (station.access ins port cache).outline := by
  simp only [access, findAddress_outline h, mayAccess_outline]
  split
  · rfl
  · simp only [outline_executing, startAccess_outline]
    split
    · split
      · rfl
      · simp only [continueAccess_outline]
        rfl
    · split
      · rfl
      · simp only [continueAccess_outline]
        rfl

/-- The station's instruction, if it is a memory access, has no base, or one that
is ready with zero. -/
def Blind (station : Station) : Prop :=
  ∀ ins, station.instruction? = some ins → ins.opcode.isMemory = true →
    station.Unbased

theorem execute_outline (h : station.Blind) (port : Port) (cache : Cache) :
    station.outline.execute port cache.outline =
      (station.execute port cache).outline := by
  unfold execute
  rw [rests_outline, instruction?_outline]
  split
  · rfl
  · split
    · rfl
    · next ins hins =>
        split
        · next hmemory => exact access_outline (h ins hins hmemory) ins port cache
        · rw [compute_outline]
          rfl

end Station

/-! ## Registers -/

namespace RegisterFile

@[simp] theorem outline_outline (file : RegisterFile) :
    file.outline.outline = file.outline :=
  rfl

@[simp] theorem tag?_outline (file : RegisterFile) (name : String) :
    file.outline.tag? name = file.tag? name :=
  rfl

theorem outline_write (file : RegisterFile) (name : String) (value : Int) :
    (file.write name value).outline = file.outline := by
  unfold write
  split <;> rfl

theorem outline_setTag (file : RegisterFile) (name station : String) :
    (file.setTag name station).outline = file.outline.setTag name station := by
  unfold setTag
  split <;> rfl

theorem outline_clearTag (file : RegisterFile) (name station : String) :
    (file.clearTag name station).outline =
      file.outline.clearTag name station := by
  by_cases howner : file.tags.get? name = some station
  · simp [clearTag, outline, howner]
  · simp [clearTag, outline, howner]

theorem outline_operand (file : RegisterFile) (source : Option String) :
    (file.operand source).outline = (file.outline.operand source).outline := by
  cases source with
  | none => rfl
  | some name =>
      simp only [operand, tag?_outline]
      cases file.tag? name <;> rfl

theorem outline_secondOperand (file : RegisterFile) (ins : Instruction) :
    (file.secondOperand ins).outline =
      (file.outline.secondOperand ins).outline := by
  unfold secondOperand
  split
  · rfl
  · rfl
  · exact file.outline_operand ins.src2

end RegisterFile

/-! ## Banks -/

namespace Bank

variable {condition : Station → Bool} {change change' : Station → Station}

theorem find?_outline (hcondition : ∀ s, condition s.outline = condition s)
    (bank : Bank) :
    List.find? condition (bank.map Station.outline) =
      (bank.find? condition).map Station.outline := by
  have hcomp : condition ∘ Station.outline = condition := funext hcondition
  rw [List.find?_map, hcomp]

theorem granted?_outline (bank : Bank) :
    granted? (bank.map Station.outline) = bank.granted?.map Station.outline :=
  bank.find?_outline Station.asksForBus_outline

theorem free?_outline (bank : Bank) (pool : Pool) :
    free? (bank.map Station.outline) pool =
      (bank.free? pool).map Station.outline :=
  bank.find?_outline fun s => s.isFreeIn_outline pool

theorem outline_changeFirst
    (hcondition : ∀ s, condition s.outline = condition s)
    (hchange : ∀ s, (change s).outline = (change' s.outline).outline)
    (bank : Bank) :
    (bank.changeFirst condition change).map Station.outline =
      (changeFirst (bank.map Station.outline) condition change').map
        Station.outline := by
  have hcomp : condition ∘ Station.outline = condition := funext hcondition
  apply List.ext_getElem?
  intro index
  simp only [changeFirst, List.getElem?_map, List.getElem?_modify,
    List.findIdx_map, hcomp]
  cases bank[index]? with
  | none => rfl
  | some station =>
      simp only [Option.map_some, Option.map_eq_map]
      split
      · simp [hchange]
      · simp

theorem outline_broadcast (bank : Bank) (tag : String) (value value' : Int) :
    (bank.broadcast tag value).map Station.outline =
      (broadcast (bank.map Station.outline) tag value').map
        Station.outline := by
  simp only [broadcast, List.map_map]
  refine List.map_congr_left fun station _ => ?_
  simp only [Function.comp_apply, Station.outline_busy]
  split
  · exact station.outline_receive tag value value'
  · rw [Station.outline_outline]

theorem hearers_outline (bank : Bank) (tag : String) :
    hearers (bank.map Station.outline) tag = bank.hearers tag := by
  have hcomp : ((·.hears tag) : Station → Bool) ∘ Station.outline =
      (·.hears tag) := funext fun s => s.hears_outline tag
  rw [hearers, hearers, List.filter_map, hcomp, List.map_map]
  rfl

theorem execute_outline {bank : Bank} (h : ∀ station ∈ bank, station.Blind)
    (port : Port) (cache : Cache) :
    execute (bank.map Station.outline) port cache.outline =
      ((bank.execute port cache).1.map Station.outline,
        (bank.execute port cache).2.1, (bank.execute port cache).2.2.1.outline,
        (bank.execute port cache).2.2.2) := by
  induction bank generalizing port cache with
  | nil => rfl
  | cons station rest ih =>
      have hrest := ih fun other hother => h other (List.mem_cons_of_mem _ hother)
      rw [List.map_cons]
      unfold execute
      rw [Station.execute_outline (h station List.mem_cons_self)]
      simp only [Station.Step.outline, hrest]
      split <;> rfl

end Bank

/-! ## The phases of a cycle -/

namespace Machine

variable {m : Machine} {station : Station} {ins : Instruction}

theorem outline_begin (m : Machine) : m.begin.outline = m.outline.begin := by
  have hcomp : Station.outline ∘ Station.endPause =
      Station.endPause ∘ Station.outline := funext Station.outline_endPause
  simp only [begin, outline, List.map_map, hcomp]

theorem execute_outline (h : ∀ station ∈ m.bank, station.Blind) :
    m.outline.execute = (m.execute.1.outline, m.execute.2) := by
  simp only [execute, outline, Bank.execute_outline h]

theorem outline_occupied (m : Machine) (station : Station) (next : Stamped) :
    (m.occupied station next).outline =
      (m.outline.occupied station.outline next).outline := by
  simp only [occupied, Station.outline, Station.occupy, outline,
    m.registers.outline_operand, m.registers.outline_secondOperand]

@[simp] theorem outline_outline (m : Machine) :
    m.outline.outline = m.outline := by
  have hcomp : Station.outline ∘ Station.outline = Station.outline :=
    funext Station.outline_outline
  simp only [outline, List.map_map, hcomp]
  rfl

theorem outline_rename (file : RegisterFile) (ins : Instruction)
    (station : String) :
    (match ins.target? with
      | some register => file.setTag register station
      | none => file : RegisterFile).outline =
    (match ins.target? with
      | some register => file.outline.setTag register station
      | none => file.outline : RegisterFile).outline := by
  cases ins.target? with
  | none => rfl
  | some register =>
      simp only [RegisterFile.outline_setTag, RegisterFile.outline_outline]

/-- Issue does to a machine what it does to its outline, and tells the same. -/
theorem outline_issue (m : Machine) :
    m.issue.1.outline = m.outline.issue.1.outline ∧
      m.issue.2 = m.outline.issue.2 := by
  have hqueue : m.outline.queue = m.queue := rfl
  unfold issue
  rw [hqueue]
  cases m.queue with
  | nil => exact ⟨m.outline_outline.symm, rfl⟩
  | cons next rest =>
      have hfree : m.outline.bank.free? next.instruction.opcode.pool =
          (m.bank.free? next.instruction.opcode.pool).map Station.outline :=
        m.bank.free?_outline next.instruction.opcode.pool
      dsimp only
      rw [hfree]
      cases m.bank.free? next.instruction.opcode.pool with
      | none => exact ⟨m.outline_outline.symm, rfl⟩
      | some station =>
          refine ⟨?_, rfl⟩
          have hbank : (m.bank.changeFirst
              (·.isFreeIn next.instruction.opcode.pool)
                (m.occupied · next)).map Station.outline =
              (m.outline.bank.changeFirst
                (·.isFreeIn next.instruction.opcode.pool)
                  (m.outline.occupied · next)).map Station.outline :=
            m.bank.outline_changeFirst
              (fun s => s.isFreeIn_outline next.instruction.opcode.pool)
              (fun s => m.outline_occupied s next)
          have hregisters := outline_rename m.registers next.instruction
            station.name
          exact congrArg₂ (fun bank registers => { m.outline with
            bank, registers, queue := rest, issuedCount := m.issuedCount + 1 })
              hbank hregisters

theorem outline_redefine (file : RegisterFile) (ins : Instruction)
    (station : String) (value value' : Int) :
    (match ins.target? with
      | some register => (file.write register value).clearTag register station
      | none => file : RegisterFile).outline =
    (match ins.target? with
      | some register =>
        (file.outline.write register value').clearTag register station
      | none => file.outline : RegisterFile).outline := by
  cases ins.target? with
  | none => rfl
  | some register =>
      simp only [RegisterFile.outline_clearTag, RegisterFile.outline_write,
        RegisterFile.outline_outline]

/-- Whatever the value is that is published, the outline is the same. -/
theorem outline_publish (m : Machine) (producer : String) (ins : Instruction)
    (value value' : Int) :
    (m.publish producer ins value).1.outline =
        (m.outline.publish producer ins value').1.outline ∧
      (m.publish producer ins value).2.map Happening.outline =
        (m.outline.publish producer ins value').2.map Happening.outline := by
  have hbank := m.bank.outline_broadcast producer value value'
  have hregisters := outline_redefine m.registers ins producer value value'
  have hhearers : m.outline.bank.hearers producer = m.bank.hearers producer :=
    m.bank.hearers_outline producer
  refine ⟨?_, ?_⟩
  · exact congrArg₂ (fun bank registers => { m.outline with bank, registers })
      hbank hregisters
  · unfold publish
    dsimp only
    rw [hhearers, List.map_map, List.map_map]
    rfl

theorem outline_setCache (m : Machine) {cache cache' : Cache}
    (h : cache.outline = cache'.outline) :
    { m with cache }.outline = { m.outline with cache := cache' }.outline := by
  have hbank := congrArg Machine.bank m.outline_outline
  simp only [outline] at hbank ⊢
  rw [h, hbank]
  rfl

/-- What an instruction other than a branch does before its station is free it
does to the outline. -/
theorem outline_settle (m : Machine) (station : Station) {ins : Instruction}
    (hform : ins.opcode.form ≠ .branch) :
    (m.settle station ins).1.outline =
        (m.outline.settle station.outline ins).1.outline ∧
      (m.settle station ins).2.map Happening.outline =
        (m.outline.settle station.outline ins).2.map Happening.outline := by
  cases h : ins.opcode.form with
  | branch => exact absurd h hform
  | store =>
      have hcache := m.cache.outline_writeWord station.address station.k.value
        station.outline.k.value
      simp only [settle, h, List.map_cons, List.map_nil, Happening.outline,
        Station.outline_name, Station.outline_address, and_true]
      exact m.outline_setCache hcache
  | load | immediate | register | bare =>
      simp only [settle, h, List.map_cons, List.map_nil, Happening.outline,
        Station.outline_name, Station.outline_address, and_true]
      exact m.outline_outline.symm

theorem outline_released (m : Machine) :
    m.released.outline = m.outline.released.outline := by
  have hbank : (m.bank.changeFirst Station.asksForBus Station.release).map
      Station.outline = (m.outline.bank.changeFirst Station.asksForBus
        Station.release).map Station.outline :=
    m.bank.outline_changeFirst Station.asksForBus_outline
      Station.outline_release
  exact congrArg (fun bank => { m.outline with bank }) hbank

/-- When the station is free, its value goes round in the outline as well. -/
theorem outline_complete (m : Machine) (station : Station) (ins : Instruction) :
    (m.complete station ins).1.outline =
        (m.outline.complete station.outline ins).1.outline ∧
      (m.complete station ins).2.map Happening.outline =
        (m.outline.complete station.outline ins).2.map Happening.outline := by
  have hreleased := m.outline_released
  have hpublished : ∀ value value',
      (m.released.publish station.name ins value).1.outline =
          (m.outline.released.publish station.name ins value').1.outline ∧
        (m.released.publish station.name ins value).2.map Happening.outline =
          (m.outline.released.publish station.name ins value').2.map
            Happening.outline := by
    intro value value'
    have hleft := m.released.outline_publish station.name ins value 0
    have hright := m.outline.released.outline_publish station.name ins value' 0
    rw [← hreleased] at hright
    exact ⟨hleft.1.trans hright.1.symm, hleft.2.trans hright.2.symm⟩
  cases h : ins.opcode.form with
  | store | branch =>
      simp only [complete, product?, h]
      exact ⟨hreleased, trivial⟩
  | load | immediate | register | bare =>
      simp only [complete, product?, h]
      exact hpublished _ _

/-- Two machines with the same outline have the same one when a station is
free. -/
theorem outline_complete_congr {m' : Machine} (h : m.outline = m'.outline)
    (station : Station) (ins : Instruction) :
    (m.complete station ins).1.outline =
        (m'.complete station.outline ins).1.outline ∧
      (m.complete station ins).2.map Happening.outline =
        (m'.complete station.outline ins).2.map Happening.outline := by
  have hleft := m.outline_complete station ins
  have hright := m'.outline_complete station.outline ins
  rw [← h, Station.outline_outline] at hright
  exact ⟨hleft.1.trans hright.1.symm, hleft.2.trans hright.2.symm⟩

end Machine

end OutOfOrder
