import Mathlib.Data.List.TakeWhile
import OutOfOrder.Machine.Cycle
import OutOfOrder.Proofs.Execution

/-!
# The phases of a cycle

What the three phases of a cycle can do to a machine is said here once, case
by case.  The invariants of a machine are then shown phase by phase.
-/

namespace OutOfOrder

/-! ## Logs that can be told in part -/

theorem takeWhile_isTellable_of_isTold {log : List Happening}
    (h : isTold log = true) : log.takeWhile Happening.isTellable = log := by
  have hall : ∀ happening ∈ log, happening.isTellable = true := by
    simpa [isTold] using h
  exact List.takeWhile_eq_self_iff.mpr hall

theorem takeWhile_isTellable_append {log rest : List Happening}
    (h : isTold log = true) :
    (log ++ rest).takeWhile Happening.isTellable =
      log ++ rest.takeWhile Happening.isTellable := by
  have hall : ∀ happening ∈ log, happening.isTellable = true := by
    simpa [isTold] using h
  exact List.takeWhile_append_of_pos hall

theorem mem_of_mem_takeWhile_isTellable {log : List Happening}
    {happening : Happening}
    (h : happening ∈ log.takeWhile Happening.isTellable) : happening ∈ log :=
  (List.takeWhile_sublist _).subset h

/-! ## Stations between the phases -/

namespace Station

variable {station : Station} {ins : Instruction}

theorem sameWork_endPause (station : Station) :
    station.SameWork station.endPause := by
  unfold endPause
  split <;> exact ⟨rfl, rfl, rfl, rfl, rfl, rfl⟩

theorem Sound.endPause (h : station.Sound) : station.endPause.Sound := by
  unfold Station.endPause
  split
  · next hbusy =>
      obtain ⟨ins, hins, hprogress⟩ := h.working hbusy
      refine ⟨fun hfree => ?_, fun _ => ⟨ins, hins, ?_⟩⟩
      · simp [hbusy] at hfree
      · exact { hprogress with }
  · exact h

theorem sound_release (station : Station) : station.release.Sound where
  free := fun _ => rfl
  working := by simp [release]

/-- A pending operand that receives a value is ready with that value. -/
theorem isReady_receive {operand : Operand} {tag : String} {value : Int}
    (h : operand.isReady = true) : operand.receive tag value = operand := by
  unfold Operand.receive
  split
  · next heq => simp [heq, Operand.isReady] at h
  · rfl

@[simp] theorem name_receive (station : Station) (tag : String) (value : Int) :
    (station.receive tag value).name = station.name := by
  unfold receive
  split <;> rfl

@[simp] theorem pool_receive (station : Station) (tag : String) (value : Int) :
    (station.receive tag value).pool = station.pool := by
  unfold receive
  split <;> rfl

@[simp] theorem busy_receive (station : Station) (tag : String) (value : Int) :
    (station.receive tag value).busy = station.busy := by
  unfold receive
  split <;> rfl

@[simp] theorem held_receive (station : Station) (tag : String) (value : Int) :
    (station.receive tag value).held = station.held := by
  unfold receive
  split <;> rfl

theorem operand_receive (station : Station) (tag : String) (value : Int)
    (slot : Slot) :
    (station.receive tag value).operand slot =
      (station.operand slot).receive tag value := by
  unfold receive awaits
  split
  · cases slot <;> rfl
  · next hnone =>
      have hne : station.j ≠ .pending tag ∧ station.k ≠ .pending tag := by
        simpa using hnone
      cases slot
      · simp [operand, Operand.receive, hne.1]
      · simp [operand, Operand.receive, hne.2]

theorem Progress.receive (h : station.Progress ins) (tag : String)
    (value : Int) : (station.receive tag value).Progress ins := by
  unfold Station.receive
  split
  · exact {
      pool := h.pool
      remaining := h.remaining
      cacheRemaining := h.cacheRemaining
      addressed := fun haddress => by
        obtain ⟨hj, hvalue⟩ := h.addressed haddress
        simpa [isReady_receive hj, hj] using hvalue
      accessing := fun hmemory hexecuting => by
        obtain ⟨haddress, hk⟩ := h.accessing hmemory hexecuting
        refine ⟨haddress, fun hstore => ?_⟩
        simpa [isReady_receive (hk hstore)] using hk hstore
      computing := fun hmemory hexecuting => by
        have hready := h.computing hmemory hexecuting
        have hboth : station.j.isReady = true ∧ station.k.isReady = true := by
          simpa [operandsReady] using hready
        simpa [operandsReady, isReady_receive hboth.1,
          isReady_receive hboth.2] using hboth
      counting := h.counting
      uncached := h.uncached
      finished := h.finished }
  · exact h

theorem Sound.receive (h : station.Sound) (hbusy : station.busy = true)
    (tag : String) (value : Int) : (station.receive tag value).Sound where
  free := by simp [hbusy]
  working := fun _ => by
    obtain ⟨ins, hins, hprogress⟩ := h.working hbusy
    refine ⟨ins, ?_, hprogress.receive tag value⟩
    simpa [instruction?] using hins

end Station

namespace Machine

/-! ## The start of a cycle -/

/-- The machine at the start of a cycle, when the pauses of the last one are
over. -/
def begin (m : Machine) : Machine :=
  { m with cycle := m.cycle + 1, bank := m.bank.map Station.endPause }

theorem advance_of_told {m : Machine} (h : isTold m.begin.writeback.2 = true) :
    m.advance =
      (m.begin.writeback.1.issue.1.execute.1,
        .cycleStarted :: m.begin.writeback.2 ++
          m.begin.writeback.1.issue.2 ++
          m.begin.writeback.1.issue.1.execute.2) := by
  have hunfold : m.advance =
      if !isTold m.begin.writeback.2
      then (m.begin.writeback.1, .cycleStarted :: m.begin.writeback.2)
      else (m.begin.writeback.1.issue.1.execute.1,
        .cycleStarted :: m.begin.writeback.2 ++
          m.begin.writeback.1.issue.2 ++
          m.begin.writeback.1.issue.1.execute.2) := rfl
  rw [hunfold, h]
  rfl

theorem advance_of_untold {m : Machine}
    (h : isTold m.begin.writeback.2 = false) :
    m.advance =
      (m.begin.writeback.1, .cycleStarted :: m.begin.writeback.2) := by
  have hunfold : m.advance =
      if !isTold m.begin.writeback.2
      then (m.begin.writeback.1, .cycleStarted :: m.begin.writeback.2)
      else (m.begin.writeback.1.issue.1.execute.1,
        .cycleStarted :: m.begin.writeback.2 ++
          m.begin.writeback.1.issue.2 ++
          m.begin.writeback.1.issue.1.execute.2) := rfl
  rw [hunfold, h]
  rfl

/-! ## Write-back -/

/-- The machine without the instruction that has the bus. -/
def released (m : Machine) : Machine :=
  { m with bank := m.bank.changeFirst Station.asksForBus Station.release }

/-- What the write-back phase can make of a machine, and what happens in it. -/
inductive WritesBack (m : Machine) : Machine → List Happening → Prop where
  /-- No station asks for the bus. -/
  | idle (hgranted : m.bank.granted? = none) : WritesBack m m []
  /-- The station that has the bus holds no instruction. -/
  | empty {station : Station} (hgranted : m.bank.granted? = some station)
      (hins : station.instruction? = none) :
      WritesBack m m [.stuck station.name]
  /-- What the instruction does cannot be told, and it keeps its station. -/
  | broken {station : Station} {ins : Instruction}
      (hgranted : m.bank.granted? = some station)
      (hins : station.instruction? = some ins)
      (huntold : isTold (m.settle station ins).2 = false) :
      WritesBack m (m.settle station ins).1 (m.settle station ins).2
  /-- A store changes memory. -/
  | stored {station : Station} {ins : Instruction}
      (hgranted : m.bank.granted? = some station)
      (hins : station.instruction? = some ins)
      (hform : ins.opcode.form = .store)
      (htold : isTold [.stored station.name station.k.value station.address]
        = true) :
      WritesBack m
        { m.released with
          cache := m.cache.writeWord station.address station.k.value }
        [.stored station.name station.k.value station.address]
  /-- A branch may change what is issued next. -/
  | branched {station : Station} {ins : Instruction}
      (hgranted : m.bank.granted? = some station)
      (hins : station.instruction? = some ins)
      (hform : ins.opcode.form = .branch)
      (htold : isTold (m.redirect station ins).2 = true) :
      WritesBack m (m.redirect station ins).1.released
        (.resolved station.name ins :: (m.redirect station ins).2)
  /-- Every other instruction publishes a value. -/
  | published {station : Station} {ins : Instruction} {value : Int}
      {happening : Happening} (hgranted : m.bank.granted? = some station)
      (hins : station.instruction? = some ins)
      (hvalue : m.product? station ins = some value)
      (hhappening : happening = .loaded station.name value station.address ∨
        happening = .computed station.name value)
      (htold : isTold [happening] = true) :
      WritesBack m (m.released.publish station.name ins value).1
        (happening :: (m.released.publish station.name ins value).2)

theorem writeback_writesBack (m : Machine) :
    m.WritesBack m.writeback.1 m.writeback.2 := by
  unfold writeback
  split
  · next hgranted => exact .idle hgranted
  · next station hgranted =>
      split
      · next hins => exact .empty hgranted hins
      · next ins hins =>
          dsimp only
          split
          · next huntold =>
              exact .broken hgranted hins (by simpa using huntold)
          · next htold =>
              have htold' : isTold (m.settle station ins).2 = true := by
                simpa using htold
              clear htold
              cases hform : ins.opcode.form with
              | store =>
                  simp only [settle, hform] at htold'
                  simpa [settle, complete, product?, released, hform] using
                    WritesBack.stored hgranted hins hform htold'
              | branch =>
                  simp only [settle, hform] at htold'
                  have htold'' : isTold (m.redirect station ins).2 = true := by
                    simp only [isTold, List.all_cons, Bool.and_eq_true]
                      at htold'
                    exact htold'.2
                  simpa [settle, complete, product?, released, hform] using
                    WritesBack.branched hgranted hins hform htold''
              | load =>
                  simp only [settle, hform] at htold'
                  have hvalue : m.product? station ins =
                      some (m.cache.readWord station.address) := by
                    simp [product?, hform]
                  simpa [settle, complete, hvalue, released, hform] using
                    WritesBack.published hgranted hins hvalue (.inl rfl) htold'
              | immediate | register | bare =>
                  simp only [settle, hform] at htold'
                  have hvalue : m.product? station ins =
                      some (station.result ins) := by
                    simp [product?, hform]
                  simpa [settle, complete, hvalue, released, hform] using
                    WritesBack.published hgranted hins hvalue (.inr rfl) htold'

theorem WritesBack.eq_self {m m' : Machine} {log : List Happening}
    (hphase : m.WritesBack m' log) (htold : isTold log = true)
    (hgranted : m.bank.granted? = none) : m' = m := by
  cases hphase with
  | idle => rfl
  | empty => nomatch htold
  | broken hsome | stored hsome | branched hsome | published hsome =>
      rw [hgranted] at hsome
      nomatch hsome

/-- What a write-back that can be told makes of the machine, if a station has
the bus: its instruction is a store or a branch, or it publishes a value. -/
theorem WritesBack.of_granted {m m' : Machine} {log : List Happening}
    {station : Station} {ins : Instruction} (hphase : m.WritesBack m' log)
    (htold : isTold log = true) (hgranted : m.bank.granted? = some station)
    (hins : station.instruction? = some ins) :
    (ins.opcode.form = .store ∧
        m' = { m.released with
          cache := m.cache.writeWord station.address station.k.value }) ∨
      (ins.opcode.form = .branch ∧
        m' = (m.redirect station ins).1.released) ∨
      ∃ value happening, m.product? station ins = some value ∧
        (happening = .loaded station.name value station.address ∨
          happening = .computed station.name value) ∧
        isTold [happening] = true ∧
        m' = (m.released.publish station.name ins value).1 ∧
        log = happening :: (m.released.publish station.name ins value).2 := by
  cases hphase with
  | idle hnone =>
      rw [hgranted] at hnone
      nomatch hnone
  | empty => nomatch htold
  | broken _ _ huntold =>
      rw [huntold] at htold
      nomatch htold
  | stored hgranted' hins' hform =>
      cases hgranted.symm.trans hgranted'
      cases hins.symm.trans hins'
      exact .inl ⟨hform, rfl⟩
  | branched hgranted' hins' hform =>
      cases hgranted.symm.trans hgranted'
      cases hins.symm.trans hins'
      exact .inr (.inl ⟨hform, rfl⟩)
  | published hgranted' hins' hvalue hhappening htellable =>
      cases hgranted.symm.trans hgranted'
      cases hins.symm.trans hins'
      exact .inr (.inr ⟨_, _, hvalue, hhappening, htellable, rfl, rfl⟩)

/-- A value whose write-back can be told can be told by all who receive it. -/
theorem isTold_publish {m : Machine} {station : Station} {ins : Instruction}
    {value : Int} {happening : Happening}
    (hhappening : happening = .loaded station.name value station.address ∨
      happening = .computed station.name value)
    (htold : isTold [happening] = true) :
    isTold (happening :: (m.publish station.name ins value).2) = true := by
  have hfirst : happening.isTellable = true := by
    simpa [isTold] using htold
  have hwritable : Numeral.isWritable value = true := by
    rcases hhappening with rfl | rfl
    · have hboth : Numeral.isWritable value = true ∧
          Numeral.isWritable station.address = true := by
        simpa [Happening.isTellable, Happening.obstacle?,
          Happening.numbers] using hfirst
      exact hboth.1
    · simpa [Happening.isTellable, Happening.obstacle?,
        Happening.numbers] using hfirst
  have hreceived : ∀ other ∈ (m.publish station.name ins value).2,
      other.isTellable = true := by
    intro other hother
    obtain ⟨name, -, rfl⟩ := List.mem_map.mp hother
    simp [Happening.isTellable, Happening.obstacle?, Happening.numbers,
      hwritable]
  rw [isTold, List.all_cons, hfirst, Bool.true_and]
  exact List.all_eq_true.mpr hreceived

/-- The ways on behind a branch: it is not taken, it has no destination, or the
program goes on at its destination. -/
theorem redirect_cases (m : Machine) (station : Station) (ins : Instruction) :
    m.redirect station ins =
        (m, [.notTaken station.name station.j.value station.k.value]) ∨
      m.redirect station ins =
        (m, [.outOfRange station.name (m.issuedCount + ins.constant)
          m.program.length]) ∨
      ∃ (index : Nat) (next : Stamped),
        (index : Int) = m.issuedCount + ins.constant ∧
        m.program[index]? = some next ∧
        m.redirect station ins =
          ({ m with queue := m.program.drop index, issuedCount := index },
            [.taken station.name index next.instruction station.j.value
              station.k.value]) := by
  unfold redirect
  dsimp only
  split
  · exact .inl rfl
  · right
    split
    · exact .inl rfl
    · next next hnext =>
        split at hnext
        · contradiction
        · exact .inr ⟨_, next, Int.toNat_of_nonneg (by omega), hnext, rfl⟩

/-- A branch tells one thing about its way, after which its station is
free. -/
theorem redirect_log (m : Machine) (station : Station) (ins : Instruction) :
    ∃ happening, (m.redirect station ins).2 = [happening] ∧
      ((∃ index next a b, happening = .taken station.name index next a b) ∨
        (∃ a b, happening = .notTaken station.name a b) ∨
        ∃ index size, happening = .outOfRange station.name index size) := by
  rcases m.redirect_cases station ins with
    heq | heq | ⟨index, next, -, -, heq⟩
  · exact ⟨_, by rw [heq], .inr (.inl ⟨_, _, rfl⟩)⟩
  · exact ⟨_, by rw [heq], .inr (.inr ⟨_, _, rfl⟩)⟩
  · exact ⟨_, by rw [heq], .inl ⟨_, _, _, _, rfl⟩⟩

/-- A branch changes nothing but the instructions to be issued. -/
theorem redirect_eq (m : Machine) (station : Station) (ins : Instruction) :
    ∃ queue issuedCount, (m.redirect station ins).1 =
      { m with queue, issuedCount } := by
  rcases m.redirect_cases station ins with
    heq | heq | ⟨index, next, -, -, heq⟩
  · exact ⟨_, _, by rw [heq]⟩
  · exact ⟨_, _, by rw [heq]⟩
  · exact ⟨_, _, by rw [heq]⟩

/-- Settling an instruction changes nothing but the cache and the instructions
to be issued. -/
theorem settle_eq (m : Machine) (station : Station) (ins : Instruction) :
    ∃ cache queue issuedCount, (m.settle station ins).1 =
      { m with cache, queue, issuedCount } := by
  unfold settle
  split
  · exact ⟨_, _, _, rfl⟩
  · obtain ⟨queue, issuedCount, heq⟩ := redirect_eq m station ins
    exact ⟨m.cache, queue, issuedCount, heq⟩
  · exact ⟨_, _, _, rfl⟩
  · exact ⟨_, _, _, rfl⟩

/-! ## Issue -/

/-- What the issue phase can make of a machine, and what happens in it. -/
inductive Issues (m : Machine) : Machine → List Happening → Prop where
  /-- Nothing is to be issued. -/
  | drained (hqueue : m.queue = []) : Issues m m []
  /-- The pool of the next instruction has no free station. -/
  | stalled {next : Stamped} {rest : List Stamped}
      (hqueue : m.queue = next :: rest)
      (hfree : m.bank.free? next.instruction.opcode.pool = none) :
      Issues m m [.stalled next.instruction]
  /-- The next instruction goes to a free station of its pool. -/
  | issued {next : Stamped} {rest : List Stamped} {station : Station}
      (hqueue : m.queue = next :: rest)
      (hfree : m.bank.free? next.instruction.opcode.pool = some station) :
      Issues m
        { m with
          bank := m.bank.changeFirst
            (·.isFreeIn next.instruction.opcode.pool) (m.occupied · next)
          registers := match next.instruction.target? with
            | some register => m.registers.setTag register station.name
            | none => m.registers
          queue := rest
          issuedCount := m.issuedCount + 1 }
        [.issued station.name next.instruction]

theorem issue_issues (m : Machine) : m.Issues m.issue.1 m.issue.2 := by
  unfold issue
  split
  · next hqueue => exact .drained hqueue
  · next next rest hqueue =>
      dsimp only
      split
      · next hfree => exact .stalled hqueue hfree
      · next station hfree => exact .issued hqueue hfree

theorem Issues.isTold {m m' : Machine} {log : List Happening}
    (h : m.Issues m' log) : isTold log = true := by
  cases h <;> rfl

/-- A cycle whose write-back can be told tells it and the issue, and of execution
what can be told. -/
theorem takeWhile_advance {m : Machine}
    (h : isTold m.begin.writeback.2 = true) :
    m.advance.2.takeWhile Happening.isTellable =
      .cycleStarted :: m.begin.writeback.2 ++ m.begin.writeback.1.issue.2 ++
        m.begin.writeback.1.issue.1.execute.2.takeWhile
          Happening.isTellable := by
  have htold : isTold (.cycleStarted :: m.begin.writeback.2 ++
      m.begin.writeback.1.issue.2) = true := by
    have hissue := m.begin.writeback.1.issue_issues.isTold
    simp only [isTold, List.cons_append, List.all_cons, List.all_append,
      Bool.and_eq_true] at h hissue ⊢
    exact ⟨by decide, h, hissue⟩
  rw [advance_of_told h, takeWhile_isTellable_append htold]

/-! ## Execution -/

theorem isExecution_of_mem_execute {m : Machine} {happening : Happening}
    (h : happening ∈ m.execute.2) : happening.kind.isExecution = true :=
  Bank.isExecution_of_mem_execute h

/-! ## What the phases leave alone -/

/-- The other machine is the same one with the same program, in the same
cycle. -/
structure SameFrame (m m' : Machine) : Prop where
  config : m'.config = m.config
  program : m'.program = m.program
  cycle : m'.cycle = m.cycle
  geometry : m'.cache.geometry = m.cache.geometry

theorem SameFrame.trans {m m' m'' : Machine} (h : m.SameFrame m')
    (h' : m'.SameFrame m'') : m.SameFrame m'' where
  config := h'.config.trans h.config
  program := h'.program.trans h.program
  cycle := h'.cycle.trans h.cycle
  geometry := h'.geometry.trans h.geometry

theorem geometry_writeWord (cache : Cache) (address value : Int) :
    (cache.writeWord address value).geometry = cache.geometry := by
  unfold Cache.writeWord Cache.probe
  dsimp only
  split <;> split <;> rfl

theorem sameFrame_settle (m : Machine) (station : Station)
    (ins : Instruction) : m.SameFrame (m.settle station ins).1 := by
  unfold settle
  split
  · exact ⟨rfl, rfl, rfl, geometry_writeWord m.cache _ _⟩
  · obtain ⟨queue, issuedCount, heq⟩ := redirect_eq m station ins
    dsimp only
    rw [heq]
    exact ⟨rfl, rfl, rfl, rfl⟩
  · exact ⟨rfl, rfl, rfl, rfl⟩
  · exact ⟨rfl, rfl, rfl, rfl⟩

theorem WritesBack.sameFrame {m m' : Machine} {log : List Happening}
    (h : m.WritesBack m' log) : m.SameFrame m' := by
  cases h with
  | idle => exact ⟨rfl, rfl, rfl, rfl⟩
  | empty => exact ⟨rfl, rfl, rfl, rfl⟩
  | broken => exact sameFrame_settle m _ _
  | stored => exact ⟨rfl, rfl, rfl, geometry_writeWord m.cache _ _⟩
  | @branched station ins =>
      obtain ⟨queue, issuedCount, heq⟩ := redirect_eq m station ins
      rw [heq]
      exact ⟨rfl, rfl, rfl, rfl⟩
  | published => exact ⟨rfl, rfl, rfl, rfl⟩

theorem Issues.sameFrame {m m' : Machine} {log : List Happening}
    (h : m.Issues m' log) : m.SameFrame m' := by
  cases h with
  | drained => exact ⟨rfl, rfl, rfl, rfl⟩
  | stalled => exact ⟨rfl, rfl, rfl, rfl⟩
  | issued => exact ⟨rfl, rfl, rfl, rfl⟩

theorem sameFrame_execute (m : Machine) : m.SameFrame m.execute.1 :=
  ⟨rfl, rfl, rfl, congrArg Prod.fst (Bank.base_execute m.bank _ m.cache)⟩

theorem sameFrame_advance (m : Machine) : m.begin.SameFrame m.advance.1 := by
  have hwritten := m.begin.writeback_writesBack.sameFrame
  cases htold : isTold m.begin.writeback.2 with
  | false =>
      rw [advance_of_untold htold]
      exact hwritten
  | true =>
      rw [advance_of_told htold]
      have hissued := m.begin.writeback.1.issue_issues.sameFrame
      exact (hwritten.trans hissued).trans (sameFrame_execute _)

theorem cycle_advance (m : Machine) : m.advance.1.cycle = m.cycle + 1 :=
  m.sameFrame_advance.cycle

end Machine

end OutOfOrder
