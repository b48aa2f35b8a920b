import OutOfOrder.Proofs.Outline
import OutOfOrder.Proofs.Telling

/-!
# Timing does not depend on data

A program that does not branch, and whose addresses are constants, takes the same
course whatever the registers and memory hold: two machines that have the same
outline have the same outline one cycle later, and tell the same up to values.

A value could still break a cycle off, if it had too many digits to be told.  The
values that are told are words, so this does not happen; an address may have too
many digits, but it is the same in both machines.
-/

namespace OutOfOrder

/-! ## Blind programs -/

/-- The instruction is no branch, and the base of its address, if it has one, is
the register that is always zero. -/
structure Instruction.Blind (ins : Instruction) : Prop where
  not_branch : ins.opcode.isBranch = false
  base : ins.opcode.isMemory = true →
    ins.src1 = none ∨ ins.src1 = some zeroRegister

instance (ins : Instruction) : Decidable ins.Blind :=
  decidable_of_iff (ins.opcode.isBranch = false ∧
    (ins.opcode.isMemory = true →
      ins.src1 = none ∨ ins.src1 = some zeroRegister))
    ⟨fun h => ⟨h.1, h.2⟩, fun h => ⟨h.not_branch, h.base⟩⟩

theorem Instruction.Blind.form_ne {ins : Instruction} (h : ins.Blind) :
    ins.opcode.form ≠ .branch :=
  of_decide_eq_false h.not_branch

namespace Station

variable {station other : Station}

theorem Unbased.listen (h : station.Unbased) (tag : String) (value : Int) :
    (station.listen tag value).Unbased := by
  unfold Station.listen receive
  split
  · split
    · rcases h with h | h <;> simp [Unbased, h, Operand.receive]
    · exact h
  · exact h

theorem Blind.of_sameWork (h : station.Blind) (hwork : station.SameWork other) :
    other.Blind := by
  intro ins hins hmemory
  rw [hwork.instruction?] at hins
  rw [Unbased, hwork.j]
  exact h ins hins hmemory

theorem Blind.listen (h : station.Blind) (tag : String) (value : Int) :
    (station.listen tag value).Blind := by
  intro ins hins hmemory
  rw [instruction?_listen] at hins
  exact (h ins hins hmemory).listen tag value

theorem blind_release (station : Station) : station.release.Blind :=
  fun _ hins => nomatch hins

end Station

namespace Machine

variable {m m' : Machine} {log : List Happening} {station : Station}
  {ins : Instruction}

/-- The machine works on a blind program.  Its stations are sound, and it holds
words. -/
structure Blind (m : Machine) : Prop where
  sound : m.Sound
  words : m.HoldsWords
  queue : ∀ next ∈ m.queue, next.instruction.Blind
  held : ∀ station ∈ m.bank, ∀ ins, station.instruction? = some ins → ins.Blind
  unbased : ∀ station ∈ m.bank, station.Blind

theorem Blind.begin (h : m.Blind) : m.begin.Blind where
  sound := h.sound.begin
  words := h.words.begin
  queue := h.queue
  held := by
    intro station hmem ins hins
    obtain ⟨before, hbefore, rfl⟩ := List.mem_map.mp hmem
    have hwork := before.sameWork_endPause
    exact h.held before hbefore ins (hwork.instruction?.symm.trans hins)
  unbased := by
    intro station hmem
    obtain ⟨before, hbefore, rfl⟩ := List.mem_map.mp hmem
    exact (h.unbased before hbefore).of_sameWork before.sameWork_endPause

/-- Settling an instruction other than a branch leaves what is to be issued. -/
theorem settle_eq_of_form_ne (m : Machine) (station : Station)
    (hform : ins.opcode.form ≠ .branch) :
    (m.settle station ins).1.queue = m.queue ∧
      (m.settle station ins).1.bank = m.bank ∧
      ∃ happening, (m.settle station ins).2 = [happening] := by
  cases h : ins.opcode.form with
  | branch => exact absurd h hform
  | store | load | immediate | register | bare =>
      simp [settle, h]

/-- A write-back frees stations and lets others listen. -/
theorem Blind.writesBack (h : m.Blind) (hphase : m.WritesBack m' log) :
    m'.Blind := by
  have hsound := h.sound.writesBack hphase
  have hwords := h.words.writesBack hphase h.sound.distinct
  have hheld : ∀ station ∈ m.released.bank,
      ∀ ins, station.instruction? = some ins → ins.Blind :=
    Bank.forall_mem_changeFirst (fun _ _ _ hins => nomatch hins) h.held
  have hunbased : ∀ station ∈ m.released.bank, station.Blind :=
    Bank.forall_mem_changeFirst (fun s _ => s.blind_release) h.unbased
  cases hphase with
  | idle => exact h
  | empty => exact h
  | @broken station ins hgranted hins =>
      have hblind := h.held station (mem_of_granted? hgranted).1 ins hins
      obtain ⟨hqueue, hbank, -⟩ := m.settle_eq_of_form_ne station hblind.form_ne
      exact ⟨hsound, hwords, hqueue ▸ h.queue, hbank ▸ h.held,
        hbank ▸ h.unbased⟩
  | stored => exact ⟨hsound, hwords, h.queue, hheld, hunbased⟩
  | @branched station ins hgranted hins hform =>
      have hblind := h.held station (mem_of_granted? hgranted).1 ins hins
      exact absurd hform hblind.form_ne
  | published =>
      refine ⟨hsound, hwords, h.queue, ?_, ?_⟩
      · intro other hmem ins hins
        obtain ⟨before, hbefore, rfl⟩ := List.mem_map.mp hmem
        rw [← Station.listen, Station.instruction?_listen] at hins
        exact hheld before hbefore ins hins
      · intro other hmem
        obtain ⟨before, hbefore, rfl⟩ := List.mem_map.mp hmem
        exact (hunbased before hbefore).listen _ _

/-- The base of a blind instruction is missing, or it is read as zero. -/
theorem unbased_occupied (m : Machine) (station : Station) {next : Stamped}
    (h : next.instruction.Blind) : (m.occupied station next).Blind := by
  intro ins hins hmemory
  cases hins
  have hj : (m.occupied station next).j =
      m.registers.operand next.instruction.src1 := rfl
  rw [Station.Unbased, hj]
  rcases h.base hmemory with hbase | hbase
  · exact .inl (by rw [hbase]; rfl)
  · exact .inr (by rw [hbase]; rfl)

theorem Blind.issues (h : m.Blind) (hphase : m.Issues m' log) : m'.Blind := by
  have hsound := h.sound.issues hphase
  have hwords := h.words.issues hphase h.sound.distinct
  cases hphase with
  | drained => exact h
  | stalled => exact h
  | @issued next rest station hqueue hfree =>
      have hnext : next.instruction.Blind :=
        h.queue next (hqueue ▸ List.mem_cons_self)
      refine ⟨hsound, hwords, ?_, ?_, ?_⟩
      · exact fun later hlater =>
          h.queue later (hqueue ▸ List.mem_cons_of_mem next hlater)
      · refine Bank.forall_mem_changeFirst (fun s _ ins hins => ?_) h.held
        cases hins
        exact hnext
      · exact Bank.forall_mem_changeFirst
          (fun s _ => m.unbased_occupied s hnext) h.unbased

theorem Blind.execute (h : m.Blind) : m.execute.1.Blind where
  sound := h.sound.execute
  words := h.words.execute
  queue := h.queue
  held := by
    intro station hmem ins hins
    obtain ⟨before, hbefore, hstep⟩ := Bank.exists_mem_of_forall₂
      (Bank.stepped_execute m.bank ⟨m.portOwner, false⟩ m.cache) hmem
    exact h.held before hbefore ins
      (hstep.sameWork.instruction?.symm.trans hins)
  unbased := by
    intro station hmem
    obtain ⟨before, hbefore, hstep⟩ := Bank.exists_mem_of_forall₂
      (Bank.stepped_execute m.bank ⟨m.portOwner, false⟩ m.cache) hmem
    exact (h.unbased before hbefore).of_sameWork hstep.sameWork

theorem Blind.advance (h : m.Blind) : m.advance.1.Blind :=
  advance_keeps (P := Blind) (fun _ h => h.begin)
    (fun _ _ _ hphase h => h.writesBack hphase)
    (fun _ _ _ hphase h => h.issues hphase) (fun _ h => h.execute) h

/-! ## What can be told of a write-back -/

theorem isWritable_zero : Numeral.isWritable 0 = true :=
  isWritable_of_wrap (by decide)

theorem writeback_of_granted (hgranted : m.bank.granted? = some station)
    (hins : station.instruction? = some ins) :
    m.writeback =
      if isTold (m.settle station ins).2 = true then
        (((m.settle station ins).1.complete station ins).1,
          (m.settle station ins).2 ++
            ((m.settle station ins).1.complete station ins).2)
      else m.settle station ins := by
  cases htold : isTold (m.settle station ins).2 <;>
    simp [writeback, hgranted, hins, htold]

/-- A write-back can be told if what its instruction does can be told. -/
theorem isTold_writeback_eq (hgranted : m.bank.granted? = some station)
    (hins : station.instruction? = some ins) :
    isTold m.writeback.2 = isTold (m.settle station ins).2 := by
  cases htold : isTold (m.settle station ins).2 with
  | false => simp [writeback_of_granted hgranted hins, htold]
  | true =>
      have hphase := m.writeback_writesBack
      generalize m.writeback.2 = log at hphase
      generalize m.writeback.1 = after at hphase
      cases hphase with
      | idle hnone =>
          rw [hgranted] at hnone
          contradiction
      | empty hgranted' hnone =>
          cases hgranted.symm.trans hgranted'
          rw [hins] at hnone
          contradiction
      | broken hgranted' hins' huntold =>
          cases hgranted.symm.trans hgranted'
          cases hins.symm.trans hins'
          rw [htold] at huntold
          contradiction
      | stored _ _ _ hstored => exact hstored
      | branched _ _ _ hbranched => exact hbranched
      | published _ _ _ hhappening hpublished =>
          exact isTold_publish hhappening hpublished

/-- Whether what an instruction does can be told does not depend on data, as its
value is a word. -/
theorem isTold_settle_outline (m : Machine) (hform : ins.opcode.form ≠ .branch)
    (hword : ins.opcode.form = .store →
      Word.wrap station.k.value = station.k.value) :
    isTold (m.settle station ins).2 =
      isTold (m.outline.settle station.outline ins).2 := by
  cases h : ins.opcode.form with
  | branch => exact absurd h hform
  | store =>
      have hvalue := isWritable_of_wrap (hword h)
      have houtline : Numeral.isWritable station.k.outline.value = true := by
        rw [Operand.value_outline]
        exact isWritable_zero
      simp [settle, h, isTold, Happening.isTellable, Happening.obstacle?,
        Happening.numbers, hvalue, houtline]
  | load =>
      have hvalue := isWritable_of_wrap
        (m.cache.memory.wrap_readWord station.address)
      have houtline := isWritable_of_wrap
        (m.outline.cache.memory.wrap_readWord station.address)
      simp [settle, h, isTold, Happening.isTellable, Happening.obstacle?,
        Happening.numbers, Cache.readWord, hvalue, houtline]
  | immediate | register | bare =>
      have hvalue := isWritable_of_wrap (ins.opcode.wrap_evaluate
        station.j.value station.k.value ins.constant)
      have houtline := isWritable_of_wrap (ins.opcode.wrap_evaluate
        station.outline.j.value station.outline.k.value ins.constant)
      simp only [settle, h, isTold, Happening.isTellable, Happening.obstacle?,
        Happening.numbers, Station.result, List.all_cons, List.all_nil, hvalue,
        houtline]

theorem Blind.takeWhile_of_untold (h : m.Blind)
    (huntold : isTold m.writeback.2 = false) :
    m.writeback.2.takeWhile Happening.isTellable = [] := by
  cases hgranted : m.bank.granted? with
  | none => simp [writeback, hgranted, isTold] at huntold
  | some station =>
      obtain ⟨ins, hins⟩ := h.sound.instruction?_granted hgranted
      have hblind := h.held station (mem_of_granted? hgranted).1 ins hins
      obtain ⟨-, -, happening, hlog⟩ :=
        m.settle_eq_of_form_ne station hblind.form_ne
      rw [isTold_writeback_eq hgranted hins] at huntold
      rw [writeback_of_granted hgranted hins, huntold, if_neg (by decide), hlog]
      rw [hlog] at huntold
      simpa [isTold] using huntold

/-- Write-back does to a machine what it does to its outline, and tells the same
up to values. -/
theorem Blind.outline_writeback (h : m.Blind) :
    m.writeback.1.outline = m.outline.writeback.1.outline ∧
      m.writeback.2.map Happening.outline =
        m.outline.writeback.2.map Happening.outline ∧
      isTold m.writeback.2 = isTold m.outline.writeback.2 := by
  have hbus : m.outline.bank.granted? = m.bank.granted?.map Station.outline :=
    m.bank.granted?_outline
  cases hgranted : m.bank.granted? with
  | none =>
      rw [hgranted, Option.map_none] at hbus
      have hidle : m.writeback = (m, []) := by simp [writeback, hgranted]
      have hidle' : m.outline.writeback = (m.outline, []) := by
        simp [writeback, hbus]
      rw [hidle, hidle']
      exact ⟨m.outline_outline.symm, rfl, rfl⟩
  | some station =>
      rw [hgranted, Option.map_some] at hbus
      obtain ⟨ins, hins⟩ := h.sound.instruction?_granted hgranted
      obtain ⟨hmem, hbusy, -⟩ := mem_of_granted? hgranted
      have hform := (h.held station hmem ins hins).form_ne
      have houtline : station.outline.instruction? = some ins := hins
      have hword : ins.opcode.form = .store →
          Word.wrap station.k.value = station.k.value := by
        intro hstore
        exact h.words.operands (station?_granted h.sound.distinct hgranted)
          hbusy hins (by rw [hstore]; exact nofun) .second
      have htold := m.isTold_settle_outline hform hword
      obtain ⟨hsettled, hlog⟩ := m.outline_settle station hform
      have hcompleted := outline_complete_congr hsettled station ins
      refine ⟨?_, ?_, ?_⟩
      · rw [writeback_of_granted hgranted hins,
          writeback_of_granted hbus houtline, ← htold]
        split
        · exact hcompleted.1
        · exact hsettled
      · rw [writeback_of_granted hgranted hins,
          writeback_of_granted hbus houtline, ← htold]
        split
        · rw [List.map_append, List.map_append, hlog, hcompleted.2]
        · exact hlog
      · rw [isTold_writeback_eq hgranted hins,
          isTold_writeback_eq hbus houtline, htold]

/-! ## Two machines with the same outline -/

theorem Blind.writeback_congr (h : m.Blind) (h' : m'.Blind)
    (hsame : m.outline = m'.outline) :
    m.writeback.1.outline = m'.writeback.1.outline ∧
      m.writeback.2.map Happening.outline =
        m'.writeback.2.map Happening.outline ∧
      isTold m.writeback.2 = isTold m'.writeback.2 := by
  obtain ⟨hmachine, hlog, htold⟩ := h.outline_writeback
  obtain ⟨hmachine', hlog', htold'⟩ := h'.outline_writeback
  rw [hmachine, hlog, htold, hmachine', hlog', htold', hsame]
  exact ⟨rfl, rfl, rfl⟩

/-- Two blind machines with the same outline have the same one behind a cycle,
and tell the same up to values. -/
theorem Blind.advance_congr (h : m.Blind) (h' : m'.Blind)
    (hsame : m.outline = m'.outline) :
    m.advance.1.outline = m'.advance.1.outline ∧
      (m.advance.2.takeWhile Happening.isTellable).map Happening.outline =
        (m'.advance.2.takeWhile Happening.isTellable).map
          Happening.outline := by
  have hbegun : m.begin.outline = m'.begin.outline := by
    rw [outline_begin, outline_begin, hsame]
  obtain ⟨hwritten, hwrittenLog, hboth⟩ :=
    h.begin.writeback_congr h'.begin hbegun
  cases hall : isTold m.begin.writeback.2 with
  | false =>
      rw [hall] at hboth
      rw [advance_of_untold hall, advance_of_untold hboth.symm,
        List.takeWhile_cons_of_pos rfl, List.takeWhile_cons_of_pos rfl,
        h.begin.takeWhile_of_untold hall,
        h'.begin.takeWhile_of_untold hboth.symm]
      exact ⟨hwritten, rfl⟩
  | true =>
      rw [hall] at hboth
      have hblind := (h.begin.writesBack (writeback_writesBack _)).issues
        (issue_issues _)
      have hblind' := (h'.begin.writesBack (writeback_writesBack _)).issues
        (issue_issues _)
      have hissue := m.begin.writeback.1.outline_issue
      have hissue' := m'.begin.writeback.1.outline_issue
      have hissued : m.begin.writeback.1.issue.1.outline =
          m'.begin.writeback.1.issue.1.outline := by
        rw [hissue.1, hissue'.1, hwritten]
      have hissuedLog : m.begin.writeback.1.issue.2 =
          m'.begin.writeback.1.issue.2 := by
        rw [hissue.2, hissue'.2, hwritten]
      have hexecute := execute_outline hblind.unbased
      rw [hissued, execute_outline hblind'.unbased, Prod.mk.injEq] at hexecute
      refine ⟨?_, ?_⟩
      · rw [advance_of_told hall, advance_of_told hboth.symm]
        exact hexecute.1.symm
      · rw [takeWhile_advance hall, takeWhile_advance hboth.symm, hissuedLog,
          hexecute.2]
        simp only [List.map_append, List.map_cons, hwrittenLog]

end Machine

/-! ## Two runs of a program -/

/-- What an event shows apart from data: its cycle, its kind and its station. -/
def Event.timing (event : Event) : Nat × EventKind × Option String :=
  (event.cycle, event.happening.kind, event.happening.station?)

namespace Simulation

/-- Two simulations of blind machines with the same outline, of which the same
has been told up to data. -/
structure SameTiming (sim sim' : Simulation) : Prop where
  blind : sim.machine.Blind
  blind' : sim'.machine.Blind
  outline : sim.machine.outline = sim'.machine.outline
  events : sim.buffer.toList.map Event.timing =
    sim'.buffer.toList.map Event.timing

variable {sim sim' : Simulation}

theorem timing_cycle (sim : Simulation) :
    sim.cycle.buffer.toList.map Event.timing =
      sim.buffer.toList.map Event.timing ++
        ((sim.machine.advance.2.takeWhile Happening.isTellable).map
          Happening.outline).map fun happening =>
            (sim.machine.advance.1.cycle, happening.kind,
              happening.station?) := by
  rw [cycle_eq]
  simp [Event.timing, Function.comp_def]

theorem SameTiming.cycle (h : SameTiming sim sim') :
    SameTiming sim.cycle sim'.cycle := by
  obtain ⟨houtline, htold⟩ := h.blind.advance_congr h.blind' h.outline
  refine ⟨?_, ?_, ?_, ?_⟩
  · rw [machine_cycle]
    exact h.blind.advance
  · rw [machine_cycle]
    exact h.blind'.advance
  · rw [machine_cycle, machine_cycle]
    exact houtline
  · have hcycle : sim.machine.advance.1.cycle = sim'.machine.advance.1.cycle :=
      congrArg (·.cycle) houtline
    rw [timing_cycle, timing_cycle, h.events, htold, hcycle]

theorem SameTiming.cycles (h : SameTiming sim sim') (count : Nat) :
    SameTiming (sim.after (.replicate count .cycle))
      (sim'.after (.replicate count .cycle)) := by
  induction count generalizing sim sim' with
  | zero => exact h
  | succ count ih => exact ih h.cycle

/-- A program is loaded into a prepared simulation, which is blind if the program
is. -/
theorem blind_loaded {config : Config} {preload : List (Int × Int)}
    {registers : List (String × Int)} {words : List (Int × Int)}
    {program : List Instruction} (h : ∀ ins ∈ program, ins.Blind) :
    ((prepared config preload registers words).act
      (.load program)).machine.Blind := by
  have hsound : ((prepared config preload registers words).machine.load
      program).Sound :=
    (Machine.sound_create config preload).of_bank_eq
      (bank_prepared config preload registers words)
  have hfree : ∀ station ∈ (prepared config preload registers
      words).machine.bank, station.held = none := by
    intro station hmem
    rw [bank_prepared] at hmem
    rw [Bank.eq_release_of_mem_ofSizes hmem]
    rfl
  have hnone : ∀ station ∈ (prepared config preload registers
      words).machine.bank, ∀ ins, station.instruction? ≠ some ins := by
    intro station hmem ins hins
    rw [Station.instruction?, hfree station hmem] at hins
    contradiction
  exact {
    sound := hsound
    words := {
      registers := by
        show (prepared config preload registers
          words).machine.registers.HoldsWords
        rw [registers_prepared]
        exact RegisterFile.holdsWords_writeAll RegisterFile.holdsWords_initial
          registers
      operands := fun hstation _ hins =>
        absurd hins (hnone _ (Bank.mem_of_station? hstation) _) }
    queue := by
      intro next hmem
      have hins : next.instruction ∈ program := by
        rw [← Machine.map_instruction_stamped
          (prepared config preload registers words).machine.stamps program]
        exact List.mem_map_of_mem hmem
      exact h next.instruction hins
    held := fun station hmem ins hins => absurd hins (hnone station hmem ins)
    unbased := fun station hmem ins hins =>
      absurd hins (hnone station hmem ins) }

theorem outline_writeAll (file : RegisterFile)
    (contents : List (String × Int)) :
    (file.writeAll contents).outline = file.outline := by
  induction contents generalizing file with
  | nil => rfl
  | cons entry rest ih =>
      exact (ih (file.write entry.1 entry.2)).trans
        (file.outline_write entry.1 entry.2)

theorem outline_storeWords (cache : Cache) (words : List (Int × Int)) :
    (words.foldl (fun cache (address, value) =>
      cache.storeWord address value) cache).outline = cache.outline := by
  induction words generalizing cache with
  | nil => rfl
  | cons entry rest ih => exact ih (cache.storeWord entry.1 entry.2)

/-- What a machine holds before its first cycle is no part of its outline. -/
theorem outline_loaded (config : Config) (preload : List (Int × Int))
    (registers : List (String × Int)) (words : List (Int × Int))
    (program : List Instruction) :
    ((prepared config preload registers words).act
        (.load program)).machine.outline =
      ((fresh config []).act (.load program)).machine.outline := by
  rw [prepared_eq]
  simp only [act, fresh, Machine.load, Machine.outline, outline_writeAll,
    outline_storeWords]
  rfl

/-- **Timing does not depend on data.**  A program that does not branch, and in
which the base of every address is missing or the register that is always zero,
is loaded into two machines of the same configuration, whatever their registers
and memories hold.  After any number of cycles the events of both have the same
cycles, kinds and stations, and all that is not data is the same: what is to be
issued, the tags of the registers, the owner of the port, the lines of the cache
with its hits and misses, and the stations but for the values of their ready
operands. -/
theorem timing_ignores_data (config : Config) {program : List Instruction}
    (hprogram : ∀ ins ∈ program, ins.Blind)
    (preload preload' : List (Int × Int))
    (registers registers' : List (String × Int))
    (words words' : List (Int × Int)) (cycles : Nat) :
    let sim := (prepared config preload registers words).running program cycles
    let sim' :=
      (prepared config preload' registers' words').running program cycles
    sim.buffer.toList.map Event.timing = sim'.buffer.toList.map Event.timing ∧
      sim.machine.queue = sim'.machine.queue ∧
      sim.machine.issuedCount = sim'.machine.issuedCount ∧
      sim.machine.registers.tags = sim'.machine.registers.tags ∧
      sim.machine.portOwner = sim'.machine.portOwner ∧
      sim.machine.cache.lines.toList = sim'.machine.cache.lines.toList ∧
      sim.machine.cache.hits = sim'.machine.cache.hits ∧
      sim.machine.cache.misses = sim'.machine.cache.misses ∧
      sim.machine.bank.map Station.outline =
        sim'.machine.bank.map Station.outline := by
  intro sim sim'
  have hloaded : SameTiming
      ((prepared config preload registers words).act (.load program))
      ((prepared config preload' registers' words').act (.load program)) := {
    blind := blind_loaded hprogram
    blind' := blind_loaded hprogram
    outline := by rw [outline_loaded, outline_loaded]
    events := by
      rw [prepared_eq, prepared_eq]
      rfl }
  have hsame : SameTiming sim sim' := hloaded.cycles cycles
  have houtline := hsame.outline
  exact ⟨hsame.events, congrArg (·.queue) houtline,
    congrArg (·.issuedCount) houtline, congrArg (·.registers.tags) houtline,
    congrArg (·.portOwner) houtline, congrArg (·.cache.lines.toList) houtline,
    congrArg (·.cache.hits) houtline, congrArg (·.cache.misses) houtline,
    congrArg (·.bank) houtline⟩

/-- A loaded word is divided by a register, and the quotient is stored: by zero in
one machine, and by another number in the other one. -/
theorem timing_ignores_divisor :
    let program : List Instruction :=
      [{ opcode := .lw, dest := "R1", src1 := "R0", immediate := some 8 },
        { opcode := .div, dest := "R2", src1 := "R1", src2 := "R3" },
        { opcode := .sw, src1 := "R0", src2 := "R2", immediate := some 12 }]
    let start := prepared .standard [(8, 7)] [] []
    let start' := prepared .standard [] [("R3", -2)] [(8, 2147483648)]
    start.machine.registers.read "R3" ≠ start'.machine.registers.read "R3" ∧
      start.machine.cache.readWord 8 ≠ start'.machine.cache.readWord 8 ∧
      ∀ cycles,
        (start.running program cycles).buffer.toList.map Event.timing =
          (start'.running program cycles).buffer.toList.map Event.timing := by
  intro program start start'
  have hblind : ∀ ins ∈ program, ins.Blind := by decide
  refine ⟨by decide, by decide, fun cycles => ?_⟩
  exact (timing_ignores_data .standard hblind [(8, 7)] [] [] [("R3", -2)] []
    [(8, 2147483648)] cycles).1

end Simulation

end OutOfOrder
