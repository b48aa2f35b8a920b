import OutOfOrder.Proofs.Effort
import OutOfOrder.Proofs.Retirement
import OutOfOrder.Proofs.Telling

/-!
# Programs drain

If no branch of a program goes back, and every pool that the program uses has a
station, then every completed cycle makes the effort that is left less, unless
the machine is idle.  So a run comes to its end, and leaves the machine as it was
made, but for its registers and its memory.  A cycle that is broken off is the
only thing that can prevent this.
-/

namespace OutOfOrder

namespace Machine

variable {m m' : Machine} {log past : List Happening} {config : Config}
  {program : List Instruction}

/-! ## Machines under way -/

/-- A machine that is on its way through a program, with what has happened since
the program was loaded. -/
structure Underway (config : Config) (program : List Instruction) (m : Machine)
    (past : List Happening) : Prop where
  accounts : m.Accounts (({} : Chronicle).noteAll past)
  writebacks : writebackCount past =
    (({} : Chronicle).noteAll past).retired.length
  works : m.WorksOn program
  port : m.PortHeld
  words : m.HoldsWords
  config_eq : m.config = config
  geometry : m.cache.geometry = .ofConfig config
  places : m.bank.map place = (create config []).bank.map place

theorem Underway.sound (h : Underway config program m past) : m.Sound :=
  h.accounts.agrees.sound

theorem Underway.begin (h : Underway config program m past) :
    Underway config program m.begin (past ++ [.cycleStarted]) := by
  have hnoted : ({} : Chronicle).noteAll (past ++ [.cycleStarted]) =
      ({} : Chronicle).noteAll past := by
    rw [Chronicle.noteAll_append]
    exact Chronicle.note_cycleStarted _
  refine ⟨?_, ?_, h.works.begin, h.port.begin, h.words.begin, h.config_eq,
    h.geometry, (map_place_begin m).trans h.places⟩
  · rw [hnoted]
    exact h.accounts.begin
  · rw [hnoted, writebackCount_append, h.writebacks]
    rfl

theorem Underway.writesBack (h : Underway config program m past)
    (hphase : m.WritesBack m' log) (htold : isTold log = true) :
    Underway config program m' (past ++ log) := by
  have hframe := hphase.sameFrame
  have hdistinct := h.sound.distinct
  refine ⟨?_, ?_, h.works.writesBack hphase htold hdistinct,
    h.port.writesBack hphase,
    h.words.writesBack hphase hdistinct, hframe.config.trans h.config_eq,
    hframe.geometry.trans h.geometry,
    (map_place_writesBack hphase).trans h.places⟩
  · rw [Chronicle.noteAll_append]
    exact h.accounts.writesBack hphase htold
  · rw [writebackCount_append, Chronicle.noteAll_append, h.writebacks]
    rcases hphase.retires htold (({} : Chronicle).noteAll past) with
      ⟨-, rfl⟩ | ⟨station, hgranted, hretired, -, -⟩
    · rfl
    · obtain ⟨number, hseat⟩ := h.accounts.agrees.seated_granted hgranted
      rw [hphase.writebackCount_eq htold, hgranted, hretired, hseat]
      simp

theorem Underway.issues (h : Underway config program m past)
    (hphase : m.Issues m' log) :
    Underway config program m' (past ++ log) := by
  have hframe := hphase.sameFrame
  have hdistinct := h.sound.distinct
  refine ⟨?_, ?_, h.works.issues hphase hdistinct,
    h.port.issues hphase, h.words.issues hphase hdistinct,
    hframe.config.trans h.config_eq, hframe.geometry.trans h.geometry,
    (map_place_issues hphase).trans h.places⟩
  · rw [Chronicle.noteAll_append]
    exact h.accounts.issues hphase
  · rw [writebackCount_append, Chronicle.noteAll_append,
      hphase.retired_noteAll, hphase.writebackCount_eq, h.writebacks]
    rfl

theorem Underway.execute (h : Underway config program m past) :
    Underway config program m.execute.1 (past ++ m.execute.2) := by
  have hnoted : ({} : Chronicle).noteAll (past ++ m.execute.2) =
      ({} : Chronicle).noteAll past := by
    rw [Chronicle.noteAll_append]
    exact foldl_of_isExecution
      (fun chronicle _ hkind => Chronicle.note_of_isExecution hkind chronicle)
      (fun _ hmem => isExecution_of_mem_execute hmem) _
  refine ⟨?_, ?_, h.works.execute, h.port.execute, h.words.execute,
    h.config_eq, (sameFrame_execute m).geometry.trans h.geometry,
    (map_place_execute m).trans h.places⟩
  · rw [hnoted]
    exact h.accounts.execute
  · rw [hnoted, writebackCount_append, writebackCount_execute, h.writebacks]
    rfl

theorem Underway.completes (h : Underway config program m past)
    (hcycle : m.Completes m' log) :
    Underway config program m' (past ++ log) := by
  obtain ⟨hwrites, htold, hissues, -⟩ := hcycle
  have hafter := ((h.begin.writesBack hwrites htold).issues hissues).execute
  simpa using hafter

/-! ## A completed cycle gets on -/

theorem isFree_begin (m : Machine) : m.begin.bank.isFree = m.bank.isFree := by
  have hbusy : ∀ station : Station, station.endPause.busy = station.busy :=
    fun station => (Station.sameWork_endPause station).busy
  simp [begin, Bank.isFree, List.all_map, Function.comp_def, hbusy]

theorem rests_begin (hgranted : m.begin.bank.granted? = none)
    {station : Station} (hmem : station ∈ m.begin.bank)
    (hbusy : station.busy = true) : station.rests = false := by
  have hpending : station.resultPending = false := by
    have hnone := List.find?_eq_none.mp hgranted station hmem
    simpa [Station.asksForBus, hbusy] using hnone
  have hpause : station.justTransitioned = false := by
    obtain ⟨before, -, rfl⟩ := List.mem_map.mp hmem
    have hbefore : before.busy = true :=
      (Station.sameWork_endPause before).busy.symm.trans hbusy
    rw [Station.endPause, if_pos hbefore]
  simp [Station.rests, hbusy, hpause, hpending]

theorem exists_pool_create {pool : Pool} (hsize : 0 < config.value pool.size)
    (preload : List (Int × Int)) :
    ∃ entry ∈ (create config preload).bank.map place, entry.2 = pool := by
  refine ⟨(pool.label ++ toString 0, pool), ?_, rfl⟩
  refine List.mem_map.mpr ⟨{ name := pool.label ++ toString 0, pool }, ?_, rfl⟩
  simp only [create, Bank.ofSizes, List.mem_flatMap, List.mem_map,
    List.mem_range]
  refine ⟨(pool, config.value pool.size), ⟨pool, ?_, rfl⟩, 0, hsize, rfl⟩
  cases pool <;> decide

/-- A machine that cannot issue, though there is a station for every instruction,
has a station at work. -/
theorem Underway.isFree_eq_false (h : Underway config program m past)
    (hpools : ∀ ins ∈ program, 0 < config.value ins.opcode.pool.size)
    (hbusy : m.isIdle = false)
    (hwaits : m.queue = [] ∨ ∃ next ∈ m.queue,
      m.bank.free? next.instruction.opcode.pool = none) :
    m.bank.isFree = false := by
  rcases hwaits with hqueue | ⟨next, hmem, hfree⟩
  · simpa [isIdle, hqueue] using hbusy
  · obtain ⟨entry, hentry, hpool⟩ := exists_pool_create
      (hpools next.instruction (h.works.mem_of_mem_queue hmem)) []
    rw [← h.places] at hentry
    obtain ⟨station, hstation, rfl⟩ := List.mem_map.mp hentry
    have hpool' : station.pool = next.instruction.opcode.pool := hpool
    have hnot := List.find?_eq_none.mp hfree station hstation
    have hworks : station.busy = true := by
      simpa [Station.isFreeIn, hpool'] using hnot
    exact Bank.isFree_eq_false_iff.mpr ⟨station, hstation, hworks⟩

theorem Underway.effort_lt (h : Underway config program m past)
    (hpools : ∀ ins ∈ program, 0 < config.value ins.opcode.pool.size)
    (hforward : ∀ ins ∈ program, ins.opcode.isBranch = true →
      0 ≤ ins.constant)
    (hbusy : m.isIdle = false) (hcycle : m.Completes m' log) :
    m'.effort < m.effort := by
  obtain ⟨hwrites, htold, hissues, hexecuted⟩ := hcycle
  rename_i m₁ m₂ written issued
  have hbegun := h.begin
  have hissued := (hbegun.writesBack hwrites htold).issues hissues
  have hsuffix := hbegun.works.queue_suffix hforward hwrites htold
    hbegun.sound.distinct
  have hexecution := effort_execute_lt_or hissued.sound hexecuted
  have hle : m₂.execute.1.effort ≤ m₂.effort := by
    rcases hexecution with hless | ⟨hsame, -⟩
    · exact Nat.le_of_lt hless
    · exact Nat.le_of_eq hsame
  rw [← effort_begin m]
  rcases hwrites.effort_lt_or htold hsuffix with hless | ⟨rfl, hgranted⟩
  · rcases hissues.effort_lt_or with hless' | ⟨rfl, -⟩
    · omega
    · omega
  · rcases hissues.effort_lt_or with hless | ⟨rfl, hwaits⟩
    · omega
    · -- no write-back and no issue, so it is execution that gets on
      rcases hexecution with hless | ⟨-, hall⟩
      · exact hless
      · have hbusy' : m.begin.isIdle = false := by
          rw [isIdle, isFree_begin]
          exact hbusy
        have hworks := hbegun.isFree_eq_false hpools hbusy' hwaits
        exact absurd hall (hbegun.accounts.agrees.not_all_wait hbegun.port
          hworks fun station hmem hworks => rests_begin hgranted hmem hworks)

/-! ## The machine at the end -/

theorem Sound.eq_map_release (h : m.Sound) (hfree : m.bank.isFree = true) :
    m.bank = m.bank.map Station.release := by
  have hall : ∀ station ∈ m.bank, station = station.release := by
    intro station hmem
    have hstation := h.station (h.distinct.station?_name hmem)
    exact hstation.free (Bank.isFree_iff.mp hfree station hmem)
  calc m.bank = m.bank.map id := (List.map_id _).symm
    _ = m.bank.map Station.release := List.map_congr_left hall

theorem map_release_eq {bank other : Bank}
    (h : other.map place = bank.map place) :
    other.map Station.release = bank.map Station.release := by
  have hmade : ∀ stations : Bank, stations.map Station.release =
      (stations.map place).map fun entry =>
        { name := entry.1, pool := entry.2 } := by
    intro stations
    rw [List.map_map]
    rfl
  rw [hmade, hmade, h]

/-- A machine that has drained is as it was made, but for its registers, its
cache and its memory. -/
theorem Underway.bank_eq (h : Underway config program m past)
    (hfree : m.bank.isFree = true) (preload : List (Int × Int)) :
    m.bank = (create config preload).bank := by
  have hcreated := (sound_create config preload).eq_map_release
    (isFree_create config preload)
  rw [h.sound.eq_map_release hfree, hcreated]
  exact map_release_eq h.places

end Machine

/-! ## Runs -/

namespace Simulation

variable {sim : Simulation} {config : Config} {program : List Instruction}

theorem run_succ_of_error {breakdown : Breakdown}
    (hbusy : sim.machine.isIdle = false)
    (hadvance : sim.advance = .error breakdown) (limit : Nat) :
    sim.run (limit + 1) = .error breakdown := by
  rw [run, if_neg (by simp [hbusy]), hadvance]
  rfl

theorem run_succ_of_ok {next : Simulation} (hbusy : sim.machine.isIdle = false)
    (hadvance : sim.advance = .ok next) (limit : Nat) :
    sim.run (limit + 1) =
      (next.run limit).map fun (cycles, last) => (cycles + 1, last) := by
  rw [run, if_neg (by simp [hbusy]), hadvance]
  rfl

/-- A machine whose next cycle is broken off is never idle. -/
theorem isIdle_eq_false_of_fails (hbusy : sim.machine.isIdle = false)
    (hfails : ∀ next, sim.advance ≠ .ok next) {limit cycles : Nat}
    {last : Simulation} (hrun : sim.run limit = .ok (cycles, last)) :
    last.machine.isIdle = false := by
  cases limit with
  | zero =>
      cases hrun
      exact hbusy
  | succ limit =>
      cases hadvance : sim.advance with
      | ok next => exact absurd hadvance (hfails next)
      | error breakdown =>
          rw [run_succ_of_error hbusy hadvance] at hrun
          nomatch hrun

theorem isIdle_eq_false_of_next {next : Simulation}
    (hbusy : sim.machine.isIdle = false) (hadvance : sim.advance = .ok next)
    (hnever : ∀ {limit cycles last},
      next.run limit = .ok (cycles, last) → last.machine.isIdle = false)
    {limit cycles : Nat} {last : Simulation}
    (hrun : sim.run limit = .ok (cycles, last)) :
    last.machine.isIdle = false := by
  cases limit with
  | zero =>
      cases hrun
      exact hbusy
  | succ limit =>
      rw [run_succ_of_ok hbusy hadvance] at hrun
      cases hnext : next.run limit with
      | ok entry =>
          rw [hnext] at hrun
          cases hrun
          exact hnever hnext
      | error breakdown =>
          rw [hnext] at hrun
          nomatch hrun

/-- A run with a limit above the effort comes to its end: the machine is idle, or
an integer that cannot be written has broken a cycle off. -/
theorem run_drains (h : Machine.Underway config program sim.machine
      sim.happenings)
    (hpools : ∀ ins ∈ program, 0 < config.value ins.opcode.pool.size)
    (hforward : ∀ ins ∈ program, ins.opcode.isBranch = true →
      0 ≤ ins.constant) {limit : Nat} (hlimit : sim.machine.effort < limit) :
    (∃ cycles last, sim.run limit = .ok (cycles, last) ∧
        last.machine.isIdle = true ∧
        Machine.Underway config program last.machine last.happenings) ∨
      ¬Machine.Fits config program ∧ ∃ breakdown,
        sim.run limit = .error breakdown ∧
          breakdown.obstacle = .unwritable := by
  -- the limit stays above the effort, which every completed cycle makes less
  induction limit generalizing sim with
  | zero => nomatch hlimit
  | succ limit ih =>
      cases hbusy : sim.machine.isIdle with
      | true =>
          left
          refine ⟨0, sim, ?_, hbusy, h⟩
          rw [run, if_pos hbusy]
      | false =>
          cases hadvance : sim.advance with
          | error breakdown =>
              right
              obtain ⟨hobstacle, -⟩ := advance_eq_error_iff.mp hadvance
              refine ⟨fun hfits => ?_, breakdown,
                run_succ_of_error hbusy hadvance limit,
                h.sound.eq_unwritable hobstacle⟩
              have htold := hfits.isTold_advance h.sound h.works h.words
                (congrArg Geometry.missPenalty h.geometry)
              rw [isTold_iff_findSome?.mp htold] at hobstacle
              nomatch hobstacle
          | ok next =>
              obtain ⟨log, hcompletes, hpast⟩ := completes_of_advance hadvance
              have hless := h.effort_lt hpools hforward hbusy hcompletes
              have hnext := h.completes hcompletes
              rw [← hpast] at hnext
              rw [run_succ_of_ok hbusy hadvance]
              rcases ih hnext (by omega) with
                ⟨cycles, last, hrun, hidle, hlast⟩ |
                  ⟨hfits, breakdown, hrun, hobstacle⟩
              · left
                exact ⟨cycles + 1, last, by rw [hrun]; rfl, hidle, hlast⟩
              · right
                exact ⟨hfits, breakdown, by rw [hrun]; rfl, hobstacle⟩

theorem geometry_storeWords (cache : Cache) (words : List (Int × Int)) :
    (words.foldl (fun cache (address, value) =>
      cache.storeWord address value) cache).geometry = cache.geometry := by
  induction words generalizing cache with
  | nil => rfl
  | cons entry rest ih => exact ih (cache.storeWord entry.1 entry.2)

theorem underway_loaded (config : Config) (preload : List (Int × Int))
    (registers : List (String × Int)) (words : List (Int × Int))
    (program : List Instruction) :
    Machine.Underway config program
      ((prepared config preload registers words).machine.load program) [] := by
  let start := prepared config preload registers words
  have haccounts : (start.machine.load program).Accounts {} :=
    (agrees_loaded config preload registers words program).accounts
  have hbank : start.machine.bank = (Machine.create config preload).bank :=
    bank_prepared config preload registers words
  have hfree : start.machine.bank.isFree = true := by
    rw [hbank]
    exact Machine.isFree_create config preload
  have hwords : start.machine.registers.HoldsWords := by
    rw [registers_prepared]
    exact RegisterFile.holdsWords_writeAll RegisterFile.holdsWords_initial
      registers
  have hmade := prepared_eq config preload registers words
  refine ⟨haccounts, rfl, ⟨?_, rfl, ?_, ?_⟩, ?_,
    ⟨hwords, ?_⟩, ?_, ?_, ?_⟩
  · exact Machine.map_instruction_stamped _ program
  · exact Nat.zero_le _
  · intro name station ins hstation hbusy
    rw [Bank.busy_eq_false_of_isFree hfree hstation] at hbusy
    nomatch hbusy
  · exact (Machine.portHeld_create config preload).of_bank_eq hbank
      (by rw [hmade]; rfl)
  · intro name station ins hstation hbusy
    rw [Bank.busy_eq_false_of_isFree hfree hstation] at hbusy
    nomatch hbusy
  · rw [hmade]
    rfl
  · rw [hmade]
    exact geometry_storeWords _ words
  · exact congrArg (List.map Machine.place) hbank

/-- Programs whose branches go forward drain.  Whatever the machine's parameters,
its registers and its memory are, if every pool that the program uses has a
station, then every run with a great enough limit ends with an idle machine
whose stations are as they were made.  No register is tagged, the port is free,
and everything that was issued was written back once.  Only an integer that
cannot be written prevents this, and none does if the program fits. -/
theorem forward_program_drains (config : Config) (preload : List (Int × Int))
    (registers : List (String × Int)) (words : List (Int × Int))
    (program : List Instruction)
    (hpools : ∀ ins ∈ program, 0 < config.value ins.opcode.pool.size)
    (hforward : ∀ ins ∈ program, ins.opcode.isBranch = true →
      0 ≤ ins.constant) :
    let loaded := (prepared config preload registers words).act (.load program)
    ∃ bound, ∀ limit, bound ≤ limit →
      (∃ cycles last, loaded.run limit = .ok (cycles, last) ∧
        last.machine.isIdle = true ∧
        last.machine.bank = (Machine.create config preload).bank ∧
        last.machine.registers.tags.entries = [] ∧
        last.machine.portOwner = none ∧
        last.retired.Perm (List.range last.ledger.issues.length) ∧
        last.writebacks = last.ledger.issues.length) ∨
      ¬Machine.Fits config program ∧ ∃ breakdown,
        loaded.run limit = .error breakdown ∧
          breakdown.obstacle = .unwritable := by
  intro loaded
  have hpast : loaded.happenings = [] :=
    happenings_prepared config preload registers words
  have hloaded : Machine.Underway config program loaded.machine
      loaded.happenings := by
    rw [hpast]
    exact underway_loaded config preload registers words program
  refine ⟨loaded.machine.effort + 1, fun limit hlimit => ?_⟩
  rcases run_drains hloaded hpools hforward hlimit with
    ⟨cycles, last, hrun, hidle, hlast⟩ | hbroken
  · left
    have hfree : last.machine.bank.isFree = true := by
      simp only [Machine.isIdle, Bool.and_eq_true] at hidle
      exact hidle.2
    have hretired := hlast.accounts.retired_perm hfree
    refine ⟨cycles, last, hrun, hidle, hlast.bank_eq hfree preload,
      hlast.accounts.agrees.tags_entries_eq_nil hfree,
      hlast.port.portOwner_eq_none hfree, ?_⟩
    rw [← ledger_chronicle]
    refine ⟨hretired, ?_⟩
    calc last.writebacks = last.retired.length := hlast.writebacks
      _ = (List.range last.chronicle.ledger.issues.length).length :=
        hretired.length_eq
      _ = last.chronicle.ledger.issues.length := List.length_range
  · exact .inr hbroken

/-- A store waits for a product that is issued before a branch past a sum. -/
theorem forward_program_drains_jump :
    let program : List Instruction :=
      [{ opcode := .mul, dest := "F2", src1 := "F1", src2 := "F1" },
        { opcode := .beq, src1 := "R0", src2 := "R0", immediate := some 1 },
        { opcode := .add, dest := "F2", src1 := "F1", src2 := "F1" },
        { opcode := .sw, src1 := "R0", src2 := "F2", immediate := some 0 }]
    let loaded := (prepared .standard [] [("F1", 5)] []).act (.load program)
    ∃ bound, ∀ limit, bound ≤ limit → ∃ cycles last,
      loaded.run limit = .ok (cycles, last) ∧
        last.machine.isIdle = true ∧
        last.writebacks = last.ledger.issues.length := by
  intro program loaded
  have hfits : Machine.Fits .standard program := by
    have hsmall : ∀ ins ∈ program, 2147483648 + ins.constant.natAbs +
        program.length + Config.standard.value .cacheMissPenalty < 10 ^ 10 := by
      decide
    intro ins hmem _
    exact Nat.lt_of_lt_of_le (hsmall ins hmem) Machine.pow_le_writingBound
  obtain ⟨bound, hbound⟩ := forward_program_drains .standard [] [("F1", 5)] []
    program (by decide) (by decide)
  refine ⟨bound, fun limit hlimit => ?_⟩
  rcases hbound limit hlimit with
    ⟨cycles, last, hrun, hidle, -, -, -, -, hcount⟩ | ⟨hnot, -⟩
  · exact ⟨cycles, last, hrun, hidle, hcount⟩
  · exact absurd hfits hnot

/-- A load whose address has too many digits to be written is broken off by its
first step, and no run ends with an idle machine. -/
theorem long_address_breaks_off :
    let program : List Instruction :=
      [{ opcode := .lw, dest := "R1", src1 := "R0",
         immediate := some ((16 ^ 3600 - 1 : Nat) : Int) }]
    let loaded := (prepared .standard [] [] []).act (.load program)
    (∀ ins ∈ program, 0 < Config.standard.value ins.opcode.pool.size) ∧
      (∀ ins ∈ program, ins.opcode.isBranch = true → 0 ≤ ins.constant) ∧
      ¬∃ limit cycles last, loaded.run limit = .ok (cycles, last) ∧
        last.machine.isIdle = true := by
  intro program loaded
  refine ⟨by decide, by decide, ?_⟩
  have hfirst : loaded.machine.isIdle = false ∧
      isTold loaded.machine.advance.2 = true := by decide +kernel
  have hsecond : loaded.cycle.machine.isIdle = false ∧
      isTold loaded.cycle.machine.advance.2 = false := by decide +kernel
  have hadvance : loaded.advance = .ok loaded.cycle :=
    advance_eq_ok_iff.mpr ⟨hfirst.2, rfl⟩
  have hfails : ∀ next, loaded.cycle.advance ≠ .ok next := by
    intro next hnext
    exact Bool.false_ne_true
      (hsecond.2.symm.trans (advance_eq_ok_iff.mp hnext).1)
  rintro ⟨limit, cycles, last, hrun, hidle⟩
  have hbusy := isIdle_eq_false_of_next hfirst.1
    (advance_eq_ok_iff.mpr ⟨hfirst.2, rfl⟩)
    (isIdle_eq_false_of_fails hsecond.1 hfails) hrun
  exact Bool.false_ne_true (hbusy.symm.trans hidle)

end Simulation

end OutOfOrder
