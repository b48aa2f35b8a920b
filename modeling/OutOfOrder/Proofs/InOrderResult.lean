import OutOfOrder.Proofs.Refinement

/-!
# Out-of-order execution computes the in-order result

A machine that has been given a program without branches stays on its way to the
in-order result, cycle by cycle, unless a cycle breaks off for good.  When it is
idle, everything was issued and is over, and what the in-order interpreter has
computed is in the registers and in memory.
-/

namespace OutOfOrder

open Architecture (DefinesOnce)

namespace Machine

variable {initial : Architecture} {program : List Instruction}
  {m m' : Machine} {ledger : Ledger}

/-! ## The start -/

theorem singleAccess_create {config : Config}
    (hsingle : config.value .numLoadBuffers = 1) (preload : List (Int × Int)) :
    (create config preload).SingleAccess :=
  hasOne_create hsingle preload

/-! ## One cycle -/

theorem SingleAccess.of_map_place_eq (h : m.SingleAccess)
    (hplaces : m'.bank.map place = m.bank.map place) : m'.SingleAccess :=
  HasOne.of_map_place_eq h hplaces

/-- A cycle leaves the machine on its way, or it is stuck from then on. -/
theorem Refines.advance (h : m.Refines initial program ledger)
    (hstraight : ∀ ins ∈ program, ins.opcode.isBranch = false)
    (honce : DefinesOnce program)
    (haccess : m.SingleAccess ∨ initial.StoresApart program) :
    m.advance.1.Stuck ∨
      m.advance.1.Refines initial program (ledger.afterCycle m) := by
  let P : Machine → Ledger → Prop := fun m ledger =>
    m.Refines initial program ledger ∧
      (m.SingleAccess ∨ initial.StoresApart program)
  let R : Machine → Ledger → Prop := fun m ledger =>
    m.Stuck ∨ m.Refines initial program ledger
  have hbegin : ∀ m ledger, P m ledger → P m.begin ledger :=
    fun m _ h => ⟨h.1.begin,
      h.2.imp_left fun hsingle => hsingle.of_map_place_eq (map_place_begin m)⟩
  have huntold : ∀ m ledger m' log, m.WritesBack m' log → isTold log = false →
      P m ledger →
      R m' (ledger.noteAll (log.takeWhile Happening.isTellable)) :=
    fun m _ m' _ hphase huntold h => .inl <|
      h.1.agrees.stuck_of_untold hphase huntold fun hgranted hins =>
        h.1.stream.form_ne_branch h.1.agrees hstraight hgranted hins
  have htold : ∀ m ledger m' log, m.WritesBack m' log → isTold log = true →
      P m ledger →
      P m' (ledger.noteAll (log.takeWhile Happening.isTellable)) :=
    fun m _ m' _ hphase htold h => ⟨h.1.writesBack hstraight honce hphase htold,
      h.2.imp_left fun hsingle =>
        hsingle.of_map_place_eq (map_place_writesBack hphase)⟩
  have hissue : ∀ m ledger m' log, m.Issues m' log → P m ledger →
      P m' (ledger.noteAll log) :=
    fun m _ m' _ hphase h => ⟨h.1.issues h.2 hphase,
      h.2.imp_left fun hsingle =>
        hsingle.of_map_place_eq (map_place_issues hphase)⟩
  exact advance_cases (P := P) (Q := P) (R := R) hbegin huntold htold hissue
    (fun _ _ h => .inr h.1.execute) ⟨h, haccess⟩

/-! ## The end -/

/-- An idle machine that was on its way has the result of the in-order
execution. -/
theorem Refines.architecture_eq (h : m.Refines initial program ledger)
    (hidle : m.isIdle = true) :
    m.architecture = initial.run program := by
  simp only [isIdle, Bool.and_eq_true, List.isEmpty_iff] at hidle
  obtain ⟨hqueue, hfree⟩ := hidle
  have hlength : ledger.issues.length = program.length := by
    rw [← h.stream, hqueue]
    simp
  have huntagged : ∀ register, m.registers.tags.get? register = none := by
    intro register
    rw [Directory.get?, h.agrees.tags_entries_eq_nil hfree]
    rfl
  have hregisters : m.registers.read = (initial.run program).registers := by
    funext register
    rw [h.registers (huntagged register), hlength, Architecture.before_length]
  have hmemory : m.cache.readByte = (initial.run program).memory := by
    funext address
    obtain ⟨isOver, hover, hbytes⟩ := h.commits
    rw [hbytes, ← Architecture.before_length, ← hlength]
    apply Architecture.committed_eq (Nat.le_refl _)
    · intro number hlt
      exact .inl ((hover number).mpr
        ⟨hlt, fun name => by simp [h.agrees.seat?_eq_none_of_isFree hfree]⟩)
    · intro number hle hlt
      omega
  rw [architecture, hregisters, hmemory]

end Machine

/-! ## Whole runs -/

namespace Simulation

theorem follows_start (config : Config) (preload : List (Int × Int))
    (registers : List (String × Int)) (words : List (Int × Int))
    (program : List Instruction) :
    let start := prepared config preload registers words
    (start.machine.load program).Follows start.machine.architecture program
      start.ledger := by
  intro start
  have hagrees : (start.machine.load program).Agrees start.ledger :=
    (agrees_fresh config preload _).of_bank_eq rfl rfl
  have hledger : start.ledger = {} := ledger_prepared _ _ _ _
  rw [hledger] at hagrees ⊢
  refine ⟨hagrees, ?_, fun _ => rfl, ?_, ⟨fun _ => false, ?_, fun _ => rfl⟩⟩
  · exact Machine.map_instruction_stamped _ program
  · intro name station number ins _ hseat
    contradiction
  · simp

/-- A machine that has been prepared and given a program starts on its way. -/
theorem refines_start (config : Config) (preload : List (Int × Int))
    (registers : List (String × Int)) (words : List (Int × Int))
    (program : List Instruction) :
    let start := prepared config preload registers words
    (start.machine.load program).Refines start.machine.architecture program
      start.ledger := by
  intro start
  refine ⟨follows_start config preload registers words program, ?_⟩
  intro name number other hseat
  rw [show start.ledger = {} from ledger_prepared _ _ _ _] at hseat
  contradiction

/-- Out-of-order execution computes the in-order result.  Whatever the machine's
parameters, its registers and its memory are, take a program without branches
that defines no register but the zero register twice; and let there be one
load/store station only, or let no store of the in-order execution touch a byte
that another access touches.  If the machine is idle after some number of
cycles, then every register and every byte of memory is as the in-order
interpreter leaves it, and no register has a tag. -/
theorem idle_eq_in_order (config : Config) (preload : List (Int × Int))
    (registers : List (String × Int)) (words : List (Int × Int))
    (program : List Instruction) (cycles : Nat)
    (hstraight : ∀ ins ∈ program, ins.opcode.isBranch = false)
    (honce : DefinesOnce program)
    (haccess : config.value .numLoadBuffers = 1 ∨
      (prepared config preload registers words).machine.architecture.StoresApart
        program)
    (hidle : ((prepared config preload registers words).running program
      cycles).machine.isIdle = true) :
    let start := prepared config preload registers words
    let sim := start.running program cycles
    sim.machine.architecture = start.machine.architecture.run program ∧
      sim.machine.registers.tags.entries = [] := by
  intro start sim
  let initial := start.machine.architecture
  let P : Machine → Ledger → Prop := fun m ledger =>
    (m.SingleAccess ∨ initial.StoresApart program) ∧
      (m.Stuck ∨ m.Refines initial program ledger)
  have hstart : P (start.machine.load program) start.ledger := by
    refine ⟨haccess.imp_left fun hsingle => ?_,
      .inr (refines_start config preload registers words program)⟩
    have hbank : start.machine.bank = (Machine.create config preload).bank := by
      rw [show start = _ from prepared_eq config preload registers words]
    exact (Machine.singleAccess_create hsingle preload).of_map_place_eq
      (congrArg (List.map Machine.place) hbank)
  have hcycle : ∀ m ledger, P m ledger →
      P m.advance.1 (ledger.afterCycle m) := by
    rintro m ledger ⟨haccess, hstate⟩
    refine ⟨haccess.imp_left fun hsingle =>
      hsingle.of_map_place_eq m.map_place_advance, ?_⟩
    rcases hstate with hstuck | hrefines
    · exact .inl hstuck.advance
    · exact hrefines.advance hstraight honce haccess
  rcases (running_induction (P := P) hcycle hstart cycles).2 with
    hstuck | hrefines
  · rw [hstuck.isIdle_eq_false] at hidle
    contradiction
  · refine ⟨hrefines.architecture_eq hidle, ?_⟩
    simp only [Machine.isIdle, Bool.and_eq_true] at hidle
    exact hrefines.agrees.tags_entries_eq_nil hidle.2

/-- A sum and a store wait for a product, and a difference is over before all of
them. -/
theorem idle_eq_in_order_overtaking :
    let start := prepared .standard [] [("F1", 5), ("R1", 8)] [(8, 42)]
    let program : List Instruction :=
      [{ opcode := .mul, dest := "F2", src1 := "F1", src2 := "F1" },
        { opcode := .add, dest := "F3", src1 := "F2", src2 := "F1" },
        { opcode := .sw, src1 := "R0", src2 := "F3", immediate := some 0 },
        { opcode := .lw, dest := "F4", src1 := "R1", immediate := some 0 },
        { opcode := .sub, dest := "F5", src1 := "F1", src2 := "F1" }]
    let sim := start.running program 68
    sim.machine.architecture = start.machine.architecture.run program ∧
      sim.machine.registers.tags.entries = [] :=
  idle_eq_in_order .standard [] [("F1", 5), ("R1", 8)] [(8, 42)] _ 68
    (by decide) (by decide +kernel) (.inr (by decide +kernel))
    (by decide +kernel)

end Simulation

end OutOfOrder
