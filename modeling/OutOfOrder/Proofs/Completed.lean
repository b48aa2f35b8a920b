import OutOfOrder.Proofs.Run

/-!
# Completed cycles

A cycle is completed if all that happens in it can be told.  Then it runs through
all its phases, and its events are those of the phases one after another.

A run of completed cycles stands at the boundary of a cycle.  What its events say
grows cycle by cycle, so a property of machines and of what has happened so far
holds along such a run if every completed cycle keeps it.
-/

namespace OutOfOrder

/-! ## What a cycle tells -/

/-- All of a log can be told exactly if nothing in it is an obstacle. -/
theorem isTold_iff_findSome? {log : List Happening} :
    isTold log = true ↔ log.findSome? Happening.obstacle? = none := by
  rw [isTold, List.all_eq_true, List.findSome?_eq_none_iff]
  simp [Happening.isTellable]

theorem isTold_append {log rest : List Happening} :
    isTold (log ++ rest) = (isTold log && isTold rest) :=
  List.all_append

namespace Machine

/-- A cycle that can be told, phase by phase, with what happens in it. -/
inductive Completes (m : Machine) : Machine → List Happening → Prop where
  | intro {m₁ m₂ : Machine} {written issued : List Happening}
      (hwrites : m.begin.WritesBack m₁ written)
      (htold : isTold written = true)
      (hissues : m₁.Issues m₂ issued)
      (hexecuted : isTold m₂.execute.2 = true) :
      Completes m m₂.execute.1
        (.cycleStarted :: written ++ issued ++ m₂.execute.2)

theorem completes_advance {m : Machine} (h : isTold m.advance.2 = true) :
    m.Completes m.advance.1 m.advance.2 := by
  have hwrites := m.begin.writeback_writesBack
  cases htold : isTold m.begin.writeback.2 with
  | false =>
      have hstarted : isTold (.cycleStarted :: m.begin.writeback.2) =
          isTold m.begin.writeback.2 := rfl
      rw [advance_of_untold htold, hstarted, htold] at h
      contradiction
  | true =>
      rw [advance_of_told htold, isTold_append, Bool.and_eq_true] at h
      rw [advance_of_told htold]
      exact .intro hwrites htold m.begin.writeback.1.issue_issues h.2

/-- What is told of a completed cycle belongs to one of its phases. -/
theorem mem_completes {written issued executed : List Happening}
    {happening : Happening}
    (hmem : happening ∈ .cycleStarted :: written ++ issued ++ executed) :
    happening = .cycleStarted ∨ happening ∈ written ∨ happening ∈ issued ∨
      happening ∈ executed := by
  simpa [or_assoc] using hmem

end Machine

/-! ## Runs of completed cycles -/

namespace Simulation

variable {sim sim' : Simulation} {breakdown : Breakdown}

theorem advance_eq_ok_iff :
    sim.advance = .ok sim' ↔
      isTold sim.machine.advance.2 = true ∧ sim' = sim.cycle := by
  rw [isTold_iff_findSome?, cycle, advance]
  dsimp only
  cases sim.machine.advance.2.findSome? Happening.obstacle? with
  | none => simp [eq_comm]
  | some obstacle => simp

theorem advance_eq_error_iff :
    sim.advance = .error breakdown ↔
      sim.machine.advance.2.findSome? Happening.obstacle? =
          some breakdown.obstacle ∧ breakdown.simulation = sim.cycle := by
  rw [cycle, advance]
  dsimp only
  cases sim.machine.advance.2.findSome? Happening.obstacle? with
  | none => simp
  | some obstacle =>
      constructor
      · intro h
        cases h
        exact ⟨rfl, rfl⟩
      · rintro ⟨hobstacle, hsim⟩
        cases breakdown
        cases hobstacle
        cases hsim
        rfl

/-- A completed cycle goes through all its phases, and its events are added. -/
theorem completes_of_advance (h : sim.advance = .ok sim') :
    ∃ log, sim.machine.Completes sim'.machine log ∧
      sim'.happenings = sim.happenings ++ log := by
  obtain ⟨htold, rfl⟩ := advance_eq_ok_iff.mp h
  refine ⟨sim.machine.advance.2, ?_, ?_⟩
  · rw [machine_cycle]
    exact Machine.completes_advance htold
  · rw [happenings_cycle, takeWhile_isTellable_of_isTold htold]

/-- What completed cycles keep of a machine and of what has happened so far holds
along a run. -/
theorem advanceBy_induction {P : Machine → List Happening → Prop}
    (hcycle : ∀ {m m' past log}, m.Completes m' log → P m past →
      P m' (past ++ log))
    {count : Nat} (hrun : advanceBy count sim = .ok sim')
    (h : P sim.machine sim.happenings) : P sim'.machine sim'.happenings := by
  induction count generalizing sim with
  | zero =>
      cases hrun
      exact h
  | succ count ih =>
      rw [advanceBy] at hrun
      cases hadvance : sim.advance with
      | error breakdown =>
          rw [hadvance] at hrun
          contradiction
      | ok next =>
          rw [hadvance] at hrun
          obtain ⟨log, hcompletes, hpast⟩ := completes_of_advance hadvance
          apply ih hrun
          rw [hpast]
          exact hcycle hcompletes h

end Simulation

/-! ## Write-backs -/

def writebackCount (log : List Happening) : Nat :=
  log.countP (·.kind = .writeback)

def Simulation.writebacks (sim : Simulation) : Nat :=
  writebackCount sim.happenings

theorem writebackCount_append (log rest : List Happening) :
    writebackCount (log ++ rest) = writebackCount log + writebackCount rest :=
  List.countP_append

theorem writebackCount_eq_zero {log : List Happening}
    (h : ∀ happening ∈ log, happening.kind ≠ .writeback) :
    writebackCount log = 0 := by
  rw [writebackCount, List.countP_eq_zero]
  simpa using h

namespace Machine

variable {m m' : Machine} {log : List Happening}

theorem WritesBack.writebackCount_eq (hphase : m.WritesBack m' log)
    (htold : isTold log = true) :
    writebackCount log = if m.bank.granted?.isSome then 1 else 0 := by
  cases hphase with
  | idle hgranted =>
      rw [hgranted]
      rfl
  | empty => nomatch htold
  | broken _ _ huntold =>
      rw [huntold] at htold
      nomatch htold
  | stored hgranted =>
      rw [hgranted]
      rfl
  | @branched station ins hgranted =>
      obtain ⟨happening, hlog, hway⟩ := m.redirect_log station ins
      rw [hgranted, hlog]
      rcases hway with ⟨_, _, _, _, rfl⟩ | ⟨_, _, rfl⟩ | ⟨_, _, rfl⟩
      · rfl
      · rfl
      · rfl
  | @published station ins value happening hgranted _ _ hhappening =>
      have hreceived : writebackCount
          (m.released.publish station.name ins value).2 = 0 := by
        apply writebackCount_eq_zero
        intro other hother
        obtain ⟨name, -, rfl⟩ := List.mem_map.mp hother
        exact fun heq => nomatch heq
      have hsplit : happening :: (m.released.publish station.name ins value).2 =
          [happening] ++ (m.released.publish station.name ins value).2 := rfl
      rw [hsplit, writebackCount_append, hreceived, hgranted]
      rcases hhappening with rfl | rfl
      · rfl
      · rfl

theorem Issues.writebackCount_eq (hphase : m.Issues m' log) :
    writebackCount log = 0 := by
  cases hphase with
  | drained => rfl
  | stalled => rfl
  | issued => rfl

theorem writebackCount_execute (m : Machine) :
    writebackCount m.execute.2 = 0 := by
  apply writebackCount_eq_zero
  intro happening hmem heq
  have hkind := isExecution_of_mem_execute hmem
  rw [heq] at hkind
  contradiction

end Machine

end OutOfOrder
