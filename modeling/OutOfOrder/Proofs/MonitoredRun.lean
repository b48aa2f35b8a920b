import OutOfOrder.Proofs.Monitoring

/-!
# Runs under monitors

As every completed cycle keeps the rules, a monitor never raises an alarm, and
counts every completed cycle.  A run under monitors takes the events of every
cycle.  Apart from that it does what the same cycles do without monitors.
-/

namespace OutOfOrder

/-! ## Panels -/

namespace Panel

variable {m : Machine} {signals : List Signal}

/-- A monitor judges by its sample alone. -/
theorem check_update_count (panel : Panel) (rule other : Rule) :
    ((panel.update other Monitor.count).monitor rule).check rule m signals =
      (panel.monitor rule).check rule m signals := by
  cases rule <;> cases other <;> rfl

theorem observeAll_of_check {panel : Panel}
    (h : ∀ rule, (panel.monitor rule).check rule m signals = none)
    (rules : List Rule) :
    panel.observeAll m signals rules =
      (rules.foldl (fun panel rule => panel.update rule Monitor.count) panel,
        none) := by
  induction rules generalizing panel with
  | nil => rfl
  | cons rule rest ih =>
      have hobserve : panel.observe m signals rule =
          .ok (panel.update rule Monitor.count) := by
        rw [observe, h rule]
      rw [observeAll, hobserve]
      exact ih fun other => (panel.check_update_count other rule).trans (h other)

/-- The panel after a cycle that kept every rule. -/
def afterCycle (panel : Panel) (m : Machine) : Panel :=
  Rule.all.foldl (fun panel rule => panel.update rule Monitor.count)
    (Rule.all.foldl (·.beforeCycle m) panel)

theorem cyclesChecked_beforeCycle (panel : Panel) (m : Machine) (rule : Rule) :
    ((Rule.all.foldl (·.beforeCycle m) panel).monitor rule).cyclesChecked =
      (panel.monitor rule).cyclesChecked := by
  cases rule <;> rfl

theorem cyclesChecked_afterCycle (panel : Panel) (m : Machine) (rule : Rule) :
    ((panel.afterCycle m).monitor rule).cyclesChecked =
      (panel.monitor rule).cyclesChecked + 1 := by
  cases rule <;> rfl

theorem observeAll_eq (panel : Panel) {m m' : Machine} {log : List Happening}
    (h : m.Completes m' log) (hm : m.Watchable) (hm' : m'.Watchable) :
    (Rule.all.foldl (·.beforeCycle m) panel).observeAll m'
      (log.map Happening.signal) Rule.all = (panel.afterCycle m, none) := by
  apply observeAll_of_check
  intro rule
  have hsampled : (Rule.all.foldl (·.beforeCycle m) panel).monitor rule =
      (panel.monitor rule).beforeCycle rule m := by
    cases rule <;> rfl
  rw [hsampled]
  exact h.check_eq_none hm hm' rule (panel.monitor rule)

end Panel

/-! ## Runs under monitors -/

/-- The watched run did what the plain one did without an alarm, and its monitors
have counted the completed cycles since a machine with a panel. -/
structure MonitoredRun.Shadows (watched plain : MonitoredRun) (m : Machine)
    (panel : Panel) : Prop where
  simulation : watched.simulation = plain.simulation
  events : watched.events = plain.events
  ending : watched.ending = plain.ending
  quiet : ∀ alarm, watched.ending ≠ .alarm alarm
  counted : ∀ rule, m.cycle + (watched.panel.monitor rule).cyclesChecked +
      (if watched.ending = .completed then 0 else 1) =
    watched.simulation.machine.cycle + (panel.monitor rule).cyclesChecked

namespace Simulation

variable {sim : Simulation}

/-- The events of a completed cycle, where none were left to take. -/
theorem cycle_of_told (hempty : sim.buffer = #[])
    (htold : isTold sim.machine.advance.2 = true) :
    sim.cycle = ⟨sim.machine.advance.1, (sim.machine.advance.2.map
      (Event.mk sim.machine.advance.1.cycle)).toArray⟩ := by
  rw [cycle_eq, takeWhile_isTellable_of_isTold htold, hempty]
  simp

/-- A run under monitors stops, is broken off in its first cycle, or goes on
behind it. -/
theorem shadows_runMonitored (hwatchable : sim.machine.Watchable)
    (hempty : sim.buffer = #[]) (untilIdle : Bool) (limit : Nat)
    (panel other : Panel) :
    (sim.runMonitored untilIdle Rule.all limit panel).Shadows
      (sim.runMonitored untilIdle [] limit other) sim.machine panel := by
  induction limit generalizing sim panel other with
  | zero => exact ⟨rfl, rfl, rfl, fun _ => nofun, fun _ => rfl⟩
  | succ limit ih =>
      unfold runMonitored
      split
      · exact ⟨rfl, rfl, rfl, fun _ => nofun, fun _ => rfl⟩
      · have hcycle := sim.machine.cycle_advance
        cases hadvance : sim.advance with
        | error breakdown =>
            have hbroken := (advance_eq_error_iff.mp hadvance).2
            have hmachine : breakdown.simulation.machine.cycle =
                sim.machine.cycle + 1 := by
              rw [hbroken, machine_cycle, hcycle]
            refine ⟨rfl, rfl, rfl, fun _ => nofun, fun rule => ?_⟩
            dsimp only
            rw [hmachine, Panel.cyclesChecked_beforeCycle, if_neg nofun]
            omega
        | ok next =>
            obtain ⟨htold, rfl⟩ := advance_eq_ok_iff.mp hadvance
            have hsignals : ((sim.machine.advance.2.map
                (Event.mk sim.machine.advance.1.cycle)).map Event.signal) =
                  sim.machine.advance.2.map Happening.signal := by
              rw [List.map_map]
              rfl
            have hobserved := panel.observeAll_eq
              (Machine.completes_advance htold) hwatchable hwatchable.advance
            rw [cycle_of_told hempty htold]
            simp only [drain, hsignals, hobserved]
            obtain ⟨hsimulation, hevents, hending, hquiet, hcounted⟩ :=
              @ih ⟨sim.machine.advance.1, #[]⟩ hwatchable.advance rfl
                (panel.afterCycle sim.machine) other
            refine ⟨hsimulation, congrArg (_ ++ ·) hevents, hending, hquiet,
              fun rule => ?_⟩
            have hrest := hcounted rule
            rw [Panel.cyclesChecked_afterCycle] at hrest
            dsimp only at hrest ⊢
            omega

/-! ## Runs without monitors -/

/-- Cycles without monitors, at most as many as given, and until the machine is
idle if that is asked for. -/
def advanceUpTo (untilIdle : Bool) (limit : Nat) (sim : Simulation) :
    Except Breakdown Simulation :=
  if untilIdle then (sim.run limit).map (·.2) else sim.advanceBy limit

theorem advanceUpTo_zero (untilIdle : Bool) (sim : Simulation) :
    sim.advanceUpTo untilIdle 0 = .ok sim := by
  cases untilIdle <;> rfl

theorem advanceUpTo_succ (untilIdle : Bool) (limit : Nat) (sim : Simulation) :
    sim.advanceUpTo untilIdle (limit + 1) =
      if untilIdle && sim.machine.isIdle then .ok sim
      else sim.advance.bind (advanceUpTo untilIdle limit) := by
  cases untilIdle with
  | false => rfl
  | true =>
      rw [advanceUpTo, if_pos rfl, run, Bool.true_and]
      split
      · rfl
      · cases hadvance : sim.advance with
        | error breakdown => rfl
        | ok next =>
            have hnext : next.advanceUpTo true limit =
                (next.run limit).map (·.2) := rfl
            simp only [Except.bind, hnext]
            cases hrun : next.run limit <;>
              simp [hrun, bind, pure, Except.bind, Except.pure, Except.map]

end Simulation

/-- The run under monitors did what the cycles without monitors did that have
this outcome.  They have left their events behind those of the past, and the
run has taken its own. -/
def MonitoredRun.Does (run : MonitoredRun) (past : List Event) :
    Except Breakdown Simulation → Prop
  | .ok after => run.ending = .completed ∧
      after.drain = (past ++ run.events, run.simulation)
  | .error breakdown => run.ending = .brokenOff breakdown.obstacle ∧
      run.simulation.machine = breakdown.simulation.machine ∧
      breakdown.simulation.buffer.toList =
        past ++ run.events ++ run.simulation.buffer.toList

namespace Simulation

variable {sim : Simulation}

theorem runMonitored_nil (untilIdle : Bool) (limit : Nat) (panel : Panel) :
    sim.runMonitored untilIdle [] (limit + 1) panel =
      if untilIdle && sim.machine.isIdle then ⟨sim, panel, [], .completed⟩
      else match sim.advance with
        | .error ⟨broken, obstacle⟩ => ⟨broken, panel, [], .brokenOff obstacle⟩
        | .ok next =>
          let rest := next.drain.2.runMonitored untilIdle [] limit panel
          { rest with events := next.drain.1 ++ rest.events } :=
  rfl

theorem does_of_append {run : MonitoredRun} {past told : List Event}
    {outcome : Except Breakdown Simulation}
    (h : run.Does (past ++ told) outcome) :
    MonitoredRun.Does { run with events := told ++ run.events } past
      outcome := by
  cases outcome with
  | ok after =>
      obtain ⟨hending, hafter⟩ := h
      exact ⟨hending, by rw [hafter, List.append_assoc]⟩
  | error breakdown =>
      obtain ⟨hending, hmachine, hbuffer⟩ := h
      exact ⟨hending, hmachine, by simp [hbuffer]⟩

/-- A run without rules does what the cycles do, whatever events were left. -/
theorem does_runMonitored (hempty : sim.buffer = #[]) (untilIdle : Bool)
    (limit : Nat) (past : Array Event) (panel : Panel) :
    (sim.runMonitored untilIdle [] limit panel).Does past.toList
      (advanceUpTo untilIdle limit { sim with buffer := past }) := by
  -- what the run under monitors takes belongs to the past of the other one
  induction limit generalizing sim past panel with
  | zero =>
      rw [advanceUpTo_zero]
      refine ⟨rfl, ?_⟩
      simp [drain, runMonitored, ← hempty]
  | succ limit ih =>
      have hcycle : cycle { sim with buffer := past } =
          ⟨sim.machine.advance.1, past ++
            (sim.machine.advance.2.takeWhile Happening.isTellable).map
              (Event.mk sim.machine.advance.1.cycle)⟩ := cycle_eq _
      rw [advanceUpTo_succ, runMonitored_nil]
      split
      · refine ⟨rfl, ?_⟩
        simp [drain, ← hempty]
      · cases hadvance : sim.advance with
        | error breakdown =>
            obtain ⟨broken, obstacle⟩ := breakdown
            obtain ⟨hobstacle, hbroken⟩ := advance_eq_error_iff.mp hadvance
            have hpast : ({ sim with buffer := past } : Simulation).advance =
                .error ⟨cycle { sim with buffer := past }, obstacle⟩ :=
              advance_eq_error_iff.mpr ⟨hobstacle, rfl⟩
            dsimp only at hbroken
            rw [hpast, hcycle, hbroken, cycle_eq, hempty]
            refine ⟨rfl, rfl, ?_⟩
            simp
        | ok next =>
            obtain ⟨htold, rfl⟩ := advance_eq_ok_iff.mp hadvance
            have hpast : ({ sim with buffer := past } : Simulation).advance =
                .ok (cycle { sim with buffer := past }) :=
              advance_eq_ok_iff.mpr ⟨htold, rfl⟩
            rw [hpast, hcycle, takeWhile_isTellable_of_isTold htold,
              cycle_of_told hempty htold]
            apply does_of_append
            have hrest := @ih ⟨sim.machine.advance.1, #[]⟩ rfl
              (past ++ sim.machine.advance.2.map
                (Event.mk sim.machine.advance.1.cycle)) panel
            simpa [drain, Except.bind] using hrest

/-! ## Runs in play -/

/-- An action, or the events being taken. -/
inductive Move where
  | act (action : Action)
  | drain
  deriving DecidableEq, Repr

def move (sim : Simulation) : Move → Simulation
  | .act action => sim.act action
  | .drain => sim.drain.2

def play (sim : Simulation) (moves : List Move) : Simulation :=
  moves.foldl move sim

theorem watchable_act (h : sim.machine.Watchable) (action : Action) :
    (sim.act action).machine.Watchable := by
  cases action with
  | cycle =>
      rw [act, machine_cycle]
      exact h.advance
  | load program => exact h.of_bank_eq rfl rfl rfl
  | writeRegister name value =>
      exact h.of_bank_eq rfl rfl (RegisterFile.tags_write _ name value)
  | storeWord address value => exact h.of_bank_eq rfl rfl rfl
  | fillBlock address => exact h.of_bank_eq rfl rfl rfl

theorem watchable_play (h : sim.machine.Watchable) (moves : List Move) :
    (sim.play moves).machine.Watchable := by
  induction moves generalizing sim with
  | nil => exact h
  | cons move rest ih =>
      apply ih
      cases move with
      | act action => exact watchable_act h action
      | drain => exact h

/-- From every state of every run in which no event is left to take, a run under
all monitors raises no alarm and does what it does without monitors, which is
what the cycles do whose events are taken at the end.  Every monitor counts the
completed cycles. -/
theorem monitors_sound_and_transparent (config : Config)
    (preload : List (Int × Int)) (moves : List Move)
    (hempty : ((fresh config preload).play moves).buffer = #[])
    (untilIdle : Bool) (limit : Nat) :
    let sim := (fresh config preload).play moves
    let watched := sim.runMonitored untilIdle Rule.all limit {}
    let plain := sim.runMonitored untilIdle [] limit {}
    (∀ alarm, watched.ending ≠ .alarm alarm) ∧
    watched.simulation = plain.simulation ∧
    watched.events = plain.events ∧
    watched.ending = plain.ending ∧
    plain.Does [] (sim.advanceUpTo untilIdle limit) ∧
    ∀ rule, sim.machine.cycle + (watched.panel.monitor rule).cyclesChecked +
        (if watched.ending = .completed then 0 else 1) =
      watched.simulation.machine.cycle := by
  have hfresh : (fresh config preload).machine.Watchable :=
    ⟨⟨{}, Machine.agrees_create config preload⟩,
      Machine.orderly_create config preload⟩
  intro sim watched plain
  have hshadows : watched.Shadows plain sim.machine {} :=
    shadows_runMonitored (watchable_play hfresh moves) hempty untilIdle limit
      {} {}
  have hdoes := @does_runMonitored sim hempty untilIdle limit #[] {}
  have hsame : ({ sim with buffer := #[] } : Simulation) = sim := by
    rw [← hempty]
  rw [hsame] at hdoes
  refine ⟨hshadows.quiet, hshadows.simulation, hshadows.events,
    hshadows.ending, hdoes, fun rule => ?_⟩
  have hcounted := hshadows.counted rule
  have hzero : (({} : Panel).monitor rule).cyclesChecked = 0 := by
    cases rule <;> rfl
  rwa [hzero, Nat.add_zero] at hcounted

/-- A program that is loaded while a product is under way drains under all
monitors, each of which checks every cycle. -/
theorem monitors_sound_and_transparent_reloaded :
    let moves : List Move :=
      [.act (.writeRegister "F1" 5),
        .act (.load
          [{ opcode := .mul, dest := "F2", src1 := "F1", src2 := "F1" }]),
        .act .cycle, .act .cycle,
        .act (.load
          [{ opcode := .add, dest := "F3", src1 := "F2", src2 := "F1" },
            { opcode := .sw, src1 := "R0", src2 := "F3",
              immediate := some 0 }]),
        .drain]
    let sim := (fresh .standard []).play moves
    let watched := sim.runMonitored true Rule.all 100 {}
    let plain := sim.runMonitored true [] 100 {}
    sim.buffer = #[] ∧ sim.machine.cycle = 2 ∧ sim.machine.isIdle = false ∧
      watched.ending = .completed ∧ watched.simulation.machine.isIdle = true ∧
      watched.events = plain.events ∧
      ∀ rule, (watched.panel.monitor rule).cyclesChecked = 66 := by
  intro moves sim watched plain
  have hempty : sim.buffer = #[] := rfl
  obtain ⟨-, -, hevents, -, -, hcounted⟩ :=
    monitors_sound_and_transparent .standard [] moves hempty true 100
  have hends : (runMonitored true Rule.all 100 ((fresh .standard []).play moves)
        {}).ending = .completed ∧
      watched.simulation.machine.isIdle = true ∧
      (runMonitored true Rule.all 100 ((fresh .standard []).play moves)
        {}).simulation.machine.cycle = 68 := by
    decide +kernel
  have hstarts : ((fresh .standard []).play moves).machine.cycle = 2 ∧
      sim.machine.isIdle = false := by
    decide +kernel
  refine ⟨hempty, hstarts.1, hstarts.2, hends.1, hends.2.1, hevents,
    fun rule => ?_⟩
  have hcount := hcounted rule
  rw [if_pos hends.1, hstarts.1, hends.2.2] at hcount
  exact Nat.add_left_cancel hcount

end Simulation

end OutOfOrder
