import OutOfOrder.Proofs.MonitoredRun

/-!
# Events that were left before a run under monitors

A run under monitors takes the events of every cycle and lets the monitors judge
them as those of one cycle.  Events that nobody had taken before the run are
taken with the first cycle, and are judged as if they belonged to it.  Two of the
four rules are judged by events: an old write-back and that of the first cycle
look like two results on the bus, and a station that was issued to long ago looks
as if it started in its pause.

So a run under monitors raises an alarm exactly if the old events and those of
the first cycle clash in this way.  From the same state with the events taken it
never does.
-/

namespace OutOfOrder

open Machine

/-! ## Events that clash -/

/-- Taken for the events of one cycle, the happenings look like a broken rule:
there is more than one write-back, or a station starts that was issued to or
received a value. -/
def Clashes (log : List Happening) : Prop :=
  1 < writebackCount log ∨
    ∃ start ∈ log, ∃ pause ∈ log, start.kind = .execStart ∧
      (pause.kind = .issue ∨ pause.kind = .broadcast) ∧
      pause.station? = start.station?

namespace Monitor

variable {m : Machine} {log : List Happening}

/-- Where no station has left the bus unseen, its use is judged by the number of
write-backs. -/
theorem checkBus_eq_none_iff {sample : Directory String Station}
    (log : List Happening)
    (hleft : checkLeft (sample.entries.map (·.2)) m = none) :
    checkBus sample m (log.map Happening.signal) = none ↔
      writebackCount log ≤ 1 := by
  have hcount : (((log.map Happening.signal).filter
      (·.kind = .writeback)).map (·.station)).length = writebackCount log := by
    rw [List.length_map, ← List.countP_eq_length_filter, List.countP_map]
    rfl
  unfold checkBus
  dsimp only
  rw [hcount, hleft]
  split
  · next hmany => simp [Nat.not_le.mpr hmany]
  · next hfew => simp [Nat.not_lt.mp hfew]

theorem checkPauses_eq_none_iff (log : List Happening) :
    checkPauses (log.map Happening.signal) = none ↔
      ¬∃ start ∈ log, ∃ pause ∈ log, start.kind = .execStart ∧
        (pause.kind = .issue ∨ pause.kind = .broadcast) ∧
        pause.station? = start.station? := by
  unfold checkPauses
  dsimp only
  rw [Option.map_eq_none_iff, List.find?_eq_none]
  constructor
  · rintro hnone ⟨start, hstart, pause, hpause, hkind, hkind', hsame⟩
    refine hnone start.signal
      (List.mem_filter.mpr ⟨List.mem_map_of_mem hstart, ?_⟩)
      (List.any_eq_true.mpr ⟨pause.signal,
        List.mem_filter.mpr ⟨List.mem_map_of_mem hpause, ?_⟩, ?_⟩)
    · exact decide_eq_true hkind
    · exact Bool.or_eq_true_iff.mpr
        (hkind'.imp (decide_eq_true ·) (decide_eq_true ·))
    · exact decide_eq_true hsame
  · rintro hnone signal hstarted hpaused
    obtain ⟨hmem, hkind⟩ := List.mem_filter.mp hstarted
    obtain ⟨start, hstart, rfl⟩ := List.mem_map.mp hmem
    obtain ⟨other, hother, hsame⟩ := List.any_eq_true.mp hpaused
    obtain ⟨hmem', hkind'⟩ := List.mem_filter.mp hother
    obtain ⟨pause, hpause, rfl⟩ := List.mem_map.mp hmem'
    exact hnone ⟨start, hstart, pause, hpause, of_decide_eq_true hkind,
      (Bool.or_eq_true_iff.mp hkind').imp of_decide_eq_true of_decide_eq_true,
      of_decide_eq_true hsame⟩

end Monitor

/-! ## The first alarm -/

namespace Panel

variable {panel : Panel} {m : Machine} {signals : List Signal}

/-- An alarm is raised in the cycle that is judged, by a rule that was asked. -/
theorem check_of_observeAll {rules : List Rule} {alarm : Alarm}
    (h : (panel.observeAll m signals rules).2 = some alarm) :
    alarm.cycle = m.cycle ∧ (panel.monitor alarm.rule).check alarm.rule m
      signals = some alarm.violation := by
  induction rules generalizing panel with
  | nil => cases h
  | cons rule rest ih =>
      rw [observeAll, observe] at h
      cases hcheck : (panel.monitor rule).check rule m signals with
      | some violation =>
          rw [hcheck] at h
          cases h
          exact ⟨rfl, hcheck⟩
      | none =>
          rw [hcheck] at h
          obtain ⟨hcycle, hviolation⟩ := ih h
          rw [check_update_count] at hviolation
          exact ⟨hcycle, hviolation⟩

theorem observeAll_eq_none_iff :
    (panel.observeAll m signals Rule.all).2 = none ↔
      ∀ rule, (panel.monitor rule).check rule m signals = none := by
  constructor
  · intro hnone rule
    by_contra hcheck
    have hraised : ∀ (rules : List Rule) (panel : Panel), rule ∈ rules →
        (panel.monitor rule).check rule m signals ≠ none →
        (panel.observeAll m signals rules).2 ≠ none := by
      intro rules
      induction rules with
      | nil => exact fun _ hmem => absurd hmem List.not_mem_nil
      | cons other rest ih =>
          intro panel hmem hcheck
          rw [observeAll, observe]
          cases hother : (panel.monitor other).check other m signals with
          | some violation => exact Option.some_ne_none _
          | none =>
              have hne : rule ≠ other := by
                rintro rfl
                exact hcheck hother
              have hrest := (List.mem_cons.mp hmem).resolve_left hne
              exact ih _ hrest fun h =>
                hcheck ((panel.check_update_count rule other).symm.trans h)
    exact hraised Rule.all panel (by cases rule <;> decide) hcheck hnone
  · intro hnone
    rw [observeAll_of_check hnone]

end Panel

namespace Machine

variable {m m' : Machine} {log : List Happening}

/-- The rules are judged by the machine alone, apart from the events that the
monitors are given.  With older events in front of those of a completed cycle
they are kept exactly if nothing clashes. -/
theorem Completes.check_append_eq_none_iff (h : m.Completes m' log)
    (hm : m.Watchable) (hm' : m'.Watchable) (past : List Happening)
    (monitors : Rule → Monitor) :
    (∀ rule, ((monitors rule).beforeCycle rule m).check rule m'
        ((past ++ log).map Happening.signal) = none) ↔
      ¬Clashes (past ++ log) := by
  obtain ⟨_, hagrees⟩ := hm.agrees
  have hsound := hagrees.sound
  have hleft : Monitor.checkLeft
      (((Monitor.byName (m.bank.filter (·.asksForBus))).entries).map (·.2))
        m' = none := by
    rw [Monitor.sampled_byName (hsound.distinct.filter _)]
    exact h.checkLeft_eq_none hsound
  have hbus := Monitor.checkBus_eq_none_iff (past ++ log) hleft
  have hpause := Monitor.checkPauses_eq_none_iff (past ++ log)
  rw [Clashes, not_or, Nat.not_lt, ← hbus, ← hpause]
  constructor
  · exact fun hall => ⟨hall .bus, hall .pause⟩
  · rintro ⟨hnobus, hnopause⟩ rule
    -- neither tags nor the port are judged by events
    cases rule with
    | bus => exact hnobus
    | pause => exact hnopause
    | tags => exact h.check_eq_none hm hm' .tags (monitors .tags)
    | port => exact h.check_eq_none hm hm' .port (monitors .port)

end Machine

namespace Simulation

variable {sim : Simulation}

/-! ## The first cycle of a run -/

/-- A run under all monitors whose first cycle is completed judges the events
that were left together with those of the cycle, and goes on if there is no
alarm. -/
theorem runMonitored_of_told (htold : isTold sim.machine.advance.2 = true)
    {untilIdle : Bool} (hruns : (untilIdle && sim.machine.isIdle) = false)
    (limit : Nat) (panel : Panel) :
    sim.runMonitored untilIdle Rule.all (limit + 1) panel =
      match (Rule.all.foldl (·.beforeCycle sim.machine) panel).observeAll
          sim.machine.advance.1 ((sim.happenings ++ sim.machine.advance.2).map
            Happening.signal) Rule.all with
      | (panel, some alarm) =>
        ⟨⟨sim.machine.advance.1, #[]⟩, panel, sim.cycle.buffer.toList,
          .alarm alarm⟩
      | (panel, none) =>
        let run := runMonitored untilIdle Rule.all limit
          ⟨sim.machine.advance.1, #[]⟩ panel
        { run with events := sim.cycle.buffer.toList ++ run.events } := by
  have hadvance : sim.advance = .ok sim.cycle :=
    advance_eq_ok_iff.mpr ⟨htold, rfl⟩
  have hsignals : sim.cycle.buffer.toList.map Event.signal =
      (sim.happenings ++ sim.machine.advance.2).map Happening.signal := by
    have hcycle := sim.happenings_cycle
    rw [takeWhile_isTellable_of_isTold htold] at hcycle
    rw [← hcycle, happenings, List.map_map]
    rfl
  rw [← hsignals, ← machine_cycle, runMonitored, hruns, hadvance,
    if_neg Bool.false_ne_true]
  rfl

theorem ending_runMonitored_ne_alarm (hwatchable : sim.machine.Watchable)
    (hempty : sim.buffer = #[]) (untilIdle : Bool) (limit : Nat)
    (panel : Panel) (alarm : Alarm) :
    (sim.runMonitored untilIdle Rule.all limit panel).ending ≠
      .alarm alarm :=
  (shadows_runMonitored hwatchable hempty untilIdle limit panel {}).quiet alarm

/-- An alarm is raised in the first cycle, which has to be completed, or not at
all. -/
theorem ending_runMonitored_eq_alarm_iff (hwatchable : sim.machine.Watchable)
    (untilIdle : Bool) (limit : Nat) (panel : Panel) (alarm : Alarm) :
    (sim.runMonitored untilIdle Rule.all limit panel).ending =
        .alarm alarm ↔
      0 < limit ∧ (untilIdle && sim.machine.isIdle) = false ∧
        isTold sim.machine.advance.2 = true ∧
        ((Rule.all.foldl (·.beforeCycle sim.machine) panel).observeAll
          sim.machine.advance.1 ((sim.happenings ++ sim.machine.advance.2).map
            Happening.signal) Rule.all).2 = some alarm := by
  cases limit with
  | zero => simp [runMonitored]
  | succ limit =>
      cases hruns : untilIdle && sim.machine.isIdle with
      | true => simp [runMonitored, hruns]
      | false =>
          cases htold : isTold sim.machine.advance.2 with
          | false =>
              have hbroken : ∃ breakdown, sim.advance = .error breakdown := by
                cases hadvance : sim.advance with
                | error breakdown => exact ⟨breakdown, rfl⟩
                | ok next =>
                    have hok := (advance_eq_ok_iff.mp hadvance).1
                    rw [htold] at hok
                    contradiction
              obtain ⟨breakdown, hadvance⟩ := hbroken
              simp [runMonitored, hruns, hadvance]
          | true =>
              rw [runMonitored_of_told htold hruns]
              split
              · next panel' raised hobserved =>
                  rw [hobserved]
                  simp
              · next panel' hobserved =>
                  have hquiet := @ending_runMonitored_ne_alarm
                    ⟨sim.machine.advance.1, #[]⟩ hwatchable.advance rfl
                    untilIdle limit panel' alarm
                  rw [hobserved]
                  simpa using hquiet

/-- **Old events raise false alarms.**  From every state of every run, a run under
all monitors raises no alarm if the events that were left are taken first.  If
they are not, it raises one exactly if it has a first cycle, which is completed,
and the old events clash with those of that cycle.  The alarm comes from the
monitor of the bus or from that of the pauses, in the first cycle. -/
theorem alarm_iff_old_events_clash (config : Config)
    (preload : List (Int × Int)) (moves : List Move) (untilIdle : Bool)
    (limit : Nat) :
    let sim := (fresh config preload).play moves
    let judged := sim.runMonitored untilIdle Rule.all limit {}
    let drained := sim.drain.2.runMonitored untilIdle Rule.all limit {}
    (∀ alarm, drained.ending ≠ .alarm alarm) ∧
    ((∃ alarm, judged.ending = .alarm alarm) ↔
      0 < limit ∧ (untilIdle && sim.machine.isIdle) = false ∧
        isTold sim.machine.advance.2 = true ∧
        Clashes (sim.happenings ++ sim.machine.advance.2)) ∧
    ∀ alarm, judged.ending = .alarm alarm →
      alarm.cycle = sim.machine.cycle + 1 ∧
        (alarm.rule = .bus ∨ alarm.rule = .pause) := by
  have hfresh : (fresh config preload).machine.Watchable :=
    ⟨⟨{}, Machine.agrees_create config preload⟩,
      Machine.orderly_create config preload⟩
  intro sim judged drained
  have hwatchable : sim.machine.Watchable := watchable_play hfresh moves
  have hchecks := fun htold =>
    (Machine.completes_advance htold).check_append_eq_none_iff hwatchable
      hwatchable.advance sim.happenings ({} : Panel).monitor
  have hsampled : ∀ rule,
      (Rule.all.foldl (·.beforeCycle sim.machine) ({} : Panel)).monitor rule =
        (({} : Panel).monitor rule).beforeCycle rule sim.machine := by
    intro rule
    cases rule <;> rfl
  refine ⟨@ending_runMonitored_ne_alarm sim.drain.2 hwatchable rfl untilIdle
    limit {}, ?_, ?_⟩
  · simp only [judged, ending_runMonitored_eq_alarm_iff hwatchable]
    rw [exists_and_left, exists_and_left]
    refine and_congr_right fun _ => and_congr_right fun _ => ?_
    rw [exists_and_left]
    refine and_congr_right fun htold => ?_
    rw [← Option.isSome_iff_exists, ← not_iff_not, Option.not_isSome_iff_eq_none,
      Panel.observeAll_eq_none_iff, ← hchecks htold]
    simp only [hsampled]
  · intro alarm hending
    obtain ⟨-, -, htold, hraised⟩ :=
      (ending_runMonitored_eq_alarm_iff hwatchable untilIdle limit {}
        alarm).mp hending
    obtain ⟨hcycle, hviolation⟩ := Panel.check_of_observeAll hraised
    rw [hsampled] at hviolation
    have hcompletes := Machine.completes_advance htold
    refine ⟨hcycle.trans sim.machine.cycle_advance, ?_⟩
    cases hrule : alarm.rule with
    | bus => exact .inl rfl
    | pause => exact .inr rfl
    | tags =>
        rw [hrule] at hviolation
        have hnone := hcompletes.check_eq_none hwatchable hwatchable.advance
          .tags (({} : Panel).monitor .tags)
        exact absurd (hviolation.symm.trans hnone) (Option.some_ne_none _)
    | port =>
        rw [hrule] at hviolation
        have hnone := hcompletes.check_eq_none hwatchable hwatchable.advance
          .port (({} : Panel).monitor .port)
        exact absurd (hviolation.symm.trans hnone) (Option.some_ne_none _)

/-- A station that was issued to in the cycle before a run under monitors seems
to start in its pause.  With that event taken first, the same cycles raise no
alarm. -/
theorem old_issue_raises_alarm :
    let sim := (fresh .standard []).play
      [.act (.load
        [{ opcode := .add, dest := "F1", src1 := "F2", src2 := "F3" }]),
        .act .cycle]
    (sim.runMonitored true Rule.all 10 {}).ending =
        .alarm ⟨.pause, 2, .startInPause (some "Add0")⟩ ∧
      (sim.drain.2.runMonitored true Rule.all 10 {}).ending = .completed := by
  decide +kernel

end Simulation

end OutOfOrder
