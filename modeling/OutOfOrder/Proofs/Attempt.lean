import OutOfOrder.Proofs.Diary

/-!
# Runs that end when a cycle is broken off

Whoever runs a machine learns of a cycle that is broken off, and goes on with
the next action only behind a cycle that is completed.  So a run either comes to
the end of its actions, or ends with the first cycle that is broken off and what
that leaves behind.

What completed cycles and changes from outside keep holds where a run comes to
its end.  Where it is broken off, what the last cycle makes of it holds.
-/

namespace OutOfOrder.Simulation

/-- The simulation after actions one after another, up to a cycle that is broken
off. -/
def attempt (sim : Simulation) : List Action → Except Breakdown Simulation
  | [] => .ok sim
  | .cycle :: rest => sim.advance.bind fun next => next.attempt rest
  | action :: rest => (sim.act action).attempt rest

/-- What a run leaves behind, be it broken off or not. -/
def left : Except Breakdown Simulation → Simulation
  | .ok sim => sim
  | .error breakdown => breakdown.simulation

variable {sim next : Simulation} {breakdown : Breakdown} {P Q : Simulation → Prop}

theorem left_advance (sim : Simulation) : left sim.advance = sim.cycle := by
  unfold cycle
  cases sim.advance <;> rfl

theorem isTold_of_advance_eq_error (h : sim.advance = .error breakdown) :
    isTold sim.machine.advance.2 = false := by
  by_contra htold
  have hnone := isTold_iff_findSome?.mp (by simpa using htold)
  rw [(advance_eq_error_iff.mp h).1] at hnone
  contradiction

/-- What completed cycles and changes from outside keep holds of what a run leaves
behind that is not broken off; and of one that is broken off, what its last cycle
makes of it. -/
theorem attempt_induction (sim : Simulation) (actions : List Action)
    (hcycle : ∀ sim, P sim → isTold sim.machine.advance.2 = true →
      P sim.cycle)
    (hbroken : ∀ sim, P sim → isTold sim.machine.advance.2 = false →
      Q sim.cycle)
    (hact : ∀ sim action, action ∈ actions → action ≠ .cycle → P sim →
      P (sim.act action))
    (h : P sim) :
    match sim.attempt actions with
    | .ok next => P next
    | .error breakdown => Q breakdown.simulation := by
  induction actions generalizing sim with
  | nil => exact h
  | cons action rest ih =>
      have hrest := fun sim other hmem =>
        hact sim other (List.mem_cons_of_mem action hmem)
      have hfirst := hact sim action List.mem_cons_self
      cases action with
      | cycle =>
          rw [attempt]
          cases hadvance : sim.advance with
          | ok next =>
              obtain ⟨htold, rfl⟩ := advance_eq_ok_iff.mp hadvance
              exact ih _ hrest (hcycle sim h htold)
          | error breakdown =>
              have hleft := hbroken sim h (isTold_of_advance_eq_error hadvance)
              rw [← left_advance, hadvance] at hleft
              exact hleft
      | load | writeRegister | storeWord | fillBlock =>
          exact ih _ hrest (hfirst nofun h)

/-- What happens in the cycles of a run, be they completed or broken off. -/
def occurrences (sim : Simulation) : List Action → List Happening
  | [] => []
  | .cycle :: rest => sim.machine.advance.2 ++ sim.cycle.occurrences rest
  | action :: rest => (sim.act action).occurrences rest

/-- All that happens in a run that is not broken off is told. -/
theorem happenings_attempt {actions : List Action}
    (h : sim.attempt actions = .ok next) :
    next = sim.after actions ∧
      next.happenings = sim.happenings ++ sim.occurrences actions := by
  induction actions generalizing sim with
  | nil =>
      cases h
      exact ⟨rfl, (List.append_nil _).symm⟩
  | cons action rest ih =>
      cases action with
      | cycle =>
          rw [attempt] at h
          cases hadvance : sim.advance with
          | error breakdown =>
              rw [hadvance] at h
              nomatch h
          | ok reached =>
              rw [hadvance] at h
              obtain ⟨htold, rfl⟩ := advance_eq_ok_iff.mp hadvance
              obtain ⟨hnext, hlog⟩ := ih h
              rw [happenings_cycle, takeWhile_isTellable_of_isTold htold,
                List.append_assoc] at hlog
              exact ⟨hnext, hlog⟩
      | load | writeRegister | storeWord | fillBlock => exact ih h

/-- A run of which a diary is kept ends with its first cycle that is broken
off. -/
theorem foldl_act_of_brokenOff {name : String} {watch : Watch}
    (h : watch.brokenOff = true) (actions : List Action) :
    actions.foldl (Watch.act name) watch = watch := by
  induction actions with
  | nil => rfl
  | cons action rest ih =>
      rw [List.foldl_cons, Watch.act, h, if_pos rfl]
      exact ih

/-- A run of which a diary is kept leaves behind what it does without one. -/
theorem watch_attempt (sim : Simulation) (name : String)
    (actions : List Action) :
    (sim.watch name actions).simulation = left (sim.attempt actions) ∧
      ∀ next, sim.attempt actions = .ok next →
        (sim.watch name actions).brokenOff = false := by
  suffices hwatch : ∀ watch : Watch, watch.brokenOff = false →
      (actions.foldl (Watch.act name) watch).simulation =
          left (watch.simulation.attempt actions) ∧
        ∀ next, watch.simulation.attempt actions = .ok next →
          (actions.foldl (Watch.act name) watch).brokenOff = false from
    hwatch ⟨sim, [], false⟩ rfl
  induction actions with
  | nil => exact fun watch hwhole => ⟨rfl, fun _ _ => hwhole⟩
  | cons action rest ih =>
      intro watch hwhole
      rw [List.foldl_cons]
      cases action with
      | load | writeRegister | storeWord | fillBlock =>
          rw [Watch.act, hwhole, if_neg Bool.false_ne_true, attempt]
          · exact ih ⟨_, watch.diary, false⟩ rfl
          · rintro ⟨⟩
      | cycle =>
          rw [Watch.act, hwhole, if_neg Bool.false_ne_true, attempt]
          dsimp only
          cases hadvance : watch.simulation.advance with
          | ok next =>
              obtain ⟨htold, rfl⟩ := advance_eq_ok_iff.mp hadvance
              exact ih ⟨_, _, _⟩ (by rw [htold]; rfl)
          | error breakdown =>
              have hleft := left_advance watch.simulation
              rw [hadvance] at hleft
              have huntold := isTold_of_advance_eq_error hadvance
              rw [foldl_act_of_brokenOff (by rw [huntold]; rfl)]
              refine ⟨hleft.symm, ?_⟩
              rintro next ⟨⟩

end OutOfOrder.Simulation
