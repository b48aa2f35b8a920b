import OutOfOrder.Proofs.Draining
import OutOfOrder.Proofs.Labels
import OutOfOrder.Proofs.Lifecycle

/-!
# Where label branches land

The distance that a branch has from its label counts from behind the branch, and
the machine counts from the next instruction to be issued when the branch has the
bus.  The two agree if nothing was issued in between.  Otherwise the branch lands
as many instructions too far as were issued, unless another branch was taken
meanwhile, which starts the count anew.

If there is one station for branches, and every branch is followed by an
instruction that needs this station too, then nothing is issued and no other
branch is taken while a branch is on its way.
-/

namespace OutOfOrder

theorem Opcode.pool_of_isBranch {op : Opcode} (h : op.isBranch = true) :
    op.pool = .int := by
  cases op <;> first | rfl | nomatch h

namespace Machine

/-- The machine in a cycle behind its write-back. -/
def atIssue (m : Machine) : Machine :=
  m.begin.writeback.1

/-- The station of a name is at work on an instruction. -/
def Carries (m : Machine) (name : String) (ins : Instruction) : Prop :=
  ∃ station, m.bank.station? name = some station ∧ station.busy = true ∧
    station.instruction? = some ins

variable {m m' : Machine} {log since : List Happening} {name : String}
  {ins : Instruction} {place : Nat} {program : List Instruction}

/-! ## The place in the program -/

/-- Without a branch that is taken a write-back leaves the place as it is. -/
theorem WritesBack.issuedCount_eq (hphase : m.WritesBack m' log)
    (htold : isTold log = true)
    (hjumps : ∀ happening ∈ log, happening.kind ≠ .branchTaken) :
    m'.issuedCount = m.issuedCount := by
  cases hphase with
  | idle | stored | published => rfl
  | empty => nomatch htold
  | broken _ _ huntold =>
      rw [huntold] at htold
      nomatch htold
  | @branched station ins =>
      rcases m.redirect_cases station ins with
        heq | heq | ⟨index, next, -, -, heq⟩
      · rw [heq]
        rfl
      · rw [heq]
        rfl
      · rw [heq] at hjumps
        exact absurd rfl (hjumps _ (List.mem_cons_of_mem _ List.mem_cons_self))

theorem Issues.issuedCount_eq (hphase : m.Issues m' log) :
    m'.issuedCount = m.issuedCount + issueCount log := by
  cases hphase with
  | drained | stalled | issued => rfl

/-! ## Instructions on their way -/

theorem WritesBack.exists_writeback (hphase : m.WritesBack m' log)
    (htold : isTold log = true) {station : Station}
    (hgranted : m.bank.granted? = some station) :
    ∃ happening ∈ log, happening.kind = .writeback ∧
      happening.station? = some station.name := by
  cases hphase with
  | idle hnone =>
      rw [hgranted] at hnone
      nomatch hnone
  | empty => nomatch htold
  | broken _ _ huntold =>
      rw [huntold] at htold
      nomatch htold
  | stored hgranted' =>
      cases hgranted.symm.trans hgranted'
      exact ⟨_, List.mem_cons_self, rfl, rfl⟩
  | branched hgranted' =>
      cases hgranted.symm.trans hgranted'
      exact ⟨_, List.mem_cons_self, rfl, rfl⟩
  | published hgranted' _ _ hhappening =>
      cases hgranted.symm.trans hgranted'
      refine ⟨_, List.mem_cons_self, ?_⟩
      rcases hhappening with rfl | rfl
      · exact ⟨rfl, rfl⟩
      · exact ⟨rfl, rfl⟩

theorem WritesBack.exists_branch (hphase : m.WritesBack m' log)
    (htold : isTold log = true) {happening : Happening} (hmem : happening ∈ log)
    (hkind : happening.kind = .branchTaken) :
    ∃ station ins, m.bank.granted? = some station ∧
      station.instruction? = some ins ∧ ins.opcode.isBranch = true ∧
      happening.station? = some station.name := by
  cases hphase with
  | idle => contradiction
  | empty => contradiction
  | broken _ _ huntold =>
      rw [huntold] at htold
      contradiction
  | stored =>
      rw [List.mem_singleton.mp hmem] at hkind
      contradiction
  | @branched station ins hgranted hins hform =>
      refine ⟨station, ins, hgranted, hins, by simp [Opcode.isBranch, hform], ?_⟩
      obtain ⟨way, hlog, hway⟩ := m.redirect_log station ins
      rw [hlog] at hmem
      rcases List.mem_cons.mp hmem with rfl | hmem
      · contradiction
      · rw [List.mem_singleton.mp hmem]
        rcases hway with ⟨_, _, _, _, rfl⟩ | ⟨_, _, rfl⟩ | ⟨_, _, rfl⟩
        · rfl
        · rfl
        · rfl
  | published hgranted hins hvalue hhappening =>
      rcases List.mem_cons.mp hmem with rfl | hreceived
      · rcases hhappening with rfl | rfl
        · contradiction
        · contradiction
      · obtain ⟨_, -, rfl⟩ := List.mem_map.mp hreceived
        contradiction

theorem Carries.begin (h : m.Carries name ins) : m.begin.Carries name ins := by
  obtain ⟨station, hstation, hbusy, hins⟩ := h
  have hwork := station.sameWork_endPause
  refine ⟨station.endPause, ?_, hwork.busy.trans hbusy,
    hwork.instruction?.trans hins⟩
  rw [station?_begin, hstation]
  rfl

/-- An instruction that is not written back stays where it is. -/
theorem Carries.writesBack (h : m.Carries name ins)
    (hphase : m.WritesBack m' log) (htold : isTold log = true)
    (hdistinct : m.bank.Distinct)
    (hkept : ∀ happening ∈ log, happening.kind = .writeback →
      happening.station? ≠ some name) : m'.Carries name ins := by
  obtain ⟨station, hstation, hbusy, hins⟩ := h
  obtain ⟨other, hother, _, _, _, rfl⟩ :=
    hphase.kept htold hdistinct hstation fun granted hgranted heq => by
      obtain ⟨happening, hmem, hkind, hname⟩ :=
        hphase.exists_writeback htold hgranted
      exact hkept happening hmem hkind (heq ▸ hname)
  exact ⟨_, hother, hbusy, hins⟩

theorem Carries.issues (h : m.Carries name ins) (hphase : m.Issues m' log)
    (hdistinct : m.bank.Distinct) : m'.Carries name ins := by
  obtain ⟨station, hstation, hbusy, hins⟩ := h
  exact ⟨station, hphase.station?_of_busy hdistinct hstation hbusy, hbusy, hins⟩

theorem Carries.execute (h : m.Carries name ins) :
    m.execute.1.Carries name ins := by
  obtain ⟨station, hstation, hbusy, hins⟩ := h
  obtain ⟨other, hother, hstep⟩ := exists_stepped_execute hstation
  have hwork := hstep.sameWork
  exact ⟨other, hother, hwork.busy.trans hbusy, hwork.instruction?.trans hins⟩

/-- A machine since the issue of an instruction, with what has been told since.
As long as the instruction is not written back it is in its station, and unless
another station takes a branch the place in the program goes on with each
issue. -/
structure Transit (program : List Instruction) (name : String)
    (ins : Instruction) (place : Nat) (m : Machine) (since : List Happening) :
    Prop where
  sound : m.Sound
  works : m.WorksOn program
  carries : (∀ happening ∈ since, happening.kind = .writeback →
    happening.station? ≠ some name) → m.Carries name ins
  counted : (∀ happening ∈ since, happening.kind = .writeback →
    happening.station? ≠ some name) →
      (∀ happening ∈ since, happening.kind = .branchTaken →
        happening.station? = some name) →
      m.issuedCount = place + 1 + issueCount since

/-- An instruction that is issued comes from its place in the program, and is on
its way then. -/
theorem transit_issued (hsound : m.Sound) (hworks : m.WorksOn program)
    (hphase : m.Issues m' log) (hlog : log = [.issued name ins]) :
    program[m.issuedCount]? = some ins ∧
      Transit program name ins m.issuedCount m' [] := by
  have hsound' := hsound.issues hphase
  have hworks' := hworks.issues hphase hsound.distinct
  cases hphase with
  | drained => nomatch hlog
  | stalled => nomatch hlog
  | @issued next rest station hqueue hfree =>
      cases hlog
      have hhead : m.program[m.issuedCount]? = some next := by
        rw [← List.head?_drop, ← hworks.queue_eq, hqueue]
        rfl
      refine ⟨?_, hsound', hworks', fun _ => ?_, fun _ _ => rfl⟩
      · rw [← hworks.program_eq, List.getElem?_map, hhead]
        rfl
      · refine ⟨m.occupied station next, ?_, rfl, rfl⟩
        rw [station?_occupied hsound.distinct hfree, if_pos rfl]

theorem Transit.begin (h : Transit program name ins place m since) :
    Transit program name ins place m.begin (since ++ [.cycleStarted]) where
  sound := h.sound.begin
  works := h.works.begin
  carries := fun hkept => (h.carries (List.forall_mem_append.mp hkept).1).begin
  counted := fun hkept hjumps => by
    rw [issueCount_append]
    exact h.counted (List.forall_mem_append.mp hkept).1
      (List.forall_mem_append.mp hjumps).1

theorem Transit.writesBack (h : Transit program name ins place m since)
    (hphase : m.WritesBack m' log) (htold : isTold log = true) :
    Transit program name ins place m' (since ++ log) where
  sound := h.sound.writesBack hphase
  works := h.works.writesBack hphase htold h.sound.distinct
  carries := fun hkept => by
    obtain ⟨hbefore, hnow⟩ := List.forall_mem_append.mp hkept
    exact (h.carries hbefore).writesBack hphase htold h.sound.distinct hnow
  counted := fun hkept hjumps => by
    obtain ⟨hkeptBefore, hkeptNow⟩ := List.forall_mem_append.mp hkept
    obtain ⟨hjumpsBefore, hjumpsNow⟩ := List.forall_mem_append.mp hjumps
    -- the station itself takes no branch without being written back
    have hnone : ∀ happening ∈ log, happening.kind ≠ .branchTaken := by
      intro happening hmem hkind
      obtain ⟨station, _, hgranted, -, -, hname⟩ :=
        hphase.exists_branch htold hmem hkind
      obtain ⟨ended, hended, hends, hendedName⟩ :=
        hphase.exists_writeback htold hgranted
      have hsame := hname.symm.trans (hjumpsNow happening hmem hkind)
      exact hkeptNow ended hended hends (hendedName.trans hsame)
    rw [issueCount_append, hphase.issueCount_eq htold,
      hphase.issuedCount_eq htold hnone, h.counted hkeptBefore hjumpsBefore]
    rfl

theorem Transit.issues (h : Transit program name ins place m since)
    (hphase : m.Issues m' log) :
    Transit program name ins place m' (since ++ log) where
  sound := h.sound.issues hphase
  works := h.works.issues hphase h.sound.distinct
  carries := fun hkept =>
    (h.carries (List.forall_mem_append.mp hkept).1).issues hphase
      h.sound.distinct
  counted := fun hkept hjumps => by
    rw [issueCount_append, hphase.issuedCount_eq,
      h.counted (List.forall_mem_append.mp hkept).1
        (List.forall_mem_append.mp hjumps).1, Nat.add_assoc]

theorem Transit.execute (h : Transit program name ins place m since) :
    Transit program name ins place m.execute.1 (since ++ m.execute.2) where
  sound := h.sound.execute
  works := h.works.execute
  carries := fun hkept =>
    (h.carries (List.forall_mem_append.mp hkept).1).execute
  counted := fun hkept hjumps => by
    rw [issueCount_append, issueCount_execute]
    exact h.counted (List.forall_mem_append.mp hkept).1
      (List.forall_mem_append.mp hjumps).1

theorem Transit.completes (h : Transit program name ins place m since)
    (hcycle : m.Completes m' log) :
    Transit program name ins place m' (since ++ log) := by
  obtain ⟨hwrites, htold, hissues, -⟩ := hcycle
  have hafter := ((h.begin.writesBack hwrites htold).issues hissues).execute
  simpa using hafter

/-! ## One station for branches -/

/-- Where a branch is on its way, the only station for branches is at work. -/
theorem Carries.of_pool (h : m.Carries name ins) (hsound : m.Sound)
    (hone : m.HasOne .int) (hbranch : ins.opcode.isBranch = true)
    {station : Station} (hmem : station ∈ m.bank) (hpool : station.pool = .int) :
    station.name = name ∧ station.busy = true := by
  obtain ⟨carrier, hcarrier, hbusy, hins⟩ := h
  obtain ⟨held, hheld, hprogress⟩ := (hsound.station hcarrier).working hbusy
  cases hins.symm.trans hheld
  have hsame := hone.eq_of_mem hsound.distinct hmem
    (Bank.mem_of_station? hcarrier) hpool
    (hprogress.pool.trans (Opcode.pool_of_isBranch hbranch))
  rw [hsame]
  exact ⟨Bank.name_of_station? hcarrier, hbusy⟩

/-- A branch on its way to the only station for branches, which what follows it
in the program needs also: as long as it is not written back nothing is issued,
and no branch is taken. -/
structure LoneTransit (program : List Instruction) (name : String)
    (ins : Instruction) (place : Nat) (m : Machine) (since : List Happening) :
    Prop extends Transit program name ins place m since where
  one : m.HasOne .int
  quiet : (∀ happening ∈ since, happening.kind = .writeback →
    happening.station? ≠ some name) →
      (∀ happening ∈ since, happening.kind ≠ .branchTaken) ∧
        issueCount since = 0

theorem LoneTransit.begin (h : LoneTransit program name ins place m since) :
    LoneTransit program name ins place m.begin (since ++ [.cycleStarted]) where
  toTransit := h.toTransit.begin
  one := h.one.of_map_place_eq (map_place_begin m)
  quiet := fun hkept => by
    obtain ⟨hjumps, hnone⟩ := h.quiet (List.forall_mem_append.mp hkept).1
    rw [issueCount_append, hnone, List.forall_mem_append]
    exact ⟨⟨hjumps, by simp [Happening.kind]⟩, rfl⟩

theorem LoneTransit.writesBack (h : LoneTransit program name ins place m since)
    (hbranch : ins.opcode.isBranch = true) (hphase : m.WritesBack m' log)
    (htold : isTold log = true) :
    LoneTransit program name ins place m' (since ++ log) where
  toTransit := h.toTransit.writesBack hphase htold
  one := h.one.of_map_place_eq (map_place_writesBack hphase)
  quiet := fun hkept => by
    obtain ⟨hbefore, hnow⟩ := List.forall_mem_append.mp hkept
    obtain ⟨hjumps, hnone⟩ := h.quiet hbefore
    rw [issueCount_append, hnone, hphase.issueCount_eq htold,
      List.forall_mem_append]
    refine ⟨⟨hjumps, fun happening hmem hkind => ?_⟩, rfl⟩
    -- it would be the branch itself that had the bus
    obtain ⟨station, other, hgranted, hother, hjump, -⟩ :=
      hphase.exists_branch htold hmem hkind
    obtain ⟨hstation, hbusy, -⟩ := mem_of_granted? hgranted
    obtain ⟨held, hheld, hprogress⟩ := (h.sound.station
      (station?_granted h.sound.distinct hgranted)).working hbusy
    cases hother.symm.trans hheld
    have hname := ((h.carries hbefore).of_pool h.sound h.one hbranch hstation
      (hprogress.pool.trans (Opcode.pool_of_isBranch hjump))).1
    obtain ⟨ended, hended, hends, hnamed⟩ :=
      hphase.exists_writeback htold hgranted
    exact hnow ended hended hends (hname ▸ hnamed)

theorem LoneTransit.issues (h : LoneTransit program name ins place m since)
    (hbranch : ins.opcode.isBranch = true)
    (hnext : ∀ next, program[place + 1]? = some next → next.opcode.pool = .int)
    (hphase : m.Issues m' log) :
    LoneTransit program name ins place m' (since ++ log) where
  toTransit := h.toTransit.issues hphase
  one := h.one.of_map_place_eq (map_place_issues hphase)
  quiet := fun hkept => by
    have hbefore := (List.forall_mem_append.mp hkept).1
    obtain ⟨hjumps, hnone⟩ := h.quiet hbefore
    rw [issueCount_append, hnone, List.forall_mem_append]
    cases hphase with
    | drained => exact ⟨⟨hjumps, by simp⟩, rfl⟩
    | stalled => exact ⟨⟨hjumps, by simp [Happening.kind]⟩, rfl⟩
    | @issued next rest station hqueue hfree =>
        have hplace : m.issuedCount = place + 1 := by
          rw [h.counted hbefore fun happening hmem hkind =>
            absurd hkind (hjumps happening hmem), hnone]
        have hhead : m.program[place + 1]? = some next := by
          rw [← hplace, ← List.head?_drop, ← h.works.queue_eq, hqueue]
          rfl
        have hfollows : program[place + 1]? = some next.instruction := by
          rw [← h.works.program_eq, List.getElem?_map, hhead]
          rfl
        obtain ⟨hstation, hpool, hidle⟩ := mem_of_free? hfree
        have hbusy := ((h.carries hbefore).of_pool h.sound h.one hbranch hstation
          (hpool.trans (hnext _ hfollows))).2
        rw [hidle] at hbusy
        contradiction

theorem LoneTransit.execute (h : LoneTransit program name ins place m since) :
    LoneTransit program name ins place m.execute.1 (since ++ m.execute.2) where
  toTransit := h.toTransit.execute
  one := h.one.of_map_place_eq (map_place_execute m)
  quiet := fun hkept => by
    obtain ⟨hjumps, hnone⟩ := h.quiet (List.forall_mem_append.mp hkept).1
    rw [issueCount_append, hnone, issueCount_execute, List.forall_mem_append]
    refine ⟨⟨hjumps, fun happening hmem heq => ?_⟩, rfl⟩
    have hexecution := isExecution_of_mem_execute hmem
    rw [heq] at hexecution
    nomatch hexecution

theorem LoneTransit.completes (h : LoneTransit program name ins place m since)
    (hbranch : ins.opcode.isBranch = true)
    (hnext : ∀ next, program[place + 1]? = some next → next.opcode.pool = .int)
    (hcycle : m.Completes m' log) :
    LoneTransit program name ins place m' (since ++ log) := by
  obtain ⟨hwrites, htold, hissues, -⟩ := hcycle
  have hafter := ((h.begin.writesBack hbranch hwrites htold).issues hbranch hnext
    hissues).execute
  simpa using hafter

/-! ## At the bus -/

/-- A branch whose comparison holds goes to its destination, if the program has
an instruction there. -/
theorem redirect_of_taken {station : Station} {target : Nat}
    (htaken : ins.opcode.taken station.j.value station.k.value = true)
    (htarget : (m.issuedCount : Int) + ins.constant = target) :
    m.redirect station ins =
      match m.program[target]? with
      | none => (m, [.outOfRange station.name target m.program.length])
      | some next =>
        ({ m with queue := m.program.drop target, issuedCount := target },
          [.taken station.name target next.instruction station.j.value
            station.k.value]) := by
  have hnonneg : ¬ (target : Int) < 0 := by omega
  unfold redirect
  dsimp only
  rw [htaken, htarget, if_neg hnonneg, Int.toNat_natCast]
  rfl

/-- What a branch does and tells at write-back. -/
theorem writeback_of_branch {station : Station}
    (hgranted : m.bank.granted? = some station)
    (hins : station.instruction? = some ins)
    (hbranch : ins.opcode.isBranch = true)
    (htold : isTold m.writeback.2 = true) :
    m.writeback = ((m.redirect station ins).1.released,
      .resolved station.name ins :: (m.redirect station ins).2) := by
  have hform : ins.opcode.form = .branch := by
    simpa [Opcode.isBranch] using hbranch
  have hphase := m.writeback_writesBack
  generalize m.writeback = result at hphase htold ⊢
  obtain ⟨m', log⟩ := result
  cases hphase with
  | idle hnone =>
      rw [hgranted] at hnone
      contradiction
  | empty => contradiction
  | broken _ _ huntold =>
      rw [huntold] at htold
      contradiction
  | stored hgranted' hins' hstore =>
      cases hgranted.symm.trans hgranted'
      cases hins.symm.trans hins'
      cases hform.symm.trans hstore
  | branched hgranted' hins' =>
      cases hgranted.symm.trans hgranted'
      cases hins.symm.trans hins'
      rfl
  | published hgranted' hins' hvalue =>
      cases hgranted.symm.trans hgranted'
      cases hins.symm.trans hins'
      rw [product?, hform] at hvalue
      contradiction

end Machine

/-! ## Branches in runs -/

namespace Simulation

/-- A branch has gone to a place in the program at the write-back between two
boundaries, or has not gone there since it is beyond the end. -/
inductive Lands (program : List Instruction) (before behind : Simulation)
    (station : Station) (ins : Instruction) (target : Nat) : Prop where
  | jumped {next : Instruction} {rest : List Happening}
      (hnext : program[target]? = some next)
      (htold : behind.happenings = before.happenings ++
        .cycleStarted :: .resolved station.name ins ::
        .taken station.name target next station.j.value station.k.value :: rest)
      (hqueue : before.machine.atIssue.queue.map (·.instruction) =
        program.drop target)
      (hplace : before.machine.atIssue.issuedCount = target)
  | stayed {rest : List Happening} (hend : program.length ≤ target)
      (htold : behind.happenings = before.happenings ++
        .cycleStarted :: .resolved station.name ins ::
        .outOfRange station.name target program.length :: rest)
      (hqueue : before.machine.atIssue.queue = before.machine.queue)
      (hplace : before.machine.atIssue.issuedCount = before.machine.issuedCount)

/-- Behind one boundary of a run an instruction is issued to a station, when the
place in the program is the given one; behind another one it has the bus.  In
between the given things are told, and it is not written back. -/
structure Flight (issuing ending : Simulation) (name : String)
    (ins : Instruction) (place : Nat) (between : List Happening) : Prop where
  issued : issuing.machine.atIssue.issue.2 = [.issued name ins]
  place_eq : issuing.machine.atIssue.issuedCount = place
  run : ∃ cycles next, issuing.advance = .ok next ∧
    advanceBy cycles next = .ok ending
  told : ending.happenings = issuing.happenings ++
    (.cycleStarted :: issuing.machine.begin.writeback.2 ++
      .issued name ins :: between)
  kept : ∀ happening ∈ between, happening.kind = .writeback →
    happening.station? ≠ some name

variable {sim sim' issuing ending final : Simulation} {name : String}
  {ins : Instruction} {place : Nat} {between : List Happening}
  {program : List Instruction} {station : Station} {target : Nat}

/-- What completed cycles keep of a machine and of what has been told since some
point holds along a run. -/
theorem advanceBy_since {P : Machine → List Happening → Prop}
    (hcycle : ∀ {m m' since log}, m.Completes m' log → P m since →
      P m' (since ++ log)) {count : Nat} {since : List Happening}
    (hrun : advanceBy count sim = .ok sim') (h : P sim.machine since) :
    ∃ log, sim'.happenings = sim.happenings ++ log ∧
      P sim'.machine (since ++ log) := by
  let Q : Machine → List Happening → Prop := fun m past =>
    ∃ log, past = sim.happenings ++ log ∧ P m (since ++ log)
  refine advanceBy_induction (P := Q) ?_ hrun ⟨[], ?_, ?_⟩
  · rintro m m' past log hcompletes ⟨before, rfl, hbefore⟩
    refine ⟨before ++ log, List.append_assoc _ _ _, ?_⟩
    rw [← List.append_assoc]
    exact hcycle hcompletes hbefore
  · exact (List.append_nil _).symm
  · rwa [List.append_nil]

/-- What holds of an instruction when it was issued, and is kept by execution and
by completed cycles, holds of it with what was told since. -/
theorem Flight.induction {P : Machine → List Happening → Prop}
    (h : Flight issuing ending name ins place between)
    (hissued : P issuing.machine.atIssue.issue.1 [])
    (hexecute : ∀ {m}, P m [] → P m.execute.1 m.execute.2)
    (hcycle : ∀ {m m' since log}, m.Completes m' log → P m since →
      P m' (since ++ log)) : P ending.machine between := by
  obtain ⟨cycles, next, hadvance, hrun⟩ := h.run
  obtain ⟨htold, rfl⟩ := advance_eq_ok_iff.mp hadvance
  have hsplit := Machine.advance_of_told (Machine.isTold_writeback htold)
  have hnext : P issuing.cycle.machine
      issuing.machine.atIssue.issue.1.execute.2 := by
    rw [machine_cycle, hsplit]
    exact hexecute hissued
  obtain ⟨log, hlog, hafter⟩ := advanceBy_since hcycle hrun hnext
  have hissued' : issuing.machine.begin.writeback.1.issue.2 =
      [.issued name ins] := h.issued
  have hboth := h.told.symm.trans hlog
  rw [happenings_cycle, takeWhile_isTellable_of_isTold htold, hsplit,
    hissued'] at hboth
  have hbetween : between =
      issuing.machine.begin.writeback.1.issue.1.execute.2 ++ log := by
    simpa [List.append_assoc] using hboth
  rw [hbetween]
  exact hafter

theorem Flight.start {config : Config} {past : List Happening}
    (h : Flight issuing ending name ins place between)
    (hunderway : Machine.Underway config program issuing.machine past) :
    program[place]? = some ins ∧
      Machine.Transit program name ins place issuing.machine.atIssue.issue.1 [] ∧
      issuing.machine.atIssue.issue.1.bank.map Machine.place =
        (Machine.create config []).bank.map Machine.place := by
  obtain ⟨_, next, hadvance, -⟩ := h.run
  have hwritten := Machine.isTold_writeback (advance_eq_ok_iff.mp hadvance).1
  have hatIssue : Machine.Underway config program issuing.machine.atIssue _ :=
    hunderway.begin.writesBack issuing.machine.begin.writeback_writesBack hwritten
  have hissues := issuing.machine.atIssue.issue_issues
  have hissued := Machine.transit_issued hatIssue.sound hatIssue.works hissues
    h.issued
  rw [h.place_eq] at hissued
  exact ⟨hissued.1, hissued.2,
    (Machine.map_place_issues hissues).trans hatIssue.places⟩

/-- What is issued is on its way until it has the bus. -/
theorem Flight.transit {config : Config} {past : List Happening}
    (h : Flight issuing ending name ins place between)
    (hunderway : Machine.Underway config program issuing.machine past) :
    program[place]? = some ins ∧
      Machine.Transit program name ins place ending.machine between := by
  obtain ⟨hins, hissued, -⟩ := h.start hunderway
  exact ⟨hins, h.induction hissued (fun h => h.execute)
    fun hcycle h => h.completes hcycle⟩

/-- A program of which every branch is the last instruction, or followed by one
for the stations of branches. -/
def FollowsBranches (program : List Instruction) : Prop :=
  ∀ place branch next, program[place]? = some branch →
    branch.opcode.isBranch = true → program[place + 1]? = some next →
    next.opcode.pool = .int

/-- A branch that is alone in the stations for branches stays alone. -/
theorem Flight.loneTransit {config : Config} {past : List Happening}
    (h : Flight issuing ending name ins place between)
    (hunderway : Machine.Underway config program issuing.machine past)
    (hbranch : ins.opcode.isBranch = true)
    (hone : config.value .numIntStations = 1)
    (hfollows : FollowsBranches program) :
    Machine.LoneTransit program name ins place ending.machine between := by
  obtain ⟨hins, hissued, hplaces⟩ := h.start hunderway
  have hnext : ∀ next, program[place + 1]? = some next →
      next.opcode.pool = .int :=
    fun next => hfollows place ins next hins hbranch
  have hlone : Machine.LoneTransit program name ins place
      issuing.machine.atIssue.issue.1 [] :=
    { hissued with
      one := (Machine.hasOne_create hone []).of_map_place_eq hplaces
      quiet := fun _ => ⟨fun _ hmem => absurd hmem List.not_mem_nil, rfl⟩ }
  exact h.induction hlone (fun h => h.execute)
    fun hcycle h => h.completes hbranch hnext hcycle

/-- A taken branch at the bus lands as far behind the place in the program as its
constant says. -/
theorem lands_of_target (hworks : ending.machine.WorksOn program)
    (hgranted : ending.machine.begin.bank.granted? = some station)
    (hins : station.instruction? = some ins)
    (hbranch : ins.opcode.isBranch = true)
    (htaken : ins.opcode.taken station.j.value station.k.value = true)
    (htarget : (ending.machine.issuedCount : Int) + ins.constant = target)
    (hfinal : ending.advance = .ok final) :
    Lands program ending final station ins target := by
  obtain ⟨htold, rfl⟩ := advance_eq_ok_iff.mp hfinal
  have hwritten := Machine.isTold_writeback htold
  have hwriteback :=
    Machine.writeback_of_branch hgranted hins hbranch hwritten
  have hredirect := Machine.redirect_of_taken htaken
    (m := ending.machine.begin) htarget
  have hlength := hworks.length_program
  have hissue : ending.machine.atIssue = ending.machine.begin.writeback.1 := rfl
  obtain ⟨rest, hrest⟩ : ∃ rest, ending.cycle.happenings =
      ending.happenings ++
        (.cycleStarted :: ending.machine.begin.writeback.2 ++ rest) := by
    refine ⟨ending.machine.begin.writeback.1.issue.2 ++
      ending.machine.begin.writeback.1.issue.1.execute.2, ?_⟩
    rw [happenings_cycle, takeWhile_isTellable_of_isTold htold,
      Machine.advance_of_told hwritten, List.append_assoc]
  cases hnext : ending.machine.begin.program[target]? with
  | none =>
      rw [hnext] at hredirect
      dsimp only at hredirect
      rw [hredirect] at hwriteback
      have hend : program.length ≤ target :=
        hlength ▸ List.getElem?_eq_none_iff.mp hnext
      have hsize : ending.machine.begin.program.length = program.length := hlength
      rw [hwriteback, hsize] at hrest
      refine .stayed hend hrest ?_ ?_
      · rw [hissue, hwriteback]
        rfl
      · rw [hissue, hwriteback]
        rfl
  | some next =>
      rw [hnext] at hredirect
      dsimp only at hredirect
      rw [hredirect] at hwriteback
      have hnext' : program[target]? = some next.instruction := by
        rw [← hworks.program_eq, List.getElem?_map]
        exact congrArg (Option.map (·.instruction)) hnext
      rw [hwriteback] at hrest
      refine .jumped hnext' hrest ?_ ?_
      · rw [hissue, hwriteback, ← hworks.program_eq]
        exact List.map_drop
      · rw [hissue, hwriteback]
        rfl

/-- Branches to labels land where reading the source says.  A source has a label
behind a number of instructions, and a branch that names it is issued and taken.
If no other branch is taken in between, it lands on the label, or as far behind
it as instructions were issued in between, and nothing changes if that is beyond
the end.  With one station for branches, in a program whose branches are followed
by instructions for it, it lands on the label. -/
theorem label_branch_lands (config : Config) (preload : List (Int × Int))
    (registers : List (String × Int)) (words : List (Int × Int))
    {allowLabels : Bool} {source : List (List Char)}
    {assembled : Assembly.Assembled} {label : List Char}
    {index place cycles : Nat} {issuing ending final : Simulation}
    {station : Station} {ins : Instruction} {between : List Happening}
    (hload : Assembly.assemble allowLabels source = .ok assembled)
    (hlabel : Assembly.DefinesLabel source label index)
    (hnames : Assembly.NamesLabel source place label)
    (hrun : advanceBy cycles ((prepared config preload registers words).act
      (.load assembled.program)) = .ok issuing)
    (hflight : Flight issuing ending station.name ins place between)
    (hbranch : ins.opcode.isBranch = true)
    (hgranted : ending.machine.begin.bank.granted? = some station)
    (htaken : ins.opcode.taken station.j.value station.k.value = true)
    (hfinal : ending.advance = .ok final) :
    ((∀ happening ∈ between, happening.kind = .branchTaken →
        happening.station? = some station.name) →
      Lands assembled.program ending final station ins
        (index + issueCount between)) ∧
    (config.value .numIntStations = 1 → FollowsBranches assembled.program →
      issueCount between = 0 ∧
        Lands assembled.program ending final station ins index) := by
  have hloaded : ((prepared config preload registers words).act
      (.load assembled.program)).happenings = [] :=
    happenings_prepared config preload registers words
  have hunderway : Machine.Underway config assembled.program issuing.machine
      issuing.happenings := by
    refine advanceBy_induction (fun hcycle h => h.completes hcycle) hrun ?_
    rw [hloaded]
    exact underway_loaded config preload registers words assembled.program
  obtain ⟨hins, hend⟩ := hflight.transit hunderway
  have hconstant :=
    Assembly.constant_of_namesLabel hload hlabel hnames hins hbranch
  obtain ⟨carrier, hcarrier, -, hcarried⟩ := (hend.carries hflight.kept).begin
  cases (Machine.station?_granted hend.sound.begin.distinct
    hgranted).symm.trans hcarrier
  have hlands : ∀ {target : Nat}, (target : Int) =
      ending.machine.issuedCount + ins.constant →
      Lands assembled.program ending final station ins target :=
    fun htarget => lands_of_target hend.works hgranted hcarried hbranch htaken
      htarget.symm hfinal
  refine ⟨fun hjumps => hlands ?_, fun hone hfollows => ?_⟩
  · rw [hend.counted hflight.kept hjumps, hconstant]
    omega
  · have hlone := hflight.loneTransit hunderway hbranch hone hfollows
    obtain ⟨hjumps, hnone⟩ := hlone.quiet hflight.kept
    refine ⟨hnone, hlands ?_⟩
    rw [hend.counted hflight.kept fun happening hmem hkind =>
      absurd hkind (hjumps happening hmem), hnone, hconstant]
    omega

/-- With one station for branches a branch over an instruction lands on its
label. -/
theorem label_branch_lands_skip :
    let config : Config :=
      ⟨fun parameter => if parameter = .numIntStations then 1
        else parameter.standard, by decide⟩
    let source := ["BEQ R0, R0, skip".toList, "ADDI R1, R0, 1".toList,
      "skip: ADDI R2, R0, 2".toList]
    ∃ assembled issuing ending final station ins between,
      Assembly.assemble true source = .ok assembled ∧
        advanceBy 0 ((prepared config [] [] []).act
          (.load assembled.program)) = .ok issuing ∧
        Flight issuing ending station.name ins 0 between ∧
        ending.advance = .ok final ∧
        issueCount between = 0 ∧
        Lands assembled.program ending final station ins 2 := by
  intro config source
  let branch : Instruction :=
    { opcode := .beq, src1 := "R0", src2 := "R0", immediate := some 1,
      text := "BEQ R0, R0, skip" }
  let program : List Instruction :=
    [branch,
      { opcode := .addi, dest := "R1", src1 := "R0", immediate := some 1,
        text := "ADDI R1, R0, 1" },
      { opcode := .addi, dest := "R2", src1 := "R0", immediate := some 2,
        text := "ADDI R2, R0, 2" }]
  let loaded := (prepared config [] [] []).act (.load program)
  have hprogram : (Assembly.assemble true source).toOption.map (·.program) =
      some program := by
    decide +kernel
  obtain ⟨assembled, hassembled, hsame⟩ := Option.map_eq_some_iff.mp hprogram
  have hload := Assembly.eq_ok_of_toOption hassembled
  have htold : isTold loaded.machine.advance.2 = true ∧
      isTold loaded.cycle.machine.advance.2 = true ∧
      isTold loaded.cycle.cycle.machine.advance.2 = true := by
    decide +kernel
  have hbus : (loaded.cycle.cycle.machine.begin.bank.granted?.map fun station =>
      (station.name, branch.opcode.taken station.j.value station.k.value)) =
        some ("Int0", true) := by
    decide +kernel
  obtain ⟨station, hgranted, hstation⟩ := Option.map_eq_some_iff.mp hbus
  obtain ⟨hname, htaken⟩ := Prod.mk.inj hstation
  have hflight : Flight loaded loaded.cycle.cycle station.name branch 0
      (loaded.cycle.cycle.happenings.drop 2) := by
    rw [hname]
    refine ⟨by decide +kernel, by decide +kernel, ⟨1, loaded.cycle, ?_, ?_⟩,
      by decide +kernel, by decide +kernel⟩
    · exact advance_eq_ok_iff.mpr ⟨htold.1, rfl⟩
    · rw [advanceBy, advance_eq_ok_iff.mpr ⟨htold.2.1, rfl⟩]
      rfl
  have hfinal : loaded.cycle.cycle.advance = .ok loaded.cycle.cycle.cycle :=
    advance_eq_ok_iff.mpr ⟨htold.2.2, rfl⟩
  have hrun : advanceBy 0 ((prepared config [] [] []).act
      (.load assembled.program)) = .ok loaded := by
    rw [hsame]
    rfl
  have hlabel : Assembly.DefinesLabel source "skip".toList 2 :=
    ⟨source.take 2, "skip: ADDI R2, R0, 2".toList, [], rfl, by decide +kernel,
      by decide +kernel⟩
  have hnames : Assembly.NamesLabel source 0 "skip".toList :=
    ⟨"BEQ R0, R0, skip".toList, by decide +kernel, by decide +kernel⟩
  have hfollows : FollowsBranches assembled.program := by
    rw [hsame]
    intro place ins next hins hbranch hnext
    rcases place with _ | _ | _ | place
    · cases hnext
      rfl
    · cases hins
      cases hbranch
    · cases hins
      cases hbranch
    · cases hins
  obtain ⟨hnone, hlands⟩ := (label_branch_lands config [] [] [] hload hlabel
    hnames hrun hflight rfl hgranted htaken hfinal).2 rfl hfollows
  exact ⟨assembled, loaded, _, _, station, branch, _, hload, hrun, hflight,
    hfinal, hnone, hlands⟩

end Simulation

end OutOfOrder
