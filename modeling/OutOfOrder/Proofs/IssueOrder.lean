import OutOfOrder.Proofs.Slots

/-!
# The order of issue

The instructions to be issued are a part of the program, its end from the place
on that the machine has reached.  Issue takes the first one off and goes on to
the next place.  A branch that is taken, or a program that is loaded, goes to
another place, and the part is the end of the program from there.

So between two such jumps a stretch of the program is issued as it stands, with
nothing left out and nothing twice.
-/

namespace OutOfOrder

/-! ## Stretches -/

/-- What is issued between two jumps: the program, the place in it to which the
first jump went, and the instructions that have been issued since. -/
structure Stretch where
  program : List Instruction
  start : Nat
  issued : List Instruction
  deriving DecidableEq, Repr

namespace Stretch

/-- The stretch has begun at the first instruction of its program or at another
one, and the instructions issued are those that follow there one after
another. -/
structure InOrder (stretch : Stretch) : Prop where
  start : stretch.start = 0 ∨ stretch.start < stretch.program.length
  issued : stretch.issued <+: stretch.program.drop stretch.start

/-- The place behind the last instruction issued. -/
def place (stretch : Stretch) : Nat :=
  stretch.start + stretch.issued.length

def add (stretch : Stretch) (ins : Instruction) : Stretch :=
  { stretch with issued := stretch.issued ++ [ins] }

theorem InOrder.add {stretch : Stretch} (h : stretch.InOrder)
    {ins : Instruction} (hins : stretch.program[stretch.place]? = some ins) :
    (stretch.add ins).InOrder where
  start := h.start
  issued := by
    obtain ⟨rest, hrest⟩ := h.issued
    have hnext : (stretch.program.drop stretch.start)[stretch.issued.length]? =
        some ins := by
      rw [List.getElem?_drop]
      exact hins
    rw [← hrest, List.getElem?_append_right (Nat.le_refl _), Nat.sub_self]
      at hnext
    cases rest with
    | nil => contradiction
    | cons first later =>
        cases hnext
        exact ⟨later, (List.append_assoc _ _ _).trans hrest⟩

end Stretch

/-- The stretches of a run, the one that has not ended apart. -/
structure Itinerary where
  current : Stretch := ⟨[], 0, []⟩
  ended : List Stretch := []

namespace Itinerary

def stretches (itinerary : Itinerary) : List Stretch :=
  itinerary.current :: itinerary.ended

/-- The itinerary after a jump to a place in a program. -/
def jump (itinerary : Itinerary) (program : List Instruction) (index : Nat) :
    Itinerary :=
  ⟨⟨program, index, []⟩, itinerary.stretches⟩

/-- The itinerary after something that happened. -/
def note (itinerary : Itinerary) : Happening → Itinerary
  | .issued _ ins => { itinerary with current := itinerary.current.add ins }
  | .taken _ index _ _ _ => itinerary.jump itinerary.current.program index
  | _ => itinerary

def noteAll (itinerary : Itinerary) (log : List Happening) : Itinerary :=
  log.foldl note itinerary

theorem noteAll_append (itinerary : Itinerary) (log later : List Happening) :
    itinerary.noteAll (log ++ later) = (itinerary.noteAll log).noteAll later :=
  List.foldl_append

end Itinerary

/-- The itinerary of a run: programs that are loaded, branches that are taken,
and the instructions that are issued.  A cycle that is broken off counts with
what was done in it. -/
def Simulation.itinerary (sim : Simulation) (itinerary : Itinerary) :
    List Action → Itinerary
  | [] => itinerary
  | .load program :: rest =>
    (sim.act (.load program)).itinerary (itinerary.jump program 0) rest
  | .cycle :: rest =>
    sim.cycle.itinerary (itinerary.noteAll sim.machine.advance.2) rest
  | action :: rest => (sim.act action).itinerary itinerary rest

namespace Machine

variable {m m' : Machine} {log : List Happening} {itinerary : Itinerary}

/-! ## What is to be issued -/

/-- What is to be issued is the end of the program from the place on that has
been reached. -/
structure InTurn (m : Machine) : Prop where
  issuedCount_le : m.issuedCount ≤ m.program.length
  queue_eq : m.queue = m.program.drop m.issuedCount

/-- The current stretch is of the machine's program and has reached the machine's
place in it, and every stretch has been issued in order. -/
structure KeepsTo (m : Machine) (itinerary : Itinerary) : Prop where
  inTurn : m.InTurn
  program_eq : itinerary.current.program = m.program.map (·.instruction)
  place_eq : itinerary.current.place = m.issuedCount
  inOrder : ∀ stretch ∈ itinerary.stretches, stretch.InOrder

/-- A machine whose program and place are the same follows the same itinerary. -/
theorem KeepsTo.of_eq (h : m.KeepsTo itinerary)
    (hprogram : m'.program = m.program) (hqueue : m'.queue = m.queue)
    (hcount : m'.issuedCount = m.issuedCount) : m'.KeepsTo itinerary where
  inTurn := {
    issuedCount_le := by rw [hcount, hprogram]; exact h.inTurn.issuedCount_le
    queue_eq := by rw [hqueue, hprogram, hcount, h.inTurn.queue_eq] }
  program_eq := by rw [hprogram, h.program_eq]
  place_eq := by rw [hcount, h.place_eq]
  inOrder := h.inOrder

/-- Behind a jump nothing has been issued, and all that is to be issued follows
the place where it went. -/
theorem KeepsTo.jump (h : m.KeepsTo itinerary) {program : List Instruction}
    {index : Nat} (hprogram : m'.program.map (·.instruction) = program)
    (hindex : index = 0 ∨ index < m'.program.length)
    (hqueue : m'.queue = m'.program.drop index)
    (hcount : m'.issuedCount = index) :
    m'.KeepsTo (itinerary.jump program index) where
  inTurn := ⟨by omega, by rw [hqueue, hcount]⟩
  program_eq := hprogram.symm
  place_eq := hcount.symm
  inOrder := by
    intro stretch hmem
    rcases List.mem_cons.mp hmem with rfl | hended
    · have hlength : program.length = m'.program.length := by
        rw [← hprogram, List.length_map]
      exact ⟨hlength ▸ hindex, List.nil_prefix⟩
    · exact h.inOrder stretch hended

theorem keepsTo_create (config : Config) (preload : List (Int × Int)) :
    (create config preload).KeepsTo {} where
  inTurn := ⟨Nat.le_refl 0, rfl⟩
  program_eq := rfl
  place_eq := rfl
  inOrder := by
    intro stretch hmem
    rw [List.mem_singleton.mp hmem]
    exact ⟨.inl rfl, List.nil_prefix⟩

theorem KeepsTo.load (h : m.KeepsTo itinerary) (program : List Instruction) :
    (m.load program).KeepsTo (itinerary.jump program 0) :=
  h.jump (map_instruction_stamped m.stamps program) (.inl rfl) rfl rfl

/-- A branch that is taken jumps to its destination in the program. -/
theorem KeepsTo.redirect (h : m.KeepsTo itinerary) (station : Station)
    (ins : Instruction) :
    (m.redirect station ins).1.KeepsTo
      (itinerary.noteAll (m.redirect station ins).2) := by
  rcases m.redirect_cases station ins with
    heq | heq | ⟨index, next, -, hnext, heq⟩
  · rw [heq]
    exact h
  · rw [heq]
    exact h
  · have hlt : index < m.program.length :=
      (List.getElem?_eq_some_iff.mp hnext).1
    rw [heq]
    exact h.jump h.program_eq.symm (.inr hlt) rfl rfl

/-- What settling an instruction tells besides the way of a branch is not
noted. -/
theorem KeepsTo.settle (h : m.KeepsTo itinerary) (station : Station)
    (ins : Instruction) :
    (m.settle station ins).1.KeepsTo
      (itinerary.noteAll (m.settle station ins).2) := by
  unfold Machine.settle
  split
  · exact h.of_eq rfl rfl rfl
  · exact h.redirect station ins
  · exact h
  · exact h

theorem noteAll_publish (m : Machine) (itinerary : Itinerary)
    (producer : String) (ins : Instruction) (value : Int) :
    itinerary.noteAll (m.publish producer ins value).2 = itinerary := by
  unfold publish Itinerary.noteAll
  dsimp only
  induction m.bank.hearers producer with
  | nil => rfl
  | cons name rest ih => exact ih

theorem KeepsTo.writesBack (h : m.KeepsTo itinerary)
    (hphase : m.WritesBack m' log) : m'.KeepsTo (itinerary.noteAll log) := by
  cases hphase with
  | idle => exact h
  | empty => exact h
  | @broken station ins => exact h.settle station ins
  | stored => exact h.of_eq rfl rfl rfl
  | @branched station ins =>
      exact (h.redirect station ins).of_eq rfl rfl rfl
  | @published station ins value happening _ _ _ hhappening =>
      have hnoted : itinerary.noteAll
          (happening :: (m.released.publish station.name ins value).2) =
            itinerary := by
        rcases hhappening with rfl | rfl
        · exact noteAll_publish m.released itinerary station.name ins value
        · exact noteAll_publish m.released itinerary station.name ins value
      rw [hnoted]
      exact h.of_eq rfl rfl rfl

/-- The next instruction is the one at the place that has been reached. -/
theorem InTurn.get?_issuedCount (h : m.InTurn) {next : Stamped}
    {rest : List Stamped} (hqueue : m.queue = next :: rest) :
    m.program[m.issuedCount]? = some next ∧
      rest = m.program.drop (m.issuedCount + 1) := by
  have hdrop : m.program.drop m.issuedCount = next :: rest :=
    h.queue_eq.symm.trans hqueue
  constructor
  · have hfirst := congrArg (·[0]?) hdrop
    simpa using hfirst
  · rw [← List.tail_drop, hdrop, List.tail_cons]

theorem KeepsTo.issues (h : m.KeepsTo itinerary) (hphase : m.Issues m' log) :
    m'.KeepsTo (itinerary.noteAll log) := by
  cases hphase with
  | drained => exact h
  | stalled => exact h
  | @issued next rest station hqueue hfree =>
      obtain ⟨hnext, hrest⟩ := h.inTurn.get?_issuedCount hqueue
      have hlt : m.issuedCount < m.program.length :=
        (List.getElem?_eq_some_iff.mp hnext).1
      have hins : itinerary.current.program[itinerary.current.place]? =
          some next.instruction := by
        rw [h.program_eq, h.place_eq, List.getElem?_map, hnext]
        rfl
      exact {
        inTurn := ⟨hlt, hrest⟩
        program_eq := h.program_eq
        place_eq := by
          show itinerary.current.start +
            (itinerary.current.issued ++ [next.instruction]).length =
              m.issuedCount + 1
          rw [List.length_append, ← h.place_eq, Stretch.place, Nat.add_assoc]
          rfl
        inOrder := by
          intro stretch hmem
          rcases List.mem_cons.mp hmem with rfl | hended
          · exact (h.inOrder itinerary.current List.mem_cons_self).add hins
          · exact h.inOrder stretch (List.mem_cons_of_mem _ hended) }

theorem noteAll_of_isExecution (itinerary : Itinerary)
    (hlog : ∀ happening ∈ log, happening.kind.isExecution = true) :
    itinerary.noteAll log = itinerary := by
  refine foldl_of_isExecution (fun itinerary happening hkind => ?_) hlog itinerary
  cases happening with
  | issued => nomatch hkind
  | taken => nomatch hkind
  | _ => rfl

theorem KeepsTo.advance (h : m.KeepsTo itinerary) :
    m.advance.1.KeepsTo (itinerary.noteAll m.advance.2) := by
  have hbegun : m.begin.KeepsTo itinerary := h.of_eq rfl rfl rfl
  have hwritten := hbegun.writesBack m.begin.writeback_writesBack
  cases htold : isTold m.begin.writeback.2 with
  | false =>
      rw [advance_of_untold htold]
      exact hwritten
  | true =>
      have hissued := hwritten.issues m.begin.writeback.1.issue_issues
      have hquiet : ∀ happening ∈ m.begin.writeback.1.issue.1.execute.2,
          happening.kind.isExecution = true :=
        fun _ => isExecution_of_mem_execute
      have hnoted : itinerary.noteAll m.advance.2 =
          (itinerary.noteAll m.begin.writeback.2).noteAll
            m.begin.writeback.1.issue.2 := by
        rw [advance_of_told htold, Itinerary.noteAll_append,
          noteAll_of_isExecution _ hquiet, Itinerary.noteAll_append]
        rfl
      rw [hnoted, advance_of_told htold]
      exact hissued.of_eq rfl rfl rfl

end Machine

theorem Simulation.keepsTo_after {sim : Simulation} {itinerary : Itinerary}
    (h : sim.machine.KeepsTo itinerary) (actions : List Action) :
    (sim.after actions).machine.KeepsTo (sim.itinerary itinerary actions) := by
  induction actions generalizing sim itinerary with
  | nil => exact h
  | cons action rest ih =>
      cases action with
      | cycle =>
          have hnext : sim.cycle.machine.KeepsTo
              (itinerary.noteAll sim.machine.advance.2) := by
            rw [machine_cycle]
            exact h.advance
          exact ih hnext
      | load program => exact ih (h.load program)
      | writeRegister name value =>
          have hnext : (sim.act (.writeRegister name value)).machine.KeepsTo
              itinerary := h.of_eq rfl rfl rfl
          exact ih hnext
      | storeWord address value =>
          have hnext : (sim.act (.storeWord address value)).machine.KeepsTo
              itinerary := h.of_eq rfl rfl rfl
          exact ih hnext
      | fillBlock address =>
          have hnext : (sim.act (.fillBlock address)).machine.KeepsTo
              itinerary := h.of_eq rfl rfl rfl
          exact ih hnext

/-! ## What a cycle issues -/

/-- What the issue phase tells is of such a kind. -/
def EventKind.isAtIssue : EventKind → Bool
  | .issue | .stall => true
  | _ => false

namespace Machine

variable {m m' : Machine} {log : List Happening}

/-- What a cycle tells. -/
def told (m : Machine) : List Happening :=
  m.advance.2.takeWhile Happening.isTellable

/-- The machine behind the write-back of its next cycle. -/
def written (m : Machine) : Machine :=
  m.begin.writeback.1

/-- The next cycle is not broken off at its write-back. -/
def IsWritten (m : Machine) : Prop :=
  isTold m.begin.writeback.2 = true

/-- An instruction is the next one, and its pool has a free slot. -/
structure MayIssue (m : Machine) (next : Stamped) : Prop where
  head : m.queue.head? = some next
  room : ∃ index < m.config.value next.instruction.opcode.pool.size,
    m.FreeSlot next.instruction.opcode.pool index

/-- An instruction is the next one, and every slot of its pool is at work. -/
structure MustStall (m : Machine) (next : Stamped) : Prop where
  head : m.queue.head? = some next
  full : ∀ index < m.config.value next.instruction.opcode.pool.size,
    m.BusySlot next.instruction.opcode.pool index

/-- The next cycle gives an instruction to the station that has a name: the first
of those to be issued, to the free slot of its pool with the least number. -/
structure GivesTo (m : Machine) (name : String) (next : Stamped) : Prop where
  queue_eq : m.written.queue = next :: m.advance.1.queue
  issuedCount_eq : m.advance.1.issuedCount = m.written.issuedCount + 1
  slot : ∃ index, name = next.instruction.opcode.pool.slotName index ∧
    m.written.FirstFree next.instruction.opcode.pool index
  holder : ∃ station, m.advance.1.bank.station? name = some station ∧
    station.busy = true ∧ station.held = some next

/-- What the next cycle does with the instructions to be issued. -/
structure IssuesNext (m : Machine) : Prop where
  /-- It tells of one issue or stall at most. -/
  once : (m.told.filter (·.kind.isAtIssue)).length ≤ 1
  /-- It tells of an issue if there is a next instruction and a free slot. -/
  issue_iff : (∃ happening ∈ m.told, happening.kind = .issue) ↔
    m.IsWritten ∧ ∃ next, m.written.MayIssue next
  /-- It tells of a stall if there is a next instruction and no free slot. -/
  stall_iff : (∃ happening ∈ m.told, happening.kind = .stall) ↔
    m.IsWritten ∧ ∃ next, m.written.MustStall next
  /-- What it tells to be issued is the next instruction. -/
  gives : ∀ name ins, .issued name ins ∈ m.told →
    ∃ next, ins = next.instruction ∧ m.GivesTo name next
  /-- Without an issue everything stays to be issued. -/
  stays : (∀ happening ∈ m.told, happening.kind ≠ .issue) →
    m.advance.1.queue = m.written.queue ∧
      m.advance.1.issuedCount = m.written.issuedCount

theorem isAtIssue_redirect {station : Station} {ins : Instruction}
    {happening : Happening} (hmem : happening ∈ (m.redirect station ins).2) :
    happening.kind.isAtIssue = false := by
  obtain ⟨way, hlog, hcases⟩ := m.redirect_log station ins
  rw [hlog] at hmem
  cases List.mem_singleton.mp hmem
  rcases hcases with ⟨_, _, _, _, rfl⟩ | ⟨_, _, rfl⟩ | ⟨_, _, rfl⟩
  · rfl
  · rfl
  · rfl

theorem WritesBack.isAtIssue_eq_false (hphase : m.WritesBack m' log)
    {happening : Happening} (hmem : happening ∈ log)
    (htellable : happening.isTellable = true) :
    happening.kind.isAtIssue = false := by
  cases hphase with
  | idle => contradiction
  | empty =>
      cases List.mem_singleton.mp hmem
      contradiction
  | @broken station ins =>
      unfold settle at hmem
      split at hmem
      · cases List.mem_singleton.mp hmem
        rfl
      · rcases List.mem_cons.mp hmem with rfl | hrest
        · rfl
        · exact isAtIssue_redirect hrest
      · cases List.mem_singleton.mp hmem
        rfl
      · cases List.mem_singleton.mp hmem
        rfl
  | stored =>
      cases List.mem_singleton.mp hmem
      rfl
  | branched =>
      rcases List.mem_cons.mp hmem with rfl | hrest
      · rfl
      · exact isAtIssue_redirect hrest
  | published _ _ _ hhappening =>
      rcases List.mem_cons.mp hmem with rfl | hrest
      · rcases hhappening with rfl | rfl
        · rfl
        · rfl
      · obtain ⟨_, -, rfl⟩ := List.mem_map.mp hrest
        rfl

theorem isAtIssue_execute {happening : Happening}
    (hmem : happening ∈ m.execute.2) (htellable : happening.isTellable = true) :
    happening.kind.isAtIssue = false := by
  obtain ⟨station, -, ⟨hkind, hstation⟩, -⟩ := Bank.isStepOf_of_mem_execute hmem
  cases happening with
  | stalled => nomatch hstation
  | stuck => nomatch htellable
  | issued => nomatch hkind
  | _ => rfl

theorem Issues.filter_isAtIssue (hphase : m.Issues m' log) :
    log.filter (·.kind.isAtIssue) = log := by
  cases hphase <;> rfl

theorem Issues.length_log_le (hphase : m.Issues m' log) : log.length ≤ 1 := by
  cases hphase <;> simp

theorem Issues.issue_iff (hphase : m.Issues m' log) :
    (∃ happening ∈ log, happening.kind = .issue) ↔
      ∃ next, m.queue.head? = some next ∧
        m.bank.free? next.instruction.opcode.pool ≠ none := by
  cases hphase with
  | drained hqueue => simp [hqueue]
  | stalled hqueue hfree => simp [hqueue, hfree, Happening.kind]
  | issued hqueue hfree => simp [hqueue, hfree, Happening.kind]

theorem Issues.stall_iff (hphase : m.Issues m' log) :
    (∃ happening ∈ log, happening.kind = .stall) ↔
      ∃ next, m.queue.head? = some next ∧
        m.bank.free? next.instruction.opcode.pool = none := by
  cases hphase with
  | drained hqueue => simp [hqueue]
  | stalled hqueue hfree => simp [hqueue, hfree, Happening.kind]
  | issued hqueue hfree => simp [hqueue, hfree, Happening.kind]

theorem Issues.stays (hphase : m.Issues m' log)
    (hnone : ∀ happening ∈ log, happening.kind ≠ .issue) :
    m'.queue = m.queue ∧ m'.issuedCount = m.issuedCount := by
  cases hphase with
  | drained => exact ⟨rfl, rfl⟩
  | stalled => exact ⟨rfl, rfl⟩
  | issued => exact absurd rfl (hnone _ (List.mem_singleton.mpr rfl))

/-- The issues and stalls that a cycle tells of are those of its issue phase. -/
theorem filter_told_of_isWritten (h : m.IsWritten) :
    m.told.filter (·.kind.isAtIssue) = m.written.issue.2 := by
  have hissue := m.written.issue_issues
  have hbefore : m.begin.writeback.2.filter (·.kind.isAtIssue) = [] := by
    rw [List.filter_eq_nil_iff]
    intro happening hmem
    have htellable := List.all_eq_true.mp h happening hmem
    simp [m.begin.writeback_writesBack.isAtIssue_eq_false hmem htellable]
  have hbehind : (m.written.issue.1.execute.2.takeWhile
      Happening.isTellable).filter (·.kind.isAtIssue) = [] := by
    rw [List.filter_eq_nil_iff]
    intro happening hmem
    have htellable := List.mem_takeWhile_imp hmem
    simp [isAtIssue_execute (mem_of_mem_takeWhile_isTellable hmem) htellable]
  rw [told, takeWhile_advance h, ← written, List.filter_append,
    List.filter_append, List.filter_cons_of_neg (by decide), hbefore,
    hissue.filter_isAtIssue, hbehind, List.append_nil, List.nil_append]

theorem filter_told_of_not_isWritten (h : ¬ m.IsWritten) :
    m.told.filter (·.kind.isAtIssue) = [] := by
  have huntold : isTold m.begin.writeback.2 = false :=
    by simpa [IsWritten] using h
  rw [told, advance_of_untold huntold, List.takeWhile_cons_of_pos rfl,
    List.filter_cons_of_neg (by decide), List.filter_eq_nil_iff]
  intro happening hmem
  have htellable := List.mem_takeWhile_imp hmem
  simp [m.begin.writeback_writesBack.isAtIssue_eq_false
    (mem_of_mem_takeWhile_isTellable hmem) htellable]

theorem exists_told_iff {kind : EventKind} (hkind : kind.isAtIssue = true) :
    (∃ happening ∈ m.told, happening.kind = kind) ↔
      ∃ happening ∈ m.told.filter (·.kind.isAtIssue), happening.kind = kind := by
  constructor
  · rintro ⟨happening, hmem, rfl⟩
    exact ⟨happening, List.mem_filter.mpr ⟨hmem, hkind⟩, rfl⟩
  · rintro ⟨happening, hmem, rfl⟩
    exact ⟨happening, (List.mem_filter.mp hmem).1, rfl⟩

variable {config : Config} {next : Stamped}

theorem Placed.mayIssue_iff (h : Placed config m)
    (hdistinct : m.bank.Distinct) :
    m.MayIssue next ↔ m.queue.head? = some next ∧
      m.bank.free? next.instruction.opcode.pool ≠ none := by
  constructor
  · rintro ⟨hhead, index, hlt, hslot⟩
    refine ⟨hhead, fun hfree => ?_⟩
    have hfull := (h.free?_eq_none_iff hdistinct).mp hfree
    exact (hfull index hlt).not_freeSlot hslot
  · rintro ⟨hhead, hfree⟩
    obtain ⟨station, hstation⟩ := Option.ne_none_iff_exists'.mp hfree
    obtain ⟨index, -, hfirst⟩ := h.of_free? hdistinct hstation
    exact ⟨hhead, index, hfirst.lt, hfirst.free⟩

theorem Placed.mustStall_iff (h : Placed config m)
    (hdistinct : m.bank.Distinct) :
    m.MustStall next ↔ m.queue.head? = some next ∧
      m.bank.free? next.instruction.opcode.pool = none := by
  rw [h.free?_eq_none_iff hdistinct]
  exact ⟨fun hstall => ⟨hstall.head, hstall.full⟩, fun ⟨hhead, hfull⟩ =>
    ⟨hhead, hfull⟩⟩

/-- The instruction that is issued goes to the first free slot. -/
theorem Issues.gives {name : String} {ins : Instruction}
    (hphase : m.Issues m' log) (hplaced : Placed config m)
    (hdistinct : m.bank.Distinct) (hmem : .issued name ins ∈ log) :
    ∃ next, ins = next.instruction ∧ m.queue = next :: m'.queue ∧
      m'.issuedCount = m.issuedCount + 1 ∧
      (∃ index, name = next.instruction.opcode.pool.slotName index ∧
        m.FirstFree next.instruction.opcode.pool index) ∧
      ∃ station, m'.bank.station? name = some station ∧
        station.busy = true ∧ station.held = some next := by
  cases hphase with
  | drained => contradiction
  | stalled => nomatch List.mem_singleton.mp hmem
  | @issued next rest station hqueue hfree =>
      cases List.mem_singleton.mp hmem
      refine ⟨next, rfl, hqueue, rfl, hplaced.of_free? hdistinct hfree,
        m.occupied station next, ?_, rfl, rfl⟩
      rw [station?_occupied hdistinct hfree, if_pos rfl]

/-- What the issue phase of a cycle does, the cycle does with the instructions to
be issued. -/
theorem issuesNext_of_isWritten (hwritten : m.IsWritten)
    (hplaced : Placed config m.written) (hdistinct : m.written.bank.Distinct) :
    m.IssuesNext := by
  have hphase := m.written.issue_issues
  have hfilter := filter_told_of_isWritten hwritten
  have hadvance : m.advance.1 = m.written.issue.1.execute.1 := by
    rw [advance_of_told hwritten]
    rfl
  exact {
    once := hfilter ▸ hphase.length_log_le
    issue_iff := by
      rw [exists_told_iff rfl, hfilter, hphase.issue_iff]
      simp only [hwritten, hplaced.mayIssue_iff hdistinct, true_and]
    stall_iff := by
      rw [exists_told_iff rfl, hfilter, hphase.stall_iff]
      simp only [hwritten, hplaced.mustStall_iff hdistinct, true_and]
    gives := fun name ins hmem => by
      have hissued : .issued name ins ∈ m.written.issue.2 :=
        hfilter ▸ List.mem_filter.mpr ⟨hmem, rfl⟩
      obtain ⟨next, hins, hqueue, hcount, hslot, station, hstation, hbusy,
        hheld⟩ := hphase.gives hplaced hdistinct hissued
      -- execution leaves a station the work that it has
      obtain ⟨holder, hholder, hstep⟩ := exists_stepped_execute hstation
      refine ⟨next, hins, ?_⟩
      constructor
      · rw [hadvance]
        exact hqueue
      · rw [hadvance]
        exact hcount
      · exact hslot
      · rw [hadvance]
        exact ⟨holder, hholder, hstep.sameWork.busy.trans hbusy,
          hstep.sameWork.held.trans hheld⟩
    stays := fun hnone => by
      rw [hadvance]
      refine hphase.stays fun happening hmem => hnone happening ?_
      exact (List.mem_filter.mp (hfilter ▸ hmem)).1 }

/-- A cycle that is broken off at its write-back issues nothing. -/
theorem issuesNext_of_not_isWritten (hwritten : ¬ m.IsWritten) :
    m.IssuesNext := by
  have hfilter := filter_told_of_not_isWritten hwritten
  have hadvance : m.advance.1 = m.written := by
    rw [advance_of_untold (by simpa [IsWritten] using hwritten)]
    rfl
  exact {
    once := by simp [hfilter]
    issue_iff := by
      rw [exists_told_iff rfl, hfilter]
      simp [hwritten]
    stall_iff := by
      rw [exists_told_iff rfl, hfilter]
      simp [hwritten]
    gives := fun name ins hmem => by
      have hnone : .issued name ins ∈ m.told.filter (·.kind.isAtIssue) :=
        List.mem_filter.mpr ⟨hmem, rfl⟩
      rw [hfilter] at hnone
      contradiction
    stays := fun _ => by rw [hadvance]; exact ⟨rfl, rfl⟩ }

/-- A cycle of a sound machine, whose stations are in their places, issues the
next instruction if it can. -/
theorem Sound.issuesNext (h : m.Sound) (hplaced : Placed config m) :
    m.IssuesNext := by
  by_cases hwritten : m.IsWritten
  · have hphase := m.begin.writeback_writesBack
    exact issuesNext_of_isWritten hwritten (hplaced.begin.writesBack hphase)
      (h.begin.writesBack hphase).distinct
  · exact issuesNext_of_not_isWritten hwritten

end Machine

/-- **Instructions are issued in the order of the program.**  Along every run from
a new machine, with programs loaded and cycles gone through in any order: what is
to be issued is the end of the program from the place on that has been reached.
The next cycle issues an instruction if, behind its write-back, there is a next
one and a free slot for it, and then to the free slot with the least number; it
stalls if there is a next one and no free slot.  Between two jumps, be it to the
beginning of a program that is loaded or to the destination of a branch that is
taken, the instructions that follow there are issued one after another. -/
theorem Simulation.issues_in_program_order (config : Config)
    (preload : List (Int × Int)) (actions : List Action) :
    let sim := (fresh config preload).after actions
    sim.machine.issuedCount ≤ sim.machine.program.length ∧
      sim.machine.queue = sim.machine.program.drop sim.machine.issuedCount ∧
      sim.machine.IssuesNext ∧
      ∀ stretch ∈ ((fresh config preload).itinerary {} actions).stretches,
        stretch.InOrder := by
  intro sim
  have hkeeps : sim.machine.KeepsTo ((fresh config preload).itinerary {} actions) :=
    keepsTo_after (Machine.keepsTo_create config preload) actions
  have hsound : sim.machine.Sound :=
    sound_after (Machine.sound_create config preload) actions
  exact ⟨hkeeps.inTurn.issuedCount_le, hkeeps.inTurn.queue_eq,
    hsound.issuesNext (placed_after config preload actions), hkeeps.inOrder⟩

end OutOfOrder
