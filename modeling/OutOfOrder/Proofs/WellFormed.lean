import OutOfOrder.Proofs.IssueOrder
import OutOfOrder.Proofs.PortSharing
import OutOfOrder.Proofs.Telling

/-!
# Well-formed machines

The phases of a cycle take many things for granted: the station that has the bus
holds an instruction and its operands, a pool that is not full has a free
station, a branch that is taken lands in the program.  In a machine that a run
reaches all of them are there, whatever the programs are and whatever was done
from outside.

It comes down to the stations.  Between two cycles each of them is as it was
made, or works on an instruction of its pool with flags that fit its operands.
-/

namespace OutOfOrder

/-- A station is as the configuration makes it, or works on an instruction of
its pool.  It executes only with all its operands, it asks for the bus only when
its counters have run out, and its result is pending as soon as they have. -/
structure Station.WellFormed (config : Config) (station : Station) : Prop where
  free : station.busy = false →
    (Machine.create config []).bank.station? station.name = some station
  working : station.busy = true → ∃ ins,
    station.instruction? = some ins ∧ ins.opcode.pool = station.pool ∧
    (station.executing = true → station.operandsReady = true ∧
      (ins.opcode.isMemory = true → station.addressReady = true)) ∧
    (station.resultPending = true → station.executing = true ∧
      station.remaining = 0 ∧ station.cacheRemaining = 0 ∧
      (ins.opcode.isMemory = true → station.blockResident = true)) ∧
    (station.executing = true → ins.opcode.isMemory = false →
      station.resultPending = false → 0 < station.remaining)

def Bank.busyCountOf (bank : Bank) (pool : Pool) : Nat :=
  (bank.ofPool pool).countP (·.busy)

namespace Machine

/-- What the next cycle of a machine takes for granted is there. -/
structure FindsAll (m : Machine) : Prop where
  /-- No station at work is without an instruction. -/
  not_stuck : ∀ name, .stuck name ∉ m.advance.2
  /-- The station that has the bus holds an instruction, and no operand of it is
  pending when it is read. -/
  granted : ∀ station, m.begin.bank.granted? = some station →
    (∃ ins, station.instruction? = some ins) ∧ station.operandsReady = true
  /-- Who takes a step holds an instruction. -/
  stepping : ∀ station ∈ m.atExecution.bank, station.rests = false →
    ∃ ins, station.instruction? = some ins
  /-- A pool that is not full when an instruction is issued has a free station. -/
  allocates : ∀ pool, m.written.bank.busyCountOf pool ≠ m.config.value pool.size →
    ∃ station, m.written.bank.free? pool = some station
  /-- A branch that is taken lands in the program. -/
  lands : ∀ name index next a b, .taken name index next a b ∈ m.advance.2 →
    m.program[index]?.map (·.instruction) = some next
  /-- The pool of every instruction is one of the machine's, of its full size. -/
  knows : ∀ op : Opcode, op.pool ∈ Pool.busOrder ∧
    (m.bank.ofPool op.pool).length = m.config.value op.pool.size
  /-- Addresses are divided by numbers that are not zero, and a value that is
  divided by zero yields zero. -/
  divides : m.cache.geometry.blockSize ≠ 0 ∧ m.cache.geometry.lineCount ≠ 0 ∧
    ∀ op ∈ [Opcode.div, .divD], ∀ a constant, op.evaluate a 0 constant = 0

variable {m m' : Machine} {log : List Happening} {config : Config}
  {station : Station} {pool : Pool}

/-! ## Stations -/

/-- A free station is the one that the configuration makes in its place. -/
theorem Placed.station?_create (h : Placed config m) (hmem : station ∈ m.bank)
    (hreleased : station = station.release) :
    (create config []).bank.station? station.name = some station := by
  have hplace : place station ∈ (create config []).bank.map place := by
    rw [(placed_create config []).places_eq, ← h.places_eq]
    exact List.mem_map_of_mem hmem
  obtain ⟨made, hmade, heq⟩ := List.mem_map.mp hplace
  have hname : made.name = station.name := congrArg Prod.fst heq
  have hpool : made.pool = station.pool := congrArg Prod.snd heq
  have hsame : made = station := by
    rw [hreleased, Bank.eq_release_of_mem_ofSizes hmade, Station.release,
      Station.release, hname, hpool]
  rw [← hname, (sound_create config []).distinct.station?_name hmade, hsame]

theorem PortHeld.wellFormed (h : m.PortHeld) (hplaced : Placed config m)
    (hmem : station ∈ m.bank) : station.WellFormed config := by
  obtain ⟨hsound, hport⟩ := h.of_mem hmem
  refine ⟨fun hfree => hplaced.station?_create hmem (hsound.free hfree),
    fun hbusy => ?_⟩
  obtain ⟨ins, hins, hprogress⟩ := hsound.working hbusy
  refine ⟨ins, hins, hprogress.pool.symm, fun hexecuting => ⟨?_, ?_⟩,
    hprogress.finished, fun hexecuting hmemory => ?_⟩
  · exact hport.operandsReady hsound hbusy hexecuting
  · exact fun hmemory => (hprogress.accessing hmemory hexecuting).1
  · exact hprogress.counting hmemory hexecuting

theorem PortHeld.operandsReady_granted (h : m.PortHeld)
    (hgranted : m.bank.granted? = some station) :
    station.operandsReady = true := by
  obtain ⟨hmem, hbusy, hpending⟩ := mem_of_granted? hgranted
  obtain ⟨hsound, hport⟩ := h.of_mem hmem
  obtain ⟨ins, -, hprogress⟩ := hsound.working hbusy
  exact hport.operandsReady hsound hbusy (hprogress.finished hpending).1

/-! ## Pools -/

theorem countP_places (config : Config) (pool : Pool) :
    (places config).countP (·.2 = pool) = config.value pool.size := by
  have hpart : ∀ other : Pool,
      ((List.range (config.value other.size)).map fun index =>
        (other.slotName index, other)).countP (·.2 = pool) =
          if other = pool then config.value pool.size else 0 := by
    intro other
    rw [List.countP_map]
    split
    · next heq => simp [heq, Function.comp_def]
    · next hne => simp [hne, Function.comp_def]
  simp only [places, Pool.busOrder, List.flatMap_cons, List.flatMap_nil,
    List.countP_append, hpart]
  cases pool <;> simp

theorem Placed.length_ofPool (h : Placed config m) (pool : Pool) :
    (m.bank.ofPool pool).length = m.config.value pool.size := by
  rw [Bank.ofPool, ← List.countP_eq_length_filter, h.config_eq,
    ← countP_places, ← h.places_eq, List.countP_map]
  rfl

theorem Placed.exists_free (h : Placed config m)
    (hcount : m.bank.busyCountOf pool ≠ m.config.value pool.size) :
    ∃ station, m.bank.free? pool = some station := by
  by_contra hnone
  have hfree : m.bank.free? pool = none := by
    simpa [Option.eq_none_iff_forall_ne_some] using hnone
  have hall : ∀ station ∈ m.bank.ofPool pool, station.busy = true := by
    intro station hmem
    obtain ⟨hbank, hpool⟩ := List.mem_filter.mp hmem
    have hnot := List.find?_eq_none.mp hfree station hbank
    simpa [Station.isFreeIn, of_decide_eq_true hpool] using hnot
  have hfull : m.bank.busyCountOf pool = (m.bank.ofPool pool).length :=
    List.countP_eq_length.mpr hall
  exact hcount (hfull.trans (h.length_ofPool pool))

/-! ## Branches -/

theorem redirect_lands {name : String} {index : Nat} {next : Instruction}
    {a b : Int} {ins : Instruction}
    (hmem : .taken name index next a b ∈ (m.redirect station ins).2) :
    m.program[index]?.map (·.instruction) = some next := by
  rcases m.redirect_cases station ins with
    heq | heq | ⟨target, stamped, -, hnext, heq⟩
  · simp [heq] at hmem
  · simp [heq] at hmem
  · rw [heq] at hmem
    cases List.mem_singleton.mp hmem
    rw [hnext]
    rfl

theorem WritesBack.lands (hphase : m.WritesBack m' log) {name : String}
    {index : Nat} {next : Instruction} {a b : Int}
    (hmem : .taken name index next a b ∈ log) :
    m.program[index]?.map (·.instruction) = some next := by
  cases hphase with
  | idle => contradiction
  | empty => simp at hmem
  | @broken station ins =>
      unfold settle at hmem
      split at hmem
      · simp at hmem
      · exact redirect_lands (by simpa using hmem)
      · simp at hmem
      · simp at hmem
  | stored => simp at hmem
  | branched => exact redirect_lands (by simpa using hmem)
  | published _ _ _ hhappening =>
      rcases List.mem_cons.mp hmem with hfirst | hrest
      · rcases hhappening with rfl | rfl
        · nomatch hfirst
        · nomatch hfirst
      · obtain ⟨_, -, heq⟩ := List.mem_map.mp hrest
        nomatch heq

theorem advance_lands {name : String} {index : Nat} {next : Instruction}
    {a b : Int} (hmem : .taken name index next a b ∈ m.advance.2) :
    m.program[index]?.map (·.instruction) = some next := by
  have hwritten : .taken name index next a b ∈ m.begin.writeback.2 := by
    cases htold : isTold m.begin.writeback.2 with
    | false =>
        rw [advance_of_untold htold] at hmem
        exact (List.mem_cons.mp hmem).resolve_left nofun
    | true =>
        rw [advance_of_told htold] at hmem
        rcases mem_completes hmem with hstart | hwritten | hissued | hexecuted
        · nomatch hstart
        · exact hwritten
        · rw [← m.begin.writeback.1.issue_issues.filter_isAtIssue] at hissued
          nomatch (List.mem_filter.mp hissued).2
        · nomatch isExecution_of_mem_execute hexecuted
  exact m.begin.writeback_writesBack.lands hwritten

theorem evaluate_div_zero {op : Opcode} (h : op ∈ [Opcode.div, .divD])
    (a constant : Int) : op.evaluate a 0 constant = 0 := by
  have hop : op = .div ∨ op = .divD := by simpa using h
  have hzero : Word.div a 0 = 0 := by
    rw [Word.div, Word.quotient, if_pos rfl]
    rfl
  rcases hop with rfl | rfl
  · exact hzero
  · exact hzero

/-- A machine whose port is held and whose stations are in their places finds all
that its next cycle takes for granted. -/
theorem PortHeld.findsAll (h : m.PortHeld) (hplaced : Placed config m) :
    m.FindsAll := by
  have hphase := m.begin.writeback_writesBack
  have hissued : m.atExecution.Sound :=
    (h.sound.begin.writesBack hphase).issues (issue_issues _)
  have hwritten : Placed config m.written := hplaced.begin.writesBack hphase
  have hconfig : m.written.config = m.config :=
    hwritten.config_eq.trans hplaced.config_eq.symm
  exact {
    not_stuck := h.sound.stuck_not_mem_advance
    granted := fun station hgranted =>
      ⟨h.sound.begin.instruction?_granted hgranted,
        h.begin.operandsReady_granted hgranted⟩
    stepping := fun station hmem hrests => by
      have hstation := hissued.distinct.station?_name hmem
      have hbusy : station.busy = true := by
        simp only [Station.rests, Bool.or_eq_false_iff, Bool.not_eq_false']
          at hrests
        exact hrests.1.1
      obtain ⟨ins, hins, -⟩ := (hissued.station hstation).working hbusy
      exact ⟨ins, hins⟩
    allocates := fun pool hcount => hwritten.exists_free (hconfig ▸ hcount)
    lands := fun _ _ _ _ _ => advance_lands
    knows := fun op =>
      ⟨by cases op.pool <;> decide, hplaced.length_ofPool op.pool⟩
    divides := ⟨Nat.pos_iff_ne_zero.mp m.cache.geometry.blockSize_pos,
      Nat.pos_iff_ne_zero.mp m.cache.geometry.lineCount_pos,
      fun op hop => evaluate_div_zero hop⟩ }

end Machine

/-- **A machine never fails, and its stations are well formed.**  Along every run
from a new machine, whatever its programs are and whatever is done from outside:
the next cycle finds all that it takes for granted, so it is broken off by an
integer that cannot be written if at all, and every station is as the
configuration makes it or works on an instruction of its pool with flags that fit
its operands. -/
theorem Simulation.stays_well_formed (config : Config)
    (preload : List (Int × Int)) (actions : List Action) :
    let sim := (fresh config preload).after actions
    sim.machine.FindsAll ∧
      (∀ station ∈ sim.machine.bank, station.WellFormed config) ∧
      ∀ breakdown, sim.advance = .error breakdown →
        breakdown.obstacle = .unwritable := by
  intro sim
  have hheld : sim.machine.PortHeld := portHeld_after config preload actions
  have hplaced : Machine.Placed config sim.machine :=
    placed_after config preload actions
  refine ⟨hheld.findsAll hplaced, fun station hmem =>
    hheld.wellFormed hplaced hmem, fun breakdown herror => ?_⟩
  exact hheld.sound.eq_unwritable (advance_eq_error_iff.mp herror).1

end OutOfOrder
