import OutOfOrder.Machine.Execute
import OutOfOrder.Proofs.Bank

/-!
# What execution keeps

A step of a station moves its counters and flags on.  It keeps the station's
instruction and operands, it keeps memory, and it keeps the relation between
the flags and the operands: nothing starts before its operands are there.
-/

namespace OutOfOrder

/-- The place of an operand in a station. -/
inductive Slot where
  | first
  | second
  deriving DecidableEq, Repr

/-- What a happening of the execution phase can be. -/
def EventKind.isExecution : EventKind → Bool
  | .address | .cacheHit | .cacheMiss | .cacheFill => true
  | .execStart | .execFinish | .stall => true
  | _ => false

/-- A happening of the execution phase at the station of a name. -/
def Happening.IsStepOf (name : String) (happening : Happening) : Prop :=
  happening.kind.isExecution = true ∧ happening.station? = some name

/-- What execution keeps of a cache. -/
def Cache.base (cache : Cache) : Geometry × Memory :=
  (cache.geometry, cache.memory)

theorem countDown_nonneg {counter : Int} (h : 0 ≤ counter) :
    0 ≤ countDown counter := by
  unfold countDown
  split <;> omega

namespace Station

def operand (station : Station) : Slot → Operand
  | .first => station.j
  | .second => station.k

/-- The other station has the same place, instruction and operands. -/
structure SameWork (station other : Station) : Prop where
  name : other.name = station.name
  pool : other.pool = station.pool
  busy : other.busy = station.busy
  held : other.held = station.held
  j : other.j = station.j
  k : other.k = station.k

theorem SameWork.refl (station : Station) : station.SameWork station :=
  ⟨rfl, rfl, rfl, rfl, rfl, rfl⟩

theorem SameWork.trans {first second third : Station}
    (h : first.SameWork second) (h' : second.SameWork third) :
    first.SameWork third where
  name := h'.name.trans h.name
  pool := h'.pool.trans h.pool
  busy := h'.busy.trans h.busy
  held := h'.held.trans h.held
  j := h'.j.trans h.j
  k := h'.k.trans h.k

theorem SameWork.operand {station other : Station}
    (h : station.SameWork other) (slot : Slot) :
    other.operand slot = station.operand slot := by
  cases slot
  · exact h.j
  · exact h.k

theorem SameWork.instruction? {station other : Station}
    (h : station.SameWork other) :
    other.instruction? = station.instruction? := by
  rw [Station.instruction?, Station.instruction?, h.held]

/-- How the flags and counters of a station that works on an instruction fit
together.  A station starts when it has what it needs, and asks for the bus
when all its counters have run out. -/
structure Progress (station : Station) (ins : Instruction) : Prop where
  pool : station.pool = ins.opcode.pool
  remaining : 0 ≤ station.remaining
  cacheRemaining : 0 ≤ station.cacheRemaining
  addressed : station.addressReady = true →
    station.j.isReady = true ∧
      station.address = station.j.value + ins.constant
  accessing : ins.opcode.isMemory = true → station.executing = true →
    station.addressReady = true ∧
      (ins.opcode.isStore = true → station.k.isReady = true)
  computing : ins.opcode.isMemory = false → station.executing = true →
    station.operandsReady = true
  counting : ins.opcode.isMemory = false → station.executing = true →
    station.resultPending = false → 0 < station.remaining
  uncached : ins.opcode.isMemory = false → station.cacheRemaining = 0
  finished : station.resultPending = true →
    station.executing = true ∧ station.remaining = 0 ∧
      station.cacheRemaining = 0 ∧
      (ins.opcode.isMemory = true → station.blockResident = true)

/-- A station is free and as it was made, or works on an instruction. -/
structure Sound (station : Station) : Prop where
  free : station.busy = false → station = station.release
  working : station.busy = true →
    ∃ ins, station.instruction? = some ins ∧ station.Progress ins

/-! ## Arithmetic -/

variable {station : Station} {ins : Instruction} {port : Port} {cache : Cache}

theorem sameWork_compute (station : Station) (ins : Instruction) :
    station.SameWork (station.compute ins).1 := by
  unfold compute
  split
  · exact .refl station
  · dsimp only
    split <;> exact ⟨rfl, rfl, rfl, rfl, rfl, rfl⟩

theorem Progress.compute (h : station.Progress ins)
    (hmemory : ins.opcode.isMemory = false)
    (hpending : station.resultPending = false) :
    (station.compute ins).1.Progress ins := by
  unfold Station.compute
  split
  · exact h
  · next hready =>
      have hoperands : station.operandsReady = true := by
        cases hexecuting : station.executing with
        | true => exact h.computing hmemory hexecuting
        | false => simpa [hexecuting] using hready
      have hnonneg := countDown_nonneg h.remaining
      dsimp only
      split
      · next hzero =>
          exact {
            pool := h.pool
            remaining := hnonneg
            cacheRemaining := h.cacheRemaining
            addressed := h.addressed
            accessing := by simp [hmemory]
            computing := fun _ _ => hoperands
            counting := by simp
            uncached := h.uncached
            finished := fun _ =>
              ⟨rfl, hzero, h.uncached hmemory, by simp [hmemory]⟩ }
      · next hrun =>
          exact {
            pool := h.pool
            remaining := hnonneg
            cacheRemaining := h.cacheRemaining
            addressed := h.addressed
            accessing := by simp [hmemory]
            computing := fun _ _ => hoperands
            counting := fun _ _ _ => by dsimp only; omega
            uncached := h.uncached
            finished := by simp [hpending] }

theorem isStepOf_of_mem_compute {happening : Happening}
    (h : happening ∈ (station.compute ins).2) :
    happening.IsStepOf station.name := by
  unfold compute at h
  grind [Happening.IsStepOf, Happening.kind, EventKind.isExecution,
    Happening.station?]

/-! ## Memory accesses -/

theorem sameWork_findAddress (station : Station) (ins : Instruction) :
    station.SameWork (station.findAddress ins).1 := by
  unfold findAddress
  split <;> exact ⟨rfl, rfl, rfl, rfl, rfl, rfl⟩

theorem Progress.findAddress (h : station.Progress ins) :
    (station.findAddress ins).1.Progress ins := by
  unfold Station.findAddress
  split
  · exact h
  · next hready =>
      have hfresh : station.addressReady = false ∧ station.j.isReady = true := by
        simpa using hready
      exact {
        pool := h.pool
        remaining := h.remaining
        cacheRemaining := h.cacheRemaining
        addressed := fun _ => ⟨hfresh.2, rfl⟩
        accessing := fun hmemory hexecuting =>
          ⟨rfl, (h.accessing hmemory hexecuting).2⟩
        computing := h.computing
        counting := h.counting
        uncached := h.uncached
        finished := h.finished }

theorem resultPending_findAddress (station : Station) (ins : Instruction) :
    (station.findAddress ins).1.resultPending = station.resultPending := by
  unfold findAddress
  split <;> rfl

theorem sameWork_startAccess (station : Station) (ins : Instruction)
    (cache : Cache) : station.SameWork (station.startAccess ins cache).1 := by
  unfold startAccess
  dsimp only
  split <;> exact ⟨rfl, rfl, rfl, rfl, rfl, rfl⟩

theorem Progress.startAccess (h : station.Progress ins)
    (hmemory : ins.opcode.isMemory = true)
    (haddress : station.addressReady = true)
    (hvalue : ins.opcode.isStore = true → station.k.isReady = true)
    (hpending : station.resultPending = false) :
    (station.startAccess ins cache).1.Progress ins := by
  unfold Station.startAccess
  dsimp only
  split <;> exact {
    pool := h.pool
    remaining := h.remaining
    cacheRemaining := Int.natCast_nonneg _
    addressed := h.addressed
    accessing := fun _ _ => ⟨haddress, hvalue⟩
    computing := by simp [hmemory]
    counting := by simp [hmemory]
    uncached := by simp [hmemory]
    finished := by simp [hpending] }

theorem resultPending_startAccess (station : Station) (ins : Instruction)
    (cache : Cache) :
    (station.startAccess ins cache).1.resultPending = station.resultPending := by
  unfold startAccess
  dsimp only
  split <;> rfl

theorem executing_startAccess (station : Station) (ins : Instruction)
    (cache : Cache) : (station.startAccess ins cache).1.executing = true := by
  unfold startAccess
  dsimp only
  split <;> rfl

theorem base_startAccess (station : Station) (ins : Instruction)
    (cache : Cache) :
    (station.startAccess ins cache).2.1.base = cache.base := by
  unfold startAccess Cache.probe
  dsimp only
  split <;> split <;> rfl

theorem Progress.awaitBlock (h : station.Progress ins)
    (hmemory : ins.opcode.isMemory = true)
    (hpending : station.resultPending = false) :
    (station.awaitBlock cache).1.Progress ins := by
  unfold Station.awaitBlock
  dsimp only
  split <;> exact {
    pool := h.pool
    remaining := h.remaining
    cacheRemaining := countDown_nonneg h.cacheRemaining
    addressed := h.addressed
    accessing := h.accessing
    computing := by simp [hmemory]
    counting := by simp [hmemory]
    uncached := by simp [hmemory]
    finished := by simp [hpending] }

theorem Progress.usePort (h : station.Progress ins)
    (hmemory : ins.opcode.isMemory = true)
    (hexecuting : station.executing = true)
    (hresident : station.blockResident = true)
    (hpending : station.resultPending = false) :
    (station.usePort ins port).1.Progress ins := by
  have hcache := countDown_nonneg h.cacheRemaining
  have hremaining : 0 ≤ if 0 < station.cacheRemaining
      then station.remaining else countDown station.remaining := by
    split
    · exact h.remaining
    · exact countDown_nonneg h.remaining
  unfold Station.usePort
  dsimp only
  generalize (if 0 < station.cacheRemaining
    then station.remaining else countDown station.remaining) = remaining
    at hremaining ⊢
  split
  · exact h
  · split
    · next hdone =>
        exact {
          pool := h.pool
          remaining := hremaining
          cacheRemaining := hcache
          addressed := h.addressed
          accessing := h.accessing
          computing := by simp [hmemory]
          counting := by simp [hmemory]
          uncached := by simp [hmemory]
          finished := fun _ =>
            ⟨hexecuting, hdone.2, hdone.1, fun _ => hresident⟩ }
    · exact {
        pool := h.pool
        remaining := hremaining
        cacheRemaining := hcache
        addressed := h.addressed
        accessing := h.accessing
        computing := by simp [hmemory]
        counting := by simp [hmemory]
        uncached := by simp [hmemory]
        finished := by simp [hpending] }

/-- A station waits for its block or uses the port only while it executes. -/
theorem Progress.continueAccess (h : station.Progress ins)
    (hmemory : ins.opcode.isMemory = true)
    (hexecuting : station.executing = true)
    (hpending : station.resultPending = false) :
    (station.continueAccess ins port cache).station.Progress ins := by
  unfold Station.continueAccess
  split
  · next hresident =>
      exact h.usePort hmemory hexecuting hresident hpending
  · exact h.awaitBlock hmemory hpending

theorem sameWork_continueAccess (station : Station) (ins : Instruction)
    (port : Port) (cache : Cache) :
    station.SameWork (station.continueAccess ins port cache).station := by
  unfold continueAccess usePort awaitBlock
  dsimp only
  repeat' split
  all_goals exact ⟨rfl, rfl, rfl, rfl, rfl, rfl⟩

theorem base_continueAccess (station : Station) (ins : Instruction)
    (port : Port) (cache : Cache) :
    (station.continueAccess ins port cache).cache.base = cache.base := by
  unfold continueAccess awaitBlock
  dsimp only
  repeat' split
  all_goals rfl

theorem sameWork_access (station : Station) (ins : Instruction)
    (port : Port) (cache : Cache) :
    station.SameWork (station.access ins port cache).station := by
  have hfound := sameWork_findAddress station ins
  have hstarted := hfound.trans (sameWork_startAccess _ ins cache)
  unfold access
  dsimp only
  split
  · exact hfound
  · split <;> split
    · exact hfound
    · exact hfound.trans (sameWork_continueAccess _ ins port _)
    · exact hstarted
    · exact hstarted.trans (sameWork_continueAccess _ ins port _)

theorem base_access (station : Station) (ins : Instruction)
    (port : Port) (cache : Cache) :
    (station.access ins port cache).cache.base = cache.base := by
  unfold access
  dsimp only
  split
  · rfl
  · split <;> split
    · rfl
    · exact base_continueAccess _ ins port cache
    · exact base_startAccess _ ins cache
    · rw [base_continueAccess, base_startAccess]

theorem Progress.access (h : station.Progress ins)
    (hmemory : ins.opcode.isMemory = true)
    (hpending : station.resultPending = false) :
    (station.access ins port cache).station.Progress ins := by
  have hfound := h.findAddress
  have hfoundPending : (station.findAddress ins).1.resultPending = false := by
    rw [resultPending_findAddress, hpending]
  unfold Station.access
  dsimp only
  split
  · exact hfound
  · next hgo =>
      have hmay : (station.findAddress ins).1.mayAccess ins = true := by
        simp only [Bool.or_eq_true, Bool.not_eq_true', not_or] at hgo
        simpa using hgo.2
      simp only [mayAccess, Bool.and_eq_true, Bool.or_eq_true,
        Bool.not_eq_true'] at hmay
      split
      · next hexecuting =>
          split
          · exact hfound
          · exact hfound.continueAccess hmemory hexecuting hfoundPending
      · next hidle =>
          have hvalue : ins.opcode.isStore = true →
              (station.findAddress ins).1.k.isReady = true := by
            intro hstore
            simpa [hidle, hstore] using hmay.2
          have hstarted : Progress
              ((station.findAddress ins).1.startAccess ins cache).1 ins :=
            hfound.startAccess hmemory hmay.1 hvalue hfoundPending
          split
          · exact hstarted
          · refine hstarted.continueAccess hmemory ?_ ?_
            · unfold Station.startAccess
              dsimp only
              split <;> rfl
            · rw [resultPending_startAccess, hfoundPending]

theorem isStepOf_of_mem_findAddress {happening : Happening}
    (h : happening ∈ (station.findAddress ins).2) :
    happening.IsStepOf station.name := by
  unfold findAddress at h
  split at h
  · simp at h
  · simp only [List.mem_singleton] at h
    subst h
    exact ⟨rfl, rfl⟩

theorem isStepOf_of_mem_startAccess {happening : Happening}
    (h : happening ∈ (station.startAccess ins cache).2.2) :
    happening.IsStepOf station.name := by
  unfold startAccess at h
  dsimp only at h
  split at h
  all_goals
    simp only [List.mem_cons, List.not_mem_nil, or_false] at h
    rcases h with rfl | rfl
    · split <;> exact ⟨rfl, rfl⟩
    · exact ⟨rfl, rfl⟩

theorem isStepOf_of_mem_continueAccess {happening : Happening}
    (h : happening ∈ (station.continueAccess ins port cache).log) :
    happening.IsStepOf station.name := by
  unfold continueAccess usePort awaitBlock at h
  dsimp only at h
  split at h <;> split at h
  · simp at h
  · generalize (if 0 < station.cacheRemaining
      then station.remaining else countDown station.remaining) = remaining at h
    split at h
    · simp only [List.mem_singleton] at h
      subst h
      exact ⟨rfl, rfl⟩
    · simp at h
  · simp only [List.mem_singleton] at h
    subst h
    exact ⟨rfl, rfl⟩
  · simp at h

theorem isStepOf_of_mem_access {happening : Happening}
    (h : happening ∈ (station.access ins port cache).log) :
    happening.IsStepOf station.name := by
  have hfoundName := (sameWork_findAddress station ins).name
  have hstartedName := (sameWork_startAccess (station.findAddress ins).1 ins
    cache).name.trans hfoundName
  have hstarted : happening ∈
      ((station.findAddress ins).1.startAccess ins cache).2.2 →
        happening.IsStepOf station.name :=
    fun hmem => hfoundName ▸ isStepOf_of_mem_startAccess hmem
  unfold access at h
  dsimp only at h
  split at h
  · exact isStepOf_of_mem_findAddress h
  · split at h <;> split at h <;>
      simp only [List.append_nil, List.mem_append] at h
    · exact isStepOf_of_mem_findAddress h
    · rcases h with hfound | hrest
      · exact isStepOf_of_mem_findAddress hfound
      · exact hfoundName ▸ isStepOf_of_mem_continueAccess hrest
    · rcases h with hfound | hmem
      · exact isStepOf_of_mem_findAddress hfound
      · exact hstarted hmem
    · rcases h with (hfound | hmem) | hrest
      · exact isStepOf_of_mem_findAddress hfound
      · exact hstarted hmem
      · exact hstartedName ▸ isStepOf_of_mem_continueAccess hrest

/-! ## A step of any station -/

theorem sameWork_execute (station : Station) (port : Port) (cache : Cache) :
    station.SameWork (station.execute port cache).station := by
  unfold execute
  split
  · exact .refl station
  · split
    · exact .refl station
    · split
      · exact sameWork_access station _ port cache
      · exact sameWork_compute station _

theorem base_execute (station : Station) (port : Port) (cache : Cache) :
    (station.execute port cache).cache.base = cache.base := by
  unfold execute
  split
  · rfl
  · split
    · rfl
    · split
      · exact base_access station _ port cache
      · rfl

theorem Sound.execute (h : station.Sound) :
    (station.execute port cache).station.Sound := by
  have hwork := sameWork_execute station port cache
  by_cases hrests : station.rests = true
  · simpa [Station.execute, hrests] using h
  · have hawake : station.busy = true ∧ station.resultPending = false := by
      simp only [rests, Bool.or_eq_true, not_or] at hrests
      exact ⟨by simpa using hrests.1.1, by simpa using hrests.2⟩
    obtain ⟨ins, hins, hprogress⟩ := h.working hawake.1
    refine ⟨fun hfree => ?_, fun _ => ⟨ins, ?_, ?_⟩⟩
    · rw [hwork.busy, hawake.1] at hfree
      contradiction
    · rw [hwork.instruction?, hins]
    · unfold Station.execute
      simp only [hrests, hins, Bool.false_eq_true, if_false]
      split
      · next hmemory => exact hprogress.access hmemory hawake.2
      · next hmemory =>
          exact hprogress.compute (by simpa using hmemory) hawake.2

/-- What a step tells is about its station, which does not pause. -/
theorem isStepOf_of_mem_execute {happening : Happening}
    (h : happening ∈ (station.execute port cache).log) :
    happening.IsStepOf station.name ∧ station.rests = false := by
  unfold execute at h
  split at h
  · simp at h
  · next hrests =>
      refine ⟨?_, by simpa using hrests⟩
      split at h
      · simp only [List.mem_singleton] at h
        subst h
        exact ⟨rfl, rfl⟩
      · split at h
        · exact isStepOf_of_mem_access h
        · exact isStepOf_of_mem_compute h

end Station

/-! ## A step of the bank -/

namespace Bank

/-- Execution ends behind a step that cannot be told. -/
theorem execute_cons_of_untold {station : Station} {rest : Bank} {port : Port}
    {cache : Cache} (huntold : isTold (station.execute port cache).log = false) :
    execute (station :: rest) port cache =
      ((station.execute port cache).station :: rest,
        (station.execute port cache).port, (station.execute port cache).cache,
        (station.execute port cache).log) := by
  rw [execute, huntold]
  rfl

theorem execute_cons_of_told {station : Station} {rest : Bank} {port : Port}
    {cache : Cache} (htold : isTold (station.execute port cache).log = true) :
    execute (station :: rest) port cache =
      let others := rest.execute (station.execute port cache).port
        (station.execute port cache).cache
      ((station.execute port cache).station :: others.1, others.2.1,
        others.2.2.1, (station.execute port cache).log ++ others.2.2.2) := by
  rw [execute, htold]
  rfl

/-- The other station is the same, or what one step has made of it. -/
def Stepped (station other : Station) : Prop :=
  other = station ∨
    ∃ port cache, other = (station.execute port cache).station

theorem Stepped.sameWork {station other : Station}
    (h : Stepped station other) : station.SameWork other := by
  rcases h with rfl | ⟨port, cache, rfl⟩
  · exact .refl other
  · exact Station.sameWork_execute station port cache

theorem Stepped.sound {station other : Station}
    (h : Stepped station other) (hsound : station.Sound) : other.Sound := by
  rcases h with rfl | ⟨port, cache, rfl⟩
  · exact hsound
  · exact hsound.execute

theorem forall₂_refl_stepped (bank : Bank) : List.Forall₂ Stepped bank bank :=
  List.forall₂_same.mpr fun _ _ => Or.inl rfl

theorem stepped_execute (bank : Bank) (port : Port) (cache : Cache) :
    List.Forall₂ Stepped bank (bank.execute port cache).1 := by
  induction bank generalizing port cache with
  | nil => exact .nil
  | cons station rest ih =>
      have hstep : Stepped station (station.execute port cache).station :=
        Or.inr ⟨port, cache, rfl⟩
      cases htold : isTold (station.execute port cache).log with
      | false =>
          rw [execute_cons_of_untold htold]
          exact .cons hstep (forall₂_refl_stepped rest)
      | true =>
          rw [execute_cons_of_told htold]
          exact .cons hstep (ih _ _)

theorem base_execute (bank : Bank) (port : Port) (cache : Cache) :
    (bank.execute port cache).2.2.1.base = cache.base := by
  induction bank generalizing port cache with
  | nil => rfl
  | cons station rest ih =>
      have hstep := Station.base_execute station port cache
      cases htold : isTold (station.execute port cache).log with
      | false => rw [execute_cons_of_untold htold, hstep]
      | true => rw [execute_cons_of_told htold, ih, hstep]

theorem memory_execute (bank : Bank) (port : Port) (cache : Cache) :
    (bank.execute port cache).2.2.1.memory = cache.memory :=
  congrArg Prod.snd (base_execute bank port cache)

/-- What execution tells is about stations that do not pause. -/
theorem isStepOf_of_mem_execute {bank : Bank} {port : Port} {cache : Cache}
    {happening : Happening} (h : happening ∈ (bank.execute port cache).2.2.2) :
    ∃ station ∈ bank, happening.IsStepOf station.name ∧
      station.rests = false := by
  induction bank generalizing port cache with
  | nil => simp [execute] at h
  | cons station rest ih =>
      cases htold : isTold (station.execute port cache).log with
      | false =>
          rw [execute_cons_of_untold htold] at h
          exact ⟨station, List.mem_cons_self,
            Station.isStepOf_of_mem_execute h⟩
      | true =>
          rw [execute_cons_of_told htold] at h
          rcases List.mem_append.mp h with hfirst | hrest
          · exact ⟨station, List.mem_cons_self,
              Station.isStepOf_of_mem_execute hfirst⟩
          · obtain ⟨other, hmem, hstep⟩ := ih hrest
            exact ⟨other, List.mem_cons_of_mem _ hmem, hstep⟩

theorem isExecution_of_mem_execute {bank : Bank} {port : Port} {cache : Cache}
    {happening : Happening} (h : happening ∈ (bank.execute port cache).2.2.2) :
    happening.kind.isExecution = true := by
  obtain ⟨_, -, hstep, -⟩ := isStepOf_of_mem_execute h
  exact hstep.1

end Bank

end OutOfOrder
