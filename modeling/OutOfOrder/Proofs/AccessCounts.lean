import OutOfOrder.Proofs.Attempt
import OutOfOrder.Proofs.InOrder
import OutOfOrder.Proofs.WriteAllocation

/-!
# Counted accesses

The cache counts every lookup as a hit or a miss.  A lookup is made by an access
that starts, which is told as a hit or a miss, and by a store that is written
back, which is told as that only.  An access that misses then waits for its block,
if a miss has a penalty, until the fill is told.

So whatever happens changes the counters of the cache, and the number of stations
that wait for a block, by as much as it says.  This is shown for each part of a
cycle, and the parts are put together along a run.
-/

namespace OutOfOrder

/-! ## What is counted -/

namespace Happening

/-- A store was written back. -/
def isStored : Happening → Bool
  | .stored .. => true
  | _ => false

/-- An access to memory started. -/
def startsAccess : Happening → Bool
  | .started _ ins => ins.opcode.isMemory
  | _ => false

/-- The cache has to do with what happened. -/
def isCounted : Happening → Bool
  | .hit .. | .missed .. | .filled .. | .stored .. => true
  | .started _ ins => ins.opcode.isMemory
  | _ => false

end Happening

def kindCount (kind : EventKind) (log : List Happening) : Nat :=
  log.countP (·.kind = kind)

def storeCount (log : List Happening) : Nat :=
  log.countP Happening.isStored

def accessCount (log : List Happening) : Nat :=
  log.countP Happening.startsAccess

theorem kindCount_append (kind : EventKind) (log rest : List Happening) :
    kindCount kind (log ++ rest) = kindCount kind log + kindCount kind rest :=
  List.countP_append

theorem storeCount_append (log rest : List Happening) :
    storeCount (log ++ rest) = storeCount log + storeCount rest :=
  List.countP_append

theorem accessCount_append (log rest : List Happening) :
    accessCount (log ++ rest) = accessCount log + accessCount rest :=
  List.countP_append

/-- The station is one of a load or store that has started and waits for its
block. -/
def Station.lacksBlock (station : Station) : Bool :=
  station.pool = .loadStore && (station.executing && !station.blockResident)

/-- The number of stations that wait for their blocks. -/
def Bank.waiting (bank : Bank) : Nat :=
  bank.countP Station.lacksBlock

/-- What happens tallies with the change of a cache, and with the numbers of
stations that wait for their blocks before and behind it. -/
structure Tallies (before : Cache) (waiting : Nat) (log : List Happening)
    (after : Cache) (waiting' : Nat) : Prop where
  geometry : after.geometry = before.geometry
  lookups : after.hits + after.misses = before.hits + before.misses +
    (kindCount .cacheHit log + kindCount .cacheMiss log + storeCount log)
  hits : before.hits + kindCount .cacheHit log ≤ after.hits
  misses : before.misses + kindCount .cacheMiss log ≤ after.misses
  starts : kindCount .cacheHit log + kindCount .cacheMiss log = accessCount log
  /-- Who misses waits until its block is filled, if there is a penalty. -/
  fills : kindCount .cacheFill log + waiting' = waiting +
    if before.geometry.missPenalty = 0 then 0 else kindCount .cacheMiss log

namespace Tallies

variable {before middle after : Cache} {waiting waiting' waiting'' : Nat}
  {log rest : List Happening}

theorem trans (h : Tallies before waiting log middle waiting')
    (h' : Tallies middle waiting' rest after waiting'') :
    Tallies before waiting (log ++ rest) after waiting'' := by
  obtain ⟨hgeometry, hlookups, hhits, hmisses, hstarts, hfills⟩ := h
  obtain ⟨hgeometry', hlookups', hhits', hmisses', hstarts', hfills'⟩ := h'
  rw [hgeometry] at hfills'
  refine ⟨hgeometry'.trans hgeometry, ?_, ?_, ?_, ?_, ?_⟩
  all_goals simp only [kindCount_append, storeCount_append, accessCount_append]
  · omega
  · omega
  · omega
  · omega
  · by_cases hfree : before.geometry.missPenalty = 0
    · rw [if_pos hfree] at hfills hfills' ⊢
      omega
    · rw [if_neg hfree] at hfills hfills' ⊢
      omega

/-- Other stations that wait are of no importance. -/
theorem add (h : Tallies before waiting log after waiting') (others : Nat) :
    Tallies before (waiting + others) log after (waiting' + others) where
  geometry := h.geometry
  lookups := h.lookups
  hits := h.hits
  misses := h.misses
  starts := h.starts
  fills := by
    have hfills := h.fills
    omega

/-- What is not counted tallies with no change. -/
theorem of_uncounted (h : ∀ happening ∈ log, happening.isCounted = false)
    (cache : Cache) (waiting : Nat) : Tallies cache waiting log cache waiting := by
  have hnone : ∀ {p : Happening → Bool},
      (∀ happening, p happening = true → happening.isCounted = true) →
        log.countP p = 0 := by
    intro p hcounts
    rw [List.countP_eq_zero]
    intro happening hmem hholds
    have hcounted := hcounts happening hholds
    rw [h happening hmem] at hcounted
    contradiction
  have hhits : kindCount .cacheHit log = 0 := hnone (by
    rintro (_ | _) <;> simp [Happening.kind, Happening.isCounted])
  have hmisses : kindCount .cacheMiss log = 0 := hnone (by
    rintro (_ | _) <;> simp [Happening.kind, Happening.isCounted])
  have hfills : kindCount .cacheFill log = 0 := hnone (by
    rintro (_ | _) <;> simp [Happening.kind, Happening.isCounted])
  have hstores : storeCount log = 0 := hnone (by
    rintro (_ | _) <;> simp [Happening.isStored, Happening.isCounted])
  have hstarts : accessCount log = 0 := hnone (by
    rintro (_ | _) <;> simp [Happening.startsAccess, Happening.isCounted])
  refine ⟨rfl, ?_, ?_, ?_, ?_, ?_⟩
  · rw [hhits, hmisses, hstores, Nat.add_zero]
  · rw [hhits, Nat.add_zero]
  · rw [hmisses, Nat.add_zero]
  · rw [hhits, hmisses, hstarts]
  · rw [hfills, hmisses, ite_self, Nat.add_comm]

theorem nil (cache : Cache) (waiting : Nat) :
    Tallies cache waiting [] cache waiting :=
  of_uncounted (fun _ hmem => absurd hmem List.not_mem_nil) cache waiting

end Tallies

/-! ## The steps of a station -/

theorem Opcode.isMemory_of_pool {op : Opcode} (h : op.pool = .loadStore) :
    op.isMemory = true := by
  cases op with
  | ld | lw | lS | lD | sd | sw | sD | sW => rfl
  | _ => contradiction

namespace Station

variable {station : Station} {ins : Instruction}

theorem tallies_findAddress (station : Station) (ins : Instruction)
    (cache : Cache) :
    Tallies cache station.lacksBlock.toNat (station.findAddress ins).2 cache
      (station.findAddress ins).1.lacksBlock.toNat := by
  unfold findAddress
  split
  · exact .nil _ _
  · exact .of_uncounted (by simp [Happening.isCounted]) _ _

/-- The one lookup of an access is told, and if it misses the station waits from
then on. -/
theorem tallies_startAccess (hmemory : ins.opcode.isMemory = true)
    (hpool : station.pool = .loadStore) (hidle : station.executing = false)
    (cache : Cache) :
    Tallies cache station.lacksBlock.toNat (station.startAccess ins cache).2.2
      (station.startAccess ins cache).2.1
      (station.startAccess ins cache).1.lacksBlock.toNat := by
  have hidle : station.lacksBlock = false := by simp [lacksBlock, hidle]
  rw [hidle]
  unfold startAccess Cache.probe
  cases cache.isResident station.address with
  | true =>
      constructor <;> simp [kindCount, storeCount, accessCount, Happening.kind,
        Happening.isStored, Happening.startsAccess, hmemory, lacksBlock,
        Cache.fillBlock, Nat.add_right_comm]
  | false =>
      by_cases hfree : cache.geometry.missPenalty = 0
      · constructor <;> simp [kindCount, storeCount, accessCount, Happening.kind,
          Happening.isStored, Happening.startsAccess, hmemory, lacksBlock,
          Cache.fillBlock, hfree, Nat.add_assoc]
      · constructor <;> simp [kindCount, storeCount, accessCount, Happening.kind,
          Happening.isStored, Happening.startsAccess, hmemory, lacksBlock,
          hpool, hfree, Nat.add_assoc]

/-- A station waits until the fill of its block is told. -/
theorem tallies_awaitBlock (hpool : station.pool = .loadStore)
    (hexecuting : station.executing = true)
    (hmissing : station.blockResident = false) (cache : Cache) :
    Tallies cache station.lacksBlock.toNat (station.awaitBlock cache).2.2
      (station.awaitBlock cache).2.1
      (station.awaitBlock cache).1.lacksBlock.toNat := by
  have hlacks : station.lacksBlock = true := by
    simp [lacksBlock, hpool, hexecuting, hmissing]
  unfold awaitBlock
  dsimp only
  split
  · rw [hlacks]
    constructor <;> simp [kindCount, storeCount, accessCount, Happening.kind,
      Happening.isStored, Happening.startsAccess, lacksBlock, Cache.fillBlock]
  · exact .nil _ _

theorem tallies_usePort (station : Station) (ins : Instruction) (port : Port)
    (cache : Cache) :
    Tallies cache station.lacksBlock.toNat (station.usePort ins port).2.2 cache
      (station.usePort ins port).1.lacksBlock.toNat := by
  unfold usePort
  split
  · exact .nil _ _
  · dsimp only
    generalize (if 0 < station.cacheRemaining
      then station.remaining else countDown station.remaining) = remaining
    split
    · exact .of_uncounted (by simp [Happening.isCounted]) _ _
    · exact .nil _ _

theorem tallies_continueAccess (hpool : station.pool = .loadStore)
    (hexecuting : station.executing = true) (ins : Instruction) (port : Port)
    (cache : Cache) :
    Tallies cache station.lacksBlock.toNat
      (station.continueAccess ins port cache).log
      (station.continueAccess ins port cache).cache
      (station.continueAccess ins port cache).station.lacksBlock.toNat := by
  unfold continueAccess
  split
  · exact station.tallies_usePort ins port cache
  · next hmissing =>
      exact tallies_awaitBlock hpool hexecuting (by simpa using hmissing) cache

theorem tallies_access (hmemory : ins.opcode.isMemory = true)
    (hpool : station.pool = .loadStore) (port : Port) (cache : Cache) :
    Tallies cache station.lacksBlock.toNat (station.access ins port cache).log
      (station.access ins port cache).cache
      (station.access ins port cache).station.lacksBlock.toNat := by
  have hfound := station.tallies_findAddress ins cache
  have hpool : (station.findAddress ins).1.pool = .loadStore :=
    (station.sameWork_findAddress ins).pool.trans hpool
  unfold access
  dsimp only
  split
  · exact hfound
  · by_cases hexecuting : (station.findAddress ins).1.executing = true
    · rw [if_pos hexecuting, if_neg (by simp [isTold]), List.append_nil]
      exact hfound.trans (tallies_continueAccess hpool hexecuting ins port cache)
    · rw [if_neg hexecuting]
      -- an access goes on in the cycle in which it starts
      have hstarted := hfound.trans (tallies_startAccess hmemory hpool
        (by simpa using hexecuting) cache)
      split
      · exact hstarted
      · refine hstarted.trans (tallies_continueAccess ?_ ?_ ins port _)
        · exact (sameWork_startAccess _ ins cache).pool.trans hpool
        · exact executing_startAccess _ ins cache

theorem tallies_compute (hmemory : ins.opcode.isMemory = false)
    (hpool : station.pool ≠ .loadStore) (cache : Cache) :
    Tallies cache station.lacksBlock.toNat (station.compute ins).2 cache
      (station.compute ins).1.lacksBlock.toNat := by
  have hnone : ∀ other : Station, other.pool = station.pool →
      other.lacksBlock = false := by
    intro other hother
    rw [lacksBlock, hother, decide_eq_false hpool, Bool.false_and]
  rw [hnone station rfl, hnone _ (sameWork_compute station ins).pool]
  refine .of_uncounted ?_ _ _
  unfold compute
  split
  · exact fun _ hmem => nomatch hmem
  · dsimp only
    split <;> split <;> simp [Happening.isCounted, hmemory]

theorem Sound.tallies_execute (h : station.Sound) (port : Port) (cache : Cache) :
    Tallies cache station.lacksBlock.toNat (station.execute port cache).log
      (station.execute port cache).cache
      (station.execute port cache).station.lacksBlock.toNat := by
  unfold Station.execute
  split
  · exact .nil _ _
  · next hrests =>
      have hbusy : station.busy = true := by
        simp only [rests, Bool.or_eq_true, not_or, Bool.not_eq_true',
          Bool.not_eq_false] at hrests
        exact hrests.1.1
      obtain ⟨ins, hins, hprogress⟩ := h.working hbusy
      rw [hins]
      dsimp only
      by_cases hmemory : ins.opcode.isMemory = true
      · rw [if_pos hmemory]
        exact tallies_access hmemory
          (hprogress.pool.trans (Opcode.pool_of_isMemory hmemory)) port cache
      · rw [if_neg hmemory]
        refine tallies_compute (by simpa using hmemory) ?_ cache
        rw [hprogress.pool]
        exact fun hpool => hmemory (Opcode.isMemory_of_pool hpool)

end Station

/-! ## The phases of a cycle -/

namespace Bank

theorem waiting_cons (station : Station) (rest : Bank) :
    waiting (station :: rest) = station.lacksBlock.toNat + waiting rest := by
  rw [waiting, List.countP_cons, Nat.add_comm]
  cases station.lacksBlock <;> rfl

/-- A change that starts nothing and brings in no block leaves as many stations
waiting. -/
theorem waiting_map {change : Station → Station}
    (h : ∀ station : Station, station.Kept (change station)) (bank : Bank) :
    Bank.waiting (bank.map change) = bank.waiting := by
  have hkept : Station.lacksBlock ∘ change = Station.lacksBlock := by
    funext station
    obtain ⟨j, k, pause, heq⟩ := h station
    rw [Function.comp_apply, heq]
    rfl
  rw [waiting, List.countP_map, hkept, waiting]

theorem tallies_execute {bank : Bank} (h : ∀ station ∈ bank, station.Sound)
    (port : Port) (cache : Cache) :
    Tallies cache bank.waiting (bank.execute port cache).2.2.2
      (bank.execute port cache).2.2.1 (bank.execute port cache).1.waiting := by
  induction bank generalizing port cache with
  | nil => exact .nil _ _
  | cons station rest ih =>
      obtain ⟨hfirst, hrest⟩ := List.forall_mem_cons.mp h
      -- while one station takes its step the others wait as they did
      have hstep := (hfirst.tallies_execute port cache).add (waiting rest)
      rw [waiting_cons]
      cases htold : isTold (station.execute port cache).log with
      | false =>
          rw [execute_cons_of_untold htold, waiting_cons]
          exact hstep
      | true =>
          have hothers := (ih hrest (station.execute port cache).port
            (station.execute port cache).cache).add
              (station.execute port cache).station.lacksBlock.toNat
          rw [Nat.add_comm, Nat.add_comm (waiting _)] at hothers
          rw [execute_cons_of_told htold, waiting_cons]
          exact hstep.trans hothers

end Bank

/-- A word that is written is looked up once. -/
theorem Cache.tallies_writeWord (cache : Cache) (name : String)
    (address value : Int) (waiting : Nat) :
    Tallies cache waiting [.stored name value address]
      (cache.writeWord address value) waiting := by
  obtain ⟨hhits, hmisses⟩ := cache.counts_writeWord address value
  have hone : (cache.isResident address).toNat +
      (!cache.isResident address).toNat = 1 := by
    cases cache.isResident address <;> rfl
  have hcounts : kindCount .cacheHit [.stored name value address] = 0 ∧
      kindCount .cacheMiss [.stored name value address] = 0 ∧
      kindCount .cacheFill [.stored name value address] = 0 ∧
      storeCount [.stored name value address] = 1 ∧
      accessCount [.stored name value address] = 0 := ⟨rfl, rfl, rfl, rfl, rfl⟩
  obtain ⟨hhit, hmiss, hfill, hstored, hstarts⟩ := hcounts
  refine ⟨Machine.geometry_writeWord cache address value, ?_, ?_, ?_, ?_, ?_⟩
  · rw [hhits, hmisses, hhit, hmiss, hstored]
    omega
  · rw [hhits, hhit]
    exact Nat.le_add_right _ _
  · rw [hmisses, hmiss]
    exact Nat.le_add_right _ _
  · rw [hhit, hmiss, hstarts]
  · rw [hfill, hmiss, ite_self, Nat.add_comm]

namespace Machine

variable {m m' : Machine} {log : List Happening} {station : Station}
  {ins : Instruction}

theorem Sound.of_mem (h : m.Sound) (hmem : station ∈ m.bank) : station.Sound :=
  h.station (h.distinct.station?_name hmem)

theorem Sound.lacksBlock_granted (h : m.Sound)
    (hgranted : m.bank.granted? = some station) : station.lacksBlock = false := by
  obtain ⟨hmem, hbusy, hpending⟩ := mem_of_granted? hgranted
  obtain ⟨ins, -, hprogress⟩ := (h.of_mem hmem).working hbusy
  by_cases hpool : ins.opcode.pool = .loadStore
  · have hresident := (hprogress.finished hpending).2.2.2
      (Opcode.isMemory_of_pool hpool)
    simp [Station.lacksBlock, hresident]
  · simp [Station.lacksBlock, hprogress.pool, hpool]

theorem Sound.waiting_released (h : m.Sound)
    (hgranted : m.bank.granted? = some station) :
    m.released.bank.waiting = m.bank.waiting := by
  have hchanged := Bank.countP_changeFirst Station.lacksBlock hgranted
    Station.release
  rw [h.lacksBlock_granted hgranted] at hchanged
  have hreleased : station.release.lacksBlock = false := by
    simp [Station.lacksBlock, Station.release]
  rw [hreleased] at hchanged
  exact hchanged

theorem isCounted_redirect (m : Machine) (station : Station)
    (ins : Instruction) :
    ∀ happening ∈ (m.redirect station ins).2, happening.isCounted = false := by
  obtain ⟨way, hlog, hway⟩ := m.redirect_log station ins
  rw [hlog]
  rcases hway with ⟨_, _, _, _, rfl⟩ | ⟨_, _, rfl⟩ | ⟨_, _, rfl⟩
  all_goals simp [Happening.isCounted]

/-- Whatever a station with the bus does, the cache counts a store, whether or not
that can be told. -/
theorem tallies_settle (m : Machine) (station : Station) (ins : Instruction)
    (waiting : Nat) :
    Tallies m.cache waiting (m.settle station ins).2
      (m.settle station ins).1.cache waiting := by
  unfold settle
  split
  · exact m.cache.tallies_writeWord _ _ _ _
  · obtain ⟨queue, issuedCount, heq⟩ := redirect_eq m station ins
    dsimp only
    rw [heq]
    exact .of_uncounted (List.forall_mem_cons.mpr
      ⟨rfl, m.isCounted_redirect station ins⟩) _ _
  · exact .of_uncounted (by simp [Happening.isCounted]) _ _
  · exact .of_uncounted (by simp [Happening.isCounted]) _ _

theorem WritesBack.tallies (hphase : m.WritesBack m' log) (h : m.Sound) :
    Tallies m.cache m.bank.waiting log m'.cache m'.bank.waiting := by
  cases hphase with
  | idle => exact .nil _ _
  | empty => exact .of_uncounted (by simp [Happening.isCounted]) _ _
  | @broken station ins =>
      have hbank : (m.settle station ins).1.bank = m.bank := by
        obtain ⟨cache, queue, issuedCount, heq⟩ := settle_eq m station ins
        rw [heq]
      rw [hbank]
      exact m.tallies_settle station ins _
  | @stored station _ hgranted =>
      have hwaiting := h.waiting_released hgranted
      have hstored := m.cache.tallies_writeWord station.name station.address
        station.k.value m.bank.waiting
      dsimp only
      rwa [hwaiting]
  | @branched station ins hgranted =>
      obtain ⟨queue, issuedCount, heq⟩ := redirect_eq m station ins
      have hwaiting := h.waiting_released hgranted
      rw [heq]
      have hbank : Bank.waiting (released { m with queue, issuedCount }).bank =
          m.bank.waiting := hwaiting
      rw [hbank]
      exact .of_uncounted (List.forall_mem_cons.mpr
        ⟨rfl, m.isCounted_redirect station ins⟩) _ _
  | @published station ins value happening hgranted _ _ hhappening =>
      have hbank : (m.released.publish station.name ins value).1.bank.waiting =
          m.bank.waiting :=
        (Bank.waiting_map (fun other =>
          other.kept_listen station.name value) _).trans
            (h.waiting_released hgranted)
      rw [hbank]
      refine .of_uncounted (List.forall_mem_cons.mpr ⟨?_, ?_⟩) _ _
      · rcases hhappening with rfl | rfl <;> rfl
      · simp [publish, Happening.isCounted]

theorem Issues.tallies (hphase : m.Issues m' log) (h : m.Sound) :
    Tallies m.cache m.bank.waiting log m'.cache m'.bank.waiting := by
  cases hphase with
  | drained => exact .nil _ _
  | stalled => exact .of_uncounted (by simp [Happening.isCounted]) _ _
  | @issued next rest station _ hfree =>
      obtain ⟨hmem, -, hidle⟩ := mem_of_free? hfree
      have hbefore : station.lacksBlock = false := by
        rw [(h.of_mem hmem).free hidle]
        simp [Station.lacksBlock, Station.release]
      have hbehind : (m.occupied station next).lacksBlock = false := by
        simp [Station.lacksBlock, occupied, Station.occupy]
      have hchanged := Bank.countP_changeFirst Station.lacksBlock hfree
        (m.occupied · next)
      rw [hbefore, hbehind] at hchanged
      have hwaiting : Bank.waiting (m.bank.changeFirst
          (·.isFreeIn next.instruction.opcode.pool) (m.occupied · next)) =
          m.bank.waiting := hchanged
      dsimp only
      rw [hwaiting]
      exact .of_uncounted (by simp [Happening.isCounted]) _ _

/-- What happens in a cycle tallies with what it does, be it completed or broken
off. -/
theorem Sound.tallies_advance (h : m.Sound) :
    Tallies m.cache m.bank.waiting m.advance.2 m.advance.1.cache
      m.advance.1.bank.waiting := by
  have hbegun : Tallies m.cache m.bank.waiting [.cycleStarted] m.begin.cache
      m.begin.bank.waiting := by
    have hwaiting : m.begin.bank.waiting = m.bank.waiting :=
      Bank.waiting_map (fun station => station.kept_endPause) m.bank
    rw [hwaiting]
    exact .of_uncounted (by simp [Happening.isCounted]) _ _
  have hwrites := m.begin.writeback_writesBack
  have hwritten := hbegun.trans (hwrites.tallies h.begin)
  cases htold : isTold m.begin.writeback.2 with
  | false =>
      rw [advance_of_untold htold]
      exact hwritten
  | true =>
      have hissues := m.begin.writeback.1.issue_issues
      have hsound := h.begin.writesBack hwrites
      have hissued := hwritten.trans (hissues.tallies hsound)
      have hready := hsound.issues hissues
      rw [advance_of_told htold]
      exact hissued.trans (Bank.tallies_execute
        (fun _ hmem => hready.of_mem hmem) _ _)

end Machine

/-! ## Runs -/

namespace Simulation

/-- What happens along a run tallies with what it does to the cache and to the
stations that wait, whether or not it can be told. -/
theorem tallies_after {sim : Simulation} (h : sim.machine.Sound)
    (actions : List Action) :
    Tallies sim.machine.cache sim.machine.bank.waiting
      (sim.occurrences actions) (sim.after actions).machine.cache
      (sim.after actions).machine.bank.waiting := by
  induction actions generalizing sim with
  | nil => exact .nil _ _
  | cons action rest ih =>
      have hsound : (sim.act action).machine.Sound := sound_after h [action]
      have hrest := ih hsound
      cases action with
      | cycle =>
          have hcycle := h.tallies_advance
          rw [← machine_cycle] at hcycle
          exact hcycle.trans hrest
      | load | writeRegister => exact hrest
      | storeWord => exact ⟨hrest.geometry, hrest.lookups, hrest.hits,
          hrest.misses, hrest.starts, hrest.fills⟩
      | fillBlock => exact ⟨hrest.geometry, hrest.lookups, hrest.hits,
          hrest.misses, hrest.starts, hrest.fills⟩

/-- The counters of the cache and the stations that wait for their blocks are what
the events say. -/
structure CountsAccesses (config : Config) (sim : Simulation) : Prop where
  lookups : sim.machine.cache.hits + sim.machine.cache.misses =
    kindCount .cacheHit sim.happenings + kindCount .cacheMiss sim.happenings +
      storeCount sim.happenings
  hits : kindCount .cacheHit sim.happenings ≤ sim.machine.cache.hits
  misses : kindCount .cacheMiss sim.happenings ≤ sim.machine.cache.misses
  starts : kindCount .cacheHit sim.happenings +
    kindCount .cacheMiss sim.happenings = accessCount sim.happenings
  fills : kindCount .cacheFill sim.happenings ≤
    kindCount .cacheMiss sim.happenings
  /-- Of the blocks that were missed those are still to come that a station waits
  for. -/
  waiting : 0 < config.value .cacheMissPenalty →
    kindCount .cacheMiss sim.happenings =
      kindCount .cacheFill sim.happenings +
        (sim.machine.bank.ofPool .loadStore).countP fun station =>
          station.executing && !station.blockResident
  free : config.value .cacheMissPenalty = 0 →
    kindCount .cacheFill sim.happenings = 0

theorem waiting_eq_countP (bank : Bank) :
    bank.waiting = (bank.ofPool .loadStore).countP fun station =>
      station.executing && !station.blockResident := by
  rw [Bank.waiting, Bank.ofPool, List.countP_filter]
  refine List.countP_congr fun station _ => ?_
  rw [Station.lacksBlock, Bool.and_comm]

theorem waiting_create (config : Config) (preload : List (Int × Int)) :
    (Machine.create config preload).bank.waiting = 0 := by
  rw [Bank.waiting, List.countP_eq_zero]
  intro station hmem
  rw [Bank.eq_release_of_mem_ofSizes hmem]
  simp [Station.lacksBlock, Station.release]

/-- **The statistics of the cache account for every access.**  Behind every run of
which no cycle is broken off, the hits and misses that were counted together are
those that were told and the stores that were written back, and neither counter is
below what was told.  Each access that started was told as a hit or a miss.  A
block is filled only for a miss: where a miss has a penalty each of them was, apart
from those that a station is waiting for, and where it has none no block is. -/
theorem counts_accesses {config : Config} {preload : List (Int × Int)}
    {actions : List Action} {sim : Simulation}
    (h : (fresh config preload).attempt actions = .ok sim) :
    sim.CountsAccesses config := by
  obtain ⟨rfl, hlog⟩ := happenings_attempt h
  have hsound : (fresh config preload).machine.Sound :=
    Machine.sound_create config preload
  have htallies := tallies_after hsound actions
  have hnone : (fresh config preload).happenings = [] := rfl
  rw [hnone, List.nil_append] at hlog
  rw [← hlog] at htallies
  obtain ⟨-, hlookups, hhits, hmisses, hstarts, hfills⟩ := htallies
  have hwaiting : (fresh config preload).machine.bank.waiting = 0 :=
    waiting_create config preload
  have hcache : (fresh config preload).machine.cache.hits = 0 ∧
      (fresh config preload).machine.cache.misses = 0 ∧
      (fresh config preload).machine.cache.geometry.missPenalty =
        config.value .cacheMissPenalty := ⟨rfl, rfl, rfl⟩
  obtain ⟨hzero, hzero', hpenalty⟩ := hcache
  rw [hzero, hzero', Nat.zero_add] at hlookups
  rw [hzero, Nat.zero_add] at hhits
  rw [hzero', Nat.zero_add] at hmisses
  rw [hwaiting, hpenalty, Nat.zero_add] at hfills
  refine ⟨hlookups, hhits, hmisses, hstarts, ?_, ?_, ?_⟩
  · split at hfills <;> omega
  · intro hpos
    rw [if_neg (Nat.ne_of_gt hpos)] at hfills
    rw [← waiting_eq_countP, hfills]
  · intro hfree
    rw [if_pos hfree] at hfills
    omega

/-- In a cache of one line a load drives out the block of a store, which counts a
second miss when it is written back.  Another load still waits for its block. -/
theorem counts_accesses_evicted_store :
    let config : Config :=
      ⟨fun parameter => if parameter = .cacheSizeBytes then 16
        else if parameter = .cacheMissPenalty then 5
        else parameter.standard, by decide⟩
    let program : List Instruction :=
      [{ opcode := .sw, src1 := "R0", src2 := "F1", immediate := some 0 },
        { opcode := .lw, dest := "F2", src1 := "R0", immediate := some 64 },
        { opcode := .nop }, { opcode := .nop },
        { opcode := .lw, dest := "F3", src1 := "R0", immediate := some 128 }]
    ∃ sim, (fresh config []).attempt
        (.load program :: List.replicate 9 .cycle) = .ok sim ∧
      sim.CountsAccesses config ∧ sim.machine.cache.misses = 4 ∧
      kindCount .cacheMiss sim.happenings = 3 ∧
      kindCount .cacheFill sim.happenings = 2 := by
  intro config program
  have hends : ((fresh config []).attempt
      (.load program :: List.replicate 9 .cycle)).toOption.map (fun sim =>
        (sim.machine.cache.misses, kindCount .cacheMiss sim.happenings,
          kindCount .cacheFill sim.happenings)) = some (4, 3, 2) := by
    decide +kernel
  cases hrun : (fresh config []).attempt
      (.load program :: List.replicate 9 .cycle) with
  | error breakdown =>
      rw [hrun] at hends
      contradiction
  | ok sim =>
      rw [hrun] at hends
      have hcounts := Option.some.inj hends
      simp only [Prod.mk.injEq] at hcounts
      exact ⟨sim, rfl, counts_accesses hrun, hcounts⟩

end Simulation

end OutOfOrder
