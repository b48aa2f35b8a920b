import OutOfOrder.Proofs.Diary

/-!
# The timing of execution

An instruction starts in the cycle behind the one in which its operands were
complete.  Arithmetic then takes its latency, and one cycle at least.  An access
that missed waits for its block first, as long as the penalty says.  It needs
the port for its own latency then, and an access that found its block at once
for the latency of the cache in addition; from the first cycle at the port on it
has it without a break, for one cycle at least.  What is due by the end of a
cycle has been told then.

Along a run the counters of a station say what is left of each of these times.
A step takes one cycle off, and only a station that pauses keeps its time for a
cycle.
-/

namespace OutOfOrder

/-! ## When the steps of a stay were told -/

/-- The cycles in which the steps of a stay were told, kind by kind, and the
cycles at whose end its station was at work, with the number of cycles for which
it had had the port by then. -/
structure Times where
  issues : List Nat
  receipts : List Nat
  starts : List Nat
  hits : List Nat
  misses : List Nat
  fills : List Nat
  finishes : List Nat
  ports : List (Nat × Int)

namespace Stay

def cyclesOf (stay : Stay) (kind : EventKind) : List Nat :=
  (stay.events.filter (·.happening.kind = kind)).map (·.cycle)

/-- When the steps of the stay were told. -/
def times (stay : Stay) : Times where
  issues := stay.cyclesOf .issue
  receipts := stay.cyclesOf .broadcast
  starts := stay.cyclesOf .execStart
  hits := stay.cyclesOf .cacheHit
  misses := stay.cyclesOf .cacheMiss
  fills := stay.cyclesOf .cacheFill
  finishes := stay.cyclesOf .execFinish
  ports := stay.ports

end Stay

namespace Times

/-- The cycle in which the station had had the port for one cycle. -/
def firstPort? (times : Times) : Option Nat :=
  (times.ports.find? (·.2 = 1)).map (·.1)

/-- The operands were complete in a cycle: that of the issue, or that of the last
value received if it is later. -/
def ReadyAt (times : Times) (cycle : Nat) : Prop :=
  ∃ issue, times.issues = [issue] ∧
    cycle = max issue (times.receipts.getLast?.getD 0)

/-- The instruction started once, in the cycle behind the one in which its
operands were complete. -/
def StartsAt (times : Times) (start : Nat) : Prop :=
  times.starts = [start] ∧ ∃ ready, times.ReadyAt ready ∧ start = 1 + ready

/-- If the instruction finished, it did so in the last of a number of cycles from
the first one at the port on, and had the port in all of them. -/
def UsesPort (times : Times) (duration : Nat) : Prop :=
  ∀ finish ∈ times.finishes, ∃ first, times.firstPort? = some first ∧
    finish = first + (duration - 1) ∧ (finish, (duration : Int)) ∈ times.ports

/-- What was told of an instruction was told at its time. -/
structure OnTime (config : Config) (ins : Instruction) (times : Times) :
    Prop where
  starts : ∀ start ∈ times.starts, times.StartsAt start
  computes : ins.opcode.isMemory = false → ∀ finish ∈ times.finishes, ∃ start,
    times.starts = [start] ∧
      finish = start + (max 1 (config.value ins.opcode.latency) - 1)
  fills : ∀ fill ∈ times.fills, ∃ start, times.starts = [start] ∧
    fill = start + (config.value .cacheMissPenalty - 1)
  /-- An access that waited for its block has the port only behind the fill. -/
  fetches : ins.opcode.isMemory = true → times.misses ≠ [] →
    0 < config.value .cacheMissPenalty →
      (∀ first, times.firstPort? = some first →
        ∃ fill, times.fills = [fill] ∧ fill < first) ∧
      times.UsesPort (max 1 (config.value ins.opcode.latency))
  /-- An access that had its block at once needs the cache's latency also. -/
  finds : ins.opcode.isMemory = true →
    (times.hits ≠ [] ∨ config.value .cacheMissPenalty = 0) →
      (∀ first, times.firstPort? = some first →
        ∃ start, times.starts = [start] ∧ start ≤ first) ∧
      times.UsesPort (max 1
        (config.value .cacheHitLatency + config.value ins.opcode.latency))

/-- If the instruction has had the port for its time by the end of a cycle, it
finished when that was over. -/
def Delivers (times : Times) (duration now : Nat) : Prop :=
  ∀ first, times.firstPort? = some first → first + (duration - 1) ≤ now →
    times.finishes = [first + (duration - 1)]

/-- What was due by the end of a cycle has been told, once and in its cycle. -/
structure KeepsUp (config : Config) (ins : Instruction) (now : Nat)
    (times : Times) : Prop where
  computes : ins.opcode.isMemory = false → ∀ start ∈ times.starts,
    start + (max 1 (config.value ins.opcode.latency) - 1) ≤ now →
      times.finishes =
        [start + (max 1 (config.value ins.opcode.latency) - 1)]
  fills : ins.opcode.isMemory = true → times.misses ≠ [] →
    0 < config.value .cacheMissPenalty → ∀ start ∈ times.starts,
      start + (config.value .cacheMissPenalty - 1) ≤ now →
        times.fills = [start + (config.value .cacheMissPenalty - 1)]
  fetches : ins.opcode.isMemory = true → times.misses ≠ [] →
    0 < config.value .cacheMissPenalty →
      times.Delivers (max 1 (config.value ins.opcode.latency)) now
  finds : ins.opcode.isMemory = true →
    (times.hits ≠ [] ∨ config.value .cacheMissPenalty = 0) →
      times.Delivers (max 1
        (config.value .cacheHitLatency + config.value ins.opcode.latency)) now

/-- The times after something more was told in a cycle. -/
def tell (now : Nat) (times : Times) (happening : Happening) : Times :=
  match happening.kind with
  | .issue => { times with issues := times.issues ++ [now] }
  | .broadcast => { times with receipts := times.receipts ++ [now] }
  | .execStart => { times with starts := times.starts ++ [now] }
  | .cacheHit => { times with hits := times.hits ++ [now] }
  | .cacheMiss => { times with misses := times.misses ++ [now] }
  | .cacheFill => { times with fills := times.fills ++ [now] }
  | .execFinish => { times with finishes := times.finishes ++ [now] }
  | _ => times

/-- The times after several things were told in a cycle. -/
def tellAll (times : Times) (now : Nat) (log : List Happening) : Times :=
  log.foldl (tell now) times

/-- The times after a cycle at whose end the station had had the port for a
number of cycles. -/
def see (times : Times) (now : Nat) (count : Int) : Times :=
  { times with ports := times.ports ++ [(now, count)] }

/-- Nothing of the execution was told. -/
structure Fresh (times : Times) : Prop where
  starts : times.starts = []
  hits : times.hits = []
  misses : times.misses = []
  fills : times.fills = []
  finishes : times.finishes = []
  unused : times.firstPort? = none

/-- How an access comes to the port: the first cycle in which it may have it, and
the latencies that it then counts down. -/
inductive Reaches (config : Config) (ins : Instruction) (times : Times) :
    Nat → Nat → Prop where
  | fetched {start fill : Nat} (hstarts : times.StartsAt start)
      (hhits : times.hits = []) (hpenalty : 0 < config.value .cacheMissPenalty)
      (hfills : times.fills = [fill])
      (hfill : fill = start + (config.value .cacheMissPenalty - 1)) :
      Reaches config ins times (fill + 1) (config.value ins.opcode.latency)
  | found {start : Nat} (hstarts : times.StartsAt start)
      (hway : times.misses = [] ∨ config.value .cacheMissPenalty = 0)
      (hfills : times.fills = []) :
      Reaches config ins times start
        (config.value .cacheHitLatency + config.value ins.opcode.latency)

/-- By some time a station has had the port for a number of cycles, without a
break since the first of them. -/
inductive Occupies (times : Times) (entry time : Nat) (count : Int) : Prop where
  | never (hcount : count = 0) (hnone : times.firstPort? = none)
      (hentry : entry ≤ time + 1)
  | since {first : Nat} (hfirst : times.firstPort? = some first)
      (hentry : entry ≤ first) (hcount : 0 < count)
      (hlast : first + count = time + 1)

/-- What the counters of a station say of the times of its instruction, up to and
including some cycle. -/
inductive Counted (config : Config) (ins : Instruction) (time : Nat)
    (station : Station) (times : Times) : Prop where
  | waiting {ready : Nat}
      (hidle : station.executing = false)
      (hpending : station.resultPending = false)
      (hremaining : station.remaining = config.value ins.opcode.latency)
      (hunused : station.portCycles = 0)
      (hready : times.ReadyAt ready) (hpast : ready ≤ time)
      (hnow : station.operandsReady = true → ready = time)
      (hfresh : times.Fresh)
  | computing {start : Nat} (hmemory : ins.opcode.isMemory = false)
      (hexecuting : station.executing = true)
      (hpending : station.resultPending = false)
      (hstarts : times.StartsAt start)
      (hfills : times.fills = []) (hfinishes : times.finishes = [])
      (hleft : max 1 station.remaining + time + 1 =
        start + max 1 (config.value ins.opcode.latency))
  | fetching {start : Nat} (hmemory : ins.opcode.isMemory = true)
      (hexecuting : station.executing = true)
      (hpending : station.resultPending = false)
      (hmissing : station.blockResident = false)
      (hremaining : station.remaining = config.value ins.opcode.latency)
      (hunused : station.portCycles = 0)
      (hpenalty : 0 < config.value .cacheMissPenalty)
      (hstarts : times.StartsAt start) (hhits : times.hits = [])
      (hfills : times.fills = []) (hfinishes : times.finishes = [])
      (hnone : times.firstPort? = none)
      (hleft : max 1 station.cacheRemaining + time + 1 =
        start + config.value .cacheMissPenalty)
  | accessing {entry work : Nat} (hmemory : ins.opcode.isMemory = true)
      (hexecuting : station.executing = true)
      (hpending : station.resultPending = false)
      (hresident : station.blockResident = true)
      (hreaches : times.Reaches config ins entry work)
      (hoccupies : times.Occupies entry time station.portCycles)
      (hfinishes : times.finishes = [])
      (hleft : max 1 (station.cacheRemaining + station.remaining) +
        station.portCycles = max 1 work)
  | finished (hexecuting : station.executing = true)
      (hpending : station.resultPending = true)
      (hused : ins.opcode.isMemory = true → ∃ first,
        times.firstPort? = some first)
      (hfinish : ∃ finish, times.finishes = [finish])
      (hontime : times.OnTime config ins)

variable {config : Config} {ins : Instruction} {times : Times}
  {entry work time now : Nat} {count : Int}
  {station found began other : Station} {port after : Port}
  {log : List Happening}

theorem tellAll_append (times : Times) (now : Nat) (log rest : List Happening) :
    times.tellAll now (log ++ rest) =
      (times.tellAll now log).tellAll now rest :=
  List.foldl_append

/-! ## The first cycle at the port -/

theorem firstPort?_see (times : Times) (now : Nat) (count : Int) :
    (times.see now count).firstPort? =
      times.firstPort?.or (if count = 1 then some now else none) := by
  rw [firstPort?, firstPort?, see, List.find?_append, List.find?_singleton]
  cases times.ports.find? (·.2 = 1) with
  | some entry => rfl
  | none =>
      by_cases hcount : count = 1
      · simp [hcount]
      · simp [hcount]

theorem firstPort?_see_of_some {first : Nat}
    (h : times.firstPort? = some first) :
    (times.see now count).firstPort? = some first := by
  rw [firstPort?_see, h, Option.some_or]

theorem firstPort?_see_zero :
    (times.see now 0).firstPort? = times.firstPort? := by
  rw [firstPort?_see, if_neg (by decide), Option.or_none]

theorem Fresh.see (h : times.Fresh) : (times.see now 0).Fresh :=
  { h with unused := firstPort?_see_zero.trans h.unused }

theorem Occupies.see (h : times.Occupies entry time count) :
    (times.see now count).Occupies entry time count := by
  cases h with
  | never hcount hnone hentry =>
      subst hcount
      exact .never rfl (firstPort?_see_zero.trans hnone) hentry
  | since hfirst hentry hcount hlast =>
      exact .since (firstPort?_see_of_some hfirst) hentry hcount hlast

theorem Occupies.of_ports {times' : Times}
    (h : times.Occupies entry time count) (hports : times'.ports = times.ports) :
    times'.Occupies entry time count := by
  have hsame : times'.firstPort? = times.firstPort? := by
    rw [Times.firstPort?, hports, ← Times.firstPort?]
  cases h with
  | never hcount hnone hentry => exact .never hcount (hsame.trans hnone) hentry
  | since hfirst hentry hcount hlast =>
      exact .since (hsame.trans hfirst) hentry hcount hlast

theorem Occupies.next (h : times.Occupies entry time count) :
    (times.see (time + 1) (count + 1)).Occupies entry (time + 1)
      (count + 1) := by
  cases h with
  | never hcount hnone hentry =>
      subst hcount
      have hfirst : (times.see (time + 1) (0 + 1)).firstPort? =
          some (time + 1) := by
        rw [firstPort?_see, hnone]
        rfl
      exact .since hfirst hentry (by decide) rfl
  | since hfirst hentry hcount hlast =>
      exact .since (firstPort?_see_of_some hfirst) hentry (by omega)
        (by omega)

theorem Occupies.rest (h : times.Occupies entry time count)
    (hunused : count = 0) :
    (times.see (time + 1) count).Occupies entry (time + 1) count := by
  cases h with
  | never hcount hnone hentry =>
      subst hcount
      exact .never rfl (firstPort?_see_zero.trans hnone) (by omega)
  | since _ _ hcount => omega

/-! ## Being on time -/

theorem StartsAt.of_mem {start : Nat} (h : times.StartsAt start) :
    ∀ start ∈ times.starts, times.StartsAt start := by
  intro other hmem
  rw [h.1, List.mem_singleton] at hmem
  rwa [hmem]

theorem usesPort_of_finishes (h : times.finishes = []) (duration : Nat) :
    times.UsesPort duration := by
  intro finish hmem
  rw [h] at hmem
  nomatch hmem

/-- A station that finishes has used the port for as long as it has had it. -/
theorem Occupies.usesPort {duration : Nat}
    (h : times.Occupies entry time count) (hcount : count = duration)
    (hpositive : 0 < duration) (hfinishes : times.finishes = [time])
    (hport : (time, count) ∈ times.ports) :
    (∃ first, times.firstPort? = some first) ∧ times.UsesPort duration := by
  cases h with
  | never hzero => omega
  | @since first hfirst _ _ hlast =>
      refine ⟨⟨first, hfirst⟩, fun finish hmem => ?_⟩
      rw [hfinishes, List.mem_singleton] at hmem
      subst hmem
      exact ⟨first, hfirst, by omega, hcount ▸ hport⟩

theorem onTime_of_computed {start finish : Nat}
    (hmemory : ins.opcode.isMemory = false) (hstarts : times.StartsAt start)
    (hfills : times.fills = []) (hfinishes : times.finishes = [finish])
    (hlast : finish = start + (max 1 (config.value ins.opcode.latency) - 1)) :
    times.OnTime config ins := by
  have haccess : ins.opcode.isMemory = true → False := by
    intro haccess
    rw [hmemory] at haccess
    nomatch haccess
  refine {
    starts := hstarts.of_mem
    computes := fun _ other hmem => ?_
    fills := fun fill hmem => ?_
    fetches := fun h => (haccess h).elim
    finds := fun h => (haccess h).elim }
  · rw [hfinishes, List.mem_singleton] at hmem
    exact ⟨start, hstarts.1, hmem.trans hlast⟩
  · rw [hfills] at hmem
    nomatch hmem

/-- An access is on time at the port if it comes to it in time and uses it for
as long as it has to. -/
theorem Reaches.onTime (h : times.Reaches config ins entry work)
    (hmemory : ins.opcode.isMemory = true)
    (hoccupies : times.Occupies entry time count)
    (huses : times.UsesPort (max 1 work)) : times.OnTime config ins := by
  have hentry : ∀ first, times.firstPort? = some first → entry ≤ first := by
    intro first hfirst
    cases hoccupies with
    | never _ hnone =>
        rw [hfirst] at hnone
        nomatch hnone
    | since hfirst' hentry =>
        cases hfirst.symm.trans hfirst'
        exact hentry
  have harithmetic : ins.opcode.isMemory = false → False := by
    intro h
    rw [hmemory] at h
    nomatch h
  cases h with
  | fetched hstarts hhits hpenalty hfills hfill =>
      refine {
        starts := hstarts.of_mem
        computes := fun h => (harithmetic h).elim
        fills := fun fill hmem => ?_
        fetches := fun _ _ _ =>
          ⟨fun first hfirst => ⟨_, hfills, hentry first hfirst⟩, huses⟩
        finds := fun _ hway => ?_ }
      · rw [hfills, List.mem_singleton] at hmem
        exact ⟨_, hstarts.1, hmem.trans hfill⟩
      · rcases hway with hhit | hfree
        · exact absurd hhits hhit
        · omega
  | found hstarts hway hfills =>
      refine {
        starts := hstarts.of_mem
        computes := fun h => (harithmetic h).elim
        fills := fun fill hmem => ?_
        fetches := fun _ hmissed hpenalty => ?_
        finds := fun _ _ =>
          ⟨fun first hfirst => ⟨_, hstarts.1, hentry first hfirst⟩, huses⟩ }
      · rw [hfills] at hmem
        nomatch hmem
      · rcases hway with hnone | hfree
        · exact absurd hnone hmissed
        · omega

theorem Reaches.later (h : times.Reaches config ins entry work)
    (finishes : List Nat) (ports : List (Nat × Int)) :
    Reaches config ins { times with finishes, ports } entry work := by
  cases h with
  | fetched hstarts hhits hpenalty hfills hfill =>
      exact .fetched hstarts hhits hpenalty hfills hfill
  | found hstarts hway hfills => exact .found hstarts hway hfills

/-- An access that finishes in the last cycle of its work at the port is on
time. -/
theorem Reaches.finishes (h : times.Reaches config ins entry work)
    (hmemory : ins.opcode.isMemory = true)
    (hoccupies : times.Occupies entry time count) (hnone : times.finishes = [])
    (hduration : count + 1 = (max 1 work : Nat)) :
    let ended := Times.see
      { times with finishes := times.finishes ++ [time + 1] } (time + 1)
      (count + 1)
    (∃ first, ended.firstPort? = some first) ∧ ended.finishes = [time + 1] ∧
      ended.OnTime config ins := by
  intro ended
  have hnext : ended.Occupies entry (time + 1) (count + 1) :=
    hoccupies.next.of_ports rfl
  have hfinished : ended.finishes = [time + 1] :=
    congrArg (· ++ [time + 1]) hnone
  obtain ⟨hused, huses⟩ := hnext.usesPort hduration (by omega) hfinished
    (List.mem_append_right _ (List.mem_singleton_self _))
  exact ⟨hused, hfinished, (h.later _ _).onTime hmemory hnext huses⟩

/-- As long as it has not been at the port, an instruction that is not finished
is on time if it started and its block was filled in time. -/
theorem onTime_of_unused
    (hstarts : ∀ start ∈ times.starts, times.StartsAt start)
    (hfills : times.fills = []) (hfinishes : times.finishes = [])
    (hnone : ins.opcode.isMemory = true → times.firstPort? = none) :
    times.OnTime config ins where
  starts := hstarts
  computes := by
    intro _ finish hmem
    rw [hfinishes] at hmem
    nomatch hmem
  fills := by
    intro fill hmem
    rw [hfills] at hmem
    nomatch hmem
  fetches := by
    intro hmemory _ _
    refine ⟨fun first hfirst => ?_, usesPort_of_finishes hfinishes _⟩
    rw [hnone hmemory] at hfirst
    nomatch hfirst
  finds := by
    intro hmemory _
    refine ⟨fun first hfirst => ?_, usesPort_of_finishes hfinishes _⟩
    rw [hnone hmemory] at hfirst
    nomatch hfirst

theorem Counted.onTime (h : times.Counted config ins time station) :
    times.OnTime config ins := by
  cases h with
  | waiting _ _ _ _ _ _ _ hfresh =>
      refine onTime_of_unused (fun start hmem => ?_) hfresh.fills hfresh.finishes
        fun _ => hfresh.unused
      rw [hfresh.starts] at hmem
      nomatch hmem
  | computing hmemory _ _ hstarts hfills hfinishes =>
      refine onTime_of_unused hstarts.of_mem hfills hfinishes fun haccess => ?_
      rw [hmemory] at haccess
      nomatch haccess
  | fetching _ _ _ _ _ _ _ hstarts _ hfills hfinishes hnone =>
      exact onTime_of_unused hstarts.of_mem hfills hfinishes fun _ => hnone
  | accessing hmemory _ _ _ hreaches hoccupies hfinishes =>
      exact hreaches.onTime hmemory hoccupies (usesPort_of_finishes hfinishes _)
  | finished _ _ _ _ hontime => exact hontime

/-! ## Keeping up -/

theorem UsesPort.delivers {duration finish : Nat} (h : times.UsesPort duration)
    (hfinish : times.finishes = [finish]) (now : Nat) :
    times.Delivers duration now := by
  intro first hfirst _
  obtain ⟨used, hused, hlast, -⟩ :=
    h finish (hfinish ▸ List.mem_singleton_self finish)
  cases hfirst.symm.trans hused
  rw [hfinish, hlast]

theorem Occupies.delivers {duration : Nat}
    (h : times.Occupies entry time count) (hless : count < duration) :
    times.Delivers duration time := by
  intro first hfirst hdue
  cases h with
  | never _ hnone =>
      rw [hnone] at hfirst
      nomatch hfirst
  | since hfirst' _ _ hlast =>
      cases hfirst.symm.trans hfirst'
      omega

/-- At the port an access keeps up if it delivers: its block is there already. -/
theorem Reaches.keepsUp (h : times.Reaches config ins entry work)
    (hmemory : ins.opcode.isMemory = true)
    (hdelivers : times.Delivers (max 1 work) now) :
    times.KeepsUp config ins now := by
  have harithmetic : ins.opcode.isMemory = false → False := by
    intro h
    rw [hmemory] at h
    nomatch h
  cases h with
  | @fetched start _ hstarts hhits hpenalty hfills hfill =>
      refine {
        computes := fun h => (harithmetic h).elim
        fills := fun _ _ _ other hmem _ => ?_
        fetches := fun _ _ _ => hdelivers
        finds := fun _ hway => ?_ }
      · rw [hstarts.1, List.mem_singleton] at hmem
        rw [hfills, hfill, hmem]
      · rcases hway with hhit | hfree
        · exact absurd hhits hhit
        · omega
  | found hstarts hway hfills =>
      have hmissed : times.misses ≠ [] → 0 < config.value .cacheMissPenalty →
          False := by
        intro hmissed hpenalty
        rcases hway with hnone | hfree
        · exact hmissed hnone
        · omega
      exact {
        computes := fun h => (harithmetic h).elim
        fills := fun _ hmiss hpenalty => (hmissed hmiss hpenalty).elim
        fetches := fun _ hmiss hpenalty => (hmissed hmiss hpenalty).elim
        finds := fun _ _ => hdelivers }

theorem OnTime.keepsUp {finish : Nat} (h : times.OnTime config ins)
    (hfinish : times.finishes = [finish])
    (hused : ins.opcode.isMemory = true → ∃ first,
      times.firstPort? = some first) (now : Nat) :
    times.KeepsUp config ins now where
  computes := by
    intro hmemory start hmem _
    obtain ⟨begun, hbegun, hlast⟩ :=
      h.computes hmemory finish (hfinish ▸ List.mem_singleton_self finish)
    rw [hbegun, List.mem_singleton] at hmem
    rw [hfinish, hlast, hmem]
  fills := by
    intro hmemory hmissed hpenalty start hmem _
    obtain ⟨first, hfirst⟩ := hused hmemory
    obtain ⟨fill, hfill, -⟩ :=
      (h.fetches hmemory hmissed hpenalty).1 first hfirst
    obtain ⟨begun, hbegun, hlast⟩ :=
      h.fills fill (hfill ▸ List.mem_singleton_self fill)
    rw [hbegun, List.mem_singleton] at hmem
    rw [hfill, hlast, hmem]
  fetches := fun hmemory hmissed hpenalty =>
    (h.fetches hmemory hmissed hpenalty).2.delivers hfinish now
  finds := fun hmemory hway => (h.finds hmemory hway).2.delivers hfinish now

/-- A station counts down to what is due, so that it is never late. -/
theorem Counted.keepsUp (h : times.Counted config ins time station) :
    times.KeepsUp config ins time := by
  cases h with
  | waiting _ _ _ _ _ _ _ hfresh =>
      have hnone : ∀ duration, times.Delivers duration time := by
        intro duration first hfirst
        rw [hfresh.unused] at hfirst
        nomatch hfirst
      have hnever : ∀ start, start ∉ times.starts := by
        intro start hmem
        rw [hfresh.starts] at hmem
        nomatch hmem
      exact {
        computes := fun _ start hmem => (hnever start hmem).elim
        fills := fun _ _ _ start hmem => (hnever start hmem).elim
        fetches := fun _ _ _ => hnone _
        finds := fun _ _ => hnone _ }
  | computing hmemory _ _ hstarts _ _ hleft =>
      have haccess : ins.opcode.isMemory = true → False := by
        intro haccess
        rw [hmemory] at haccess
        nomatch haccess
      refine {
        computes := fun _ start hmem hdue => ?_
        fills := fun h => (haccess h).elim
        fetches := fun h => (haccess h).elim
        finds := fun h => (haccess h).elim }
      rw [hstarts.1, List.mem_singleton] at hmem
      omega
  | fetching hmemory _ _ _ _ _ _ hstarts _ _ _ hnone hleft =>
      have hnothing : ∀ duration, times.Delivers duration time := by
        intro duration first hfirst
        rw [hnone] at hfirst
        nomatch hfirst
      refine {
        computes := fun h => ?_
        fills := fun _ _ _ start hmem hdue => ?_
        fetches := fun _ _ _ => hnothing _
        finds := fun _ _ => hnothing _ }
      · rw [hmemory] at h
        nomatch h
      · rw [hstarts.1, List.mem_singleton] at hmem
        omega
  | accessing hmemory _ _ _ hreaches hoccupies _ hleft =>
      exact hreaches.keepsUp hmemory (hoccupies.delivers (by omega))
  | finished _ _ hused hfinish hontime =>
      obtain ⟨finish, hfinish⟩ := hfinish
      exact hontime.keepsUp hfinish hused time

/-! ## From one part of a cycle to the next -/

theorem UsesPort.see {duration : Nat} (h : times.UsesPort duration) :
    (times.see now count).UsesPort duration := by
  intro finish hmem
  obtain ⟨first, hfirst, hfinish, hport⟩ := h finish hmem
  exact ⟨first, firstPort?_see_of_some hfirst, hfinish,
    List.mem_append_left _ hport⟩

theorem OnTime.see (h : times.OnTime config ins)
    (hused : ins.opcode.isMemory = true → ∃ first,
      times.firstPort? = some first) :
    (times.see now count).OnTime config ins := by
  have hsame : ins.opcode.isMemory = true →
      (times.see now count).firstPort? = times.firstPort? := by
    intro hmemory
    obtain ⟨first, hfirst⟩ := hused hmemory
    rw [firstPort?_see_of_some hfirst, hfirst]
  refine { h with fetches := ?_, finds := ?_ }
  · intro hmemory hmissed hpenalty
    rw [hsame hmemory]
    obtain ⟨hfirst, huses⟩ := h.fetches hmemory hmissed hpenalty
    exact ⟨hfirst, huses.see⟩
  · intro hmemory hway
    rw [hsame hmemory]
    obtain ⟨hfirst, huses⟩ := h.finds hmemory hway
    exact ⟨hfirst, huses.see⟩

theorem Counted.see (h : times.Counted config ins time station) (now : Nat) :
    (times.see now station.portCycles).Counted config ins time station := by
  cases h with
  | waiting hidle hpending hremaining hunused hready hpast hnow hfresh =>
      refine .waiting hidle hpending hremaining hunused hready hpast hnow ?_
      rw [hunused]
      exact hfresh.see
  | computing hmemory hexecuting hpending hstarts hfills hfinishes hleft =>
      exact .computing hmemory hexecuting hpending hstarts hfills hfinishes hleft
  | fetching hmemory hexecuting hpending hmissing hremaining hunused hpenalty
      hstarts hhits hfills hfinishes hnone hleft =>
      refine .fetching hmemory hexecuting hpending hmissing hremaining hunused
        hpenalty hstarts hhits hfills hfinishes ?_ hleft
      rw [hunused]
      exact firstPort?_see_zero.trans hnone
  | accessing hmemory hexecuting hpending hresident hreaches hoccupies hfinishes
      hleft =>
      exact .accessing hmemory hexecuting hpending hresident
        (hreaches.later _ _) hoccupies.see hfinishes hleft
  | finished hexecuting hpending hused hfinish hontime =>
      refine .finished hexecuting hpending (fun hmemory => ?_) hfinish
        (hontime.see hused)
      obtain ⟨first, hfirst⟩ := hused hmemory
      exact ⟨first, firstPort?_see_of_some hfirst⟩

/-- Nothing but what a station counts matters. -/
theorem Counted.of_same (h : times.Counted config ins time station)
    (hexecuting : other.executing = station.executing)
    (hpending : other.resultPending = station.resultPending)
    (hremaining : other.remaining = station.remaining)
    (hcache : other.cacheRemaining = station.cacheRemaining)
    (hresident : other.blockResident = station.blockResident)
    (hcycles : other.portCycles = station.portCycles)
    (hready : other.operandsReady = station.operandsReady) :
    times.Counted config ins time other := by
  cases h with
  | waiting hidle hnot hall hunused hcomplete hpast hnow hfresh =>
      refine .waiting (hexecuting.trans hidle) (hpending.trans hnot)
        (hremaining.trans hall) (hcycles.trans hunused) hcomplete hpast ?_ hfresh
      rwa [hready]
  | computing hmemory hstarted hnot hstarts hfills hfinishes hleft =>
      refine .computing hmemory (hexecuting.trans hstarted) (hpending.trans hnot)
        hstarts hfills hfinishes ?_
      rwa [hremaining]
  | fetching hmemory hstarted hnot hmissing hall hunused hpenalty hstarts hhits
      hfills hfinishes hnone hleft =>
      refine .fetching hmemory (hexecuting.trans hstarted) (hpending.trans hnot)
        (hresident.trans hmissing) (hremaining.trans hall) (hcycles.trans hunused)
        hpenalty hstarts hhits hfills hfinishes hnone ?_
      rwa [hcache]
  | accessing hmemory hstarted hnot hhas hreaches hoccupies hfinishes hleft =>
      refine .accessing hmemory (hexecuting.trans hstarted) (hpending.trans hnot)
        (hresident.trans hhas) hreaches ?_ hfinishes ?_
      · rwa [hcycles]
      · rwa [hcache, hremaining, hcycles]
  | finished hstarted hdone hused hfinish hontime =>
      exact .finished (hexecuting.trans hstarted) (hpending.trans hdone) hused
        hfinish hontime

theorem Counted.endPause (h : times.Counted config ins time station) :
    times.Counted config ins time station.endPause := by
  unfold Station.endPause
  split
  · exact h.of_same rfl rfl rfl rfl rfl rfl rfl
  · exact h

theorem Counted.later (h : times.Counted config ins time station)
    (hpending : station.resultPending = true) (now : Nat) :
    times.Counted config ins now station := by
  cases h with
  | waiting _ hnot | computing _ _ hnot | fetching _ _ hnot
  | accessing _ _ hnot =>
      rw [hpending] at hnot
      nomatch hnot
  | finished hexecuting _ hused hfinish hontime =>
      exact .finished hexecuting hpending hused hfinish hontime

/-- With each value that is received the operands are complete later. -/
theorem Counted.receive (h : times.Counted config ins time station)
    {tag : String} (hhears : station.hears tag = true)
    (hidle : station.executing = false) (value : Int) (hpast : time ≤ now) :
    Counted config ins now (station.receive tag value)
      { times with receipts := times.receipts ++ [now] } := by
  have hreceive : station.receive tag value =
      { station with
        j := station.j.receive tag value
        k := station.k.receive tag value
        justTransitioned := true } := by
    rw [Station.receive, if_pos (Bool.and_eq_true_iff.mp hhears).2]
  rw [hreceive]
  cases h with
  | waiting _ hpending hremaining hunused hready hbefore _ hfresh =>
      obtain ⟨issue, hissue, hmax⟩ := hready
      have hlate : issue ≤ now := by omega
      refine .waiting hidle hpending hremaining hunused ⟨issue, hissue, ?_⟩
        (le_refl now) (fun _ => rfl) { hfresh with }
      rw [List.getLast?_append, List.getLast?_singleton]
      exact (max_eq_right hlate).symm
  | computing _ hexecuting | fetching _ hexecuting | accessing _ hexecuting
  | finished hexecuting =>
      rw [hidle] at hexecuting
      contradiction

theorem Counted.finds (h : times.Counted config ins time station)
    (hfinds : station.Finds ins found log) (now : Nat) :
    (times.tellAll now log).Counted config ins time found := by
  cases hfinds with
  | nothing => exact h
  | address =>
      exact Counted.of_same h rfl rfl rfl rfl rfl rfl rfl

theorem Counted.starts (h : times.Counted config ins time station)
    (hstarts : station.Starts ins (.ofConfig config) began log)
    (hidle : station.executing = false)
    (hready : station.operandsReady = true) :
    (times.tellAll (time + 1) log).Counted config ins time began := by
  cases h with
  | waiting _ hpending hremaining hunused hcomplete _ hnow hfresh =>
      cases hnow hready
      have hstarted : ∀ {starts}, starts = times.starts ++ [time + 1] →
          starts = [time + 1] := by
        intro starts hstarts
        rw [hstarts, hfresh.starts, List.nil_append]
      cases hstarts with
      | computing hmemory =>
          refine .computing hmemory rfl hpending
            ⟨hstarted rfl, time, hcomplete, Nat.add_comm _ _⟩ hfresh.fills
            hfresh.finishes ?_
          dsimp only
          rw [hremaining]
          omega
      | @resident way hmemory _ hway =>
          have hwork : max 1 (((Geometry.ofConfig config).hitLatency : Int) +
              station.remaining) + station.portCycles =
                (max 1 (config.value .cacheHitLatency +
                  config.value ins.opcode.latency) : Nat) := by
            have hsame : (Geometry.ofConfig config).hitLatency =
                config.value .cacheHitLatency := rfl
            rw [hremaining, hunused, hsame]
            omega
          rcases hway with rfl | ⟨hpenalty, rfl⟩
          · exact .accessing hmemory rfl hpending rfl
              (.found ⟨hstarted rfl, time, hcomplete, Nat.add_comm _ _⟩
                (.inl hfresh.misses) hfresh.fills)
              (.never hunused hfresh.unused (le_refl _)) hfresh.finishes hwork
          · exact .accessing hmemory rfl hpending rfl
              (.found ⟨hstarted rfl, time, hcomplete, Nat.add_comm _ _⟩
                (.inr hpenalty) hfresh.fills)
              (.never hunused hfresh.unused (le_refl _)) hfresh.finishes hwork
      | missing hmemory _ hpenalty =>
          have hpenalty' : 0 < config.value .cacheMissPenalty := hpenalty
          have hleft : max 1 ((Geometry.ofConfig config).missPenalty : Int) +
              time + 1 = (time + 1 : Nat) + config.value .cacheMissPenalty := by
            have hsame : (Geometry.ofConfig config).missPenalty =
                config.value .cacheMissPenalty := rfl
            rw [hsame]
            omega
          exact .fetching hmemory rfl hpending rfl hremaining hunused hpenalty'
            ⟨hstarted rfl, time, hcomplete, Nat.add_comm _ _⟩ hfresh.hits
            hfresh.fills hfresh.finishes hfresh.unused hleft
  | computing _ hexecuting | fetching _ hexecuting | accessing _ hexecuting
  | finished hexecuting =>
      rw [hidle] at hexecuting
      nomatch hexecuting

theorem Counted.counts (h : times.Counted config ins time station)
    (hcounts : station.Counts ins port other after log)
    (hexecuting : station.executing = true)
    (hpending : station.resultPending = false)
    (hkeeps : 0 < station.portCycles → port.isOpenTo station.name = true) :
    ((times.tellAll (time + 1) log).see (time + 1)
      other.portCycles).Counted config ins (time + 1) other := by
  cases h with
  | waiting hidle =>
      rw [hexecuting] at hidle
      nomatch hidle
  | finished _ hdone =>
      rw [hpending] at hdone
      nomatch hdone
  | @computing start hmemory _ _ hstarts hfills hfinishes hleft =>
      cases hcounts with
      | computes _ hmore =>
          refine .computing hmemory hexecuting hpending hstarts hfills hfinishes
            ?_
          dsimp only
          omega
      | computed _ hlast =>
          have hfinished : times.finishes ++ [time + 1] = [time + 1] := by
            rw [hfinishes, List.nil_append]
          refine .finished hexecuting rfl (fun haccess => ?_) ⟨_, hfinished⟩
            (onTime_of_computed hmemory hstarts hfills hfinished (by omega))
          rw [hmemory] at haccess
          nomatch haccess
      | awaits haccess | filled haccess | stands haccess | uses haccess
      | finishes haccess =>
          rw [hmemory] at haccess
          nomatch haccess
  | @fetching start hmemory _ _ hmissing hremaining hunused hpenalty hstarts hhits
      hfills hfinishes hnone hleft =>
      cases hcounts with
      | computes harithmetic | computed harithmetic =>
          rw [hmemory] at harithmetic
          nomatch harithmetic
      | awaits _ _ hmore =>
          refine .fetching hmemory hexecuting hpending hmissing hremaining hunused
            hpenalty hstarts hhits hfills hfinishes ?_ ?_
          · dsimp only
            rw [hunused]
            exact firstPort?_see_zero.trans hnone
          · dsimp only
            omega
      | filled _ _ hlast =>
          have hfilled : times.fills ++ [time + 1] = [time + 1] := by
            rw [hfills, List.nil_append]
          refine .accessing hmemory hexecuting hpending rfl
            (.fetched hstarts hhits hpenalty hfilled (by omega)) ?_ hfinishes ?_
          · refine .never hunused ?_ (le_refl _)
            dsimp only
            rw [hunused]
            exact firstPort?_see_zero.trans hnone
          · dsimp only
            rw [hremaining, hunused]
            omega
      | stands _ hresident | uses _ hresident | finishes _ hresident =>
          rw [hmissing] at hresident
          nomatch hresident
  | @accessing entry work hmemory _ _ hresident hreaches hoccupies hfinishes
      hleft =>
      cases hcounts with
      | computes harithmetic | computed harithmetic =>
          rw [hmemory] at harithmetic
          nomatch harithmetic
      | awaits _ hmissing | filled _ hmissing =>
          rw [hresident] at hmissing
          nomatch hmissing
      | stands _ _ hclosed =>
          -- the port would have been kept open to a station that has had it
          have hunused : station.portCycles = 0 := by
            cases hoccupies with
            | never hcount => exact hcount
            | since _ _ hcount =>
                rw [hkeeps hcount] at hclosed
                nomatch hclosed
          exact .accessing hmemory hexecuting hpending hresident
            (hreaches.later _ _) (hoccupies.rest hunused) hfinishes hleft
      | uses _ _ _ hcache hremaining hmore hless =>
          refine .accessing hmemory hexecuting hpending hresident
            (hreaches.later _ _) hoccupies.next hfinishes ?_
          dsimp only
          omega
      | finishes _ _ _ hlast =>
          obtain ⟨hused, hfinished, hontime⟩ := hreaches.finishes hmemory
            hoccupies hfinishes (by omega)
          exact .finished hexecuting rfl (fun _ => hused) ⟨_, hfinished⟩ hontime

theorem tellAll_ends {name : String} {address : Int}
    (hends : Station.Ends name ins address log) :
    times.tellAll now log = times := by
  cases hends with
  | branched _ hway => cases hway <;> rfl
  | stored | loaded | computed => rfl

theorem counted_occupied (m : Machine) (station : Station) (next : Stamped) :
    Counted m.config next.instruction m.cycle (m.occupied station next)
      { issues := [m.cycle], receipts := [], starts := [], hits := [],
        misses := [], fills := [], finishes := [], ports := [] } :=
  .waiting rfl rfl rfl rfl ⟨m.cycle, rfl, (Nat.max_zero _).symm⟩ (le_refl _)
    (fun _ => rfl) ⟨rfl, rfl, rfl, rfl, rfl, rfl⟩

/-- A step takes a cycle off, unless the station pauses in it. -/
theorem Counted.steps (h : times.Counted config ins time station)
    (hsteps : station.Steps port (.ofConfig config) other after log)
    (hins : station.instruction? = some ins) (hbusy : station.busy = true)
    (hsound : station.Sound) (hport : station.PortSound)
    (hopen : station.HasPort → port.isOpenTo station.name = true)
    (hpauses : station.justTransitioned = true → time = now)
    (hgoes : station.justTransitioned = false → time + 1 = now)
    (htold : isTold log = true) :
    ((times.tellAll now log).see now other.portCycles).Counted config ins now
      other := by
  have hawake : station.rests = false → time + 1 = now ∧
      station.resultPending = false := by
    intro hrests
    have hflags := (Station.rests_eq_false_iff.mp hrests).2
    exact ⟨hgoes hflags.1, hflags.2⟩
  cases hsteps with
  | rests hrests =>
      cases hpending : station.resultPending with
      | true => exact (h.later hpending now).see now
      | false =>
          have hpaused : station.justTransitioned = true := by
            simpa [Station.rests, hbusy, hpending] using hrests
          rw [← hpauses hpaused]
          exact h.see time
  | waits hrests hins' hidle hfinds hlacks =>
      obtain ⟨rfl, -⟩ := hawake hrests
      cases hins.symm.trans hins'
      have hnot := hfinds.frame.1.operandsReady_eq.trans (hlacks htold)
      refine Counted.see ?_ _
      have hfound := h.finds hfinds (time + 1)
      cases hfound with
      | waiting hidle' hpending hremaining hunused hready hpast _ hfresh =>
          refine .waiting hidle' hpending hremaining hunused hready (by omega)
            (fun hnow => ?_) hfresh
          rw [hnot] at hnow
          contradiction
      | computing _ hexecuting | fetching _ hexecuting | accessing _ hexecuting
      | finished hexecuting =>
          rw [hfinds.executing_eq, hidle] at hexecuting
          contradiction
  | breaks _ _ _ _ _ _ hlog huntold =>
      rw [isTold_append, hlog, huntold] at htold
      contradiction
  | begins hrests hins' hidle hready hfinds hstarts _ hcounts =>
      obtain ⟨rfl, hpending⟩ := hawake hrests
      cases hins.symm.trans hins'
      obtain ⟨hfound, hfoundCycles, hfoundRests, -⟩ := hfinds.frame
      obtain ⟨-, hbeganCycles, hbeganRests, hexecuting, -⟩ := hstarts.frame
      have hawake' := hbeganRests.trans (hfoundRests.trans hrests)
      have hbegan := (h.finds hfinds (time + 1)).starts hstarts
        (hfinds.executing_eq.trans hidle) (hfound.operandsReady_eq.trans hready)
      rw [tellAll_append, tellAll_append]
      refine hbegan.counts hcounts hexecuting
        (Station.rests_eq_false_iff.mp hawake').2.2 fun hbegun => ?_
      have hunused := (hport.of_idle hidle).2
      omega
  | goesOn hrests hins' hexecuting hcounts =>
      obtain ⟨rfl, hpending⟩ := hawake hrests
      cases hins.symm.trans hins'
      exact h.counts hcounts hexecuting hpending fun hbegun =>
        hopen (hport.hasPort hsound hbegun hpending)

end Times

/-! ## Stays in runs -/

namespace Stay

theorem times_addAll (stay : Stay) (now : Nat) (log : List Happening) :
    (stay.addAll now log).times = stay.times.tellAll now log := by
  induction log generalizing stay with
  | nil => rw [stay.addAll_nil]; rfl
  | cons happening rest ih =>
      have hone : (stay.addAll now [happening]).times =
          stay.times.tell now happening := by
        cases happening <;>
          simp [times, cyclesOf, addAll, Times.tell, Happening.kind]
      have hsplit : happening :: rest = [happening] ++ rest := rfl
      rw [hsplit, ← addAll_addAll, ih, hone]
      rfl

theorem times_see (stay : Stay) (now : Nat) (station : Station) :
    (stay.see now station).times = stay.times.see now station.portCycles :=
  rfl

def OnTime (config : Config) (stay : Stay) : Prop :=
  stay.times.OnTime config stay.instruction

def KeepsUp (config : Config) (now : Nat) (stay : Stay) : Prop :=
  stay.times.KeepsUp config stay.instruction now

/-- The stay is on time, and nothing of it is due any more. -/
def IsPunctual (config : Config) (stay : Stay) : Prop :=
  stay.OnTime config ∧ ∀ now, stay.KeepsUp config now

/-- Behind a cycle the counters of the station have counted it. -/
def IsCounted (config : Config) (now : Nat) (station : Station) (stay : Stay) :
    Prop :=
  stay.times.Counted config stay.instruction now station

/-- In the midst of a cycle the counters of a station have counted the one
before, and if the station pauses also this one. -/
def IsCountedWithin (config : Config) (now : Nat) (station : Station)
    (stay : Stay) : Prop :=
  ∃ time, stay.times.Counted config stay.instruction time station ∧
    (station.justTransitioned = true → time = now) ∧
    (station.justTransitioned = false → time + 1 = now)

end Stay

/-- The parts of a cycle keep the counters of a station in step with the times of
its stay. -/
theorem upkeep_isCounted (config : Config) (name : String) :
    Upkeep config name (Stay.IsCountedWithin config) (Stay.IsCounted config)
      (Stay.OnTime config) (Stay.IsPunctual config) where
  begin := by
    intro now station stay hhosts h
    refine ⟨now, h.endPause, fun hpaused => ?_, fun _ => rfl⟩
    rw [Station.endPause, if_pos hhosts.busy] at hpaused
    contradiction
  hears := by
    intro now station stay tag value hhosts hsound hport h hhears
    obtain ⟨time, hcounted, hpauses, hgoes⟩ := h
    have hidle : station.executing = false := by
      by_contra hexecuting
      have hready := hport.operandsReady hsound hhosts.busy
        (by simpa using hexecuting)
      rw [Station.hears_eq_false hready] at hhears
      contradiction
    have hpast : time ≤ now := by
      cases hpaused : station.justTransitioned with
      | true => exact (hpauses hpaused).le
      | false => exact Nat.le_of_succ_le (hgoes hpaused).le
    refine ⟨now, ?_, fun _ => rfl, fun hawake => ?_⟩
    · rw [Stay.times_addAll]
      exact hcounted.receive hhears hidle value hpast
    · rw [Station.receive, if_pos (Bool.and_eq_true_iff.mp hhears).2] at hawake
      contradiction
  leaves := by
    intro now station stay log hhosts h hpending hends
    obtain ⟨time, hcounted, -⟩ := h
    have hsame : (stay.addAll now log).times = stay.times := by
      rw [Stay.times_addAll, Times.tellAll_ends hends]
    refine ⟨?_, fun later => ?_⟩
    · rw [Stay.OnTime, hsame]
      exact hcounted.onTime
    · rw [Stay.KeepsUp, hsame]
      exact (hcounted.later hpending later).keepsUp
  resolves := by
    intro now station stay hhosts h hpending hform
    obtain ⟨time, hcounted, -⟩ := h
    rw [Stay.OnTime, Stay.times_see, Stay.times_addAll]
    exact (hcounted.see now).onTime
  issued := by
    intro m station next hconfig _
    refine ⟨m.cycle, ?_, fun _ => rfl, fun hawake => ?_⟩
    · rw [← hconfig]
      exact Times.counted_occupied m station next
    · contradiction
  steps := by
    intro now station stay port other after log hhosts hsound hport h hopen
      hsteps htold
    obtain ⟨time, hcounted, hpauses, hgoes⟩ := h
    rw [Stay.IsCounted, Stay.times_see, Stay.times_addAll]
    exact hcounted.steps hsteps hhosts.instruction hhosts.busy hsound hport hopen
      hpauses hgoes htold
  breaks := by
    intro now station stay port other after log hhosts _ hport h hsteps htold
    obtain ⟨time, hcounted, -⟩ := h
    obtain ⟨hcycles, hlog⟩ := hsteps.of_untold htold
    have hsame : stay.times.tellAll now (log.takeWhile Happening.isTellable) =
        stay.times := by
      rcases hlog with hnothing | ⟨address, haddress⟩
      · rw [hnothing]
        rfl
      · rw [haddress]
        rfl
    rw [Stay.OnTime, Stay.times_see, Stay.times_addAll, hsame, hcycles]
    exact (hcounted.see now).onTime
  misses := by
    intro now station stay hhosts h
    obtain ⟨time, hcounted, -⟩ := h
    exact (hcounted.see now).onTime
  sofar_behind := fun h => h.onTime
  sofar_whole := And.left

variable {config : Config} {name : String}

theorem Diary.Fits.keepsUp {now : Nat} {station : Station} {diary : Diary}
    (h : diary.Fits name (Stay.IsCounted config now) (Stay.IsPunctual config)
      station) : ∀ stay ∈ diary, stay.KeepsUp config now := by
  intro stay hmem
  cases h with
  | free _ hpast => exact (hpast stay hmem).2 now
  | occupied _ hcounted hpast =>
      rcases List.mem_cons.mp hmem with rfl | hmem
      · exact hcounted.keepsUp
      · exact (hpast stay hmem).2 now

theorem Watch.Fits.keepsUp {watch : Watch}
    (h : watch.Fits config name (Stay.IsCounted config)
      (Stay.IsPunctual config)) :
    ∀ stay ∈ watch.diary,
      stay.KeepsUp config watch.simulation.machine.cycle := by
  cases hstation : watch.simulation.machine.bank.station? name with
  | some station => exact (h.fits hstation).keepsUp
  | none =>
      rw [h.absent hstation]
      exact fun _ hmem => absurd hmem List.not_mem_nil

/-- Along every run of a new machine everything that is told of the execution of
an instruction is told at its time.  A run that is not broken off is watched to
its end, and then nothing of what was due by its last cycle is missing. -/
theorem Simulation.execution_on_time (config : Config)
    (preload : List (Int × Int)) (actions : List Action) (name : String) :
    ((fresh config preload).watch name actions).diary.events =
        ((fresh config preload).watch name actions).simulation.eventsAt name ∧
      (∀ stay ∈ ((fresh config preload).watch name actions).diary,
        stay.OnTime config) ∧
      (((fresh config preload).watch name actions).brokenOff = false →
        ((fresh config preload).watch name actions).simulation =
            (fresh config preload).after actions ∧
          ∀ stay ∈ ((fresh config preload).watch name actions).diary,
            stay.KeepsUp config
              ((fresh config preload).after actions).machine.cycle) := by
  have hkept := (upkeep_isCounted config name).kept_watch preload actions
  refine ⟨hkept.events_eq, hkept.closed.2, fun hwhole => ?_⟩
  have hsame := (fresh config preload).watch_simulation name actions hwhole
  refine ⟨hsame, ?_⟩
  rw [← hsame]
  exact (hkept.fits hwhole).keepsUp

end OutOfOrder
