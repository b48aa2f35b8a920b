import Mathlib.Algebra.Ring.Nat
import OutOfOrder.Proofs.Operands
import OutOfOrder.Proofs.PortSharing

/-!
# The effort that is left

The effort of a station bounds the steps that it still needs, and the effort of
a machine counts in what is still to be issued.  No phase of a completed cycle
makes it greater.  A write-back and an issue make it less, and so does execution
unless every station waits: for a pause to end, for the bus, for an operand or
for the port.
-/

namespace OutOfOrder

theorem countDown_lt {counter : Int} (h : 0 < counter) :
    (countDown counter).toNat < counter.toNat := by
  rw [countDown, if_pos h]
  omega

theorem countDown_eq_zero {counter : Int} (hnonneg : 0 ≤ counter)
    (h : ¬0 < counter) : countDown counter = 0 := by
  rw [countDown, if_neg h]
  omega

/-- Counters of which the second one waits for the first one come closer to
their end, unless both of them are there. -/
theorem countDown_counters_lt {first second : Int} (hfirst : 0 ≤ first)
    (hsecond : 0 ≤ second)
    (h : ¬(countDown first = 0 ∧
      (if 0 < first then second else countDown second) = 0)) :
    (countDown first).toNat +
        (if 0 < first then second else countDown second).toNat <
      first.toNat + second.toNat := by
  by_cases hruns : 0 < first
  · have hless := countDown_lt hruns
    rw [if_pos hruns]
    omega
  · rw [if_neg hruns] at h ⊢
    have hover := countDown_eq_zero hfirst hruns
    have hpositive : 0 < second := by
      by_contra hdone
      exact h ⟨hover, countDown_eq_zero hsecond hdone⟩
    have hless := countDown_lt hpositive
    omega

namespace Station

variable {station : Station} {ins : Instruction} {port : Port} {cache : Cache}
  {geometry : Geometry}

/-- The cycles that the access of a station still needs at most, for the cache
and for its block. -/
def accessEffort (geometry : Geometry) (station : Station) : Nat :=
  if station.executing then
    station.cacheRemaining.toNat + if station.blockResident then 0 else 1
  else geometry.hitLatency + geometry.missPenalty + 2

/-- The steps that a station still needs at most, its write-back included. -/
def effort (geometry : Geometry) (station : Station) : Nat :=
  if station.busy then
    if station.resultPending then 1
    else station.remaining.toNat + station.accessEffort geometry + 2
  else 0

/-- Why a station gets nowhere in a cycle: it rests, it has not begun and misses
an operand, or the port is closed to it. -/
def Waits (port : Port) (station : Station) : Prop :=
  station.rests = true ∨
    station.operandsReady = false ∧ station.executing = false ∨
    port.isOpenTo station.name = false

/-- A step makes the effort less, or it leaves the effort and the port as they
are, and the station waits. -/
def Advances (geometry : Geometry) (station : Station) (port : Port)
    (other : Station) (after : Port) : Prop :=
  other.effort geometry < station.effort geometry ∨
    other.effort geometry = station.effort geometry ∧ after = port ∧
      station.Waits port

theorem effort_of_awake (hbusy : station.busy = true)
    (hpending : station.resultPending = false) :
    station.effort geometry =
      station.remaining.toNat + station.accessEffort geometry + 2 := by
  rw [effort, if_pos hbusy, if_neg (by simp [hpending])]

theorem Kept.effort_eq (h : station.Kept other) :
    other.effort geometry = station.effort geometry := by
  obtain ⟨_, _, _, rfl⟩ := h
  rfl

/-! ## Arithmetic -/

theorem advances_compute (h : station.Progress ins)
    (hbusy : station.busy = true) (hpending : station.resultPending = false)
    (hmemory : ins.opcode.isMemory = false) :
    station.Advances geometry port (station.compute ins).1 port := by
  unfold compute
  split
  · next hwaits =>
      simp only [Bool.and_eq_true, Bool.not_eq_true'] at hwaits
      exact .inr ⟨rfl, rfl, .inr (.inl ⟨hwaits.2, hwaits.1⟩)⟩
  · left
    have haccess : (if station.blockResident then 0 else 1) ≤
        station.accessEffort geometry := by
      have hcache := h.uncached hmemory
      unfold accessEffort
      split
      · rw [hcache]
        exact Nat.le_add_left _ _
      · split <;> omega
    have hremaining := h.remaining
    rw [effort_of_awake hbusy hpending]
    generalize station.accessEffort geometry = access at haccess ⊢
    dsimp only
    split
    · simp only [effort, hbusy, if_true]
      omega
    · next hcounts =>
        have hpositive : 0 < station.remaining := by
          by_contra hover
          exact hcounts (countDown_eq_zero hremaining hover)
        have hless := countDown_lt hpositive
        simp only [effort, accessEffort, hbusy, hpending, h.uncached hmemory,
          if_true, Bool.false_eq_true, if_false, Int.toNat_zero]
        omega

/-! ## Memory accesses -/

theorem effort_findAddress (station : Station) (ins : Instruction) :
    (station.findAddress ins).1.effort geometry = station.effort geometry := by
  unfold findAddress
  split <;> rfl

theorem effort_startAccess_lt (hbusy : station.busy = true)
    (hpending : station.resultPending = false)
    (hexecuting : station.executing = false) :
    (station.startAccess ins cache).1.effort cache.geometry <
      station.effort cache.geometry := by
  have hprobe : (cache.probe station.address).1 ≤ cache.geometry.missPenalty ∧
      (cache.probe station.address).2.geometry = cache.geometry := by
    unfold Cache.probe
    split
    · exact ⟨Nat.zero_le _, rfl⟩
    · exact ⟨Nat.le_refl _, rfl⟩
  rw [effort_of_awake hbusy hpending]
  unfold startAccess
  dsimp only
  split
  · simp only [effort, accessEffort, hbusy, hpending, hexecuting, if_true,
      Bool.false_eq_true, if_false, hprobe.2]
    omega
  · simp only [effort, accessEffort, hbusy, hpending, hexecuting, if_true,
      Bool.false_eq_true, if_false]
    omega

theorem effort_awaitBlock_lt (hcache : 0 ≤ station.cacheRemaining)
    (hbusy : station.busy = true) (hpending : station.resultPending = false)
    (hexecuting : station.executing = true)
    (hmissing : station.blockResident = false) :
    (station.awaitBlock cache).1.effort geometry < station.effort geometry := by
  rw [effort_of_awake hbusy hpending]
  unfold awaitBlock
  dsimp only
  split
  · next hover =>
      simp only [effort, accessEffort, hbusy, hpending, hexecuting, hmissing,
        if_true, Bool.false_eq_true, if_false, hover]
      omega
  · next hcounts =>
      have hpositive : 0 < station.cacheRemaining := by
        by_contra hover
        exact hcounts (countDown_eq_zero hcache hover)
      have hless := countDown_lt hpositive
      simp only [effort, accessEffort, hbusy, hpending, hexecuting, hmissing,
        if_true, Bool.false_eq_true, if_false]
      omega

theorem advances_usePort (hremaining : 0 ≤ station.remaining)
    (hcache : 0 ≤ station.cacheRemaining)
    (hbusy : station.busy = true) (hpending : station.resultPending = false)
    (hexecuting : station.executing = true)
    (hresident : station.blockResident = true) :
    station.Advances geometry port (station.usePort ins port).1
      (station.usePort ins port).2.1 := by
  have hcounts := countDown_counters_lt hcache hremaining
  unfold usePort
  dsimp only
  generalize (if 0 < station.cacheRemaining
    then station.remaining else countDown station.remaining) = remaining
    at hcounts ⊢
  split
  · next hclosed => exact .inr ⟨rfl, rfl, .inr (.inr (by simpa using hclosed))⟩
  · left
    rw [effort_of_awake hbusy hpending]
    split
    · simp only [effort, hbusy, if_true]
      omega
    · next hgoes =>
        have hless := hcounts hgoes
        simp only [effort, accessEffort, hbusy, hpending, hexecuting,
          hresident, if_true, Bool.false_eq_true, if_false]
        omega

theorem advances_continueAccess (hremaining : 0 ≤ station.remaining)
    (hcache : 0 ≤ station.cacheRemaining)
    (hbusy : station.busy = true) (hpending : station.resultPending = false)
    (hexecuting : station.executing = true) :
    station.Advances geometry port
      (station.continueAccess ins port cache).station
      (station.continueAccess ins port cache).port := by
  unfold continueAccess
  split
  · next hresident =>
      exact advances_usePort hremaining hcache hbusy hpending hexecuting
        hresident
  · next hmissing =>
      exact .inl (effort_awaitBlock_lt hcache hbusy hpending hexecuting
        (by simpa using hmissing))

theorem Advances.effort_le {other : Station} {after : Port}
    (h : station.Advances geometry port other after) :
    other.effort geometry ≤ station.effort geometry := by
  rcases h with hless | ⟨hsame, -, -⟩
  · exact Nat.le_of_lt hless
  · exact Nat.le_of_eq hsame

theorem Advances.of_findAddress {other : Station} {after : Port}
    (h : (station.findAddress ins).1.Advances geometry port other after) :
    station.Advances geometry port other after := by
  unfold findAddress at h
  split at h
  · exact h
  · exact h

/-- An access that may not begin misses an operand. -/
theorem waits_of_mayAccess (h : station.Progress ins)
    (hmemory : ins.opcode.isMemory = true)
    (hmay : (station.findAddress ins).1.mayAccess ins = false) :
    station.Waits port := by
  cases hexecuting : station.executing with
  | true =>
      have haddress := (h.accessing hmemory hexecuting).1
      simp [findAddress, mayAccess, haddress, hexecuting] at hmay
  | false =>
      refine .inr (.inl ⟨?_, hexecuting⟩)
      cases hj : station.j.isReady with
      | false => simp [operandsReady, hj]
      | true =>
          have haddress : (station.findAddress ins).1.addressReady = true := by
            unfold findAddress
            split
            · next hknown => simpa [hj] using hknown
            · rfl
          have hk := (sameWork_findAddress station ins).k
          simp only [mayAccess, haddress, hk, Bool.true_and, Bool.or_eq_false_iff]
            at hmay
          simp [operandsReady, hmay.2]

theorem counters_startAccess (hremaining : 0 ≤ station.remaining) :
    0 ≤ (station.startAccess ins cache).1.remaining ∧
      0 ≤ (station.startAccess ins cache).1.cacheRemaining := by
  unfold startAccess
  dsimp only
  split
  · exact ⟨hremaining, Int.natCast_nonneg _⟩
  · exact ⟨hremaining, Int.natCast_nonneg _⟩

theorem advances_access (h : station.Progress ins)
    (hbusy : station.busy = true) (hpending : station.resultPending = false)
    (hmemory : ins.opcode.isMemory = true)
    (htold : isTold (station.access ins port cache).log = true) :
    station.Advances cache.geometry port
      (station.access ins port cache).station
      (station.access ins port cache).port := by
  have hfound := sameWork_findAddress station ins
  have hfoundBusy := hfound.busy.trans hbusy
  have hfoundPending :=
    (resultPending_findAddress station ins).trans hpending
  have hprogress := h.findAddress
  unfold access at htold ⊢
  dsimp only at htold ⊢
  split at htold
  · next hstops =>
      rw [if_pos hstops]
      refine .inr ⟨effort_findAddress station ins, rfl, ?_⟩
      rw [htold, Bool.not_true, Bool.false_or, Bool.not_eq_true'] at hstops
      exact waits_of_mayAccess h hmemory hstops
  · next hgoes =>
      rw [if_neg hgoes]
      split
      · next hexecuting =>
          split
          · next huntold => nomatch huntold
          · exact (advances_continueAccess hprogress.remaining
              hprogress.cacheRemaining hfoundBusy hfoundPending
              hexecuting).of_findAddress
      · next hidle =>
          have hless : ((station.findAddress ins).1.startAccess ins
              cache).1.effort cache.geometry < station.effort cache.geometry :=
            (effort_startAccess_lt hfoundBusy hfoundPending
              (by simpa using hidle)).trans_eq (effort_findAddress station ins)
          have hcounters : 0 ≤ ((station.findAddress ins).1.startAccess ins
              cache).1.remaining ∧ 0 ≤ ((station.findAddress
                ins).1.startAccess ins cache).1.cacheRemaining :=
            counters_startAccess hprogress.remaining
          have hstarted :=
            sameWork_startAccess (station.findAddress ins).1 ins cache
          split
          · exact .inl hless
          · refine .inl (Nat.lt_of_le_of_lt ?_ hless)
            exact (advances_continueAccess hcounters.1 hcounters.2
              (hstarted.busy.trans hfoundBusy)
              ((resultPending_startAccess _ ins cache).trans hfoundPending)
              (executing_startAccess _ ins cache)).effort_le

theorem advances_execute (h : station.Sound)
    (htold : isTold (station.execute port cache).log = true) :
    station.Advances cache.geometry port
      (station.execute port cache).station
      (station.execute port cache).port := by
  unfold execute at htold ⊢
  split at htold
  · next hrests =>
      rw [if_pos hrests]
      exact .inr ⟨rfl, rfl, .inl hrests⟩
  · next hawake =>
      rw [if_neg hawake]
      simp only [rests, Bool.or_eq_true, not_or, Bool.not_eq_true,
        Bool.not_eq_false'] at hawake
      obtain ⟨⟨hbusy, -⟩, hpending⟩ := hawake
      obtain ⟨ins, hins, hprogress⟩ := h.working hbusy
      rw [hins] at htold ⊢
      dsimp only at htold ⊢
      split at htold
      · next hmemory =>
          rw [if_pos hmemory]
          exact advances_access hprogress hbusy hpending hmemory htold
      · next hmemory =>
          rw [if_neg hmemory]
          exact advances_compute hprogress hbusy hpending
            (by simpa using hmemory)

end Station

namespace Bank

variable {bank : Bank} {port : Port} {cache : Cache} {geometry : Geometry}

def effort (geometry : Geometry) (bank : Bank) : Nat :=
  (bank.map (Station.effort geometry)).sum

theorem effort_cons (station : Station) (rest : Bank) :
    effort geometry (station :: rest) =
      station.effort geometry + effort geometry rest :=
  List.sum_cons

theorem advances_execute (hsound : ∀ station ∈ bank, station.Sound)
    (htold : isTold (bank.execute port cache).2.2.2 = true) :
    effort cache.geometry (bank.execute port cache).1 <
        effort cache.geometry bank ∨
      effort cache.geometry (bank.execute port cache).1 =
          effort cache.geometry bank ∧
        ∀ station ∈ bank, station.Waits port := by
  induction bank generalizing port cache with
  | nil => exact .inr ⟨rfl, fun _ hmem => absurd hmem List.not_mem_nil⟩
  | cons station rest ih =>
      obtain ⟨hstation, hrest⟩ := List.forall_mem_cons.mp hsound
      have hgeometry : (station.execute port cache).cache.geometry =
          cache.geometry :=
        congrArg Prod.fst (Station.base_execute station port cache)
      cases hfirst : isTold (station.execute port cache).log with
      | false =>
          rw [execute_cons_of_untold hfirst] at htold
          exact absurd (hfirst.symm.trans htold) Bool.false_ne_true
      | true =>
          rw [execute_cons_of_told hfirst] at htold ⊢
          dsimp only at htold ⊢
          rw [isTold_append, Bool.and_eq_true] at htold
          have hstep := Station.advances_execute hstation hfirst
          have hother := @ih (station.execute port cache).port
            (station.execute port cache).cache hrest htold.2
          rw [hgeometry] at hother
          rw [effort_cons, effort_cons]
          rcases hstep with hless | ⟨hsame, hport, hwaits⟩
          · left
            rcases hother with hother | ⟨hother, -⟩
            · omega
            · omega
          · rw [hport] at hother ⊢
            rcases hother with hother | ⟨hother, hall⟩
            · left
              omega
            · exact .inr ⟨by omega, List.forall_mem_cons.mpr ⟨hwaits, hall⟩⟩

/-- Changing the first station that meets a condition changes the effort by what
it changes that of this station. -/
theorem effort_changeFirst {condition : Station → Bool} {station : Station}
    (h : bank.find? condition = some station) (change : Station → Station)
    (geometry : Geometry) :
    effort geometry (bank.changeFirst condition change) +
        station.effort geometry =
      effort geometry bank + (change station).effort geometry := by
  obtain ⟨hmeets, front, back, rfl, hfront⟩ :=
    List.find?_eq_some_iff_append.mp h
  rw [changeFirst_append (by simpa using hfront) hmeets]
  simp only [effort, List.map_append, List.map_cons, List.sum_append,
    List.sum_cons]
  omega

theorem effort_map {change : Station → Station}
    (hkeeps : ∀ station, (change station).effort geometry =
      station.effort geometry) (bank : Bank) :
    effort geometry (bank.map change) = effort geometry bank :=
  congrArg List.sum (map_map_of_keeps hkeeps bank)

end Bank

namespace Machine

variable {m m' : Machine} {ledger : Ledger} {log : List Happening}

/-! ## Phases -/

/-- The steps that an instruction needs at most, its issue included. -/
def cost (m : Machine) (next : Stamped) : Nat :=
  m.config.value next.instruction.opcode.latency +
    m.cache.geometry.hitLatency + m.cache.geometry.missPenalty + 5

/-- The steps that the machine still needs at most. -/
def effort (m : Machine) : Nat :=
  m.bank.effort m.cache.geometry + (m.queue.map m.cost).sum

theorem effort_begin (m : Machine) : m.begin.effort = m.effort :=
  congrArg (· + _) (Bank.effort_map
    (fun station => station.kept_endPause.effort_eq) m.bank)

theorem SameFrame.cost_eq (h : m.SameFrame m') : m'.cost = m.cost := by
  funext next
  rw [cost, cost, h.config, h.geometry]

/-- A write-back makes the effort less if it lets the program go forward. -/
theorem WritesBack.effort_lt_or (hphase : m.WritesBack m' log)
    (htold : isTold log = true) (hforward : m'.queue <:+ m.queue) :
    m'.effort < m.effort ∨ m' = m ∧ m.bank.granted? = none := by
  cases hgranted : m.bank.granted? with
  | none => exact .inr ⟨hphase.eq_self htold hgranted, rfl⟩
  | some station =>
      left
      have hframe := hphase.sameFrame
      have hqueue : (m'.queue.map m.cost).sum ≤ (m.queue.map m.cost).sum := by
        obtain ⟨dropped, hdropped⟩ := hforward
        rw [← hdropped, List.map_append, List.sum_append]
        exact Nat.le_add_left _ _
      have hreleased : m.released.bank.effort m.cache.geometry +
          station.effort m.cache.geometry =
            m.bank.effort m.cache.geometry + 0 :=
        Bank.effort_changeFirst hgranted Station.release m.cache.geometry
      have hstation : station.effort m.cache.geometry = 1 := by
        obtain ⟨-, hbusy, hpending⟩ := mem_of_granted? hgranted
        rw [Station.effort, if_pos hbusy, if_pos hpending]
      have hbank : m'.bank.effort m.cache.geometry =
          m.released.bank.effort m.cache.geometry := by
        rcases hphase.bank_eq htold hgranted with heq | ⟨tag, value, heq⟩
        · rw [heq]
        · rw [heq]
          exact Bank.effort_map
            (fun other => (other.kept_listen tag value).effort_eq) _
      rw [effort, effort, hframe.geometry, hframe.cost_eq, hbank]
      omega

/-- An issue makes the effort less.  Where there is none, nothing is to be issued
or the next instruction finds no station. -/
theorem Issues.effort_lt_or (hphase : m.Issues m' log) :
    m'.effort < m.effort ∨ m' = m ∧ (m.queue = [] ∨
      ∃ next ∈ m.queue,
        m.bank.free? next.instruction.opcode.pool = none) := by
  have hframe := hphase.sameFrame
  cases hphase with
  | drained hqueue => exact .inr ⟨rfl, .inl hqueue⟩
  | @stalled next rest hqueue hfree =>
      refine .inr ⟨rfl, .inr ⟨next, ?_, hfree⟩⟩
      rw [hqueue]
      exact List.mem_cons_self
  | @issued next rest station hqueue hfree =>
      left
      have hbank := Bank.effort_changeFirst hfree (m.occupied · next)
        m.cache.geometry
      have hbefore : station.effort m.cache.geometry = 0 := by
        rw [Station.effort, if_neg (by simp [(mem_of_free? hfree).2.2])]
      have hafter : (m.occupied station next).effort m.cache.geometry + 1 =
          m.cost next := by
        have hbegins : (m.occupied station next).effort m.cache.geometry =
            m.config.value next.instruction.opcode.latency +
              (m.cache.geometry.hitLatency + m.cache.geometry.missPenalty + 2) +
                2 := rfl
        rw [hbegins, cost]
        omega
      rw [effort, effort, hframe.cost_eq, hqueue, List.map_cons, List.sum_cons]
      dsimp only
      omega

theorem effort_execute_lt_or (hsound : m.Sound)
    (htold : isTold m.execute.2 = true) :
    m.execute.1.effort < m.effort ∨
      m.execute.1.effort = m.effort ∧
        ∀ station ∈ m.bank, station.Waits ⟨m.portOwner, false⟩ := by
  have hframe := sameFrame_execute m
  have hstations : ∀ station ∈ m.bank, station.Sound := fun station hmem =>
    hsound.station (hsound.distinct.station?_name hmem)
  rw [effort, effort, hframe.geometry, hframe.cost_eq]
  rcases Bank.advances_execute hstations htold with hless | ⟨hsame, hwaits⟩
  · exact .inl (Nat.add_lt_add_right hless _)
  · exact .inr ⟨congrArg (· + _) hsame, hwaits⟩

/-! ## Who goes on -/

/-- Of the stations at work, that with the earliest issue has its operands. -/
theorem Agrees.exists_operandsReady (h : m.Agrees ledger)
    (hworks : m.bank.isFree = false) :
    ∃ station ∈ m.bank, station.busy = true ∧
      station.operandsReady = true := by
  have hseated : ∀ number name, ledger.seat? name = some number →
      ∃ station ∈ m.bank, station.busy = true ∧
        station.operandsReady = true := by
    intro number
    -- who waits names an earlier issue that is seated too
    induction number using Nat.strong_induction_on with
    | _ number ih =>
        intro name hseat
        obtain ⟨station, _, hstation, hbusy, -, -⟩ := h.occupied hseat
        have hpending : ∀ slot tag, station.operand slot = .pending tag →
            ∃ station ∈ m.bank, station.busy = true ∧
              station.operandsReady = true := by
          intro slot tag hslot
          obtain ⟨number', producer, _, _, _, hnumber, hproducer, hlt, -⟩ :=
            h.namesProducers name station slot tag hstation hbusy hslot
          rw [hseat] at hnumber
          cases hnumber
          exact ih producer hlt tag hproducer
        cases hj : station.j with
        | pending tag => exact hpending .first tag hj
        | absent | ready =>
            cases hk : station.k with
            | pending tag => exact hpending .second tag hk
            | absent | ready =>
                exact ⟨station, Bank.mem_of_station? hstation, hbusy,
                  by simp [Station.operandsReady, hj, hk, Operand.isReady]⟩
  obtain ⟨station, hmem, hbusy⟩ := Bank.isFree_eq_false_iff.mp hworks
  obtain ⟨number, hseat⟩ :=
    h.seated (h.sound.distinct.station?_name hmem) hbusy
  exact hseated number station.name hseat

/-- If nobody pauses and nobody asks for the bus, a station at work goes on: that
with the earliest issue, or the one that holds the port. -/
theorem Agrees.not_all_wait (h : m.Agrees ledger) (hport : m.PortHeld)
    (hworks : m.bank.isFree = false)
    (hawake : ∀ station ∈ m.bank, station.busy = true →
      station.rests = false) :
    ¬∀ station ∈ m.bank, station.Waits ⟨m.portOwner, false⟩ := by
  intro hall
  obtain ⟨station, hmem, hbusy, hready⟩ := h.exists_operandsReady hworks
  rcases hall station hmem with hrests | ⟨hmissing, -⟩ | hclosed
  · rw [hawake station hmem hbusy] at hrests
    nomatch hrests
  · rw [hready] at hmissing
    nomatch hmissing
  -- only an owner keeps a ready station from the port, and the owner can go on
  · cases howner : m.portOwner with
    | none =>
        rw [howner] at hclosed
        nomatch hclosed
    | some name =>
        obtain ⟨owner, hfound, hholds, hbusy⟩ := hport.exists_owner howner
        have hname := Bank.name_of_station? hfound
        have hbank := Bank.mem_of_station? hfound
        rcases hall owner hbank with hrests | ⟨-, hidle⟩ | hclosed
        · rw [hawake owner hbank hbusy] at hrests
          nomatch hrests
        · rw [hholds.executing] at hidle
          nomatch hidle
        · simp [Port.isOpenTo, howner, hname] at hclosed

end Machine

end OutOfOrder
