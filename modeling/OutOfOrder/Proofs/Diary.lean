import Mathlib.Data.List.Induction
import OutOfOrder.Proofs.PortSharing

/-!
# The diary of a station

A diary is kept of one station along a run.  Each issue to the station opens an
entry for the stay of the instruction, with the operands as they are behind the
issue.  Into it go what is told of the station until the next issue, with the
cycles, and the cycles at whose end the station is at work, with the number of
cycles for which it has had the port by then.  A run is watched up to the first
cycle that is broken off.

What relates a station to the stay of its instruction, and is kept by the parts
of a cycle, holds along every run that is watched.  A stay that has come to its
end is whole, and the last one is as it should be so far.
-/

namespace OutOfOrder

/-- The stay of an instruction in a station. -/
structure Stay where
  instruction : Instruction
  /-- The first operand, as it was behind the issue. -/
  first : Operand
  /-- The second operand, as it was behind the issue. -/
  second : Operand
  /-- What was told of the station from the issue on. -/
  events : List Event
  /-- The cycles at whose end the station was at work, and for how many cycles it
  had had the load/store port by then. -/
  ports : List (Nat × Int) := []

namespace Stay

/-- The stay of an instruction that is issued to a station. -/
def opened (now : Nat) (station : String) (ins : Instruction)
    (operands : Operand × Operand) : Stay where
  instruction := ins
  first := operands.1
  second := operands.2
  events := [⟨now, .issued station ins⟩]

/-- The stay after something more was told in a cycle. -/
def addAll (stay : Stay) (now : Nat) (log : List Happening) : Stay :=
  { stay with events := stay.events ++ log.map (Event.mk now) }

/-- The stay after a cycle at whose end the station was at work. -/
def see (stay : Stay) (now : Nat) (station : Station) : Stay :=
  { stay with ports := stay.ports ++ [(now, station.portCycles)] }

/-- What was told, without the cycles. -/
def log (stay : Stay) : List Happening :=
  stay.events.map (·.happening)

end Stay

/-- The stays of the instructions in a station, the last one first. -/
abbrev Diary := List Stay

def Machine.operandsOf (m : Machine) (name : String) : Operand × Operand :=
  match m.bank.station? name with
  | some station => (station.j, station.k)
  | none => (.absent, .absent)

namespace Diary

/-- The diary after something was told of the station, whose operands are given
as they are behind the issue of the cycle. -/
def enter (now : Nat) (operands : Operand × Operand) (diary : Diary)
    (happening : Happening) : Diary :=
  match happening, diary with
  | .issued station ins, _ => .opened now station ins operands :: diary
  | _, [] => []
  | _, stay :: past => stay.addAll now [happening] :: past

def enterAll (now : Nat) (operands : Operand × Operand) (diary : Diary)
    (log : List Happening) : Diary :=
  log.foldl (enter now operands) diary

def see (diary : Diary) (now : Nat) (station : Station) : Diary :=
  match diary with
  | [] => []
  | stay :: past =>
    if station.busy then stay.see now station :: past else stay :: past

/-- The diary after a cycle of a machine, be it completed or broken off. -/
def afterCycle (diary : Diary) (name : String) (m : Machine) : Diary :=
  let now := m.cycle + 1
  let entered := diary.enterAll now (m.atExecution.operandsOf name)
    (toldAt name m.advance.2)
  match m.advance.1.bank.station? name with
  | some station => entered.see now station
  | none => entered

def events (diary : Diary) : List Event :=
  diary.reverse.flatMap (·.events)

end Diary

/-- A run of which the diary of a station is kept. -/
structure Watch where
  simulation : Simulation
  diary : Diary := []
  /-- A cycle was broken off, and the run ends with it. -/
  brokenOff : Bool := false

/-- The run after one more action, if none was broken off. -/
def Watch.act (name : String) (watch : Watch) (action : Action) : Watch :=
  if watch.brokenOff then watch
  else
    let m := watch.simulation.machine
    match action with
    | .cycle =>
      { simulation := watch.simulation.cycle
        diary := watch.diary.afterCycle name m
        brokenOff := !isTold m.advance.2 }
    | _ => { watch with simulation := watch.simulation.act action }

def Simulation.watch (sim : Simulation) (name : String)
    (actions : List Action) : Watch :=
  actions.foldl (Watch.act name) ⟨sim, [], false⟩

/-! ## Entering what is told -/

namespace Stay

theorem addAll_nil (stay : Stay) (now : Nat) : stay.addAll now [] = stay := by
  rw [addAll, List.map_nil, List.append_nil]

theorem addAll_addAll (stay : Stay) (now : Nat) (log rest : List Happening) :
    (stay.addAll now log).addAll now rest = stay.addAll now (log ++ rest) := by
  rw [addAll, addAll, addAll, List.map_append, List.append_assoc]

theorem log_addAll (stay : Stay) (now : Nat) (log : List Happening) :
    (stay.addAll now log).log = stay.log ++ log := by
  simp [Stay.log, addAll, Function.comp_def]

end Stay

namespace Diary

variable {diary : Diary} {stay : Stay} {past : List Stay} {now : Nat}
  {operands : Operand × Operand} {log : List Happening} {happening : Happening}

theorem enter_of_ne (h : happening.kind ≠ .issue) :
    enter now operands (stay :: past) happening =
      stay.addAll now [happening] :: past := by
  cases happening with
  | issued => exact absurd rfl h
  | _ => rfl

theorem enterAll_nil (now : Nat) (operands : Operand × Operand)
    (diary : Diary) : diary.enterAll now operands [] = diary :=
  rfl

theorem enterAll_append (diary : Diary) (log rest : List Happening) :
    diary.enterAll now operands (log ++ rest) =
      (diary.enterAll now operands log).enterAll now operands rest :=
  List.foldl_append

theorem enterAll_of_ne (h : ∀ happening ∈ log, happening.kind ≠ .issue) :
    enterAll now operands (stay :: past) log = stay.addAll now log :: past := by
  induction log generalizing stay with
  | nil => rw [enterAll_nil, stay.addAll_nil]
  | cons happening rest ih =>
      obtain ⟨hfirst, hrest⟩ := List.forall_mem_cons.mp h
      rw [enterAll, List.foldl_cons, enter_of_ne hfirst]
      exact (ih hrest).trans (by rw [Stay.addAll_addAll]; rfl)

theorem events_cons (stay : Stay) (past : List Stay) :
    events (stay :: past) = events past ++ stay.events := by
  simp [events]

theorem events_addAll (stay : Stay) (past : List Stay) (now : Nat)
    (log : List Happening) :
    events (stay.addAll now log :: past) =
      events (stay :: past) ++ log.map (Event.mk now) := by
  rw [events_cons, events_cons, Stay.addAll, List.append_assoc]

theorem see_of_free {station : Station} (hfree : station.busy = false)
    (diary : Diary) (now : Nat) : diary.see now station = diary := by
  unfold see
  split
  · rfl
  · rw [hfree, if_neg Bool.false_ne_true]

theorem see_of_busy {station : Station} (hbusy : station.busy = true)
    (stay : Stay) (past : List Stay) (now : Nat) :
    see (stay :: past) now station = stay.see now station :: past := by
  rw [see, hbusy, if_pos rfl]

theorem events_see (diary : Diary) (now : Nat) (station : Station) :
    (diary.see now station).events = diary.events := by
  unfold see
  split
  · rfl
  · split
    · rw [events_cons, events_cons, Stay.see]
    · rfl

end Diary

/-! ## A station and the stay of its instruction -/

/-- The station is at work on the instruction of a stay. -/
structure Station.Hosts (station : Station) (name : String) (stay : Stay) :
    Prop where
  name_eq : station.name = name
  busy : station.busy = true
  instruction : station.instruction? = some stay.instruction

/-- The diary of a station, as it is at some point of a run: the station is free
and all stays are whole, or it is at work and all stays are whole but the
last. -/
inductive Diary.Fits (name : String) (relates : Station → Stay → Prop)
    (whole : Stay → Prop) (station : Station) : Diary → Prop where
  | free {diary : Diary} (hfree : station.busy = false)
      (hwhole : ∀ stay ∈ diary, whole stay) : Fits name relates whole station diary
  | occupied {stay : Stay} {past : List Stay}
      (hhosts : station.Hosts name stay) (hrelates : relates station stay)
      (hwhole : ∀ stay ∈ past, whole stay) :
      Fits name relates whole station (stay :: past)

/-- A relation between a station and the stay of its instruction that is kept by
the parts of a cycle.  It is stated once for the midst of a cycle and once for
its end. -/
structure Upkeep (config : Config) (name : String)
    (within behind : Nat → Station → Stay → Prop) (sofar whole : Stay → Prop) :
    Prop where
  begin : ∀ {now station stay}, station.Hosts name stay →
    behind now station stay → within (now + 1) station.endPause stay
  hears : ∀ {now station stay tag} (value : Int), station.Hosts name stay →
    station.Sound → station.PortSound → within now station stay →
    station.hears tag = true →
    within now (station.receive tag value)
      (stay.addAll now [.received name tag value])
  leaves : ∀ {now station stay log}, station.Hosts name stay →
    within now station stay → station.resultPending = true →
    Station.Ends name stay.instruction station.address log →
    whole (stay.addAll now log)
  resolves : ∀ {now station stay}, station.Hosts name stay →
    within now station stay → station.resultPending = true →
    stay.instruction.opcode.form = .branch →
    sofar ((stay.addAll now [.resolved name stay.instruction]).see now station)
  issued : ∀ {m : Machine} {station : Station} (next : Stamped),
    m.config = config → station.name = name →
    within m.cycle (m.occupied station next)
      (.opened m.cycle name next.instruction
        ((m.occupied station next).j, (m.occupied station next).k))
  steps : ∀ {now station stay port other after log},
    station.Hosts name stay → station.Sound → station.PortSound →
    within now station stay →
    (station.HasPort → port.isOpenTo station.name = true) →
    station.Steps port (.ofConfig config) other after log →
    isTold log = true → behind now other ((stay.addAll now log).see now other)
  breaks : ∀ {now station stay port other after log},
    station.Hosts name stay → station.Sound → station.PortSound →
    within now station stay →
    station.Steps port (.ofConfig config) other after log →
    isTold log = false →
    sofar ((stay.addAll now (log.takeWhile Happening.isTellable)).see now other)
  misses : ∀ {now station stay}, station.Hosts name stay →
    within now station stay → sofar (stay.see now station)
  sofar_behind : ∀ {now station stay}, behind now station stay → sofar stay
  sofar_whole : ∀ {stay}, whole stay → sofar stay

/-- All stays but the last are whole, and the last is as it should be so far. -/
def Diary.Closed (sofar whole : Stay → Prop) (diary : Diary) : Prop :=
  (∀ stay ∈ diary.tail, whole stay) ∧ ∀ stay ∈ diary, sofar stay

namespace Upkeep

variable {config : Config} {name : String}
  {within behind : Nat → Station → Stay → Prop} {sofar whole : Stay → Prop}
  {station other : Station} {diary : Diary} {stay : Stay} {now : Nat}
  {operands : Operand × Operand} {log : List Happening} {port after : Port}

theorem closed_cons (h : Upkeep config name within behind sofar whole)
    {past : List Stay} (hfirst : sofar stay) (hpast : ∀ stay ∈ past, whole stay) :
    Diary.Closed sofar whole (stay :: past) :=
  ⟨hpast, List.forall_mem_cons.mpr
    ⟨hfirst, fun stay hmem => h.sofar_whole (hpast stay hmem)⟩⟩

theorem closed_of_whole (h : Upkeep config name within behind sofar whole)
    (hwhole : ∀ stay ∈ diary, whole stay) : diary.Closed sofar whole :=
  ⟨fun stay hmem => hwhole stay (List.mem_of_mem_tail hmem),
    fun stay hmem => h.sofar_whole (hwhole stay hmem)⟩

theorem closed_behind (h : Upkeep config name within behind sofar whole)
    (hfits : diary.Fits name (behind now) whole station) :
    diary.Closed sofar whole := by
  cases hfits with
  | free _ hwhole => exact h.closed_of_whole hwhole
  | occupied _ hbehind hwhole =>
      exact h.closed_cons (h.sofar_behind hbehind) hwhole

theorem fits_begin (h : Upkeep config name within behind sofar whole)
    (hfits : diary.Fits name (behind now) whole station) :
    diary.Fits name (within (now + 1)) whole station.endPause := by
  have hwork := station.sameWork_endPause
  cases hfits with
  | free hfree hwhole => exact .free (hwork.busy.trans hfree) hwhole
  | occupied hhosts hbehind hwhole =>
      refine .occupied ?_ (h.begin hhosts hbehind) hwhole
      exact ⟨hwork.name.trans hhosts.name_eq, hwork.busy.trans hhosts.busy,
        hwork.instruction?.trans hhosts.instruction⟩

theorem kind_ne_issue_of_ends {ins : Instruction} {address : Int}
    (hends : Station.Ends name ins address log) :
    ∀ happening ∈ log, happening.kind ≠ .issue := by
  cases hends with
  | branched _ hway => cases hway <;> simp [Happening.kind]
  | stored | loaded | computed => simp [Happening.kind]

theorem fits_atBus (h : Upkeep config name within behind sofar whole)
    (hfits : diary.Fits name (within now) whole station)
    (hsound : station.Sound) (hport : station.PortSound)
    (hbus : station.AtBus other log) (operands : Operand × Operand) :
    (diary.enterAll now operands log).Fits name (within now) whole other ∧
      (diary.enterAll now operands log).events =
        diary.events ++ log.map (Event.mk now) := by
  cases hbus with
  | alone => exact ⟨hfits, (List.append_nil _).symm⟩
  | @hears tag value hhears =>
      have hbusy : station.busy = true := by
        simp only [Station.hears, Bool.and_eq_true] at hhears
        exact hhears.1
      cases hfits with
      | free hfree =>
          rw [hbusy] at hfree
          contradiction
      | occupied hhosts hwithin hwhole =>
          rw [Diary.enterAll_of_ne (by simp [Happening.kind]),
            Diary.events_addAll, hhosts.name_eq]
          refine ⟨.occupied ?_ (h.hears value hhosts hsound hport hwithin hhears)
            hwhole, rfl⟩
          refine ⟨?_, ?_, ?_⟩
          · rw [Station.name_receive, hhosts.name_eq]
          · rw [Station.busy_receive, hhosts.busy]
          · rw [Station.instruction?, Station.held_receive]
            exact hhosts.instruction
  | leaves hasks hins hends =>
      simp only [Station.asksForBus, Bool.and_eq_true] at hasks
      cases hfits with
      | free hfree =>
          rw [hasks.1] at hfree
          contradiction
      | occupied hhosts hwithin hwhole =>
          rw [Diary.enterAll_of_ne (kind_ne_issue_of_ends hends),
            Diary.events_addAll]
          rw [hhosts.name_eq] at hends
          cases hins.symm.trans hhosts.instruction
          refine ⟨.free rfl (List.forall_mem_cons.mpr ⟨?_, hwhole⟩), rfl⟩
          exact h.leaves hhosts hwithin hasks.2 hends

theorem fits_issues (h : Upkeep config name within behind sofar whole)
    {m m' : Machine} (hissues : m.Issues m' log) (hdistinct : m.bank.Distinct)
    (hconfig : m.config = config)
    (hstation : m.bank.station? name = some station)
    (hfits : diary.Fits name (within m.cycle) whole station) :
    ∃ other, m'.bank.station? name = some other ∧
      (diary.enterAll m.cycle (m'.operandsOf name) (toldAt name log)).Fits name
        (within m.cycle) whole other ∧
      (diary.enterAll m.cycle (m'.operandsOf name) (toldAt name log)).events =
        diary.events ++ (toldAt name log).map (Event.mk m.cycle) := by
  rcases hissues.station?_cases hdistinct hstation with
    ⟨hsame, hlog⟩ | ⟨next, hfree, -, hnew, hlog⟩
  · rw [hlog]
    exact ⟨station, hsame, hfits, (List.append_nil _).symm⟩
  · have hoperands : m'.operandsOf name =
        ((m.occupied station next).j, (m.occupied station next).k) := by
      rw [Machine.operandsOf, hnew]
    have hname := Bank.name_of_station? hstation
    rw [hlog, hoperands]
    refine ⟨_, hnew, ?_, Diary.events_cons _ _⟩
    cases hfits with
    | occupied hhosts =>
        rw [hhosts.busy] at hfree
        nomatch hfree
    | free _ hwhole =>
        exact .occupied ⟨hname, rfl, rfl⟩ (h.issued next hconfig hname) hwhole

theorem fits_steps (h : Upkeep config name within behind sofar whole)
    (hfits : diary.Fits name (within now) whole station)
    (hsound : station.Sound) (hport : station.PortSound)
    (hopen : station.HasPort → port.isOpenTo station.name = true)
    (hsteps : station.Steps port (.ofConfig config) other after log)
    (hwork : station.SameWork other)
    (hlog : ∀ happening ∈ log, happening.kind ≠ .issue)
    (operands : Operand × Operand) :
    (isTold log = true →
      ((diary.enterAll now operands log).see now other).Fits name (behind now)
        whole other) ∧
    (isTold log = false →
      ((diary.enterAll now operands (log.takeWhile Happening.isTellable)).see
        now other).Closed sofar whole) ∧
    (diary.enterAll now operands
      (log.takeWhile Happening.isTellable)).events =
        diary.events ++
          (log.takeWhile Happening.isTellable).map (Event.mk now) := by
  have htoldLog : ∀ happening ∈ log.takeWhile Happening.isTellable,
      happening.kind ≠ .issue :=
    fun happening hmem => hlog happening (mem_of_mem_takeWhile_isTellable hmem)
  cases hfits with
  | free hfree hwhole =>
      have hquiet : log = [] ∧ other = station := by
        have hrests : station.rests = true := by simp [Station.rests, hfree]
        cases hsteps with
        | rests => exact ⟨rfl, rfl⟩
        | waits hawake | breaks hawake | begins hawake | goesOn hawake =>
            rw [hrests] at hawake
            contradiction
      obtain ⟨rfl, rfl⟩ := hquiet
      refine ⟨fun _ => ?_, by simp [isTold], (List.append_nil _).symm⟩
      rw [Diary.enterAll_nil, Diary.see_of_free hfree]
      exact .free hfree hwhole
  | occupied hhosts hwithin hwhole =>
      have hbusy := hwork.busy.trans hhosts.busy
      refine ⟨fun htold => ?_, fun huntold => ?_, ?_⟩
      · rw [Diary.enterAll_of_ne hlog, Diary.see_of_busy hbusy]
        refine .occupied ⟨hwork.name.trans hhosts.name_eq, hbusy,
          hwork.instruction?.trans hhosts.instruction⟩ ?_ hwhole
        exact h.steps hhosts hsound hport hwithin hopen hsteps htold
      · rw [Diary.enterAll_of_ne htoldLog, Diary.see_of_busy hbusy]
        exact h.closed_cons
          (h.breaks hhosts hsound hport hwithin hsteps huntold) hwhole
      · rw [Diary.enterAll_of_ne htoldLog, Diary.events_addAll]

/-- A cycle that the station does not live to see to its end leaves the diary
closed. -/
theorem closed_misses (h : Upkeep config name within behind sofar whole)
    (hfits : diary.Fits name (within now) whole station) :
    (diary.see now station).Closed sofar whole := by
  cases hfits with
  | free hfree hwhole =>
      rw [Diary.see_of_free hfree]
      exact h.closed_of_whole hwhole
  | occupied hhosts hwithin hwhole =>
      rw [Diary.see_of_busy hhosts.busy]
      exact h.closed_cons (h.misses hhosts hwithin) hwhole

/-- What a cycle that ends at write-back leaves of the diary. -/
theorem closed_of_untold (h : Upkeep config name within behind sofar whole)
    (hfits : diary.Fits name (within now) whole station)
    (hlog : log = [] ∨ ∃ ins, station.asksForBus = true ∧
      station.instruction? = some ins ∧ ins.opcode.form = .branch ∧
      log = [.resolved name ins]) (operands : Operand × Operand) :
    ((diary.enterAll now operands log).see now station).Closed sofar whole ∧
    (diary.enterAll now operands log).events =
      diary.events ++ log.map (Event.mk now) := by
  rcases hlog with rfl | ⟨ins, hasks, hins, hbranch, rfl⟩
  · exact ⟨h.closed_misses hfits, (List.append_nil _).symm⟩
  · simp only [Station.asksForBus, Bool.and_eq_true] at hasks
    cases hfits with
    | free hfree =>
        rw [hfree] at hasks
        cases hasks.1
    | occupied hhosts hwithin hwhole =>
        cases hins.symm.trans hhosts.instruction
        rw [Diary.enterAll_of_ne (by simp [Happening.kind]),
          Diary.events_addAll, Diary.see_of_busy hhosts.busy]
        exact ⟨h.closed_cons (h.resolves hhosts hwithin hasks.2 hbranch) hwhole,
          rfl⟩

theorem fits_execute (h : Upkeep config name within behind sofar whole)
    {m : Machine} (hheld : m.PortHeld)
    (hgeometry : m.cache.geometry = .ofConfig config)
    (hstation : m.bank.station? name = some station)
    (hfits : diary.Fits name (within now) whole station)
    (operands : Operand × Operand) :
    ∃ other, m.execute.1.bank.station? name = some other ∧
      (isTold m.execute.2 = true →
        ((diary.enterAll now operands (toldAt name m.execute.2)).see now
          other).Fits name (behind now) whole other) ∧
      ((diary.enterAll now operands (toldAt name m.execute.2)).see now
        other).Closed sofar whole ∧
      (diary.enterAll now operands (toldAt name m.execute.2)).events =
        diary.events ++ (toldAt name m.execute.2).map (Event.mk now) := by
  obtain ⟨other, hother, hturn⟩ := @Bank.exists_turn m.bank
    ⟨m.portOwner, false⟩ m.cache _ _ hheld.sound.distinct
    (fun _ hmem => hheld.of_mem hmem) hstation
  have hexecution : m.execute.2 =
      (m.bank.execute ⟨m.portOwner, false⟩ m.cache).2.2.2 := rfl
  refine ⟨other, hother, ?_⟩
  rw [hexecution]
  cases hturn with
  | missed huntold hlog =>
      rw [hlog]
      refine ⟨fun htold => ?_, h.closed_misses hfits, (List.append_nil _).symm⟩
      rw [htold] at huntold
      contradiction
  | @taken port' cache' hport hcache hlog htaken =>
      have hsound := hheld.sound.station hstation
      have hportSound := hheld.portSound hstation
      have hopen : station.HasPort → port'.isOpenTo station.name = true := by
        intro hholds
        have howner := (hheld.owner_iff hstation).mpr hholds
        rw [hport howner, howner, Bank.name_of_station? hstation]
        simp [Port.isOpenTo]
      have hsteps := Station.steps_execute hsound hportSound.alone port' cache'
      have hsame : cache'.geometry = .ofConfig config :=
        (congrArg Prod.fst hcache).trans hgeometry
      rw [hsame] at hsteps
      have hwork := Station.sameWork_execute station port' cache'
      have hkind : ∀ happening ∈ (station.execute port' cache').log,
          happening.kind ≠ .issue := by
        intro happening hmem heq
        have hexecution := (Station.isStepOf_of_mem_execute hmem).1.1
        rw [heq] at hexecution
        contradiction
      obtain ⟨htoldFits, huntoldClosed, hevents⟩ := h.fits_steps hfits hsound
        hportSound hopen hsteps hwork hkind operands
      rw [hlog]
      refine ⟨fun htold => ?_, ?_, hevents⟩
      · rw [takeWhile_isTellable_of_isTold (htaken htold)]
        exact htoldFits (htaken htold)
      · cases htold : isTold (station.execute port' cache').log with
        | false => exact huntoldClosed htold
        | true =>
            rw [takeWhile_isTellable_of_isTold htold]
            exact h.closed_behind (htoldFits htold)

/-- What a cycle makes of the diary of a station, be it completed or broken
off. -/
theorem afterCycle (h : Upkeep config name within behind sofar whole)
    {m : Machine} (hheld : m.PortHeld) (hconfig : m.config = config)
    (hgeometry : m.cache.geometry = .ofConfig config)
    (hstation : m.bank.station? name = some station)
    (hfits : diary.Fits name (behind m.cycle) whole station) :
    (diary.afterCycle name m).Closed sofar whole ∧
      (diary.afterCycle name m).events =
        diary.events ++ (toldAt name m.advance.2).map (Event.mk (m.cycle + 1)) ∧
      (isTold m.advance.2 = true → ∃ other,
        m.advance.1.bank.station? name = some other ∧
        (diary.afterCycle name m).Fits name (behind (m.cycle + 1)) whole
          other) := by
  have hbegun : m.begin.bank.station? name = some station.endPause := by
    rw [Machine.station?_begin, hstation]
    rfl
  have hbeginHeld := hheld.begin
  have hwithin := h.fits_begin hfits
  have hwrites := m.begin.writeback_writesBack
  rw [Diary.afterCycle]
  cases hwritten : isTold m.begin.writeback.2 with
  | false =>
      obtain ⟨hsame, hlog⟩ :=
        hwrites.of_untold hwritten hbeginHeld.sound.distinct hbegun
      obtain ⟨hclosed, hevents⟩ :=
        h.closed_of_untold hwithin hlog (m.atExecution.operandsOf name)
      rw [Machine.advance_of_untold hwritten]
      dsimp only
      rw [hsame, toldAt_cycleStarted]
      refine ⟨hclosed, ?_, fun htold => ?_⟩
      · rw [Diary.events_see, hevents]
      · rw [isTold, List.all_cons, ← isTold, hwritten, Bool.and_false] at htold
        contradiction
  | true =>
      have hwrittenHeld := hbeginHeld.writeback
      have hreadyHeld : m.atExecution.PortHeld :=
        hwrittenHeld.issues (Machine.issue_issues _)
      have hissues := m.begin.writeback.1.issue_issues
      have hframe := hwrites.sameFrame
      have hgeometry' : m.atExecution.cache.geometry = .ofConfig config :=
        (hframe.trans hissues.sameFrame).geometry.trans hgeometry
      have hcycle : m.begin.writeback.1.cycle = m.cycle + 1 := hframe.cycle
      obtain ⟨second, hsecond, hbus⟩ :=
        Machine.exists_atBus hwritten hbeginHeld.sound.distinct hbegun
      obtain ⟨hsecondFits, hsecondEvents⟩ := h.fits_atBus hwithin
        (hbeginHeld.sound.station hbegun) (hbeginHeld.portSound hbegun) hbus
        (m.atExecution.operandsOf name)
      rw [← hcycle] at hsecondFits
      obtain ⟨third, hthird, hthirdFits, hthirdEvents⟩ :=
        h.fits_issues hissues hwrittenHeld.sound.distinct
          (hframe.config.trans hconfig) hsecond hsecondFits
      rw [hcycle] at hthirdFits hthirdEvents
      obtain ⟨other, hother, hbehind, hclosed, hevents⟩ :=
        h.fits_execute hreadyHeld hgeometry' hthird hthirdFits
          (m.atExecution.operandsOf name)
      rw [Machine.advance_eq_execute hwritten, Machine.toldAt_advance hwritten,
        hother]
      dsimp only
      rw [Diary.enterAll_append, Diary.enterAll_append]
      refine ⟨hclosed, ?_, fun htold => ⟨other, rfl, hbehind ?_⟩⟩
      · rw [Diary.events_see]
        refine hevents.trans ?_
        rw [hthirdEvents, hsecondEvents]
        simp only [List.map_append, List.append_assoc]
      · rw [Machine.advance_of_told hwritten, isTold_append,
          Bool.and_eq_true] at htold
        exact htold.2

end Upkeep

/-! ## Runs that are watched -/

namespace Simulation

/-- The events that name a station. -/
def eventsAt (sim : Simulation) (name : String) : List Event :=
  sim.buffer.toList.filter (·.happening.station? = some name)

theorem eventsAt_cycle (sim : Simulation) (name : String) :
    sim.cycle.eventsAt name = sim.eventsAt name ++
      (toldAt name sim.machine.advance.2).map
        (Event.mk (sim.machine.cycle + 1)) := by
  rw [cycle_eq, eventsAt]
  dsimp only
  rw [Array.toList_appendList, List.filter_append, ← eventsAt, toldAt,
    List.filter_map, Machine.cycle_advance]
  rfl

theorem watch_append (sim : Simulation) (name : String)
    (actions more : List Action) :
    sim.watch name (actions ++ more) =
      more.foldl (Watch.act name) (sim.watch name actions) :=
  List.foldl_append

/-- A run that is not broken off is watched to its end. -/
theorem watch_simulation (sim : Simulation) (name : String)
    (actions : List Action)
    (hwhole : (sim.watch name actions).brokenOff = false) :
    (sim.watch name actions).simulation = sim.after actions := by
  induction actions using List.reverseRecOn with
  | nil => rfl
  | append_singleton actions action ih =>
      rw [watch_append] at hwhole ⊢
      dsimp only [List.foldl_cons, List.foldl_nil] at hwhole ⊢
      unfold Watch.act at hwhole ⊢
      split
      · next hbroken =>
          rw [if_pos hbroken, hbroken] at hwhole
          contradiction
      · next hbroken =>
          rw [after_append, ← ih (by simpa using hbroken)]
          cases action <;> rfl

end Simulation

/-- A run whose diary fits its machine. -/
structure Watch.Fits (config : Config) (name : String)
    (behind : Nat → Station → Stay → Prop) (whole : Stay → Prop)
    (watch : Watch) : Prop where
  held : watch.simulation.machine.PortHeld
  config_eq : watch.simulation.machine.config = config
  geometry : watch.simulation.machine.cache.geometry = .ofConfig config
  fits : ∀ {station},
    watch.simulation.machine.bank.station? name = some station →
    watch.diary.Fits name (behind watch.simulation.machine.cycle) whole station
  absent : watch.simulation.machine.bank.station? name = none →
    watch.diary = []

/-- What is known of a run that is watched. -/
structure Watch.Kept (config : Config) (name : String)
    (behind : Nat → Station → Stay → Prop) (sofar whole : Stay → Prop)
    (watch : Watch) : Prop where
  closed : watch.diary.Closed sofar whole
  events_eq : watch.diary.events = watch.simulation.eventsAt name
  fits : watch.brokenOff = false → watch.Fits config name behind whole

namespace Upkeep

variable {config : Config} {name : String}
  {within behind : Nat → Station → Stay → Prop} {sofar whole : Stay → Prop}
  {watch : Watch}

/-- A change from outside is not entered into the diary. -/
theorem kept_of_machine {m : Machine}
    (hkept : watch.Kept config name behind sofar whole)
    (hbank : m.bank = watch.simulation.machine.bank)
    (howner : m.portOwner = watch.simulation.machine.portOwner)
    (hconfig : m.config = watch.simulation.machine.config)
    (hgeometry : m.cache.geometry =
      watch.simulation.machine.cache.geometry)
    (hcycle : m.cycle = watch.simulation.machine.cycle) :
    Watch.Kept config name behind sofar whole
      { watch with simulation := { watch.simulation with machine := m } } where
  closed := hkept.closed
  events_eq := hkept.events_eq
  fits := fun hwhole =>
    have hfits := hkept.fits hwhole
    { held := hfits.held.of_bank_eq hbank howner
      config_eq := hconfig.trans hfits.config_eq
      geometry := hgeometry.trans hfits.geometry
      fits := fun hstation => by
        dsimp only at hstation ⊢
        rw [hbank] at hstation
        rw [hcycle]
        exact hfits.fits hstation
      absent := fun hnone => by
        dsimp only at hnone
        rw [hbank] at hnone
        exact hfits.absent hnone }

theorem kept_cycle (h : Upkeep config name within behind sofar whole)
    (hkept : watch.Kept config name behind sofar whole)
    (hwhole : watch.brokenOff = false) :
    (watch.act name .cycle).Kept config name behind sofar whole := by
  obtain ⟨hheld, hconfig, hgeometry, hfits, habsent⟩ := hkept.fits hwhole
  have hframe := watch.simulation.machine.sameFrame_advance
  have hcycle := Machine.cycle_advance watch.simulation.machine
  have hconfig' := hframe.config.trans hconfig
  have hgeometry' := hframe.geometry.trans hgeometry
  have hact : watch.act name .cycle =
      { simulation := watch.simulation.cycle
        diary := watch.diary.afterCycle name watch.simulation.machine
        brokenOff := !isTold watch.simulation.machine.advance.2 } := by
    rw [Watch.act, hwhole, if_neg Bool.false_ne_true]
  rw [hact]
  cases hstation : watch.simulation.machine.bank.station? name with
  | some station =>
      obtain ⟨hclosed, hevents, hbehind⟩ :=
        h.afterCycle hheld hconfig hgeometry hstation (hfits hstation)
      refine ⟨hclosed, ?_, fun htold => ?_⟩
      · dsimp only
        rw [Simulation.eventsAt_cycle, ← hkept.events_eq]
        exact hevents
      · obtain ⟨other, hother, hfits'⟩ := hbehind (by simpa using htold)
        refine ⟨?_, ?_, ?_, ?_, ?_⟩
        all_goals dsimp only
        all_goals rw [Simulation.machine_cycle]
        · exact hheld.advance
        · exact hconfig'
        · exact hgeometry'
        · intro station hstation
          cases hstation.symm.trans hother
          rw [hcycle]
          exact hfits'
        · intro hnone
          rw [hother] at hnone
          nomatch hnone
  | none =>
      have hnames := Machine.map_name_of_map_place
        (Machine.map_place_advance watch.simulation.machine)
      have hstranger : name ∉
          watch.simulation.machine.bank.map Station.name := by
        intro hmem
        obtain ⟨station, hfound⟩ := Machine.exists_station?_of_mem_names hmem
        rw [hstation] at hfound
        nomatch hfound
      have hnone :
          watch.simulation.machine.advance.1.bank.station? name = none := by
        have hsame := Bank.isSome_station?_of_map_name_eq hnames name
        rw [hstation, Option.isSome_none, Option.isSome_eq_false_iff,
          Option.isNone_iff_eq_none] at hsame
        exact hsame
      have hlog : toldAt name watch.simulation.machine.advance.2 = [] :=
        toldAt_eq_nil fun happening hmem hname =>
          hstranger (Machine.mem_names_of_mem_advance hmem hname)
      have hdiary : watch.diary.afterCycle name watch.simulation.machine =
          watch.diary := by
        rw [Diary.afterCycle, hlog, hnone]
        rfl
      rw [hdiary]
      refine ⟨hkept.closed, ?_, fun _ => ⟨?_, ?_, ?_, ?_, ?_⟩⟩
      all_goals dsimp only
      · rw [Simulation.eventsAt_cycle, hlog, List.map_nil, List.append_nil]
        exact hkept.events_eq
      all_goals rw [Simulation.machine_cycle]
      · exact hheld.advance
      · exact hconfig'
      · exact hgeometry'
      · intro station hfound
        rw [hnone] at hfound
        nomatch hfound
      · exact fun _ => habsent hstation

theorem kept_act (h : Upkeep config name within behind sofar whole)
    (hkept : watch.Kept config name behind sofar whole) (action : Action) :
    (watch.act name action).Kept config name behind sofar whole := by
  cases hbroken : watch.brokenOff with
  | true =>
      rw [Watch.act, hbroken, if_pos rfl]
      exact hkept
  | false =>
      cases action with
      | cycle => exact h.kept_cycle hkept hbroken
      | load | writeRegister | storeWord | fillBlock =>
          rw [Watch.act, hbroken, if_neg Bool.false_ne_true, ← hbroken]
          exact kept_of_machine hkept rfl rfl rfl rfl rfl

/-- What the parts of a cycle keep is kept along every run that is watched from
its start. -/
theorem kept_watch (h : Upkeep config name within behind sofar whole)
    (preload : List (Int × Int)) (actions : List Action) :
    ((Simulation.fresh config preload).watch name actions).Kept config name
      behind sofar whole := by
  have hstart : Watch.Kept config name behind sofar whole
      ⟨.fresh config preload, [], false⟩ := by
    refine ⟨h.closed_of_whole fun _ hmem => absurd hmem List.not_mem_nil, rfl,
      fun _ => ⟨?_, rfl, rfl, fun hstation => .free ?_ ?_, fun _ => rfl⟩⟩
    · exact Machine.portHeld_create config preload
    · exact Bank.busy_eq_false_of_isFree
        (Machine.isFree_create config preload) hstation
    · exact fun _ hmem => absurd hmem List.not_mem_nil
  induction actions using List.reverseRecOn with
  | nil => exact hstart
  | append_singleton actions action ih =>
      rw [Simulation.watch_append]
      exact h.kept_act ih action

end Upkeep

end OutOfOrder
