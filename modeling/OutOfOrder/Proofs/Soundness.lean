import OutOfOrder.Proofs.Run

/-!
# Sound machines

In a sound machine the stations have different names, and each of them is free
and as it was made, or works on an instruction of its pool with flags that fit
its operands.  A new machine is sound, and every action keeps it so.

The stations after each phase are described here by name, for this and the
other invariants of a machine.
-/

namespace OutOfOrder

/-- The station at work after another one has announced a value. -/
def Station.listen (tag : String) (value : Int) (station : Station) : Station :=
  if station.busy then station.receive tag value else station

@[simp] theorem Station.name_listen (tag : String) (value : Int)
    (station : Station) : (station.listen tag value).name = station.name := by
  unfold Station.listen
  split <;> simp

theorem Station.Sound.listen {station : Station} (h : station.Sound)
    (tag : String) (value : Int) : (station.listen tag value).Sound := by
  unfold Station.listen
  split
  · next hbusy => exact h.receive hbusy tag value
  · exact h

/-- The stations have different names, and each of them is sound. -/
structure Machine.Sound (m : Machine) : Prop where
  distinct : m.bank.Distinct
  station : ∀ {name : String} {station : Station},
    m.bank.station? name = some station → station.Sound

namespace Machine

variable {m : Machine} {station : Station} {ins : Instruction} {next : Stamped}

/-! ## The stations after each phase -/

theorem name_endPause (station : Station) :
    station.endPause.name = station.name :=
  (Station.sameWork_endPause station).name

theorem name_release (station : Station) :
    station.release.name = station.name :=
  rfl

theorem name_occupied (m : Machine) (next : Stamped) (station : Station) :
    (m.occupied station next).name = station.name :=
  rfl

theorem station?_begin (m : Machine) (name : String) :
    m.begin.bank.station? name = (m.bank.station? name).map Station.endPause :=
  Bank.station?_map name_endPause m.bank name

theorem mem_of_granted? (hgranted : m.bank.granted? = some station) :
    station ∈ m.bank ∧ station.busy = true ∧ station.resultPending = true := by
  refine ⟨List.mem_of_find?_eq_some hgranted, ?_⟩
  have hasks := List.find?_some hgranted
  simpa [Station.asksForBus] using hasks

theorem station?_granted (hdistinct : m.bank.Distinct)
    (hgranted : m.bank.granted? = some station) :
    m.bank.station? station.name = some station :=
  hdistinct.station?_name (mem_of_granted? hgranted).1

theorem station?_released (hdistinct : m.bank.Distinct)
    (hgranted : m.bank.granted? = some station) (name : String) :
    m.released.bank.station? name =
      if name = station.name then some station.release
      else m.bank.station? name :=
  hdistinct.station?_changeFirst name_release hgranted name

theorem distinct_released (hdistinct : m.bank.Distinct) :
    m.released.bank.Distinct :=
  Bank.distinct_of_map_name_eq hdistinct
    (Bank.map_changeFirst name_release)

/-- A released station hears nothing, and every other one at work listens. -/
theorem station?_publish (hdistinct : m.bank.Distinct)
    (hgranted : m.bank.granted? = some station) (tag : String) (value : Int)
    (name : String) :
    (m.released.publish tag ins value).1.bank.station? name =
      if name = station.name then some station.release
      else (m.bank.station? name).map (Station.listen tag value) := by
  have hbank : (m.released.publish tag ins value).1.bank =
      m.released.bank.map (Station.listen tag value) := rfl
  rw [hbank, Bank.station?_map (Station.name_listen tag value),
    station?_released hdistinct hgranted]
  split
  · rfl
  · rfl

theorem distinct_publish (hdistinct : m.bank.Distinct) (tag : String)
    (value : Int) : (m.released.publish tag ins value).1.bank.Distinct :=
  Bank.distinct_of_map_name_eq (distinct_released hdistinct)
    (Bank.map_map_of_keeps (Station.name_listen tag value) m.released.bank)

/-- Behind a write-back that can be told, the station that had the bus is free,
and the other ones have listened at most. -/
theorem WritesBack.bank_eq {m' : Machine} {log : List Happening}
    (hphase : m.WritesBack m' log) (htold : isTold log = true)
    (hgranted : m.bank.granted? = some station) :
    m'.bank = m.released.bank ∨
      ∃ tag value, m'.bank = m.released.bank.map (Station.listen tag value) := by
  cases hphase with
  | idle hnone =>
      rw [hgranted] at hnone
      nomatch hnone
  | empty => nomatch htold
  | broken _ _ huntold =>
      rw [huntold] at htold
      nomatch htold
  | stored => exact .inl rfl
  | @branched station ins =>
      obtain ⟨queue, issuedCount, heq⟩ := redirect_eq m station ins
      left
      rw [heq]
      rfl
  | published => exact .inr ⟨_, _, rfl⟩

/-- Who is at work behind a write-back was at work before, and has not had the
bus. -/
theorem WritesBack.busy_before {m' : Machine} {log : List Happening}
    (hphase : m.WritesBack m' log) (htold : isTold log = true)
    (hdistinct : m.bank.Distinct) (hgranted : m.bank.granted? = some station)
    {name : String} {other : Station}
    (hother : m'.bank.station? name = some other)
    (hbusy : other.busy = true) :
    name ≠ station.name ∧ ∃ before, m.bank.station? name = some before ∧
      before.busy = true ∧
      (other = before ∨ ∃ tag value, other = before.listen tag value) := by
  have hreleased : ∀ {middle : Station}, middle.busy = true →
      m.released.bank.station? name = some middle →
      name ≠ station.name ∧ m.bank.station? name = some middle := by
    intro middle hmiddle hfound
    rw [station?_released hdistinct hgranted] at hfound
    split at hfound
    · cases hfound
      nomatch hmiddle
    · next hne => exact ⟨hne, hfound⟩
  rcases hphase.bank_eq htold hgranted with hbank | ⟨tag, value, hbank⟩
  · rw [hbank] at hother
    obtain ⟨hne, hbefore⟩ := hreleased hbusy hother
    exact ⟨hne, other, hbefore, hbusy, .inl rfl⟩
  · rw [hbank, Bank.station?_map (Station.name_listen tag value)] at hother
    obtain ⟨middle, hmiddle, rfl⟩ := Option.map_eq_some_iff.mp hother
    have hworks : middle.busy = true := by
      unfold Station.listen at hbusy
      split at hbusy
      · next hworks => exact hworks
      · exact hbusy
    obtain ⟨hne, hbefore⟩ := hreleased hworks hmiddle
    exact ⟨hne, middle, hbefore, hworks, .inr ⟨tag, value, rfl⟩⟩

theorem mem_of_free? {pool : Pool} (hfree : m.bank.free? pool = some station) :
    station ∈ m.bank ∧ station.pool = pool ∧ station.busy = false := by
  refine ⟨List.mem_of_find?_eq_some hfree, ?_⟩
  have hfound := List.find?_some hfree
  simpa [Station.isFreeIn] using hfound

theorem station?_free (hdistinct : m.bank.Distinct) {pool : Pool}
    (hfree : m.bank.free? pool = some station) :
    m.bank.station? station.name = some station :=
  hdistinct.station?_name (mem_of_free? hfree).1

theorem station?_occupied (hdistinct : m.bank.Distinct) {pool : Pool}
    (hfree : m.bank.free? pool = some station) (next : Stamped)
    (name : String) :
    Bank.station? (m.bank.changeFirst (·.isFreeIn pool) (m.occupied · next))
        name =
      if name = station.name then some (m.occupied station next)
      else m.bank.station? name :=
  hdistinct.station?_changeFirst (name_occupied m next) hfree name

theorem name_stepped {s t : Station} (h : Bank.Stepped s t) : t.name = s.name :=
  h.sameWork.name

theorem rel_station?_execute (m : Machine) (name : String) :
    Option.Rel Bank.Stepped (m.bank.station? name)
      (m.execute.1.bank.station? name) :=
  Bank.rel_station?_of_forall₂ (fun _ _ => name_stepped)
    (Bank.stepped_execute m.bank _ _) name

/-- A station after execution is what one step has made of the station of that
name. -/
theorem exists_stepped_of_execute {name : String}
    (h : m.execute.1.bank.station? name = some station) :
    ∃ before, m.bank.station? name = some before ∧
      Bank.Stepped before station := by
  have hrel := rel_station?_execute m name
  rw [h] at hrel
  generalize hbefore : m.bank.station? name = before at hrel
  cases hrel with
  | some hstep => exact ⟨_, rfl, hstep⟩

theorem exists_stepped_execute {name : String}
    (h : m.bank.station? name = some station) :
    ∃ after, m.execute.1.bank.station? name = some after ∧
      Bank.Stepped station after := by
  have hrel := rel_station?_execute m name
  rw [h] at hrel
  generalize hafter : m.execute.1.bank.station? name = after at hrel
  cases hrel with
  | some hstep => exact ⟨_, rfl, hstep⟩

/-! ## Soundness phase by phase -/

theorem sound_create (config : Config) (preload : List (Int × Int)) :
    (create config preload).Sound where
  distinct := Bank.distinct_ofSizes (by simp [Pool.busOrder])
  station := by
    intro name station h
    rw [Bank.eq_release_of_mem_ofSizes (Bank.mem_of_station? h)]
    exact Station.sound_release station

theorem isFree_create (config : Config) (preload : List (Int × Int)) :
    (create config preload).bank.isFree = true := by
  apply Bank.isFree_iff.mpr
  intro station hmem
  rw [Bank.eq_release_of_mem_ofSizes hmem]
  rfl

theorem Sound.begin (h : m.Sound) : m.begin.Sound where
  distinct := Bank.distinct_of_map_name_eq h.distinct
    (Bank.map_map_of_keeps name_endPause m.bank)
  station := by
    intro name station hstation
    rw [station?_begin] at hstation
    obtain ⟨before, hbefore, rfl⟩ := Option.map_eq_some_iff.mp hstation
    exact (h.station hbefore).endPause

theorem Sound.of_bank_eq {other : Machine} (h : m.Sound)
    (hbank : other.bank = m.bank) : other.Sound where
  distinct := hbank ▸ h.distinct
  station := fun hstation => h.station (hbank ▸ hstation)

theorem Sound.released (h : m.Sound)
    (hgranted : m.bank.granted? = some station) : m.released.Sound where
  distinct := distinct_released h.distinct
  station := by
    intro name other hother
    rw [station?_released h.distinct hgranted] at hother
    split at hother
    · cases hother
      exact Station.sound_release station
    · exact h.station hother

theorem Sound.publish (h : m.Sound)
    (hgranted : m.bank.granted? = some station) (tag : String) (value : Int) :
    (m.released.publish tag ins value).1.Sound where
  distinct := distinct_publish h.distinct tag value
  station := by
    intro name other hother
    rw [station?_publish h.distinct hgranted] at hother
    split at hother
    · cases hother
      exact Station.sound_release station
    · obtain ⟨before, hbefore, rfl⟩ := Option.map_eq_some_iff.mp hother
      exact (h.station hbefore).listen tag value

theorem Sound.writesBack {m' : Machine} {log : List Happening} (h : m.Sound)
    (hphase : m.WritesBack m' log) : m'.Sound := by
  cases hphase with
  | idle => exact h
  | empty => exact h
  | @broken station ins hgranted hins huntold =>
      obtain ⟨cache, queue, issuedCount, heq⟩ := settle_eq m station ins
      exact h.of_bank_eq (by rw [heq])
  | stored hgranted => exact (h.released hgranted).of_bank_eq rfl
  | @branched station ins hgranted hins hform htold =>
      obtain ⟨queue, issuedCount, heq⟩ := redirect_eq m station ins
      exact (h.released hgranted).of_bank_eq (by rw [heq]; rfl)
  | published hgranted => exact h.publish hgranted _ _

/-- A station begins on an instruction of its pool without having done
anything. -/
theorem sound_occupied (m : Machine)
    (hpool : station.pool = next.instruction.opcode.pool) :
    (m.occupied station next).Sound where
  free := fun hfree => by simp [occupied, Station.occupy] at hfree
  working := fun _ => ⟨next.instruction, rfl, {
    pool := hpool
    remaining := Int.natCast_nonneg _
    cacheRemaining := Int.le_refl 0
    addressed := by simp [occupied, Station.occupy]
    accessing := by simp [occupied, Station.occupy]
    computing := by simp [occupied, Station.occupy]
    counting := by simp [occupied, Station.occupy]
    uncached := fun _ => rfl
    finished := by simp [occupied, Station.occupy] }⟩

theorem Sound.issues {m' : Machine} {log : List Happening} (h : m.Sound)
    (hphase : m.Issues m' log) : m'.Sound := by
  cases hphase with
  | drained => exact h
  | stalled => exact h
  | @issued next rest station hqueue hfree =>
      refine ⟨?_, ?_⟩
      · exact Bank.distinct_of_map_name_eq h.distinct
          (Bank.map_changeFirst (name_occupied m next))
      · intro name other hother
        rw [station?_occupied h.distinct hfree] at hother
        split at hother
        · cases hother
          exact sound_occupied m (mem_of_free? hfree).2.1
        · exact h.station hother

theorem Sound.execute (h : m.Sound) : m.execute.1.Sound where
  distinct := Bank.distinct_of_map_name_eq h.distinct
    (Bank.map_of_forall₂ (fun _ _ => name_stepped)
      (Bank.stepped_execute m.bank _ _))
  station := by
    intro name station hstation
    obtain ⟨before, hbefore, hstep⟩ := exists_stepped_of_execute hstation
    exact hstep.sound (h.station hbefore)

theorem Sound.advance (h : m.Sound) : m.advance.1.Sound :=
  advance_keeps (P := Sound) (fun _ h => h.begin)
    (fun _ _ _ hphase h => h.writesBack hphase)
    (fun _ _ _ hphase h => h.issues hphase) (fun _ h => h.execute) h

/-- An access that has the bus has its address from its base. -/
theorem Sound.address_granted (h : m.Sound)
    (hgranted : m.bank.granted? = some station)
    (hins : station.instruction? = some ins)
    (hmemory : ins.opcode.isMemory = true) :
    station.address = station.j.value + ins.constant := by
  have hstation := station?_granted h.distinct hgranted
  obtain ⟨-, hbusy, hpending⟩ := mem_of_granted? hgranted
  obtain ⟨held, hheld, hprogress⟩ := (h.station hstation).working hbusy
  rw [hins] at hheld
  cases hheld
  have hready := hprogress.accessing hmemory (hprogress.finished hpending).1
  exact (hprogress.addressed hready.1).2

/-! ## The places of the stations -/

/-- The name and the pool of a station, which it keeps for good. -/
def place (station : Station) : String × Pool :=
  (station.name, station.pool)

theorem place_of_sameWork {other : Station} (h : station.SameWork other) :
    place other = place station := by
  rw [place, place, h.name, h.pool]

theorem place_listen (tag : String) (value : Int) (station : Station) :
    place (station.listen tag value) = place station := by
  unfold Station.listen
  split
  · simp [place]
  · rfl

theorem map_place_begin (m : Machine) :
    m.begin.bank.map place = m.bank.map place :=
  Bank.map_map_of_keeps
    (fun s => place_of_sameWork (Station.sameWork_endPause s)) m.bank

theorem map_place_released (m : Machine) :
    m.released.bank.map place = m.bank.map place :=
  Bank.map_changeFirst fun _ => rfl

theorem map_place_writesBack {m' : Machine} {log : List Happening}
    (hphase : m.WritesBack m' log) : m'.bank.map place = m.bank.map place := by
  cases hphase with
  | idle => rfl
  | empty => rfl
  | @broken station ins =>
      obtain ⟨cache, queue, issuedCount, heq⟩ := settle_eq m station ins
      rw [heq]
  | stored => exact map_place_released m
  | @branched station ins =>
      obtain ⟨queue, issuedCount, heq⟩ := redirect_eq m station ins
      rw [map_place_released, heq]
  | @published station _ value =>
      exact (Bank.map_map_of_keeps (place_listen station.name value) _).trans
        (map_place_released m)

theorem map_place_issues {m' : Machine} {log : List Happening}
    (hphase : m.Issues m' log) : m'.bank.map place = m.bank.map place := by
  cases hphase with
  | drained => rfl
  | stalled => rfl
  | issued => exact Bank.map_changeFirst fun _ => rfl

theorem map_place_execute (m : Machine) :
    m.execute.1.bank.map place = m.bank.map place :=
  Bank.map_of_forall₂ (fun _ _ hstep => place_of_sameWork hstep.sameWork)
    (Bank.stepped_execute m.bank _ _)

theorem map_place_advance (m : Machine) :
    m.advance.1.bank.map place = m.bank.map place := by
  let P : Machine → Prop := fun m' => m'.bank.map place = m.bank.map place
  exact advance_keeps (P := P)
    (fun m' h => (map_place_begin m').trans h)
    (fun _ _ _ hphase h => (map_place_writesBack hphase).trans h)
    (fun _ _ _ hphase h => (map_place_issues hphase).trans h)
    (fun m' h => (map_place_execute m').trans h) rfl

/-- The bank has at most one station of a pool. -/
def HasOne (pool : Pool) (m : Machine) : Prop :=
  ∀ entry ∈ m.bank.map place, ∀ other ∈ m.bank.map place,
    entry.2 = pool → other.2 = pool → entry = other

theorem HasOne.of_map_place_eq {m m' : Machine} {pool : Pool}
    (h : m.HasOne pool) (hplaces : m'.bank.map place = m.bank.map place) :
    m'.HasOne pool := by
  rw [HasOne, hplaces]
  exact h

theorem hasOne_create {config : Config} {pool : Pool}
    (hsize : config.value pool.size = 1) (preload : List (Int × Int)) :
    (create config preload).HasOne pool := by
  have hentry : ∀ entry ∈ (create config preload).bank.map place,
      entry.2 = pool → entry = (pool.label ++ "0", pool) := by
    intro entry hmem hpool
    obtain ⟨station, hstation, rfl⟩ := List.mem_map.mp hmem
    simp only [create, Bank.ofSizes, List.mem_flatMap, List.mem_map,
      List.mem_range] at hstation
    obtain ⟨_, ⟨other, -, rfl⟩, index, hlt, rfl⟩ := hstation
    have hother : other = pool := hpool
    rw [hother] at hlt ⊢
    have hzero : index = 0 := Nat.lt_one_iff.mp (hlt.trans_eq hsize)
    rw [hzero]
    rfl
  intro entry hmem other hmem' hpool hpool'
  rw [hentry entry hmem hpool, hentry other hmem' hpool']

/-- Of the only station of a pool there are not two states in a bank. -/
theorem HasOne.eq_of_mem {m : Machine} {pool : Pool} {station other : Station}
    (h : m.HasOne pool) (hdistinct : m.bank.Distinct) (hmem : station ∈ m.bank)
    (hother : other ∈ m.bank) (hpool : station.pool = pool)
    (hpool' : other.pool = pool) : station = other := by
  have hplace := h (place station) (List.mem_map_of_mem hmem) (place other)
    (List.mem_map_of_mem hother) hpool hpool'
  have hname : station.name = other.name := congrArg Prod.fst hplace
  have hstation := hdistinct.station?_name hmem
  rw [hname, hdistinct.station?_name hother] at hstation
  exact (Option.some.inj hstation).symm

end Machine

theorem Simulation.sound_after {sim : Simulation} (h : sim.machine.Sound)
    (actions : List Action) : (sim.after actions).machine.Sound :=
  after_induction (P := fun m _ => m.Sound) (fun _ _ h => h.advance)
    (fun _ _ _ h => h.of_bank_eq rfl) (fun _ _ _ _ h => h.of_bank_eq rfl)
    (fun _ _ _ _ h => h.of_bank_eq rfl) (fun _ _ _ h => h.of_bank_eq rfl)
    h actions

end OutOfOrder
