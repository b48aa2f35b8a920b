import OutOfOrder.Proofs.Turns

/-!
# Sharing the load/store port

From one cycle to the next the port belongs to the station that has begun to use
it and has not finished.  That station uses it in every cycle, as nothing but
its own finish takes it out of its access.  In a cycle one station uses the port
at most; if the block of some access is there and the access is not done,
exactly one station does.

The phases of a cycle keep this, be it completed or broken off, and so it holds
along every run.
-/

namespace OutOfOrder

/-! ## Stations between the phases -/

namespace Station

variable {station other : Station} {log : List Happening}

theorem Kept.hasPort_iff (h : station.Kept other) :
    other.HasPort ↔ station.HasPort := by
  obtain ⟨_, _, _, rfl⟩ := h
  constructor
  · exact fun hport => { hport with }
  · exact fun hport => { hport with }

theorem PortSound.endPause (hport : station.PortSound) :
    station.endPause.PortSound := by
  unfold Station.endPause
  split
  · exact { hport with }
  · exact hport

theorem PortSound.receive (hport : station.PortSound) (tag : String)
    (value : Int) : (station.receive tag value).PortSound := by
  have halone : (station.receive tag value).LoadsAlone := by
    intro ins hins hload
    have hsecond := station.operand_receive tag value .second
    have hnone : station.k = .absent :=
      hport.alone ins (by simpa [instruction?] using hins) hload
    rw [operand, operand, hnone] at hsecond
    exact hsecond
  have hkept : ∃ j k pause, station.receive tag value =
      { station with j, k, justTransitioned := pause } := by
    unfold Station.receive
    split <;> exact ⟨_, _, _, rfl⟩
  obtain ⟨_, _, _, heq⟩ := hkept
  rw [heq] at halone ⊢
  exact { hport with alone := halone }

theorem portSound_release (station : Station) : station.release.PortSound where
  nonneg := Int.le_refl 0
  resident := fun hbegun => absurd hbegun (Int.lt_irrefl 0)
  executing := fun hresident => absurd hresident Bool.false_ne_true
  memory := fun hresident => absurd hresident Bool.false_ne_true
  alone := fun _ hins => nomatch hins

theorem PortSound.operandsReady (hport : station.PortSound)
    (hsound : station.Sound) (hbusy : station.busy = true)
    (hexecuting : station.executing = true) : station.operandsReady = true := by
  obtain ⟨ins, hins, hprogress⟩ := hsound.working hbusy
  cases hmemory : ins.opcode.isMemory with
  | false => exact hprogress.computing hmemory hexecuting
  | true =>
      obtain ⟨haddress, hvalue⟩ := hprogress.accessing hmemory hexecuting
      have hsecond : station.k.isReady = true := by
        cases hstore : ins.opcode.isStore with
        | true => exact hvalue hstore
        | false =>
            have hload : ins.opcode.isLoad = true := by
              simpa [Opcode.isMemory, hstore] using hmemory
            rw [hport.alone ins hins hload]
            rfl
      rw [Station.operandsReady, (hprogress.addressed haddress).1, hsecond]
      rfl

theorem PortSound.at_work (hport : station.PortSound) (hsound : station.Sound)
    (hresident : station.blockResident = true) :
    station.busy = true ∧ station.operandsReady = true := by
  have hbusy : station.busy = true := by
    by_contra hfree
    have hreleased := hsound.free (by simpa using hfree)
    rw [hreleased] at hresident
    nomatch hresident
  exact ⟨hbusy,
    hport.operandsReady hsound hbusy (hport.executing hresident)⟩

theorem hears_eq_false (hready : station.operandsReady = true) (tag : String) :
    station.hears tag = false := by
  have hboth : station.j.isReady = true ∧ station.k.isReady = true := by
    simpa [operandsReady] using hready
  have hne : ∀ operand : Operand, operand.isReady = true →
      operand ≠ .pending tag := by
    rintro operand hready rfl
    contradiction
  simp [hears, awaits, hne _ hboth.1, hne _ hboth.2]

theorem PortSound.listen (hport : station.PortSound) (tag : String)
    (value : Int) : (station.listen tag value).PortSound := by
  unfold Station.listen
  split
  · exact hport.receive tag value
  · exact hport

end Station

namespace Machine

variable {m m' : Machine} {log : List Happening} {name : String}
  {station : Station}

theorem portSound_occupied (m : Machine) (station : Station) (next : Stamped) :
    (m.occupied station next).PortSound where
  nonneg := Int.le_refl 0
  resident := fun hbegun => absurd hbegun (Int.lt_irrefl 0)
  executing := nofun
  memory := nofun
  alone := by
    intro ins hins hload
    cases hins
    have hform : next.instruction.opcode.form = .load := of_decide_eq_true hload
    have hsecond : (m.occupied station next).k =
        m.registers.secondOperand next.instruction := rfl
    rw [hsecond, RegisterFile.secondOperand, hform]

/-! ## The owner of the port in a machine -/

/-- The owner of the port is the station that has begun to use it and has not
finished. -/
structure PortHeld (m : Machine) : Prop where
  sound : m.Sound
  portSound : ∀ {name station}, m.bank.station? name = some station →
    station.PortSound
  owner_iff : ∀ {name station}, m.bank.station? name = some station →
    (m.portOwner = some name ↔ station.HasPort)
  known : ∀ {name}, m.portOwner = some name → name ∈ m.bank.map Station.name

theorem exists_station?_of_mem_names (h : name ∈ m.bank.map Station.name) :
    ∃ station, m.bank.station? name = some station := by
  obtain ⟨station, hmem, rfl⟩ := List.mem_map.mp h
  apply Option.isSome_iff_exists.mp
  rw [Bank.station?, List.find?_isSome]
  exact ⟨station, hmem, by simp⟩

/-- What leaves the owner and keeps the flags of every station keeps the port
held. -/
theorem PortHeld.of_stations (h : m.PortHeld) (hsound : m'.Sound)
    (howner : m'.portOwner = m.portOwner)
    (hplaces : m'.bank.map place = m.bank.map place)
    (hstations : ∀ {name station}, m.bank.station? name = some station →
      ∃ other, m'.bank.station? name = some other ∧ other.PortSound ∧
        (other.HasPort ↔ station.HasPort)) : m'.PortHeld := by
  have hnames := map_name_of_map_place hplaces
  have hbefore : ∀ {name other}, m'.bank.station? name = some other →
      ∃ station, m.bank.station? name = some station ∧ other.PortSound ∧
        (other.HasPort ↔ station.HasPort) := by
    intro name other hother
    have hsame := Bank.isSome_station?_of_map_name_eq hnames name
    rw [hother, Option.isSome_some, eq_comm, Option.isSome_iff_exists] at hsame
    obtain ⟨station, hstation⟩ := hsame
    obtain ⟨other', hother', hport⟩ := hstations hstation
    cases hother.symm.trans hother'
    exact ⟨station, hstation, hport⟩
  refine ⟨hsound, fun hother => ?_, fun hother => ?_, fun hknown => ?_⟩
  · obtain ⟨_, -, hport, -⟩ := hbefore hother
    exact hport
  · obtain ⟨_, hstation, -, hiff⟩ := hbefore hother
    rw [howner, h.owner_iff hstation, hiff]
  · rw [hnames]
    exact h.known (howner ▸ hknown)

theorem portHeld_create (config : Config) (preload : List (Int × Int)) :
    (create config preload).PortHeld where
  sound := sound_create config preload
  portSound := fun hstation => by
    rw [Bank.eq_release_of_mem_ofSizes (Bank.mem_of_station? hstation)]
    exact Station.portSound_release _
  owner_iff := fun hstation => by
    rw [Bank.eq_release_of_mem_ofSizes (Bank.mem_of_station? hstation)]
    constructor
    · exact fun howner => nomatch howner
    · exact fun hport => nomatch hport.executing
  known := fun howner => nomatch howner

/-- A change from outside moves neither the stations nor the port. -/
theorem PortHeld.of_bank_eq (h : m.PortHeld) (hbank : m'.bank = m.bank)
    (howner : m'.portOwner = m.portOwner) : m'.PortHeld :=
  h.of_stations (h.sound.of_bank_eq hbank) howner (by rw [hbank])
    fun hstation => ⟨_, by rw [hbank]; exact hstation, h.portSound hstation,
      Iff.rfl⟩

theorem PortHeld.begin (h : m.PortHeld) : m.begin.PortHeld := by
  apply h.of_stations h.sound.begin rfl (map_place_begin m)
  intro name station hstation
  refine ⟨station.endPause, ?_, (h.portSound hstation).endPause,
    station.kept_endPause.hasPort_iff⟩
  rw [station?_begin, hstation]
  rfl

theorem WritesBack.portOwner_eq (hphase : m.WritesBack m' log) :
    m'.portOwner = m.portOwner := by
  cases hphase with
  | idle => rfl
  | empty => rfl
  | @broken station ins =>
      obtain ⟨cache, queue, issuedCount, heq⟩ := settle_eq m station ins
      rw [heq]
  | stored => rfl
  | @branched station ins =>
      obtain ⟨queue, issuedCount, heq⟩ := redirect_eq m station ins
      rw [heq]
      rfl
  | published => rfl

theorem PortHeld.writesBack (h : m.PortHeld) (hphase : m.WritesBack m' log) :
    m'.PortHeld := by
  apply h.of_stations (h.sound.writesBack hphase) hphase.portOwner_eq
    (map_place_writesBack hphase)
  intro name station hstation
  have hport := h.portSound hstation
  cases htold : isTold log with
  | false =>
      have hsame := (hphase.of_untold htold h.sound.distinct hstation).1
      exact ⟨station, hsame, hport, Iff.rfl⟩
  | true =>
      rcases hphase.station?_cases htold h.sound.distinct hstation with
        hsame | ⟨tag, value, hheard⟩ | ⟨hgranted, hfree⟩
      · exact ⟨station, hsame, hport, Iff.rfl⟩
      · exact ⟨_, hheard, hport.listen tag value,
          (station.kept_listen tag value).hasPort_iff⟩
      · refine ⟨_, hfree, station.portSound_release, ?_⟩
        constructor
        · intro hholds
          cases hholds.executing
        · intro hholds
          have hpending := (mem_of_granted? hgranted).2.2
          rw [hholds.pending] at hpending
          contradiction

theorem PortHeld.writeback (h : m.PortHeld) : m.writeback.1.PortHeld :=
  h.writesBack m.writeback_writesBack

theorem PortHeld.issues (h : m.PortHeld) (hphase : m.Issues m' log) :
    m'.PortHeld := by
  have howner : m'.portOwner = m.portOwner := by cases hphase <;> rfl
  apply h.of_stations (h.sound.issues hphase) howner (map_place_issues hphase)
  intro name station hstation
  rcases hphase.station?_cases h.sound.distinct hstation with
    ⟨hsame, -⟩ | ⟨next, hfree, -, hnew, -⟩
  · exact ⟨station, hsame, h.portSound hstation, Iff.rfl⟩
  · refine ⟨_, hnew, portSound_occupied m station next, ?_⟩
    constructor
    · exact fun hport => nomatch hport.executing
    · intro hport
      have hexecuting := hport.executing
      rw [(h.sound.station hstation).free hfree] at hexecuting
      nomatch hexecuting

theorem PortHeld.of_mem (h : m.PortHeld) (hmem : station ∈ m.bank) :
    station.Sound ∧ station.PortSound :=
  have hstation := h.sound.distinct.station?_name hmem
  ⟨h.sound.station hstation, h.portSound hstation⟩

/-- The owner of the port is at work. -/
theorem PortHeld.exists_owner (h : m.PortHeld) (howner : m.portOwner = some name) :
    ∃ station, m.bank.station? name = some station ∧ station.HasPort ∧
      station.busy = true := by
  obtain ⟨station, hstation⟩ := exists_station?_of_mem_names (h.known howner)
  have hport := (h.owner_iff hstation).mp howner
  exact ⟨station, hstation, hport, ((h.portSound hstation).at_work
    (h.sound.station hstation) hport.resident).1⟩

theorem PortHeld.portOwner_eq_none (h : m.PortHeld)
    (hfree : m.bank.isFree = true) : m.portOwner = none := by
  by_contra hne
  obtain ⟨name, howner⟩ := Option.ne_none_iff_exists'.mp hne
  obtain ⟨station, hstation, -, hbusy⟩ := h.exists_owner howner
  rw [Bank.busy_eq_false_of_isFree hfree hstation] at hbusy
  contradiction

theorem PortHeld.execute (h : m.PortHeld) : m.execute.1.PortHeld := by
  have hsound := h.sound.execute
  have hnames := map_name_of_map_place (map_place_execute m)
  refine ⟨hsound, ?_, ?_, ?_⟩
  · intro name other hother
    obtain ⟨station, hstation, hstep⟩ := exists_stepped_of_execute hother
    rcases hstep with rfl | ⟨port, cache, rfl⟩
    · exact h.portSound hstation
    · exact (Station.portTurn_execute (h.sound.station hstation)
        (h.portSound hstation) port cache).2
  · intro name other hother
    cases Bank.name_of_station? hother
    exact @Bank.owner_iff_execute m.bank ⟨m.portOwner, false⟩ m.cache
      h.sound.distinct (fun _ hmem => h.of_mem hmem)
      (fun _ hmem => h.owner_iff (h.sound.distinct.station?_name hmem))
      other (Bank.mem_of_station? hother)
  · intro name howner
    by_contra hnone
    rw [hnames] at hnone
    exact hnone (h.known
      ((@Bank.owner_execute_of_not_mem m.bank ⟨m.portOwner, false⟩ m.cache name
        (fun _ hmem => h.of_mem hmem) hnone).mp howner))

/-- A cycle keeps the port held, be it completed or broken off. -/
theorem PortHeld.advance (h : m.PortHeld) : m.advance.1.PortHeld := by
  cases htold : isTold m.begin.writeback.2 with
  | false =>
      rw [advance_of_untold htold]
      exact h.begin.writeback
  | true =>
      rw [advance_of_told htold]
      exact (h.begin.writeback.issues (issue_issues _)).execute

/-! ## A cycle at the port -/

/-- The number of cycles in which the station of a name has had the port for its
instruction. -/
def portCycles (m : Machine) (name : String) : Int :=
  (m.bank.station? name).elim 0 (·.portCycles)

theorem portCycles_of_station? (h : m.bank.station? name = some station) :
    m.portCycles name = station.portCycles := by
  rw [portCycles, h, Option.elim_some]

theorem kept_atExecution (hsound : m.Sound)
    (htold : isTold m.begin.writeback.2 = true) {other : Station}
    (hother : m.atExecution.bank.station? name = some other)
    (hrests : other.rests = false) :
    ∃ station, m.bank.station? name = some station ∧ station.Kept other := by
  have hwrites := m.begin.writeback_writesBack
  obtain ⟨hbusy, hawake, -⟩ := Station.rests_eq_false_iff.mp hrests
  have hbegun := hsound.begin
  have hwritten := hbegun.writesBack hwrites
  rcases (issue_issues _).kept_or_pauses hwritten.distinct hother with
    hbefore | ⟨hpauses, -⟩
  · obtain ⟨middle, hmiddle, hkept⟩ :=
      hwrites.kept_of_busy htold hbegun.distinct hbefore hbusy
    rw [station?_begin] at hmiddle
    obtain ⟨station, hstation, rfl⟩ := Option.map_eq_some_iff.mp hmiddle
    exact ⟨station, hstation, station.kept_endPause.trans hkept⟩
  · rw [hpauses] at hawake
    nomatch hawake

/-- Whose block is there and who has not finished goes into execution as it is,
and without a pause. -/
theorem atExecution_of_resident (h : m.PortHeld)
    (htold : isTold m.begin.writeback.2 = true)
    (hstation : m.bank.station? name = some station)
    (hresident : station.blockResident = true)
    (hpending : station.resultPending = false) :
    ∃ other, m.atExecution.bank.station? name = some other ∧
      station.Kept other ∧ other.rests = false ∧
      toldAt name m.begin.writeback.2 = [] ∧
      toldAt name m.begin.writeback.1.issue.2 = [] := by
  have hkept := station.kept_endPause
  have hbegun : m.begin.bank.station? name = some station.endPause := by
    rw [station?_begin, hstation]
    rfl
  have hheld := h.begin
  obtain ⟨hbusy, hready⟩ :=
    (hheld.portSound hbegun).at_work (hheld.sound.station hbegun) (by
      obtain ⟨_, _, _, heq⟩ := hkept
      rw [heq]
      exact hresident)
  have hawake : station.endPause.rests = false := by
    have hworks : station.busy = true := by
      rw [← (Station.sameWork_endPause station).busy]
      exact hbusy
    simp [Station.rests, Station.endPause, hworks, hpending]
  have hasks : station.endPause.asksForBus = false := by
    rw [hkept.asksForBus, Station.asksForBus, hpending, Bool.and_false]
  obtain ⟨other, hother, hbus⟩ := exists_atBus htold hheld.sound.distinct hbegun
  generalize toldAt name m.begin.writeback.2 = log at hbus ⊢
  cases hbus with
  | hears hhears =>
      rw [Station.hears_eq_false hready] at hhears
      contradiction
  | leaves hleaves =>
      rw [hasks] at hleaves
      contradiction
  | alone =>
      rcases (issue_issues _).station?_cases hheld.writeback.sound.distinct
        hother with ⟨hissued, hlog⟩ | ⟨_, hfree, -⟩
      · exact ⟨_, hissued, hkept, hawake, rfl, hlog⟩
      · rw [hbusy] at hfree
        contradiction

theorem portCycles_begin (m : Machine) (name : String) :
    m.begin.portCycles name = m.portCycles name := by
  unfold portCycles
  rw [station?_begin]
  cases m.bank.station? name with
  | none => rfl
  | some station =>
      obtain ⟨_, _, _, heq⟩ := station.kept_endPause
      rw [Option.map_some, Option.elim_some, Option.elim_some, heq]

theorem portCycles_of_none (h : m.bank.station? name = none) :
    m.portCycles name = 0 := by
  rw [portCycles, h, Option.elim_none]

theorem PortHeld.portCycles_nonneg (h : m.PortHeld) (name : String) :
    0 ≤ m.portCycles name := by
  cases hstation : m.bank.station? name with
  | none => exact Int.le_of_eq (portCycles_of_none hstation).symm
  | some station =>
      rw [portCycles_of_station? hstation]
      exact (h.portSound hstation).nonneg

theorem PortHeld.portCycles_writeback_le (h : m.PortHeld) (name : String) :
    m.writeback.1.portCycles name ≤ m.portCycles name := by
  cases hother : m.writeback.1.bank.station? name with
  | none =>
      rw [portCycles_of_none hother]
      exact h.portCycles_nonneg name
  | some other =>
      have hphase := m.writeback_writesBack
      have hsame := Bank.isSome_station?_of_map_name_eq
        (map_name_of_map_place (map_place_writesBack hphase)) name
      rw [hother, Option.isSome_some, eq_comm, Option.isSome_iff_exists] at hsame
      obtain ⟨station, hstation⟩ := hsame
      rw [portCycles_of_station? hother, portCycles_of_station? hstation]
      cases htold : isTold m.writeback.2 with
      | false =>
          have hkept := (hphase.of_untold htold h.sound.distinct hstation).1
          cases hkept.symm.trans hother
          exact Int.le_refl _
      | true =>
          rcases hphase.station?_cases htold h.sound.distinct hstation with
            hsame | ⟨tag, value, hheard⟩ | ⟨-, hfree⟩
          · cases hsame.symm.trans hother
            exact Int.le_refl _
          · cases hheard.symm.trans hother
            obtain ⟨_, _, _, heq⟩ := station.kept_listen tag value
            exact Int.le_of_eq (by rw [heq])
          · cases hfree.symm.trans hother
            exact (h.portSound hstation).nonneg

theorem PortHeld.portCycles_atExecution_le (h : m.PortHeld) (name : String) :
    m.atExecution.portCycles name ≤ m.portCycles name := by
  have hbegun := h.begin
  have hwritten := hbegun.portCycles_writeback_le name
  rw [portCycles_begin] at hwritten
  cases hother : m.atExecution.bank.station? name with
  | none =>
      rw [portCycles_of_none hother]
      exact h.portCycles_nonneg name
  | some other =>
      rw [portCycles_of_station? hother]
      rcases (issue_issues _).kept_or_pauses hbegun.writeback.sound.distinct
        hother with hbefore | ⟨-, hzero⟩
      · rw [← portCycles_of_station? hbefore]
        exact hwritten
      · rw [hzero]
        exact h.portCycles_nonneg name

theorem portOwner_atExecution (m : Machine) :
    m.atExecution.portOwner = m.portOwner := by
  have hissued : m.atExecution.portOwner = m.begin.writeback.1.portOwner := by
    have hissues := m.begin.writeback.1.issue_issues
    unfold atExecution
    generalize m.begin.writeback.1.issue = result at hissues ⊢
    obtain ⟨other, log⟩ := result
    cases hissues <;> rfl
  rw [hissued, m.begin.writeback_writesBack.portOwner_eq]
  rfl

/-- If the block of some access is there that is not done, then of some such
access the port is open to the station. -/
theorem PortHeld.exists_open (h : m.PortHeld)
    (htold : isTold m.begin.writeback.2 = true) {station : Station}
    (hstation : m.bank.station? name = some station)
    (hresident : station.blockResident = true)
    (hpending : station.resultPending = false) :
    ∃ other ∈ m.atExecution.bank, other.rests = false ∧
      other.blockResident = true ∧
      Port.isOpenTo ⟨m.atExecution.portOwner, false⟩ other.name = true := by
  have hfound : ∀ {name station}, m.bank.station? name = some station →
      station.blockResident = true → station.resultPending = false →
      m.portOwner = none ∨ m.portOwner = some name →
      ∃ other ∈ m.atExecution.bank, other.rests = false ∧
        other.blockResident = true ∧
        Port.isOpenTo ⟨m.atExecution.portOwner, false⟩ other.name = true := by
    intro name station hstation hresident hpending howner
    obtain ⟨other, hother, ⟨_, _, _, heq⟩, hrests, -⟩ :=
      atExecution_of_resident h htold hstation hresident hpending
    refine ⟨other, Bank.mem_of_station? hother, hrests, by rw [heq, hresident],
      ?_⟩
    rw [portOwner_atExecution, Bank.name_of_station? hother]
    rcases howner with howner | howner
    · rw [howner]
      rfl
    · rw [howner]
      simp [Port.isOpenTo]
  cases howner : m.portOwner with
  | none => exact hfound hstation hresident hpending (.inl howner)
  | some owner =>
      obtain ⟨held, hheld, hport, -⟩ := h.exists_owner howner
      exact hfound hheld hport.resident hport.pending (.inr howner)

/-- In a cycle one station uses the port at most, for one cycle.  One does if the
block of some access is there that is not done, unless the cycle is broken
off. -/
theorem PortHeld.exists_user (h : m.PortHeld) :
    ∃ user : Option String,
      (∀ name, user = some name →
        m.advance.1.portCycles name = m.portCycles name + 1) ∧
      (∀ name, user ≠ some name →
        m.advance.1.portCycles name ≤ m.portCycles name) ∧
      (isTold m.advance.2 = true →
        (∃ station ∈ m.bank, station.blockResident = true ∧
          station.resultPending = false) → user ≠ none) := by
  cases htold : isTold m.begin.writeback.2 with
  | false =>
      refine ⟨none, nofun, fun name _ => ?_, fun hall => ?_⟩
      · rw [advance_of_untold htold, ← portCycles_begin m name]
        exact h.begin.portCycles_writeback_le name
      · rw [isTold_writeback hall] at htold
        nomatch htold
  | true =>
      have hready := h.begin.writeback.issues (issue_issues _)
      obtain ⟨user, hgives, huser, hwanted⟩ := @Bank.exists_givesPortTo
        m.atExecution.bank ⟨m.atExecution.portOwner, false⟩ m.atExecution.cache
        hready.sound.distinct fun _ hmem => hready.of_mem hmem
      have hafter : ∀ {name middle},
          m.atExecution.bank.station? name = some middle →
          ∃ other, m.atExecution.execute.1.bank.station? name = some other ∧
            ((user = some middle.name ∧ middle.rests = false ∧
                other.portCycles = middle.portCycles + 1) ∨
              (user ≠ some middle.name ∧
                other.portCycles = middle.portCycles)) := by
        intro name middle hmiddle
        have hrel := Bank.rel_station?_of_forall₂ (fun _ _ hst => hst.1) hgives
          name
        rw [hmiddle] at hrel
        generalize hother : Bank.station? _ name = other at hrel
        cases hrel with
        | some huses => exact ⟨_, hother, huses.2⟩
      rw [advance_eq_execute htold]
      refine ⟨user, fun name heq => ?_, fun name hne => ?_, fun hall => ?_⟩
      · obtain ⟨middle, hmiddle⟩ := exists_station?_of_mem_names (huser name heq).2
        obtain ⟨other, hother, huses⟩ := hafter hmiddle
        rcases huses with ⟨-, hrests, hcycles⟩ | ⟨hne, -⟩
        · obtain ⟨station, hstation, _, _, _, rfl⟩ :=
            kept_atExecution h.sound htold hmiddle hrests
          rw [portCycles_of_station? hother, portCycles_of_station? hstation]
          exact hcycles
        · exact absurd (Bank.name_of_station? hmiddle ▸ heq) hne
      · refine Int.le_trans ?_ (h.portCycles_atExecution_le name)
        cases hmiddle : m.atExecution.bank.station? name with
        | none =>
            have hnone := Bank.isSome_station?_of_map_name_eq
              (map_name_of_map_place (map_place_execute m.atExecution)) name
            rw [hmiddle, Option.isSome_none, Option.isSome_eq_false_iff,
              Option.isNone_iff_eq_none] at hnone
            exact Int.le_of_eq ((portCycles_of_none hnone).trans
              (portCycles_of_none hmiddle).symm)
        | some middle =>
            obtain ⟨other, hother, huses⟩ := hafter hmiddle
            rcases huses with ⟨heq, -⟩ | ⟨-, hcycles⟩
            · exact absurd (Bank.name_of_station? hmiddle ▸ heq) hne
            · rw [portCycles_of_station? hother, portCycles_of_station? hmiddle]
              exact Int.le_of_eq hcycles
      · rintro ⟨station, hmem, hresident, hpending⟩
        have hexecuted : isTold m.atExecution.execute.2 = true := by
          rw [advance_of_told htold, isTold_append, Bool.and_eq_true] at hall
          exact hall.2
        exact hwanted hexecuted (h.exists_open htold
          (h.sound.distinct.station?_name hmem) hresident hpending)

theorem finished_mem_advance (htold : isTold m.advance.2 = true)
    {ins : Instruction} :
    .finished name ins ∈ m.advance.2 ↔
      .finished name ins ∈ toldAt name m.advance.2 := by
  rw [toldAt_of_isTold htold, List.mem_filter]
  simp [Happening.station?]

/-- Who has begun to use the port uses it in every cycle until it finishes. -/
theorem PortHeld.goes_on (h : m.PortHeld) (htold : isTold m.advance.2 = true)
    (hstation : m.bank.station? name = some station)
    (hbegun : 0 < station.portCycles)
    (hpending : station.resultPending = false) :
    ∃ other, m.advance.1.bank.station? name = some other ∧
      other.portCycles = station.portCycles + 1 ∧
      (other.resultPending = true ↔
        ∃ ins, .finished name ins ∈ m.advance.2) := by
  have hresident := (h.portSound hstation).resident hbegun
  have hwritten := isTold_writeback htold
  have hexecuted : isTold m.atExecution.execute.2 = true := by
    rw [advance_of_told hwritten, isTold_append, Bool.and_eq_true] at htold
    exact htold.2
  obtain ⟨middle, hmiddle, hkept, hrests, hfirst, hsecond⟩ :=
    atExecution_of_resident h hwritten hstation hresident hpending
  have hready : m.atExecution.PortHeld :=
    h.begin.writeback.issues (issue_issues _)
  have hmiddlePort := hready.portSound hmiddle
  have hsame : middle.portCycles = station.portCycles ∧
      middle.blockResident = true := by
    obtain ⟨_, _, _, rfl⟩ := hkept
    exact ⟨rfl, hresident⟩
  have hsound := hready.sound.station hmiddle
  -- the station owns the port, so it finds the port open
  have howner : m.atExecution.portOwner = some name :=
    (hready.owner_iff hmiddle).mpr
      (hmiddlePort.hasPort hsound (hsame.1 ▸ hbegun)
        (Station.rests_eq_false_iff.mp hrests).2.2)
  obtain ⟨other, hother, hturn⟩ := @Bank.exists_turn m.atExecution.bank
    ⟨m.atExecution.portOwner, false⟩ m.atExecution.cache _ _
    hready.sound.distinct (fun _ hmem => hready.of_mem hmem) hmiddle
  refine ⟨other, by rw [advance_eq_execute hwritten]; exact hother, ?_⟩
  rw [← hsame.1]
  have hlog := toldAt_advance hwritten name
  rw [hfirst, hsecond, List.nil_append, List.nil_append] at hlog
  simp only [finished_mem_advance htold, hlog]
  have hexecution : m.atExecution.execute.2 = (m.atExecution.bank.execute
    ⟨m.atExecution.portOwner, false⟩ m.atExecution.cache).2.2.2 := rfl
  rw [hexecution] at hexecuted ⊢
  cases hturn with
  | missed huntold =>
      rw [hexecuted] at huntold
      contradiction
  | @taken port' cache' hport _ htaken htakenTold =>
      cases hport howner
      rw [htaken, takeWhile_isTellable_of_isTold (htakenTold hexecuted)]
      have hname := Bank.name_of_station? hmiddle
      obtain ⟨hstep, -⟩ := Station.portTurn_execute hsound hmiddlePort
        ⟨m.atExecution.portOwner, false⟩ cache'
      generalize middle.execute ⟨m.atExecution.portOwner, false⟩ cache' = step
        at hstep ⊢
      obtain ⟨after, port, cache, log⟩ := step
      dsimp only at hstep ⊢
      cases hstep with
      | passed _ _ hclosed =>
          have hshut := hclosed hrests hsame.2
          simp [Port.isOpenTo, howner, hname] at hshut
      | kept _ _ hcycles hport hnone =>
          refine ⟨hcycles, ?_⟩
          rw [hport.pending]
          constructor
          · intro hpending
            contradiction
          · rintro ⟨ins, hmem⟩
            exact absurd (hname ▸ hmem) (hnone ins)
      | returned _ _ hcycles hdone hmem =>
          exact ⟨hcycles, fun _ => ⟨_, hname ▸ hmem⟩, fun _ => hdone⟩

end Machine

namespace Simulation

/-! ## The port in runs -/

/-- The station of a name gets the load/store port in the cycle between two
machines. -/
def GetsPort (m m' : Machine) (name : String) : Prop :=
  m.portCycles name < m'.portCycles name

/-- The load/store port belongs to one station at a time, which keeps it until
it has finished, and does not stay idle while somebody needs it. -/
structure SharesPort (sim : Simulation) : Prop where
  /-- The owner is in the midst of its access. -/
  owner_iff : ∀ name, sim.machine.portOwner = some name ↔
    ∃ station, sim.machine.bank.station? name = some station ∧
      station.HasPort
  /-- Nobody else is. -/
  unique : ∀ station ∈ sim.machine.bank, ∀ other ∈ sim.machine.bank,
    station.HasPort → other.HasPort → station = other
  /-- In the next cycle, be it completed or broken off, one station gets the port
  at most. -/
  exclusive : ∀ name other, GetsPort sim.machine sim.cycle.machine name →
    GetsPort sim.machine sim.cycle.machine other → name = other
  /-- Who gets it has it for one cycle more. -/
  by_one : ∀ name, GetsPort sim.machine sim.cycle.machine name →
    sim.cycle.machine.portCycles name = sim.machine.portCycles name + 1
  /-- Who has had the port gets it in every completed cycle up to the one in which
  it finishes. -/
  goes_on : ∀ next, sim.advance = .ok next → ∀ name station,
    sim.machine.bank.station? name = some station →
    0 < station.portCycles → station.resultPending = false →
    ∃ other, next.machine.bank.station? name = some other ∧
      other.portCycles = station.portCycles + 1 ∧
      (other.resultPending = true ↔
        ∃ ins, .finished name ins ∈ sim.machine.advance.2)
  /-- In a completed cycle at whose start the block of an access is there that is
  not done, exactly one station gets the port. -/
  busy : ∀ next, sim.advance = .ok next →
    (∃ station ∈ sim.machine.bank, station.blockResident = true ∧
      station.resultPending = false) →
    ∃ name, GetsPort sim.machine next.machine name ∧
      ∀ other, GetsPort sim.machine next.machine other → other = name

theorem sharesPort_of_portHeld {sim : Simulation} (h : sim.machine.PortHeld) :
    sim.SharesPort := by
  obtain ⟨user, hmore, hless, hwanted⟩ := h.exists_user
  rw [← machine_cycle] at hmore hless
  have huser : ∀ name, GetsPort sim.machine sim.cycle.machine name →
      user = some name := by
    intro name hgets
    by_contra hne
    have hle := hless name hne
    unfold GetsPort at hgets
    omega
  have hexclusive : ∀ name other,
      GetsPort sim.machine sim.cycle.machine name →
      GetsPort sim.machine sim.cycle.machine other → name = other :=
    fun name other hname hother =>
      Option.some.inj ((huser name hname).symm.trans (huser other hother))
  refine {
    owner_iff := ?_
    unique := ?_
    exclusive := hexclusive
    by_one := fun name hgets => hmore name (huser name hgets)
    goes_on := ?_
    busy := ?_ }
  · intro name
    constructor
    · intro howner
      obtain ⟨station, hstation, hport, -⟩ := h.exists_owner howner
      exact ⟨station, hstation, hport⟩
    · rintro ⟨station, hstation, hport⟩
      exact (h.owner_iff hstation).mpr hport
  · intro station hmem other hother hport hport'
    have hstation := h.sound.distinct.station?_name hmem
    have hother' := h.sound.distinct.station?_name hother
    have howner := (h.owner_iff hstation).mpr hport
    have howner' := (h.owner_iff hother').mpr hport'
    have hname : station.name = other.name :=
      Option.some.inj (howner.symm.trans howner')
    rw [hname] at hstation
    exact Option.some.inj (hstation.symm.trans hother')
  · intro next hadvance name station hstation hbegun hpending
    obtain ⟨htold, rfl⟩ := advance_eq_ok_iff.mp hadvance
    rw [machine_cycle]
    exact h.goes_on htold hstation hbegun hpending
  · intro next hadvance hneeds
    obtain ⟨htold, rfl⟩ := advance_eq_ok_iff.mp hadvance
    obtain ⟨name, hname⟩ := Option.ne_none_iff_exists'.mp (hwanted htold hneeds)
    refine ⟨name, ?_, fun other hother => ?_⟩
    · have hgrown := hmore name hname
      unfold GetsPort
      omega
    · exact Option.some.inj ((huser other hother).symm.trans hname)

/-- The port is held in every machine that a run reaches. -/
theorem portHeld_after (config : Config) (preload : List (Int × Int))
    (actions : List Action) :
    ((fresh config preload).after actions).machine.PortHeld :=
  after_induction (P := fun m _ => m.PortHeld) (fun _ _ h => h.advance)
    (fun _ _ _ h => h.of_bank_eq rfl rfl)
    (fun _ _ _ _ h => h.of_bank_eq rfl rfl)
    (fun _ _ _ _ h => h.of_bank_eq rfl rfl)
    (fun _ _ _ h => h.of_bank_eq rfl rfl)
    (Machine.portHeld_create config preload) actions

/-- Whatever is done with a machine, its stations share the load/store port. -/
theorem load_store_port_held (config : Config) (preload : List (Int × Int))
    (actions : List Action) :
    ((fresh config preload).after actions).SharesPort :=
  sharesPort_of_portHeld (portHeld_after config preload actions)

end Simulation

end OutOfOrder
