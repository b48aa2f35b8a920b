import OutOfOrder.Proofs.Fills

/-!
# Waiting for a block

An access that misses counts the penalty down before it tells of the fill.  So
the counter of its station says how long the miss is ago, and a fill is told as
many cycles behind the miss as the penalty says, where the cycle of the miss is
the first of them.

Together with what was filled before it was hit this shows that no access finds a
block that nobody has waited for.
-/

namespace OutOfOrder

namespace Stay

/-- Of every fill that is told, the miss was told as long before as the penalty
says. -/
def FillsWaited (config : Config) (name : String) (stay : Stay) : Prop :=
  ∀ fill address, ⟨fill, .filled name address⟩ ∈ stay.events →
    ∃ miss, ⟨miss, .missed name address (config.value .cacheMissPenalty)⟩ ∈
        stay.events ∧
      fill = miss + (config.value .cacheMissPenalty - 1)

variable {config : Config} {name : String} {stay : Stay}
  {log : List Happening}

theorem FillsWaited.addAll (h : stay.FillsWaited config name) (now : Nat)
    (hlog : ∀ happening ∈ log, happening.kind ≠ .cacheFill) :
    (stay.addAll now log).FillsWaited config name := by
  intro fill address hmem
  rcases List.mem_append.mp hmem with hbefore | hnew
  · obtain ⟨miss, hmiss, hfill⟩ := h fill address hbefore
    exact ⟨miss, List.mem_append_left _ hmiss, hfill⟩
  · obtain ⟨happening, hhappening, heq⟩ := List.mem_map.mp hnew
    cases heq
    exact absurd rfl (hlog _ hhappening)

end Stay

namespace Station

/-- The station waits for a block that it has missed. -/
structure Fetches (station : Station) : Prop where
  executing : station.executing = true
  missing : station.blockResident = false
  memory : ∃ ins, station.instruction? = some ins ∧
    ins.opcode.isMemory = true

/-- A station that waits for a block has missed it, and its counter says when. -/
def Awaits (station : Station) (config : Config) (name : String) (time : Nat)
    (stay : Stay) : Prop :=
  station.Fetches → ∃ miss : Nat,
    ⟨miss, .missed name station.address (config.value .cacheMissPenalty)⟩ ∈
        stay.events ∧
      0 < config.value .cacheMissPenalty ∧
      max 1 station.cacheRemaining + time =
        miss + config.value .cacheMissPenalty

variable {config : Config} {name : String} {stay : Stay} {now time : Nat}
  {station found began other : Station} {ins : Instruction}
  {port after : Port} {log : List Happening}

theorem awaits_of_idle (h : station.executing = false) :
    station.Awaits config name time stay := by
  intro hfetches
  rw [hfetches.executing] at h
  contradiction

theorem awaits_of_resident (h : station.blockResident = true) :
    station.Awaits config name time stay := by
  intro hfetches
  rw [hfetches.missing] at h
  contradiction

theorem awaits_of_arithmetic (hins : station.instruction? = some ins)
    (h : ins.opcode.isMemory = false) :
    station.Awaits config name time stay := by
  intro hfetches
  obtain ⟨held, hheld, hmemory⟩ := hfetches.memory
  cases hins.symm.trans hheld
  rw [hmemory] at h
  contradiction

/-- In a cycle of waiting the counter goes down by one, and the fill is told in
the last of them. -/
theorem Awaits.counts (h : station.Awaits config name now stay)
    (hwaited : stay.FillsWaited config name)
    (hcounts : station.Counts ins port other after log)
    (hname : station.name = name) (hexecuting : station.executing = true)
    (hins : station.instruction? = some ins) :
    (stay.addAll now log).FillsWaited config name ∧
      other.Awaits config name (now + 1) (stay.addAll now log) := by
  cases hcounts with
  | computes hmemory =>
      exact ⟨hwaited.addAll now (by simp), awaits_of_arithmetic hins hmemory⟩
  | computed hmemory =>
      refine ⟨hwaited.addAll now ?_, awaits_of_arithmetic hins hmemory⟩
      simp [Happening.kind]
  | stands _ hresident | uses _ hresident =>
      exact ⟨hwaited.addAll now (by simp), awaits_of_resident hresident⟩
  | finishes _ hresident =>
      refine ⟨hwaited.addAll now ?_, awaits_of_resident hresident⟩
      simp [Happening.kind]
  | awaits hmemory hmissing hmore =>
      refine ⟨hwaited.addAll now (by simp), fun _ => ?_⟩
      obtain ⟨miss, hmiss, hpenalty, hleft⟩ :=
        h ⟨hexecuting, hmissing, ins, hins, hmemory⟩
      refine ⟨miss, List.mem_append_left _ hmiss, hpenalty, ?_⟩
      dsimp only
      omega
  | filled hmemory hmissing hlast =>
      obtain ⟨miss, hmiss, hpenalty, hleft⟩ :=
        h ⟨hexecuting, hmissing, ins, hins, hmemory⟩
      refine ⟨fun fill address hmem => ?_, awaits_of_resident rfl⟩
      rcases List.mem_append.mp hmem with hbefore | hnew
      · obtain ⟨miss, hmiss, hfill⟩ := hwaited fill address hbefore
        exact ⟨miss, List.mem_append_left _ hmiss, hfill⟩
      · cases List.mem_singleton.mp hnew
        refine ⟨miss, List.mem_append_left _ hmiss, ?_⟩
        omega

theorem Starts.awaits
    (hstarts : station.Starts ins (.ofConfig config) began log)
    (hname : station.name = name) (hins : station.instruction? = some ins) :
    began.Awaits config name now (stay.addAll now log) := by
  cases hstarts with
  | computing hmemory => exact awaits_of_arithmetic hins hmemory
  | resident => exact awaits_of_resident rfl
  | missing hmemory _ hpenalty =>
      intro _
      have hsame : (Geometry.ofConfig config).missPenalty =
          config.value .cacheMissPenalty := rfl
      rw [hsame] at hpenalty ⊢
      refine ⟨now, List.mem_append_right _ (by simp [hname]), hpenalty, ?_⟩
      dsimp only
      omega

/-- What a step tells before the station counts is no fill. -/
theorem Finds.kind_ne (h : station.Finds ins found log) :
    ∀ happening ∈ log, happening.kind ≠ .cacheFill := by
  cases h <;> simp [Happening.kind]

theorem Starts.kind_ne {geometry : Geometry}
    (h : station.Starts ins geometry began log) :
    ∀ happening ∈ log, happening.kind ≠ .cacheFill := by
  cases h with
  | computing | missing => simp [Happening.kind]
  | resident _ _ hway =>
      rcases hway with rfl | ⟨-, rfl⟩
      · simp [Happening.kind]
      · simp [Happening.kind]

theorem Awaits.steps (h : station.Awaits config name now stay)
    (hwaited : stay.FillsWaited config name)
    (hsteps : station.Steps port (.ofConfig config) other after log)
    (hhosts : station.Hosts name stay) (hsound : station.Sound)
    (hgoes : station.Fetches → station.justTransitioned = false)
    (htold : isTold log = true) :
    (stay.addAll now log).FillsWaited config name ∧
      other.Awaits config name (now + 1) (stay.addAll now log) := by
  cases hsteps with
  | rests hrests =>
      refine ⟨hwaited.addAll now (by simp), fun hfetches => ?_⟩
      -- who waits for a block has no result, and does not pause
      obtain ⟨ins, hins, hprogress⟩ := hsound.working hhosts.busy
      obtain ⟨held, hheld, hmemory⟩ := hfetches.memory
      cases hins.symm.trans hheld
      have hpending : station.resultPending = true := by
        simpa [rests, hhosts.busy, hgoes hfetches] using hrests
      have hresident := (hprogress.finished hpending).2.2.2 hmemory
      rw [hfetches.missing] at hresident
      contradiction
  | waits _ _ hidle hfinds =>
      exact ⟨hwaited.addAll now hfinds.kind_ne,
        awaits_of_idle (hfinds.executing_eq.trans hidle)⟩
  | breaks _ _ _ _ _ _ hlog huntold =>
      rw [isTold_append, hlog, huntold] at htold
      contradiction
  | begins _ hins hidle _ hfinds hstarts _ hcounts =>
      obtain ⟨hfound, -⟩ := hfinds.frame
      obtain ⟨hbegan, -, -, hexecuting, -⟩ := hstarts.frame
      have hname := hfound.name.trans hhosts.name_eq
      have hheld := hfound.instruction?.trans hins
      have hfindsWaited := hwaited.addAll now hfinds.kind_ne
      rw [← Stay.addAll_addAll, ← Stay.addAll_addAll]
      exact (hstarts.awaits hname hheld).counts
        (hfindsWaited.addAll now hstarts.kind_ne) hcounts (hbegan.name.trans hname)
        hexecuting (hbegan.instruction?.trans hheld)
  | goesOn _ hins hexecuting hcounts =>
      exact h.counts hwaited hcounts hhosts.name_eq hexecuting hins

end Station

/-! ## Waiting along a run -/

namespace Stay

/-- Behind a cycle every fill was waited for, and the station has counted the
cycle. -/
def IsWaited (config : Config) (name : String) (now : Nat) (station : Station)
    (stay : Stay) : Prop :=
  stay.FillsWaited config name ∧
    station.Awaits config name (now + 1) stay

/-- In the midst of a cycle every fill was waited for, and a station that waits is
going to count the cycle. -/
def IsWaitedWithin (config : Config) (name : String) (now : Nat)
    (station : Station) (stay : Stay) : Prop :=
  stay.FillsWaited config name ∧ station.Awaits config name now stay ∧
    (station.Fetches → station.justTransitioned = false)

end Stay

/-- The parts of a cycle keep what a station still has to wait in step with the
cycle of its miss. -/
theorem upkeep_isWaited (config : Config) (name : String) :
    Upkeep config name (Stay.IsWaitedWithin config name)
      (Stay.IsWaited config name) (Stay.FillsWaited config name)
      (Stay.FillsWaited config name) where
  begin := by
    intro now station stay hhosts h
    have hbegun : station.endPause =
        { station with justTransitioned := false } := by
      rw [Station.endPause, if_pos hhosts.busy]
    rw [hbegun]
    exact ⟨h.1, fun hfetches => h.2 { hfetches with }, fun _ => rfl⟩
  hears := by
    intro now station stay tag value hhosts hsound hport h hhears
    have hidle : station.executing = false := by
      by_contra hexecuting
      have hready := hport.operandsReady hsound hhosts.busy
        (by simpa using hexecuting)
      rw [Station.hears_eq_false hready] at hhears
      contradiction
    have hstays : (station.receive tag value).executing = false := by
      unfold Station.receive
      split <;> exact hidle
    refine ⟨h.1.addAll now (by simp [Happening.kind]),
      Station.awaits_of_idle hstays, fun hfetches => ?_⟩
    rw [hfetches.executing] at hstays
    contradiction
  leaves := by
    intro now station stay log hhosts h _ hends
    refine h.1.addAll now ?_
    cases hends with
    | branched _ hway => cases hway <;> simp [Happening.kind]
    | stored | loaded | computed => simp [Happening.kind]
  resolves := by
    intro now station stay _ h _ _
    exact h.1.addAll now (by simp [Happening.kind])
  issued := by
    intro m station next _ _
    refine ⟨fun fill address hmem => ?_, Station.awaits_of_idle rfl,
      fun hfetches => absurd hfetches.executing Bool.false_ne_true⟩
    cases List.mem_singleton.mp hmem
  steps := by
    intro now station stay port other after log hhosts hsound _ h _ hsteps htold
    exact h.2.1.steps h.1 hsteps hhosts hsound h.2.2 htold
  breaks := by
    intro now station stay port other after log _ _ _ h hsteps huntold
    obtain ⟨-, hlog⟩ := hsteps.of_untold huntold
    refine h.1.addAll now ?_
    rcases hlog with hnothing | ⟨address, haddress⟩
    · simp [hnothing]
    · simp [haddress, Happening.kind]
  misses := fun _ h => h.1
  sofar_behind := fun h => h.1
  sofar_whole := id

namespace Simulation

theorem mem_eventsAt {sim : Simulation} {name : String} {event : Event} :
    event ∈ sim.eventsAt name ↔
      event ∈ sim.buffer.toList ∧ event.happening.station? = some name := by
  simp [eventsAt]

theorem fill_waited (config : Config) (preload : List (Int × Int))
    (actions : List Action) {fill : Nat} {name : String} {address : Int}
    (hfill : ⟨fill, .filled name address⟩ ∈
      (left ((fresh config preload).attempt actions)).buffer.toList) :
    ∃ miss, ⟨miss, .missed name address (config.value .cacheMissPenalty)⟩ ∈
        (left ((fresh config preload).attempt actions)).buffer.toList ∧
      fill = miss + (config.value .cacheMissPenalty - 1) := by
  have hkept := (upkeep_isWaited config name).kept_watch preload actions
  have hevents := hkept.events_eq
  rw [((fresh config preload).watch_attempt name actions).1] at hevents
  have hmem := mem_eventsAt.mpr ⟨hfill, rfl⟩
  rw [← hevents, Diary.events, List.mem_flatMap] at hmem
  obtain ⟨stay, hstay, htold⟩ := hmem
  have hstay' := List.mem_reverse.mp hstay
  obtain ⟨miss, hmiss, hlast⟩ := hkept.closed.2 stay hstay' fill address htold
  have hmissed := List.mem_flatMap.mpr ⟨stay, hstay, hmiss⟩
  rw [← Diary.events, hevents] at hmissed
  exact ⟨miss, (mem_eventsAt.mp hmissed).1, hlast⟩

/-- **There are no false hits.**  A machine whose misses have a penalty may be
loaded with programs, run, and have its registers and memory written to, in any
order, up to the first cycle that is broken off.  Then every hit was told behind
a fill of the same block, and every line that holds a block holds one of which a
fill was told.  And every fill was told when the access had waited out the
penalty, of which the cycle of its miss is the first. -/
theorem hit_follows_fill (config : Config) (preload : List (Int × Int))
    (actions : List Action) (hpenalty : 0 < config.value .cacheMissPenalty)
    (hfills : ∀ address, .fillBlock address ∉ actions) :
    let sim := left ((fresh config preload).attempt actions)
    let blockOf := (Geometry.ofConfig config).blockOf
    (∀ front name address back,
      sim.happenings = front ++ .hit name address :: back →
      ∃ other filled, .filled other filled ∈ front ∧
        blockOf filled = blockOf address) ∧
    (∀ block, some block ∈ sim.machine.cache.lines.toList →
      ∃ name address, .filled name address ∈ sim.happenings ∧
        blockOf address = block) ∧
    ∀ fill name address, ⟨fill, .filled name address⟩ ∈ sim.buffer.toList →
      ∃ miss, ⟨miss, .missed name address (config.value .cacheMissPenalty)⟩ ∈
          sim.buffer.toList ∧
        fill = miss + (config.value .cacheMissPenalty - 1) := by
  intro sim blockOf
  have hbacks := backs_attempt config preload actions hpenalty hfills
  exact ⟨hbacks.hits, hbacks.lines,
    fun fill name address hfill => fill_waited config preload actions hfill⟩

/-- A word is loaded, and then another one of its block, which is hit. -/
theorem hit_follows_fill_neighbour :
    let read (address : Int) : Action := .load
      [{ opcode := .lw, dest := "F1", src1 := "R0", immediate := some address }]
    let actions := read 8 :: List.replicate 60 .cycle ++
      read 12 :: List.replicate 4 .cycle
    let sim := left ((fresh .standard []).attempt actions)
    (.hit "Load0" 12) ∈ sim.happenings ∧
      ∃ name address, .filled name address ∈ sim.happenings ∧
        (Geometry.ofConfig .standard).blockOf address =
          (Geometry.ofConfig .standard).blockOf 12 := by
  intro read actions sim
  have hhit : (.hit "Load0" 12) ∈ sim.happenings := by decide +kernel
  have hnone : ∀ address, .fillBlock address ∉ actions := by
    simp [actions, read]
  obtain ⟨hhits, -, -⟩ := hit_follows_fill .standard [] actions (by decide) hnone
  obtain ⟨front, back, hsplit⟩ := List.append_of_mem hhit
  obtain ⟨name, address, hfilled, hblock⟩ := hhits front _ _ back hsplit
  refine ⟨hhit, name, address, ?_, hblock⟩
  rw [hsplit]
  exact List.mem_append_left _ hfilled

end Simulation

end OutOfOrder
