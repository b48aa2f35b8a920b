import OutOfOrder.Proofs.Phases

/-!
# The stages of a station's work

What a step of a station can do is said here once.  A station that is at work
first finds its address, if it has one to find; then it starts, when its
operands are there; and from then on it counts a cycle down in every step.
Arithmetic counts its latency.  An access counts the cycles until its block is
there, and then those at the port, whenever the port is open to it.

At the port the cache's counter runs down before that of the instruction, so
what is left there is the sum of the two.
-/

namespace OutOfOrder

theorem countDown_of_nonneg {counter : Int} (h : 0 ≤ counter) :
    countDown counter = max 0 (counter - 1) := by
  unfold countDown
  split <;> omega

namespace Station

/-! ## The parts of a step -/

/-- A station that has its base and not yet its address finds it. -/
inductive Finds (station : Station) (ins : Instruction) :
    Station → List Happening → Prop where
  | nothing (h : ins.opcode.isMemory = true →
      station.addressReady = true ∨ station.j.isReady = false) :
      Finds station ins station []
  | address (hmemory : ins.opcode.isMemory = true)
      (hfresh : station.addressReady = false)
      (hbase : station.j.isReady = true) :
      Finds station ins
        { station with
          address := station.j.value + ins.constant
          addressReady := true }
        [.addressed station.name (station.j.value + ins.constant)]

/-- A station starts.  An access has its block at once, or has to wait for it. -/
inductive Starts (station : Station) (ins : Instruction) (geometry : Geometry) :
    Station → List Happening → Prop where
  | computing (hmemory : ins.opcode.isMemory = false) :
      Starts station ins geometry
        { station with executing := true }
        [.started station.name ins]
  | resident {way : Happening} (hmemory : ins.opcode.isMemory = true)
      (haddress : station.addressReady = true)
      (hway : way = .hit station.name station.address ∨
        geometry.missPenalty = 0 ∧
          way = .missed station.name station.address 0) :
      Starts station ins geometry
        { station with
          executing := true
          cacheRemaining := geometry.hitLatency
          blockResident := true }
        [way, .started station.name ins]
  | missing (hmemory : ins.opcode.isMemory = true)
      (haddress : station.addressReady = true)
      (hpenalty : 0 < geometry.missPenalty) :
      Starts station ins geometry
        { station with
          executing := true
          cacheRemaining := geometry.missPenalty
          blockResident := false }
        [.missed station.name station.address geometry.missPenalty,
          .started station.name ins]

/-- A station that has started counts a cycle, and uses the port in it if it is
at the port and the port is open. -/
inductive Counts (station : Station) (ins : Instruction) (port : Port) :
    Station → Port → List Happening → Prop where
  | computes (hmemory : ins.opcode.isMemory = false)
      (hmore : 1 < station.remaining) :
      Counts station ins port
        { station with remaining := station.remaining - 1 } port []
  | computed (hmemory : ins.opcode.isMemory = false)
      (hlast : station.remaining ≤ 1) :
      Counts station ins port
        { station with remaining := 0, resultPending := true } port
        [.finished station.name ins]
  | awaits (hmemory : ins.opcode.isMemory = true)
      (hmissing : station.blockResident = false)
      (hmore : 1 < station.cacheRemaining) :
      Counts station ins port
        { station with cacheRemaining := station.cacheRemaining - 1 } port []
  | filled (hmemory : ins.opcode.isMemory = true)
      (hmissing : station.blockResident = false)
      (hlast : station.cacheRemaining ≤ 1) :
      Counts station ins port
        { station with cacheRemaining := 0, blockResident := true } port
        [.filled station.name station.address]
  | stands (hmemory : ins.opcode.isMemory = true)
      (hresident : station.blockResident = true)
      (hclosed : port.isOpenTo station.name = false) :
      Counts station ins port station port []
  | uses {cacheRemaining remaining : Int}
      (hmemory : ins.opcode.isMemory = true)
      (hresident : station.blockResident = true)
      (hopen : port.isOpenTo station.name = true)
      (hcache : 0 ≤ cacheRemaining) (hremaining : 0 ≤ remaining)
      (hmore : 0 < cacheRemaining + remaining)
      (hleft : cacheRemaining + remaining + 1 =
        station.cacheRemaining + station.remaining) :
      Counts station ins port
        { station with
          cacheRemaining
          remaining
          portCycles := station.portCycles + 1 }
        ⟨some station.name, true⟩ []
  | finishes (hmemory : ins.opcode.isMemory = true)
      (hresident : station.blockResident = true)
      (hopen : port.isOpenTo station.name = true)
      (hlast : station.cacheRemaining + station.remaining ≤ 1) :
      Counts station ins port
        { station with
          cacheRemaining := 0
          remaining := 0
          portCycles := station.portCycles + 1
          resultPending := true }
        ⟨none, true⟩ [.finished station.name ins]

/-- What a step can do to a station and to the port, and what it tells.  Where
something cannot be told the step is broken off. -/
inductive Steps (station : Station) (port : Port) (geometry : Geometry) :
    Station → Port → List Happening → Prop where
  | rests (hrests : station.rests = true) :
      Steps station port geometry station port []
  | waits {ins : Instruction} {found : Station} {log : List Happening}
      (hrests : station.rests = false)
      (hins : station.instruction? = some ins)
      (hidle : station.executing = false)
      (hfinds : station.Finds ins found log)
      (hlacks : isTold log = true → station.operandsReady = false) :
      Steps station port geometry found port log
  | breaks {ins : Instruction} {found began : Station}
      {log log' : List Happening} (hrests : station.rests = false)
      (hins : station.instruction? = some ins)
      (hidle : station.executing = false)
      (hready : station.operandsReady = true)
      (hfinds : station.Finds ins found log)
      (hstarts : found.Starts ins geometry began log')
      (htold : isTold log = true) (huntold : isTold log' = false) :
      Steps station port geometry began port (log ++ log')
  | begins {ins : Instruction} {found began other : Station} {port' : Port}
      {log log' log'' : List Happening} (hrests : station.rests = false)
      (hins : station.instruction? = some ins)
      (hidle : station.executing = false)
      (hready : station.operandsReady = true)
      (hfinds : station.Finds ins found log)
      (hstarts : found.Starts ins geometry began log')
      (htold : isTold (log ++ log') = true)
      (hcounts : began.Counts ins port other port' log'') :
      Steps station port geometry other port' (log ++ log' ++ log'')
  | goesOn {ins : Instruction} {other : Station} {port' : Port}
      {log : List Happening} (hrests : station.rests = false)
      (hins : station.instruction? = some ins)
      (hexecuting : station.executing = true)
      (hcounts : station.Counts ins port other port' log) :
      Steps station port geometry other port' log

variable {station found : Station} {ins : Instruction} {port : Port}
  {cache : Cache} {log : List Happening}

theorem SameWork.operandsReady_eq {other : Station}
    (h : station.SameWork other) :
    other.operandsReady = station.operandsReady := by
  rw [operandsReady, operandsReady, h.j, h.k]

theorem rests_eq_false_iff :
    station.rests = false ↔
      station.busy = true ∧ station.justTransitioned = false ∧
        station.resultPending = false := by
  simp [rests, and_assoc]

/-! ## Counting -/

theorem counts_compute (hmemory : ins.opcode.isMemory = false)
    (hexecuting : station.executing = true)
    (hnonneg : 0 ≤ station.remaining) :
    station.Counts ins port (station.compute ins).1 port
      (station.compute ins).2 := by
  have hcount := countDown_of_nonneg hnonneg
  have hgoes : (!station.executing && !station.operandsReady) = false := by
    simp [hexecuting]
  unfold compute
  rw [hgoes, if_neg Bool.false_ne_true, if_pos hexecuting]
  dsimp only
  split
  · next hzero =>
      have hcounts : station.Counts ins port _ port _ :=
        .computed hmemory (by omega)
      simpa only [hzero, hexecuting, List.nil_append] using hcounts
  · next hmore =>
      have hless : countDown station.remaining = station.remaining - 1 := by
        omega
      have hcounts : station.Counts ins port _ port _ :=
        .computes hmemory (by omega)
      simpa only [hless, hexecuting] using hcounts

theorem counts_awaitBlock (hmemory : ins.opcode.isMemory = true)
    (hmissing : station.blockResident = false)
    (hnonneg : 0 ≤ station.cacheRemaining) :
    station.Counts ins port (station.awaitBlock cache).1 port
      (station.awaitBlock cache).2.2 := by
  have hcount := countDown_of_nonneg hnonneg
  unfold awaitBlock
  dsimp only
  split
  · next hzero =>
      rw [hzero]
      exact .filled hmemory hmissing (by omega)
  · next hmore =>
      have hless : countDown station.cacheRemaining =
          station.cacheRemaining - 1 := by
        omega
      rw [hless]
      exact .awaits hmemory hmissing (by omega)

theorem counts_usePort (hmemory : ins.opcode.isMemory = true)
    (hresident : station.blockResident = true)
    (hcache : 0 ≤ station.cacheRemaining)
    (hremaining : 0 ≤ station.remaining) :
    station.Counts ins port (station.usePort ins port).1
      (station.usePort ins port).2.1 (station.usePort ins port).2.2 := by
  have hcount := countDown_of_nonneg hcache
  have hcount' := countDown_of_nonneg hremaining
  -- the instruction's own counter stands still until the cache's has run out
  have hown : ∃ remaining, (if 0 < station.cacheRemaining
      then station.remaining else countDown station.remaining) = remaining ∧
      0 ≤ remaining ∧ countDown station.cacheRemaining + remaining =
        max 0 (station.cacheRemaining + station.remaining - 1) := by
    refine ⟨_, rfl, ?_⟩
    split <;> omega
  obtain ⟨remaining, hown, hnonneg, hsum⟩ := hown
  unfold usePort
  dsimp only
  rw [hown]
  split
  · next hclosed =>
      exact .stands hmemory hresident (by simpa using hclosed)
  · next hopen =>
      have hopen' : port.isOpenTo station.name = true := by simpa using hopen
      split
      · next hlast =>
          rw [hlast.1, hlast.2]
          exact .finishes hmemory hresident hopen' (by omega)
      · exact .uses hmemory hresident hopen' (by omega) hnonneg (by omega)
          (by omega)

theorem counts_continueAccess (hmemory : ins.opcode.isMemory = true)
    (hcache : 0 ≤ station.cacheRemaining)
    (hremaining : 0 ≤ station.remaining) :
    station.Counts ins port (station.continueAccess ins port cache).station
      (station.continueAccess ins port cache).port
      (station.continueAccess ins port cache).log := by
  unfold continueAccess
  split
  · next hresident =>
      exact counts_usePort hmemory hresident hcache hremaining
  · next hmissing =>
      exact counts_awaitBlock hmemory (by simpa using hmissing) hcache

/-! ## Starting -/

theorem starts_startAccess (hmemory : ins.opcode.isMemory = true)
    (haddress : station.addressReady = true) :
    station.Starts ins cache.geometry (station.startAccess ins cache).1
      (station.startAccess ins cache).2.2 := by
  unfold startAccess Cache.probe
  cases cache.isResident station.address with
  | true => exact .resident hmemory haddress (.inl rfl)
  | false =>
      dsimp only
      rw [if_neg Bool.false_ne_true]
      split
      · next hpenalty =>
          rw [if_neg Bool.false_ne_true, hpenalty]
          exact .resident hmemory haddress (.inr ⟨hpenalty, rfl⟩)
      · next hpenalty =>
          exact .missing hmemory haddress (Nat.pos_of_ne_zero hpenalty)

theorem finds_findAddress (hmemory : ins.opcode.isMemory = true) :
    station.Finds ins (station.findAddress ins).1
      (station.findAddress ins).2 := by
  unfold findAddress
  split
  · next hstays => exact .nothing fun _ => by simpa using hstays
  · next hgoes =>
      have hboth : station.addressReady = false ∧ station.j.isReady = true := by
        simpa using hgoes
      exact .address hmemory hboth.1 hboth.2

theorem Starts.counters_nonneg {geometry : Geometry} {began : Station}
    (h : station.Starts ins geometry began log)
    (hprogress : station.Progress ins) :
    0 ≤ began.cacheRemaining ∧ 0 ≤ began.remaining := by
  cases h with
  | computing => exact ⟨hprogress.cacheRemaining, hprogress.remaining⟩
  | resident | missing => exact ⟨Int.natCast_nonneg _, hprogress.remaining⟩

theorem Finds.executing_eq (h : station.Finds ins found log) :
    found.executing = station.executing := by
  cases h <;> rfl

/-- An access that has not begun may begin when its operands are there. -/
theorem Finds.mayAccess_eq (h : station.Finds ins found log)
    (hmemory : ins.opcode.isMemory = true)
    (hidle : station.executing = false)
    (haddressed : station.addressReady = true → station.j.isReady = true)
    (hload : ins.opcode.isLoad = true → station.k = .absent) :
    found.mayAccess ins = station.operandsReady := by
  have hsecond : (!ins.opcode.isStore || station.k.isReady) =
      station.k.isReady := by
    cases hstore : ins.opcode.isStore with
    | true => rfl
    | false =>
        have hloads : ins.opcode.isLoad = true := by
          simpa [Opcode.isMemory, hstore] using hmemory
        rw [hload hloads]
        rfl
  cases h with
  | nothing hnothing =>
      have hfirst : station.addressReady = station.j.isReady := by
        rcases hnothing hmemory with hready | hpending
        · rw [hready, haddressed hready]
        · cases hready : station.addressReady with
          | false => exact hpending.symm
          | true => exact (haddressed hready).symm
      rw [mayAccess, hidle, Bool.false_or, hsecond, hfirst, operandsReady]
  | address _ _ hbase =>
      have hmay : mayAccess { station with
          address := station.j.value + ins.constant
          addressReady := true } ins =
          (station.executing || !ins.opcode.isStore || station.k.isReady) :=
        rfl
      rw [hmay, hidle, Bool.false_or, hsecond, operandsReady, hbase,
        Bool.true_and]

/-! ## Steps -/

/-- A load has no second operand. -/
def LoadsAlone (station : Station) : Prop :=
  ∀ ins, station.instruction? = some ins → ins.opcode.isLoad = true →
    station.k = .absent

theorem steps_compute (hrests : station.rests = false)
    (hins : station.instruction? = some ins)
    (hmemory : ins.opcode.isMemory = false)
    (hnonneg : 0 ≤ station.remaining) (geometry : Geometry) :
    station.Steps port geometry (station.compute ins).1 port
      (station.compute ins).2 := by
  have hnothing : station.Finds ins station [] :=
    .nothing fun h => by simp [hmemory] at h
  cases hexecuting : station.executing with
  | true =>
      exact .goesOn hrests hins hexecuting
        (counts_compute hmemory hexecuting hnonneg)
  | false =>
      cases hready : station.operandsReady with
      | false =>
          have hwaits : station.compute ins = (station, []) := by
            simp [compute, hexecuting, hready]
          rw [hwaits]
          exact .waits hrests hins hexecuting hnothing fun _ => hready
      | true =>
          -- the first step is a step of the station as it is when it has started
          let began : Station := { station with executing := true }
          have hbegan : station.compute ins =
              ((began.compute ins).1,
                .started station.name ins :: (began.compute ins).2) := by
            unfold compute
            simp only [hexecuting, hready, began, Bool.not_true, Bool.not_false,
              Bool.and_false, Bool.false_and, Bool.false_eq_true, if_false,
              if_true]
            split <;> rfl
          rw [hbegan]
          exact .begins hrests hins hexecuting hready hnothing
            (.computing hmemory) rfl (counts_compute hmemory rfl hnonneg)

theorem steps_access (hrests : station.rests = false)
    (hins : station.instruction? = some ins)
    (hmemory : ins.opcode.isMemory = true) (hprogress : station.Progress ins)
    (hload : station.LoadsAlone) :
    station.Steps port cache.geometry (station.access ins port cache).station
      (station.access ins port cache).port
      (station.access ins port cache).log := by
  have hfinds : station.Finds ins (station.findAddress ins).1
      (station.findAddress ins).2 := finds_findAddress hmemory
  have hfound := hprogress.findAddress
  have hexecuting := hfinds.executing_eq
  have hmay := fun hidle => hfinds.mayAccess_eq hmemory hidle
    (fun h => (hprogress.addressed h).1) (hload ins hins)
  unfold access
  generalize station.findAddress ins = result at hfinds hfound hexecuting hmay ⊢
  obtain ⟨found, log⟩ := result
  dsimp only at hfinds hfound hexecuting hmay ⊢
  cases hidle : station.executing with
  | true =>
      have haddress := (hprogress.accessing hmemory hidle).1
      cases hfinds with
      | address _ hfresh =>
          rw [haddress] at hfresh
          nomatch hfresh
      | nothing =>
          have hgoes : station.mayAccess ins = true := by
            simp [mayAccess, haddress, hidle]
          simp only [hgoes, hidle, isTold, List.all_nil, Bool.not_true,
            Bool.or_self, Bool.false_eq_true, if_false, if_true,
            List.append_nil, List.nil_append]
          exact .goesOn hrests hins hidle (counts_continueAccess hmemory
            hprogress.cacheRemaining hprogress.remaining)
  | false =>
      rw [hexecuting, hidle, if_neg Bool.false_ne_true]
      split
      · next hstops =>
          refine .waits hrests hins hidle hfinds fun htold => ?_
          rw [← hmay hidle]
          simpa [htold] using hstops
      · next hgoes =>
          have hready : station.operandsReady = true := by
            rw [← hmay hidle]
            simp only [Bool.or_eq_true, Bool.not_eq_true', not_or] at hgoes
            simpa using hgoes.2
          have haddress : found.addressReady = true := by
            have hopen := (hmay hidle).trans hready
            simp only [mayAccess, Bool.and_eq_true] at hopen
            exact hopen.1
          have hstarts : found.Starts ins cache.geometry
              (found.startAccess ins cache).1
              (found.startAccess ins cache).2.2 :=
            starts_startAccess hmemory haddress
          have hlog : isTold log = true := by
            simp only [Bool.or_eq_true, Bool.not_eq_true', not_or] at hgoes
            simpa using hgoes.1
          split
          · next huntold =>
              exact .breaks hrests hins hidle hready hfinds hstarts hlog
                (by simpa using huntold)
          · next htold =>
            have hboth : isTold (log ++ (found.startAccess ins cache).2.2) =
                true := by
              have hstarted : isTold (found.startAccess ins cache).2.2 = true := by
                simpa using htold
              rw [isTold, List.all_append, ← isTold, ← isTold, hlog, hstarted]
              rfl
            refine .begins hrests hins hidle hready hfinds hstarts hboth
              (counts_continueAccess hmemory ?_ ?_)
            · exact (hstarts.counters_nonneg hfound).1
            · exact (hstarts.counters_nonneg hfound).2

theorem steps_execute (hsound : station.Sound) (hload : station.LoadsAlone)
    (port : Port) (cache : Cache) :
    station.Steps port cache.geometry (station.execute port cache).station
      (station.execute port cache).port (station.execute port cache).log := by
  unfold execute
  split
  · next hrests => exact .rests hrests
  · next hrests =>
      have hawake : station.rests = false := by simpa using hrests
      obtain ⟨ins, hins, hprogress⟩ :=
        hsound.working (rests_eq_false_iff.mp hawake).1
      rw [hins]
      dsimp only
      split
      · next hmemory => exact steps_access hawake hins hmemory hprogress hload
      · next hmemory =>
          exact steps_compute hawake hins (by simpa using hmemory)
            hprogress.remaining cache.geometry

/-! ## Steps that are broken off -/

theorem takeWhile_eq_nil_of_untold {happening : Happening}
    {rest : List Happening} (h : happening.isTellable = false) :
    (happening :: rest).takeWhile Happening.isTellable = [] :=
  List.takeWhile_cons_of_neg (by simp [h])

theorem isTellable_of_untold {happening : Happening}
    (h : isTold [happening] = false) : happening.isTellable = false := by
  simpa [isTold] using h

theorem isTellable_filled {name : String} {address : Int} {penalty : Nat}
    (h : (Happening.missed name address penalty).isTellable = true) :
    (Happening.filled name address).isTellable = true := by
  have hboth : Numeral.isWritable address = true ∧
      Numeral.isWritable penalty = true := by
    simpa [Happening.isTellable, Happening.obstacle?, Happening.numbers] using h
  simp [Happening.isTellable, Happening.obstacle?, Happening.numbers, hboth.1]

theorem Finds.told_prefix (h : station.Finds ins found log) :
    log.takeWhile Happening.isTellable = [] ∨
      ∃ address, log.takeWhile Happening.isTellable =
        [.addressed station.name address] := by
  cases h with
  | nothing => exact .inl rfl
  | address =>
      generalize station.j.value + ins.constant = address
      cases htold : (Happening.addressed station.name address).isTellable with
      | false => exact .inl (takeWhile_eq_nil_of_untold htold)
      | true => exact .inr ⟨address, List.takeWhile_cons_of_pos htold⟩

/-- What cannot be told of a start is how the access found its block. -/
theorem Starts.told_prefix {geometry : Geometry} {began : Station}
    (h : station.Starts ins geometry began log) (huntold : isTold log = false) :
    log.takeWhile Happening.isTellable = [] := by
  have hsecond : ∀ {way : Happening} {name : String},
      isTold [way, .started name ins] = false →
      [way, .started name ins].takeWhile Happening.isTellable = [] := by
    intro way name huntold
    apply takeWhile_eq_nil_of_untold
    have hstarted : (Happening.started name ins).isTellable = true := rfl
    simpa [isTold, hstarted] using huntold
  cases h with
  | computing => contradiction
  | resident | missing => exact hsecond huntold

/-- Of a step that is broken off it is told at most that the address is there,
and the port has not been used in it. -/
theorem Steps.of_untold {geometry : Geometry} {other : Station} {after : Port}
    (h : station.Steps port geometry other after log)
    (huntold : isTold log = false) :
    other.portCycles = station.portCycles ∧
      (log.takeWhile Happening.isTellable = [] ∨
        ∃ address, log.takeWhile Happening.isTellable =
          [.addressed station.name address]) := by
  have hfoundCycles : ∀ {ins found log}, station.Finds ins found log →
      found.portCycles = station.portCycles := by
    intro ins found log hfinds
    cases hfinds <;> rfl
  cases h with
  | rests => contradiction
  | waits _ _ _ hfinds => exact ⟨hfoundCycles hfinds, hfinds.told_prefix⟩
  | @breaks ins found _ log _ _ _ _ _ hfinds hstarts htold hbroken =>
      refine ⟨?_, ?_⟩
      · refine Eq.trans ?_ (hfoundCycles hfinds)
        cases hstarts <;> rfl
      · rw [takeWhile_isTellable_append htold, hstarts.told_prefix hbroken,
          List.append_nil]
        have hlog := hfinds.told_prefix
        rw [takeWhile_isTellable_of_isTold htold] at hlog
        exact hlog
  | @begins ins found began _ _ log log' log'' _ _ _ _ hfinds hstarts htold
      hcounts =>
      -- who could tell of its miss can tell of the fill
      have hlast : isTold log'' = true := by
        cases hcounts with
        | computes | awaits | stands | uses => rfl
        | computed | finishes => rfl
        | filled hmemory hmissing =>
            cases hstarts with
            | computing harithmetic =>
                rw [hmemory] at harithmetic
                contradiction
            | resident => contradiction
            | missing =>
                simp only [isTold, List.all_append, List.all_cons,
                  Bool.and_eq_true] at htold
                rw [isTold, List.all_cons, List.all_nil, Bool.and_true]
                exact isTellable_filled htold.2.1
      rw [isTold, List.all_append, ← isTold, ← isTold, htold, hlast] at huntold
      contradiction
  | goesOn _ _ _ hcounts =>
      cases hcounts with
      | computes | awaits | stands | uses => contradiction
      | computed | finishes => contradiction
      | filled =>
          exact ⟨rfl, .inl (takeWhile_eq_nil_of_untold
            (isTellable_of_untold huntold))⟩

end Station

end OutOfOrder
