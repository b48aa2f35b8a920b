import Mathlib.Data.List.Find
import OutOfOrder.Proofs.Attempt
import OutOfOrder.Proofs.Breakdown
import OutOfOrder.Proofs.IssueOrder
import OutOfOrder.Proofs.Lifecycle
import OutOfOrder.Proofs.Telling

/-!
# Who has the bus

A station waits for the result bus from its finish to its write-back, and what was
told of it says whether it does: the last of the two that was told was a finish.
In every cycle in which a station waits, one is written back, and it is the first
of those that wait, pool after pool and by their numbers.  The station is free
then, and all others that wait are left alone by the write-back and by the issue
that follows.

A write-back that cannot be told is that of a branch with a destination too far
away, of which it is told that it had the bus.
-/

namespace OutOfOrder

/-! ## What is told of waiting -/

/-- Whether a station waits for the bus after one more thing was told: a finish
begins the wait and a write-back ends it. -/
def Happening.awaiting (name : String) (awaits : Bool)
    (happening : Happening) : Bool :=
  if happening.station? = some name then
    match happening.kind with
    | .execFinish => true
    | .writeback => false
    | _ => awaits
  else awaits

/-- Of the finishes and write-backs that were told of a station, the last one was
a finish. -/
def awaitsBus (log : List Happening) (name : String) : Bool :=
  log.foldl (Happening.awaiting name) false

def writtenBack (log : List Happening) : List (Option String) :=
  (log.filter (·.kind = .writeback)).map (·.station?)

def Config.stationNames (config : Config) : List String :=
  [Pool.add, .mul, .int, .loadStore].flatMap fun pool =>
    (List.range (config.value pool.size)).map pool.slotName

section Awaiting

variable {name : String} {awaits : Bool} {log rest : List Happening}
  {config : Config} {ins : Instruction} {first second : Operand}
  {address : Int} {station : Station} {now : Nat}

/-- Nothing in the log begins or ends a wait. -/
def KeepsWaiting (log : List Happening) : Prop :=
  ∀ happening ∈ log,
    happening.kind ≠ .execFinish ∧ happening.kind ≠ .writeback

theorem KeepsWaiting.foldl_eq (h : KeepsWaiting log) :
    log.foldl (Happening.awaiting name) awaits = awaits := by
  induction log with
  | nil => rfl
  | cons happening rest ih =>
      obtain ⟨⟨hfinish, hwriteback⟩, hrest⟩ := List.forall_mem_cons.mp h
      have hsame : happening.awaiting name awaits = awaits := by
        unfold Happening.awaiting
        split
        · split
          · contradiction
          · contradiction
          · rfl
        · rfl
      rw [List.foldl_cons, hsame]
      exact ih hrest

theorem awaitsBus_filter (log : List Happening) (name : String) :
    awaitsBus (log.filter (·.station? = some name)) name =
      awaitsBus log name := by
  rw [awaitsBus, awaitsBus, List.foldl_filter]
  refine List.foldl_ext _ _ _ fun awaits happening _ => ?_
  by_cases hname : happening.station? = some name
  · simp [hname]
  · simp [hname, Happening.awaiting]

/-! ## Waiting in the life of an instruction -/

theorem keepsWaiting_receipts {producers : List String}
    (h : Receipts name producers log) : KeepsWaiting log := by
  unfold Receipts at h
  induction h with
  | nil => exact fun _ hmem => nomatch hmem
  | cons hreceived _ ih =>
      obtain ⟨value, rfl⟩ := hreceived
      exact List.forall_mem_cons.mpr ⟨by simp [Happening.kind], ih⟩

theorem keepsWaiting_arrived {arrived : List Happening}
    (hreceipts : KeepsWaiting log) (h : KeepsWaiting rest)
    (harrived : arrived =
      .issued name ins :: log ++ .addressed name address :: rest) :
    KeepsWaiting arrived := by
  rw [harrived]
  refine List.forall_mem_append.mpr ⟨?_, ?_⟩
  · exact List.forall_mem_cons.mpr ⟨by simp [Happening.kind], hreceipts⟩
  · exact List.forall_mem_cons.mpr ⟨by simp [Happening.kind], h⟩

theorem Arrives.keepsWaiting
    (h : Arrives name ins first second address log) : KeepsWaiting log := by
  cases h with
  | computing _ hreceipts =>
      exact List.forall_mem_cons.mpr
        ⟨by simp [Happening.kind], keepsWaiting_receipts hreceipts⟩
  | accessing _ hearly hlate =>
      exact keepsWaiting_arrived (keepsWaiting_receipts hearly)
        (keepsWaiting_receipts hlate) rfl

theorem Executes.foldl_eq (h : Executes config name ins address log) :
    log.foldl (Happening.awaiting name) awaits = true := by
  cases h <;> simp [Happening.awaiting, Happening.station?, Happening.kind]

/-- Before its finish an instruction does not wait for the bus. -/
theorem Executes.keepsWaiting
    (h : Executes config name ins address (log ++ [.finished name ins])) :
    KeepsWaiting log := by
  generalize hlog : log ++ [.finished name ins] = whole at h
  have hfront := congrArg List.dropLast hlog
  rw [List.dropLast_concat] at hfront
  rw [hfront]
  cases h <;> simp [KeepsWaiting, Happening.kind]

theorem foldl_ends (h : Station.Ends name ins address log) :
    log.foldl (Happening.awaiting name) awaits = false := by
  cases h with
  | branched _ hway =>
      cases hway <;>
        simp [Happening.awaiting, Happening.station?, Happening.kind]
  | stored | loaded | computed =>
      simp [Happening.awaiting, Happening.station?, Happening.kind]

/-- An instruction that was written back does not wait. -/
theorem IsWhole.foldl_eq (h : IsWhole config name ins first second log) :
    log.foldl (Happening.awaiting name) awaits = false := by
  obtain ⟨address, arrival, execution, ending, -, -, hends, rfl⟩ := h
  rw [List.foldl_append]
  exact foldl_ends hends

/-- An instruction at work waits exactly if its result does. -/
theorem Tells.foldl_eq (h : Tells config name ins first second station log) :
    log.foldl (Happening.awaiting name) false = station.resultPending := by
  cases h with
  | waiting _ hpending _ hreceipts _ _ htold =>
      have hquiet : KeepsWaiting log := by
        rw [htold]
        exact List.forall_mem_cons.mpr
          ⟨by simp [Happening.kind], keepsWaiting_receipts hreceipts⟩
      rw [hquiet.foldl_eq, hpending]
  | addressed _ _ hpending _ hearly hlate _ _ _ htold =>
      have hquiet := keepsWaiting_arrived (keepsWaiting_receipts hearly)
        (keepsWaiting_receipts hlate) htold
      rw [hquiet.foldl_eq, hpending]
  | fetching _ _ hpending _ _ harrives htold =>
      rw [htold, List.foldl_append, harrives.keepsWaiting.foldl_eq, hpending]
      simp [Happening.awaiting, Happening.kind]
  | running _ hpending _ harrives hexecutes htold =>
      rw [htold, List.foldl_append, harrives.keepsWaiting.foldl_eq,
        hexecutes.keepsWaiting.foldl_eq, hpending]
  | finished _ hpending _ hexecutes htold =>
      rw [htold, List.foldl_append, hexecutes.foldl_eq, hpending]

/-- The diary of a station says whether it asks for the bus. -/
theorem Diary.Fits.awaitsBus_eq {diary : Diary}
    (h : diary.Fits name (Stay.IsTold config name now)
      (Stay.IsWhole config name) station) :
    awaitsBus (diary.events.map (·.happening)) name = station.asksForBus := by
  have hpast : ∀ past : Diary, (∀ stay ∈ past, stay.IsWhole config name) →
      awaitsBus (past.events.map (·.happening)) name = false := by
    intro past hwhole
    cases past with
    | nil => rfl
    | cons stay past =>
        rw [events_cons, List.map_append, awaitsBus, List.foldl_append]
        exact IsWhole.foldl_eq (hwhole stay List.mem_cons_self)
  cases h with
  | free hfree hwhole => rw [hpast diary hwhole, Station.asksForBus, hfree]; rfl
  | @occupied stay past hhosts htells hwhole =>
      rw [events_cons, List.map_append, awaitsBus, List.foldl_append,
        ← awaitsBus, hpast past hwhole, Station.asksForBus, hhosts.busy,
        Bool.true_and]
      exact Tells.foldl_eq htells

/-- Of an access that asks for the bus the address was told. -/
theorem Diary.Fits.mem_addressed {diary : Diary}
    (h : diary.Fits name (Stay.IsTold config name now)
      (Stay.IsWhole config name) station)
    (hasks : station.asksForBus = true)
    (hins : station.instruction? = some ins)
    (hmemory : ins.opcode.isMemory = true) :
    .addressed name station.address ∈ diary.events.map (·.happening) := by
  obtain ⟨hbusy, hpending⟩ : station.busy = true ∧
      station.resultPending = true := by
    simpa [Station.asksForBus] using hasks
  cases h with
  | free hfree =>
      rw [hbusy] at hfree
      contradiction
  | @occupied stay past hhosts htells =>
      cases hins.symm.trans hhosts.instruction
      rw [events_cons, List.map_append]
      refine List.mem_append_right _ ?_
      cases htells with
      | waiting _ hnot | addressed _ _ hnot | fetching _ _ hnot
      | running _ hnot =>
          rw [hpending] at hnot
          contradiction
      | finished _ _ harrives _ htold =>
          show _ ∈ stay.log
          rw [htold]
          refine List.mem_append_left _ ?_
          cases harrives with
          | computing harithmetic =>
              rw [hmemory] at harithmetic
              contradiction
          | accessing => simp

end Awaiting

namespace Machine

variable {config : Config} {m m' : Machine} {log : List Happening}
  {name : String} {station granted : Station}

/-! ## The order of the stations -/

theorem Placed.map_name (h : Placed config m) :
    m.bank.map Station.name = config.stationNames := by
  have hnames := congrArg (List.map Prod.fst) h.places_eq
  rw [List.map_map] at hnames
  refine Eq.trans hnames ?_
  rw [places, Config.stationNames, List.map_flatMap]
  simp only [List.map_map]
  rfl

/-! ## A write-back -/

theorem writtenBack_append (log rest : List Happening) :
    writtenBack (log ++ rest) = writtenBack log ++ writtenBack rest := by
  rw [writtenBack, List.filter_append, List.map_append]
  rfl

theorem writtenBack_eq_nil
    (h : ∀ happening ∈ log, happening.kind ≠ .writeback) :
    writtenBack log = [] := by
  have hnone : log.filter (·.kind = .writeback) = [] := by
    simpa [List.filter_eq_nil_iff] using h
  rw [writtenBack, hnone]
  rfl

/-- A branch that cannot tell where it goes was told to have the bus. -/
theorem writtenBack_branch {ins : Instruction} (hform : ins.opcode.form = .branch)
    (huntold : isTold (m.settle station ins).2 = false) :
    writtenBack ((m.settle station ins).2.takeWhile Happening.isTellable) =
      [some station.name] := by
  obtain ⟨way, hlog, -⟩ := m.redirect_log station ins
  have hsettled : (m.settle station ins).2 =
      [.resolved station.name ins, way] := by
    simp only [settle, hform, hlog]
  rw [hsettled] at huntold ⊢
  have hnone : way.isTellable = false := by
    simpa [isTold, Happening.isTellable, Happening.obstacle?,
      Happening.numbers] using huntold
  rw [List.takeWhile_cons_of_pos rfl,
    List.takeWhile_cons_of_neg (by simp [hnone])]
  rfl

/-- A write-back is told of the station that has the bus, and of no other. -/
theorem WritesBack.writtenBack_eq (hphase : m.WritesBack m' log)
    (hsound : m.Sound)
    (htold : ∀ granted ins, m.bank.granted? = some granted →
      granted.instruction? = some ins → ins.opcode.form ≠ .branch →
      isTold (m.settle granted ins).2 = true) :
    writtenBack (log.takeWhile Happening.isTellable) =
      (m.bank.granted?.map (·.name)).toList.map some := by
  cases hphase with
  | idle hnone => rw [hnone]; rfl
  | empty hgranted hins =>
      obtain ⟨ins, hheld⟩ := hsound.instruction?_granted hgranted
      rw [hins] at hheld
      contradiction
  | @broken station ins hgranted hins huntold =>
      by_cases hform : ins.opcode.form = .branch
      · rw [writtenBack_branch hform huntold, hgranted]
        rfl
      · rw [htold station ins hgranted hins hform] at huntold
        contradiction
  | stored hgranted _ _ hall =>
      rw [takeWhile_isTellable_of_isTold hall, hgranted]
      rfl
  | @branched station ins hgranted _ _ hall =>
      obtain ⟨way, hlog, hway⟩ := m.redirect_log station ins
      have htold : isTold (.resolved station.name ins ::
          (m.redirect station ins).2) = true := by
        rw [isTold, List.all_cons, ← isTold, hall]
        rfl
      rw [takeWhile_isTellable_of_isTold htold, hlog, hgranted]
      rcases hway with ⟨_, _, _, _, rfl⟩ | ⟨_, _, rfl⟩ | ⟨_, _, rfl⟩
      all_goals rfl
  | @published station ins value happening hgranted _ _ hhappening hall =>
      have htold : isTold (happening ::
          (m.released.publish station.name ins value).2) = true :=
        isTold_publish hhappening hall
      have hreceived : writtenBack
          (m.released.publish station.name ins value).2 = [] :=
        writtenBack_eq_nil (by simp [publish, Happening.kind])
      have hsplit : happening :: (m.released.publish station.name ins value).2 =
          [happening] ++ (m.released.publish station.name ins value).2 := rfl
      rw [takeWhile_isTellable_of_isTold htold, hsplit, writtenBack_append,
        hreceived, hgranted]
      rcases hhappening with rfl | rfl
      · rfl
      · rfl

theorem Issues.writtenBack_eq (hphase : m.Issues m' log) :
    writtenBack log = [] := by
  cases hphase <;> rfl

theorem writtenBack_told (m : Machine) :
    writtenBack m.told =
      writtenBack (m.begin.writeback.2.takeWhile Happening.isTellable) := by
  by_cases hwritten : m.IsWritten
  · have hissued := m.written.issue_issues.writtenBack_eq
    have hexecuted : writtenBack (m.written.issue.1.execute.2.takeWhile
        Happening.isTellable) = [] := by
      refine writtenBack_eq_nil fun happening hmem heq => ?_
      have hexecution :=
        isExecution_of_mem_execute (mem_of_mem_takeWhile_isTellable hmem)
      rw [heq] at hexecution
      nomatch hexecution
    rw [told, takeWhile_advance hwritten, ← written, writtenBack_append,
      writtenBack_append, hissued, hexecuted, List.append_nil, List.append_nil,
      takeWhile_isTellable_of_isTold hwritten]
    rfl
  · have huntold : isTold m.begin.writeback.2 = false := by
      simpa [IsWritten] using hwritten
    rw [told, advance_of_untold huntold, List.takeWhile_cons_of_pos rfl]
    rfl

/-- Who waits for the bus without having it is left alone by the write-back and
by the issue. -/
theorem PortHeld.left_alone (h : m.PortHeld) (hwritten : m.IsWritten)
    (hstation : m.begin.bank.station? name = some station)
    (hasks : station.asksForBus = true)
    (hother : ∀ granted, m.begin.bank.granted? = some granted →
      granted.name ≠ name) :
    m.written.bank.station? name = some station ∧
      m.atExecution.bank.station? name = some station := by
  have hbegun := h.begin
  have hphase := m.begin.writeback_writesBack
  obtain ⟨hbusy, hpending⟩ : station.busy = true ∧
      station.resultPending = true := by
    simpa [Station.asksForBus] using hasks
  have hready : station.operandsReady = true := by
    have hsound := hbegun.sound.station hstation
    obtain ⟨ins, -, hprogress⟩ := hsound.working hbusy
    exact (hbegun.portSound hstation).operandsReady hsound hbusy
      (hprogress.finished hpending).1
  have hsame : m.written.bank.station? name = some station := by
    cases hgranted : m.begin.bank.granted? with
    | none =>
        rw [written, hphase.eq_self hwritten hgranted]
        exact hstation
    | some granted =>
        have hreleased : m.begin.released.bank.station? name = some station := by
          rw [station?_released hbegun.sound.distinct hgranted,
            if_neg (hother granted hgranted).symm, hstation]
        rcases hphase.bank_eq hwritten hgranted with hbank | ⟨tag, value, hbank⟩
        · rw [written, hbank]
          exact hreleased
        · -- whose operands are there hears nothing
          have hdeaf : station.awaits tag = false := by
            have hnone := Station.hears_eq_false hready tag
            rwa [Station.hears, hbusy, Bool.true_and] at hnone
          rw [written, hbank, Bank.station?_map (Station.name_listen tag value),
            hreleased, Option.map_some, Station.listen, if_pos hbusy,
            Station.receive, hdeaf, if_neg Bool.false_ne_true]
  exact ⟨hsame, (issue_issues _).station?_of_busy
    hbegun.writeback.sound.distinct hsame hbusy⟩

theorem PortHeld.granted_free (h : m.PortHeld) (hwritten : m.IsWritten)
    (hgranted : m.begin.bank.granted? = some granted) :
    m.written.bank.station? granted.name = some granted.release := by
  have hphase := m.begin.writeback_writesBack
  have hreleased : m.begin.released.bank.station? granted.name =
      some granted.release := by
    rw [station?_released h.begin.sound.distinct hgranted, if_pos rfl]
  rcases hphase.bank_eq hwritten hgranted with hbank | ⟨tag, value, hbank⟩
  · rw [written, hbank]
    exact hreleased
  · rw [written, hbank, Bank.station?_map (Station.name_listen tag value),
      hreleased]
    rfl

/-! ## Along a run -/

/-- The machine has its stations in their places, and holds words. -/
structure Steady (config : Config) (m : Machine) : Prop where
  placed : Placed config m
  sound : m.Sound
  words : m.HoldsWords

theorem Steady.advance (h : m.Steady config) : m.advance.1.Steady config :=
  advance_keeps (P := fun m => m.Steady config)
    (fun _ h => ⟨h.placed.begin, h.sound.begin, h.words.begin⟩)
    (fun _ _ _ hphase h => ⟨h.placed.writesBack hphase,
      h.sound.writesBack hphase, h.words.writesBack hphase h.sound.distinct⟩)
    (fun _ _ _ hphase h =>
      ⟨h.placed.of_map_place_eq hphase.sameFrame.config
        (map_place_issues hphase), h.sound.issues hphase,
        h.words.issues hphase h.sound.distinct⟩)
    (fun m h => ⟨h.placed.of_map_place_eq m.sameFrame_execute.config
      (map_place_execute m), h.sound.execute, h.words.execute⟩) h

theorem steady_create (config : Config) (preload : List (Int × Int)) :
    (create config preload).Steady config where
  placed := placed_create config preload
  sound := sound_create config preload
  words := {
    registers := RegisterFile.holdsWords_initial
    operands := fun hstation hbusy => by
      rw [Bank.eq_release_of_mem_ofSizes (Bank.mem_of_station? hstation)]
        at hbusy
      contradiction }

end Machine

namespace Simulation

variable {config : Config} {preload : List (Int × Int)} {actions : List Action}
  {sim : Simulation} {name : String} {station : Station}

/-- A run that is not broken off keeps the machine steady, and tells only what can
be told. -/
theorem steady_attempt
    (hrun : (fresh config preload).attempt actions = .ok sim) :
    sim.machine.Steady config ∧ isTold sim.happenings = true := by
  have hkept := attempt_induction (fresh config preload) actions
    (P := fun sim => sim.machine.Steady config ∧ isTold sim.happenings = true)
    (Q := fun _ => True) ?_ (fun _ _ _ => trivial) ?_ ?_
  · rw [hrun] at hkept
    exact hkept
  · rintro sim ⟨hsteady, htold⟩ hcycle
    rw [machine_cycle, happenings_cycle, isTold_append, htold,
      takeWhile_isTellable_of_isTold hcycle, hcycle]
    exact ⟨hsteady.advance, rfl⟩
  · rintro sim action - hne ⟨hsteady, htold⟩
    have hsame : ∀ {m : Machine}, m.config = sim.machine.config →
        m.bank = sim.machine.bank → m.registers.HoldsWords →
        m.Steady config := fun hconfig hbank hwords =>
      ⟨hsteady.placed.of_map_place_eq hconfig (by rw [hbank]),
        hsteady.sound.of_bank_eq hbank, hwords, hbank ▸ hsteady.words.operands⟩
    refine ⟨?_, ?_⟩
    · cases action with
      | cycle => exact absurd rfl hne
      | writeRegister register value =>
          exact hsame rfl rfl (RegisterFile.holdsWords_writeAll
            hsteady.words.registers [(register, value)])
      | load | storeWord | fillBlock =>
          exact hsame rfl rfl hsteady.words.registers
    · cases action with
      | cycle => exact absurd rfl hne
      | load | writeRegister | storeWord | fillBlock => exact htold
  · exact ⟨Machine.steady_create config preload, rfl⟩

/-- Behind a run that is not broken off, the diary of a station tells what
happened to it. -/
theorem exists_diary (hrun : (fresh config preload).attempt actions = .ok sim)
    (name : String) :
    ∃ diary : Diary,
      diary.events.map (·.happening) =
        sim.happenings.filter (·.station? = some name) ∧
      (Watch.mk sim diary false).Fits config name (Stay.IsTold config name)
        (Stay.IsWhole config name) := by
  have hkept := (upkeep_isTold config name).kept_watch preload actions
  obtain ⟨hsim, hwhole⟩ := (fresh config preload).watch_attempt name actions
  have hnotBroken := hwhole sim hrun
  rw [hrun, left] at hsim
  generalize (fresh config preload).watch name actions = watch
    at hkept hsim hnotBroken
  subst hsim
  refine ⟨watch.diary, ?_, ?_⟩
  · rw [hkept.events_eq, eventsAt, happenings, List.filter_map]
    rfl
  · obtain ⟨held, hconfig, hgeometry, hfits, habsent⟩ := hkept.fits hnotBroken
    exact ⟨held, hconfig, hgeometry, hfits, habsent⟩

theorem awaitsBus_eq (hrun : (fresh config preload).attempt actions = .ok sim)
    (hstation : sim.machine.bank.station? name = some station) :
    awaitsBus sim.happenings name = station.asksForBus := by
  obtain ⟨diary, hevents, hfits⟩ := exists_diary hrun name
  rw [← awaitsBus_filter, ← hevents]
  exact (hfits.fits hstation).awaitsBus_eq

theorem exists_station_of_awaitsBus
    (hrun : (fresh config preload).attempt actions = .ok sim)
    (hawaits : awaitsBus sim.happenings name = true) :
    ∃ station, sim.machine.bank.station? name = some station := by
  obtain ⟨diary, hevents, hfits⟩ := exists_diary hrun name
  cases hstation : sim.machine.bank.station? name with
  | some station => exact ⟨station, rfl⟩
  | none =>
      have hnone : diary = [] := hfits.absent hstation
      rw [← awaitsBus_filter, ← hevents, hnone] at hawaits
      contradiction

/-- An access that asks for the bus has an address that can be told, as it was
told. -/
theorem isWritable_address_of_asksForBus
    (hrun : (fresh config preload).attempt actions = .ok sim)
    (hstation : sim.machine.bank.station? name = some station)
    (hasks : station.asksForBus = true) {ins : Instruction}
    (hins : station.instruction? = some ins)
    (hmemory : ins.opcode.isMemory = true) :
    Numeral.isWritable station.address = true := by
  obtain ⟨diary, hevents, hfits⟩ := exists_diary hrun name
  have htold := (hfits.fits hstation).mem_addressed hasks hins hmemory
  rw [hevents] at htold
  have htold := (List.mem_filter.mp htold).1
  have htellable := List.all_eq_true.mp (steady_attempt hrun).2 _ htold
  simpa [Happening.isTellable, Happening.obstacle?, Happening.numbers]
    using htellable

/-- The write-back of any station but that of a branch can be told. -/
theorem isTold_settle_granted
    (hrun : (fresh config preload).attempt actions = .ok sim)
    {granted : Station} {ins : Instruction}
    (hgranted : sim.machine.begin.bank.granted? = some granted)
    (hins : granted.instruction? = some ins)
    (hform : ins.opcode.form ≠ .branch) :
    isTold (sim.machine.begin.settle granted ins).2 = true := by
  obtain ⟨⟨-, hsound, hwords⟩, -⟩ := steady_attempt hrun
  refine hwords.begin.isTold_settle hsound.begin hgranted hins
    (fun hmemory => ?_) hform
  rw [Machine.granted?_begin] at hgranted
  obtain ⟨station, hfound, rfl⟩ := Option.map_eq_some_iff.mp hgranted
  have hstation := Machine.station?_granted hsound.distinct hfound
  have hasks : station.asksForBus = true := List.find?_some hfound
  rw [(Station.sameWork_endPause station).instruction?] at hins
  have haddress : station.endPause.address = station.address := by
    obtain ⟨_, _, _, heq⟩ := station.kept_endPause
    rw [heq]
  rw [haddress]
  exact isWritable_address_of_asksForBus hrun hstation hasks hins hmemory

theorem asksForBus_begin
    (hrun : (fresh config preload).attempt actions = .ok sim)
    (hstation : sim.machine.begin.bank.station? name = some station) :
    station.asksForBus = awaitsBus sim.happenings name := by
  rw [Machine.station?_begin] at hstation
  obtain ⟨before, hbefore, rfl⟩ := Option.map_eq_some_iff.mp hstation
  rw [awaitsBus_eq hrun hbefore, before.kept_endPause.asksForBus]

/-- The station that has the bus in the next cycle is the first one that waits for
it. -/
theorem granted?_eq (hrun : (fresh config preload).attempt actions = .ok sim) :
    sim.machine.begin.bank.granted?.map (·.name) =
      config.stationNames.find? (awaitsBus sim.happenings) := by
  obtain ⟨⟨hplaced, hsound, -⟩, -⟩ := steady_attempt hrun
  have hasks : ∀ station ∈ sim.machine.bank,
      Station.asksForBus station =
        (awaitsBus sim.happenings ∘ Station.name) station := fun station hmem =>
    (awaitsBus_eq hrun (hsound.distinct.station?_name hmem)).symm
  rw [Machine.granted?_begin, Option.map_map, ← hplaced.map_name, List.find?_map,
    ← List.find?_congr hasks, Bank.granted?]
  congr 1
  funext station
  exact Machine.name_endPause station

/-- **The bus is never idle while a result waits, and favours the first.**  Behind
any run that is not broken off, of a machine that is loaded with programs, run and
written to, in any order, and in the cycle that follows it: if, by what was told,
some station has finished and was not written back since then, exactly one
write-back is told, and it is that of the first such station, pool after pool and
by their numbers; otherwise none is told.  Unless the cycle is broken off at this
write-back, the station is free behind it, and every other one that waits for the
bus is left as it is by the write-back and by the issue. -/
theorem bus_work_conserving (config : Config) (preload : List (Int × Int))
    (actions : List Action) {sim : Simulation}
    (hrun : (fresh config preload).attempt actions = .ok sim) :
    let m := sim.machine
    let winner? := config.stationNames.find? (awaitsBus sim.happenings)
    (∀ name, awaitsBus sim.happenings name = true →
      name ∈ config.stationNames) ∧
    sim.cycle.happenings = sim.happenings ++ m.told ∧
    writtenBack m.told = winner?.toList.map some ∧
    (m.IsWritten →
      (∀ winner, winner? = some winner →
        ∃ station, m.written.bank.station? winner = some station ∧
          station.busy = false) ∧
      ∀ name station, m.begin.bank.station? name = some station →
        awaitsBus sim.happenings name = true → winner? ≠ some name →
        m.written.bank.station? name = some station ∧
          m.atExecution.bank.station? name = some station) := by
  intro m winner?
  obtain ⟨⟨hplaced, hsound, -⟩, -⟩ := steady_attempt hrun
  have hwinner : m.begin.bank.granted?.map (·.name) = winner? :=
    granted?_eq hrun
  obtain ⟨diary, -, hfits⟩ := exists_diary hrun ""
  have hheld : m.PortHeld := hfits.held
  refine ⟨fun name hawaits => ?_, sim.happenings_cycle, ?_, fun hwritten =>
    ⟨fun winner hfirst => ?_, fun name station hstation hawaits hother => ?_⟩⟩
  · obtain ⟨station, hstation⟩ := exists_station_of_awaitsBus hrun hawaits
    rw [← hplaced.map_name, ← Bank.name_of_station? hstation]
    exact List.mem_map_of_mem (Bank.mem_of_station? hstation)
  · rw [Machine.writtenBack_told, m.begin.writeback_writesBack.writtenBack_eq
      hsound.begin fun _ _ => isTold_settle_granted hrun, hwinner]
  · rw [← hwinner] at hfirst
    obtain ⟨granted, hgranted, rfl⟩ := Option.map_eq_some_iff.mp hfirst
    exact ⟨_, hheld.granted_free hwritten hgranted, rfl⟩
  · have hasks := (asksForBus_begin hrun hstation).trans hawaits
    refine hheld.left_alone hwritten hstation hasks fun granted hgranted hname => ?_
    rw [← hwinner, hgranted, Option.map_some, hname] at hother
    exact hother rfl

/-- A sum and a sum with a constant finish in the same cycle, while a product is
computed: the sum has the bus first, and the other one waits as it is. -/
theorem bus_work_conserving_contention :
    let program : List Instruction :=
      [{ opcode := .mul, dest := "F2", src1 := "F1", src2 := "F1" },
        { opcode := .add, dest := "F3", src1 := "F1", src2 := "F1" },
        { opcode := .addi, dest := "R1", src1 := "R0", immediate := some 1 }]
    ∃ sim, (fresh .standard []).attempt
        (.load program :: List.replicate 4 .cycle) = .ok sim ∧
      awaitsBus sim.happenings "Int0" = true ∧
      writtenBack sim.machine.told = [some "Add0"] ∧
      ∃ station, sim.machine.atExecution.bank.station? "Int0" = some station ∧
        station.asksForBus = true := by
  intro program
  have hends : ((fresh .standard []).attempt
      (.load program :: List.replicate 4 .cycle)).toOption.map (fun sim =>
        (awaitsBus sim.happenings "Int0",
          Config.standard.stationNames.find? (awaitsBus sim.happenings),
          isTold sim.machine.begin.writeback.2,
          (sim.machine.begin.bank.station? "Int0").map (·.asksForBus))) =
      some (true, some "Add0", true, some true) := by
    decide +kernel
  obtain ⟨sim, hsim, hend⟩ := Option.map_eq_some_iff.mp hends
  have hrun : (fresh .standard []).attempt
      (.load program :: List.replicate 4 .cycle) = .ok sim := by
    generalize (fresh .standard []).attempt _ = run at hsim ⊢
    cases run with
    | error breakdown => nomatch hsim
    | ok other => exact congrArg Except.ok (Option.some.inj hsim)
  simp only [Prod.mk.injEq] at hend
  obtain ⟨hawaits, hfirst, hwritten, hasks⟩ := hend
  obtain ⟨station, hstation, hasks⟩ := Option.map_eq_some_iff.mp hasks
  obtain ⟨-, -, hbus, hleft⟩ := bus_work_conserving .standard [] _ hrun
  rw [hfirst] at hbus hleft
  exact ⟨sim, hrun, hawaits, hbus, station,
    ((hleft hwritten).2 "Int0" station hstation hawaits (by decide)).2, hasks⟩

end Simulation

end OutOfOrder
