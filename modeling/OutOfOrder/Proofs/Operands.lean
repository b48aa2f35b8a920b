import Mathlib.Logic.Relation
import OutOfOrder.Proofs.Agreement

/-!
# Operands and their producers

A pending operand waits for one issue, its producer, which was at work when the
operand was read and stays at work at the named station for as long as the
operand is pending.  In the cycle in which the producer publishes its value the
operand becomes ready with that value, and so it stays.
-/

namespace OutOfOrder

namespace Machine

/-- The station of a name has an operand in a slot. -/
def Shows (m : Machine) (name : String) (slot : Slot) (operand : Operand) :
    Prop :=
  ∃ station, m.bank.station? name = some station ∧
    station.operand slot = operand

/-- A station at work waits for another one. -/
def WaitsFor (m : Machine) (name tag : String) : Prop :=
  ∃ station slot, m.bank.station? name = some station ∧
    station.busy = true ∧ station.operand slot = .pending tag

/-- Every pending operand names a station at work on an earlier issue, which is
the last one before its own that defines the register it is read from. -/
def NamesProducers (m : Machine) (ledger : Ledger) : Prop :=
  ∀ name station slot tag, m.bank.station? name = some station →
    station.busy = true → station.operand slot = .pending tag →
    ∃ number producer source ins register,
      ledger.seat? name = some number ∧ ledger.seat? tag = some producer ∧
      producer < number ∧ tag ≠ name ∧
      m.bank.station? tag = some source ∧ source.busy = true ∧
      source.instruction? = some ins ∧
      ledger.issues[producer]? = some ⟨tag, ins⟩ ∧
      ins.target? = some register ∧
      ledger.definerBefore? register number = some producer ∧
      (∃ reader, station.instruction? = some reader ∧
        reader.source? slot = some register)

variable {m m' : Machine} {ledger : Ledger} {station : Station}
  {ins : Instruction} {log : List Happening} {name tag : String} {slot : Slot}
  {number producer : Nat} {operand : Operand} {value : Int}

theorem Agrees.namesProducers (h : m.Agrees ledger) :
    m.NamesProducers ledger := by
  intro name station slot tag hstation hbusy hpending
  obtain ⟨number, hnumber⟩ := h.seated hstation hbusy
  obtain ⟨reader, register, producer, hreader, hsource, -, hdefiner,
    hproducer⟩ := h.operands hstation hnumber hpending
  obtain ⟨hlt, htarget⟩ := Ledger.definerBefore?_eq_some hdefiner
  obtain ⟨source, ins, hfound, hworks, hins, hissue⟩ := h.occupied hproducer
  refine ⟨number, producer, source, ins, register, hnumber, hproducer, hlt, ?_,
    hfound, hworks, hins, hissue, ?_, hdefiner, reader, hreader, hsource⟩
  · rintro rfl
    rw [hnumber] at hproducer
    cases hproducer
    omega
  · rw [← h.target?_eq hfound hproducer hins, htarget]

/-- Stations wait only for stations with earlier issues. -/
theorem Agrees.lt_of_transGen (h : m.Agrees ledger)
    (hwaits : Relation.TransGen m.WaitsFor name tag) :
    ∃ number producer, ledger.seat? name = some number ∧
      ledger.seat? tag = some producer ∧ producer < number := by
  induction hwaits with
  | single hedge =>
      obtain ⟨station, slot, hstation, hbusy, hpending⟩ := hedge
      obtain ⟨number, producer, _, _, _, hnumber, hproducer, hlt, -⟩ :=
        h.namesProducers _ _ slot _ hstation hbusy hpending
      exact ⟨number, producer, hnumber, hproducer, hlt⟩
  | tail _ hedge ih =>
      obtain ⟨number, middle, hnumber, hmiddle, hlt⟩ := ih
      obtain ⟨station, slot, hstation, hbusy, hpending⟩ := hedge
      obtain ⟨middle', producer, _, _, _, hmiddle', hproducer, hlt', -⟩ :=
        h.namesProducers _ _ slot _ hstation hbusy hpending
      rw [hmiddle] at hmiddle'
      cases hmiddle'
      exact ⟨number, producer, hnumber, hproducer, hlt'.trans hlt⟩

/-- No station waits for itself, be it through others. -/
theorem Agrees.acyclic (h : m.Agrees ledger) (name : String) :
    ¬Relation.TransGen m.WaitsFor name name := by
  intro hcycle
  obtain ⟨number, producer, hnumber, hproducer, hlt⟩ :=
    h.lt_of_transGen hcycle
  rw [hnumber] at hproducer
  cases hproducer
  omega

/-! ## Operands through the phases -/

/-- An instruction that has the bus has all its operands. -/
theorem Agrees.isReady_of_granted (h : m.Agrees ledger)
    (hgranted : m.bank.granted? = some station) (slot : Slot) :
    (station.operand slot).isReady = true := by
  have hstation := station?_granted h.sound.distinct hgranted
  obtain ⟨-, hbusy, hpending⟩ := mem_of_granted? hgranted
  obtain ⟨number, hnumber⟩ := h.seated hstation hbusy
  obtain ⟨ins, hins, hprogress⟩ := (h.sound.station hstation).working hbusy
  have hexecuting := (hprogress.finished hpending).1
  cases hmemory : ins.opcode.isMemory with
  | false =>
      have hready := hprogress.computing hmemory hexecuting
      simp only [Station.operandsReady, Bool.and_eq_true] at hready
      cases slot
      · exact hready.1
      · exact hready.2
  | true =>
      obtain ⟨haddress, hvalue⟩ := hprogress.accessing hmemory hexecuting
      cases slot with
      | first => exact (hprogress.addressed haddress).1
      | second =>
          cases hstore : ins.opcode.isStore with
          | true => exact hvalue hstore
          | false =>
              -- a load reads no second operand
              have hload : ins.opcode.form = .load := by
                simpa [Opcode.isMemory, Opcode.isLoad, hstore] using hmemory
              cases hk : station.operand .second with
              | pending tag =>
                  obtain ⟨ins', register, _, hins', hsource, -⟩ :=
                    h.operands hstation hnumber hk
                  rw [hins] at hins'
                  cases hins'
                  simp [Instruction.source?, hload] at hsource
              | absent | ready => rfl

theorem Shows.of_sameWork (h : m.Shows name slot operand)
    (hforth : ∀ {station}, m.bank.station? name = some station →
      ∃ other, m'.bank.station? name = some other ∧ station.SameWork other) :
    m'.Shows name slot operand := by
  obtain ⟨station, hstation, hoperand⟩ := h
  obtain ⟨other, hother, hwork⟩ := hforth hstation
  exact ⟨other, hother, (hwork.operand slot).trans hoperand⟩

theorem Shows.begin (h : m.Shows name slot operand) :
    m.begin.Shows name slot operand := by
  refine h.of_sameWork ?_
  intro station hstation
  rw [station?_begin, hstation]
  exact ⟨_, rfl, Station.sameWork_endPause station⟩

theorem Shows.execute (h : m.Shows name slot operand) :
    m.execute.1.Shows name slot operand := by
  refine h.of_sameWork ?_
  intro station hstation
  obtain ⟨other, hother, hstep⟩ := exists_stepped_execute hstation
  exact ⟨other, hother, hstep.sameWork⟩

/-- Issue changes no station that is seated. -/
theorem Shows.issues (h : m.Agrees ledger) (hseat : ledger.seat? name = some number)
    (hshows : m.Shows name slot operand) (hphase : m.Issues m' log) :
    (ledger.noteAll log).seat? name = some number ∧
      m'.Shows name slot operand := by
  cases hphase with
  | drained => exact ⟨hseat, hshows⟩
  | stalled => exact ⟨hseat, hshows⟩
  | @issued next rest station hqueue hfree =>
      have hstation := station?_free h.sound.distinct hfree
      have hne : name ≠ station.name := by
        rintro rfl
        rw [h.seat?_eq_none hstation (mem_of_free? hfree).2.2] at hseat
        contradiction
      obtain ⟨reader, hreader, hoperand⟩ := hshows
      refine ⟨?_, reader, ?_, hoperand⟩
      · simpa [Ledger.noteAll, Ledger.note, Ledger.issue, hne] using hseat
      · rw [station?_occupied h.sound.distinct hfree, if_neg hne, hreader]

/-- Write-back leaves a station that keeps its issue at work, and changes none of
its operands but those that wait for the value. -/
theorem Shows.busEffect {ledger' : Ledger} (h : m.Agrees ledger)
    (heffect : m.BusEffect ledger m' ledger')
    (hkept : ledger'.seat? name = some number)
    (hshows : m.Shows name slot operand) (hready : operand.isReady = true)
    (hseat : ledger.seat? name = some number) :
    m'.Shows name slot operand := by
  obtain ⟨reader, hreader, hoperand⟩ := hshows
  cases heffect with
  | none hbank => exact ⟨reader, hbank ▸ hreader, hoperand⟩
  | @vacated station ins hgranted hins htarget hbank =>
      have hne : name ≠ station.name := by
        rintro rfl
        simp [Ledger.seat?_vacate] at hkept
      refine ⟨reader, ?_, hoperand⟩
      rw [hbank, station?_released h.sound.distinct hgranted, if_neg hne,
        hreader]
  | @published station ins value hgranted hins hvalue heq =>
      have hne : name ≠ station.name := by
        rintro rfl
        simp [Ledger.seat?_publish] at hkept
      refine ⟨reader.listen station.name value, ?_, ?_⟩
      · rw [heq, station?_publish h.sound.distinct hgranted, if_neg hne,
          hreader]
        rfl
      · rw [Station.operand_listen (h.busy_of_seat? hseat hreader), hoperand,
          Station.isReady_receive hready]

/-! ## Waiting and receiving -/

/-- An issue waits in a slot for its producer, which is at work. -/
structure Waits (m : Machine) (ledger : Ledger) (name : String) (slot : Slot)
    (tag : String) (number producer : Nat) : Prop where
  reader : ledger.seat? name = some number
  producer : ledger.seat? tag = some producer
  pending : m.Shows name slot (.pending tag)

/-- The producer's value has reached the slot in which its reader waited. -/
structure Receives (m : Machine) (ledger before : Ledger) (name : String)
    (slot : Slot) (number producer : Nat) (value : Int) : Prop where
  reader : ledger.seat? name = some number
  published : ledger.published = before.published ++ [(producer, value)]
  ready : m.Shows name slot (.ready value)

/-- A reader waits on until its producer publishes, and then has the value. -/
theorem Waits.busEffect {ledger' : Ledger} (h : m.Agrees ledger)
    (hwaits : m.Waits ledger name slot tag number producer)
    (heffect : m.BusEffect ledger m' ledger') :
    m'.Waits ledger' name slot tag number producer ∨
      ∃ value, m'.Receives ledger' ledger name slot number producer value := by
  obtain ⟨hnumber, hproducer, reader, hreader, hpending⟩ := hwaits
  have hreaderNe : ∀ {station}, m.bank.granted? = some station →
      name ≠ station.name := by
    rintro station hgranted rfl
    have hstation := station?_granted h.sound.distinct hgranted
    rw [hreader] at hstation
    cases hstation
    have hready := h.isReady_of_granted hgranted slot
    rw [hpending] at hready
    simp [Operand.isReady] at hready
  cases heffect with
  | none hbank =>
      exact .inl ⟨hnumber, hproducer, reader, hbank ▸ hreader, hpending⟩
  | @vacated station ins hgranted hins htarget hbank =>
      have hstation := station?_granted h.sound.distinct hgranted
      obtain ⟨_, _, _, -, -, -, hdefiner, hseat⟩ :=
        h.operands hreader hnumber hpending
      have htagNe :=
        h.ne_of_target?_eq_none hstation hins htarget hdefiner hseat
      refine .inl ⟨?_, ?_, reader, ?_, hpending⟩
      · simpa [Ledger.seat?_vacate, hreaderNe hgranted] using hnumber
      · simpa [Ledger.seat?_vacate, htagNe] using hproducer
      · rw [hbank, station?_released h.sound.distinct hgranted,
          if_neg (hreaderNe hgranted), hreader]
  | @published station ins value hgranted hins hvalue heq =>
      have hreader' : m'.bank.station? name =
          some (reader.listen station.name value) := by
        rw [heq, station?_publish h.sound.distinct hgranted,
          if_neg (hreaderNe hgranted), hreader]
        rfl
      have hoperand := Station.operand_listen
        (h.busy_of_seat? hnumber hreader) station.name value slot
      have hnumber' :
          (ledger.publish station.name value).seat? name = some number := by
        simpa [Ledger.seat?_publish, hreaderNe hgranted] using hnumber
      by_cases htag : tag = station.name
      · subst htag
        refine .inr ⟨value, hnumber', ledger.published_publish hproducer value,
          _, hreader', ?_⟩
        simp [hoperand, hpending, Operand.receive]
      · refine .inl ⟨hnumber', ?_, _, hreader', ?_⟩
        · simpa [Ledger.seat?_publish, htag] using hproducer
        · simp [hoperand, hpending, Operand.receive, htag]

/-- A reader waits through a cycle, or receives its value in it. -/
theorem Waits.advance (h : m.Agrees ledger)
    (hwaits : m.Waits ledger name slot tag number producer) :
    m.advance.1.Waits (ledger.afterCycle m) name slot tag number producer ∨
      ∃ value, m.advance.1.Receives (ledger.afterCycle m) ledger name slot
        number producer value := by
  let P : Machine → Ledger → Prop := fun m' ledger' => m'.Agrees ledger' ∧
    m'.Waits ledger' name slot tag number producer ∧
    ledger'.published = ledger.published
  let Q : Machine → Ledger → Prop := fun m' ledger' => m'.Agrees ledger' ∧
    (m'.Waits ledger' name slot tag number producer ∨
      ∃ value, m'.Receives ledger' ledger name slot number producer value)
  have hbegin : ∀ m ledger, P m ledger → P m.begin ledger := by
    rintro m ledger ⟨hagrees, hwaits, hsame⟩
    exact ⟨hagrees.begin,
      ⟨hwaits.reader, hwaits.producer, hwaits.pending.begin⟩, hsame⟩
  have hwriteback : ∀ m ledger m' log, m.WritesBack m' log → P m ledger →
      Q m' (ledger.noteAll (log.takeWhile Happening.isTellable)) := by
    rintro m ledger m' log hphase ⟨hagrees, hwaits, hsame⟩
    refine ⟨hagrees.writesBack hphase, ?_⟩
    rcases hwaits.busEffect hagrees (hphase.busEffect ledger) with
      hwaits' | ⟨value, hreceives⟩
    · exact .inl hwaits'
    · exact .inr ⟨value, hreceives.reader,
        hsame ▸ hreceives.published, hreceives.ready⟩
  have hissue : ∀ m ledger m' log, m.Issues m' log → Q m ledger →
      Q m' (ledger.noteAll log) := by
    rintro m ledger m' log hphase ⟨hagrees, hcases⟩
    refine ⟨hagrees.issues hphase, ?_⟩
    rcases hcases with hwaits | ⟨value, hreceives⟩
    · obtain ⟨hreader, hpending⟩ :=
        Shows.issues hagrees hwaits.reader hwaits.pending hphase
      obtain ⟨source, _, hsource, -⟩ := hagrees.occupied hwaits.producer
      have hshows : m.Shows tag slot (source.operand slot) :=
        ⟨source, hsource, rfl⟩
      obtain ⟨hproducer, -⟩ :=
        Shows.issues hagrees hwaits.producer hshows hphase
      exact .inl ⟨hreader, hproducer, hpending⟩
    · obtain ⟨hreader, hready⟩ :=
        Shows.issues hagrees hreceives.reader hreceives.ready hphase
      exact .inr ⟨value, hreader,
        (hphase.published_eq ledger).trans hreceives.published, hready⟩
  have hexecute : ∀ m ledger, Q m ledger → Q m.execute.1 ledger := by
    rintro m ledger ⟨hagrees, hcases⟩
    refine ⟨hagrees.execute, ?_⟩
    rcases hcases with hwaits | ⟨value, hreceives⟩
    · exact .inl ⟨hwaits.reader, hwaits.producer, hwaits.pending.execute⟩
    · exact .inr ⟨value, hreceives.reader, hreceives.published,
        hreceives.ready.execute⟩
  exact (advance_induction (P := P) (Q := Q) hbegin hwriteback hissue hexecute
    ⟨h, hwaits, rfl⟩).2

/-- The producer has published its value, which is in the slot for as long as
the reader is at work. -/
structure Delivers (m : Machine) (ledger : Ledger) (name : String) (slot : Slot)
    (number producer : Nat) (value : Int) : Prop where
  published : (producer, value) ∈ ledger.published
  issued : number < ledger.issues.length
  ready : ledger.seat? name = some number → m.Shows name slot (.ready value)

theorem Receives.delivers {before : Ledger} (h : m.Agrees ledger)
    (hreceives : m.Receives ledger before name slot number producer value) :
    m.Delivers ledger name slot number producer value where
  published := by
    rw [hreceives.published]
    exact List.mem_append_right _ (List.mem_singleton_self _)
  issued := h.number_lt hreceives.reader
  ready := fun _ => hreceives.ready

theorem Delivers.busEffect {ledger' : Ledger} (h : m.Agrees ledger)
    (hdelivers : m.Delivers ledger name slot number producer value)
    (heffect : m.BusEffect ledger m' ledger') :
    m'.Delivers ledger' name slot number producer value where
  published := heffect.mem_published hdelivers.published
  issued := heffect.issues_eq ▸ hdelivers.issued
  ready := fun hkept => by
    have hseat := heffect.seat? hkept
    exact (hdelivers.ready hseat).busEffect h heffect hkept rfl hseat

theorem Delivers.issues (h : m.Agrees ledger)
    (hdelivers : m.Delivers ledger name slot number producer value)
    (hphase : m.Issues m' log) :
    m'.Delivers (ledger.noteAll log) name slot number producer value where
  published := hphase.published_eq ledger ▸ hdelivers.published
  issued := hdelivers.issued.trans_le (hphase.length_le ledger)
  ready := fun hkept => by
    have hseat := hphase.seat? hdelivers.issued hkept
    exact (Shows.issues h hseat (hdelivers.ready hseat) hphase).2

theorem Delivers.advance (h : m.Agrees ledger)
    (hdelivers : m.Delivers ledger name slot number producer value) :
    m.advance.1.Delivers (ledger.afterCycle m) name slot number producer
      value := by
  let P : Machine → Ledger → Prop := fun m ledger => m.Agrees ledger ∧
    m.Delivers ledger name slot number producer value
  have hbegin : ∀ m ledger, P m ledger → P m.begin ledger := by
    rintro m ledger ⟨hagrees, hdelivers⟩
    exact ⟨hagrees.begin, hdelivers.published, hdelivers.issued,
      fun hkept => (hdelivers.ready hkept).begin⟩
  have hexecute : ∀ m ledger, P m ledger → P m.execute.1 ledger := by
    rintro m ledger ⟨hagrees, hdelivers⟩
    exact ⟨hagrees.execute, hdelivers.published, hdelivers.issued,
      fun hkept => (hdelivers.ready hkept).execute⟩
  exact (advance_induction (P := P) (Q := P) hbegin
    (fun _ ledger _ _ hphase h => ⟨h.1.writesBack hphase,
      h.2.busEffect h.1 (hphase.busEffect ledger)⟩)
    (fun _ _ _ _ hphase h => ⟨h.1.issues hphase, h.2.issues h.1 hphase⟩)
    hexecute ⟨h, hdelivers⟩).2

/-- Waiting and delivery are about the stations alone. -/
theorem Shows.of_bank_eq (h : m.Shows name slot operand)
    (hbank : m'.bank = m.bank) : m'.Shows name slot operand := by
  obtain ⟨station, hstation, hoperand⟩ := h
  exact ⟨station, hbank ▸ hstation, hoperand⟩

/-- A reader waits, or has been given the value of its producer. -/
def Served (m : Machine) (ledger : Ledger) (name : String) (slot : Slot)
    (tag : String) (number producer : Nat) : Prop :=
  m.Waits ledger name slot tag number producer ∨
    ∃ value, m.Delivers ledger name slot number producer value

theorem Served.of_bank_eq (h : m.Served ledger name slot tag number producer)
    (hbank : m'.bank = m.bank) :
    m'.Served ledger name slot tag number producer := by
  rcases h with hwaits | ⟨value, hdelivers⟩
  · exact .inl ⟨hwaits.reader, hwaits.producer,
      hwaits.pending.of_bank_eq hbank⟩
  · exact .inr ⟨value, hdelivers.published, hdelivers.issued,
      fun hkept => (hdelivers.ready hkept).of_bank_eq hbank⟩

theorem Served.advance (h : m.Agrees ledger)
    (hserved : m.Served ledger name slot tag number producer) :
    m.advance.1.Served (ledger.afterCycle m) name slot tag number producer := by
  rcases hserved with hwaits | ⟨value, hdelivers⟩
  · rcases hwaits.advance h with hwaits' | ⟨value, hreceives⟩
    · exact .inl hwaits'
    · exact .inr ⟨value, hreceives.delivers h.advance⟩
  · exact .inr ⟨value, hdelivers.advance h⟩

end Machine

namespace Simulation

/-- The next action leaves a reader waiting, or is the one in which its
producer publishes and the value reaches the slot. -/
theorem waits_act {sim : Simulation} (h : sim.machine.Agrees sim.ledger)
    {name tag : String} {slot : Slot} {number producer : Nat}
    (hwaits : sim.machine.Waits sim.ledger name slot tag number producer)
    (action : Action) :
    (sim.act action).machine.Waits (sim.act action).ledger name slot tag number
        producer ∨
      ∃ value, (sim.act action).machine.Receives (sim.act action).ledger
        sim.ledger name slot number producer value := by
  cases action with
  | cycle =>
      rw [act, machine_cycle, ledger_cycle]
      exact hwaits.advance h
  | load | writeRegister | storeWord | fillBlock =>
      exact .inl ⟨hwaits.reader, hwaits.producer,
        hwaits.pending.of_bank_eq rfl⟩

/-- A reader that waits is given the value of its producer in the end, if the
producer publishes at all. -/
theorem served_after {sim : Simulation} (h : sim.machine.Agrees sim.ledger)
    {name tag : String} {slot : Slot} {number producer : Nat}
    (hserved : sim.machine.Served sim.ledger name slot tag number producer)
    (actions : List Action) :
    (sim.after actions).machine.Served (sim.after actions).ledger name slot tag
      number producer := by
  refine (after_induction (P := fun m ledger => m.Agrees ledger ∧
    m.Served ledger name slot tag number producer) ?_ ?_ ?_ ?_ ?_ ⟨h, hserved⟩
    actions).2
  · exact fun m ledger h => ⟨h.1.advance, h.2.advance h.1⟩
  · exact fun m ledger program h =>
      ⟨h.1.of_bank_eq rfl rfl, h.2.of_bank_eq rfl⟩
  · exact fun m ledger name value h =>
      ⟨h.1.of_bank_eq rfl (RegisterFile.tags_write _ name value),
        h.2.of_bank_eq rfl⟩
  · exact fun m ledger address value h =>
      ⟨h.1.of_bank_eq rfl rfl, h.2.of_bank_eq rfl⟩
  · exact fun m ledger address h =>
      ⟨h.1.of_bank_eq rfl rfl, h.2.of_bank_eq rfl⟩

/-- At the moment of every issue, and between all actions of every run, a pending
operand names a station at work on an earlier issue that defines the register
it is read from, and no station waits for itself through others.  From then on
the named station works on that producer, and the operand is pending on it,
until the one action in which the producer publishes its value; from this
action on the operand is ready with that value. -/
theorem operands_come_from_producers (config : Config)
    (preload : List (Int × Int)) (actions : List Action) :
    let sim := (fresh config preload).after actions
    let written := sim.machine.begin.writeback
    let ledger := sim.ledger.noteAll
      (written.2.takeWhile Happening.isTellable)
    written.1.issue.1.NamesProducers (ledger.noteAll written.1.issue.2) ∧
    sim.machine.NamesProducers sim.ledger ∧
    (∀ name, ¬Relation.TransGen sim.machine.WaitsFor name name) ∧
    (sim.ledger.published.map (·.1)).Nodup ∧
    ∀ name slot tag number, sim.ledger.seat? name = some number →
      sim.machine.Shows name slot (.pending tag) →
      ∃ producer, sim.ledger.seat? tag = some producer ∧ producer < number ∧
        (∀ action,
          (sim.act action).machine.Waits (sim.act action).ledger name slot tag
            number producer ∨
          ∃ value, (sim.act action).machine.Receives (sim.act action).ledger
            sim.ledger name slot number producer value) ∧
        ∀ more,
          (sim.after more).machine.Waits (sim.after more).ledger name slot tag
            number producer ∨
          ∃ value, (sim.after more).machine.Delivers (sim.after more).ledger
            name slot number producer value := by
  have hagrees := agrees_fresh config preload actions
  refine ⟨?_, hagrees.namesProducers, hagrees.acyclic,
    hagrees.published_once, ?_⟩
  · have hwritten := hagrees.begin.writesBack (Machine.writeback_writesBack _)
    exact (hwritten.issues (Machine.issue_issues _)).namesProducers
  · intro name slot tag number hseat hshows
    obtain ⟨reader, hreader, hpending⟩ := hshows
    obtain ⟨_, _, producer, -, -, -, hdefiner, hproducer⟩ :=
      hagrees.operands hreader hseat hpending
    have hwaits : Machine.Waits _ _ name slot tag number producer :=
      ⟨hseat, hproducer, reader, hreader, hpending⟩
    exact ⟨producer, hproducer, (Ledger.definerBefore?_eq_some hdefiner).1,
      waits_act hagrees hwaits, served_after hagrees (.inl hwaits)⟩

end Simulation

end OutOfOrder
