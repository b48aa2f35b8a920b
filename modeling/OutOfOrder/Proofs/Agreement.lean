import OutOfOrder.Proofs.Soundness

/-!
# Machines and their ledgers

A machine agrees with a ledger if its stations work on the issues that the
ledger seats there, if a tag names the seat of its register's last definer as
long as that is seated, and if a pending operand names the seat of the last
definer before its own issue.  Every run keeps a machine in agreement with the
ledger of what was told.
-/

namespace OutOfOrder

/-! ## What the phases leave in a ledger -/

namespace Ledger

variable {m m' : Machine} {station : Station} {ins : Instruction}

theorem noteAll_received (ledger : Ledger) (producer : String) (value : Int)
    (names : List String) :
    ledger.noteAll ((names.map fun name =>
      Happening.received name producer value).takeWhile
        Happening.isTellable) = ledger := by
  apply noteAll_of_forall
  intro happening hmem
  obtain ⟨name, -, rfl⟩ :=
    List.mem_map.mp (mem_of_mem_takeWhile_isTellable hmem)
  exact fun _ => rfl

/-- An instruction that cannot be told leaves no trace. -/
theorem noteAll_settle_of_untold (ledger : Ledger)
    (h : isTold (m.settle station ins).2 = false) :
    ledger.noteAll
      ((m.settle station ins).2.takeWhile Happening.isTellable) = ledger := by
  cases hform : ins.opcode.form with
  | branch =>
      obtain ⟨happening, hlog, -⟩ := m.redirect_log station ins
      simp only [Machine.settle, hform, hlog] at h ⊢
      have htellable : happening.isTellable = false := by
        simpa [isTold, Happening.isTellable, Happening.obstacle?,
          Happening.numbers] using h
      rw [List.takeWhile_cons, List.takeWhile_cons, htellable]
      split <;> rfl
  | store | load | immediate | register | bare =>
      simp only [Machine.settle, hform, isTold, List.all_cons, List.all_nil,
        Bool.and_true] at h ⊢
      rw [List.takeWhile_cons, h]
      rfl

theorem noteAll_redirect (ledger : Ledger)
    (h : isTold (m.redirect station ins).2 = true) :
    ledger.noteAll ((Happening.resolved station.name ins ::
      (m.redirect station ins).2).takeWhile Happening.isTellable) =
        ledger.vacate station.name := by
  obtain ⟨happening, hlog, hway⟩ := m.redirect_log station ins
  rw [hlog] at h ⊢
  have htellable : happening.isTellable = true := by simpa [isTold] using h
  have hresolved :
      (Happening.resolved station.name ins).isTellable = true := by
    simp [Happening.isTellable, Happening.obstacle?, Happening.numbers]
  rw [List.takeWhile_cons, if_pos hresolved, List.takeWhile_cons,
    if_pos htellable]
  rcases hway with ⟨_, _, _, _, rfl⟩ | ⟨_, _, rfl⟩ | ⟨_, _, rfl⟩ <;> rfl

theorem noteAll_publish (ledger : Ledger) {value : Int} {happening : Happening}
    (hhappening : happening = .loaded station.name value station.address ∨
      happening = .computed station.name value)
    (htold : isTold [happening] = true) :
    ledger.noteAll ((happening ::
      (m.publish station.name ins value).2).takeWhile
        Happening.isTellable) = ledger.publish station.name value := by
  have htellable : happening.isTellable = true := by
    simpa [isTold] using htold
  rw [List.takeWhile_cons, if_pos htellable, noteAll_cons]
  have hnote : ledger.note happening = ledger.publish station.name value := by
    rcases hhappening with rfl | rfl <;> rfl
  rw [hnote]
  exact noteAll_received _ station.name value _

end Ledger

namespace Machine

/-- What write-back means for the stations, the registers and the ledger. -/
inductive BusEffect (m : Machine) (ledger : Ledger) (m' : Machine) :
    Ledger → Prop where
  /-- No instruction is over. -/
  | none (hbank : m'.bank = m.bank) (hregisters : m'.registers = m.registers) :
      BusEffect m ledger m' ledger
  /-- An instruction that defines nothing is over. -/
  | vacated {station : Station} {ins : Instruction}
      (hgranted : m.bank.granted? = some station)
      (hins : station.instruction? = some ins) (htarget : ins.target? = none)
      (hbank : m'.bank = m.released.bank)
      (hregisters : m'.registers = m.registers) :
      BusEffect m ledger m' (ledger.vacate station.name)
  /-- An instruction has published its value and is over. -/
  | published {station : Station} {ins : Instruction} {value : Int}
      (hgranted : m.bank.granted? = some station)
      (hins : station.instruction? = some ins)
      (hvalue : m.product? station ins = some value)
      (heq : m' = (m.released.publish station.name ins value).1) :
      BusEffect m ledger m' (ledger.publish station.name value)

theorem target?_eq_none_of_form {ins : Instruction}
    (hform : ins.opcode.form = .store ∨ ins.opcode.form = .branch) :
    ins.target? = none := by
  rcases hform with hform | hform <;>
    simp [Instruction.target?, Opcode.definesDestination, Opcode.isLoad,
      Opcode.isImmediate, Opcode.isRegister, hform]

theorem WritesBack.busEffect {m m' : Machine} {log : List Happening}
    (hphase : m.WritesBack m' log) (ledger : Ledger) :
    m.BusEffect ledger m'
      (ledger.noteAll (log.takeWhile Happening.isTellable)) := by
  cases hphase with
  | idle => exact .none rfl rfl
  | empty => exact .none rfl rfl
  | @broken station ins hgranted hins huntold =>
      obtain ⟨cache, queue, issuedCount, heq⟩ := settle_eq m station ins
      rw [ledger.noteAll_settle_of_untold huntold]
      exact .none (by rw [heq]) (by rw [heq])
  | @stored station ins hgranted hins hform htold =>
      rw [takeWhile_isTellable_of_isTold htold]
      exact .vacated hgranted hins (target?_eq_none_of_form (.inl hform)) rfl
        rfl
  | @branched station ins hgranted hins hform htold =>
      obtain ⟨queue, issuedCount, heq⟩ := redirect_eq m station ins
      rw [ledger.noteAll_redirect htold]
      exact .vacated hgranted hins (target?_eq_none_of_form (.inr hform))
        (by rw [heq]; rfl) (by rw [heq]; rfl)
  | published hgranted hins hvalue hhappening htold =>
      rw [ledger.noteAll_publish hhappening htold]
      exact .published hgranted hins hvalue rfl

section Ledgers

variable {m m' : Machine} {ledger ledger' : Ledger} {log : List Happening}
  {name : String} {number : Nat}

theorem BusEffect.issues_eq (h : m.BusEffect ledger m' ledger') :
    ledger'.issues = ledger.issues := by
  cases h <;> rfl

theorem BusEffect.seat? (h : m.BusEffect ledger m' ledger')
    (hseat : ledger'.seat? name = some number) :
    ledger.seat? name = some number := by
  cases h with
  | none => exact hseat
  | vacated =>
      rw [Ledger.seat?_vacate] at hseat
      split at hseat
      · contradiction
      · exact hseat
  | published =>
      rw [Ledger.seat?_publish] at hseat
      split at hseat
      · contradiction
      · exact hseat

theorem BusEffect.mem_published (h : m.BusEffect ledger m' ledger')
    {entry : Nat × Int} (hmem : entry ∈ ledger.published) :
    entry ∈ ledger'.published := by
  cases h with
  | none => exact hmem
  | vacated => exact hmem
  | published => exact List.mem_append_left _ hmem

theorem Issues.published_eq (h : m.Issues m' log) (ledger : Ledger) :
    (ledger.noteAll log).published = ledger.published := by
  cases h <;> rfl

theorem Issues.length_le (h : m.Issues m' log) (ledger : Ledger) :
    ledger.issues.length ≤ (ledger.noteAll log).issues.length := by
  cases h <;> simp [Ledger.noteAll, Ledger.note, Ledger.issue]

theorem Issues.seat? (h : m.Issues m' log)
    (hlt : number < ledger.issues.length)
    (hseat : (ledger.noteAll log).seat? name = some number) :
    ledger.seat? name = some number := by
  cases h with
  | drained => exact hseat
  | stalled => exact hseat
  | @issued next rest station hqueue hfree =>
      have hnew : (if name = station.name then some ledger.issues.length
          else ledger.seat? name) = some number := hseat
      split at hnew
      · cases hnew
        omega
      · exact hnew

end Ledgers

end Machine

/-! ## Tags and pending operands -/

theorem Operand.receive_eq_pending {operand : Operand} {tag other : String}
    {value : Int} (h : operand.receive tag value = .pending other) :
    operand = .pending other ∧ other ≠ tag := by
  unfold Operand.receive at h
  split at h
  · contradiction
  · next hne =>
      refine ⟨h, ?_⟩
      rintro rfl
      exact hne h

theorem Station.operand_listen {station : Station} (hbusy : station.busy = true)
    (tag : String) (value : Int) (slot : Slot) :
    (station.listen tag value).operand slot =
      (station.operand slot).receive tag value := by
  rw [Station.listen, if_pos hbusy, Station.operand_receive]

@[simp] theorem Station.busy_listen (tag : String) (value : Int)
    (station : Station) : (station.listen tag value).busy = station.busy := by
  unfold Station.listen
  split <;> simp

@[simp] theorem Station.instruction?_listen (tag : String) (value : Int)
    (station : Station) :
    (station.listen tag value).instruction? = station.instruction? := by
  unfold Station.listen Station.instruction?
  split <;> simp

namespace RegisterFile

@[simp] theorem tags_write (file : RegisterFile) (name : String) (value : Int) :
    (file.write name value).tags = file.tags := by
  unfold write
  split <;> rfl

theorem tags_clearTag (file : RegisterFile) (name station other : String) :
    (file.clearTag name station).tags.get? other =
      if other = name ∧ file.tags.get? other = some station then none
      else file.tags.get? other := by
  unfold clearTag
  split
  · next howner =>
      rw [Directory.get?_erase]
      split <;> simp_all
  · next howner =>
      split
      · next hboth => exact absurd (hboth.1 ▸ hboth.2) howner
      · rfl

theorem tags_setTag (file : RegisterFile) (name station other : String) :
    (file.setTag name station).tags.get? other =
      if other = name ∧ other ≠ zeroRegister then some station
      else file.tags.get? other := by
  unfold setTag
  split
  · next hzero => simp_all
  · rw [Directory.get?_put]
    split <;> simp_all

theorem operand_eq_pending {file : RegisterFile} {source : Option String}
    {tag : String} (h : file.operand source = .pending tag) :
    ∃ register, source = some register ∧ register ≠ zeroRegister ∧
      file.tags.get? register = some tag := by
  unfold operand at h
  split at h
  · contradiction
  · next register =>
      split at h
      · next found htag =>
          cases h
          unfold tag? at htag
          split at htag
          · contradiction
          · next hne => exact ⟨register, rfl, hne, htag⟩
      · contradiction

end RegisterFile

theorem Machine.operand_occupied_eq_pending {m : Machine} {station : Station}
    {next : Stamped} {slot : Slot} {tag : String}
    (h : (m.occupied station next).operand slot = .pending tag) :
    ∃ register, next.instruction.source? slot = some register ∧
      register ≠ zeroRegister ∧ m.registers.tags.get? register = some tag := by
  cases slot with
  | first => exact RegisterFile.operand_eq_pending h
  | second =>
      have hsecond : m.registers.secondOperand next.instruction =
          .pending tag := h
      cases hform : next.instruction.opcode.form with
      | load | immediate => simp [RegisterFile.secondOperand, hform] at hsecond
      | store | register | branch | bare =>
          simp only [RegisterFile.secondOperand, hform] at hsecond
          simpa [Instruction.source?, hform] using
            RegisterFile.operand_eq_pending hsecond

/-! ## Agreement -/

namespace Machine

/-- The machine is as the ledger says. -/
structure Agrees (m : Machine) (ledger : Ledger) : Prop where
  sound : m.Sound
  /-- A station at work works on an issue. -/
  seated : ∀ {name station}, m.bank.station? name = some station →
    station.busy = true → ∃ number, ledger.seat? name = some number
  /-- A seated issue is worked on at its station. -/
  occupied : ∀ {name number}, ledger.seat? name = some number →
    ∃ station ins, m.bank.station? name = some station ∧
      station.busy = true ∧ station.instruction? = some ins ∧
      ledger.issues[number]? = some ⟨name, ins⟩
  /-- A register is tagged by its last definer while that is seated. -/
  tags : ∀ register name, m.registers.tags.get? register = some name ↔
    register ≠ zeroRegister ∧ ∃ number, ledger.definer? register = some number ∧
      ledger.seat? name = some number
  /-- A pending operand names the seat of the last definer before its issue. -/
  operands : ∀ {name station number slot tag},
    m.bank.station? name = some station → ledger.seat? name = some number →
    station.operand slot = .pending tag →
    ∃ ins register producer, station.instruction? = some ins ∧
      ins.source? slot = some register ∧ register ≠ zeroRegister ∧
      ledger.definerBefore? register number = some producer ∧
      ledger.seat? tag = some producer
  /-- What is published was issued and is over. -/
  unseated : ∀ {number value}, (number, value) ∈ ledger.published →
    number < ledger.issues.length ∧ ∀ name, ledger.seat? name ≠ some number
  /-- Nothing is published twice. -/
  published_once : (ledger.published.map (·.1)).Nodup
  /-- A definer is seated until it has published. -/
  settled : ∀ {number register}, ledger.target? number = some register →
    (∃ name, ledger.seat? name = some number) ∨
      ∃ value, (number, value) ∈ ledger.published

variable {m m' : Machine} {ledger : Ledger} {station : Station}
  {ins : Instruction}

theorem Agrees.number_lt (h : m.Agrees ledger) {name : String} {number : Nat}
    (hseat : ledger.seat? name = some number) :
    number < ledger.issues.length := by
  obtain ⟨_, _, -, -, -, hissue⟩ := h.occupied hseat
  exact (List.getElem?_eq_some_iff.mp hissue).1

theorem Agrees.seat_injective (h : m.Agrees ledger) {name other : String}
    {number : Nat} (hname : ledger.seat? name = some number)
    (hother : ledger.seat? other = some number) : name = other := by
  obtain ⟨_, _, -, -, -, hissue⟩ := h.occupied hname
  obtain ⟨_, _, -, -, -, hissue'⟩ := h.occupied hother
  rw [hissue] at hissue'
  cases hissue'
  rfl

theorem Agrees.seated_granted (h : m.Agrees ledger)
    (hgranted : m.bank.granted? = some station) :
    ∃ number, ledger.seat? station.name = some number :=
  h.seated (station?_granted h.sound.distinct hgranted)
    (mem_of_granted? hgranted).2.1

theorem Agrees.target?_eq (h : m.Agrees ledger) {name : String} {number : Nat}
    (hstation : m.bank.station? name = some station)
    (hseat : ledger.seat? name = some number)
    (hins : station.instruction? = some ins) :
    ledger.target? number = ins.target? := by
  obtain ⟨other, held, hother, -, hheld, hissue⟩ := h.occupied hseat
  rw [hstation] at hother
  cases hother
  rw [hins] at hheld
  cases hheld
  simp [Ledger.target?, hissue]

theorem Agrees.busy_of_seat? (h : m.Agrees ledger) {name : String}
    {number : Nat} (hseat : ledger.seat? name = some number)
    (hstation : m.bank.station? name = some station) : station.busy = true := by
  obtain ⟨other, _, hother, hbusy, -, -⟩ := h.occupied hseat
  rw [hstation] at hother
  cases hother
  exact hbusy

theorem Agrees.seat?_eq_none (h : m.Agrees ledger) {name : String}
    (hstation : m.bank.station? name = some station)
    (hfree : station.busy = false) : ledger.seat? name = none := by
  cases hseat : ledger.seat? name with
  | none => rfl
  | some number =>
      obtain ⟨other, _, hother, hbusy, -, -⟩ := h.occupied hseat
      rw [hstation] at hother
      cases hother
      rw [hfree] at hbusy
      contradiction

/-- When a station becomes free, its issue is over. -/
theorem Agrees.isOver_leave (h : m.Agrees ledger) {ledger' : Ledger}
    {name : String} {number other : Nat}
    (hseat : ledger.seat? name = some number)
    (hissues : ledger'.issues = ledger.issues)
    (hseats : ∀ tag, ledger'.seat? tag =
      if tag = name then none else ledger.seat? tag) :
    ledger'.IsOver other ↔ other = number ∨ ledger.IsOver other := by
  rw [Ledger.IsOver, Ledger.IsOver, hissues]
  simp only [hseats]
  constructor
  · rintro ⟨hlt, hnone⟩
    by_cases hsame : other = number
    · exact .inl hsame
    · refine .inr ⟨hlt, fun tag htag => ?_⟩
      have hkept := hnone tag
      split at hkept
      · next hname =>
          rw [hname, hseat] at htag
          cases htag
          exact hsame rfl
      · exact hkept htag
  · rintro (rfl | ⟨hlt, hnone⟩)
    · refine ⟨h.number_lt hseat, fun tag => ?_⟩
      split
      · simp
      · next hne => exact fun htag => hne (h.seat_injective htag hseat)
    · refine ⟨hlt, fun tag => ?_⟩
      split
      · simp
      · exact hnone tag

/-! ## Nothing but progress -/

/-- Agreement is about the stations' instructions and operands and about the
tags. -/
theorem Agrees.of_sameWork (h : m.Agrees ledger) (hsound : m'.Sound)
    (hforth : ∀ {name station}, m.bank.station? name = some station →
      ∃ other, m'.bank.station? name = some other ∧ station.SameWork other)
    (hback : ∀ {name other}, m'.bank.station? name = some other →
      ∃ station, m.bank.station? name = some station ∧ station.SameWork other)
    (htags : m'.registers.tags = m.registers.tags) : m'.Agrees ledger where
  sound := hsound
  seated := by
    intro name other hother hbusy
    obtain ⟨station, hstation, hwork⟩ := hback hother
    exact h.seated hstation (hwork.busy ▸ hbusy)
  occupied := by
    intro name number hseat
    obtain ⟨station, ins, hstation, hbusy, hins, hissue⟩ := h.occupied hseat
    obtain ⟨other, hother, hwork⟩ := hforth hstation
    exact ⟨other, ins, hother, hwork.busy.trans hbusy,
      hwork.instruction?.trans hins, hissue⟩
  tags := by
    rw [htags]
    exact h.tags
  operands := by
    intro name other number slot tag hother hseat hpending
    obtain ⟨station, hstation, hwork⟩ := hback hother
    rw [hwork.operand] at hpending
    rw [hwork.instruction?]
    exact h.operands hstation hseat hpending
  unseated := h.unseated
  published_once := h.published_once
  settled := h.settled

theorem Agrees.of_bank_eq (h : m.Agrees ledger) (hbank : m'.bank = m.bank)
    (htags : m'.registers.tags = m.registers.tags) : m'.Agrees ledger := by
  refine h.of_sameWork (h.sound.of_bank_eq hbank) ?_ ?_ htags
  · intro name station hstation
    exact ⟨station, hbank ▸ hstation, .refl station⟩
  · intro name station hstation
    exact ⟨station, hbank ▸ hstation, .refl station⟩

theorem Agrees.begin (h : m.Agrees ledger) : m.begin.Agrees ledger := by
  refine h.of_sameWork h.sound.begin ?_ ?_ rfl
  · intro name station hstation
    rw [station?_begin, hstation]
    exact ⟨_, rfl, Station.sameWork_endPause station⟩
  · intro name other hother
    rw [station?_begin] at hother
    obtain ⟨station, hstation, rfl⟩ := Option.map_eq_some_iff.mp hother
    exact ⟨station, hstation, Station.sameWork_endPause station⟩

theorem Agrees.execute (h : m.Agrees ledger) : m.execute.1.Agrees ledger := by
  refine h.of_sameWork h.sound.execute ?_ ?_ rfl
  · intro name station hstation
    obtain ⟨other, hother, hstep⟩ := exists_stepped_execute hstation
    exact ⟨other, hother, hstep.sameWork⟩
  · intro name other hother
    obtain ⟨station, hstation, hstep⟩ := exists_stepped_of_execute hother
    exact ⟨station, hstation, hstep.sameWork⟩

/-! ## A station becomes free -/

/-- The last definer of a register is not the issue at a station whose
instruction defines nothing. -/
theorem Agrees.ne_of_target?_eq_none (h : m.Agrees ledger)
    (hstation : m.bank.station? station.name = some station)
    (hins : station.instruction? = some ins) (htarget : ins.target? = none)
    {register tag : String} {bound number : Nat}
    (hdefiner : ledger.definerBefore? register bound = some number)
    (hseat : ledger.seat? tag = some number) : tag ≠ station.name := by
  rintro rfl
  have hdefines := (Ledger.definerBefore?_eq_some hdefiner).2
  rw [h.target?_eq hstation hseat hins, htarget] at hdefines
  contradiction

/-- Agreement when one station becomes free, whose issue nothing waits for any
more. -/
theorem Agrees.leave (h : m.Agrees ledger) {ledger' : Ledger}
    (change : Station → Station) (hsound : m'.Sound)
    (hbank : ∀ name, m'.bank.station? name =
      if name = station.name then some station.release
      else (m.bank.station? name).map change)
    (hbusy : ∀ other, (change other).busy = other.busy)
    (hheld : ∀ other, (change other).instruction? = other.instruction?)
    (hoperands : ∀ {name other number slot tag},
      m.bank.station? name = some other → other.busy = true →
      ledger.seat? name = some number →
      (change other).operand slot = .pending tag →
      other.operand slot = .pending tag ∧ tag ≠ station.name)
    (htags : ∀ register name, m'.registers.tags.get? register = some name ↔
      m.registers.tags.get? register = some name ∧ name ≠ station.name)
    (hissues : ledger'.issues = ledger.issues)
    (hseat : ∀ name, ledger'.seat? name =
      if name = station.name then none else ledger.seat? name)
    (hunseated : ∀ {number value}, (number, value) ∈ ledger'.published →
      number < ledger.issues.length ∧ ∀ name, ledger'.seat? name ≠ some number)
    (honce : (ledger'.published.map (·.1)).Nodup)
    (hsettled : ∀ {number register}, ledger.target? number = some register →
      (∃ name, ledger'.seat? name = some number) ∨
        ∃ value, (number, value) ∈ ledger'.published) : m'.Agrees ledger' := by
  have hkept : ∀ {name number}, ledger'.seat? name = some number →
      name ≠ station.name ∧ ledger.seat? name = some number := by
    intro name number hnumber
    rw [hseat] at hnumber
    split at hnumber
    · contradiction
    · next hne => exact ⟨hne, hnumber⟩
  refine ⟨hsound, ?_, ?_, ?_, ?_, ?_, honce, ?_⟩
  · intro name other hother hworks
    rw [hbank] at hother
    split at hother
    · cases hother
      simp [Station.release] at hworks
    · next hne =>
        obtain ⟨before, hbefore, rfl⟩ := Option.map_eq_some_iff.mp hother
        rw [hseat, if_neg hne]
        exact h.seated hbefore (hbusy before ▸ hworks)
  · intro name number hnumber
    obtain ⟨hne, hbefore⟩ := hkept hnumber
    obtain ⟨other, ins, hother, hworks, hins, hissue⟩ := h.occupied hbefore
    refine ⟨change other, ins, ?_, ?_, ?_, ?_⟩
    · rw [hbank, if_neg hne, hother]
      rfl
    · rw [hbusy, hworks]
    · rw [hheld, hins]
    · rw [hissues, hissue]
  · intro register name
    rw [htags, h.tags]
    simp only [hseat, Ledger.definer?_of_issues_eq hissues]
    constructor
    · rintro ⟨⟨hne, number, hdefiner, hnumber⟩, hname⟩
      exact ⟨hne, number, hdefiner, by rw [if_neg hname, hnumber]⟩
    · rintro ⟨hne, number, hdefiner, hnumber⟩
      split at hnumber
      · contradiction
      · next hname => exact ⟨⟨hne, number, hdefiner, hnumber⟩, hname⟩
  · intro name other number slot tag hother hnumber hpending
    obtain ⟨hne, hbefore⟩ := hkept hnumber
    rw [hbank, if_neg hne] at hother
    obtain ⟨before, hstation, rfl⟩ := Option.map_eq_some_iff.mp hother
    obtain ⟨_, _, hsame, hworks, -, -⟩ := h.occupied hbefore
    rw [hstation] at hsame
    cases hsame
    obtain ⟨hold, htag⟩ := hoperands hstation hworks hbefore hpending
    obtain ⟨ins, register, producer, hins, hsource, hregister, hdefiner,
      hproducer⟩ := h.operands hstation hbefore hold
    refine ⟨ins, register, producer, ?_, hsource, hregister, ?_, ?_⟩
    · rw [hheld, hins]
    · rw [Ledger.definerBefore?_of_issues_eq hissues, hdefiner]
    · rw [hseat, if_neg htag, hproducer]
  · intro number value hmem
    rw [hissues]
    exact hunseated hmem
  · intro number register htarget
    apply hsettled
    rw [← htarget, Ledger.target?, Ledger.target?, hissues]

/-- Agreement when an instruction that defines nothing is over. -/
theorem Agrees.vacate (h : m.Agrees ledger)
    (hgranted : m.bank.granted? = some station)
    (hins : station.instruction? = some ins) (htarget : ins.target? = none) :
    m.released.Agrees (ledger.vacate station.name) := by
  have hstation := station?_granted h.sound.distinct hgranted
  refine h.leave id (h.sound.released hgranted) ?_ (fun _ => rfl)
    (fun _ => rfl) ?_ ?_ rfl (fun _ => rfl) ?_ h.published_once ?_
  · intro name
    rw [station?_released h.sound.distinct hgranted, Option.map_id, id]
  · intro name other number slot tag hother _ hseat hpending
    obtain ⟨_, _, _, -, -, -, hdefiner, hproducer⟩ :=
      h.operands hother hseat hpending
    exact ⟨hpending,
      h.ne_of_target?_eq_none hstation hins htarget hdefiner hproducer⟩
  · intro register name
    constructor
    · intro htag
      obtain ⟨-, _, hdefiner, hseat⟩ := (h.tags register name).mp htag
      exact ⟨htag,
        h.ne_of_target?_eq_none hstation hins htarget hdefiner hseat⟩
    · exact fun htag => htag.1
  · intro number value hmem
    obtain ⟨hlt, hnone⟩ := h.unseated hmem
    refine ⟨hlt, fun name => ?_⟩
    rw [Ledger.seat?_vacate]
    split
    · simp
    · exact hnone name
  · intro number register hdefines
    rcases h.settled hdefines with ⟨name, hseat⟩ | hpublished
    · refine .inl ⟨name, ?_⟩
      have hne : name ≠ station.name := by
        rintro rfl
        rw [h.target?_eq hstation hseat hins, htarget] at hdefines
        contradiction
      rw [Ledger.seat?_vacate, if_neg hne, hseat]
    · exact .inr hpublished

theorem registers_publish (m : Machine) (tag : String) {ins : Instruction}
    {target : String} (htarget : ins.target? = some target) (value : Int) :
    (m.publish tag ins value).1.registers =
      (m.registers.write target value).clearTag target tag := by
  simp only [publish, htarget]

theorem registers_publish_of_none (m : Machine) (tag : String)
    {ins : Instruction} (htarget : ins.target? = none) (value : Int) :
    (m.publish tag ins value).1.registers = m.registers := by
  simp only [publish, htarget]

theorem tags_publish (m : Machine) (tag : String) (ins : Instruction)
    (value : Int) (register : String) :
    (m.released.publish tag ins value).1.registers.tags.get? register =
      if ins.target? = some register ∧ m.registers.tags.get? register = some tag
      then none else m.registers.tags.get? register := by
  cases htarget : ins.target? with
  | none =>
      rw [registers_publish_of_none _ _ htarget, if_neg (by simp)]
      rfl
  | some target =>
      rw [registers_publish _ _ htarget, RegisterFile.tags_clearTag,
        RegisterFile.tags_write]
      simp only [Option.some.injEq, eq_comm]
      rfl

theorem Agrees.tags_publish_iff (h : m.Agrees ledger)
    (hgranted : m.bank.granted? = some station)
    (hins : station.instruction? = some ins) (value : Int)
    (register name : String) :
    (m.released.publish station.name ins value).1.registers.tags.get? register =
        some name ↔
      m.registers.tags.get? register = some name ∧ name ≠ station.name := by
  have hstation := station?_granted h.sound.distinct hgranted
  have howner : m.registers.tags.get? register = some station.name →
      ins.target? = some register := by
    intro htag
    obtain ⟨-, number, hdefiner, hseat⟩ :=
      (h.tags register station.name).mp htag
    rw [← h.target?_eq hstation hseat hins]
    exact (Ledger.definerBefore?_eq_some hdefiner).2
  rw [tags_publish]
  constructor
  · intro htag
    split at htag
    · contradiction
    · next hkept =>
        refine ⟨htag, ?_⟩
        rintro rfl
        exact hkept ⟨howner htag, htag⟩
  · rintro ⟨htag, hne⟩
    rw [if_neg, htag]
    rintro ⟨-, hsame⟩
    rw [htag] at hsame
    cases hsame
    exact hne rfl

theorem Agrees.unseated_publish (h : m.Agrees ledger) {issue : Nat}
    (hissue : ledger.seat? station.name = some issue) {value : Int}
    {number : Nat} {published : Int}
    (hmem : (number, published) ∈
      (ledger.publish station.name value).published) :
    number < ledger.issues.length ∧
      ∀ name, (ledger.publish station.name value).seat? name ≠ some number := by
  rw [Ledger.published_publish hissue, List.mem_append,
    List.mem_singleton] at hmem
  rcases hmem with hold | hnew
  · obtain ⟨hlt, hnone⟩ := h.unseated hold
    refine ⟨hlt, fun name => ?_⟩
    rw [Ledger.seat?_publish]
    split
    · simp
    · exact hnone name
  · cases hnew
    refine ⟨h.number_lt hissue, fun name => ?_⟩
    rw [Ledger.seat?_publish]
    split
    · simp
    · next hne => exact fun hseat => hne (h.seat_injective hseat hissue)

theorem Agrees.published_once_publish (h : m.Agrees ledger) {issue : Nat}
    (hissue : ledger.seat? station.name = some issue) (value : Int) :
    ((ledger.publish station.name value).published.map (·.1)).Nodup := by
  rw [Ledger.published_publish hissue, List.map_append, List.nodup_append]
  refine ⟨h.published_once, by simp, ?_⟩
  intro number hnumber other hother heq
  obtain ⟨⟨number', value'⟩, hmem, rfl⟩ := List.mem_map.mp hnumber
  simp only [List.map_cons, List.map_nil, List.mem_singleton] at hother
  have hsame : number' = issue := heq.trans hother
  exact (h.unseated hmem).2 station.name (hsame ▸ hissue)

/-- Agreement when an instruction has published its value. -/
theorem Agrees.publish (h : m.Agrees ledger)
    (hgranted : m.bank.granted? = some station)
    (hins : station.instruction? = some ins) (value : Int) :
    (m.released.publish station.name ins value).1.Agrees
      (ledger.publish station.name value) := by
  obtain ⟨issue, hissue⟩ := h.seated_granted hgranted
  refine h.leave (Station.listen station.name value)
    (h.sound.publish hgranted station.name value)
    (station?_publish h.sound.distinct hgranted station.name value)
    (Station.busy_listen station.name value)
    (Station.instruction?_listen station.name value) ?_
    (h.tags_publish_iff hgranted hins value) rfl
    (ledger.seat?_publish station.name value) (h.unseated_publish hissue)
    (h.published_once_publish hissue value) ?_
  · intro name other number slot tag _ hbusy _ hpending
    rw [Station.operand_listen hbusy] at hpending
    exact Operand.receive_eq_pending hpending
  · intro number register hdefines
    rw [Ledger.published_publish hissue]
    rcases h.settled hdefines with ⟨name, hseat⟩ | ⟨old, hmem⟩
    · by_cases hname : name = station.name
      · rw [hname, hissue] at hseat
        cases hseat
        exact .inr ⟨value, by simp⟩
      · refine .inl ⟨name, ?_⟩
        rw [Ledger.seat?_publish, if_neg hname, hseat]
    · exact .inr ⟨old, List.mem_append_left _ hmem⟩

/-! ## A station becomes busy -/

section Issue

variable {next : Stamped}

theorem Agrees.seat?_issue (h : m.Agrees ledger)
    (hfree : m.bank.free? next.instruction.opcode.pool = some station)
    {name : String} {number : Nat} (hseat : ledger.seat? name = some number) :
    (ledger.issue station.name next.instruction).seat? name = some number := by
  have hne : name ≠ station.name := by
    rintro rfl
    rw [h.seat?_eq_none (station?_free h.sound.distinct hfree)
      (mem_of_free? hfree).2.2] at hseat
    contradiction
  rw [Ledger.seat?_issue, if_neg hne, hseat]

theorem Agrees.tags_issued (h : m.Agrees ledger)
    (hfree : m.bank.free? next.instruction.opcode.pool = some station)
    (hregisters : m'.registers = match next.instruction.target? with
      | some register => m.registers.setTag register station.name
      | none => m.registers) (register name : String) :
    m'.registers.tags.get? register = some name ↔
      register ≠ zeroRegister ∧ ∃ number,
        (ledger.issue station.name next.instruction).definer? register =
          some number ∧
        (ledger.issue station.name next.instruction).seat? name =
          some number := by
  have htags : m'.registers.tags.get? register =
      if next.instruction.target? = some register ∧ register ≠ zeroRegister
      then some station.name else m.registers.tags.get? register := by
    rw [hregisters]
    cases next.instruction.target? with
    | none => simp
    | some target =>
        dsimp only
        rw [RegisterFile.tags_setTag]
        simp only [Option.some.injEq, eq_comm]
  rw [htags, Ledger.definer?_issue]
  by_cases htarget : next.instruction.target? = some register
  · by_cases hzero : register = zeroRegister
    · simp [htarget, hzero, h.tags]
    · simp only [htarget, hzero, ne_eq, not_false_eq_true, and_self, if_true,
        Option.some.injEq, true_and, exists_eq_left', Ledger.seat?_issue]
      constructor
      · rintro rfl
        simp
      · intro hname
        split at hname
        · next heq => exact heq.symm
        · exact absurd (h.number_lt hname) (Nat.lt_irrefl _)
  · simp only [htarget, false_and, if_false, h.tags]
    constructor
    · rintro ⟨hne, number, hdefiner, hnumber⟩
      exact ⟨hne, number, hdefiner, h.seat?_issue hfree hnumber⟩
    · rintro ⟨hne, number, hdefiner, hnumber⟩
      refine ⟨hne, number, hdefiner, ?_⟩
      have hlt := (Ledger.definerBefore?_eq_some hdefiner).1
      rw [Ledger.seat?_issue] at hnumber
      split at hnumber
      · cases hnumber
        omega
      · exact hnumber

theorem Agrees.operands_issued (h : m.Agrees ledger)
    (hfree : m.bank.free? next.instruction.opcode.pool = some station)
    {slot : Slot} {tag : String}
    (hpending : (m.occupied station next).operand slot = .pending tag) :
    ∃ register producer, next.instruction.source? slot = some register ∧
      register ≠ zeroRegister ∧
      (ledger.issue station.name next.instruction).definerBefore? register
        ledger.issues.length = some producer ∧
      (ledger.issue station.name next.instruction).seat? tag =
        some producer := by
  obtain ⟨register, hsource, hregister, htag⟩ :=
    operand_occupied_eq_pending hpending
  obtain ⟨-, producer, hdefiner, hproducer⟩ := (h.tags register tag).mp htag
  refine ⟨register, producer, hsource, hregister, ?_,
    h.seat?_issue hfree hproducer⟩
  rw [Ledger.definerBefore?_issue (Nat.le_refl _)]
  exact hdefiner

/-- Agreement when the next instruction was issued. -/
theorem Agrees.issued (h : m.Agrees ledger)
    (hfree : m.bank.free? next.instruction.opcode.pool = some station)
    (hregisters : m'.registers = match next.instruction.target? with
      | some register => m.registers.setTag register station.name
      | none => m.registers)
    (hbank : m'.bank = m.bank.changeFirst
      (·.isFreeIn next.instruction.opcode.pool) (m.occupied · next))
    (hsound : m'.Sound) :
    m'.Agrees (ledger.issue station.name next.instruction) := by
  have hlookup : ∀ name, m'.bank.station? name =
      if name = station.name then some (m.occupied station next)
      else m.bank.station? name := by
    intro name
    rw [hbank]
    exact station?_occupied h.sound.distinct hfree next name
  refine ⟨hsound, ?_, ?_, h.tags_issued hfree hregisters, ?_, ?_,
    h.published_once, ?_⟩
  · intro name other hother hbusy
    rw [hlookup] at hother
    split at hother
    · next heq => exact ⟨_, by rw [Ledger.seat?_issue, if_pos heq]⟩
    · obtain ⟨number, hnumber⟩ := h.seated hother hbusy
      exact ⟨number, h.seat?_issue hfree hnumber⟩
  · intro name number hnumber
    rw [Ledger.seat?_issue] at hnumber
    rw [hlookup]
    split at hnumber
    · next heq =>
        cases hnumber
        rw [if_pos heq]
        exact ⟨_, next.instruction, rfl, rfl, rfl, by simp [Ledger.issue, heq]⟩
    · next hne =>
        rw [if_neg hne, Ledger.issue,
          List.getElem?_append_left (h.number_lt hnumber)]
        exact h.occupied hnumber
  · intro name other number slot tag hother hnumber hpending
    rw [hlookup] at hother
    rw [Ledger.seat?_issue] at hnumber
    split at hother
    · next heq =>
        cases hother
        rw [if_pos heq] at hnumber
        cases hnumber
        obtain ⟨register, producer, hnew⟩ := h.operands_issued hfree hpending
        exact ⟨next.instruction, register, producer, rfl, hnew⟩
    · next hne =>
        rw [if_neg hne] at hnumber
        obtain ⟨ins, register, producer, hins, hsource, hregister, hdefiner,
          hproducer⟩ := h.operands hother hnumber hpending
        refine ⟨ins, register, producer, hins, hsource, hregister, ?_,
          h.seat?_issue hfree hproducer⟩
        rw [Ledger.definerBefore?_issue (Nat.le_of_lt (h.number_lt hnumber))]
        exact hdefiner
  · intro number value hmem
    obtain ⟨hlt, hnone⟩ := h.unseated hmem
    refine ⟨by rw [Ledger.length_issue]; omega, fun name => ?_⟩
    rw [Ledger.seat?_issue]
    split
    · intro heq
      cases heq
      omega
    · exact hnone name
  · intro number register hdefines
    rw [Ledger.target?_issue] at hdefines
    split at hdefines
    · next heq =>
        exact .inl ⟨station.name, by rw [Ledger.seat?_issue, if_pos rfl, heq]⟩
    · rcases h.settled hdefines with ⟨name, hnumber⟩ | hpublished
      · exact .inl ⟨name, h.seat?_issue hfree hnumber⟩
      · exact .inr hpublished

end Issue

/-! ## Agreement along a run -/

theorem Agrees.busEffect {ledger' : Ledger} (h : m.Agrees ledger)
    (heffect : m.BusEffect ledger m' ledger') : m'.Agrees ledger' := by
  cases heffect with
  | none hbank hregisters => exact h.of_bank_eq hbank (by rw [hregisters])
  | vacated hgranted hins htarget hbank hregisters =>
      exact (h.vacate hgranted hins htarget).of_bank_eq hbank
        (by rw [hregisters]; rfl)
  | published hgranted hins _ heq =>
      rw [heq]
      exact h.publish hgranted hins _

theorem Agrees.writesBack {log : List Happening} (h : m.Agrees ledger)
    (hphase : m.WritesBack m' log) :
    m'.Agrees (ledger.noteAll (log.takeWhile Happening.isTellable)) :=
  h.busEffect (hphase.busEffect ledger)

theorem Agrees.issues {log : List Happening} (h : m.Agrees ledger)
    (hphase : m.Issues m' log) : m'.Agrees (ledger.noteAll log) := by
  have hsound := h.sound.issues hphase
  cases hphase with
  | drained => exact h
  | stalled => exact h
  | issued _ hfree => exact h.issued hfree rfl rfl hsound

theorem Agrees.advance (h : m.Agrees ledger) :
    m.advance.1.Agrees (ledger.afterCycle m) :=
  advance_induction (P := Agrees) (Q := Agrees) (fun _ _ h => h.begin)
    (fun _ _ _ _ hphase h => h.writesBack hphase)
    (fun _ _ _ _ hphase h => h.issues hphase) (fun _ _ h => h.execute) h

theorem agrees_create (config : Config) (preload : List (Int × Int)) :
    (create config preload).Agrees {} where
  sound := sound_create config preload
  seated := by
    intro name station hstation hbusy
    rw [Bank.eq_release_of_mem_ofSizes (Bank.mem_of_station? hstation)] at hbusy
    simp [Station.release] at hbusy
  occupied := by simp
  tags := by
    intro register name
    constructor
    · intro htag
      simp [create, RegisterFile.initial] at htag
    · rintro ⟨-, number, hdefiner, -⟩
      simp [Ledger.definer?, Ledger.definerBefore?] at hdefiner
  operands := by simp
  unseated := by simp
  published_once := by simp
  settled := by simp [Ledger.target?]

end Machine

/-- Every machine that a run reaches agrees with the ledger of the run. -/
theorem Simulation.agrees_after {sim : Simulation}
    (h : sim.machine.Agrees sim.ledger) (actions : List Action) :
    (sim.after actions).machine.Agrees (sim.after actions).ledger :=
  after_induction (P := Machine.Agrees) (fun _ _ h => h.advance)
    (fun _ _ _ h => h.of_bank_eq rfl rfl)
    (fun _ _ name value h => h.of_bank_eq rfl
      (RegisterFile.tags_write _ name value))
    (fun _ _ _ _ h => h.of_bank_eq rfl rfl)
    (fun _ _ _ h => h.of_bank_eq rfl rfl) h actions

theorem Simulation.agrees_fresh (config : Config) (preload : List (Int × Int))
    (actions : List Action) :
    ((fresh config preload).after actions).machine.Agrees
      ((fresh config preload).after actions).ledger :=
  agrees_after (Machine.agrees_create config preload) actions

theorem Simulation.agrees_loaded (config : Config) (preload : List (Int × Int))
    (registers : List (String × Int)) (words : List (Int × Int))
    (program : List Instruction) :
    ((prepared config preload registers words).machine.load program).Agrees
      {} := by
  rw [← ledger_prepared config preload registers words]
  exact (agrees_fresh config preload _).of_bank_eq rfl rfl

end OutOfOrder
