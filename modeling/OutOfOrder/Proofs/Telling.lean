import Mathlib.Algebra.Group.Nat.Defs
import OutOfOrder.Proofs.Course
import OutOfOrder.Proofs.LastWrite

/-!
# What can be told

In a sound machine no station is at work without an instruction, so a cycle is
broken off for one reason alone: an integer has too many digits to be written.
The values that a cycle tells are words.  What may be longer are addresses,
destinations of branches and the penalty of a miss, and whether these can be
written is seen from the program and the machine's parameters.
-/

namespace OutOfOrder

/-! ## Happenings -/

namespace Happening

variable {happening : Happening} {P Q : Int → Prop}

/-- The happening is that of a station with an instruction, and its integers have
a property. -/
structure Tells (P : Int → Prop) (happening : Happening) : Prop where
  ne_stuck : ∀ station, happening ≠ .stuck station
  numbers : ∀ number ∈ happening.numbers, P number

theorem Tells.imp (h : happening.Tells P) (himp : ∀ number, P number → Q number) :
    happening.Tells Q :=
  ⟨h.ne_stuck, fun number hmem => himp number (h.numbers number hmem)⟩

theorem Tells.obstacle?_eq (h : happening.Tells P) :
    happening.obstacle? =
      if happening.numbers.all Numeral.isWritable then none
      else some .unwritable := by
  have hstuck := h.ne_stuck
  cases happening with
  | stuck station => exact absurd rfl (hstuck station)
  | _ => rfl

theorem Tells.eq_unwritable (h : happening.Tells P) {obstacle : Obstacle}
    (hobstacle : happening.obstacle? = some obstacle) :
    obstacle = .unwritable := by
  rw [h.obstacle?_eq] at hobstacle
  split at hobstacle
  · contradiction
  · exact (Option.some.inj hobstacle).symm

theorem Tells.isTellable (h : happening.Tells P)
    (hwritable : ∀ number, P number → Numeral.isWritable number = true) :
    happening.isTellable = true := by
  have hall : happening.numbers.all Numeral.isWritable = true :=
    List.all_eq_true.mpr fun number hmem =>
      hwritable number (h.numbers number hmem)
  rw [Happening.isTellable, h.obstacle?_eq, if_pos hall]
  rfl

end Happening

/-! ## Execution -/

namespace Station

variable {station : Station} {ins : Instruction} {port : Port} {cache : Cache}
  {happening : Happening}

/-- The integers that the step of a station tells: the address of its access and
the penalty of a miss. -/
def Says (geometry : Geometry) (station : Station) (number : Int) : Prop :=
  station.busy = true ∧ ∃ ins, station.instruction? = some ins ∧
    ins.opcode.isMemory = true ∧
    (number = station.j.value + ins.constant ∨ number = geometry.missPenalty)

theorem tells_compute (hmem : happening ∈ (station.compute ins).2) :
    happening.Tells fun _ => False := by
  have hcases : happening = .started station.name ins ∨
      happening = .finished station.name ins := by
    unfold compute at hmem
    grind
  rcases hcases with rfl | rfl
  all_goals exact ⟨nofun, fun _ hnone => nomatch hnone⟩

theorem tells_findAddress (hmem : happening ∈ (station.findAddress ins).2) :
    happening.Tells (· = station.j.value + ins.constant) := by
  unfold findAddress at hmem
  split at hmem
  · contradiction
  · rw [List.mem_singleton.mp hmem]
    exact ⟨nofun, by simp [Happening.numbers]⟩

theorem tells_startAccess
    (hmem : happening ∈ (station.startAccess ins cache).2.2) :
    happening.Tells fun number =>
      number = station.address ∨ number = cache.geometry.missPenalty := by
  have hlog : (station.startAccess ins cache).2.2 =
      [if cache.isResident station.address then
          .hit station.name station.address
        else .missed station.name station.address
          (cache.probe station.address).1,
        .started station.name ins] := by
    unfold startAccess
    dsimp only
    split <;> rfl
  rw [hlog] at hmem
  rcases List.mem_cons.mp hmem with rfl | hstarted
  · split
    · exact ⟨by simp, by simp [Happening.numbers]⟩
    · next hmissed =>
        have hpenalty : (cache.probe station.address).1 =
            cache.geometry.missPenalty := by
          rw [Cache.probe, if_neg hmissed]
        exact ⟨by simp, by simp [Happening.numbers, hpenalty]⟩
  · rw [List.mem_singleton.mp hstarted]
    exact ⟨by simp, by simp [Happening.numbers]⟩

theorem tells_continueAccess
    (hmem : happening ∈ (station.continueAccess ins port cache).log) :
    happening.Tells (· = station.address) := by
  have hcases : happening = .finished station.name ins ∨
      happening = .filled station.name station.address := by
    unfold continueAccess usePort awaitBlock at hmem
    grind
  rcases hcases with rfl | rfl
  · exact ⟨nofun, fun _ hnone => nomatch hnone⟩
  · exact ⟨nofun, by simp [Happening.numbers]⟩

theorem address_startAccess (station : Station) (ins : Instruction)
    (cache : Cache) :
    (station.startAccess ins cache).1.address = station.address := by
  unfold startAccess
  dsimp only
  split <;> rfl

theorem tells_access (h : station.Progress ins)
    (hmem : happening ∈ (station.access ins port cache).log) :
    happening.Tells fun number => number = station.j.value + ins.constant ∨
      number = cache.geometry.missPenalty := by
  have hfind : happening ∈ (station.findAddress ins).2 →
      happening.Tells fun number => number = station.j.value + ins.constant ∨
        number = cache.geometry.missPenalty :=
    fun hfound => (tells_findAddress hfound).imp fun _ => .inl
  unfold access at hmem
  dsimp only at hmem
  split at hmem
  · exact hfind hmem
  · next hgoes =>
      have hready : (station.findAddress ins).1.addressReady = true := by
        simp only [Bool.or_eq_true, Bool.not_eq_true', not_or] at hgoes
        have hmay : (station.findAddress ins).1.mayAccess ins = true := by
          simpa using hgoes.2
        simp only [mayAccess, Bool.and_eq_true] at hmay
        exact hmay.1
      have haddress : (station.findAddress ins).1.address =
          station.j.value + ins.constant := by
        rw [(h.findAddress.addressed hready).2,
          (sameWork_findAddress station ins).j]
      split at hmem <;> split at hmem <;>
        simp only [List.append_nil, List.mem_append] at hmem
      · exact hfind hmem
      · rcases hmem with hfound | hrest
        · exact hfind hfound
        · exact (tells_continueAccess hrest).imp fun number heq =>
            .inl (heq.trans haddress)
      · rcases hmem with hfound | hstarted
        · exact hfind hfound
        · exact (tells_startAccess hstarted).imp fun number hnumber =>
            hnumber.imp_left fun heq => heq.trans haddress
      · rcases hmem with (hfound | hstarted) | hrest
        · exact hfind hfound
        · exact (tells_startAccess hstarted).imp fun number hnumber =>
            hnumber.imp_left fun heq => heq.trans haddress
        · exact (tells_continueAccess hrest).imp fun number heq =>
            .inl (heq.trans ((address_startAccess _ ins cache).trans haddress))

theorem tells_execute (h : station.Sound)
    (hmem : happening ∈ (station.execute port cache).log) :
    happening.Tells (station.Says cache.geometry) := by
  have hawake := (isStepOf_of_mem_execute hmem).2
  simp only [rests, Bool.or_eq_false_iff, Bool.not_eq_false'] at hawake
  obtain ⟨⟨hbusy, hpause⟩, hpending⟩ := hawake
  obtain ⟨ins, hins, hprogress⟩ := h.working hbusy
  unfold execute at hmem
  simp only [rests, hbusy, hpause, hpending, hins, Bool.not_true,
    Bool.or_false, Bool.false_eq_true, if_false] at hmem
  split at hmem
  · next hmemory =>
      exact (tells_access hprogress hmem).imp fun number hnumber =>
        ⟨hbusy, ins, hins, hmemory, hnumber⟩
  · exact (tells_compute hmem).imp fun _ => False.elim

end Station

theorem Bank.tells_execute {bank : Bank} {port : Port} {cache : Cache}
    (hsound : ∀ station ∈ bank, station.Sound) {happening : Happening}
    (hmem : happening ∈ (bank.execute port cache).2.2.2) :
    ∃ station ∈ bank, happening.Tells (station.Says cache.geometry) := by
  induction bank generalizing port cache with
  | nil => nomatch hmem
  | cons station rest ih =>
      obtain ⟨hstation, hrest⟩ := List.forall_mem_cons.mp hsound
      have hgeometry : (station.execute port cache).cache.geometry =
          cache.geometry :=
        congrArg Prod.fst (Station.base_execute station port cache)
      cases htold : isTold (station.execute port cache).log with
      | false =>
          rw [execute_cons_of_untold htold] at hmem
          exact ⟨station, List.mem_cons_self,
            Station.tells_execute hstation hmem⟩
      | true =>
          rw [execute_cons_of_told htold] at hmem
          rcases List.mem_append.mp hmem with hfirst | hlater
          · exact ⟨station, List.mem_cons_self,
              Station.tells_execute hstation hfirst⟩
          · obtain ⟨other, hother, htells⟩ := ih hrest hlater
            rw [hgeometry] at htells
            exact ⟨other, List.mem_cons_of_mem _ hother, htells⟩

/-! ## Words -/

theorem RegisterFile.HoldsWords.operand {file : RegisterFile}
    (h : file.HoldsWords) (source : Option String) :
    Word.wrap (file.operand source).value = (file.operand source).value := by
  have hzero : Word.wrap 0 = 0 := by decide
  unfold RegisterFile.operand
  split
  · exact hzero
  · split
    · exact hzero
    · exact h _

theorem RegisterFile.HoldsWords.secondOperand {file : RegisterFile}
    (h : file.HoldsWords) {ins : Instruction}
    (hform : ins.opcode.form ≠ .immediate) :
    Word.wrap (file.secondOperand ins).value =
      (file.secondOperand ins).value := by
  unfold RegisterFile.secondOperand
  split
  · decide
  · next himmediate => exact absurd himmediate hform
  · exact h.operand ins.src2

theorem Operand.wrap_receive {operand : Operand} {value : Int}
    (h : Word.wrap operand.value = operand.value)
    (hvalue : Word.wrap value = value) (tag : String) :
    Word.wrap (operand.receive tag value).value =
      (operand.receive tag value).value := by
  unfold receive
  split
  · exact hvalue
  · exact h

namespace Machine

variable {m m' : Machine} {log : List Happening} {program : List Instruction}

/-- The registers hold words, and so do the operands of instructions that are
not constants. -/
structure HoldsWords (m : Machine) : Prop where
  registers : m.registers.HoldsWords
  operands : ∀ {name station ins}, m.bank.station? name = some station →
    station.busy = true → station.instruction? = some ins →
    ins.opcode.form ≠ .immediate → ∀ slot,
    Word.wrap (station.operand slot).value = (station.operand slot).value

theorem HoldsWords.begin (h : m.HoldsWords) : m.begin.HoldsWords where
  registers := h.registers
  operands := by
    intro name station ins hstation hbusy hins hform slot
    rw [station?_begin] at hstation
    obtain ⟨before, hbefore, rfl⟩ := Option.map_eq_some_iff.mp hstation
    have hwork := Station.sameWork_endPause before
    rw [hwork.operand]
    exact h.operands hbefore (hwork.busy.symm.trans hbusy)
      (hwork.instruction?.symm.trans hins) hform slot

theorem HoldsWords.writesBack (h : m.HoldsWords)
    (hphase : m.WritesBack m' log) (hdistinct : m.bank.Distinct) :
    m'.HoldsWords := by
  obtain ⟨_, heffect⟩ : ∃ ledger, m.BusEffect {} m' ledger :=
    ⟨_, hphase.busEffect {}⟩
  cases heffect with
  | none hbank hregisters =>
      exact ⟨hregisters ▸ h.registers, hbank ▸ h.operands⟩
  | @vacated station _ hgranted _ _ hbank hregisters =>
      refine ⟨hregisters ▸ h.registers, ?_⟩
      intro name other ins hother hbusy
      rw [hbank, station?_released hdistinct hgranted] at hother
      split at hother
      · cases hother
        nomatch hbusy
      · exact h.operands hother hbusy
  | @published station _ value hgranted _ hvalue heq =>
      have hword := wrap_product? hvalue
      constructor
      · intro register
        rw [heq, read_publish]
        split
        · exact Word.wrap_wrap value
        · exact h.registers register
      · intro name other ins hother hbusy hins hform slot
        rw [heq, station?_publish hdistinct hgranted] at hother
        split at hother
        · cases hother
          nomatch hbusy
        · obtain ⟨before, hbefore, rfl⟩ := Option.map_eq_some_iff.mp hother
          rw [Station.busy_listen] at hbusy
          rw [Station.instruction?_listen] at hins
          rw [Station.operand_listen hbusy]
          exact Operand.wrap_receive
            (h.operands hbefore hbusy hins hform slot) hword station.name

theorem HoldsWords.issues (h : m.HoldsWords) (hphase : m.Issues m' log)
    (hdistinct : m.bank.Distinct) : m'.HoldsWords := by
  have hread := hphase.read_eq
  cases hphase with
  | drained => exact h
  | stalled => exact h
  | @issued next rest station hqueue hfree =>
      constructor
      · intro register
        rw [hread]
        exact h.registers register
      · intro name other ins hother hbusy hins hform slot
        rw [station?_occupied hdistinct hfree] at hother
        split at hother
        · cases hother
          cases hins
          cases slot with
          | first => exact h.registers.operand next.instruction.src1
          | second => exact h.registers.secondOperand hform
        · exact h.operands hother hbusy hins hform slot

theorem HoldsWords.execute (h : m.HoldsWords) : m.execute.1.HoldsWords where
  registers := h.registers
  operands := by
    intro name station ins hstation hbusy hins hform slot
    obtain ⟨before, hbefore, hstep⟩ := exists_stepped_of_execute hstation
    have hwork := hstep.sameWork
    rw [hwork.operand]
    exact h.operands hbefore (hwork.busy.symm.trans hbusy)
      (hwork.instruction?.symm.trans hins) hform slot

/-! ## Why a cycle is broken off -/

/-- What an instruction does is told of its station, which holds it. -/
theorem tells_settle {station : Station} {ins : Instruction}
    {happening : Happening}
    (hmem : happening ∈ (m.settle station ins).2) :
    happening.Tells fun _ => True := by
  have htells : (∀ name, happening ≠ .stuck name) →
      happening.Tells fun _ => True := fun h => ⟨h, fun _ _ => trivial⟩
  apply htells
  cases hform : ins.opcode.form with
  | branch =>
      obtain ⟨way, hlog, hway⟩ := m.redirect_log station ins
      simp only [settle, hform, hlog, List.mem_cons, List.not_mem_nil,
        or_false] at hmem
      rcases hmem with rfl | rfl
      · simp
      · rcases hway with ⟨_, _, _, _, rfl⟩ | ⟨_, _, rfl⟩ | ⟨_, _, rfl⟩
        all_goals simp
  | store | load | immediate | register | bare =>
      simp only [settle, hform, List.mem_singleton] at hmem
      rw [hmem]
      simp

theorem obstacle?_eq_none (htold : isTold log = true) {happening : Happening}
    (hmem : happening ∈ log) : happening.obstacle? = none :=
  List.findSome?_eq_none_iff.mp (isTold_iff_findSome?.mp htold) happening hmem

theorem Sound.instruction?_granted (h : m.Sound) {station : Station}
    (hgranted : m.bank.granted? = some station) :
    ∃ ins, station.instruction? = some ins := by
  obtain ⟨ins, hins, -⟩ :=
    (h.station (station?_granted h.distinct hgranted)).working
      (mem_of_granted? hgranted).2.1
  exact ⟨ins, hins⟩

theorem Sound.tells_of_untold (h : m.Sound) (hphase : m.WritesBack m' log)
    (huntold : isTold log = false) {happening : Happening}
    (hmem : happening ∈ log) : happening.Tells fun _ => True := by
  cases hphase with
  | idle => nomatch huntold
  | empty hgranted hnone =>
      obtain ⟨ins, hins⟩ := h.instruction?_granted hgranted
      rw [hins] at hnone
      nomatch hnone
  | broken => exact tells_settle hmem
  | stored _ _ _ htold =>
      rw [htold] at huntold
      nomatch huntold
  | @branched station ins _ _ hform =>
      have hsettle : (m.settle station ins).2 =
          .resolved station.name ins :: (m.redirect station ins).2 := by
        rw [settle, hform]
      exact tells_settle (hsettle ▸ hmem)
  | published _ _ _ hhappening htold =>
      rw [isTold_publish hhappening htold] at huntold
      nomatch huntold

/-- What happens in a cycle of a sound machine can be told, or it is of a station
with an instruction. -/
theorem Sound.tells_of_mem_advance (h : m.Sound) {happening : Happening}
    (hmem : happening ∈ m.advance.2) :
    happening.obstacle? = none ∨ happening.Tells fun _ => True := by
  have hphase := m.begin.writeback_writesBack
  cases htold : isTold m.begin.writeback.2 with
  | false =>
      rw [advance_of_untold htold] at hmem
      rcases List.mem_cons.mp hmem with rfl | hwritten
      · exact .inl rfl
      · exact .inr (h.begin.tells_of_untold hphase htold hwritten)
  | true =>
      have hissues := m.begin.writeback.1.issue_issues
      have hissued := (h.begin.writesBack hphase).issues hissues
      rw [advance_of_told htold] at hmem
      rcases mem_completes hmem with rfl | hwritten | hissued' | hexecuted
      · exact .inl rfl
      · exact .inl (obstacle?_eq_none htold hwritten)
      · exact .inl (obstacle?_eq_none hissues.isTold hissued')
      · obtain ⟨_, -, htells⟩ := Bank.tells_execute (fun station hstation =>
          hissued.station (hissued.distinct.station?_name hstation)) hexecuted
        exact .inr (htells.imp fun _ _ => trivial)

theorem Sound.stuck_not_mem_advance (h : m.Sound) (name : String) :
    .stuck name ∉ m.advance.2 := by
  intro hmem
  rcases h.tells_of_mem_advance hmem with hnone | htells
  · nomatch hnone
  · exact htells.ne_stuck name rfl

/-- A sound machine's cycle is broken off only by an integer that cannot be
written. -/
theorem Sound.eq_unwritable (h : m.Sound) {obstacle : Obstacle}
    (hobstacle : m.advance.2.findSome? Happening.obstacle? = some obstacle) :
    obstacle = .unwritable := by
  obtain ⟨happening, hmem, hfound⟩ :=
    List.exists_of_findSome?_eq_some hobstacle
  rcases h.tells_of_mem_advance hmem with hnone | htells
  · rw [hnone] at hfound
    contradiction
  · exact htells.eq_unwritable hfound

/-! ## Programs of which everything can be told -/

/-- A word in front of the constants of a program, the size of the program and
the penalty of a miss can be written. -/
def Fits (config : Config) (program : List Instruction) : Prop :=
  ∀ ins ∈ program, ins.opcode.isMemory = true ∨ ins.opcode.isBranch = true →
    2147483648 + ins.constant.natAbs + program.length +
      config.value .cacheMissPenalty < Numeral.writingBound

theorem natAbs_le_of_wrap {value : Int} (h : Word.wrap value = value) :
    value.natAbs ≤ 2147483648 := by
  have hlow := Word.neg_le_wrap value
  have hhigh := Word.wrap_lt value
  omega

theorem isWritable_of_lt {value : Int}
    (h : value.natAbs < Numeral.writingBound) :
    Numeral.isWritable value = true :=
  decide_eq_true h

theorem pow_le_writingBound : 10 ^ 10 ≤ Numeral.writingBound := by
  unfold Numeral.writingBound
  generalize hdigits : Numeral.maxDigits = digits
  have hle : 10 ≤ digits := by
    rw [← hdigits]
    decide
  exact Nat.pow_le_pow_right (by decide) hle

theorem isWritable_of_wrap {value : Int} (h : Word.wrap value = value) :
    Numeral.isWritable value = true := by
  have hword := natAbs_le_of_wrap h
  have hbound := pow_le_writingBound
  exact isWritable_of_lt (by omega)

theorem isTold_of_tells {P : Int → Prop}
    (h : ∀ happening ∈ log, happening.Tells P)
    (hwritable : ∀ number, P number → Numeral.isWritable number = true) :
    isTold log = true :=
  List.all_eq_true.mpr fun happening hmem =>
    (h happening hmem).isTellable hwritable

theorem isTold_singleton {happening : Happening}
    (hstuck : ∀ name, happening ≠ .stuck name)
    (h : ∀ number ∈ happening.numbers, Numeral.isWritable number = true) :
    isTold [happening] = true := by
  apply isTold_of_tells _ fun _ hwritable => hwritable
  intro other hmem
  rw [List.mem_singleton.mp hmem]
  exact ⟨hstuck, h⟩

section Fitting

variable {config : Config} {station : Station} {ins : Instruction}

theorem Fits.isWritable_address (hfits : Fits config program)
    (hmem : ins ∈ program) (hmemory : ins.opcode.isMemory = true) {base : Int}
    (hbase : Word.wrap base = base) :
    Numeral.isWritable (base + ins.constant) = true := by
  have hfit := hfits ins hmem (.inl hmemory)
  have hword := natAbs_le_of_wrap hbase
  exact isWritable_of_lt (by omega)

theorem Fits.isTold_redirect (hfits : Fits config program)
    (hworks : m.WorksOn program) (hmem : ins ∈ program)
    (hbranch : ins.opcode.isBranch = true)
    (hwords : ∀ slot, Word.wrap (station.operand slot).value =
      (station.operand slot).value) :
    isTold (m.redirect station ins).2 = true := by
  have hfit := hfits ins hmem (.inr hbranch)
  have hplace := hworks.issuedCount_le
  have hlength := hworks.length_program
  have hj : Numeral.isWritable station.j.value = true :=
    isWritable_of_wrap (hwords .first)
  have hk : Numeral.isWritable station.k.value = true :=
    isWritable_of_wrap (hwords .second)
  rcases m.redirect_cases station ins with
    heq | heq | ⟨index, next, hindex, hnext, heq⟩
  · rw [heq]
    exact isTold_singleton (by simp) (by simp [Happening.numbers, hj, hk])
  · rw [heq]
    have htarget : Numeral.isWritable (m.issuedCount + ins.constant) = true :=
      isWritable_of_lt (by omega)
    have hsize : Numeral.isWritable m.program.length = true :=
      isWritable_of_lt (by omega)
    exact isTold_singleton (by simp)
      (by simp [Happening.numbers, htarget, hsize])
  · rw [heq]
    have hlt := (List.getElem?_eq_some_iff.mp hnext).1
    have htarget : Numeral.isWritable index = true :=
      isWritable_of_lt (by omega)
    exact isTold_singleton (by simp)
      (by simp [Happening.numbers, htarget, hj, hk])

/-- What an instruction other than a branch does can be told, if the address of an
access can. -/
theorem HoldsWords.isTold_settle (hwords : m.HoldsWords) (hsound : m.Sound)
    (hgranted : m.bank.granted? = some station)
    (hins : station.instruction? = some ins)
    (haddress : ins.opcode.isMemory = true →
      Numeral.isWritable station.address = true)
    (hbranch : ins.opcode.form ≠ .branch) :
    isTold (m.settle station ins).2 = true := by
  have hoperands := hwords.operands
    (station?_granted hsound.distinct hgranted) (mem_of_granted? hgranted).2.1
    hins
  cases hform : ins.opcode.form with
  | store =>
      have hvalue : Numeral.isWritable station.k.value = true :=
        isWritable_of_wrap (hoperands (by simp [hform]) .second)
      have hwritable := haddress
        (by simp [Opcode.isMemory, Opcode.isStore, hform])
      simp only [settle, hform]
      exact isTold_singleton (by simp)
        (by simp [Happening.numbers, hvalue, hwritable])
  | load =>
      have hvalue : Numeral.isWritable (m.cache.readWord station.address) =
          true :=
        isWritable_of_wrap (m.cache.memory.wrap_readWord station.address)
      have hwritable := haddress
        (by simp [Opcode.isMemory, Opcode.isLoad, hform])
      simp only [settle, hform]
      exact isTold_singleton (by simp)
        (by simp [Happening.numbers, hvalue, hwritable])
  | branch => exact absurd hform hbranch
  | immediate | register | bare =>
      have hvalue : Numeral.isWritable (station.result ins) = true :=
        isWritable_of_wrap (ins.opcode.wrap_evaluate _ _ _)
      simp only [settle, hform]
      exact isTold_singleton (by simp) (by simp [Happening.numbers, hvalue])

theorem Fits.isTold_settle (hfits : Fits config program) (hsound : m.Sound)
    (hworks : m.WorksOn program) (hwords : m.HoldsWords)
    (hgranted : m.bank.granted? = some station)
    (hins : station.instruction? = some ins) :
    isTold (m.settle station ins).2 = true := by
  have hmem := hworks.mem_of_granted? hsound.distinct hgranted hins
  have hoperands := hwords.operands
    (station?_granted hsound.distinct hgranted) (mem_of_granted? hgranted).2.1
    hins
  by_cases hform : ins.opcode.form = .branch
  · simp only [settle, hform]
    exact hfits.isTold_redirect hworks hmem (by simp [Opcode.isBranch, hform])
      (hoperands (by simp [hform]))
  · refine hwords.isTold_settle hsound hgranted hins (fun hmemory => ?_) hform
    have himmediate : ins.opcode.form ≠ .immediate := by
      intro himmediate
      simp [Opcode.isMemory, Opcode.isLoad, Opcode.isStore, himmediate]
        at hmemory
    rw [hsound.address_granted hgranted hins hmemory]
    exact hfits.isWritable_address hmem hmemory (hoperands himmediate .first)

theorem Fits.isTold_writesBack (hfits : Fits config program)
    (hsound : m.Sound) (hworks : m.WorksOn program) (hwords : m.HoldsWords)
    (hphase : m.WritesBack m' log) : isTold log = true := by
  cases hphase with
  | idle => rfl
  | empty hgranted hnone =>
      obtain ⟨ins, hins⟩ := hsound.instruction?_granted hgranted
      rw [hins] at hnone
      nomatch hnone
  | broken hgranted hins =>
      exact hfits.isTold_settle hsound hworks hwords hgranted hins
  | stored _ _ _ htold => exact htold
  | branched _ _ _ htold => exact htold
  | published _ _ _ hhappening htold => exact isTold_publish hhappening htold

theorem Fits.isTold_execute (hfits : Fits config program)
    (hsound : m.Sound) (hworks : m.WorksOn program) (hwords : m.HoldsWords)
    (hpenalty : m.cache.geometry.missPenalty =
      config.value .cacheMissPenalty) : isTold m.execute.2 = true := by
  have hstations : ∀ station ∈ m.bank, station.Sound := fun station hmem =>
    hsound.station (hsound.distinct.station?_name hmem)
  apply List.all_eq_true.mpr
  intro happening hmem
  obtain ⟨station, hstation, htells⟩ := Bank.tells_execute hstations hmem
  apply htells.isTellable
  rintro number ⟨hbusy, ins, hins, hmemory, hnumber⟩
  have hfound := hsound.distinct.station?_name hstation
  have hin := hworks.held hfound hbusy hins
  have hform : ins.opcode.form ≠ .immediate := by
    intro hform
    simp [Opcode.isMemory, Opcode.isLoad, Opcode.isStore, hform] at hmemory
  rcases hnumber with rfl | rfl
  · exact hfits.isWritable_address hin hmemory
      (hwords.operands hfound hbusy hins hform .first)
  · have hfit := hfits ins hin (.inl hmemory)
    exact isWritable_of_lt (by omega)

theorem Fits.isTold_advance (hfits : Fits config program)
    (hsound : m.Sound) (hworks : m.WorksOn program) (hwords : m.HoldsWords)
    (hpenalty : m.cache.geometry.missPenalty =
      config.value .cacheMissPenalty) : isTold m.advance.2 = true := by
  have hwrites := m.begin.writeback_writesBack
  have hissues := m.begin.writeback.1.issue_issues
  have hwritten := hfits.isTold_writesBack hsound.begin hworks.begin
    hwords.begin hwrites
  have hdistinct := hsound.begin.distinct
  have hsound₁ := hsound.begin.writesBack hwrites
  have hexecuted := hfits.isTold_execute (hsound₁.issues hissues)
    ((hworks.begin.writesBack hwrites hwritten hdistinct).issues hissues
      hsound₁.distinct)
    ((hwords.begin.writesBack hwrites hdistinct).issues hissues
      hsound₁.distinct)
    (by rw [hissues.sameFrame.geometry, hwrites.sameFrame.geometry]
        exact hpenalty)
  have hstarted : isTold (.cycleStarted :: m.begin.writeback.2) =
      isTold m.begin.writeback.2 := rfl
  rw [advance_of_told hwritten, isTold_append, isTold_append, hstarted,
    hwritten, hissues.isTold, hexecuted]
  rfl

end Fitting

end Machine

end OutOfOrder
