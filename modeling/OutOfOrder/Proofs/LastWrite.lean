import OutOfOrder.Proofs.Agreement

/-!
# The last write of a register

A register holds what the definer that wrote back last has published.  This is
the value of the definer that was issued last, unless an older and slower one
writes back behind it: the older one leaves the newer tag alone, but it writes
its value all the same.
-/

namespace OutOfOrder

/-! ## Published values are words -/

namespace Word

theorem wrap_wrap (value : Int) : wrap (wrap value) = wrap value :=
  wrap_eq_self (neg_le_wrap value) (wrap_lt value)

end Word

theorem Memory.wrap_readWord (memory : Memory) (address : Int) :
    Word.wrap (memory.readWord address) = memory.readWord address := by
  rw [readWord, Word.ofBytes, Word.wrap_wrap]

theorem Opcode.wrap_evaluate (op : Opcode) (a b constant : Int) :
    Word.wrap (op.evaluate a b constant) = op.evaluate a b constant := by
  unfold evaluate
  split
  case h_13 => decide
  all_goals exact Word.wrap_wrap _

theorem Machine.wrap_product? {m : Machine} {station : Station}
    {ins : Instruction} {value : Int}
    (h : m.product? station ins = some value) : Word.wrap value = value := by
  unfold product? at h
  split at h
  · contradiction
  · contradiction
  · rw [← Option.some.inj h]
    exact m.cache.memory.wrap_readWord _
  · rw [← Option.some.inj h]
    exact ins.opcode.wrap_evaluate _ _ _

def RegisterFile.HoldsWords (file : RegisterFile) : Prop :=
  ∀ register, Word.wrap (file.read register) = file.read register

theorem RegisterFile.HoldsWords.write {file : RegisterFile}
    (h : file.HoldsWords) (name : String) (value : Int) :
    (file.write name value).HoldsWords := by
  intro register
  rw [read_write]
  split
  · exact Word.wrap_wrap value
  · exact h register

theorem RegisterFile.holdsWords_writeAll {file : RegisterFile}
    (h : file.HoldsWords) (contents : List (String × Int)) :
    (file.writeAll contents).HoldsWords := by
  induction contents generalizing file with
  | nil => exact h
  | cons entry rest ih => exact ih (h.write entry.1 entry.2)

theorem RegisterFile.holdsWords_initial : initial.HoldsWords := by
  intro register
  have hread : initial.read register = 0 := by
    unfold read
    split
    · rfl
    · cases hget : initial.values.get? register with
      | none => rfl
      | some value =>
          obtain ⟨entry, hfind, rfl⟩ := Option.map_eq_some_iff.mp hget
          obtain ⟨name, -, rfl⟩ :=
            List.mem_map.mp (List.mem_of_find?_eq_some hfind)
          rfl
  rw [hread]
  decide

/-! ## The last write in a ledger -/

namespace Ledger

variable {ledger : Ledger} {register station : String} {number : Nat}
  {value : Int}

/-- What the definers of a register have published, in the order of
write-back. -/
def writes (ledger : Ledger) (register : String) : List (Nat × Int) :=
  ledger.published.filter fun entry => ledger.target? entry.1 = some register

/-- The value that was published last for a register. -/
def lastWrite? (ledger : Ledger) (register : String) : Option Int :=
  (ledger.writes register).getLast?.map (·.2)

theorem lastWrite?_publish (hseat : ledger.seat? station = some number)
    (value : Int) (register : String) :
    (ledger.publish station value).lastWrite? register =
      if ledger.target? number = some register then some value
      else ledger.lastWrite? register := by
  have hwrites : (ledger.publish station value).writes register =
      ledger.writes register ++
        if ledger.target? number = some register then [(number, value)]
        else [] := by
    rw [writes, published_publish hseat, List.filter_append]
    congr 1
    by_cases htarget : ledger.target? number = some register
    · rw [if_pos htarget]
      exact List.filter_cons_of_pos (decide_eq_true htarget)
    · rw [if_neg htarget]
      exact List.filter_cons_of_neg fun h => htarget (of_decide_eq_true h)
  rw [lastWrite?, hwrites]
  split
  · simp
  · simp [lastWrite?]

theorem lastWrite?_issue
    (hlt : ∀ entry ∈ ledger.published, entry.1 < ledger.issues.length)
    (station : String) (ins : Instruction) (register : String) :
    (ledger.issue station ins).lastWrite? register =
      ledger.lastWrite? register := by
  have hwrites : (ledger.issue station ins).writes register =
      ledger.writes register := by
    apply List.filter_congr
    intro entry hmem
    rw [target?_issue, if_neg (Nat.ne_of_lt (hlt entry hmem))]
  rw [lastWrite?, lastWrite?, hwrites]

/-- A value is the last write if no definer has published behind it. -/
theorem lastWrite?_of_split {before later : List (Nat × Int)}
    (hsplit : ledger.published = before ++ (number, value) :: later)
    (htarget : ledger.target? number = some register)
    (hlater : ∀ entry ∈ later, ledger.target? entry.1 ≠ some register) :
    ledger.lastWrite? register = some value := by
  have hnone : later.filter
      (fun entry => ledger.target? entry.1 = some register) = [] := by
    simpa using hlater
  rw [lastWrite?, writes, hsplit, List.filter_append, List.filter_cons]
  simp [htarget, hnone]

theorem exists_lastWrite? (hmem : (number, value) ∈ ledger.published)
    (htarget : ledger.target? number = some register) :
    ∃ last, ledger.lastWrite? register = some last := by
  have hwrite : (number, value) ∈ ledger.writes register :=
    List.mem_filter.mpr ⟨hmem, decide_eq_true htarget⟩
  have hne : ledger.writes register ≠ [] := List.ne_nil_of_mem hwrite
  exact ⟨((ledger.writes register).getLast hne).2, by
    rw [lastWrite?, List.getLast?_eq_some_getLast hne]
    rfl⟩

theorem lastWrite?_eq_none (hdefiner : ledger.definer? register = none)
    (hlt : ∀ entry ∈ ledger.published, entry.1 < ledger.issues.length) :
    ledger.lastWrite? register = none := by
  have hwrites : ledger.writes register = [] := by
    apply List.filter_eq_nil_iff.mpr
    intro entry hmem htarget
    exact definerBefore?_eq_none hdefiner (hlt entry hmem)
      (of_decide_eq_true htarget)
  rw [lastWrite?, hwrites]
  rfl

end Ledger

/-! ## The registers of a machine -/

namespace RegisterFile

@[simp] theorem read_clearTag (file : RegisterFile)
    (name station other : String) :
    (file.clearTag name station).read other = file.read other := by
  unfold clearTag
  split <;> rfl

@[simp] theorem read_setTag (file : RegisterFile)
    (name station other : String) :
    (file.setTag name station).read other = file.read other := by
  unfold setTag
  split <;> rfl

end RegisterFile

namespace Machine

variable {m m' : Machine} {ledger ledger' : Ledger} {log : List Happening}

theorem read_publish (m : Machine) (tag : String) (ins : Instruction)
    (value : Int) (register : String) :
    (m.released.publish tag ins value).1.registers.read register =
      if ins.target? = some register ∧ register ≠ zeroRegister
      then Word.wrap value else m.registers.read register := by
  cases htarget : ins.target? with
  | none =>
      rw [registers_publish_of_none _ _ htarget, if_neg (by simp)]
      rfl
  | some target =>
      rw [registers_publish _ _ htarget, RegisterFile.read_clearTag,
        RegisterFile.read_write]
      simp only [Option.some.injEq, eq_comm]
      rfl

/-- An issue sets a tag and leaves the values of the registers. -/
theorem Issues.read_eq (hphase : m.Issues m' log) (register : String) :
    m'.registers.read register = m.registers.read register := by
  cases hphase with
  | drained | stalled => rfl
  | issued =>
      dsimp only
      split
      · exact RegisterFile.read_setTag _ _ _ _
      · rfl

theorem Agrees.published_of_untagged (h : m.Agrees ledger) {register : String}
    {number : Nat} (hne : register ≠ zeroRegister)
    (htag : m.registers.tag? register = none)
    (hdefiner : ledger.definer? register = some number) :
    ∃ value, (number, value) ∈ ledger.published := by
  rcases h.settled (Ledger.definerBefore?_eq_some hdefiner).2 with
    ⟨name, hseat⟩ | hpublished
  · have hget := (h.tags register name).mpr ⟨hne, number, hdefiner, hseat⟩
    rw [RegisterFile.tag?, if_neg hne, hget] at htag
    contradiction
  · exact hpublished

/-- The only issue that defines a register is the last to write it. -/
theorem Agrees.lastWrite?_of_unique (h : m.Agrees ledger) {register : String}
    {number : Nat} {value : Int}
    (hmem : (number, value) ∈ ledger.published)
    (htarget : ledger.target? number = some register)
    (hunique : ∀ other < ledger.issues.length,
      ledger.target? other = some register → other = number) :
    ledger.lastWrite? register = some value := by
  obtain ⟨before, later, hsplit⟩ := List.append_of_mem hmem
  apply Ledger.lastWrite?_of_split hsplit htarget
  intro entry hlater hother
  have hpublished : entry ∈ ledger.published := by
    rw [hsplit]
    exact List.mem_append_right _ (List.mem_cons_of_mem _ hlater)
  have hsame := hunique entry.1 (h.unseated hpublished).1 hother
  have honce := h.published_once
  rw [hsplit, List.map_append, List.map_cons] at honce
  apply (List.nodup_cons.mp (List.nodup_append.mp honce).2.1).1
  have hfirst := List.mem_map_of_mem (f := Prod.fst) hlater
  rwa [hsame] at hfirst

/-- The registers hold what the ledger says was written last, over what they
held at first. -/
def HoldsLastWrites (initial : RegisterFile) (m : Machine) (ledger : Ledger) :
    Prop :=
  ∀ register, register ≠ zeroRegister → m.registers.read register =
    (ledger.lastWrite? register).getD (initial.read register)

variable {initial : RegisterFile}

theorem HoldsLastWrites.busEffect (h : m.Agrees ledger)
    (hlast : m.HoldsLastWrites initial ledger)
    (heffect : m.BusEffect ledger m' ledger') :
    m'.HoldsLastWrites initial ledger' := by
  intro register hne
  cases heffect with
  | none _ hregisters =>
      rw [hregisters]
      exact hlast register hne
  | vacated _ _ _ _ hregisters =>
      rw [hregisters]
      exact hlast register hne
  | @published station ins value hgranted hins hvalue heq =>
      have hstation := station?_granted h.sound.distinct hgranted
      obtain ⟨number, hseat⟩ := h.seated_granted hgranted
      rw [heq, read_publish, wrap_product? hvalue,
        Ledger.lastWrite?_publish hseat, h.target?_eq hstation hseat hins]
      by_cases htarget : ins.target? = some register
      · rw [if_pos ⟨htarget, hne⟩, if_pos htarget]
        rfl
      · rw [if_neg fun hwritten => htarget hwritten.1, if_neg htarget]
        exact hlast register hne

theorem HoldsLastWrites.issues (h : m.Agrees ledger)
    (hlast : m.HoldsLastWrites initial ledger) (hphase : m.Issues m' log) :
    m'.HoldsLastWrites initial (ledger.noteAll log) := by
  intro register hne
  rw [hphase.read_eq, hlast register hne]
  cases hphase with
  | drained | stalled => rfl
  | @issued next rest station =>
      have hlastWrite : (ledger.issue station.name
          next.instruction).lastWrite? register = ledger.lastWrite? register :=
        Ledger.lastWrite?_issue (fun _ hmem => (h.unseated hmem).1) _ _ _
      rw [← hlastWrite]
      rfl

theorem HoldsLastWrites.advance (h : m.Agrees ledger)
    (hlast : m.HoldsLastWrites initial ledger) :
    m.advance.1.HoldsLastWrites initial (ledger.afterCycle m) := by
  let P : Machine → Ledger → Prop := fun m ledger =>
    m.Agrees ledger ∧ m.HoldsLastWrites initial ledger
  exact (advance_induction (P := P) (Q := P)
    (fun _ _ h => ⟨h.1.begin, h.2⟩)
    (fun _ ledger _ _ hphase h => ⟨h.1.writesBack hphase,
      h.2.busEffect h.1 (hphase.busEffect ledger)⟩)
    (fun _ _ _ _ hphase h => ⟨h.1.issues hphase, h.2.issues h.1 hphase⟩)
    (fun _ _ h => ⟨h.1.execute, h.2⟩) ⟨h, hlast⟩).2

end Machine

/-! ## Registers without a tag -/

namespace Simulation

/-- A prepared machine agrees with its ledger, whatever it runs. -/
theorem agrees_running (config : Config) (preload : List (Int × Int))
    (registers : List (String × Int)) (words : List (Int × Int))
    (program : List Instruction) (cycles : Nat) :
    let sim := (prepared config preload registers words).running program cycles
    sim.machine.Agrees sim.ledger :=
  running_induction (P := Machine.Agrees) (fun _ _ h => h.advance)
    ((agrees_fresh config preload _).of_bank_eq rfl rfl) cycles

theorem holdsLastWrites_running (config : Config) (preload : List (Int × Int))
    (registers : List (String × Int)) (words : List (Int × Int))
    (program : List Instruction) (cycles : Nat) :
    let start := prepared config preload registers words
    let sim := start.running program cycles
    sim.machine.HoldsLastWrites start.machine.registers sim.ledger := by
  intro start
  let P : Machine → Ledger → Prop := fun m ledger =>
    m.Agrees ledger ∧ m.HoldsLastWrites start.machine.registers ledger
  have hstart : start.machine.HoldsLastWrites start.machine.registers
      start.ledger := by
    intro register _
    rw [ledger_prepared]
    rfl
  exact (running_induction (P := P)
    (fun _ _ h => ⟨h.1.advance, h.2.advance h.1⟩)
    ⟨(agrees_fresh config preload _).of_bank_eq rfl rfl, hstart⟩ cycles).2

/-- A register other than the zero register that has no tag holds its initial
value as long as nothing that defines it was issued.  After that its last
definer has written back, and the register holds that definer's value exactly if
it is also the value that was published last for the register; it is so at least
if no other definer has written back behind the last one. -/
theorem untagged_register_holds_last_write (config : Config)
    (preload : List (Int × Int)) (registers : List (String × Int))
    (words : List (Int × Int)) (program : List Instruction) (cycles : Nat) :
    let start := prepared config preload registers words
    let sim := start.running program cycles
    ∀ register, register ≠ zeroRegister →
      sim.machine.registers.tag? register = none →
      (sim.ledger.definer? register = none →
        sim.machine.registers.read register =
          start.machine.registers.read register) ∧
      ∀ number, sim.ledger.definer? register = some number →
        ∃ before value later,
          sim.ledger.published = before ++ (number, value) :: later ∧
          (sim.machine.registers.read register = value ↔
            sim.ledger.lastWrite? register = some value) ∧
          ((∀ entry ∈ later, sim.ledger.target? entry.1 ≠ some register) →
            sim.machine.registers.read register = value) := by
  intro start sim register hne htag
  have hagrees : sim.machine.Agrees sim.ledger :=
    agrees_running config preload registers words program cycles
  have hread : sim.machine.registers.read register =
      (sim.ledger.lastWrite? register).getD
        (start.machine.registers.read register) :=
    holdsLastWrites_running config preload registers words program cycles
      register hne
  constructor
  · intro hdefiner
    rw [hread, Ledger.lastWrite?_eq_none hdefiner
      fun _ hmem => (hagrees.unseated hmem).1]
    rfl
  · intro number hdefiner
    obtain ⟨value, hmem⟩ := hagrees.published_of_untagged hne htag hdefiner
    obtain ⟨before, later, hsplit⟩ := List.append_of_mem hmem
    have htarget := (Ledger.definerBefore?_eq_some hdefiner).2
    have hsome : ∃ last, sim.ledger.lastWrite? register = some last :=
      Ledger.exists_lastWrite? hmem htarget
    obtain ⟨last, hlast⟩ := hsome
    refine ⟨before, value, later, hsplit, ?_, ?_⟩
    · rw [hread, hlast]
      simp
    · intro hlater
      rw [hread, Ledger.lastWrite?_of_split hsplit htarget hlater]
      rfl

/-- The last definer does not always win.  A slow product and then a fast sum
are issued for `F2`; the sum has written back and the tag is gone when the
product writes back behind it, and `F2` holds the product. -/
theorem older_definer_overwrites_newer :
    let start := prepared .standard [] [("F1", 5)] []
    let sim := start.running
      [{ opcode := .mul, dest := "F2", src1 := "F1", src2 := "F1" },
        { opcode := .add, dest := "F2", src1 := "F3", src2 := "F1" }] 14
    sim.machine.registers.tag? "F2" = none ∧
      sim.ledger.definer? "F2" = some 1 ∧
      (1, 5) ∈ sim.ledger.published ∧
      sim.machine.registers.read "F2" = 25 := by
  decide +kernel

end Simulation

end OutOfOrder
