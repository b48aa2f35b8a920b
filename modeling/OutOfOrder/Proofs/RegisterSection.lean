import Mathlib.Data.List.Induction
import OutOfOrder.Proofs.LastWrite
import OutOfOrder.Proofs.Monitoring
import OutOfOrder.Proofs.Slots
import OutOfOrder.Report

/-!
# The register section of a report

A report goes through the names under which the register file holds values:
those of the two banks, and every other name that has been written.  It has a
line for each of them whose register is not zero or carries a tag.  A tag is set
when an instruction is issued, and a value is entered when it writes back, so a
register outside the banks has a tag before it has a value.  Until its first
write the report does not mention it.
-/

namespace OutOfOrder

theorem Pool.slotName_ne_empty (pool : Pool) (index : Nat) :
    pool.slotName index ≠ "" := by
  cases pool <;> simp [slotName, label]

/-! ## Entries of directories -/

namespace Directory

variable {κ α : Type} [DecidableEq κ]

theorem lookup_entries (directory : Directory κ α) (key : κ) :
    directory.entries.lookup key = directory.get? key := by
  unfold get?
  induction directory.entries with
  | nil => rfl
  | cons entry rest ih =>
      rw [List.lookup_cons, List.find?_cons]
      by_cases hkey : key = entry.1
      · simp [hkey]
      · rw [beq_eq_false_iff_ne.mpr hkey, decide_eq_false (Ne.symm hkey)]
        exact ih

theorem mem_of_get? {directory : Directory κ α} {key : κ} {value : α}
    (h : directory.get? key = some value) :
    (key, value) ∈ directory.entries := by
  obtain ⟨entry, hfind, rfl⟩ := Option.map_eq_some_iff.mp h
  have hkey : entry.1 = key := by simpa using List.find?_some hfind
  rw [← hkey]
  exact List.mem_of_find?_eq_some hfind

end Directory

/-! ## The names that have a value -/

namespace RegisterFile

variable {file : RegisterFile} {name other : String}

def names (file : RegisterFile) : List String :=
  file.values.entries.map (·.1)

@[simp] theorem values_setTag (file : RegisterFile) (name station : String) :
    (file.setTag name station).values = file.values := by
  unfold setTag
  split <;> rfl

@[simp] theorem values_clearTag (file : RegisterFile) (name station : String) :
    (file.clearTag name station).values = file.values := by
  unfold clearTag
  split <;> rfl

theorem names_initial : initial.names = bankNames := by
  rw [names, initial, List.map_map]
  exact List.map_id _

theorem names_write (file : RegisterFile) (name : String) (value : Int) :
    (file.write name value).names =
      if name = zeroRegister ∨ name ∈ file.names then file.names
      else file.names ++ [name] := by
  by_cases hzero : name = zeroRegister
  · rw [if_pos (.inl hzero), write, if_pos hzero]
  · have hkeys := Directory.keys_putEntry name (Word.wrap value)
      file.values.entries
    rw [write, if_neg hzero, names, Directory.put, hkeys]
    simp only [hzero, false_or]
    rfl

theorem mem_names_write (value : Int) :
    other ∈ (file.write name value).names ↔
      other ∈ file.names ∨ (other = name ∧ other ≠ zeroRegister) := by
  rw [names_write]
  split
  · next hold =>
      constructor
      · exact .inl
      · rintro (hmem | ⟨rfl, hne⟩)
        · exact hmem
        · exact hold.resolve_left hne
  · next hnew =>
      rw [List.mem_append, List.mem_singleton]
      constructor
      · rintro (hmem | rfl)
        · exact .inl hmem
        · exact .inr ⟨rfl, fun hzero => hnew (.inl hzero)⟩
      · rintro (hmem | ⟨heq, -⟩)
        · exact .inl hmem
        · exact .inr heq

theorem distinct_write (h : file.values.Distinct) (name : String)
    (value : Int) : (file.write name value).values.Distinct := by
  unfold write
  split
  · exact h
  · exact h.put name _

theorem read_of_mem (h : file.values.Distinct) {value : Int}
    (hmem : (name, value) ∈ file.values.entries) (hne : name ≠ zeroRegister) :
    file.read name = value := by
  rw [read, if_neg hne, h.get?_of_mem hmem]
  rfl

/-- A register without a value is zero. -/
theorem mem_names_of_read_ne_zero (h : file.read name ≠ 0) :
    name ∈ file.names := by
  unfold read at h
  split at h
  · contradiction
  · cases hget : file.values.get? name with
    | none => simp [hget] at h
    | some value => exact List.mem_map_of_mem (Directory.mem_of_get? hget)

/-! ## The lines of a register file -/

/-- A register other than the zero register is not zero or carries a tag. -/
def HoldsOrAwaits (file : RegisterFile) (name : String) : Prop :=
  name ≠ zeroRegister ∧ (file.read name ≠ 0 ∨ (file.tag? name).isSome = true)

instance (file : RegisterFile) (name : String) :
    Decidable (file.HoldsOrAwaits name) :=
  inferInstanceAs (Decidable (_ ∧ _))

def shown (file : RegisterFile) : List String :=
  file.names.filter fun name => file.HoldsOrAwaits name

/-- The line of a register: its name, its value, and its tag if it has one. -/
def line (file : RegisterFile) (name : String) : String :=
  "  " ++ Text.padRight 4 name ++ "= " ++ toString (file.read name) ++
    match file.tag? name with
    | none => ""
    | some station => "  <- " ++ station

/-- The one line of a register file that has nothing to show. -/
def clearLine : String :=
  "  (all zero, no pending tags)"

/-- The lines of the registers that have one, or else the one that says there
are none. -/
def lines (file : RegisterFile) : List String :=
  if file.shown = [] then [clearLine] else file.shown.map file.line

theorem mem_shown_iff :
    name ∈ file.shown ↔ name ∈ file.names ∧ file.HoldsOrAwaits name := by
  simp [shown]

theorem nodup_shown (h : file.values.Distinct) : file.shown.Nodup :=
  h.filter _

theorem line_ne_clearLine (file : RegisterFile) (name : String) :
    file.line name ≠ clearLine := by
  intro heq
  have hmem : '=' ∈ (file.line name).toList := by simp [line]
  rw [heq] at hmem
  exact absurd hmem (by decide)

theorem lines_eq_clearLine_iff :
    file.lines = [clearLine] ↔ file.shown = [] := by
  unfold lines
  constructor
  · intro h
    by_contra hshown
    rw [if_neg hshown] at h
    have hmem : clearLine ∈ file.shown.map file.line := by simp [h]
    obtain ⟨name, -, hline⟩ := List.mem_map.mp hmem
    exact line_ne_clearLine file name hline
  · exact fun h => if_pos h

/-- The line of a register is printed as it should be, if its tag has a
name. -/
theorem registerLine_eq (htags : ∀ register, file.tags.get? register ≠ some "")
    (hne : name ≠ zeroRegister) :
    registerLine file.tags.entries name (file.read name) = file.line name := by
  have hlookup : file.tags.entries.lookup name = file.tag? name := by
    rw [Directory.lookup_entries, tag?, if_neg hne]
  unfold registerLine line
  rw [hlookup]
  cases htag : file.tag? name with
  | none => simp
  | some station =>
      have hstation : station ≠ "" := by
        rintro rfl
        rw [tag?, if_neg hne] at htag
        exact htags name htag
      simp [hstation]

/-- The entries that a report keeps are those of the registers that have a
line. -/
theorem shownRegisters_eq (h : file.values.Distinct) :
    shownRegisters file.values.entries file.tags.entries =
      file.values.entries.filter fun entry => file.HoldsOrAwaits entry.1 := by
  apply List.filter_congr
  rintro ⟨name, value⟩ hmem
  by_cases hne : name = zeroRegister
  · simp [HoldsOrAwaits, hne]
  · have hread := read_of_mem h hmem hne
    simp [HoldsOrAwaits, hread, tag?, hne, Directory.lookup_entries]

theorem renderRegisters_eq (hvalues : file.values.Distinct)
    (htags : ∀ register, file.tags.get? register ≠ some "") :
    renderRegisters file.values.entries file.tags.entries = file.lines := by
  -- the printer keeps entries, the lines are made of names
  let kept := file.values.entries.filter fun entry =>
    file.HoldsOrAwaits entry.1
  have hshown : file.shown = kept.map (·.1) := List.filter_map
  have hlines : (kept.map fun entry =>
      registerLine file.tags.entries entry.1 entry.2) =
      file.shown.map file.line := by
    rw [hshown, List.map_map]
    apply List.map_congr_left
    rintro ⟨name, value⟩ hmem
    obtain ⟨hentry, hholds⟩ := List.mem_filter.mp hmem
    have hne : name ≠ zeroRegister := (of_decide_eq_true hholds).1
    dsimp only [Function.comp_apply]
    rw [← registerLine_eq htags hne, read_of_mem hvalues hentry hne]
  have hempty : kept.isEmpty = true ↔ file.shown = [] := by
    rw [hshown, List.map_eq_nil_iff, List.isEmpty_iff]
  simp only [renderRegisters, shownRegisters_eq hvalues]
  rw [lines, ← hlines]
  exact if_congr hempty rfl rfl

end RegisterFile

/-! ## The names that have a value along a run -/

/-- A register has a value of its own: it belongs to a bank, it was written from
outside, or a definer of it has written back. -/
inductive HasValue (actions : List Action) (ledger : Ledger)
    (register : String) : Prop where
  | bank (h : register ∈ RegisterFile.bankNames)
  | outside {value : Int} (h : .writeRegister register value ∈ actions)
  | published {value : Int} (h : ledger.lastWrite? register = some value)

namespace HasValue

variable {actions : List Action} {ledger ledger' : Ledger} {register : String}

theorem zero : HasValue actions ledger zeroRegister :=
  .bank (by decide)

theorem iff_of_lastWrite?_eq
    (h : ledger'.lastWrite? register = ledger.lastWrite? register) :
    HasValue actions ledger' register ↔ HasValue actions ledger register := by
  constructor
  · rintro (hbank | houtside | hpublished)
    · exact .bank hbank
    · exact .outside houtside
    · exact .published (h ▸ hpublished)
  · rintro (hbank | houtside | hpublished)
    · exact .bank hbank
    · exact .outside houtside
    · exact .published (h.trans hpublished)

theorem publish_iff {station : String} {number : Nat}
    (hseat : ledger.seat? station = some number) (value : Int) :
    HasValue actions (ledger.publish station value) register ↔
      HasValue actions ledger register ∨
        ledger.target? number = some register := by
  have hlast := Ledger.lastWrite?_publish hseat value register
  by_cases htarget : ledger.target? number = some register
  · rw [if_pos htarget] at hlast
    exact ⟨fun _ => .inr htarget, fun _ => .published hlast⟩
  · rw [if_neg htarget] at hlast
    rw [iff_of_lastWrite?_eq hlast]
    exact ⟨.inl, fun h => h.resolve_right htarget⟩

/-- Of the actions only a write from outside gives a value to a register. -/
theorem append_iff {action : Action} :
    HasValue (actions ++ [action]) ledger register ↔
      HasValue actions ledger register ∨
        ∃ value, action = .writeRegister register value := by
  constructor
  · rintro (hbank | @⟨value, houtside⟩ | hpublished)
    · exact .inl (.bank hbank)
    · rcases List.mem_append.mp houtside with hearlier | hlast
      · exact .inl (.outside hearlier)
      · exact .inr ⟨value, (List.mem_singleton.mp hlast).symm⟩
    · exact .inl (.published hpublished)
  · rintro ((hbank | houtside | hpublished) | ⟨value, rfl⟩)
    · exact .bank hbank
    · exact .outside (List.mem_append_left _ houtside)
    · exact .published hpublished
    · exact .outside (List.mem_append_right _ (List.mem_singleton_self _))

theorem append_write_iff {name : String} {value : Int} :
    HasValue (actions ++ [.writeRegister name value]) ledger register ↔
      HasValue actions ledger register ∨ name = register := by
  simp [append_iff]

theorem append_iff_of_ne {action : Action}
    (h : ∀ name value, action ≠ .writeRegister name value) :
    HasValue (actions ++ [action]) ledger register ↔
      HasValue actions ledger register := by
  simp [append_iff, h]

end HasValue

namespace RegisterFile

variable {file : RegisterFile} {known known' : String → Prop}

/-- The register file holds one value each for the registers that are known. -/
structure Knows (file : RegisterFile) (known : String → Prop) : Prop where
  distinct : file.values.Distinct
  mem_names_iff : ∀ register, register ∈ file.names ↔ known register

theorem Knows.of_iff (h : file.Knows known)
    (hknown : ∀ register, known' register ↔ known register) :
    file.Knows known' where
  distinct := h.distinct
  mem_names_iff register :=
    (h.mem_names_iff register).trans (hknown register).symm

theorem Knows.of_values_eq {other : RegisterFile} (h : file.Knows known)
    (hvalues : other.values = file.values) : other.Knows known where
  distinct := hvalues ▸ h.distinct
  mem_names_iff register := by
    rw [names, hvalues]
    exact h.mem_names_iff register

theorem Knows.write (h : file.Knows known) (hzero : known zeroRegister)
    (name : String) (value : Int) :
    (file.write name value).Knows fun register =>
      known register ∨ name = register where
  distinct := distinct_write h.distinct name value
  mem_names_iff register := by
    rw [mem_names_write, h.mem_names_iff]
    constructor
    · rintro (hknown | ⟨rfl, -⟩)
      · exact .inl hknown
      · exact .inr rfl
    · rintro (hknown | rfl)
      · exact .inl hknown
      · by_cases hname : name = zeroRegister
        · exact .inl (hname ▸ hzero)
        · exact .inr ⟨rfl, hname⟩

theorem knows_initial : initial.Knows (· ∈ bankNames) where
  distinct := by
    unfold Directory.Distinct
    change initial.names.Nodup
    rw [names_initial]
    decide +kernel
  mem_names_iff register := by rw [names_initial]

end RegisterFile

namespace Machine

variable {m m' : Machine} {ledger ledger' : Ledger} {actions : List Action}
  {log : List Happening}

theorem knows_busEffect (h : m.Agrees ledger)
    (hknows : m.registers.Knows (HasValue actions ledger))
    (heffect : m.BusEffect ledger m' ledger') :
    m'.registers.Knows (HasValue actions ledger') := by
  cases heffect with
  | none _ hregisters =>
      rw [hregisters]
      exact hknows
  | vacated _ _ _ _ hregisters =>
      rw [hregisters]
      exact hknows.of_iff fun _ => HasValue.iff_of_lastWrite?_eq rfl
  | @published station ins value hgranted hins hvalue heq =>
      have hstation := station?_granted h.sound.distinct hgranted
      obtain ⟨number, hseat⟩ := h.seated_granted hgranted
      have hiff : ∀ register,
          HasValue actions (ledger.publish station.name value) register ↔
            HasValue actions ledger register ∨ ins.target? = some register := by
        intro register
        rw [HasValue.publish_iff hseat, h.target?_eq hstation hseat hins]
      rw [heq]
      cases htarget : ins.target? with
      | none =>
          rw [registers_publish_of_none _ _ htarget]
          exact hknows.of_iff fun register => by simp [hiff, htarget]
      | some target =>
          rw [registers_publish _ _ htarget]
          have hcleared := (hknows.write .zero target value).of_values_eq
            (RegisterFile.values_clearTag _ target station.name)
          exact hcleared.of_iff fun register => by simp [hiff, htarget]

theorem knows_issues (h : m.Agrees ledger)
    (hknows : m.registers.Knows (HasValue actions ledger))
    (hphase : m.Issues m' log) :
    m'.registers.Knows (HasValue actions (ledger.noteAll log)) := by
  cases hphase with
  | drained | stalled => exact hknows
  | @issued next rest station =>
      have hiff : ∀ register, HasValue actions
          (ledger.issue station.name next.instruction) register ↔
            HasValue actions ledger register := fun register =>
        HasValue.iff_of_lastWrite?_eq (Ledger.lastWrite?_issue
          (fun _ hmem => (h.unseated hmem).1) _ _ register)
      apply (hknows.of_iff hiff).of_values_eq
      dsimp only
      split
      · exact RegisterFile.values_setTag _ _ _
      · rfl

theorem knows_advance (h : m.Agrees ledger)
    (hknows : m.registers.Knows (HasValue actions ledger)) :
    m.advance.1.registers.Knows (HasValue actions (ledger.afterCycle m)) := by
  let P : Machine → Ledger → Prop := fun m ledger =>
    m.Agrees ledger ∧ m.registers.Knows (HasValue actions ledger)
  exact (advance_induction (P := P) (Q := P)
    (fun _ _ h => ⟨h.1.begin, h.2⟩)
    (fun _ ledger _ _ hphase h => ⟨h.1.writesBack hphase,
      knows_busEffect h.1 h.2 (hphase.busEffect ledger)⟩)
    (fun _ _ _ _ hphase h => ⟨h.1.issues hphase, knows_issues h.1 h.2 hphase⟩)
    (fun _ _ h => ⟨h.1.execute, h.2⟩) ⟨h, hknows⟩).2

end Machine

namespace Simulation

/-- The register file has values for the banks, for what was written from
outside, and for what has been published. -/
theorem knows_after (config : Config) (preload : List (Int × Int))
    (actions : List Action) :
    let sim := (fresh config preload).after actions
    sim.machine.registers.Knows (HasValue actions sim.ledger) := by
  induction actions using List.reverseRecOn with
  | nil =>
      refine RegisterFile.knows_initial.of_iff fun register => ?_
      constructor
      · rintro (hbank | houtside | hpublished)
        · exact hbank
        · contradiction
        · contradiction
      · exact .bank
  | append_singleton actions action ih =>
      -- `actions` grows with the run, so the invariant is one of both
      dsimp only
      rw [after_append]
      cases action with
      | cycle =>
          have hagrees := agrees_fresh config preload actions
          have hcycle := Machine.knows_advance hagrees ih
          rw [← machine_cycle, ← ledger_cycle] at hcycle
          exact hcycle.of_iff fun _ => HasValue.append_iff_of_ne (by simp)
      | writeRegister name value =>
          exact (ih.write .zero name value).of_iff fun _ =>
            HasValue.append_write_iff
      | load _ | storeWord _ _ | fillBlock _ =>
          exact ih.of_iff fun _ => HasValue.append_iff_of_ne (by simp)

/-- A tag names a station, and stations have names. -/
theorem tags_ne_empty (config : Config) (preload : List (Int × Int))
    (actions : List Action) (register : String) :
    ((fresh config preload).after actions).machine.registers.tags.get?
      register ≠ some "" := by
  intro htag
  have hagrees := agrees_fresh config preload actions
  have hplaced := placed_after config preload actions
  obtain ⟨-, number, -, hseat⟩ := (hagrees.tags register "").mp htag
  obtain ⟨station, _, hstation, -⟩ := hagrees.occupied hseat
  obtain ⟨index, -, hname⟩ :=
    hplaced.exists_index (Bank.mem_of_station? hstation)
  rw [Bank.name_of_station? hstation] at hname
  exact station.pool.slotName_ne_empty index hname.symm

/-- A simulation has a report unless the report would show an integer that
cannot be written, and the report has a section of registers.  That has one line
for each register that holds or awaits something and has a value of its own,
with the value that it holds and the tag that it carries; if there is no such
register it says so in one line, and only then.  A register without a value of
its own is missing.  It is zero, and its tag names the station at which its last
definer is still at work. -/
theorem register_section_shows_registers_with_value (config : Config)
    (preload : List (Int × Int)) (actions : List Action) :
    let sim := (fresh config preload).after actions
    let file := sim.machine.registers
    let snapshot := sim.machine.snapshot
    let lines := renderRegisters snapshot.registers snapshot.tags
    (snapshot.isWritable = false → snapshot.report = .error .unwritable) ∧
    (snapshot.isWritable = true → ∃ before behind, snapshot.report =
      .ok (before ++ "" :: "Registers:" :: lines ++ "" :: behind)) ∧
    (∃ shown : List String, shown.Nodup ∧
      (∀ register, register ∈ shown ↔
        file.HoldsOrAwaits register ∧ HasValue actions sim.ledger register) ∧
      lines = (if shown = [] then [RegisterFile.clearLine]
        else shown.map file.line) ∧
      (lines = [RegisterFile.clearLine] ↔ shown = [])) ∧
    ∀ register, file.HoldsOrAwaits register →
      ¬ HasValue actions sim.ledger register →
      file.read register = 0 ∧
        ∃ station number, file.tag? register = some station ∧
          sim.ledger.definer? register = some number ∧
          sim.ledger.seat? station = some number := by
  intro sim file snapshot lines
  have hagrees : sim.machine.Agrees sim.ledger :=
    agrees_fresh config preload actions
  have hknows : file.Knows (HasValue actions sim.ledger) :=
    knows_after config preload actions
  have hlines : lines = file.lines :=
    RegisterFile.renderRegisters_eq hknows.distinct
      (tags_ne_empty config preload actions)
  refine ⟨fun hlong => ?_, fun hwritable => ?_,
    ⟨file.shown, ?_, ?_, hlines, ?_⟩, ?_⟩
  · rw [Snapshot.report, hlong, if_neg Bool.false_ne_true]
  · rw [Snapshot.report, if_pos hwritable]
    exact ⟨_, _, rfl⟩
  · exact RegisterFile.nodup_shown hknows.distinct
  · intro register
    rw [RegisterFile.mem_shown_iff, hknows.mem_names_iff]
    exact and_comm
  · rw [hlines]
    exact RegisterFile.lines_eq_clearLine_iff
  · intro register hawaits hno
    have hread : file.read register = 0 := by
      by_contra hread
      exact hno ((hknows.mem_names_iff register).mp
        (RegisterFile.mem_names_of_read_ne_zero hread))
    obtain ⟨station, htag⟩ := Option.isSome_iff_exists.mp
      (hawaits.2.resolve_left (absurd hread))
    have hget := htag
    rw [RegisterFile.tag?, if_neg hawaits.1] at hget
    obtain ⟨-, number, hdefiner, hseat⟩ :=
      (hagrees.tags register station).mp hget
    exact ⟨hread, station, number, htag, hdefiner, hseat⟩

/-- The first write of a register outside the banks is awaited unseen.  A sum
has been issued for `X1`, which carries the tag of the sum's station.  There is a
report, and its section of registers says that there are no pending tags. -/
theorem register_section_hides_pending_register :
    let m := ((fresh .standard []).after
      [.load [{ opcode := .add, dest := "X1", src1 := "F1", src2 := "F1" }],
        .cycle]).machine
    m.registers.tag? "X1" = some "Add0" ∧
      m.snapshot.isWritable = true ∧
      renderRegisters m.snapshot.registers m.snapshot.tags =
        [RegisterFile.clearLine] := by
  decide +kernel

end Simulation

end OutOfOrder
