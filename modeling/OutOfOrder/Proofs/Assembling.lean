import Mathlib.Data.List.Nodup
import OutOfOrder.Proofs.BranchOperands

/-!
# What a source assembles to

A source that can be read becomes one instruction for each of its lines that holds
one.  No label is defined twice, and each stands for the number of instructions on
the lines in front of its own.  A branch that ends in a defined label jumps there,
and every other one jumps as far as it says.  The warning names the lines of the
former.
-/

namespace OutOfOrder.Assembly

open Text

variable {allowLabels : Bool} {labels labels' : Labels} {key : String}
  {value : Int} {index number : Nat} {label : List Char}
  {names source : List (List Char)} {bodies : List Body}

/-! ## Labels are defined once -/

/-- The labels that the lines of a source define, in their order. -/
def labelNames (source : List (List Char)) : List (List Char) :=
  source.flatMap fun line => (splitLine line).1

theorem fresh_of_addLabels
    (h : names.foldlM (addLabel allowLabels index) labels = .ok labels') :
    names.Nodup ∧ ∀ label ∈ names, labels.get? (String.ofList label) = none := by
  induction names generalizing labels with
  | nil => exact ⟨List.nodup_nil, fun _ h => absurd h List.not_mem_nil⟩
  | cons name rest ih =>
      obtain ⟨next, hnext, hrest⟩ := exists_ok_of_bind h
      obtain ⟨hnone, rfl⟩ := addLabel_eq_ok hnext
      obtain ⟨hnodup, hfresh⟩ := ih hrest
      have hnew : ∀ label ∈ rest, label ≠ name ∧
          labels.get? (String.ofList label) = none := by
        intro label hmem
        have hlabel := hfresh label hmem
        rw [Directory.get?_put] at hlabel
        split at hlabel
        · contradiction
        · next hne => exact ⟨fun heq => hne (heq ▸ rfl), hlabel⟩
      refine ⟨List.nodup_cons.mpr ⟨fun hmem => (hnew name hmem).1 rfl, hnodup⟩,
        fun label hmem => ?_⟩
      rcases List.mem_cons.mp hmem with rfl | hmem
      · exact hnone
      · exact (hnew label hmem).2

theorem get?_of_addLabels
    (h : names.foldlM (addLabel allowLabels index) labels = .ok labels')
    (hkey : labels'.get? key = some value) :
    labels.get? key = some value ∨
      ∃ label ∈ names, key = String.ofList label ∧ value = index := by
  induction names generalizing labels with
  | nil =>
      cases h
      exact .inl hkey
  | cons name rest ih =>
      obtain ⟨next, hnext, hrest⟩ := exists_ok_of_bind h
      obtain ⟨-, rfl⟩ := addLabel_eq_ok hnext
      rcases ih hrest with hold | ⟨label, hmem, hlabel⟩
      · rw [Directory.get?_put] at hold
        split at hold
        · next heq =>
            exact .inr ⟨name, List.mem_cons_self, heq,
              (Option.some.inj hold).symm⟩
        · exact .inl hold
      · exact .inr ⟨label, List.mem_cons_of_mem name hmem, hlabel⟩

theorem definesLabel_cons_of_mem {line : List Char}
    (h : label ∈ (splitLine line).1) (rest : List (List Char)) :
    DefinesLabel (line :: rest) label 0 :=
  ⟨[], line, rest, rfl, h, rfl⟩

theorem DefinesLabel.cons (h : DefinesLabel source label index)
    (line : List Char) :
    DefinesLabel (line :: source) label
      (index + if (splitLine line).2.isEmpty then 0 else 1) := by
  obtain ⟨front, defining, back, rfl, hmem, rfl⟩ := h
  refine ⟨line :: front, defining, back, rfl, hmem, ?_⟩
  rw [bodyTexts_cons]
  split <;> rfl

/-- No label of a source is defined twice, or was entered before. -/
theorem fresh_of_survey
    (h : survey allowLabels number index labels source =
      .ok (bodies, labels')) :
    (labelNames source).Nodup ∧ ∀ label ∈ labelNames source,
      labels.get? (String.ofList label) = none := by
  induction source generalizing number index labels bodies with
  | nil => exact ⟨List.nodup_nil, fun _ h => absurd h List.not_mem_nil⟩
  | cons line rest ih =>
      obtain ⟨entered, hentered, hrest⟩ := survey_cons h
      have hlater : (labelNames rest).Nodup ∧ ∀ label ∈ labelNames rest,
          entered.get? (String.ofList label) = none := by
        rcases hrest with ⟨-, hrest⟩ | ⟨-, more, -, hrest⟩
        · exact ih hrest
        · exact ih hrest
      obtain ⟨hnodup, hfresh⟩ := fresh_of_addLabels hentered
      have hunentered : ∀ label, label ∈ labelNames rest →
          label ∉ (splitLine line).1 ∧
            labels.get? (String.ofList label) = none := by
        intro label hmem
        have hnone := hlater.2 label hmem
        refine ⟨fun hline => ?_, Option.eq_none_iff_forall_ne_some.mpr
          fun place hplace => ?_⟩
        · rw [get?_addLabels_of_mem hentered hline] at hnone
          contradiction
        · rw [get?_addLabels hentered hplace] at hnone
          contradiction
      rw [labelNames, List.flatMap_cons]
      refine ⟨hnodup.append hlater.1 fun label hline hmem =>
        (hunentered label hmem).1 hline, fun label hmem => ?_⟩
      rcases List.mem_append.mp hmem with hline | hmem
      · exact hfresh label hline
      · exact (hunentered label hmem).2

/-- What stands in the directory at the end was entered before, or is a label of
the source under the number of instructions in front of it. -/
theorem definesLabel_of_get?_survey
    (h : survey allowLabels number index labels source =
      .ok (bodies, labels'))
    (hkey : labels'.get? key = some value) :
    labels.get? key = some value ∨
      ∃ label place, key = String.ofList label ∧
        value = (index + place : Nat) ∧ DefinesLabel source label place := by
  induction source generalizing number index labels bodies with
  | nil =>
      cases h
      exact .inl hkey
  | cons line rest ih =>
      obtain ⟨entered, hentered, hrest⟩ := survey_cons h
      have hlater : entered.get? key = some value ∨
          ∃ label place, key = String.ofList label ∧
            value = (index + place : Nat) ∧
            DefinesLabel (line :: rest) label place := by
        rcases hrest with ⟨hempty, hrest⟩ | ⟨hbody, more, -, hrest⟩
        · refine (ih hrest).imp_right ?_
          rintro ⟨label, place, hlabel, hplace, hdefines⟩
          have hcons := hdefines.cons line
          rw [if_pos hempty] at hcons
          exact ⟨label, place, hlabel, hplace, hcons⟩
        · refine (ih hrest).imp_right ?_
          rintro ⟨label, place, hlabel, hplace, hdefines⟩
          have hcons := hdefines.cons line
          rw [hbody, if_neg Bool.false_ne_true] at hcons
          refine ⟨label, place + 1, hlabel, ?_, hcons⟩
          rw [hplace]
          omega
      rcases hlater with hentry | hdefined
      · rcases get?_of_addLabels hentered hentry with hold | ⟨label, hmem, hlabel⟩
        · exact .inl hold
        · exact .inr ⟨label, 0, hlabel.1, hlabel.2,
            definesLabel_cons_of_mem hmem rest⟩
      · exact .inr hdefined

/-- The directory holds the labels of the source, each under the number of
instructions in front of it, and nothing else. -/
def IsTable (labels : Labels) (source : List (List Char)) : Prop :=
  ∀ label place, labels.get? (String.ofList label) = some place ↔
    ∃ index : Nat, place = index ∧ DefinesLabel source label index

theorem isTable_of_survey
    (h : survey allowLabels number 0 {} source = .ok (bodies, labels)) :
    IsTable labels source := by
  intro label place
  constructor
  · intro hplace
    rcases definesLabel_of_get?_survey h hplace with hold |
      ⟨other, index, hother, hindex, hdefines⟩
    · contradiction
    · rw [Nat.zero_add] at hindex
      rw [String.ofList_injective hother]
      exact ⟨index, hindex, hdefines⟩
  · rintro ⟨index, rfl, hdefines⟩
    have hplace := get?_survey_of_definesLabel h hdefines
    rwa [Nat.zero_add] at hplace

/-! ## Where the instructions stand -/

/-- The instructions of a source whose first line has the number. -/
def placed (number : Nat) : List (List Char) → List Body
  | [] => []
  | line :: rest =>
    if (splitLine line).2.isEmpty then placed (number + 1) rest
    else ⟨number, line, (splitLine line).2⟩ :: placed (number + 1) rest

/-- The line of this number holds this text of an instruction, with a number of
instructions on the lines in front of it. -/
def Holds (source : List (List Char)) (number index : Nat) (text : List Char) :
    Prop :=
  ∃ front line back, source = front ++ line :: back ∧
    number = front.length + 1 ∧ index = (bodyTexts front).length ∧
    (splitLine line).2 = text ∧ text ≠ []

theorem bodies_eq_placed
    (h : survey allowLabels number index labels source =
      .ok (bodies, labels')) :
    bodies = placed number source := by
  induction source generalizing number index labels bodies with
  | nil =>
      cases h
      rfl
  | cons line rest ih =>
      rw [placed]
      obtain ⟨entered, -, ⟨hempty, hrest⟩ | ⟨hbody, more, rfl, hmore⟩⟩ :=
        survey_cons h
      · rw [if_pos hempty]
        exact ih hrest
      · rw [hbody, if_neg Bool.false_ne_true, ih hmore]

theorem le_lineNumber_of_mem_placed {body : Body}
    (h : body ∈ placed number source) : number ≤ body.lineNumber := by
  induction source generalizing number with
  | nil => cases h
  | cons line rest ih =>
      rw [placed] at h
      split at h
      · exact Nat.le_of_succ_le (ih h)
      · rcases List.mem_cons.mp h with rfl | hmem
        · exact Nat.le_refl _
        · exact Nat.le_of_succ_le (ih hmem)

theorem pairwise_lineNumber_placed (number : Nat) (source : List (List Char)) :
    (placed number source).Pairwise (·.lineNumber < ·.lineNumber) := by
  induction source generalizing number with
  | nil => exact .nil
  | cons line rest ih =>
      rw [placed]
      split
      · exact ih (number + 1)
      · exact .cons (fun body hmem => le_lineNumber_of_mem_placed hmem)
          (ih (number + 1))

theorem holds_of_getElem?_placed {body : Body} (number : Nat)
    (h : (placed (number + 1) source)[index]? = some body) :
    ∃ distance, body.lineNumber = number + distance ∧
      Holds source distance index body.text := by
  induction source generalizing number index with
  | nil => cases h
  | cons line rest ih =>
      rw [placed] at h
      have hlater : ∀ {index},
          (placed (number + 1 + 1) rest)[index]? = some body →
          ∃ distance, body.lineNumber = number + distance ∧
            Holds (line :: rest) distance
              (index + if (splitLine line).2.isEmpty then 0 else 1)
              body.text := by
        intro index hbody
        obtain ⟨_, hnumber, front, other, back, rfl, rfl, rfl, htext⟩ :=
          ih (number + 1) hbody
        refine ⟨(line :: front).length + 1, ?_, line :: front, other, back, rfl,
          rfl, ?_, htext⟩
        · rw [hnumber, List.length_cons]
          omega
        · rw [bodyTexts_cons]
          split <;> rfl
      split at h
      · next hempty =>
          have hholds := hlater h
          rwa [if_pos hempty, Nat.add_zero] at hholds
      · next hbody =>
          cases index with
          | zero =>
              cases h
              refine ⟨1, rfl, [], line, rest, rfl, rfl, rfl, rfl, ?_⟩
              simpa using hbody
          | succ index =>
              have hholds := hlater h
              rwa [if_neg hbody] at hholds

/-- The instruction of a line stands among those of the source behind those of the
lines in front of it. -/
theorem exists_getElem?_placed {distance : Nat} {text : List Char}
    (number : Nat) (h : Holds source distance index text) :
    ∃ body, (placed (number + 1) source)[index]? = some body ∧
      body.lineNumber = number + distance ∧ body.text = text := by
  obtain ⟨front, line, back, rfl, rfl, rfl, rfl, hne⟩ := h
  induction front generalizing number with
  | nil =>
      have hbody : ¬(splitLine line).2.isEmpty = true := by simpa using hne
      rw [List.nil_append, placed, if_neg hbody]
      exact ⟨_, rfl, rfl, rfl⟩
  | cons first rest ih =>
      obtain ⟨body, hbody, hnumber, htext⟩ := ih (number + 1)
      refine ⟨body, ?_, ?_, htext⟩
      · rw [List.cons_append, placed, bodyTexts_cons]
        split
        · exact hbody
        · exact hbody
      · rw [hnumber, List.length_cons]
        omega

/-! ## The program -/

theorem length_decodeBodies {program : List Instruction}
    (h : decodeBodies labels index bodies = .ok program) :
    program.length = bodies.length := by
  induction bodies generalizing index program with
  | nil =>
      cases h
      rfl
  | cons body rest ih =>
      obtain ⟨head, -, hmore⟩ := exists_ok_of_bind h
      obtain ⟨tail, htail, heq⟩ := exists_ok_of_bind hmore
      cases heq
      rw [List.length_cons, ih htail, List.length_cons]

theorem DefinesLabel.le_length (h : DefinesLabel source label index) :
    index ≤ (bodyTexts source).length := by
  obtain ⟨front, line, back, rfl, -, rfl⟩ := h
  simp only [bodyTexts, List.map_append, List.filter_append, List.length_append]
  omega

theorem DefinesLabel.isLabelName (h : DefinesLabel source label index) :
    IsLabelName label := by
  obtain ⟨front, line, back, -, hmem, -⟩ := h
  exact isLabelName_of_mem_splitLabels hmem

/-- How far a branch jumps that ends in this operand. -/
theorem IsTable.parseDistance_cases {operand : List Char} {place distance : Int}
    (h : IsTable labels source)
    (hdistance : parseDistance labels place operand = .ok distance) :
    (∀ index : Nat, DefinesLabel source operand index →
      place + 1 + distance = index) ∧
    ((∀ index, ¬DefinesLabel source operand index) →
      parseInteger operand = .ok distance) := by
  rw [parseDistance] at hdistance
  cases hfound : labels.get? (String.ofList operand) with
  | some destination =>
      rw [hfound] at hdistance
      cases hdistance
      obtain ⟨index, -, hdefines⟩ := (h operand destination).mp hfound
      refine ⟨fun index hdefines => ?_, fun hnone =>
        absurd hdefines (hnone index)⟩
      rw [(h operand index).mpr ⟨index, rfl, hdefines⟩] at hfound
      cases hfound
      omega
  | none =>
      rw [hfound] at hdistance
      refine ⟨fun index hdefines => ?_, fun _ => eq_ok_of_mapError hdistance⟩
      rw [(h operand index).mpr ⟨index, rfl, hdefines⟩] at hfound
      contradiction

theorem IsTable.contains_iff (h : IsTable labels source) (label : List Char) :
    labels.contains (String.ofList label) = true ↔
      ∃ index, DefinesLabel source label index := by
  rw [Directory.contains, Option.isSome_iff_exists]
  constructor
  · rintro ⟨place, hplace⟩
    obtain ⟨index, -, hdefines⟩ := (h label place).mp hplace
    exact ⟨index, hdefines⟩
  · rintro ⟨index, hdefines⟩
    exact ⟨index, (h label index).mpr ⟨index, rfl, hdefines⟩⟩

/-! ### What is decoded -/

/-- The program is decoded from the instructions of the source, with its labels
known, and the lines of the branches to labels are collected. -/
structure Assembled.Decodes (assembled : Assembled) (source : List (List Char))
    (labels : Labels) : Prop where
  table : IsTable labels source
  texts : (placed 1 source).map (·.text) = bodyTexts source
  program : decodeBodies labels 0 (placed 1 source) = .ok assembled.program
  labelBranches : assembled.labelBranches =
    (((placed 1 source).zip assembled.program).filter fun (body, ins) =>
      ins.opcode.isBranch && endsInLabel labels body.text).map (·.1.lineNumber)

/-- What can be read is decoded, and no label was defined twice. -/
theorem exists_decodes_of_assemble {assembled : Assembled}
    (h : assemble allowLabels source = .ok assembled) :
    (labelNames source).Nodup ∧ ∃ labels, assembled.Decodes source labels := by
  obtain ⟨⟨bodies, labels⟩, hsurvey, h⟩ := exists_ok_of_bind h
  obtain ⟨program, hprogram, heq⟩ := exists_ok_of_bind h
  obtain rfl := bodies_eq_placed hsurvey
  cases heq
  exact ⟨(fresh_of_survey hsurvey).1, labels, {
    table := isTable_of_survey hsurvey
    texts := map_text_survey hsurvey
    program := hprogram
    labelBranches := rfl }⟩

section Decodes

variable {assembled : Assembled} {text : List Char} {ins : Instruction}
  {body : Body}

theorem Assembled.Decodes.length_eq (h : assembled.Decodes source labels) :
    assembled.program.length = (placed 1 source).length :=
  length_decodeBodies h.program

theorem Assembled.Decodes.decode_eq (h : assembled.Decodes source labels)
    (hbody : (placed 1 source)[index]? = some body)
    (hins : assembled.program[index]? = some ins) :
    decode labels index body.text = .ok ins := by
  obtain ⟨other, hother, hdecode⟩ := exists_body_of_decodeBodies h.program hins
  rw [hbody] at hother
  cases hother
  rwa [Nat.zero_add] at hdecode

theorem Assembled.Decodes.exists_decode_eq (h : assembled.Decodes source labels)
    (htext : (bodyTexts source)[index]? = some text) :
    ∃ ins, assembled.program[index]? = some ins ∧
      decode labels index text = .ok ins := by
  rw [← h.texts, List.getElem?_map, Option.map_eq_some_iff] at htext
  obtain ⟨body, hbody, rfl⟩ := htext
  have hlt := (List.getElem?_eq_some_iff.mp hbody).1
  rw [← h.length_eq] at hlt
  have hins := List.getElem?_eq_getElem hlt
  exact ⟨_, hins, h.decode_eq hbody hins⟩

theorem Assembled.Decodes.exists_distance (h : assembled.Decodes source labels)
    (htext : (bodyTexts source)[index]? = some text)
    (hins : assembled.program[index]? = some ins)
    (hbranch : ins.opcode.isBranch = true) :
    ∃ operand distance, EndsIn text operand ∧ ins.immediate = some distance ∧
      (∀ place : Nat, DefinesLabel source operand place →
        (index : Int) + 1 + distance = place) ∧
      ((∀ place, ¬DefinesLabel source operand place) →
        parseInteger operand = .ok distance) := by
  obtain ⟨other, hother, hdecode⟩ := h.exists_decode_eq htext
  rw [hins] at hother
  cases hother
  obtain ⟨operand, hends, hdistance⟩ := exists_endsIn_of_decode hdecode hbranch
  exact ⟨operand, ins.constant, hends, immediate_of_isBranch hdecode hbranch,
    h.table.parseDistance_cases hdistance⟩

theorem Assembled.Decodes.pairwise_labelBranches
    (h : assembled.Decodes source labels) :
    assembled.labelBranches.Pairwise (· < ·) := by
  have hfirst : ((placed 1 source).zip assembled.program).map Prod.fst =
      placed 1 source :=
    List.map_fst_zip (Nat.le_of_eq h.length_eq.symm)
  have hplaced := pairwise_lineNumber_placed 1 source
  rw [← hfirst] at hplaced
  rw [h.labelBranches]
  exact List.pairwise_map.mpr ((List.pairwise_map.mp hplaced).filter _)

/-- A branch that ends in a defined label stands on the line of this number. -/
def Assembled.BranchesOn (assembled : Assembled) (source : List (List Char))
    (number : Nat) : Prop :=
  ∃ (index : Nat) (text : List Char) (ins : Instruction) (operand : List Char)
    (place : Nat),
    Holds source number index text ∧ assembled.program[index]? = some ins ∧
      ins.opcode.isBranch = true ∧ EndsIn text operand ∧
      DefinesLabel source operand place

/-- The lines of these instructions, where a condition holds of an instruction and
what it is decoded to. -/
theorem mem_numbers_iff {program : List Instruction}
    {condition : Body × Instruction → Bool} :
    number ∈ ((bodies.zip program).filter condition).map (·.1.lineNumber) ↔
      ∃ (index : Nat) (body : Body) (ins : Instruction),
        bodies[index]? = some body ∧ program[index]? = some ins ∧
          condition (body, ins) = true ∧ body.lineNumber = number := by
  simp only [List.mem_map, List.mem_filter]
  constructor
  · rintro ⟨⟨body, ins⟩, ⟨hmem, hholds⟩, rfl⟩
    obtain ⟨index, hpair⟩ := List.mem_iff_getElem?.mp hmem
    obtain ⟨hbody, hins⟩ := List.getElem?_zip_eq_some.mp hpair
    exact ⟨index, body, ins, hbody, hins, hholds, rfl⟩
  · rintro ⟨index, body, ins, hbody, hins, hholds, rfl⟩
    have hpair := List.getElem?_zip_eq_some (z := (body, ins)) |>.mpr
      ⟨hbody, hins⟩
    exact ⟨(body, ins), ⟨List.mem_of_getElem? hpair, hholds⟩, rfl⟩

theorem Assembled.Decodes.mem_labelBranches_iff
    (h : assembled.Decodes source labels) :
    number ∈ assembled.labelBranches ↔ assembled.BranchesOn source number := by
  rw [h.labelBranches, mem_numbers_iff]
  simp only [Bool.and_eq_true]
  constructor
  · rintro ⟨index, body, ins, hbody, hins, ⟨hbranch, hlabel⟩, rfl⟩
    obtain ⟨operand, hends, -⟩ :=
      exists_endsIn_of_decode (h.decode_eq hbody hins) hbranch
    rw [hends.endsInLabel_eq, h.table.contains_iff] at hlabel
    obtain ⟨place, hdefines⟩ := hlabel
    obtain ⟨distance, hnumber, hholds⟩ := holds_of_getElem?_placed 0 hbody
    rw [Nat.zero_add] at hnumber
    exact ⟨index, body.text, ins, operand, place, hnumber ▸ hholds, hins,
      hbranch, hends, hdefines⟩
  · rintro ⟨index, text, ins, operand, place, hholds, hins, hbranch, hends,
      hdefines⟩
    obtain ⟨body, hbody, hnumber, rfl⟩ := exists_getElem?_placed 0 hholds
    rw [Nat.zero_add] at hnumber
    refine ⟨index, body, ins, hbody, hins, ⟨hbranch, ?_⟩, hnumber⟩
    rw [hends.endsInLabel_eq]
    exact (h.table.contains_iff operand).mpr ⟨place, hdefines⟩

end Decodes

/-! ### What the source says -/

/-- The warning that names the lines of these numbers. -/
def warning (numbers : List Nat) : LogRecord :=
  { level := .warning
    source := .loader
    message := "Label branches on line(s) " ++
      String.intercalate ", " (numbers.map toString) ++
      ": a taken branch lands on its label " ++
      "only if no later instruction issues before it resolves" }

/-- The program has what the lines of the source say. -/
structure Assembled.Renders (assembled : Assembled)
    (source : List (List Char)) : Prop where
  /-- What a line is read as is what it says. -/
  reading : ∀ line ∈ source, ∀ names body,
    LineSays line names body ↔ splitLine line = (names, body)
  /-- There is one instruction for every line that holds one. -/
  length : assembled.program.length = (bodyTexts source).length
  distinct : (labelNames source).Nodup
  /-- No label stands behind the end of the program, and none can be read as an
  integer. -/
  labels : ∀ label index, DefinesLabel source label index →
    index ≤ assembled.program.length ∧
      ∀ value, parseInteger label ≠ .ok value
  /-- Every instruction is decoded from its line, with the labels of all lines
  known. -/
  decoded : ∃ labels, IsTable labels source ∧
    ∀ (index : Nat) (text : List Char), (bodyTexts source)[index]? = some text →
      ∃ ins, assembled.program[index]? = some ins ∧
        decode labels index text = .ok ins
  /-- A branch that ends in a defined label jumps there from behind itself, and
  every other one jumps as far as it says. -/
  branches : ∀ (index : Nat) (text : List Char) (ins : Instruction),
    (bodyTexts source)[index]? = some text →
    assembled.program[index]? = some ins → ins.opcode.isBranch = true →
    ∃ operand distance, EndsIn text operand ∧ ins.immediate = some distance ∧
      (∀ place : Nat, DefinesLabel source operand place →
        (index : Int) + 1 + distance = place) ∧
      ((∀ place, ¬DefinesLabel source operand place) →
        parseInteger operand = .ok distance)
  ordered : assembled.labelBranches.Pairwise (· < ·)
  /-- The lines that are named are those of the branches that end in a defined
  label. -/
  named : ∀ number,
    number ∈ assembled.labelBranches ↔ assembled.BranchesOn source number
  quiet : assembled.labelBranches = [] → assembled.log = []
  warned : assembled.labelBranches ≠ [] →
    assembled.log = [warning assembled.labelBranches]

theorem Assembled.log_of_ne_nil {assembled : Assembled}
    (h : assembled.labelBranches ≠ []) :
    assembled.log = [warning assembled.labelBranches] := by
  have hsome : ¬assembled.labelBranches.isEmpty = true := by simpa using h
  rw [Assembled.log, if_neg hsome]
  rfl

/-- **A program has what its source says.**  Of every text, and of all lines in
which no line feed stands inside, that can be read, the program has one
instruction for each line that holds one, decoded at its place.  Labels are
distinct, and stand for the number of instructions on the lines in front; a branch
that ends in one jumps there, and no other branch could be meant.  One warning
names the lines of these branches in their order, if there are any. -/
theorem program_renders_source {assembled : Assembled}
    (hsource : (∃ text, source = lines text) ∨
      ∀ line ∈ source, IsUnbroken line)
    (h : assemble allowLabels source = .ok assembled) :
    assembled.Renders source := by
  have hunbroken : ∀ line ∈ source, IsUnbroken line := by
    rcases hsource with ⟨text, rfl⟩ | hsource
    · exact fun line hmem hfeed => lineFeed_notMem_of_mem_lines hmem
        ((List.dropLast_prefix line).subset hfeed)
    · exact hsource
  obtain ⟨hdistinct, labels, hdecodes⟩ := exists_decodes_of_assemble h
  have hlength : assembled.program.length = (bodyTexts source).length := by
    rw [hdecodes.length_eq, ← hdecodes.texts, List.length_map]
  exact {
    reading := fun line hmem names body => lineSays_iff (hunbroken line hmem)
    length := hlength
    distinct := hdistinct
    labels := fun label index hdefines =>
      ⟨hlength ▸ hdefines.le_length, hdefines.isLabelName.parseInteger_ne_ok⟩
    decoded := ⟨labels, hdecodes.table, fun index text htext =>
      hdecodes.exists_decode_eq htext⟩
    branches := fun index text ins htext hins hbranch =>
      hdecodes.exists_distance htext hins hbranch
    ordered := hdecodes.pairwise_labelBranches
    named := fun number => hdecodes.mem_labelBranches_iff
    quiet := fun hnone => if_pos (List.isEmpty_iff.mpr hnone)
    warned := Assembled.log_of_ne_nil }

/-- Two labels in front of one instruction and one at the end, where two branches
jump forward and back. -/
theorem loop_renders_source :
    let source := ["start: loop: ADDI R1, R0, 1 # one".toList, [],
      "BNE R1, R2, end ; out".toList, "BEQ R0, R0, loop".toList,
      "BNE R0, R0, 0x1".toList, "end:".toList]
    ∃ assembled, assemble true source = .ok assembled ∧
      assembled.Renders source ∧
      assembled.program.map (·.immediate) = [some 1, some 2, some (-3), some 1] ∧
      assembled.labelBranches = [3, 4] := by
  intro source
  have hassemble : (assemble true source).toOption.map (fun assembled =>
      (assembled.program.map (·.immediate), assembled.labelBranches)) =
        some ([some 1, some 2, some (-3), some 1], [3, 4]) := by
    decide +kernel
  obtain ⟨assembled, hassembled, hsame⟩ := Option.map_eq_some_iff.mp hassemble
  have hload := eq_ok_of_toOption hassembled
  obtain ⟨himmediates, hbranches⟩ := Prod.mk.inj hsame
  exact ⟨assembled, hload, program_renders_source (.inr (by decide +kernel)) hload,
    himmediates, hbranches⟩

end OutOfOrder.Assembly
