import OutOfOrder.Assembly.Source

/-!
# Labels and the distances of branches

A label that a source defines stands for the number of instructions in front of
it.  Reading collects the labels first, each under its index, and then gives
every branch that names one the distance from behind the branch to that index.
-/

namespace OutOfOrder.Assembly

open Text

/-! ## What a source says -/

def bodyTexts (source : List (List Char)) : List (List Char) :=
  (source.map fun line => (splitLine line).2).filter (!·.isEmpty)

/-- A line of the source defines a label, with a number of instructions in front
of it. -/
def DefinesLabel (source : List (List Char)) (label : List Char) (index : Nat) :
    Prop :=
  ∃ front line back, source = front ++ line :: back ∧
    label ∈ (splitLine line).1 ∧ (bodyTexts front).length = index

/-- The texts of the operands of an instruction. -/
def operandTexts (text : List Char) : List (List Char) :=
  match firstWord? (strip text) with
  | none => []
  | some (_, rest) => splitOperands rest

/-- The instruction at an index of the source has a label for its third
operand. -/
def NamesLabel (source : List (List Char)) (index : Nat) (label : List Char) :
    Prop :=
  ∃ text, (bodyTexts source)[index]? = some text ∧
    (operandTexts text)[2]? = some label

theorem bodyTexts_cons (line : List Char) (rest : List (List Char)) :
    bodyTexts (line :: rest) =
      if (splitLine line).2.isEmpty then bodyTexts rest
      else (splitLine line).2 :: bodyTexts rest := by
  rw [bodyTexts, List.map_cons, List.filter_cons, bodyTexts]
  cases (splitLine line).2.isEmpty <;> rfl

/-! ## Results without an error -/

section Results

variable {ε ε' α β : Type} {result : Except ε α} {value : α} {next : β}

theorem eq_ok_of_mapError {change : ε → ε'}
    (h : result.mapError change = .ok value) : result = .ok value := by
  cases result with
  | error => nomatch h
  | ok => exact congrArg Except.ok (Except.ok.inj h)

theorem eq_ok_of_toOption (h : result.toOption = some value) :
    result = .ok value := by
  cases result with
  | error => nomatch h
  | ok => exact congrArg Except.ok (Option.some.inj h)

theorem exists_ok_of_bind {go : α → Except ε β} (h : result >>= go = .ok next) :
    ∃ value, result = .ok value ∧ go value = .ok next := by
  cases result with
  | error => nomatch h
  | ok value => exact ⟨value, rfl, h⟩

end Results

/-! ## Collecting the labels -/

variable {allowLabels : Bool} {labels labels' : Labels} {key : String}
  {value : Int} {index : Nat} {label : List Char}

theorem addLabel_eq_ok
    (h : addLabel allowLabels index labels label = .ok labels') :
    labels.get? (String.ofList label) = none ∧
      labels' = labels.put (String.ofList label) index := by
  unfold addLabel at h
  split at h
  · nomatch h
  · split at h
    · nomatch h
    · next hfresh =>
        have hnone : labels.get? (String.ofList label) = none := by
          simpa [Directory.contains] using hfresh
        exact ⟨hnone, (Except.ok.inj h).symm⟩

/-- Whoever is entered already stays where it is. -/
theorem get?_addLabel (h : addLabel allowLabels index labels label = .ok labels')
    (hkey : labels.get? key = some value) : labels'.get? key = some value := by
  obtain ⟨hnone, rfl⟩ := addLabel_eq_ok h
  have hne : key ≠ String.ofList label := by
    rintro rfl
    rw [hnone] at hkey
    nomatch hkey
  rw [Directory.get?_put, if_neg hne, hkey]

theorem get?_addLabels {names : List (List Char)}
    (h : names.foldlM (addLabel allowLabels index) labels = .ok labels')
    (hkey : labels.get? key = some value) : labels'.get? key = some value := by
  induction names generalizing labels with
  | nil =>
      cases h
      exact hkey
  | cons name rest ih =>
      obtain ⟨next, hnext, hrest⟩ := exists_ok_of_bind h
      exact ih hrest (get?_addLabel hnext hkey)

/-- Each label of a line is entered under the index of the line. -/
theorem get?_addLabels_of_mem {names : List (List Char)}
    (h : names.foldlM (addLabel allowLabels index) labels = .ok labels')
    (hmem : label ∈ names) :
    labels'.get? (String.ofList label) = some (index : Int) := by
  induction names generalizing labels with
  | nil => nomatch hmem
  | cons name rest ih =>
      obtain ⟨next, hnext, hrest⟩ := exists_ok_of_bind h
      rcases List.mem_cons.mp hmem with rfl | hmem
      · obtain ⟨-, rfl⟩ := addLabel_eq_ok hnext
        refine get?_addLabels hrest ?_
        rw [Directory.get?_put, if_pos rfl]
      · exact ih hrest hmem

/-- A line is read by entering its labels, and goes before the rest with its
instruction if it has one. -/
theorem survey_cons {lineNumber : Nat} {line : List Char}
    {rest : List (List Char)} {bodies : List Body}
    (h : survey allowLabels lineNumber index labels (line :: rest) =
      .ok (bodies, labels')) :
    ∃ entered, (splitLine line).1.foldlM (addLabel allowLabels index) labels =
        .ok entered ∧
      ((splitLine line).2.isEmpty = true ∧
          survey allowLabels (lineNumber + 1) index entered rest =
            .ok (bodies, labels') ∨
        (splitLine line).2.isEmpty = false ∧
          ∃ more, bodies = ⟨lineNumber, line, (splitLine line).2⟩ :: more ∧
            survey allowLabels (lineNumber + 1) (index + 1) entered rest =
              .ok (more, labels')) := by
  rw [survey] at h
  generalize splitLine line = parts at h ⊢
  obtain ⟨names, text⟩ := parts
  obtain ⟨entered, hentered, hrest⟩ := exists_ok_of_bind h
  refine ⟨entered, eq_ok_of_mapError hentered, ?_⟩
  split at hrest
  · next hempty => exact .inl ⟨hempty, hrest⟩
  · next hbody =>
      obtain ⟨⟨more, after⟩, hmore, heq⟩ := exists_ok_of_bind hrest
      cases heq
      exact .inr ⟨by simpa using hbody, more, rfl, hmore⟩

section Survey

variable {lineNumber : Nat} {source : List (List Char)} {bodies : List Body}

/-- The instructions of a source are collected in their order. -/
theorem map_text_survey
    (h : survey allowLabels lineNumber index labels source =
      .ok (bodies, labels')) :
    bodies.map (·.text) = bodyTexts source := by
  induction source generalizing lineNumber index labels bodies with
  | nil =>
      cases h
      rfl
  | cons line rest ih =>
      obtain ⟨entered, -, ⟨hempty, hrest⟩ | ⟨hbody, more, rfl, hmore⟩⟩ :=
        survey_cons h
      · rw [bodyTexts_cons, if_pos hempty]
        exact ih hrest
      · rw [bodyTexts_cons, hbody, if_neg Bool.false_ne_true, List.map_cons,
          ih hmore]

theorem get?_survey
    (h : survey allowLabels lineNumber index labels source =
      .ok (bodies, labels'))
    (hkey : labels.get? key = some value) : labels'.get? key = some value := by
  induction source generalizing lineNumber index labels bodies with
  | nil =>
      cases h
      exact hkey
  | cons line rest ih =>
      obtain ⟨entered, hentered, ⟨-, hrest⟩ | ⟨-, more, -, hmore⟩⟩ :=
        survey_cons h
      · exact ih hrest (get?_addLabels hentered hkey)
      · exact ih hmore (get?_addLabels hentered hkey)

/-- A label stands behind as many instructions as there are in front of it. -/
theorem get?_survey_of_definesLabel {place : Nat}
    (h : survey allowLabels lineNumber index labels source =
      .ok (bodies, labels'))
    (hlabel : DefinesLabel source label place) :
    labels'.get? (String.ofList label) = some ((index + place : Nat) : Int) := by
  obtain ⟨front, line, back, rfl, hmem, hplace⟩ := hlabel
  induction front generalizing lineNumber index labels bodies place with
  | nil =>
      cases hplace
      obtain ⟨entered, hentered, ⟨-, hrest⟩ | ⟨-, more, -, hmore⟩⟩ :=
        survey_cons h
      · exact get?_survey hrest (get?_addLabels_of_mem hentered hmem)
      · exact get?_survey hmore (get?_addLabels_of_mem hentered hmem)
  | cons first rest ih =>
      obtain ⟨entered, -, ⟨hempty, hrest⟩ | ⟨hbody, more, -, hmore⟩⟩ :=
        survey_cons h
      · rw [bodyTexts_cons, if_pos hempty] at hplace
        exact ih hrest hplace
      · rw [bodyTexts_cons, hbody, if_neg Bool.false_ne_true,
          List.length_cons] at hplace
        rw [ih hmore rfl, ← hplace, Nat.add_right_comm, Nat.add_assoc]

end Survey

/-! ## Decoding -/

theorem exists_body_of_decodeBodies {bodies : List Body}
    {program : List Instruction} {ins : Instruction} {first : Nat}
    (h : decodeBodies labels first bodies = .ok program)
    (hins : program[index]? = some ins) :
    ∃ body, bodies[index]? = some body ∧
      decode labels (first + index : Nat) body.text = .ok ins := by
  induction bodies generalizing first index program with
  | nil =>
      cases h
      nomatch hins
  | cons body rest ih =>
      obtain ⟨head, hhead, hmore⟩ := exists_ok_of_bind h
      obtain ⟨tail, htail, heq⟩ := exists_ok_of_bind hmore
      cases heq
      cases index with
      | zero =>
          cases hins
          exact ⟨body, rfl, eq_ok_of_mapError hhead⟩
      | succ index =>
          obtain ⟨other, hother, hdecode⟩ := ih htail hins
          refine ⟨other, hother, ?_⟩
          rw [Nat.add_right_comm] at hdecode
          exact hdecode

variable {opcode : Opcode} {operands : List (List Char)} {text : List Char}
  {spelling : String} {place : Int} {ins : Instruction}

theorem opcode_of_decodeOperands
    (h : decodeOperands labels place spelling opcode operands = .ok ins) :
    ins.opcode = opcode := by
  unfold decodeOperands at h
  split at h
  case h_6 =>
    cases h
    rfl
  case h_7 => nomatch h
  all_goals
    obtain ⟨_, _, h⟩ := exists_ok_of_bind h
    obtain ⟨_, _, h⟩ := exists_ok_of_bind h
  case h_1 | h_2 =>
    cases h
    rfl
  all_goals
    obtain ⟨_, _, h⟩ := exists_ok_of_bind h
    cases h
    rfl

/-- A branch jumps the distance that its third operand says. -/
theorem parseDistance_of_decodeOperands
    (h : decodeOperands labels place spelling opcode operands = .ok ins)
    (hbranch : opcode.form = .branch) (hlabel : operands[2]? = some label) :
    parseDistance labels place label = .ok ins.constant := by
  unfold decodeOperands at h
  rw [hbranch] at h
  split at h
  case h_5 =>
    obtain ⟨_, _, h⟩ := exists_ok_of_bind h
    obtain ⟨_, _, h⟩ := exists_ok_of_bind h
    obtain ⟨distance, hdistance, heq⟩ := exists_ok_of_bind h
    cases heq
    cases hlabel
    exact hdistance
  all_goals contradiction

theorem parseDistance_of_decode (h : decode labels place text = .ok ins)
    (hbranch : ins.opcode.isBranch = true)
    (hlabel : (operandTexts text)[2]? = some label) :
    parseDistance labels place label = .ok ins.constant := by
  unfold decode at h
  unfold operandTexts at hlabel
  dsimp only at h
  split at h
  · nomatch h
  · next mnemonic rest hwords =>
      rw [hwords] at hlabel
      split at h
      · nomatch h
      · have hopcode := opcode_of_decodeOperands h
        refine parseDistance_of_decodeOperands h ?_ hlabel
        rw [← hopcode]
        simpa [Opcode.isBranch] using hbranch

/-- A branch that names a label jumps from behind itself to the index of the
label. -/
theorem constant_of_namesLabel {source : List (List Char)}
    {assembled : Assembled} {place index : Nat}
    (h : assemble allowLabels source = .ok assembled)
    (hdefines : DefinesLabel source label index)
    (hnames : NamesLabel source place label)
    (hins : assembled.program[place]? = some ins)
    (hbranch : ins.opcode.isBranch = true) :
    ins.constant = index - (place + 1) := by
  obtain ⟨⟨bodies, labels⟩, hsurvey, h⟩ := exists_ok_of_bind h
  obtain ⟨program, hprogram, heq⟩ := exists_ok_of_bind h
  cases heq
  obtain ⟨text, htext, hlabel⟩ := hnames
  obtain ⟨body, hbody, hdecode⟩ := exists_body_of_decodeBodies hprogram hins
  have hsame : body.text = text := by
    rw [← map_text_survey hsurvey, List.getElem?_map, hbody] at htext
    exact Option.some.inj htext
  rw [hsame, Nat.zero_add] at hdecode
  have hdistance := parseDistance_of_decode hdecode hbranch hlabel
  have hindex := get?_survey_of_definesLabel hsurvey hdefines
  rw [Nat.zero_add] at hindex
  rw [parseDistance, hindex] at hdistance
  exact (Except.ok.inj hdistance).symm

end OutOfOrder.Assembly
