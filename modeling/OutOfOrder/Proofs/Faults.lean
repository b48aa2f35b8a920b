import OutOfOrder.Proofs.Assembling

/-!
# Where a source cannot be read

A source is a program, or there is one line of it to blame.  A line is at fault if
it has a label that cannot be entered.  Where no line is, one is at fault if its
instruction cannot be decoded with the labels of all lines known.  The first line
at fault is blamed, by its number and as it stands in the source.
-/

namespace OutOfOrder.Assembly

variable {allowLabels : Bool} {labels entered : Labels} {index number : Nat}
  {line : List Char} {names past rest source : List (List Char)}
  {reason : LineError} {failure : LoadError} {bodies : List Body}

/-! ## Faults of a line -/

/-- No line of the source has the fault, which may depend on the lines in front of
it. -/
def FreeOf (Faulty : List (List Char) → List Char → Prop)
    (source : List (List Char)) : Prop :=
  ∀ index line, source[index]? = some line → ¬Faulty (source.take index) line

/-- The line has a label that stands in front of it already, or any label where
none is allowed. -/
inductive Mislabels (allowLabels : Bool) (front : List (List Char))
    (line : List Char) : Prop where
  | forbidden (hforbidden : allowLabels = false) (hline : (splitLine line).1 ≠ [])
  | duplicate {before after : List (List Char)} {label : List Char}
      (hline : (splitLine line).1 = before ++ label :: after)
      (hmem : label ∈ labelNames front ++ before)

/-- What is said of the labels of a line: it names the first one where none is
allowed, and else the first one that stands in front of it already. -/
inductive BlamesLabel (allowLabels : Bool) (front : List (List Char))
    (line : List Char) : LineError → Prop where
  | forbidden {label : List Char} {after : List (List Char)}
      (hforbidden : allowLabels = false)
      (hline : (splitLine line).1 = label :: after) :
      BlamesLabel allowLabels front line (.labelNotAllowed label)
  | duplicate {before after : List (List Char)} {label : List Char}
      (hallowed : allowLabels = true)
      (hline : (splitLine line).1 = before ++ label :: after)
      (hdistinct : before.Nodup) (hnew : before.Disjoint (labelNames front))
      (hmem : label ∈ labelNames front ++ before) :
      BlamesLabel allowLabels front line (.duplicateLabel label)

/-- The line has an instruction, and decoding it behind these lines fails. -/
def Rejects (labels : Labels) (front : List (List Char)) (line : List Char)
    (reason : LineError) : Prop :=
  (splitLine line).2 ≠ [] ∧ ∃ error,
    decode labels (bodyTexts front).length (splitLine line).2 = .error error ∧
      reason = .undecodable error

/-- The instruction of the line cannot be decoded behind these lines. -/
def Undecodable (labels : Labels) (front : List (List Char)) (line : List Char) :
    Prop :=
  ∃ reason, Rejects labels front line reason

/-- The failure is that of the first line with the fault. -/
structure LoadError.IsFirst (failure : LoadError)
    (Faulty : List (List Char) → List Char → Prop)
    (Blames : List (List Char) → List Char → LineError → Prop)
    (source : List (List Char)) : Prop where
  pos : 1 ≤ failure.lineNumber
  le_length : failure.lineNumber ≤ source.length
  /-- Lines are counted from one. -/
  line : source[failure.lineNumber - 1]? = some failure.line
  earlier : FreeOf Faulty (source.take (failure.lineNumber - 1))
  faulty : Faulty (source.take (failure.lineNumber - 1)) failure.line
  reason : Blames (source.take (failure.lineNumber - 1)) failure.line
    failure.reason

/-- The line to blame for a source that cannot be read. -/
inductive LoadError.Locates (failure : LoadError) (allowLabels : Bool)
    (source : List (List Char)) : Prop where
  | mislabelled
      (hfirst : failure.IsFirst (Mislabels allowLabels) (BlamesLabel allowLabels)
        source)
  | undecodable {labels : Labels} (hlabels : FreeOf (Mislabels allowLabels) source)
      (htable : IsTable labels source)
      (hfirst : failure.IsFirst (Undecodable labels) (Rejects labels) source)

section Faults

variable {Faulty : List (List Char) → List Char → Prop}
  {Blames : List (List Char) → List Char → LineError → Prop}

theorem freeOf_nil : FreeOf Faulty [] := fun _ _ h => nomatch h

theorem FreeOf.concat (h : FreeOf Faulty past) (hline : ¬Faulty past line) :
    FreeOf Faulty (past ++ [line]) := by
  intro index other hother
  by_cases hlt : index < past.length
  · rw [List.getElem?_append_left hlt] at hother
    rw [List.take_append_of_le_length (Nat.le_of_lt hlt)]
    exact h index other hother
  · have hle : past.length ≤ index := Nat.le_of_not_lt hlt
    rw [List.getElem?_append_right hle, List.getElem?_singleton] at hother
    split at hother
    · next hzero =>
        have heq : index = past.length := by omega
        cases hother
        rwa [heq, List.take_left]
    · contradiction

theorem isFirst_append (h : FreeOf Faulty past) (hline : Faulty past line)
    (hreason : Blames past line reason) (rest : List (List Char)) :
    LoadError.IsFirst ⟨past.length + 1, line, reason⟩ Faulty Blames
      (past ++ line :: rest) := by
  have htake : (past ++ line :: rest).take (past.length + 1 - 1) = past := by
    rw [Nat.add_sub_cancel, List.take_left]
  constructor
  case pos => exact Nat.le_add_left 1 _
  case le_length =>
    rw [List.length_append, List.length_cons]
    exact Nat.add_le_add_left (Nat.le_add_left 1 _) _
  case line =>
    rw [Nat.add_sub_cancel, List.getElem?_append_right (Nat.le_refl _),
      Nat.sub_self]
    rfl
  case earlier => rwa [htake]
  case faulty => rwa [htake]
  case reason => rwa [htake]

end Faults

/-! ## Results with an error -/

section Results

variable {ε ε' α β : Type} {result : Except ε α}

theorem eq_error_of_bind {error : ε} {go : α → Except ε β}
    (h : result >>= go = .error error) :
    result = .error error ∨ ∃ value, result = .ok value ∧ go value = .error error := by
  cases result with
  | error => exact .inl (congrArg Except.error (Except.error.inj h))
  | ok value => exact .inr ⟨value, rfl, h⟩

theorem exists_error_of_mapError {error : ε'} {change : ε → ε'}
    (h : result.mapError change = .error error) :
    ∃ cause, result = .error cause ∧ change cause = error := by
  cases result with
  | error cause => exact ⟨cause, rfl, Except.error.inj h⟩
  | ok => contradiction

/-- A pass over a list fails at one of its members, behind those that it got
past. -/
theorem exists_step_of_foldlM_eq_error {error : ε} {step : α → β → Except ε α}
    {start : α} {items : List β} (h : items.foldlM step start = .error error) :
    ∃ before item after reached, items = before ++ item :: after ∧
      before.foldlM step start = .ok reached ∧ step reached item = .error error := by
  induction items generalizing start with
  | nil => contradiction
  | cons item rest ih =>
      rcases eq_error_of_bind h with hitem | ⟨next, hnext, hrest⟩
      · exact ⟨[], item, rest, start, rfl, rfl, hitem⟩
      · obtain ⟨before, other, after, reached, rfl, hbefore, hother⟩ := ih hrest
        refine ⟨item :: before, other, after, reached, rfl, ?_, hother⟩
        rw [List.foldlM_cons, hnext]
        exact hbefore

end Results

/-! ## Labels that cannot be entered -/

/-- The labels of these lines stand in the directory, and no others do. -/
def Enters (labels : Labels) (past : List (List Char)) : Prop :=
  ∀ label, labels.contains (String.ofList label) = true ↔ label ∈ labelNames past

theorem enters_nil : Enters {} [] := fun _ => iff_of_false nofun List.not_mem_nil

theorem labelNames_concat (past : List (List Char)) (line : List Char) :
    labelNames (past ++ [line]) = labelNames past ++ (splitLine line).1 := by
  rw [labelNames, List.flatMap_append, List.flatMap_singleton, labelNames]

/-- The labels in a directory behind some others are those of it and the others. -/
theorem contains_addLabels
    (h : names.foldlM (addLabel allowLabels index) labels = .ok entered)
    (label : List Char) :
    entered.contains (String.ofList label) = true ↔
      labels.contains (String.ofList label) = true ∨ label ∈ names := by
  simp only [Directory.contains, Option.isSome_iff_exists]
  constructor
  · rintro ⟨place, hplace⟩
    rcases get?_of_addLabels h hplace with hold | ⟨other, hmem, hother, -⟩
    · exact .inl ⟨place, hold⟩
    · rw [String.ofList_injective hother]
      exact .inr hmem
  · rintro (⟨place, hplace⟩ | hmem)
    · exact ⟨place, get?_addLabels h hplace⟩
    · exact ⟨index, get?_addLabels_of_mem h hmem⟩

theorem Enters.concat (h : Enters labels past)
    (hentered : (splitLine line).1.foldlM (addLabel allowLabels index) labels =
      .ok entered) : Enters entered (past ++ [line]) := by
  intro label
  rw [contains_addLabels hentered, h label, labelNames_concat, List.mem_append]

/-- Where labels are not allowed none is entered. -/
theorem eq_nil_of_addLabels
    (h : names.foldlM (addLabel allowLabels index) labels = .ok entered)
    (hforbidden : allowLabels = false) : names = [] := by
  subst hforbidden
  cases names with
  | nil => rfl
  | cons name rest =>
      obtain ⟨next, hnext, -⟩ := exists_ok_of_bind h
      contradiction

theorem Enters.disjoint (h : Enters labels past)
    (hentered : names.foldlM (addLabel allowLabels index) labels = .ok entered) :
    names.Nodup ∧ names.Disjoint (labelNames past) := by
  obtain ⟨hdistinct, hfresh⟩ := fresh_of_addLabels hentered
  refine ⟨hdistinct, fun label hmem hpast => ?_⟩
  have hold := (h label).mpr hpast
  rw [Directory.contains, hfresh label hmem] at hold
  contradiction

theorem Enters.not_mislabels (h : Enters labels past)
    (hentered : (splitLine line).1.foldlM (addLabel allowLabels index) labels =
      .ok entered) : ¬Mislabels allowLabels past line := by
  obtain ⟨hdistinct, hnew⟩ := h.disjoint hentered
  rintro (⟨hforbidden, hline⟩ | ⟨hline, hmem⟩)
  · exact hline (eq_nil_of_addLabels hentered hforbidden)
  · rw [hline] at hdistinct hnew
    rcases List.mem_append.mp hmem with hpast | hbefore
    · exact hnew (List.mem_append_right _ List.mem_cons_self) hpast
    · exact List.disjoint_of_nodup_append hdistinct hbefore List.mem_cons_self

/-- If the labels of a line cannot all be entered, one of them is at fault, and the
reason names it. -/
theorem Enters.blamesLabel (h : Enters labels past)
    (hfails : (splitLine line).1.foldlM (addLabel allowLabels index) labels =
      .error reason) :
    Mislabels allowLabels past line ∧ BlamesLabel allowLabels past line reason := by
  obtain ⟨before, label, after, reached, hline, hreached, hlabel⟩ :=
    exists_step_of_foldlM_eq_error hfails
  unfold addLabel at hlabel
  split at hlabel
  · next hforbidden =>
      rw [Bool.not_eq_true'] at hforbidden
      cases hlabel
      rw [eq_nil_of_addLabels hreached hforbidden] at hline
      exact ⟨.forbidden hforbidden (hline ▸ List.cons_ne_nil _ _),
        .forbidden hforbidden hline⟩
  · next hallowed =>
      rw [Bool.not_eq_true', Bool.not_eq_false] at hallowed
      split at hlabel
      · next hold =>
          cases hlabel
          have hmem : label ∈ labelNames past ++ before := by
            rw [contains_addLabels hreached, h label] at hold
            exact List.mem_append.mpr hold
          obtain ⟨hdistinct, hnew⟩ := h.disjoint hreached
          exact ⟨.duplicate hline hmem,
            .duplicate hallowed hline hdistinct hnew hmem⟩
      · contradiction

/-- Collecting fails at a line, or behind it. -/
theorem survey_eq_error
    (h : survey allowLabels number index labels (line :: rest) = .error failure) :
    (∃ reason, (splitLine line).1.foldlM (addLabel allowLabels index) labels =
        .error reason ∧ failure = ⟨number, line, reason⟩) ∨
      ∃ entered next,
        (splitLine line).1.foldlM (addLabel allowLabels index) labels =
          .ok entered ∧
        survey allowLabels (number + 1) next entered rest = .error failure := by
  rw [survey] at h
  generalize splitLine line = parts at h ⊢
  obtain ⟨names, text⟩ := parts
  rcases eq_error_of_bind h with hnames | ⟨entered, hentered, hrest⟩
  · obtain ⟨reason, hreason, rfl⟩ := exists_error_of_mapError hnames
    exact .inl ⟨reason, hreason, rfl⟩
  · right
    split at hrest
    · exact ⟨entered, index, eq_ok_of_mapError hentered, hrest⟩
    · rcases eq_error_of_bind hrest with hmore | ⟨found, -, hfound⟩
      · exact ⟨entered, index + 1, eq_ok_of_mapError hentered, hmore⟩
      · cases hfound

theorem Enters.freeOf_survey (h : Enters labels past)
    (hpast : FreeOf (Mislabels allowLabels) past)
    (hsurvey : survey allowLabels number index labels rest =
      .ok (bodies, entered)) : FreeOf (Mislabels allowLabels) (past ++ rest) := by
  induction rest generalizing past number index labels bodies with
  | nil =>
      rw [List.append_nil]
      exact hpast
  | cons line rest ih =>
      obtain ⟨next, hnext, hrest⟩ := survey_cons hsurvey
      have hline := hpast.concat (h.not_mislabels hnext)
      rw [List.append_cons]
      rcases hrest with ⟨-, hrest⟩ | ⟨-, more, -, hrest⟩
      · exact ih (h.concat hnext) hline hrest
      · exact ih (h.concat hnext) hline hrest

/-- Collecting fails at the first line with a label that cannot be entered. -/
theorem Enters.isFirst_survey (h : Enters labels past)
    (hpast : FreeOf (Mislabels allowLabels) past)
    (hsurvey : survey allowLabels (past.length + 1) index labels rest =
      .error failure) :
    failure.IsFirst (Mislabels allowLabels) (BlamesLabel allowLabels)
      (past ++ rest) := by
  -- the lines gone by are those in `labels`, and they have no fault
  induction rest generalizing past index labels with
  | nil => contradiction
  | cons line rest ih =>
      rcases survey_eq_error hsurvey with ⟨reason, hreason, rfl⟩ |
        ⟨next, place, hnext, hrest⟩
      · obtain ⟨hline, hblames⟩ := h.blamesLabel hreason
        exact isFirst_append hpast hline hblames rest
      · have hnumber : (past ++ [line]).length = past.length + 1 :=
          List.length_append
        rw [← hnumber] at hrest
        rw [List.append_cons]
        exact ih (h.concat hnext) (hpast.concat (h.not_mislabels hnext)) hrest

/-! ## Instructions that cannot be decoded -/

theorem length_bodyTexts_concat (past : List (List Char)) (line : List Char) :
    (bodyTexts (past ++ [line])).length =
      (bodyTexts past).length + if (splitLine line).2.isEmpty then 0 else 1 := by
  have happend : bodyTexts (past ++ [line]) = bodyTexts past ++ bodyTexts [line] := by
    rw [bodyTexts, List.map_append, List.filter_append, bodyTexts, bodyTexts]
  rw [happend, List.length_append, bodyTexts_cons]
  split <;> rfl

theorem not_undecodable_of_isEmpty (h : (splitLine line).2.isEmpty = true) :
    ¬Undecodable labels past line := by
  rintro ⟨reason, hbody, -⟩
  exact hbody (List.isEmpty_iff.mp h)

theorem not_undecodable_of_decode {ins : Instruction}
    (h : decode labels (bodyTexts past).length (splitLine line).2 = .ok ins) :
    ¬Undecodable labels past line := by
  rintro ⟨reason, -, error, herror, -⟩
  rw [h] at herror
  contradiction

theorem freeOf_decodeBodies {program : List Instruction}
    (hpast : FreeOf (Undecodable labels) past)
    (h : decodeBodies labels (bodyTexts past).length
      (placed (past.length + 1) rest) = .ok program) :
    FreeOf (Undecodable labels) (past ++ rest) := by
  induction rest generalizing past program with
  | nil =>
      rw [List.append_nil]
      exact hpast
  | cons line rest ih =>
      have hlength := length_bodyTexts_concat past line
      have hnumber : (past ++ [line]).length = past.length + 1 :=
        List.length_append
      rw [placed, ← hnumber] at h
      rw [List.append_cons]
      split at h
      · next hempty =>
          rw [if_pos hempty, Nat.add_zero] at hlength
          rw [← hlength] at h
          exact ih (hpast.concat (not_undecodable_of_isEmpty hempty)) h
      · next hbody =>
          obtain ⟨ins, hins, hmore⟩ := exists_ok_of_bind h
          obtain ⟨program, hprogram, -⟩ := exists_ok_of_bind hmore
          have hdecodes := eq_ok_of_mapError hins
          rw [if_neg hbody] at hlength
          rw [← hlength] at hprogram
          exact ih (hpast.concat (not_undecodable_of_decode hdecodes)) hprogram

/-- Decoding fails at an instruction, or behind it. -/
theorem decodeBodies_eq_error {body : Body} {more : List Body}
    (h : decodeBodies labels index (body :: more) = .error failure) :
    (∃ error, decode labels index body.text = .error error ∧
        failure = ⟨body.lineNumber, body.line, .undecodable error⟩) ∨
      (∃ ins, decode labels index body.text = .ok ins) ∧
        decodeBodies labels (index + 1) more = .error failure := by
  rw [decodeBodies] at h
  rcases eq_error_of_bind h with hbody | ⟨ins, hins, hmore⟩
  · obtain ⟨error, herror, rfl⟩ := exists_error_of_mapError hbody
    exact .inl ⟨error, herror, rfl⟩
  · refine .inr ⟨⟨ins, eq_ok_of_mapError hins⟩, ?_⟩
    rcases eq_error_of_bind hmore with hfails | ⟨program, -, hprogram⟩
    · exact hfails
    · contradiction

/-- Decoding fails at the first line with an instruction that cannot be
decoded. -/
theorem isFirst_decodeBodies (hpast : FreeOf (Undecodable labels) past)
    (h : decodeBodies labels (bodyTexts past).length
      (placed (past.length + 1) rest) = .error failure) :
    failure.IsFirst (Undecodable labels) (Rejects labels) (past ++ rest) := by
  induction rest generalizing past with
  | nil => contradiction
  | cons line rest ih =>
      have hlength := length_bodyTexts_concat past line
      have hnumber : (past ++ [line]).length = past.length + 1 :=
        List.length_append
      rw [placed] at h
      split at h
      · next hempty =>
          rw [if_pos hempty, Nat.add_zero] at hlength
          rw [← hlength, ← hnumber] at h
          rw [List.append_cons]
          exact ih (hpast.concat (not_undecodable_of_isEmpty hempty)) h
      · next hbody =>
          rcases decodeBodies_eq_error h with ⟨error, herror, rfl⟩ |
            ⟨⟨ins, hins⟩, hmore⟩
          · have hrejects : Rejects labels past line (.undecodable error) :=
              ⟨fun hnil => hbody (List.isEmpty_iff.mpr hnil), error, herror, rfl⟩
            exact isFirst_append hpast ⟨_, hrejects⟩ hrejects rest
          · rw [if_neg hbody] at hlength
            rw [← hlength, ← hnumber] at hmore
            rw [List.append_cons]
            exact ih (hpast.concat (not_undecodable_of_decode hins)) hmore

/-! ## The line to blame -/

/-- **A source that cannot be read has one line to blame.**  Every source, with
labels allowed or not, is a program or fails at a line of it.  It is a program just
if no line is at fault.  Else a line with a label that cannot be entered is blamed,
the first there is, and if there is none the first line whose instruction cannot
be decoded with the labels of all lines.  The number of the line and the line as it
stands in the source go with the failure. -/
theorem assemble_or_locates (allowLabels : Bool) (source : List (List Char)) :
    (∃ assembled, assemble allowLabels source = .ok assembled ∧
      FreeOf (Mislabels allowLabels) source ∧
      ∃ labels, IsTable labels source ∧ FreeOf (Undecodable labels) source) ∨
    ∃ failure, assemble allowLabels source = .error failure ∧
      failure.Locates allowLabels source := by
  cases hassemble : assemble allowLabels source with
  | ok assembled =>
      obtain ⟨⟨bodies, labels⟩, hsurvey, h⟩ := exists_ok_of_bind hassemble
      obtain ⟨program, hprogram, -⟩ := exists_ok_of_bind h
      obtain rfl := bodies_eq_placed hsurvey
      exact .inl ⟨assembled, rfl, enters_nil.freeOf_survey freeOf_nil hsurvey,
        labels, isTable_of_survey hsurvey,
        freeOf_decodeBodies (freeOf_nil : FreeOf (Undecodable labels) [])
          hprogram⟩
  | error failure =>
      refine .inr ⟨failure, rfl, ?_⟩
      rcases eq_error_of_bind hassemble with hsurvey | ⟨⟨bodies, labels⟩, hsurvey, h⟩
      · exact .mislabelled (enters_nil.isFirst_survey freeOf_nil hsurvey)
      · obtain rfl := bodies_eq_placed hsurvey
        have hlabels := enters_nil.freeOf_survey freeOf_nil hsurvey
        refine .undecodable hlabels (isTable_of_survey hsurvey) ?_
        rcases eq_error_of_bind h with hfails | ⟨program, -, hprogram⟩
        · exact isFirst_decodeBodies
            (freeOf_nil : FreeOf (Undecodable labels) []) hfails
        · contradiction

end OutOfOrder.Assembly
