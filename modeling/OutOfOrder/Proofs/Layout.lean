import Mathlib.Logic.Relation
import OutOfOrder.Proofs.Labels
import OutOfOrder.Proofs.LineReading

/-!
# Layout

What a source is read as depends on the labels and instructions of its lines, one
after another, and not on how they are spread over the lines.  Idle lines,
comments and blanks have no part in it, and a label may stand in front of an
instruction or on a line of its own.
-/

namespace OutOfOrder.Assembly

open Text

variable {allowLabels : Bool} {labels : Labels} {number index : Nat}
  {line own rest name comment : List Char}
  {source edited : List (List Char)}

/-! ## What there is to read -/

/-- The name of a label, or the text of an instruction. -/
inductive Item where
  | label (name : List Char)
  | body (text : List Char)

/-- The labels of a line, and the instruction behind them if there is one. -/
def lineItems (line : List Char) : List Item :=
  (splitLine line).1.map .label ++
    if (splitLine line).2.isEmpty then [] else [.body (splitLine line).2]

/-- The labels and instructions of a source in their order. -/
def items (source : List (List Char)) : List Item :=
  source.flatMap lineItems

/-- Collects the texts of the instructions and the labels, where `index`
instructions stand before them. -/
def collect (allowLabels : Bool) (index : Nat) (labels : Labels) :
    List Item → Except LineError (List (List Char) × Labels)
  | [] => .ok ([], labels)
  | .label name :: rest => do
    let labels ← addLabel allowLabels index labels name
    collect allowLabels index labels rest
  | .body text :: rest => do
    let (texts, labels) ← collect allowLabels (index + 1) labels rest
    return (text :: texts, labels)

/-- Decodes the texts of instructions from an index on. -/
def decodeTexts (labels : Labels) (index : Nat) :
    List (List Char) → Except LineError (List Instruction)
  | [] => .ok []
  | text :: rest => do
    let ins ← (decode labels index text).mapError .undecodable
    let program ← decodeTexts labels (index + 1) rest
    return ins :: program

/-- The program of labels and instructions, or what is wrong with them. -/
def readItems (allowLabels : Bool) (items : List Item) :
    Except LineError (List Instruction) := do
  let (texts, labels) ← collect allowLabels 0 {} items
  decodeTexts labels 0 texts

/-- The program of a source, or what is wrong with it, wherever that is. -/
def outcome (allowLabels : Bool) (source : List (List Char)) :
    Except LineError (List Instruction) :=
  ((assemble allowLabels source).map (·.program)).mapError (·.reason)

/-! ## Only the items count -/

theorem collect_labels_append (names : List (List Char)) (more : List Item) :
    collect allowLabels index labels (names.map .label ++ more) =
      names.foldlM (addLabel allowLabels index) labels >>= fun labels =>
        collect allowLabels index labels more := by
  induction names generalizing labels with
  | nil => rfl
  | cons name rest ih =>
      simp only [List.map_cons, List.cons_append, collect, List.foldlM_cons,
        bind_assoc, ih]

/-- Where the labels and instructions stand is of no importance to what is
collected. -/
theorem survey_eq_collect (number index : Nat) (labels : Labels)
    (source : List (List Char)) :
    ((survey allowLabels number index labels source).map fun found =>
        (found.1.map (·.text), found.2)).mapError (·.reason) =
      collect allowLabels index labels (items source) := by
  induction source generalizing number index labels with
  | nil => rfl
  | cons line rest ih =>
      rw [items, List.flatMap_cons, lineItems, List.append_assoc,
        collect_labels_append, survey]
      generalize splitLine line = parts
      obtain ⟨names, text⟩ := parts
      dsimp only
      cases names.foldlM (addLabel allowLabels index) labels with
      | error failure => rfl
      | ok entered =>
          split
          · exact ih (number + 1) index entered
          · have hrest := ih (number + 1) (index + 1) entered
            show Except.mapError _ (Except.map _
                (survey allowLabels (number + 1) (index + 1) entered rest >>= _)) =
              collect allowLabels index entered (.body text :: items rest)
            rw [collect, ← hrest]
            cases survey allowLabels (number + 1) (index + 1) entered rest with
            | error failure => rfl
            | ok found => rfl

theorem decodeBodies_eq_decodeTexts (labels : Labels) (index : Nat)
    (bodies : List Body) :
    (decodeBodies labels index bodies).mapError (·.reason) =
      decodeTexts labels index (bodies.map (·.text)) := by
  induction bodies generalizing index with
  | nil => rfl
  | cons body rest ih =>
      rw [decodeBodies, List.map_cons, decodeTexts, ← ih (index + 1)]
      cases decode labels index body.text with
      | error failure => rfl
      | ok ins =>
          cases decodeBodies labels (index + 1) rest with
          | error failure => rfl
          | ok program => rfl

theorem outcome_eq (source : List (List Char)) :
    outcome allowLabels source = readItems allowLabels (items source) := by
  rw [outcome, assemble, readItems, ← survey_eq_collect 1 0 {} source]
  cases survey allowLabels 1 0 {} source with
  | error failure => rfl
  | ok found =>
      obtain ⟨bodies, labels⟩ := found
      refine Eq.trans ?_ (decodeBodies_eq_decodeTexts labels 0 bodies)
      show Except.mapError _ (Except.map _ (decodeBodies labels 0 bodies >>= _)) = _
      cases decodeBodies labels 0 bodies with
      | error failure => rfl
      | ok program => rfl

/-! ## Edits -/

/-- The line has no code. -/
def IsIdle (line : List Char) : Prop :=
  ∃ front comment, AreBlank front ∧ IsComment comment ∧ line = front ++ comment

/-- The line begins with the definition of a label, and goes on with the rest, where
there may be other blanks in between. -/
def BeginsWith (line name rest : List Char) : Prop :=
  ∃ front text more, AreBlank front ∧ Defines text name more ∧
    line = front ++ text ∧ stripLeft more = stripLeft rest

/-- There is one edit between the sources.  A comment, or blanks, stand in front of
the line feed at the end of a line, if it has one. -/
inductive Edit : List (List Char) → List (List Char) → Prop where
  | idle (front back : List (List Char)) {line : List Char} (h : IsIdle line) :
      Edit (front ++ back) (front ++ line :: back)
  | comment (front back : List (List Char)) {text gap comment ending : List Char}
      (hgap : AreBlank gap) (hcomment : IsComment comment)
      (hending : IsEnding ending) :
      Edit (front ++ (text ++ ending) :: back)
        (front ++ (text ++ (gap ++ (comment ++ ending))) :: back)
  | blanks (front back : List (List Char)) {before text after ending : List Char}
      (hbefore : AreBlank before) (hafter : AreBlank after)
      (hending : IsEnding ending) :
      Edit (front ++ (text ++ ending) :: back)
        (front ++ (before ++ (text ++ (after ++ ending))) :: back)
  | labelOut (front back : List (List Char)) {line name rest own : List Char}
      (hline : BeginsWith line name rest) (hown : LineSays own [name] []) :
      Edit (front ++ line :: back) (front ++ own :: rest :: back)
  | labelIn (front back : List (List Char)) {line name rest own : List Char}
      (hline : BeginsWith line name rest) (hown : LineSays own [name] []) :
      Edit (front ++ own :: rest :: back) (front ++ line :: back)

/-- One edit, after which no line feed stands inside a line. -/
structure IsEdit (source edited : List (List Char)) : Prop where
  edit : Edit source edited
  unbroken : ∀ line ∈ edited, IsUnbroken line

/-! ## Edits keep the items -/

theorem isComment_nil : IsComment [] := by
  intro c hc
  cases hc

/-- Blanks with a comment behind them are no code. -/
theorem areBlank_codeOf_ending {gap ending : List Char} (hgap : AreBlank gap)
    (hcomment : IsComment comment) (hending : IsEnding ending) :
    AreBlank (codeOf (gap ++ (comment ++ ending))) := by
  rw [codeOf_append (isMark_of_areBlank hgap)]
  refine hgap.append ?_
  cases comment with
  | nil =>
      rw [List.nil_append, codeOf_eq_self (isMark_of_areBlank hending.areBlank)]
      exact hending.areBlank
  | cons c rest =>
      have hmarked : IsComment (c :: rest ++ ending) := hcomment
      rw [codeOf_of_isComment hmarked]
      exact areBlank_nil

theorem strip_codeOf_of_front {front : List Char} (h : AreBlank front)
    (text : List Char) : strip (codeOf (front ++ text)) = strip (codeOf text) := by
  have hends := strip_append_append h areBlank_nil (codeOf text)
  rw [List.append_nil] at hends
  rw [codeOf_append (isMark_of_areBlank h), hends]

theorem strip_codeOf_stripLeft (text : List Char) :
    strip (codeOf (stripLeft text)) = strip (codeOf text) := by
  have hblank : AreBlank (text.takeWhile isBlank) := fun c hc =>
    List.mem_takeWhile_imp hc
  have hfront := strip_codeOf_of_front hblank (stripLeft text)
  rw [stripLeft, List.takeWhile_append_dropWhile] at hfront
  exact hfront.symm

/-- Blanks around a line and a comment behind it do not change its items. -/
theorem lineItems_dressed {before text gap ending : List Char}
    (hbefore : AreBlank before) (hgap : AreBlank gap) (hcomment : IsComment comment)
    (hending : IsEnding ending) (hline : IsUnbroken (text ++ ending))
    (hdressed : IsUnbroken (before ++ (text ++ (gap ++ (comment ++ ending))))) :
    lineItems (before ++ (text ++ (gap ++ (comment ++ ending)))) =
      lineItems (text ++ ending) := by
  have hbare := areBlank_codeOf_ending areBlank_nil isComment_nil hending
  have hcode := areBlank_codeOf_ending hgap hcomment hending
  have hsame : strip (codeOf (before ++ (text ++ (gap ++ (comment ++ ending))))) =
      strip (codeOf (text ++ ending)) :=
    calc
      _ = strip (codeOf (text ++ (gap ++ (comment ++ ending)))) :=
        strip_codeOf_of_front hbefore _
      _ = strip (codeOf text) := strip_codeOf_append hcode text
      _ = _ := (strip_codeOf_append hbare text).symm
  rw [lineItems, lineItems, hline.splitLine_eq, hdressed.splitLine_eq, hsame]

theorem lineItems_of_isIdle (hline : IsUnbroken line) (h : IsIdle line) :
    lineItems line = [] := by
  obtain ⟨front, comment, hfront, hcomment, rfl⟩ := h
  have hsays : LineSays (front ++ comment) [] [] :=
    ⟨front, comment, rfl, isMark_of_areBlank hfront, hcomment, .nothing hfront⟩
  rw [lineItems, (lineSays_iff hline).mp hsays]
  rfl

/-- A name with a colon is code. -/
theorem Defines.codeOf (h : Defines line name rest) :
    Defines (codeOf line) name (codeOf rest) := by
  obtain ⟨hname, gap, hgap, rfl⟩ := h
  have hletters : ∀ c ∈ name, isMark c = false := fun c hc =>
    isMark_of_isWordChar (hname.isWordChar_of_mem c hc)
  have hcolon : Assembly.codeOf (':' :: rest) = ':' :: Assembly.codeOf rest := rfl
  rw [codeOf_append hletters, codeOf_append (isMark_of_areBlank hgap), hcolon]
  exact ⟨hname, gap, hgap, rfl⟩

theorem BeginsWith.lineItems_eq (h : BeginsWith line name rest)
    (hline : IsUnbroken line) (hrest : IsUnbroken rest) :
    lineItems line = .label name :: lineItems rest := by
  obtain ⟨front, text, more, hfront, hdefines, rfl, hmore⟩ := h
  have hsame : strip (codeOf more) = strip (codeOf rest) := by
    rw [← strip_codeOf_stripLeft more, hmore, strip_codeOf_stripLeft rest]
  have hfeed := hline.strip_codeOf.2
  have hread := hline.splitLine_eq
  rw [strip_codeOf_of_front hfront] at hfeed hread
  rw [(hdefines.codeOf.splitLabels_eq hfeed).2, hsame, ← hrest.splitLine_eq]
    at hread
  rw [lineItems, hread]
  rfl

/-- A label that stands on a line of its own is the same as one in front of the
rest. -/
theorem BeginsWith.lineItems_append (h : BeginsWith line name rest)
    (hown : LineSays own [name] []) (hline : IsUnbroken line)
    (hfirst : IsUnbroken own) (hrest : IsUnbroken rest) :
    lineItems own ++ lineItems rest = lineItems line := by
  have hitems : lineItems own = [.label name] := by
    rw [lineItems, (lineSays_iff hfirst).mp hown]
    rfl
  rw [hitems, h.lineItems_eq hline hrest, List.singleton_append]

theorem items_append (front back : List (List Char)) :
    items (front ++ back) = items front ++ items back :=
  List.flatMap_append

theorem items_cons (line : List Char) (rest : List (List Char)) :
    items (line :: rest) = lineItems line ++ items rest :=
  List.flatMap_cons

theorem IsEdit.items_eq (h : IsEdit source edited)
    (hsource : ∀ line ∈ source, IsUnbroken line) :
    items edited = items source := by
  obtain ⟨hedit, hedited⟩ := h
  cases hedit with
  | @idle front back line hidle =>
      have hnone := lineItems_of_isIdle (hedited line (by simp)) hidle
      rw [items_append, items_cons, hnone, List.nil_append, items_append]
  | @comment front back text gap comment ending hgap hcomment hending =>
      have hline := hsource (text ++ ending) (by simp)
      have hdressed := hedited (text ++ (gap ++ (comment ++ ending))) (by simp)
      rw [items_append, items_append, items_cons, items_cons,
        ← lineItems_dressed areBlank_nil hgap hcomment hending hline hdressed]
      rfl
  | @blanks front back before text after ending hbefore hafter hending =>
      have hline := hsource (text ++ ending) (by simp)
      have hdressed := hedited (before ++ (text ++ (after ++ ending))) (by simp)
      rw [items_append, items_append, items_cons, items_cons,
        ← lineItems_dressed hbefore hafter isComment_nil hending hline hdressed]
      rfl
  | @labelOut front back line name rest own hline hown =>
      have hsame := hline.lineItems_append hown (hsource line (by simp))
        (hedited own (by simp)) (hedited rest (by simp))
      rw [items_append, items_append, items_cons, items_cons, items_cons, ← hsame,
        List.append_assoc]
  | @labelIn front back line name rest own hline hown =>
      have hsame := hline.lineItems_append hown (hedited line (by simp))
        (hsource own (by simp)) (hsource rest (by simp))
      rw [items_append, items_append, items_cons, items_cons, items_cons, ← hsame,
        List.append_assoc]

theorem items_eq_of_edits (h : Relation.ReflTransGen IsEdit source edited)
    (hsource : ∀ line ∈ source, IsUnbroken line) :
    items edited = items source ∧ ∀ line ∈ edited, IsUnbroken line := by
  induction h with
  | refl => exact ⟨rfl, hsource⟩
  | tail _ hedit ih =>
      exact ⟨(hedit.items_eq ih.2).trans ih.1, hedit.unbroken⟩

/-! ## Layout is of no importance -/

/-- If one source is a program so is the other, and the programs are the same.  If
one is rejected the other is rejected for the same reason. -/
structure ReadAlike (allowLabels : Bool) (source edited : List (List Char)) :
    Prop where
  program : ∀ assembled, assemble allowLabels source = .ok assembled →
    ∃ other, assemble allowLabels edited = .ok other ∧
      other.program = assembled.program
  reason : ∀ failure, assemble allowLabels source = .error failure →
    ∃ other, assemble allowLabels edited = .error other ∧
      other.reason = failure.reason

theorem readAlike_of_outcome
    (h : outcome allowLabels edited = outcome allowLabels source) :
    ReadAlike allowLabels source edited := by
  rw [outcome, outcome] at h
  constructor
  · intro assembled hassembled
    rw [hassembled] at h
    cases hedited : assemble allowLabels edited with
    | error failure =>
        rw [hedited] at h
        contradiction
    | ok other =>
        rw [hedited] at h
        exact ⟨other, rfl, Except.ok.inj h⟩
  · intro failure hfailure
    rw [hfailure] at h
    cases hedited : assemble allowLabels edited with
    | error other =>
        rw [hedited] at h
        exact ⟨other, rfl, Except.error.inj h⟩
    | ok assembled =>
        rw [hedited] at h
        contradiction

/-- **Layout is of no importance.**  Lines without code may be inserted, comments
and blanks added to lines, and labels moved to lines of their own and back, any
number of times.  If no line feed ever stands inside a line then the program stays
the same, or is rejected for the same reason. -/
theorem layout_is_immaterial (allowLabels : Bool)
    (hsource : ∀ line ∈ source, IsUnbroken line)
    (hedits : Relation.ReflTransGen IsEdit source edited) :
    ReadAlike allowLabels source edited := by
  refine readAlike_of_outcome ?_
  rw [outcome_eq, outcome_eq, (items_eq_of_edits hedits hsource).1]

/-- A comment in front of a loop and one behind its branch, with the label moved to
a line of its own. -/
theorem commented_loop_reads_alike :
    let source := ["a: NOP".toList, "BEQ R0, R0, a".toList]
    let edited := ["# go".toList, "a:".toList, "NOP".toList,
      "BEQ R0, R0, a ; again".toList]
    ReadAlike true source edited ∧ ∃ assembled,
      assemble true source = .ok assembled ∧
        assembled.program.map (·.immediate) = [none, some (-2)] := by
  intro source edited
  have hidle : IsEdit source ("# go".toList :: source) := by
    refine ⟨.idle [] source ⟨[], "# go".toList, areBlank_nil, ?_, rfl⟩,
      by decide +kernel⟩
    intro c hc
    cases hc
    rfl
  have hlabel : IsEdit ("# go".toList :: source)
      ["# go".toList, "a:".toList, "NOP".toList, "BEQ R0, R0, a".toList] := by
    have hname : IsLabelName "a".toList := by
      refine ⟨List.cons_ne_nil _ _, fun c hc => .inl ?_,
        fun c hc => absurd hc List.not_mem_nil⟩
      cases hc
      decide
    have hline : BeginsWith "a: NOP".toList "a".toList "NOP".toList :=
      ⟨[], "a: NOP".toList, " NOP".toList, areBlank_nil,
        ⟨hname, [], areBlank_nil, rfl⟩, rfl, by decide +kernel⟩
    have hown : LineSays "a:".toList ["a".toList] [] :=
      (lineSays_iff (by decide +kernel)).mpr (by decide +kernel)
    exact ⟨.labelOut ["# go".toList] ["BEQ R0, R0, a".toList] hline hown,
      by decide +kernel⟩
  have hcomment : IsEdit
      ["# go".toList, "a:".toList, "NOP".toList, "BEQ R0, R0, a".toList]
      edited := by
    have hmark : IsComment "; again".toList := by
      intro c hc
      cases hc
      rfl
    have hgap : AreBlank " ".toList := areBlank_singleton (by decide)
    exact ⟨@Edit.comment ["# go".toList, "a:".toList, "NOP".toList] []
      "BEQ R0, R0, a".toList " ".toList "; again".toList [] hgap hmark (.inl rfl),
      by decide +kernel⟩
  have hassemble : (assemble true source).toOption.map
      (·.program.map (·.immediate)) = some [none, some (-2)] := by
    decide +kernel
  obtain ⟨assembled, hassembled, himmediates⟩ :=
    Option.map_eq_some_iff.mp hassemble
  exact ⟨layout_is_immaterial true (by decide +kernel)
    (.tail (.tail (.single hidle) hlabel) hcomment), assembled,
    eq_ok_of_toOption hassembled, himmediates⟩

end OutOfOrder.Assembly
