import OutOfOrder.Proofs.Decoding
import OutOfOrder.Proofs.Labels
import OutOfOrder.Proofs.LineReading

/-!
# The operands of branches

A branch that is decoded ends in its third operand.  So whoever looks behind the
last comma of its text finds what was decoded.  The operand may be the name of a
label, which no integer looks like, or tell a distance.
-/

namespace OutOfOrder

namespace Text

/-! ## The last piece -/

variable {separator : Char} {front tail text : List Char}

/-- What stands behind the last separator is the last piece, and not the only
one. -/
theorem exists_pieces_append (h : separator ∉ tail) (front : List Char) :
    ∃ piece more, pieces separator (front ++ separator :: tail) =
      piece :: (more ++ [tail]) := by
  induction front with
  | nil =>
      refine ⟨[], [], (pieces_append_cons List.not_mem_nil).trans ?_⟩
      rw [pieces_of_notMem h]
      rfl
  | cons c front ih =>
      obtain ⟨piece, more, hpieces⟩ := ih
      by_cases hc : separator = c
      · refine ⟨[], piece :: more, ?_⟩
        rw [List.cons_append, ← hc]
        refine (pieces_append_cons List.not_mem_nil).trans ?_
        rw [hpieces]
        rfl
      · exact ⟨c :: piece, more, pieces_cons_of_ne hc hpieces⟩

theorem getLastD_pieces (h : separator ∉ tail) (front : List Char) :
    (pieces separator (front ++ separator :: tail)).getLastD [] = tail := by
  obtain ⟨piece, more, hpieces⟩ := exists_pieces_append h front
  rw [hpieces, ← List.cons_append, List.getLastD_concat]

/-- A text of more than one piece has its last separator in front of the last
one. -/
theorem exists_eq_append_of_mem (h : separator ∈ text) :
    ∃ front tail, text = front ++ separator :: tail ∧ separator ∉ tail := by
  obtain ⟨back, front, hsplit, hback⟩ :=
    List.eq_append_cons_of_mem (List.mem_reverse.mpr h)
  refine ⟨front.reverse, back.reverse, ?_, by simpa using hback⟩
  rw [← List.reverse_reverse text, hsplit]
  simp

end Text

namespace Assembly

open Text

/-! ## The last operand -/

/-- The operand is what stands behind the last comma of the text, without the
blanks around it. -/
def EndsIn (text operand : List Char) : Prop :=
  ∃ front tail, text = front ++ ',' :: tail ∧ ',' ∉ tail ∧ strip tail = operand

variable {labels : Labels} {place : Int} {text operand label : List Char}
  {ins : Instruction}

theorem EndsIn.endsInLabel_eq (h : EndsIn text operand) :
    endsInLabel labels text = labels.contains (String.ofList operand) := by
  obtain ⟨front, tail, rfl, htail, rfl⟩ := h
  rw [endsInLabel, getLastD_pieces htail]

/-- What stands around the operands of a text does not change how it ends. -/
theorem EndsIn.of_suffix {back : List Char} (h : EndsIn text operand)
    (front : List Char) (hback : AreBlank back) :
    EndsIn (front ++ (text ++ back)) operand := by
  obtain ⟨first, tail, rfl, htail, rfl⟩ := h
  refine ⟨front ++ first, tail ++ back, by simp, ?_, ?_⟩
  · rw [List.mem_append, not_or]
    exact ⟨htail, comma_notMem_of_areBlank hback⟩
  · exact strip_append_append areBlank_nil hback tail

theorem endsIn_of_splitOperands {first second : List Char}
    (h : splitOperands text = [first, second, operand]) :
    EndsIn text operand := by
  rw [splitOperands] at h
  split at h
  · contradiction
  · have hcomma : ',' ∈ text := by
      by_contra hnone
      rw [pieces_of_notMem hnone] at h
      cases h
    obtain ⟨front, tail, rfl, htail⟩ := exists_eq_append_of_mem hcomma
    refine ⟨front, tail, rfl, htail, ?_⟩
    obtain ⟨piece, more, hpieces⟩ := exists_pieces_append htail front
    rw [hpieces] at h
    have hlast := congrArg List.getLast? h
    rw [← List.cons_append, List.map_append, List.map_singleton,
      List.getLast?_concat] at hlast
    exact Option.some.inj hlast

/-- What follows the first word of a text ends it. -/
theorem exists_append_of_firstWord? {word rest : List Char}
    (h : firstWord? text = some (word, rest)) :
    ∃ front, text = front ++ rest := by
  rw [firstWord?] at h
  split at h
  · contradiction
  · next c more hmore =>
      cases h
      have hrest : stripLeft (more.dropWhile (!isBlank ·)) <:+ text := by
        refine (List.dropWhile_suffix _).trans ((List.dropWhile_suffix _).trans ?_)
        have hsuffix : c :: more <:+ text := by
          rw [← hmore]
          exact List.dropWhile_suffix _
        exact (List.suffix_cons c more).trans hsuffix
      obtain ⟨front, hfront⟩ := hrest
      exact ⟨front, hfront.symm⟩

/-- The blanks at the ends of a text are all that is stripped. -/
theorem exists_eq_strip (text : List Char) :
    ∃ front back, AreBlank back ∧ text = front ++ (strip text ++ back) := by
  rcases areBlank_or_exists_trimmed text with hblank |
    ⟨front, word, back, hfront, hword, hback, rfl⟩
  · refine ⟨[], text, hblank, ?_⟩
    rw [strip_of_areBlank hblank]
    rfl
  · rw [strip_append hfront hword hback]
    exact ⟨front, back, hback, rfl⟩

theorem exists_operands_of_decodeOperands {spelling : String} {opcode : Opcode}
    {operands : List (List Char)}
    (h : decodeOperands labels place spelling opcode operands = .ok ins)
    (hbranch : opcode.form = .branch) :
    ∃ first second operand, operands = [first, second, operand] := by
  unfold decodeOperands at h
  rw [hbranch] at h
  split at h
  case h_5 => exact ⟨_, _, _, rfl⟩
  all_goals contradiction

/-- A branch ends in its third operand, and that tells how far it jumps. -/
theorem exists_endsIn_of_decode (h : decode labels place text = .ok ins)
    (hbranch : ins.opcode.isBranch = true) :
    ∃ operand, EndsIn text operand ∧
      parseDistance labels place operand = .ok ins.constant := by
  have hdecode := h
  unfold decode at hdecode
  dsimp only at hdecode
  split at hdecode
  · contradiction
  · next mnemonic rest hwords =>
      split at hdecode
      · contradiction
      · have hopcode := opcode_of_decodeOperands hdecode
        have hform : ins.opcode.form = .branch := by
          simpa [Opcode.isBranch] using hbranch
        rw [hopcode] at hform
        obtain ⟨first, second, operand, hoperands⟩ :=
          exists_operands_of_decodeOperands hdecode hform
        refine ⟨operand, ?_, ?_⟩
        · obtain ⟨front, hfront⟩ := exists_append_of_firstWord? hwords
          obtain ⟨before, back, hback, htext⟩ := exists_eq_strip text
          have hrest := (endsIn_of_splitOperands hoperands).of_suffix
            (before ++ front) hback
          rw [hfront] at htext
          rw [htext]
          simpa using hrest
        · refine parseDistance_of_decode h hbranch ?_
          rw [operandTexts, hwords]
          dsimp only
          rw [hoperands]
          rfl

theorem immediate_of_isBranch (h : decode labels place text = .ok ins)
    (hbranch : ins.opcode.isBranch = true) :
    ins.immediate = some ins.constant := by
  have hform : ins.opcode.form = .branch := by
    simpa [Opcode.isBranch] using hbranch
  have hsome := (fitsForm_of_decode h).1.immediate.mpr (by simp [hform])
  obtain ⟨distance, hdistance⟩ := Option.isSome_iff_exists.mp hsome
  rw [Instruction.constant, hdistance]
  rfl

/-! ## Labels and numerals -/

theorem isLabelName_of_mem_splitLabels (h : label ∈ (splitLabels text).1) :
    IsLabelName label := by
  induction hlength : text.length using Nat.strongRecOn generalizing text with
  | ind length ih =>
      cases hsplit : splitLabel? text with
      | none =>
          rw [splitLabels_of_none hsplit] at h
          contradiction
      | some found =>
          obtain ⟨name, rest⟩ := found
          rw [splitLabels_of_some hsplit] at h
          rcases List.mem_cons.mp h with rfl | hmem
          · exact (defines_of_splitLabel? hsplit).choose_spec.1
          · have hshorter := length_lt_of_splitLabel? hsplit
            exact ih _ (hlength ▸ hshorter) hmem rfl

/-- A numeral in base ten begins with a digit. -/
theorem magnitude_of_letter {c : Char} (h : Numeral.valueIn? 10 c = none)
    (whole rest : List Char) :
    ∃ failure, Numeral.magnitude whole 10 (c :: rest) = .error failure := by
  have hgroups : Numeral.groupedFrom true
      ((c :: rest).takeWhile (Numeral.isDigitOrMark 10)) = false := by
    rw [List.takeWhile_cons]
    split
    · next hmark =>
        rw [Numeral.isDigitOrMark, h] at hmark
        simp only [Option.isSome_none, Bool.or_false] at hmark
        rw [Numeral.groupedFrom, if_pos hmark]
        rfl
    · rfl
  refine ⟨.malformed whole, ?_⟩
  unfold Numeral.magnitude
  simp [hgroups]

/-- A letter or an underscore is no digit, sign or blank, and stands for itself in
a numeral. -/
theorem signAndRest_of_letter {c : Char} (h : isAsciiLetter c = true ∨ c = '_')
    (rest : List Char) :
    Numeral.signAndRest (c :: rest) =
        (false, c :: rest.map Numeral.simplify) ∧
      c ≠ '0' ∧ Numeral.valueIn? 10 c = none := by
  have hcode : c.toNat < 127 ∧ 0x40 < c.toNat := by
    rcases h with hletter | rfl
    · simp only [isAsciiLetter, inRange, Bool.or_eq_true, Bool.and_eq_true,
        decide_eq_true_eq] at hletter
      omega
    · decide
  have hne : ∀ d : Char, d.toNat ≤ 0x40 → c ≠ d := by
    rintro d hd rfl
    omega
  have hspace : Numeral.isSpace c = false := by
    have hblank := hne ' ' (by decide)
    simp only [Numeral.isSpace, inRange, Bool.or_eq_false_iff,
      Bool.and_eq_false_iff, decide_eq_false_iff_not, beq_eq_false_iff_ne]
    exact ⟨.inr (by omega), hblank⟩
  refine ⟨?_, hne '0' (by decide), ?_⟩
  · rw [Numeral.signAndRest, List.map_cons, Numeral.simplify, if_pos hcode.1,
      List.dropWhile_cons_of_neg (by simp [hspace]), Numeral.splitSign]
    · exact fun _ heq => hne '-' (by decide) (List.cons.inj heq).1
    · exact fun _ heq => hne '+' (by decide) (List.cons.inj heq).1
  · have hvalue : ∀ digit ∈ (if inRange c.toNat 0x30 0x39 then
        some (c.toNat - 0x30)
      else if inRange c.toNat 0x61 0x7a then some (c.toNat - 0x61 + 10)
      else if inRange c.toNat 0x41 0x5a then some (c.toNat - 0x41 + 10)
      else none), ¬digit < 10 := by
      intro digit hdigit
      have hlow : inRange c.toNat 0x30 0x39 = false := by
        simp only [inRange, Bool.and_eq_false_iff, decide_eq_false_iff_not]
        omega
      rw [hlow, if_neg Bool.false_ne_true] at hdigit
      split at hdigit
      · cases hdigit
        omega
      · split at hdigit
        · cases hdigit
          omega
        · contradiction
    rw [Numeral.valueIn?, Option.filter_eq_none_iff]
    simpa using hvalue

theorem IsLabelName.parseInteger_ne_ok (h : IsLabelName label) (value : Int) :
    parseInteger label ≠ .ok value := by
  cases label with
  | nil => exact absurd rfl h.ne_nil
  | cons c rest =>
      have hletter := h.head c rfl
      have hstrip : strip (c :: rest) = c :: rest := by
        refine (IsTrimmed.of_forall (List.cons_ne_nil _ _) fun d hd => ?_).strip_eq
        by_contra hblank
        have hword := h.isWordChar_of_mem d hd
        rw [isWordChar_of_isBlank (eq_true_of_ne_false hblank)] at hword
        contradiction
      obtain ⟨hsign, hzero, hvalue⟩ := signAndRest_of_letter hletter rest
      obtain ⟨failure, hfails⟩ :=
        magnitude_of_letter hvalue (c :: rest) (rest.map Numeral.simplify)
      have hmark : Numeral.magnitudeByMark (c :: rest)
          (c :: rest.map Numeral.simplify) = .error failure := by
        rw [Numeral.magnitudeByMark, hfails]
        exact fun _ heq => hzero (List.cons.inj heq).1
      have hmarked : Numeral.marked (c :: rest) = .error failure := by
        rw [Numeral.marked, hsign]
        dsimp only
        rw [hmark]
        rfl
      have hdecimal : Numeral.decimal (c :: rest) = .error failure := by
        rw [Numeral.decimal, hsign]
        dsimp only
        rw [hfails]
        rfl
      rw [parseInteger, Numeral.parse, hstrip, hmarked]
      dsimp only
      rw [hdecimal]
      intro hread
      cases hread

end Assembly

end OutOfOrder
