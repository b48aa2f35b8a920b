import OutOfOrder.Proofs.Spelling

/-!
# Decoding is exact

Every instruction that has the operands of its form, and no others, can be
written, and in many ways: the mnemonic in either case with a point or an
underscore, each operand in any spelling, and blanks around all of them.  Every
such text decodes as the instruction, and whatever decodes at all is an
instruction of this kind.
-/

namespace OutOfOrder

/-- The instruction has the operands of its form and no others, and its
registers are registers of the two banks. -/
structure Instruction.FitsForm (ins : Instruction) : Prop where
  isRegister : ∀ name,
    ins.dest = some name ∨ ins.src1 = some name ∨ ins.src2 = some name →
      Assembly.IsRegister name
  dest : ins.dest.isSome ↔ ins.opcode.definesDestination
  src1 : ins.src1.isSome ↔ ins.opcode.form ≠ .bare
  src2 : ins.src2.isSome ↔ ins.opcode.form ∈ [.store, .register, .branch]
  immediate : ins.immediate.isSome ↔
    ins.opcode.form ∈ [.load, .store, .immediate, .branch]

namespace Assembly

open Text Numeral

/-! ## Mnemonics -/

/-- The character with its case and the difference between a point and an
underscore forgotten. -/
def plainLetter (c : Char) : Char :=
  if c = '.' then '_' else c.toUpper

/-- The word spells the mnemonic of the operation. -/
def SpellsOpcode (opcode : Opcode) (word : List Char) : Prop :=
  word.map plainLetter = opcode.mnemonic.toList.map plainLetter

section Mnemonic

variable {opcode : Opcode} {word : List Char} {c : Char}

theorem map_plainLetter_mnemonic (opcode : Opcode) :
    opcode.mnemonic.toList.map plainLetter = opcode.name.toList := by
  cases opcode <;> decide

theorem ofName?_name (opcode : Opcode) :
    Opcode.ofName? opcode.name = some opcode := by
  cases opcode <;> decide

/-- The character is a letter of a name, or stands between two. -/
def isNameLetter (c : Char) : Bool :=
  isAsciiLetter c || c == '_'

theorem isNameLetter_of_mem_name (h : c ∈ opcode.name.toList) :
    isNameLetter c = true := by
  have hall : opcode.name.toList.all isNameLetter = true := by
    cases opcode <;> decide
  exact List.all_eq_true.mp hall c h

theorem code_of_isNameLetter (h : isNameLetter c = true) : c.toNat < 0x80 := by
  simp only [isNameLetter, isAsciiLetter, inRange, Bool.or_eq_true,
    Bool.and_eq_true, decide_eq_true_eq, beq_iff_eq] at h
  rcases h with h | rfl
  · omega
  · decide

/-- Only ASCII has capitals here. -/
theorem plainLetter_of_le (h : 0x80 ≤ c.toNat) : plainLetter c = c := by
  have hpoint : c ≠ '.' := by
    rintro rfl
    exact absurd h (by decide)
  have hcase : ¬('a'.val ≤ c.val ∧ c.val ≤ 'z'.val) := by
    rintro ⟨-, hle⟩
    have : c.toNat ≤ 0x7a := UInt32.le_iff_toNat_le.mp hle
    omega
  rw [plainLetter, if_neg hpoint]
  exact dif_neg hcase

/-- What a character of a mnemonic adds to the name. -/
def nameLetters (c : Char) : List Char :=
  (upperChar c).map fun c => if c == '.' then '_' else c

/-- A character that stands for a letter of a name is no blank and is read as
that letter. -/
theorem nameLetters_eq (h : isNameLetter (plainLetter c) = true) :
    isBlank c = false ∧ nameLetters c = [plainLetter c] := by
  have hascii : c.toNat < 0x80 := by
    by_contra hforeign
    rw [plainLetter_of_le (Nat.not_lt.mp hforeign)] at h
    exact hforeign (code_of_isNameLetter h)
  have hall : ∀ code < 0x80,
      isNameLetter (plainLetter (Char.ofNat code)) = true →
        isBlank (Char.ofNat code) = false ∧
          nameLetters (Char.ofNat code) = [plainLetter (Char.ofNat code)] := by
    decide +kernel
  have hc := hall c.toNat hascii
  rw [Char.ofNat_toNat] at hc
  exact hc h

theorem SpellsOpcode.map_eq (h : SpellsOpcode opcode word) :
    word.map plainLetter = opcode.name.toList :=
  h.trans (map_plainLetter_mnemonic opcode)

theorem SpellsOpcode.nameLetters_eq (h : SpellsOpcode opcode word)
    (hc : c ∈ word) : isBlank c = false ∧ nameLetters c = [plainLetter c] := by
  have hmem : plainLetter c ∈ opcode.name.toList := by
    rw [← h.map_eq]
    exact List.mem_map_of_mem hc
  exact Assembly.nameLetters_eq (isNameLetter_of_mem_name hmem)

theorem SpellsOpcode.ne_nil (h : SpellsOpcode opcode word) : word ≠ [] := by
  rintro rfl
  have hname := h.map_eq
  cases opcode <;> exact absurd hname (by decide)

theorem SpellsOpcode.isTrimmed (h : SpellsOpcode opcode word) :
    IsTrimmed word :=
  .of_forall h.ne_nil fun _ hc => (h.nameLetters_eq hc).1

theorem SpellsOpcode.parse_eq (h : SpellsOpcode opcode word) :
    parseOpcode? word = some opcode := by
  have hname : opcodeName word = opcode.name.toList := by
    calc
      opcodeName word = word.flatMap nameLetters := by
        rw [opcodeName, h.isTrimmed.strip_eq, upper, List.map_flatMap]
        rfl
      _ = word.flatMap fun c => [plainLetter c] :=
        List.flatMap_congr fun c hc => (h.nameLetters_eq hc).2
      _ = word.map plainLetter := List.map_eq_flatMap.symm
      _ = opcode.name.toList := h.map_eq
  rw [parseOpcode?, hname, String.ofList_toList, ofName?_name]

end Mnemonic

/-! ## Operands -/

/-- The texts spell the operands of the instruction in the order of its form. -/
inductive SpellsOperands : Instruction → List (List Char) → Prop where
  | load {opcode : Opcode} {dest base text : String} {offset : Int}
      {register address : List Char} (hform : opcode.form = .load)
      (hdest : SpellsRegister dest register)
      (haddress : SpellsAddress offset base address) :
      SpellsOperands
        { opcode, dest := dest, src1 := base, immediate := offset, text }
        [register, address]
  | store {opcode : Opcode} {value base text : String} {offset : Int}
      {register address : List Char} (hform : opcode.form = .store)
      (hvalue : SpellsRegister value register)
      (haddress : SpellsAddress offset base address) :
      SpellsOperands
        { opcode, src1 := base, src2 := value, immediate := offset, text }
        [register, address]
  | register {opcode : Opcode} {dest src1 src2 text : String}
      {target first second : List Char} (hform : opcode.form = .register)
      (hdest : SpellsRegister dest target) (hfirst : SpellsRegister src1 first)
      (hsecond : SpellsRegister src2 second) :
      SpellsOperands { opcode, dest := dest, src1 := src1, src2 := src2, text }
        [target, first, second]
  | immediate {opcode : Opcode} {dest src1 text : String} {constant : Int}
      {target source number : List Char} (hform : opcode.form = .immediate)
      (hdest : SpellsRegister dest target)
      (hsource : SpellsRegister src1 source)
      (hnumber : SpellsInt constant number) :
      SpellsOperands
        { opcode, dest := dest, src1 := src1, immediate := constant, text }
        [target, source, number]
  | branch {opcode : Opcode} {src1 src2 text : String} {distance : Int}
      {first second number : List Char} (hform : opcode.form = .branch)
      (hfirst : SpellsRegister src1 first)
      (hsecond : SpellsRegister src2 second)
      (hnumber : SpellsInt distance number) :
      SpellsOperands
        { opcode, src1 := src1, src2 := src2, immediate := distance, text }
        [first, second, number]
  | bare {opcode : Opcode} {text : String} (hform : opcode.form = .bare) :
      SpellsOperands { opcode, text } []

section Operands

variable {ins : Instruction} {operands : List (List Char)} {word : List Char}
  {labels : Labels} {index : Int} {opcode : Opcode} {text : String}

theorem parseInteger_eq {value : Int} (h : SpellsInt value word) :
    parseInteger word = .ok value := by
  rw [parseInteger, h.parse_eq]
  rfl

theorem parseDistance_eq {distance : Int} (h : SpellsInt distance word) :
    parseDistance {} index word = .ok distance := by
  rw [parseDistance, Directory.get?_empty]
  dsimp only
  rw [parseInteger_eq h]
  rfl

theorem SpellsOperands.decode_eq (h : SpellsOperands ins operands) :
    decodeOperands {} index text ins.opcode operands =
      .ok { ins with text } := by
  unfold decodeOperands
  cases h with
  | load hform hdest haddress =>
      simp only [hform, haddress.parse_eq, hdest.parse_eq]
      rfl
  | store hform hvalue haddress =>
      simp only [hform, haddress.parse_eq, hvalue.parse_eq]
      rfl
  | register hform hdest hfirst hsecond =>
      simp only [hform, hdest.parse_eq, hfirst.parse_eq, hsecond.parse_eq]
      rfl
  | immediate hform hdest hsource hnumber =>
      simp only [hform, hdest.parse_eq, hsource.parse_eq,
        parseInteger_eq hnumber]
      rfl
  | branch hform hfirst hsecond hnumber =>
      simp only [hform, hfirst.parse_eq, hsecond.parse_eq,
        parseDistance_eq hnumber]
      rfl
  | bare hform =>
      simp only [hform]
      rfl

theorem SpellsOperands.isPiece (h : SpellsOperands ins operands)
    (hword : word ∈ operands) : IsPiece word := by
  cases h <;> simp only [List.mem_cons, List.not_mem_nil, or_false] at hword
  case load hdest haddress | store hdest haddress =>
    rcases hword with rfl | rfl
    · exact hdest.isPiece
    · exact haddress.isPiece
  case register hdest hfirst hsecond =>
    rcases hword with rfl | rfl | rfl
    · exact hdest.isPiece
    · exact hfirst.isPiece
    · exact hsecond.isPiece
  case immediate hdest hsource hnumber | branch hdest hsource hnumber =>
    rcases hword with rfl | rfl | rfl
    · exact hdest.isPiece
    · exact hsource.isPiece
    · exact hnumber.isPiece

theorem definesDestination_iff (opcode : Opcode) :
    opcode.definesDestination ↔
      opcode.form ∈ [.load, .immediate, .register] := by
  simp [Opcode.definesDestination, Opcode.isLoad, Opcode.isImmediate,
    Opcode.isRegister, or_assoc]

theorem fitsForm_of_decodeOperands
    (h : decodeOperands labels index text opcode operands = .ok ins) :
    ins.FitsForm ∧ ins.text = text := by
  unfold decodeOperands at h
  split at h
  case h_7 => nomatch h
  all_goals rename_i hform
  -- First what is read in each form, then one argument for all of them.
  case' h_6 => cases h
  case' h_1 | h_2 =>
    obtain ⟨_, haddress, h⟩ := exists_ok_of_bind h
    obtain ⟨_, hvalue, h⟩ := exists_ok_of_bind h
    cases h
    have hbase := isRegister_of_parseAddress haddress
    have hregister := isRegister_of_parseRegister hvalue
  case' h_3 | h_4 | h_5 =>
    obtain ⟨_, hfirst, h⟩ := exists_ok_of_bind h
    obtain ⟨_, hsecond, h⟩ := exists_ok_of_bind h
    obtain ⟨_, hthird, h⟩ := exists_ok_of_bind h
    cases h
    have hregister := isRegister_of_parseRegister hfirst
    have hother := isRegister_of_parseRegister hsecond
  case' h_3 => have hlast := isRegister_of_parseRegister hthird
  all_goals
    refine ⟨⟨?_, ?_, ?_, ?_, ?_⟩, rfl⟩
    · rintro name (hname | hname | hname) <;> cases hname <;> assumption
    all_goals simp [definesDestination_iff, hform]

theorem exists_spellsOperands (h : ins.FitsForm) :
    ∃ operands, SpellsOperands ins operands := by
  obtain ⟨opcode, dest, src1, src2, immediate, text⟩ := ins
  obtain ⟨hregister, hdest, hsrc1, hsrc2, himmediate⟩ := h
  have hspell := fun name hname => (hregister name hname).exists_spelling
  dsimp only at hspell hdest hsrc1 hsrc2 himmediate
  rw [definesDestination_iff] at hdest
  cases hform : opcode.form
  -- Each form leaves one choice of the operands that are there.
  all_goals
    rcases dest with _ | dest <;> simp [hform] at hdest
    rcases src1 with _ | src1 <;> simp [hform] at hsrc1
    rcases src2 with _ | src2 <;> simp [hform] at hsrc2
    rcases immediate with _ | value <;> simp [hform] at himmediate
  case load =>
    obtain ⟨register, hdest⟩ := hspell dest (.inl rfl)
    obtain ⟨base, hbase⟩ := hspell src1 (.inr (.inl rfl))
    obtain ⟨digits, hoffset⟩ := exists_spellsInt value
    exact ⟨_, .load hform hdest
      (.offset hoffset hbase areBlank_nil areBlank_nil areBlank_nil)⟩
  case store =>
    obtain ⟨register, hvalue⟩ := hspell src2 (.inr (.inr rfl))
    obtain ⟨base, hbase⟩ := hspell src1 (.inr (.inl rfl))
    obtain ⟨digits, hoffset⟩ := exists_spellsInt value
    exact ⟨_, .store hform hvalue
      (.offset hoffset hbase areBlank_nil areBlank_nil areBlank_nil)⟩
  case register =>
    obtain ⟨target, hdest⟩ := hspell dest (.inl rfl)
    obtain ⟨first, hfirst⟩ := hspell src1 (.inr (.inl rfl))
    obtain ⟨second, hsecond⟩ := hspell src2 (.inr (.inr rfl))
    exact ⟨_, .register hform hdest hfirst hsecond⟩
  case immediate =>
    obtain ⟨target, hdest⟩ := hspell dest (.inl rfl)
    obtain ⟨source, hsource⟩ := hspell src1 (.inr (.inl rfl))
    obtain ⟨number, hnumber⟩ := exists_spellsInt value
    exact ⟨_, .immediate hform hdest hsource hnumber⟩
  case branch =>
    obtain ⟨first, hfirst⟩ := hspell src1 (.inr (.inl rfl))
    obtain ⟨second, hsecond⟩ := hspell src2 (.inr (.inr rfl))
    obtain ⟨number, hnumber⟩ := exists_spellsInt value
    exact ⟨_, .branch hform hfirst hsecond hnumber⟩
  case bare => exact ⟨[], .bare hform⟩

/-- Any operands can be written with nothing but commas between them. -/
theorem exists_joined (words : List (List Char)) :
    ∃ text, Joined words text := by
  induction words with
  | nil => exact ⟨[], .nil⟩
  | cons word words ih =>
      obtain ⟨text, h⟩ := ih
      cases words with
      | nil => exact ⟨word, .single word⟩
      | cons next words => exact ⟨_, .cons areBlank_nil areBlank_nil h⟩

theorem splitOperands_eq {body : List Char} (hbody : Joined operands body)
    (hoperands : ∀ word ∈ operands, IsPiece word) :
    splitOperands body = operands := by
  by_cases hne : operands = []
  · subst hne
    cases hbody
    rfl
  · have htrimmed := hbody.isTrimmed hne hoperands
    have hsome : ¬body.all isBlank = true := by
      obtain ⟨c, rest, rfl⟩ := List.exists_cons_of_ne_nil htrimmed.ne_nil
      rw [List.all_cons, htrimmed.head c rfl, Bool.false_and]
      exact Bool.false_ne_true
    rw [splitOperands, if_neg hsome, hbody.map_strip_pieces hne hoperands]

end Operands

/-! ## Instructions -/

/-- The text spells the instruction. -/
inductive Spells (ins : Instruction) : List Char → Prop where
  | intro {before word gap body behind : List Char}
      {operands : List (List Char)} (hbefore : AreBlank before)
      (hword : SpellsOpcode ins.opcode word) (hgap : AreBlank gap)
      (hapart : operands ≠ [] → gap ≠ [])
      (hoperands : SpellsOperands ins operands) (hbody : Joined operands body)
      (hbehind : AreBlank behind) :
      Spells ins (before ++ (word ++ (gap ++ (body ++ behind))))

section Instructions

variable {ins : Instruction} {labels : Labels} {index : Int} {text : List Char}

/-- The first word of a spelling is its mnemonic, and the operands follow. -/
theorem Spells.exists_firstWord? (h : Spells ins text) :
    ∃ word body operands, firstWord? (strip text) = some (word, body) ∧
      SpellsOpcode ins.opcode word ∧ SpellsOperands ins operands ∧
      splitOperands body = operands := by
  obtain ⟨hbefore, hword, hgap, hapart, hoperands, hbody, hbehind⟩ := h
  rename_i before word gap body behind operands
  have hsplit := splitOperands_eq hbody fun _ => hoperands.isPiece
  refine ⟨word, body, operands, ?_, hword, hoperands, hsplit⟩
  have hblank : ∀ c ∈ word, isBlank c = false := fun c hc =>
    (hword.nameLetters_eq hc).1
  by_cases hne : operands = []
  · subst hne
    cases hbody
    have hrest : AreBlank (gap ++ ([] ++ behind)) := fun c hc =>
      (List.mem_append.mp hc).elim (hgap c) (hbehind c)
    rw [strip_append hbefore hword.isTrimmed hrest]
    have hwhole : firstWord? (word ++ []) = some (word, []) :=
      firstWord?_append hword.ne_nil hblank nofun
    rwa [List.append_nil] at hwhole
  · have htrimmed := hbody.isTrimmed hne fun _ => hoperands.isPiece
    have hall := hword.isTrimmed.append htrimmed gap
    have hstrip : strip (before ++ (word ++ (gap ++ (body ++ behind)))) =
        word ++ (gap ++ body) := by
      simpa using strip_append hbefore hall hbehind
    have hhead : ∀ c ∈ (gap ++ body).head?, isBlank c = true := by
      rw [List.head?_append_of_ne_nil _ (hapart hne)]
      exact fun c hc => hgap c (List.mem_of_mem_head? hc)
    rw [hstrip, firstWord?_append hword.ne_nil hblank hhead,
      stripLeft_append hgap htrimmed.head]

theorem Spells.decode_eq (h : Spells ins text) :
    decode {} index text =
      .ok { ins with text := String.ofList (strip text) } := by
  obtain ⟨word, body, operands, hfirst, hword, hoperands, hsplit⟩ :=
    h.exists_firstWord?
  unfold decode
  dsimp only
  rw [hfirst]
  dsimp only
  rw [hword.parse_eq]
  dsimp only
  rw [hsplit, hoperands.decode_eq]

theorem fitsForm_of_decode (h : decode labels index text = .ok ins) :
    ins.FitsForm ∧ ins.text = String.ofList (strip text) := by
  unfold decode at h
  dsimp only at h
  split at h
  · nomatch h
  · split at h
    · nomatch h
    · exact fitsForm_of_decodeOperands h

theorem exists_spells (h : ins.FitsForm) : ∃ text, Spells ins text := by
  obtain ⟨operands, hoperands⟩ := exists_spellsOperands h
  obtain ⟨body, hbody⟩ := exists_joined operands
  have hgap : AreBlank [' '] := areBlank_singleton (by decide)
  exact ⟨_, .intro areBlank_nil rfl hgap (fun _ => List.cons_ne_nil _ _)
    hoperands hbody areBlank_nil⟩

/-- Decoding is exact.  The instructions that can be spelled are those that have
the operands of their form; each of their spellings decodes as the instruction,
with the text between the blanks around it; and whatever decodes, with any
labels, is such an instruction. -/
theorem decode_exact :
    (∀ ins : Instruction, ins.FitsForm ↔ ∃ text, Spells ins text) ∧
      (∀ (ins : Instruction) (text : List Char) (index : Int), Spells ins text →
        decode {} index text =
          .ok { ins with text := String.ofList (strip text) }) ∧
      ∀ (labels : Labels) (index : Int) (text : List Char) (ins : Instruction),
        decode labels index text = .ok ins →
          ins.FitsForm ∧ ins.text = String.ofList (strip text) := by
  refine ⟨fun ins => ⟨exists_spells, ?_⟩, fun _ _ _ h => h.decode_eq,
    fun _ _ _ _ h => fitsForm_of_decode h⟩
  rintro ⟨text, h⟩
  have hdecode : decode {} 0 text = _ := h.decode_eq
  obtain ⟨hregister, hdest, hsrc1, hsrc2, himmediate⟩ :=
    (fitsForm_of_decode hdecode).1
  exact ⟨hregister, hdest, hsrc1, hsrc2, himmediate⟩

/-- A load of `F6` with blanks, leading zeros, a sign and a base mark. -/
theorem decode_exact_padded_load :
    let ins : Instruction :=
      { opcode := .lD, dest := "F6", src1 := "R2", immediate := some 31,
        text := "l_D\tf06 , +0x1F ( r02 )" }
    let text := " l_D\tf06 , +0x1F ( r02 )\t".toList
    Spells ins text ∧ decode {} 0 text = .ok ins ∧ ins.FitsForm := by
  intro ins text
  have hspace : AreBlank [' '] := areBlank_singleton (by decide)
  have htab : AreBlank ['\t'] := areBlank_singleton (by decide)
  have hword : SpellsOpcode .lD ['l', '_', 'D'] := by rfl
  have hdest : SpellsRegister (registerName 'F' 6) ['f', '0', '6'] :=
    .intro (.inr rfl) (.inr rfl) (by decide) ⟨⟨1, by decide⟩, by decide⟩
  have hbase : SpellsRegister (registerName 'R' 2) ['r', '0', '2'] :=
    .intro (.inl rfl) (.inr rfl) (by decide) ⟨⟨1, by decide⟩, by decide⟩
  have hoffset : SpellsInt 31 ['+', '0', 'x', '1', 'F'] :=
    SpellsInt.intro .plus (.hexadecimal (.inl rfl) ⟨0, by decide⟩)
  have haddress := SpellsAddress.offset hoffset hbase hspace hspace hspace
  have hoperands : SpellsOperands ins _ := .load rfl hdest haddress
  have hspells : Spells ins text :=
    .intro hspace hword htab (fun _ => List.cons_ne_nil _ _) hoperands
      (.cons hspace hspace (.single _)) htab
  have htext : String.ofList (strip text) = ins.text := by decide
  have hdecode : decode {} 0 text = .ok ins := by
    have h := decode_exact.2.1 ins text 0 hspells
    rwa [htext] at h
  exact ⟨hspells, hdecode, (decode_exact.2.2 {} 0 text ins hdecode).1⟩

end Instructions

end Assembly

end OutOfOrder
