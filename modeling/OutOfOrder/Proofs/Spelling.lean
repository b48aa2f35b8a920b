import OutOfOrder.Assembly.Operand
import OutOfOrder.Proofs.Labels
import OutOfOrder.Proofs.Numerals

/-!
# Spellings of operands

A register is spelled by the letter of its bank in either case and its number,
and an address by its offset and, in parentheses, its base register.  An offset
of zero may be left out.  Every spelling reads as the operand it spells, and
whatever reads as a register is one of the two banks' registers.
-/

namespace OutOfOrder.Assembly

open Text Numeral

/-! ## Registers -/

/-- The name is that of a register of the two banks. -/
def IsRegister (name : String) : Prop :=
  ∃ bank number, (bank = 'R' ∨ bank = 'F') ∧ number < 32 ∧
    name = registerName bank number

/-- The text spells the register. -/
inductive SpellsRegister : String → List Char → Prop where
  | intro {bank letter : Char} {number : Nat} {digits : List Char}
      (hbank : bank = 'R' ∨ bank = 'F')
      (hletter : letter = bank ∨ letter = bank.toLower)
      (hnumber : number < 32) (hdigits : SpellsDecimal number digits) :
      SpellsRegister (registerName bank number) (letter :: digits)

section Register

variable {name : String} {text digits : List Char} {number : Nat} {c : Char}

theorem SpellsRegister.isAlphanumeric (h : SpellsRegister name text)
    (hc : c ∈ text) : isAlphanumeric c = true := by
  obtain ⟨hbank, hletter, -, hdigits⟩ := h
  rcases List.mem_cons.mp hc with rfl | hc
  · rcases hbank with rfl | rfl <;> rcases hletter with rfl | rfl <;> decide
  · exact hdigits.isAlphanumeric hc

theorem SpellsRegister.ne_nil (h : SpellsRegister name text) : text ≠ [] := by
  cases h
  exact List.cons_ne_nil _ _

theorem SpellsRegister.isPiece (h : SpellsRegister name text) :
    IsPiece text where
  toIsTrimmed := .of_forall h.ne_nil fun _ hc =>
    isBlank_of_isAlphanumeric (h.isAlphanumeric hc)
  comma hmem := absurd (h.isAlphanumeric hmem) (by decide)

theorem SpellsRegister.parse_eq (h : SpellsRegister name text) :
    parseRegister text = .ok name := by
  have hstrip := h.isPiece.strip_eq
  obtain ⟨hbank, hletter, hnumber, hdigits⟩ := h
  rename_i bank letter number digits
  have hread : bank? letter = some bank := by
    rcases hbank with rfl | rfl <;> rcases hletter with rfl | rfl <;> decide
  have hempty : digits.isEmpty = false :=
    List.isEmpty_eq_false_iff.mpr hdigits.1.ne_nil
  have hall : digits.all isDigit = true :=
    List.all_eq_true.mpr fun c hc => hdigits.isDigit hc
  have hlt : (number : Int) < bankSize := by
    rw [bankSize]
    omega
  simp only [parseRegister, hstrip, hread, hempty, hall, hdigits.decimal_eq,
    hlt, Bool.not_true, Bool.or_self, Bool.false_eq_true, if_false, if_true,
    Int.toNat_natCast]

theorem eq_of_bank? {letter bank : Char} (h : bank? letter = some bank) :
    bank = 'R' ∨ bank = 'F' := by
  unfold bank? at h
  split at h
  · exact .inl (Option.some.inj h).symm
  · split at h
    · exact .inr (Option.some.inj h).symm
    · nomatch h

theorem isRegister_of_parseRegister (h : parseRegister text = .ok name) :
    IsRegister name := by
  unfold parseRegister at h
  dsimp only at h
  split at h
  · nomatch h
  · split at h
    · nomatch h
    · next bank hbank =>
        split at h
        · nomatch h
        · split at h
          · nomatch h
          · split at h
            · next number _ hlt =>
                have hnumber : number.toNat < 32 := by
                  rw [bankSize] at hlt
                  omega
                exact ⟨bank, number.toNat, eq_of_bank? hbank, hnumber,
                  (Except.ok.inj h).symm⟩
            · nomatch h

theorem IsRegister.exists_spelling (h : IsRegister name) :
    ∃ text, SpellsRegister name text := by
  obtain ⟨bank, number, hbank, hnumber, rfl⟩ := h
  have hlength : (Nat.toDigits 10 number).length ≤ 2 :=
    (Nat.length_toDigits_le_iff (by decide) (by decide)).mpr (by omega)
  exact ⟨_, .intro hbank (.inl rfl) hnumber
    ⟨spellsNat_toDigits (by decide) (by decide) number, by omega⟩⟩

end Register

/-! ## Addresses -/

/-- A register in parentheses, with what stands around it inside them. -/
def enclosed (front register back : List Char) : List Char :=
  '(' :: (front ++ (register ++ (back ++ [')'])))

/-- The text spells the address that is an offset from a base register. -/
inductive SpellsAddress : Int → String → List Char → Prop where
  | offset {offset : Int} {base : String}
      {digits before front register back : List Char}
      (hoffset : SpellsInt offset digits) (hbase : SpellsRegister base register)
      (hbefore : AreBlank before) (hfront : AreBlank front)
      (hback : AreBlank back) :
      SpellsAddress offset base
        (digits ++ (before ++ enclosed front register back))
  | bare {base : String} {front register back : List Char}
      (hbase : SpellsRegister base register) (hfront : AreBlank front)
      (hback : AreBlank back) :
      SpellsAddress 0 base (enclosed front register back)

section Address

variable {sign digits before front register back text rest : List Char}
  {offset : Int} {base : String} {negative : Bool}

/-- What begins with blanks and goes on with a character begins with a blank or
with that character. -/
theorem head_append_cons {c d : Char} (hbefore : AreBlank before)
    (hd : d ∈ (before ++ c :: rest).head?) : isBlank d = true ∨ d = c := by
  cases before with
  | nil => exact .inr (Option.some.inj hd).symm
  | cons first before =>
      cases hd
      exact .inl (hbefore _ List.mem_cons_self)

theorem splitOffsetSign_append (hsign : IsSign negative sign)
    (hrest : ∀ c ∈ rest.head?, c ≠ '+' ∧ c ≠ '-') :
    splitOffsetSign (sign ++ rest) = (sign, rest) := by
  cases hsign with
  | none =>
      show splitOffsetSign rest = _
      unfold splitOffsetSign
      split
      · exact absurd rfl (hrest _ rfl).2
      · exact absurd rfl (hrest _ rfl).1
      · rfl
  | plus => rfl
  | minus => rfl

/-- Neither the digits of an offset nor what stands behind them begins with a
sign. -/
theorem head_ne_sign (hdigits : ∀ c ∈ digits, isAlphanumeric c = true)
    (hbefore : AreBlank before) {c : Char}
    (hc : c ∈ (digits ++ (before ++ '(' :: rest)).head?) :
    c ≠ '+' ∧ c ≠ '-' := by
  cases digits with
  | nil =>
      rcases head_append_cons hbefore hc with hblank | rfl
      · constructor <;> (rintro rfl; exact absurd hblank (by decide))
      · decide
  | cons first digits =>
      have hfirst : isAlphanumeric c = true := by
        cases hc
        exact hdigits c List.mem_cons_self
      exact ⟨ne_of_isAlphanumeric hfirst rfl, ne_of_isAlphanumeric hfirst rfl⟩

/-- A base register ends at the first blank or parenthesis behind it. -/
theorem base_append (hregister : ∀ c ∈ register, isAlphanumeric c = true)
    (hback : AreBlank back) :
    let isBase := fun c => c != ')' && !isBlank c
    (register ++ (back ++ [')'])).takeWhile isBase = register ∧
      (register ++ (back ++ [')'])).dropWhile isBase = back ++ [')'] := by
  intro isBase
  have hbase : ∀ c ∈ register, isBase c = true := fun c hc => by
    show (c != ')' && !isBlank c) = true
    have hparenthesis : c ≠ ')' := ne_of_isAlphanumeric (hregister c hc) rfl
    rw [isBlank_of_isAlphanumeric (hregister c hc)]
    simpa using hparenthesis
  have hend : ∀ c ∈ (back ++ [')']).head?, isBase c = false := fun c hc => by
    show (c != ')' && !isBlank c) = false
    rcases head_append_cons hback hc with hblank | rfl
    · rw [hblank, Bool.not_true, Bool.and_false]
    · decide
  exact ⟨takeWhile_append_eq hbase hend, dropWhile_append_eq hbase hend⟩

/-- An address falls into its offset and its base register, without the blanks
around the parentheses. -/
theorem splitAddress?_eq (hsign : IsSign negative sign)
    (hdigits : ∀ c ∈ digits, isAlphanumeric c = true)
    (hregister : ∀ c ∈ register, isAlphanumeric c = true)
    (hne : register ≠ []) (hbefore : AreBlank before) (hfront : AreBlank front)
    (hback : AreBlank back) :
    splitAddress?
        (sign ++ (digits ++ (before ++ enclosed front register back))) =
      some (sign ++ digits, register) := by
  have hword : ∀ c ∈ digits, isWordChar c = true := fun c hc =>
    isWordChar_of_isAlphanumeric (hdigits c hc)
  have hopen : ∀ c ∈ (before ++ enclosed front register back).head?,
      isWordChar c = false := fun c hc => by
    rcases head_append_cons hbefore hc with hblank | rfl
    · exact isWordChar_of_isBlank hblank
    · decide
  have hnosign :
      ∀ c ∈ (digits ++ (before ++ enclosed front register back)).head?,
        c ≠ '+' ∧ c ≠ '-' :=
    fun c hc => head_ne_sign hdigits hbefore hc
  have hbracket : stripLeft (before ++ enclosed front register back) =
      enclosed front register back :=
    stripLeft_append hbefore (by simp [enclosed]; decide)
  have hfirst : ∀ c ∈ (register ++ (back ++ [')'])).head?,
      isBlank c = false := by
    rw [List.head?_append_of_ne_nil _ hne]
    exact fun c hc => isBlank_of_isAlphanumeric
      (hregister c (List.mem_of_mem_head? hc))
  have hclose : stripLeft (back ++ [')']) = [')'] :=
    stripLeft_append hback (by simp; decide)
  obtain ⟨htake, hdrop⟩ := base_append hregister hback
  rw [splitAddress?, splitOffsetSign_append hsign hnosign]
  dsimp only
  rw [takeWhile_append_eq hword hopen, dropWhile_append_eq hword hopen,
    hbracket]
  simp only [enclosed]
  rw [stripLeft_append hfront hfirst, htake, hdrop, hclose,
    if_neg (by simpa using hne)]
  rfl

theorem isTrimmed_append_enclosed (hdigits : IsTrimmed digits) :
    IsTrimmed (digits ++ (before ++ enclosed front register back)) := by
  have hclose : IsTrimmed [')'] := isTrimmed_singleton (by decide)
  have := hdigits.append hclose (before ++ '(' :: (front ++ (register ++ back)))
  simpa [enclosed] using this

theorem isTrimmed_enclosed : IsTrimmed (enclosed front register back) := by
  have hopen : IsTrimmed ['('] := isTrimmed_singleton (by decide)
  have hclose : IsTrimmed [')'] := isTrimmed_singleton (by decide)
  simpa [enclosed] using hopen.append hclose (front ++ (register ++ back))

theorem comma_notMem_of_areBlank (h : AreBlank text) : ',' ∉ text :=
  fun hmem => absurd (h _ hmem) (by decide)

theorem comma_notMem_enclosed (hregister : SpellsRegister base register)
    (hfront : AreBlank front) (hback : AreBlank back) :
    ',' ∉ enclosed front register back := by
  simp [enclosed, hregister.isPiece.comma, comma_notMem_of_areBlank hfront,
    comma_notMem_of_areBlank hback]

theorem SpellsAddress.isPiece (h : SpellsAddress offset base text) :
    IsPiece text := by
  cases h with
  | offset hoffset hbase hbefore hfront hback =>
      refine ⟨isTrimmed_append_enclosed hoffset.isPiece.toIsTrimmed, ?_⟩
      simp [hoffset.isPiece.comma, comma_notMem_of_areBlank hbefore,
        comma_notMem_enclosed hbase hfront hback]
  | bare hbase hfront hback =>
      exact ⟨isTrimmed_enclosed, comma_notMem_enclosed hbase hfront hback⟩

theorem parseOffset_eq (h : SpellsInt offset digits) :
    parseOffset digits = .ok offset := by
  have hsome : ¬(digits = [] ∨ digits = ['+'] ∨ digits = ['-']) := by
    obtain ⟨hsign, hdigits⟩ := h
    rename_i number sign digits
    obtain ⟨c, rest, rfl⟩ := List.exists_cons_of_ne_nil hdigits.ne_nil
    have hc := hdigits.isAlphanumeric List.mem_cons_self
    have hplus : c ≠ '+' := ne_of_isAlphanumeric hc rfl
    have hminus : c ≠ '-' := ne_of_isAlphanumeric hc rfl
    cases hsign <;> simp [hplus, hminus]
  rw [parseOffset, if_neg hsome, parseInteger, h.parse_eq]
  rfl

theorem SpellsAddress.parse_eq (h : SpellsAddress offset base text) :
    parseAddress text = .ok (offset, base) := by
  have hstrip := h.isPiece.strip_eq
  unfold parseAddress
  dsimp only
  rw [hstrip]
  cases h with
  | offset hoffset hbase hbefore hfront hback =>
      have hread := parseOffset_eq hoffset
      obtain ⟨hsign, hdigits⟩ := hoffset
      rw [List.append_assoc,
        splitAddress?_eq hsign (fun _ => hdigits.isAlphanumeric)
          (fun _ => hbase.isAlphanumeric) hbase.ne_nil hbefore hfront hback]
      dsimp only
      rw [hread, hbase.parse_eq]
      rfl
  | @bare _ front register back hbase hfront hback =>
      have hsplit : splitAddress? (enclosed front register back) =
          some ([], register) :=
        @splitAddress?_eq [] [] [] front register back _ .none nofun
          (fun _ => hbase.isAlphanumeric) hbase.ne_nil areBlank_nil hfront hback
      rw [hsplit]
      dsimp only
      rw [hbase.parse_eq]
      rfl

theorem isRegister_of_parseAddress
    (h : parseAddress text = .ok (offset, base)) : IsRegister base := by
  unfold parseAddress at h
  dsimp only at h
  split at h
  · nomatch h
  · obtain ⟨_, _, h⟩ := exists_ok_of_bind h
    obtain ⟨_, hbase, h⟩ := exists_ok_of_bind h
    cases h
    exact isRegister_of_parseRegister hbase

end Address

end OutOfOrder.Assembly
