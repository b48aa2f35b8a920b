import Mathlib.Data.List.TakeWhile
import Mathlib.Tactic.IntervalCases
import OutOfOrder.Proofs.Trimming
import OutOfOrder.Text.Numeral

/-!
# Spellings of integers

A natural number is spelled by its digits in a base, with letters in either case
and any number of zeros in front.  An integer is spelled by a sign, which may be
left out if it is a plus, and a natural number in base ten, or behind `0x` in
base sixteen.  Every spelling reads as the integer it spells.
-/

namespace OutOfOrder.Numeral

open Text

/-! ## Spellings -/

/-- The digits spell the number in the base. -/
def SpellsNat (base number : Nat) (digits : List Char) : Prop :=
  ∃ count, digits.map Char.toLower =
    List.replicate count '0' ++ Nat.toDigits base number

/-- The digits spell the number in base ten, and there are not too many of
them. -/
def SpellsDecimal (number : Nat) (digits : List Char) : Prop :=
  SpellsNat 10 number digits ∧ digits.length ≤ 4300

/-- The text spells the number in base ten or in base sixteen. -/
inductive SpellsMagnitude (number : Nat) : List Char → Prop where
  | decimal {digits : List Char} (h : SpellsDecimal number digits) :
      SpellsMagnitude number digits
  | hexadecimal {mark : Char} {digits : List Char}
      (hmark : mark = 'x' ∨ mark = 'X') (h : SpellsNat 16 number digits) :
      SpellsMagnitude number ('0' :: mark :: digits)

/-- The text is a sign, which is a minus or not and may be missing. -/
inductive IsSign : Bool → List Char → Prop where
  | none : IsSign false []
  | plus : IsSign false ['+']
  | minus : IsSign true ['-']

/-- The text spells the integer. -/
inductive SpellsInt : Int → List Char → Prop where
  | intro {negative : Bool} {number : Nat} {sign digits : List Char}
      (hsign : IsSign negative sign) (hdigits : SpellsMagnitude number digits) :
      SpellsInt (withSign negative number) (sign ++ digits)

/-! ## Values of digits -/

section Digits

variable {base number : Nat} {digits : List Char} {c : Char}

theorem toNat_toLower (c : Char) :
    c.toLower.toNat =
      if inRange c.toNat 0x41 0x5a then c.toNat + 0x20 else c.toNat := by
  have hiff : (c.val ≥ 'A'.val ∧ c.val ≤ 'Z'.val) ↔
      inRange c.toNat 0x41 0x5a = true := by
    simp only [inRange, ge_iff_le, UInt32.le_iff_toNat_le, Bool.and_eq_true,
      decide_eq_true_eq, Char.toNat_val]
    exact Iff.rfl
  unfold Char.toLower
  split
  · next h =>
      rw [if_pos (hiff.mp h)]
      have hle : c.toNat ≤ 0x5a := UInt32.le_iff_toNat_le.mp h.2
      have hlt : c.toNat + 0x20 < 2 ^ 32 := by omega
      exact Nat.mod_eq_of_lt hlt
  · next h => rw [if_neg (mt hiff.mpr h)]

/-- A capital has the value of its small letter. -/
theorem valueIn?_toLower (base : Nat) (c : Char) :
    valueIn? base c.toLower = valueIn? base c := by
  grind [valueIn?, inRange, toNat_toLower]

theorem valueIn?_digitChar {digit : Nat} (hbase : base ≤ 16)
    (hdigit : digit < base) :
    valueIn? base (Nat.digitChar digit) = some digit := by
  have hlt : digit < 16 := by omega
  interval_cases digit <;> simp [valueIn?, inRange, Nat.digitChar, hdigit]

theorem isAlphanumeric_of_isSome (h : (valueIn? base c).isSome) :
    isAlphanumeric c = true := by
  by_contra hnot
  simp only [isAlphanumeric, isAsciiLetter, Bool.or_eq_true, not_or,
    Bool.not_eq_true] at hnot
  obtain ⟨⟨hupper, hlower⟩, hdigit⟩ := hnot
  simp [valueIn?, hupper, hlower, hdigit] at h

theorem exists_digit_of_mem_toDigits (hbase : 1 < base)
    (h : c ∈ Nat.toDigits base number) :
    ∃ digit < base, c = Nat.digitChar digit := by
  induction number using Nat.base_induction base hbase with
  | single digit hdigit =>
      rw [Nat.toDigits_of_lt_base hdigit] at h
      exact ⟨digit, hdigit, List.mem_singleton.mp h⟩
  | digit high low hlow hhigh ih =>
      rw [← Nat.toDigits_append_toDigits hbase hhigh hlow,
        Nat.toDigits_of_lt_base hlow] at h
      rcases List.mem_append.mp h with h | h
      · exact ih h
      · exact ⟨low, hlow, List.mem_singleton.mp h⟩

theorem SpellsNat.isSome_valueIn? (h : SpellsNat base number digits)
    (hlow : 1 < base) (hhigh : base ≤ 16) (hc : c ∈ digits) :
    (valueIn? base c).isSome := by
  obtain ⟨count, hdigits⟩ := h
  have hmem := List.mem_map_of_mem (f := Char.toLower) hc
  have hdigit : ∃ digit < base, c.toLower = Nat.digitChar digit := by
    rw [hdigits] at hmem
    rcases List.mem_append.mp hmem with hzero | hmem
    · exact ⟨0, by omega, List.eq_of_mem_replicate hzero⟩
    · exact exists_digit_of_mem_toDigits hlow hmem
  obtain ⟨digit, hlt, hdigit⟩ := hdigit
  rw [← valueIn?_toLower, hdigit, valueIn?_digitChar hhigh hlt]
  rfl

theorem ofDigits_map_toLower (base : Nat) (digits : List Char) :
    ofDigits base (digits.map Char.toLower) = ofDigits base digits := by
  simp only [ofDigits, List.foldl_map, valueIn?_toLower]

theorem ofDigits_replicate_append (hlow : 0 < base) (hhigh : base ≤ 16)
    (count : Nat) :
    ofDigits base (List.replicate count '0' ++ digits) =
      ofDigits base digits := by
  induction count with
  | zero => rfl
  | succ count ih =>
      have hzero : valueIn? base '0' = some 0 :=
        show valueIn? base (Nat.digitChar 0) = some 0 from
          valueIn?_digitChar hhigh hlow
      rw [List.replicate_succ, List.cons_append, ← ih, ofDigits,
        List.foldl_cons, hzero, Option.getD_some, Nat.zero_mul, Nat.add_zero]
      rfl

theorem ofDigits_toDigits (hlow : 1 < base) (hhigh : base ≤ 16) (number : Nat) :
    ofDigits base (Nat.toDigits base number) = number := by
  induction number using Nat.base_induction base hlow with
  | single digit hdigit =>
      rw [Nat.toDigits_of_lt_base hdigit, ofDigits, List.foldl_cons,
        List.foldl_nil, valueIn?_digitChar hhigh hdigit]
      simp
  | digit high low hdigit hpos ih =>
      rw [← Nat.toDigits_append_toDigits hlow hpos hdigit,
        Nat.toDigits_of_lt_base hdigit, ofDigits, List.foldl_append]
      rw [ofDigits] at ih
      rw [ih, List.foldl_cons, List.foldl_nil, valueIn?_digitChar hhigh hdigit,
        Option.getD_some, Nat.mul_comm]

theorem SpellsNat.ofDigits_eq (h : SpellsNat base number digits)
    (hlow : 1 < base) (hhigh : base ≤ 16) : ofDigits base digits = number := by
  obtain ⟨count, hdigits⟩ := h
  rw [← ofDigits_map_toLower, hdigits,
    ofDigits_replicate_append (by omega) hhigh, ofDigits_toDigits hlow hhigh]

theorem SpellsNat.ne_nil (h : SpellsNat base number digits) : digits ≠ [] := by
  rintro rfl
  obtain ⟨count, hdigits⟩ := h
  have := List.append_eq_nil_iff.mp hdigits.symm
  exact Nat.toDigits_ne_nil this.2

theorem SpellsNat.isAlphanumeric (h : SpellsNat base number digits)
    (hlow : 1 < base) (hhigh : base ≤ 16) (hc : c ∈ digits) :
    isAlphanumeric c = true :=
  isAlphanumeric_of_isSome (h.isSome_valueIn? hlow hhigh hc)

end Digits

/-! ## Reading -/

section Reading

variable {base number : Nat} {whole digits text : List Char} {c : Char}

theorem groupedFrom_false (h : ∀ c ∈ digits, c ≠ '_') :
    groupedFrom false digits = true := by
  induction digits with
  | nil => rfl
  | cons c digits ih =>
      rw [groupedFrom, if_neg (by simpa using h c List.mem_cons_self)]
      exact ih fun d hd => h d (List.mem_cons_of_mem c hd)

/-- Digits without marks between them are well grouped. -/
theorem groupedFrom_true (hne : digits ≠ []) (h : ∀ c ∈ digits, c ≠ '_') :
    groupedFrom true digits = true := by
  cases digits with
  | nil => exact absurd rfl hne
  | cons c digits =>
      rw [groupedFrom, if_neg (by simpa using h c List.mem_cons_self)]
      exact groupedFrom_false fun d hd => h d (List.mem_cons_of_mem c hd)

theorem magnitude_eq_ok (h : SpellsNat base number digits) (hlow : 1 < base)
    (hhigh : base ≤ 16) (hlength : base = 10 → digits.length ≤ 4300) :
    magnitude whole base digits = .ok number := by
  have hmark : ∀ c ∈ digits, c ≠ '_' := fun c hc =>
    ne_of_isAlphanumeric (h.isAlphanumeric hlow hhigh hc) rfl
  have hdigit : ∀ c ∈ digits, isDigitOrMark base c = true := fun c hc => by
    rw [isDigitOrMark, h.isSome_valueIn? hlow hhigh hc, Bool.or_true]
  have hrun : digits.takeWhile (isDigitOrMark base) = digits :=
    List.takeWhile_eq_self_iff.mpr hdigit
  have hrest : digits.dropWhile (isDigitOrMark base) = [] :=
    List.dropWhile_eq_nil_iff.mpr hdigit
  have hfilter : digits.filter (· != '_') = digits :=
    List.filter_eq_self.mpr fun c hc => by simpa using hmark c hc
  have hshort : (base == 10 && maxDigits < digits.length) = false := by
    rw [Bool.and_eq_false_iff, beq_eq_false_iff_ne, decide_eq_false_iff_not]
    exact Decidable.not_or_of_imp fun hbase => Nat.not_lt.mpr (hlength hbase)
  simp only [magnitude, hrun, hrest, hfilter, hshort,
    groupedFrom_true h.ne_nil hmark, h.ofDigits_eq hlow hhigh, Bool.not_true,
    Bool.false_eq_true, if_false, List.all_nil, if_true]

theorem SpellsDecimal.magnitude_eq (h : SpellsDecimal number digits) :
    magnitude whole 10 digits = .ok number :=
  magnitude_eq_ok h.1 (by decide) (by decide) fun _ => h.2

theorem SpellsDecimal.isAlphanumeric (h : SpellsDecimal number digits)
    (hc : c ∈ digits) : isAlphanumeric c = true :=
  h.1.isAlphanumeric (by decide) (by decide) hc

theorem SpellsDecimal.isDigit (h : SpellsDecimal number digits)
    (hc : c ∈ digits) : isDigit c = true := by
  have hvalue := h.1.isSome_valueIn? (by decide) (by decide) hc
  have hrange : inRange c.toNat 0x30 (0x30 + 9) = true := by
    grind [valueIn?, inRange]
  rw [Text.isDigit, digitValue?, Option.isSome_map, List.find?_isSome]
  exact ⟨0x30, by decide, hrange⟩

/-- Read by its first characters, a decimal numeral with zeros in front is
refused, unless it is zero. -/
theorem SpellsDecimal.magnitudeByMark_eq (h : SpellsDecimal number digits)
    (whole : List Char) :
    magnitudeByMark whole digits = .ok number ∨
      ∃ failure, magnitudeByMark whole digits = .error failure := by
  have hread : magnitude whole 10 digits = .ok number := h.magnitude_eq
  have hnomark : ∀ mark, (valueIn? 10 mark).isSome = false → mark ∉ digits := by
    intro mark hmark hmem
    rw [h.1.isSome_valueIn? (by decide) (by decide) hmem] at hmark
    nomatch hmark
  unfold magnitudeByMark
  split
  · next rest =>
      split
      case h_7 =>
        rw [hread]
        cases number with
        | zero => exact .inl rfl
        | succ number => exact .inr ⟨_, rfl⟩
      all_goals
        exact (hnomark _ (by rfl)
          (List.mem_cons_of_mem _ List.mem_cons_self)).elim
  · exact .inl hread

theorem SpellsMagnitude.isAlphanumeric (h : SpellsMagnitude number text)
    (hc : c ∈ text) : isAlphanumeric c = true := by
  cases h with
  | decimal h => exact h.isAlphanumeric hc
  | @hexadecimal mark digits hmark h =>
      rcases List.mem_cons.mp hc with rfl | hc
      · rfl
      rcases List.mem_cons.mp hc with rfl | hc
      · rcases hmark with rfl | rfl <;> rfl
      · exact h.isAlphanumeric (by decide) (by decide) hc

theorem SpellsMagnitude.ne_nil (h : SpellsMagnitude number text) :
    text ≠ [] := by
  cases h with
  | decimal h => exact h.1.ne_nil
  | hexadecimal => exact List.cons_ne_nil _ _

/-- Read by its first characters, a numeral has its value or is refused. -/
theorem SpellsMagnitude.magnitudeByMark_eq (h : SpellsMagnitude number text)
    (whole : List Char) :
    magnitudeByMark whole text = .ok number ∨
      magnitude whole 10 text = .ok number ∧
        ∃ failure, magnitudeByMark whole text = .error failure := by
  cases h with
  | decimal h =>
      exact (h.magnitudeByMark_eq whole).imp_right fun herror =>
        ⟨h.magnitude_eq, herror⟩
  | @hexadecimal mark digits hmark h =>
      have hskip : skipMark digits = digits := by
        unfold skipMark
        split
        · exact absurd (h.isAlphanumeric (by decide) (by decide)
            List.mem_cons_self) (by decide)
        · rfl
      have hread : magnitude whole 16 digits = .ok number :=
        magnitude_eq_ok h (by decide) (by decide) nofun
      left
      rcases hmark with rfl | rfl
      all_goals
        show magnitude whole 16 (skipMark digits) = _
        rw [hskip, hread]

/-! ### Signs -/

theorem simplify_of_isAlphanumeric (h : isAlphanumeric c = true) :
    simplify c = c := by
  have := code_of_isAlphanumeric h
  rw [simplify, if_pos (by omega)]

theorem splitSign_of_isAlphanumeric (h : ∀ c ∈ text, isAlphanumeric c = true) :
    splitSign text = (false, text) := by
  unfold splitSign
  split
  · exact absurd (h _ List.mem_cons_self) (by decide)
  · exact absurd (h _ List.mem_cons_self) (by decide)
  · rfl

theorem map_simplify (h : ∀ c ∈ text, isAlphanumeric c = true) :
    text.map simplify = text := by
  rw [List.map_congr_left fun c hc => simplify_of_isAlphanumeric (h c hc)]
  exact List.map_id' text

theorem dropWhile_isSpace (h : ∀ c ∈ text, isAlphanumeric c = true) :
    text.dropWhile isSpace = text := by
  cases text with
  | nil => rfl
  | cons c text =>
      have hc := code_of_isAlphanumeric (h c List.mem_cons_self)
      have hne : c ≠ ' ' := ne_of_isAlphanumeric (h c List.mem_cons_self) rfl
      have hrange : inRange c.toNat 0x9 0xd = false := by
        simp only [inRange, Bool.and_eq_false_iff, decide_eq_false_iff_not]
        omega
      exact List.dropWhile_cons_of_neg (by simp [isSpace, hrange, hne])

/-- A sign is told from the letters and digits behind it. -/
theorem IsSign.signAndRest_append {negative : Bool} {sign : List Char}
    (hsign : IsSign negative sign) (h : ∀ c ∈ text, isAlphanumeric c = true) :
    signAndRest (sign ++ text) = (negative, text) := by
  rw [signAndRest, List.map_append, map_simplify h]
  cases hsign with
  | none =>
      show splitSign (text.dropWhile isSpace) = _
      rw [dropWhile_isSpace h, splitSign_of_isAlphanumeric h]
  | plus => rfl
  | minus => rfl

theorem SpellsDecimal.decimal_eq (h : SpellsDecimal number digits) :
    decimal digits = .ok number := by
  rw [decimal, ← List.nil_append digits,
    IsSign.none.signAndRest_append fun _ => h.isAlphanumeric]
  show (magnitude digits 10 digits).map (withSign false) = _
  rw [h.magnitude_eq]
  rfl

/-- A spelled integer has letters and digits, and maybe a sign. -/
theorem SpellsInt.of_mem {value : Int} (h : SpellsInt value text)
    (hc : c ∈ text) : isAlphanumeric c = true ∨ c = '+' ∨ c = '-' := by
  obtain ⟨hsign, hdigits⟩ := h
  rcases List.mem_append.mp hc with hc | hc
  · cases hsign with
    | none => nomatch hc
    | plus => exact .inr (.inl (List.mem_singleton.mp hc))
    | minus => exact .inr (.inr (List.mem_singleton.mp hc))
  · exact .inl (hdigits.isAlphanumeric hc)

theorem SpellsInt.ne_nil {value : Int} (h : SpellsInt value text) :
    text ≠ [] := by
  obtain ⟨-, hdigits⟩ := h
  exact fun hnil => hdigits.ne_nil (List.append_eq_nil_iff.mp hnil).2

theorem SpellsInt.isPiece {value : Int} (h : SpellsInt value text) :
    IsPiece text where
  toIsTrimmed := .of_forall h.ne_nil fun c hc => by
    rcases h.of_mem hc with hc | rfl | rfl
    · exact isBlank_of_isAlphanumeric hc
    · decide
    · decide
  comma hmem := by
    rcases h.of_mem hmem with hcomma | hcomma | hcomma
    all_goals exact absurd hcomma (by decide)

theorem SpellsInt.parse_eq {value : Int} (h : SpellsInt value text) :
    parse text = .ok value := by
  have hstrip : strip text = text := h.isPiece.strip_eq
  obtain ⟨hsign, hdigits⟩ := h
  rename_i negative number sign digits
  have hrest : signAndRest (sign ++ digits) = (negative, digits) :=
    hsign.signAndRest_append fun _ => hdigits.isAlphanumeric
  have hmarked : marked (sign ++ digits) =
      (magnitudeByMark (sign ++ digits) digits).map (withSign negative) := by
    rw [marked, hrest]
  have hdecimal : decimal (sign ++ digits) =
      (magnitude (sign ++ digits) 10 digits).map (withSign negative) := by
    rw [decimal, hrest]
  rw [parse, hstrip]
  rcases hdigits.magnitudeByMark_eq (sign ++ digits) with
    hok | ⟨hok, failure, herror⟩
  · rw [hmarked, hok]
    rfl
  · rw [hmarked, herror]
    show decimal (sign ++ digits) = _
    rw [hdecimal, hok]
    rfl

end Reading

/-! ## Every integer has a spelling -/

theorem map_toLower_toDigits {base : Nat} (hlow : 1 < base) (hhigh : base ≤ 16)
    (number : Nat) :
    (Nat.toDigits base number).map Char.toLower = Nat.toDigits base number := by
  have hlower : ∀ c ∈ Nat.toDigits base number, c.toLower = c := by
    intro c hc
    obtain ⟨digit, hdigit, rfl⟩ := exists_digit_of_mem_toDigits hlow hc
    have hlt : digit < 16 := by omega
    clear hdigit
    interval_cases digit <;> rfl
  rw [List.map_congr_left hlower, List.map_id']

theorem spellsNat_toDigits {base : Nat} (hlow : 1 < base) (hhigh : base ≤ 16)
    (number : Nat) : SpellsNat base number (Nat.toDigits base number) :=
  ⟨0, map_toLower_toDigits hlow hhigh number⟩

theorem exists_spellsInt (value : Int) : ∃ text, SpellsInt value text := by
  obtain ⟨number, rfl | rfl⟩ := value.eq_nat_or_neg
  all_goals
    have hdigits := SpellsMagnitude.hexadecimal (.inl rfl)
      (spellsNat_toDigits (by decide) (by decide) number)
  · exact ⟨_, SpellsInt.intro .none hdigits⟩
  · exact ⟨_, SpellsInt.intro .minus hdigits⟩

end OutOfOrder.Numeral
