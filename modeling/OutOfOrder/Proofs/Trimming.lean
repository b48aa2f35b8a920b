import Mathlib.Data.List.Basic
import OutOfOrder.Text.Blank
import OutOfOrder.Text.Pieces
import OutOfOrder.Text.WordChar

/-!
# Words between blanks and commas

A word that begins and ends with no blank is what is left when the blanks around
it are stripped.  A list of such words without commas, which is written with
commas between them and blanks around the commas, splits into the words again.
-/

namespace OutOfOrder.Text

/-! ## Letters and digits -/

/-- The code points of the blanks beyond ASCII. -/
def foreignBlanks : List Nat :=
  [0x85, 0xa0, 0x1680, 0x2000, 0x2001, 0x2002, 0x2003, 0x2004, 0x2005, 0x2006,
    0x2007, 0x2008, 0x2009, 0x200a, 0x2028, 0x2029, 0x202f, 0x205f, 0x3000]

def isAlphanumeric (c : Char) : Bool :=
  isAsciiLetter c || inRange c.toNat 0x30 0x39

section Alphanumeric

variable {c : Char}

/-- A blank stands before the digits of ASCII, or is a foreign one. -/
theorem code_of_isBlank (h : isBlank c = true) :
    c.toNat < 0x30 ∨ c.toNat ∈ foreignBlanks := by
  simp only [isBlank, blankRanges, inRanges, inRange, List.any_cons,
    List.any_nil, Bool.or_eq_true, Bool.and_eq_true, decide_eq_true_eq,
    Bool.false_eq_true, or_false] at h
  simp only [foreignBlanks, List.mem_cons, List.not_mem_nil, or_false]
  omega

theorem isWordChar_of_isBlank (h : isBlank c = true) :
    isWordChar c = false := by
  rcases code_of_isBlank h with hlow | hforeign
  · have hascii : c.toNat < 0x80 := by omega
    have hmark : c ≠ '_' := by
      rintro rfl
      exact absurd hlow (by decide)
    have hletter : isAsciiLetter c = false := by
      simp only [isAsciiLetter, inRange, Bool.or_eq_false_iff,
        Bool.and_eq_false_iff, decide_eq_false_iff_not]
      omega
    have hdigit : inRange c.toNat 0x30 0x39 = false := by
      simp only [inRange, Bool.and_eq_false_iff, decide_eq_false_iff_not]
      omega
    rw [isWordChar, if_pos hascii, hletter, hdigit]
    simpa using hmark
  · have hall : ∀ code ∈ foreignBlanks,
        ¬code < 0x80 ∧ inRanges code foreignWordRanges = false := by
      decide +kernel
    obtain ⟨hascii, hword⟩ := hall _ hforeign
    rw [isWordChar, if_neg hascii, hword]

theorem code_of_isAlphanumeric (h : isAlphanumeric c = true) :
    0x30 ≤ c.toNat ∧ c.toNat < 0x7b := by
  simp only [isAlphanumeric, isAsciiLetter, inRange, Bool.or_eq_true,
    Bool.and_eq_true, decide_eq_true_eq] at h
  omega

theorem isWordChar_of_isAlphanumeric (h : isAlphanumeric c = true) :
    isWordChar c = true := by
  have hascii : c.toNat < 0x80 := by
    have := code_of_isAlphanumeric h
    omega
  rw [isWordChar, if_pos hascii]
  rw [isAlphanumeric] at h
  rw [h, Bool.true_or]

theorem isBlank_of_isAlphanumeric (h : isAlphanumeric c = true) :
    isBlank c = false := by
  by_contra hblank
  have hword := isWordChar_of_isBlank (eq_true_of_ne_false hblank)
  rw [isWordChar_of_isAlphanumeric h] at hword
  nomatch hword

theorem ne_of_isAlphanumeric {other : Char} (h : isAlphanumeric c = true)
    (hother : isAlphanumeric other = false) : c ≠ other := by
  rintro rfl
  rw [h] at hother
  nomatch hother

end Alphanumeric

/-! ## Runs of characters -/

section Runs

variable {p : Char → Bool} {run rest : List Char}

theorem takeWhile_append_eq (hrun : ∀ c ∈ run, p c = true)
    (hrest : ∀ c ∈ rest.head?, p c = false) :
    (run ++ rest).takeWhile p = run := by
  rw [List.takeWhile_append_of_pos hrun]
  cases rest with
  | nil => exact List.append_nil run
  | cons c rest =>
      rw [List.takeWhile_cons_of_neg (by simp [hrest c rfl]), List.append_nil]

theorem dropWhile_append_eq (hrun : ∀ c ∈ run, p c = true)
    (hrest : ∀ c ∈ rest.head?, p c = false) :
    (run ++ rest).dropWhile p = rest := by
  rw [List.dropWhile_append_of_pos hrun]
  cases rest with
  | nil => rfl
  | cons c rest => exact List.dropWhile_cons_of_neg (by simp [hrest c rfl])

end Runs

/-! ## Blanks around a word -/

def AreBlank (text : List Char) : Prop :=
  ∀ c ∈ text, isBlank c = true

theorem areBlank_nil : AreBlank [] :=
  nofun

theorem areBlank_singleton {c : Char} (h : isBlank c = true) : AreBlank [c] := by
  intro d hd
  rwa [List.mem_singleton.mp hd]

/-- The text begins and ends with a character that is no blank. -/
structure IsTrimmed (text : List Char) : Prop where
  ne_nil : text ≠ []
  head : ∀ c ∈ text.head?, isBlank c = false
  getLast : ∀ c ∈ text.getLast?, isBlank c = false

/-- The text is one that stands between commas, without the blanks around it. -/
structure IsPiece (text : List Char) : Prop extends IsTrimmed text where
  comma : ',' ∉ text

theorem IsTrimmed.of_forall {text : List Char} (hne : text ≠ [])
    (h : ∀ c ∈ text, isBlank c = false) : IsTrimmed text where
  ne_nil := hne
  head c hc := h c (List.mem_of_mem_head? hc)
  getLast c hc := h c (List.mem_of_mem_getLast? hc)

theorem isTrimmed_singleton {c : Char} (h : isBlank c = false) :
    IsTrimmed [c] :=
  .of_forall (List.cons_ne_nil c []) fun d hd => by
    rwa [List.mem_singleton.mp hd]

/-- What begins like one trimmed text and ends like another is trimmed. -/
theorem IsTrimmed.append {first last : List Char} (hfirst : IsTrimmed first)
    (hlast : IsTrimmed last) (between : List Char) :
    IsTrimmed (first ++ (between ++ last)) where
  ne_nil := by simp [hfirst.ne_nil]
  head c hc := by
    rw [List.head?_append_of_ne_nil _ hfirst.ne_nil] at hc
    exact hfirst.head c hc
  getLast c hc := by
    rw [← List.append_assoc,
      List.getLast?_append_of_ne_nil _ hlast.ne_nil] at hc
    exact hlast.getLast c hc

section Strip

variable {front word back rest : List Char}

theorem stripLeft_append (hfront : AreBlank front)
    (hhead : ∀ c ∈ word.head?, isBlank c = false) :
    stripLeft (front ++ word) = word :=
  dropWhile_append_eq hfront hhead

theorem stripRight_append (hback : AreBlank back)
    (hlast : ∀ c ∈ word.getLast?, isBlank c = false) :
    stripRight (word ++ back) = word := by
  have hleft : stripLeft (back.reverse ++ word.reverse) = word.reverse := by
    refine stripLeft_append (fun c hc => hback c (List.mem_reverse.mp hc)) ?_
    rw [List.head?_reverse]
    exact hlast
  rw [stripRight, List.reverse_append]
  exact (congrArg List.reverse hleft).trans (List.reverse_reverse word)

/-- Nothing but the blanks around a word is stripped. -/
theorem strip_append (hfront : AreBlank front) (hword : IsTrimmed word)
    (hback : AreBlank back) : strip (front ++ (word ++ back)) = word := by
  have hhead : ∀ c ∈ (word ++ back).head?, isBlank c = false := by
    rw [List.head?_append_of_ne_nil _ hword.ne_nil]
    exact hword.head
  rw [strip, stripLeft_append hfront hhead,
    stripRight_append hback hword.getLast]

theorem IsTrimmed.strip_eq (hword : IsTrimmed word) : strip word = word := by
  have h := strip_append areBlank_nil hword areBlank_nil
  rwa [List.nil_append, List.append_nil] at h

/-- The first word reaches to the first blank. -/
theorem firstWord?_append (hne : word ≠ [])
    (hword : ∀ c ∈ word, isBlank c = false)
    (hrest : ∀ c ∈ rest.head?, isBlank c = true) :
    firstWord? (word ++ rest) = some (word, stripLeft rest) := by
  cases word with
  | nil => exact absurd rfl hne
  | cons c word =>
      have hc : ¬isBlank c = true := by simp [hword c List.mem_cons_self]
      have htail : ∀ d ∈ word, (!isBlank d) = true := fun d hd => by
        rw [hword d (List.mem_cons_of_mem c hd), Bool.not_false]
      have hstop : ∀ d ∈ rest.head?, (!isBlank d) = false := fun d hd => by
        rw [hrest d hd, Bool.not_true]
      rw [firstWord?, List.cons_append, stripLeft,
        List.dropWhile_cons_of_neg hc]
      dsimp only
      rw [takeWhile_append_eq htail hstop, dropWhile_append_eq htail hstop]

end Strip

/-! ## Words between commas -/

/-- The words are written with commas between them and blanks around the
commas. -/
inductive Joined : List (List Char) → List Char → Prop where
  | nil : Joined [] []
  | single (word : List Char) : Joined [word] word
  | cons {word front back next text : List Char} {words : List (List Char)}
      (hfront : AreBlank front) (hback : AreBlank back)
      (h : Joined (next :: words) text) :
      Joined (word :: next :: words) (word ++ (front ++ ',' :: (back ++ text)))

section Pieces

variable {separator : Char} {word text front : List Char}

theorem exists_pieces_eq (separator : Char) (text : List Char) :
    ∃ piece more, pieces separator text = piece :: more := by
  cases text with
  | nil => exact ⟨[], [], rfl⟩
  | cons c text =>
      rw [pieces, List.foldr_cons]
      unfold addToPieces
      split
      · exact ⟨_, _, rfl⟩
      · split <;> exact ⟨_, _, rfl⟩

/-- A character that is no separator is added to the first piece. -/
theorem pieces_cons_of_ne {c : Char} {piece : List Char}
    {more : List (List Char)} (hc : separator ≠ c)
    (h : pieces separator text = piece :: more) :
    pieces separator (c :: text) = (c :: piece) :: more := by
  show addToPieces separator c (pieces separator text) = _
  rw [h, addToPieces, if_neg (by simpa using hc.symm)]

theorem pieces_of_notMem (h : separator ∉ word) :
    pieces separator word = [word] := by
  induction word with
  | nil => rfl
  | cons c word ih =>
      obtain ⟨hc, hword⟩ := List.ne_and_not_mem_of_not_mem_cons h
      exact pieces_cons_of_ne hc (ih hword)

theorem pieces_append_cons (h : separator ∉ word) :
    pieces separator (word ++ separator :: text) =
      word :: pieces separator text := by
  induction word with
  | nil =>
      obtain ⟨piece, more, hpieces⟩ := exists_pieces_eq separator text
      show addToPieces separator separator (pieces separator text) = _
      rw [hpieces, addToPieces, if_pos BEq.rfl]
  | cons c word ih =>
      obtain ⟨hc, hword⟩ := List.ne_and_not_mem_of_not_mem_cons h
      exact pieces_cons_of_ne hc (ih hword)

/-- Blanks in front of a text do not count in the stripped pieces. -/
theorem map_strip_pieces_append (hfront : AreBlank front)
    (hseparator : isBlank separator = false) :
    (pieces separator (front ++ text)).map strip =
      (pieces separator text).map strip := by
  induction front with
  | nil => rfl
  | cons c front ih =>
      have hblank := hfront c List.mem_cons_self
      have hne : separator ≠ c := by
        rintro rfl
        rw [hblank] at hseparator
        nomatch hseparator
      have hrest := ih fun d hd => hfront d (List.mem_cons_of_mem c hd)
      obtain ⟨piece, more, hpieces⟩ :=
        exists_pieces_eq separator (front ++ text)
      have hstrip : strip (c :: piece) = strip piece := by
        rw [strip, stripLeft, List.dropWhile_cons_of_pos hblank, strip,
          stripLeft]
      rw [List.cons_append, pieces_cons_of_ne hne hpieces, ← hrest, hpieces,
        List.map_cons, List.map_cons, hstrip]

end Pieces

section Joined

variable {words : List (List Char)} {text : List Char}

theorem Joined.isTrimmed (h : Joined words text) (hne : words ≠ [])
    (hwords : ∀ word ∈ words, IsPiece word) : IsTrimmed text := by
  induction h with
  | nil => exact absurd rfl hne
  | single word => exact (hwords word List.mem_cons_self).toIsTrimmed
  | @cons word front back next text words hfront hback h ih =>
      have hfirst := hwords word List.mem_cons_self
      have hlast := ih (List.cons_ne_nil _ _) fun word hword =>
        hwords word (List.mem_cons_of_mem _ hword)
      simpa using hfirst.toIsTrimmed.append hlast (front ++ ',' :: back)

theorem Joined.map_strip_pieces (h : Joined words text) (hne : words ≠ [])
    (hwords : ∀ word ∈ words, IsPiece word) :
    (pieces ',' text).map strip = words := by
  induction h with
  | nil => exact absurd rfl hne
  | single word =>
      have hword := hwords word List.mem_cons_self
      rw [pieces_of_notMem hword.comma, List.map_singleton, hword.strip_eq]
  | @cons word front back next text words hfront hback h ih =>
      have hword := hwords word List.mem_cons_self
      have hnocomma : ',' ∉ word ++ front := by
        intro hmem
        rcases List.mem_append.mp hmem with hmem | hmem
        · exact hword.comma hmem
        · exact absurd (hfront _ hmem) (by decide)
      have hstrip : strip (word ++ front) = word :=
        strip_append areBlank_nil hword.toIsTrimmed hfront
      have hrest := ih (List.cons_ne_nil _ _) fun word hword =>
        hwords word (List.mem_cons_of_mem _ hword)
      rw [← List.append_assoc, pieces_append_cons hnocomma, List.map_cons,
        hstrip, map_strip_pieces_append hback (by decide), hrest]

end Joined

end OutOfOrder.Text
