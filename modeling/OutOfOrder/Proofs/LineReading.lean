import Mathlib.Data.List.TakeWhile
import OutOfOrder.Assembly.Source
import OutOfOrder.Proofs.Trimming

/-!
# What a line says

A line has some code and perhaps a comment behind it, which begins with a number
sign or a semicolon.  The code has labels, each of them a name with a colon, and
at last an instruction or nothing.  Blanks may stand around all of these.

Where no line feed stands inside a line, reading finds just what the line says.
-/

namespace OutOfOrder

namespace Text

/-! ## Blanks at the ends -/

/-- A text that is not blank has a trimmed one between its blanks. -/
theorem areBlank_or_exists_trimmed (text : List Char) :
    AreBlank text ∨ ∃ front word back, AreBlank front ∧ IsTrimmed word ∧
      AreBlank back ∧ text = front ++ (word ++ back) := by
  by_cases hne : strip text = []
  · left
    have hleft : AreBlank (stripLeft text) := by
      rw [strip, stripRight, List.reverse_eq_nil_iff,
        List.dropWhile_eq_nil_iff] at hne
      exact fun c hc => hne c (List.mem_reverse.mpr hc)
    intro c hc
    rw [← List.takeWhile_append_dropWhile (p := isBlank) (l := text)] at hc
    rcases List.mem_append.mp hc with hfront | hrest
    · exact List.mem_takeWhile_imp hfront
    · exact hleft c hrest
  · right
    refine ⟨text.takeWhile isBlank, strip text,
      ((stripLeft text).reverse.takeWhile isBlank).reverse,
      fun c hc => List.mem_takeWhile_imp hc, ⟨hne, ?_, ?_⟩,
      fun c hc => List.mem_takeWhile_imp (List.mem_reverse.mp hc), ?_⟩
    -- what is stripped on the left is a suffix, of which a prefix is left
    · intro c hc
      have hprefix : strip text <+: stripLeft text := by
        have hsuffix := List.dropWhile_suffix isBlank
          (l := (stripLeft text).reverse)
        rw [strip, stripRight]
        exact List.reverse_suffix.mp (by simpa using hsuffix)
      have hhead : (stripLeft text).head? = (strip text).head? := by
        obtain ⟨rest, hrest⟩ := hprefix
        rw [← hrest, List.head?_append_of_ne_nil _ hne]
      have hstop := List.head?_dropWhile_not isBlank text
      rw [← stripLeft, hhead, Option.mem_def.mp hc] at hstop
      exact hstop
    · intro c hc
      rw [strip, stripRight, List.getLast?_reverse] at hc
      have hstop := List.head?_dropWhile_not isBlank (stripLeft text).reverse
      rw [Option.mem_def.mp hc] at hstop
      exact hstop
    · rw [strip, stripRight, ← List.reverse_append,
        List.takeWhile_append_dropWhile, List.reverse_reverse, stripLeft,
        List.takeWhile_append_dropWhile]

theorem strip_of_areBlank {text : List Char} (h : AreBlank text) :
    strip text = [] := by
  have hleft : stripLeft text = [] := List.dropWhile_eq_nil_iff.mpr h
  rw [strip, hleft]
  rfl

theorem AreBlank.append {text more : List Char} (h : AreBlank text)
    (hmore : AreBlank more) : AreBlank (text ++ more) := fun c hc =>
  (List.mem_append.mp hc).elim (h c) (hmore c)

/-- Blanks at the ends of a text do not count. -/
theorem strip_append_append {front back : List Char} (hfront : AreBlank front)
    (hback : AreBlank back) (text : List Char) :
    strip (front ++ (text ++ back)) = strip text := by
  rcases areBlank_or_exists_trimmed text with hblank |
    ⟨before, word, after, hbefore, hword, hafter, rfl⟩
  · rw [strip_of_areBlank hblank,
      strip_of_areBlank (hfront.append (hblank.append hback))]
  · have hall : front ++ (before ++ (word ++ after) ++ back) =
        (front ++ before) ++ (word ++ (after ++ back)) := by simp
    rw [strip_append hbefore hword hafter, hall,
      strip_append (hfront.append hbefore) hword (hafter.append hback)]

/-- No line of a text has a line feed. -/
theorem lineFeed_notMem_of_mem_lines {text line : List Char}
    (h : line ∈ lines text) : '\n' ∉ line := by
  have hfrom : ∀ begun rest, '\n' ∉ begun →
      ∀ line ∈ linesFrom begun rest, '\n' ∉ line := by
    intro begun rest hbegun
    fun_induction linesFrom begun rest with
    | case1 => simp
    | case2 => simpa using hbegun
    | case3 begun rest ih => simpa [hbegun] using ih (by simp)
    | case4 begun c rest _ _ ih => simpa [hbegun] using ih (by simp)
    | case5 begun c rest _ hbreak ih =>
        refine ih ?_
        rw [List.mem_cons, not_or]
        refine ⟨?_, hbegun⟩
        rintro rfl
        exact hbreak (by decide)
  exact hfrom [] text List.not_mem_nil line h

end Text

namespace Assembly

open Text

/-! ## Labels, code and comments -/

/-- The name of a label begins with an ASCII letter or an underscore, and goes on
with letters, digits and underscores. -/
structure IsLabelName (name : List Char) : Prop where
  ne_nil : name ≠ []
  head : ∀ c ∈ name.head?, isAsciiLetter c = true ∨ c = '_'
  tail : ∀ c ∈ name.tail, isWordChar c = true

def Defines (text name rest : List Char) : Prop :=
  IsLabelName name ∧ ∃ gap, AreBlank gap ∧ text = name ++ (gap ++ ':' :: rest)

/-- The code says that labels stand here, one after another, and then an
instruction, or nothing. -/
inductive CodeSays : List Char → List (List Char) → List Char → Prop where
  | nothing {code : List Char} (h : AreBlank code) : CodeSays code [] []
  | instruction {front body back : List Char} (hfront : AreBlank front)
      (hbody : IsTrimmed body) (hback : AreBlank back)
      (hbare : ∀ name rest, ¬Defines body name rest) :
      CodeSays (front ++ (body ++ back)) [] body
  | label {front text name rest body : List Char} {names : List (List Char)}
      (hfront : AreBlank front) (hname : Defines text name rest)
      (h : CodeSays rest names body) :
      CodeSays (front ++ text) (name :: names) body

/-- The character begins a comment. -/
def isMark (c : Char) : Bool :=
  c == '#' || c == ';'

/-- The part of a line in front of the first mark. -/
def codeOf (line : List Char) : List Char :=
  line.takeWhile (!isMark ·)

/-- The text is a comment, or there is none. -/
def IsComment (text : List Char) : Prop :=
  ∀ c ∈ text.head?, isMark c = true

/-- The line says that labels stand here, and then an instruction or nothing. -/
def LineSays (line : List Char) (names : List (List Char)) (body : List Char) :
    Prop :=
  ∃ code comment, line = code ++ comment ∧ (∀ c ∈ code, isMark c = false) ∧
    IsComment comment ∧ CodeSays code names body

/-- Nothing, or a line feed. -/
def IsEnding (ending : List Char) : Prop :=
  ending = [] ∨ ending = ['\n']

/-- No line feed stands inside the line.  There may be one at its end. -/
def IsUnbroken (line : List Char) : Prop :=
  '\n' ∉ line.dropLast

instance (line : List Char) : Decidable (IsUnbroken line) :=
  inferInstanceAs (Decidable (_ ∉ _))

/-! ## Where a label is split off -/

variable {text name rest body code comment line : List Char}
  {names : List (List Char)}

theorem isWordChar_colon : isWordChar ':' = false := by
  decide

theorem isWordChar_of_isLetter {c : Char} (h : isAsciiLetter c = true ∨ c = '_') :
    isWordChar c = true := by
  rcases h with hletter | rfl
  · refine isWordChar_of_isAlphanumeric ?_
    rw [isAlphanumeric, hletter, Bool.true_or]
  · decide

theorem isBlank_of_isLetter {c : Char} (h : isAsciiLetter c = true ∨ c = '_') :
    isBlank c = false := by
  by_contra hblank
  have hword := isWordChar_of_isLetter h
  rw [isWordChar_of_isBlank (eq_true_of_ne_false hblank)] at hword
  contradiction

theorem IsLabelName.isWordChar_of_mem (h : IsLabelName name) :
    ∀ c ∈ name, isWordChar c = true := by
  obtain ⟨hne, hhead, htail⟩ := h
  cases name with
  | nil => exact absurd rfl hne
  | cons first rest =>
      intro c hc
      rcases List.mem_cons.mp hc with rfl | hmem
      · exact isWordChar_of_isLetter (hhead c rfl)
      · exact htail c hmem

/-- The name in front of a colon is split off with the blanks around the
colon. -/
theorem Defines.splitLabel?_eq (h : Defines text name rest)
    (hline : '\n' ∉ rest) :
    splitLabel? text = some (name, stripLeft rest) := by
  obtain ⟨⟨hne, hhead, htail⟩, gap, hgap, rfl⟩ := h
  cases name with
  | nil => exact absurd rfl hne
  | cons c more =>
      have hletter : (isAsciiLetter c || c == '_') = true := by
        simpa using hhead c rfl
      have hmore : ∀ d ∈ more, isWordChar d = true := htail
      have hstop : ∀ d ∈ (gap ++ ':' :: rest).head?, isWordChar d = false := by
        intro d hd
        cases gap with
        | nil =>
            cases hd
            exact isWordChar_colon
        | cons blank gap =>
            cases hd
            exact isWordChar_of_isBlank (hgap _ List.mem_cons_self)
      have hcolon : stripLeft (gap ++ ':' :: rest) = ':' :: rest :=
        stripLeft_append hgap fun d hd => by
          cases hd
          decide
      have hfeed : ¬(stripLeft rest).contains '\n' = true := by
        rw [List.contains_iff_mem]
        exact fun hmem => hline ((List.dropWhile_suffix _).subset hmem)
      rw [List.cons_append, splitLabel?, if_pos hletter,
        dropWhile_append_eq hmore hstop, takeWhile_append_eq hmore hstop,
        hcolon]
      exact if_neg hfeed

theorem defines_of_splitLabel? (h : splitLabel? text = some (name, body)) :
    ∃ rest, Defines text name rest := by
  cases text with
  | nil => cases h
  | cons c rest =>
      rw [splitLabel?] at h
      split at h
      · next hletter =>
          split at h
          · next inner hcolon =>
              dsimp only at h
              split at h
              · contradiction
              · cases h
                refine ⟨inner, ⟨List.cons_ne_nil _ _, ?_, ?_⟩,
                  (rest.dropWhile isWordChar).takeWhile isBlank,
                  fun d hd => List.mem_takeWhile_imp hd, ?_⟩
                · intro d hd
                  cases hd
                  simpa using hletter
                · exact fun d hd => List.mem_takeWhile_imp hd
                · rw [← hcolon, stripLeft, List.takeWhile_append_dropWhile,
                    List.cons_append, List.takeWhile_append_dropWhile]
          · contradiction
      · contradiction

theorem Defines.head_isBlank (h : Defines text name rest) :
    ∀ c ∈ text.head?, isBlank c = false := by
  obtain ⟨⟨hne, hhead, -⟩, gap, -, rfl⟩ := h
  intro c hc
  rw [List.head?_append_of_ne_nil _ hne] at hc
  exact isBlank_of_isLetter (hhead c hc)

theorem Defines.append (h : Defines text name rest) (more : List Char) :
    Defines (text ++ more) name (rest ++ more) := by
  obtain ⟨hname, gap, hgap, rfl⟩ := h
  exact ⟨hname, gap, hgap, by simp⟩

/-! ## Reading code -/

theorem splitLabels_of_some (h : splitLabel? text = some (name, rest)) :
    splitLabels text =
      (name :: (splitLabels rest).1, (splitLabels rest).2) := by
  rw [splitLabels]
  split
  · next hnone =>
      rw [h] at hnone
      contradiction
  · next label body hsome =>
      rw [h] at hsome
      cases hsome
      rfl

theorem splitLabels_of_none (h : splitLabel? text = none) :
    splitLabels text = ([], text) := by
  rw [splitLabels]
  split
  · rfl
  · next label body hsome =>
      rw [h] at hsome
      contradiction

/-- A definition at the front of a code, with the blanks at the end of the code
stripped. -/
theorem Defines.strip_eq (h : Defines text name rest) :
    ∃ kept, Defines (strip text) name kept ∧ stripLeft kept = strip rest := by
  have hhead := h.head_isBlank
  obtain ⟨hname, gap, hgap, rfl⟩ := h
  have hleft : stripLeft (name ++ (gap ++ ':' :: rest)) =
      name ++ (gap ++ ':' :: rest) := stripLeft_append areBlank_nil hhead
  have hcolon : ∀ {back}, AreBlank back → ∀ more, (∀ c ∈ more.getLast?,
      isBlank c = false) → stripRight (name ++ (gap ++ ':' :: (more ++ back))) =
        name ++ (gap ++ ':' :: more) := by
    intro back hback more hmore
    have hsplit : name ++ (gap ++ ':' :: (more ++ back)) =
        (name ++ (gap ++ ':' :: more)) ++ back := by simp
    rw [hsplit]
    refine stripRight_append hback fun c hc => ?_
    rw [← List.append_assoc, List.getLast?_append_of_ne_nil _
      (List.cons_ne_nil _ _)] at hc
    cases more with
    | nil =>
        cases hc
        decide
    | cons d more => exact hmore c (by simpa using hc)
  rcases areBlank_or_exists_trimmed rest with hblank |
    ⟨front, word, back, hfront, hword, hback, rfl⟩
  · refine ⟨[], ⟨hname, gap, hgap, ?_⟩, ?_⟩
    · rw [strip, hleft, ← List.nil_append rest]
      exact hcolon hblank [] (by simp)
    · rw [strip_of_areBlank hblank]
      rfl
  · refine ⟨front ++ word, ⟨hname, gap, hgap, ?_⟩, ?_⟩
    · rw [strip, hleft, ← List.append_assoc front]
      refine hcolon hback (front ++ word) fun c hc => ?_
      rw [List.getLast?_append_of_ne_nil _ hword.ne_nil] at hc
      exact hword.getLast c hc
    · rw [strip_append hfront hword hback, stripLeft_append hfront hword.head]

/-- A label that is defined at the front of a code is read, and then what
follows. -/
theorem Defines.splitLabels_eq (h : Defines text name rest)
    (hline : '\n' ∉ strip text) :
    '\n' ∉ strip rest ∧ splitLabels (strip text) =
      (name :: (splitLabels (strip rest)).1, (splitLabels (strip rest)).2) := by
  obtain ⟨kept, hkept, hrest⟩ := h.strip_eq
  have hfeed : '\n' ∉ kept := fun hmem => hline (by
    obtain ⟨-, gap, -, htext⟩ := hkept
    rw [htext]
    simp [hmem])
  have hfound := hkept.splitLabel?_eq hfeed
  rw [hrest] at hfound
  refine ⟨fun hmem => hfeed ?_, splitLabels_of_some hfound⟩
  rw [← hrest] at hmem
  exact (List.dropWhile_suffix _).subset hmem

theorem CodeSays.splitLabels_eq (h : CodeSays code names body)
    (hline : '\n' ∉ strip code) : splitLabels (strip code) = (names, body) := by
  induction h with
  | nothing hblank =>
      rw [strip_of_areBlank hblank]
      exact splitLabels_of_none rfl
  | @instruction front body back hfront hbody hback hbare =>
      rw [strip_append hfront hbody hback]
      refine splitLabels_of_none (Option.eq_none_iff_forall_not_mem.mpr ?_)
      rintro ⟨name, rest⟩ hsome
      obtain ⟨rest, hdefines⟩ := defines_of_splitLabel? hsome
      exact hbare name rest hdefines
  | @label front text name rest body names hfront hname h ih =>
      have hstrip : strip (front ++ text) = strip text := by
        have hends := strip_append_append hfront areBlank_nil text
        rwa [List.append_nil] at hends
      rw [hstrip] at hline ⊢
      obtain ⟨hbelow, hread⟩ := hname.splitLabels_eq hline
      rw [hread, ih hbelow]

theorem exists_codeSays (code : List Char) :
    ∃ names body, CodeSays code names body := by
  induction hlength : code.length using Nat.strongRecOn generalizing code with
  | ind length ih =>
      rcases areBlank_or_exists_trimmed code with hblank |
        ⟨front, word, back, hfront, hword, hback, rfl⟩
      · exact ⟨[], [], .nothing hblank⟩
      · by_cases hbare : ∃ name rest, Defines word name rest
        · obtain ⟨name, rest, hdefines⟩ := hbare
          have hshorter : (rest ++ back).length < length := by
            obtain ⟨-, gap, -, rfl⟩ := hdefines
            simp only [List.length_append, List.length_cons] at hlength ⊢
            omega
          obtain ⟨names, body, hsays⟩ := ih _ hshorter _ rfl
          exact ⟨_, _, .label hfront (hdefines.append back) hsays⟩
        · exact ⟨[], word, .instruction hfront hword hback
            fun name rest hdefines => hbare ⟨name, rest, hdefines⟩⟩

/-! ## Reading a line -/

/-- An unbroken line has its line feed, if any, at the end. -/
theorem IsUnbroken.exists_eq (h : IsUnbroken line) :
    ∃ text ending, line = text ++ ending ∧ '\n' ∉ text ∧ IsEnding ending := by
  rcases List.eq_nil_or_concat line with rfl | ⟨text, last, rfl⟩
  · exact ⟨[], [], rfl, List.not_mem_nil, .inl rfl⟩
  · have htext : '\n' ∉ text := by
      rw [IsUnbroken, List.concat_eq_append, List.dropLast_concat] at h
      exact h
    rw [List.concat_eq_append]
    by_cases hlast : last = '\n'
    · exact ⟨text, [last], rfl, htext, .inr (by rw [hlast])⟩
    · refine ⟨text ++ [last], [], (List.append_nil _).symm, ?_, .inl rfl⟩
      simp [htext, Ne.symm hlast]

/-- The code of an unbroken line reaches to the first mark. -/
theorem withoutComment_eq (h : '\n' ∉ text) {ending : List Char}
    (hending : IsEnding ending) :
    withoutComment (text ++ ending) = codeOf text := by
  have hcut : (if (text ++ ending).getLast? = some '\n' then
      (text ++ ending).dropLast else text ++ ending) = text := by
    rcases hending with rfl | rfl
    · rw [List.append_nil, if_neg]
      exact fun hlast => h (List.mem_of_getLast? hlast)
    · simp
  have hwhole : text.reverse.takeWhile (· != '\n') = text.reverse := by
    rw [List.takeWhile_eq_self_iff]
    intro c hc
    rw [bne_iff_ne]
    rintro rfl
    exact h (List.mem_reverse.mp hc)
  rw [withoutComment, hcut, hwhole, List.reverse_reverse, Nat.sub_self, List.take_zero,
    List.nil_append, codeOf]
  congr 1
  funext c
  rw [isMark, Bool.not_or]
  rfl

theorem isMark_of_isBlank {c : Char} (h : isBlank c = true) : isMark c = false := by
  by_contra hmark
  rw [Bool.not_eq_false, isMark, Bool.or_eq_true, beq_iff_eq, beq_iff_eq] at hmark
  rcases hmark with rfl | rfl
  · exact absurd h (by decide)
  · exact absurd h (by decide)

theorem isMark_of_isWordChar {c : Char} (h : isWordChar c = true) :
    isMark c = false := by
  by_contra hmark
  rw [Bool.not_eq_false, isMark, Bool.or_eq_true, beq_iff_eq, beq_iff_eq] at hmark
  rcases hmark with rfl | rfl
  · exact absurd h (by decide)
  · exact absurd h (by decide)

theorem isMark_of_areBlank (h : AreBlank text) : ∀ c ∈ text, isMark c = false :=
  fun c hc => isMark_of_isBlank (h c hc)

theorem IsEnding.areBlank (h : IsEnding text) : AreBlank text := by
  rcases h with rfl | rfl
  · exact areBlank_nil
  · exact areBlank_singleton (by decide)

theorem codeOf_append (h : ∀ c ∈ text, isMark c = false) (more : List Char) :
    codeOf (text ++ more) = text ++ codeOf more :=
  List.takeWhile_append_of_pos fun c hc => by rw [h c hc, Bool.not_false]

theorem codeOf_eq_self (h : ∀ c ∈ text, isMark c = false) : codeOf text = text := by
  rw [codeOf, List.takeWhile_eq_self_iff]
  exact fun c hc => by rw [h c hc, Bool.not_false]

theorem codeOf_of_isComment (h : IsComment comment) : codeOf comment = [] := by
  cases comment with
  | nil => rfl
  | cons c rest =>
      have hmark : isMark c = true := h c rfl
      rw [codeOf, List.takeWhile_cons, hmark]
      rfl

/-- What stands behind the code of a line does not count, apart from a mark. -/
theorem strip_codeOf_append {back : List Char} (hback : AreBlank (codeOf back))
    (text : List Char) : strip (codeOf (text ++ back)) = strip (codeOf text) := by
  by_cases hmark : ∀ c ∈ text, isMark c = false
  · rw [codeOf_append hmark, codeOf_eq_self hmark]
    exact strip_append_append areBlank_nil hback text
  · have hstops : codeOf (text ++ back) = codeOf text := by
      rw [codeOf, List.takeWhile_append, if_neg]
      · rfl
      · intro hlength
        refine hmark fun c hc => ?_
        have hself := (List.takeWhile_prefix (!isMark ·)).eq_of_length hlength
        rw [← hself] at hc
        simpa using List.mem_takeWhile_imp hc
    rw [hstops]

/-- The code of an unbroken line is what is read, and between its blanks it has no
line feed. -/
theorem IsUnbroken.strip_codeOf (h : IsUnbroken line) :
    strip (withoutComment line) = strip (codeOf line) ∧
      '\n' ∉ strip (codeOf line) := by
  obtain ⟨text, ending, rfl, htext, hending⟩ := h.exists_eq
  have hblank : AreBlank (codeOf ending) := by
    rw [codeOf_eq_self (isMark_of_areBlank hending.areBlank)]
    exact hending.areBlank
  rw [strip_codeOf_append hblank, withoutComment_eq htext hending]
  refine ⟨rfl, fun hmem => htext ?_⟩
  rw [strip, stripRight, List.mem_reverse] at hmem
  have hright := (List.dropWhile_suffix _).subset hmem
  have hleft := (List.dropWhile_suffix _).subset (List.mem_reverse.mp hright)
  exact (List.takeWhile_prefix _).subset hleft

/-- Only the code of an unbroken line is read. -/
theorem IsUnbroken.splitLine_eq (h : IsUnbroken line) :
    splitLine line = splitLabels (strip (codeOf line)) := by
  rw [splitLine, h.strip_codeOf.1]

/-- Reading an unbroken line finds what it says, and nothing else. -/
theorem lineSays_iff (h : IsUnbroken line) :
    LineSays line names body ↔ splitLine line = (names, body) := by
  have hfinds : ∀ {names body}, LineSays line names body →
      splitLine line = (names, body) := by
    rintro names body ⟨code, comment, rfl, hcode, hcomment, hsays⟩
    have hcut : codeOf (code ++ comment) = code := by
      rw [codeOf_append hcode, codeOf_of_isComment hcomment, List.append_nil]
    have hfeed := h.strip_codeOf.2
    rw [h.splitLine_eq, hcut]
    rw [hcut] at hfeed
    exact hsays.splitLabels_eq hfeed
  refine ⟨hfinds, fun hsplit => ?_⟩
  obtain ⟨names', body', hsays⟩ := exists_codeSays (codeOf line)
  have hline : LineSays line names' body' := by
    refine ⟨_, line.dropWhile (!isMark ·),
      List.takeWhile_append_dropWhile.symm, ?_, ?_, hsays⟩
    · intro c hc
      simpa using List.mem_takeWhile_imp hc
    · intro c hc
      have hstop := List.head?_dropWhile_not (!isMark ·) line
      rw [Option.mem_def.mp hc] at hstop
      simpa using hstop
  rw [hfinds hline] at hsplit
  cases hsplit
  exact hline

end Assembly

end OutOfOrder
