import OutOfOrder.Assembly.Decode
import OutOfOrder.Log
import OutOfOrder.Text.Lines

/-!
# Program sources

A source is a list of lines.  A line may define labels, each followed by a colon, and may hold one
instruction; a number sign or a semicolon begins a comment.  A label names the instruction that
follows it.  Reading a source collects all labels first, and decodes the instructions then.
-/

namespace OutOfOrder.Assembly

open Text

/-- The part of a line before its comment.  A comment reaches to the end of the line, so a mark
that has a line break behind it begins none, unless the break is the last character. -/
def withoutComment (line : List Char) : List Char :=
  let line := if line.getLast? = some '\n' then line.dropLast else line
  let tail := (line.reverse.takeWhile (· != '\n')).reverse
  let head := line.take (line.length - tail.length)
  head ++ tail.takeWhile fun c => c != '#' && c != ';'

/-- Splits off the label that a text begins with.  Behind the colon the text has no line break,
blanks in front apart. -/
def splitLabel? : List Char → Option (List Char × List Char)
  | [] => none
  | c :: rest =>
    if isAsciiLetter c || c == '_' then
      match stripLeft (rest.dropWhile isWordChar) with
      | ':' :: body =>
        let body := stripLeft body
        if body.contains '\n' then none else some (c :: rest.takeWhile isWordChar, body)
      | _ => none
    else none

theorem length_stripLeft_le (text : List Char) : (stripLeft text).length ≤ text.length :=
  (List.dropWhile_suffix _).length_le

theorem length_lt_of_splitLabel? {text label body : List Char}
    (h : splitLabel? text = some (label, body)) : body.length < text.length := by
  unfold splitLabel? at h
  split at h
  · cases h
  next c rest =>
    split at h
    · split at h
      next _ inner heq =>
        dsimp only at h
        split at h
        · cases h
        · have hbody : stripLeft inner = body := by
            simpa using congrArg Prod.snd (Option.some.inj h)
          have h1 := length_stripLeft_le inner
          have h2 := length_stripLeft_le (rest.dropWhile isWordChar)
          have h3 := (List.dropWhile_suffix isWordChar (l := rest)).length_le
          rw [heq] at h2
          rw [hbody] at h1
          simp only [List.length_cons] at h2 ⊢
          omega
      · cases h
    · cases h

/-- The labels that a text begins with, and the instruction behind them. -/
def splitLabels (text : List Char) : List (List Char) × List Char :=
  match h : splitLabel? text with
  | none => ([], text)
  | some (label, body) =>
    have := length_lt_of_splitLabel? h
    let (labels, body) := splitLabels body
    (label :: labels, body)
termination_by text.length

def splitLine (line : List Char) : List (List Char) × List Char :=
  splitLabels (strip (withoutComment line))

/-- What is wrong with a line. -/
inductive LineError where
  | labelNotAllowed (label : List Char)
  | duplicateLabel (label : List Char)
  | undecodable (error : DecodeError)

def LineError.message : LineError → String
  | .labelNotAllowed label => "label " ++ String.ofList (quoted label) ++ " not allowed"
  | .duplicateLabel label => "duplicate label " ++ String.ofList (quoted label)
  | .undecodable error => error.message

/-- Why a source is no program: the first line that cannot be read, counted from one, and what is
wrong with it. -/
structure LoadError where
  lineNumber : Nat
  line : List Char
  reason : LineError

def LoadError.message (error : LoadError) : String :=
  s!"line {error.lineNumber}: " ++ error.reason.message ++ ": " ++
    String.ofList (quoted error.line)

/-- An instruction of a source before it is decoded. -/
structure Body where
  lineNumber : Nat
  line : List Char
  text : List Char

/-- Enters a label that stands before the instruction at an index. -/
def addLabel (allowLabels : Bool) (index : Nat) (labels : Labels) (label : List Char) :
    Except LineError Labels :=
  if !allowLabels then .error (.labelNotAllowed label)
  else if labels.contains (String.ofList label) then .error (.duplicateLabel label)
  else .ok (labels.put (String.ofList label) index)

/-- Collects the instructions and labels of the lines from a line number on, where `index`
instructions stand before them. -/
def survey (allowLabels : Bool) (lineNumber index : Nat) (labels : Labels) :
    List (List Char) → Except LoadError (List Body × Labels)
  | [] => .ok ([], labels)
  | line :: rest => do
    let (names, text) := splitLine line
    let labels ← (names.foldlM (addLabel allowLabels index) labels).mapError
      (LoadError.mk lineNumber line)
    if text.isEmpty then survey allowLabels (lineNumber + 1) index labels rest
    else
      let (bodies, labels) ← survey allowLabels (lineNumber + 1) (index + 1) labels rest
      return (⟨lineNumber, line, text⟩ :: bodies, labels)

def decodeBodies (labels : Labels) (index : Nat) : List Body → Except LoadError (List Instruction)
  | [] => .ok []
  | body :: rest => do
    let ins ← (decode labels index body.text).mapError fun error =>
      ⟨body.lineNumber, body.line, .undecodable error⟩
    let program ← decodeBodies labels (index + 1) rest
    return ins :: program

/-- The operand behind the last comma names a label. -/
def endsInLabel (labels : Labels) (text : List Char) : Bool :=
  labels.contains (String.ofList (strip ((pieces ',' text).getLastD [])))

/-- A loaded program, and the numbers of the lines whose branches name a label. -/
structure Assembled where
  program : List Instruction
  labelBranches : List Nat

/-- Reads a source.  With labels not allowed every branch has to give its distance as an
integer. -/
def assemble (allowLabels : Bool) (source : List (List Char)) : Except LoadError Assembled := do
  let (bodies, labels) ← survey allowLabels 1 0 {} source
  let program ← decodeBodies labels 0 bodies
  let branches := (bodies.zip program).filter fun (body, ins) =>
    ins.opcode.isBranch && endsInLabel labels body.text
  return ⟨program, branches.map (·.1.lineNumber)⟩

def Assembled.log (assembled : Assembled) : List LogRecord :=
  if assembled.labelBranches.isEmpty then []
  else
    let numbers := String.intercalate ", " (assembled.labelBranches.map toString)
    [⟨.warning, .loader,
      "Label branches on line(s) " ++ numbers ++ ": a taken branch lands on its label " ++
        "only if no later instruction issues before it resolves"⟩]

end OutOfOrder.Assembly
