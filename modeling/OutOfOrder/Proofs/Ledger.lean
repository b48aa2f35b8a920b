import OutOfOrder.Event
import OutOfOrder.Proofs.Execution

/-!
# The ledger of a run

A ledger is kept from the happenings of a run alone.  It numbers the issues in
their order, and knows which issue each station works on and which issues have
published which value.  Against it the machine's tags, operands and registers
are judged: they name stations, which are used again and again, while numbers
name issues once and for all.
-/

namespace OutOfOrder

/-- The register that an operand of an instruction is read from. -/
def Instruction.source? (ins : Instruction) : Slot → Option String
  | .first => ins.src1
  | .second => match ins.opcode.form with
    | .load | .immediate => none
    | _ => ins.src2

/-- An instruction that was sent to a station. -/
structure Issue where
  station : String
  instruction : Instruction
  deriving DecidableEq, Repr

/-- What the happenings of a run say about its instructions. -/
structure Ledger where
  /-- Everything that was issued, in its order. -/
  issues : List Issue := []
  /-- The number of the issue that the station of a name works on. -/
  seat? : String → Option Nat := fun _ => none
  /-- The issues that have published a value, in the order of write-back. -/
  published : List (Nat × Int) := []

namespace Ledger

def vacate (ledger : Ledger) (station : String) : Ledger :=
  { ledger with
    seat? := fun name => if name = station then none else ledger.seat? name }

def publish (ledger : Ledger) (station : String) (value : Int) : Ledger :=
  { ledger.vacate station with
    published := ledger.published ++
      ((ledger.seat? station).map fun issue => (issue, value)).toList }

def issue (ledger : Ledger) (station : String) (ins : Instruction) : Ledger :=
  { ledger with
    issues := ledger.issues ++ [⟨station, ins⟩]
    seat? := fun name =>
      if name = station then some ledger.issues.length
      else ledger.seat? name }

/-- Enters a happening into the ledger.  A branch frees its station with the
news of its way, and every other instruction with its write-back. -/
def note (ledger : Ledger) : Happening → Ledger
  | .issued station ins => ledger.issue station ins
  | .loaded station value _ | .computed station value =>
    ledger.publish station value
  | .stored station _ _ | .taken station _ _ _ _ | .notTaken station _ _
  | .outOfRange station _ _ => ledger.vacate station
  | _ => ledger

def noteAll (ledger : Ledger) (log : List Happening) : Ledger :=
  log.foldl note ledger

/-- An issue has left its station. -/
def IsOver (ledger : Ledger) (number : Nat) : Prop :=
  number < ledger.issues.length ∧ ∀ name, ledger.seat? name ≠ some number

def target? (ledger : Ledger) (number : Nat) : Option String :=
  ledger.issues[number]?.bind (·.instruction.target?)

/-- The last issue before a number that defines a register. -/
def definerBefore? (ledger : Ledger) (register : String) : Nat → Option Nat
  | 0 => none
  | number + 1 =>
    if ledger.target? number = some register then some number
    else ledger.definerBefore? register number

/-- The last issue that defines a register. -/
def definer? (ledger : Ledger) (register : String) : Option Nat :=
  ledger.definerBefore? register ledger.issues.length

variable {ledger : Ledger} {station register : String} {ins : Instruction}
  {value : Int}

/-! ## Entering happenings -/

theorem noteAll_append (ledger : Ledger) (log rest : List Happening) :
    ledger.noteAll (log ++ rest) = (ledger.noteAll log).noteAll rest :=
  List.foldl_append

theorem noteAll_cons (ledger : Ledger) (happening : Happening)
    (rest : List Happening) :
    ledger.noteAll (happening :: rest) =
      (ledger.note happening).noteAll rest :=
  rfl

theorem noteAll_of_forall {log : List Happening}
    (h : ∀ happening ∈ log, ∀ ledger : Ledger, ledger.note happening = ledger)
    (ledger : Ledger) : ledger.noteAll log = ledger := by
  induction log generalizing ledger with
  | nil => rfl
  | cons happening rest ih =>
      rw [noteAll_cons, h happening (by simp)]
      exact ih (fun other hother => h other (by simp [hother])) ledger

/-- Execution leaves no trace in a ledger. -/
theorem note_of_isExecution {happening : Happening}
    (h : happening.kind.isExecution = true) (ledger : Ledger) :
    ledger.note happening = ledger := by
  cases happening <;> simp_all [Happening.kind, EventKind.isExecution, note]

/-! ## Seats -/

theorem seat?_vacate (ledger : Ledger) (station name : String) :
    (ledger.vacate station).seat? name =
      if name = station then none else ledger.seat? name :=
  rfl

theorem seat?_publish (ledger : Ledger) (station : String) (value : Int)
    (name : String) :
    (ledger.publish station value).seat? name =
      if name = station then none else ledger.seat? name :=
  rfl

theorem seat?_issue (ledger : Ledger) (station : String) (ins : Instruction)
    (name : String) :
    (ledger.issue station ins).seat? name =
      if name = station then some ledger.issues.length
      else ledger.seat? name :=
  rfl

theorem length_issue (ledger : Ledger) (station : String) (ins : Instruction) :
    (ledger.issue station ins).issues.length = ledger.issues.length + 1 := by
  simp [issue]

theorem published_publish {number : Nat}
    (h : ledger.seat? station = some number) (value : Int) :
    (ledger.publish station value).published =
      ledger.published ++ [(number, value)] := by
  simp [publish, h]

/-- What is issued is not over. -/
theorem isOver_issue (hempty : ledger.seat? station = none) {number : Nat} :
    (ledger.issue station ins).IsOver number ↔ ledger.IsOver number := by
  rw [IsOver, length_issue]
  constructor
  · rintro ⟨hlt, hnone⟩
    have hkept : ∀ name, name ≠ station →
        ledger.seat? name ≠ some number := by
      intro name hname
      have hseat := hnone name
      rwa [seat?_issue, if_neg hname] at hseat
    have hnew := hnone station
    rw [seat?_issue, if_pos rfl] at hnew
    have hne : number ≠ ledger.issues.length :=
      fun heq => hnew (congrArg some heq.symm)
    refine ⟨by omega, fun name => ?_⟩
    by_cases hname : name = station
    · rw [hname, hempty]
      simp
    · exact hkept name hname
  · rintro ⟨hlt, hnone⟩
    refine ⟨by omega, fun name => ?_⟩
    rw [seat?_issue]
    split
    · simp only [ne_eq, Option.some.injEq]
      omega
    · exact hnone name

/-! ## Definers of registers -/

theorem target?_issue (ledger : Ledger) (station : String) (ins : Instruction)
    (number : Nat) :
    (ledger.issue station ins).target? number =
      if number = ledger.issues.length then ins.target?
      else ledger.target? number := by
  unfold target? issue
  rcases Nat.lt_trichotomy number ledger.issues.length with hlt | heq | hgt
  · rw [if_neg (by omega), List.getElem?_append_left hlt]
  · simp [heq]
  · rw [if_neg (by omega), List.getElem?_eq_none (by simp; omega),
      List.getElem?_eq_none (by omega)]

/-- Definers before a number depend on the issues before it. -/
theorem definerBefore?_congr {other : Ledger} {bound : Nat}
    (h : ∀ number < bound, other.target? number = ledger.target? number) :
    other.definerBefore? register bound =
      ledger.definerBefore? register bound := by
  induction bound with
  | zero => rfl
  | succ bound ih =>
      simp only [definerBefore?, h bound (by omega),
        ih fun number hnumber => h number (by omega)]

theorem definerBefore?_of_issues_eq {other : Ledger}
    (h : other.issues = ledger.issues) (register : String) (bound : Nat) :
    other.definerBefore? register bound =
      ledger.definerBefore? register bound := by
  apply definerBefore?_congr
  intro number _
  rw [target?, target?, h]

theorem definer?_of_issues_eq {other : Ledger}
    (h : other.issues = ledger.issues) (register : String) :
    other.definer? register = ledger.definer? register := by
  rw [definer?, definer?, definerBefore?_of_issues_eq h, h]

theorem definerBefore?_issue {bound : Nat} (h : bound ≤ ledger.issues.length) :
    (ledger.issue station ins).definerBefore? register bound =
      ledger.definerBefore? register bound := by
  apply definerBefore?_congr
  intro number hnumber
  rw [target?_issue, if_neg (by omega)]

theorem definer?_issue :
    (ledger.issue station ins).definer? register =
      if ins.target? = some register then some ledger.issues.length
      else ledger.definer? register := by
  rw [definer?, length_issue, definerBefore?, target?_issue, if_pos rfl,
    definerBefore?_issue (Nat.le_refl _), definer?]

theorem definerBefore?_eq_some {bound number : Nat}
    (h : ledger.definerBefore? register bound = some number) :
    number < bound ∧ ledger.target? number = some register := by
  induction bound with
  | zero => simp [definerBefore?] at h
  | succ bound ih =>
      rw [definerBefore?] at h
      split at h
      · next htarget =>
          cases h
          exact ⟨by omega, htarget⟩
      · have := ih h
        exact ⟨by omega, this.2⟩

/-- No issue between a definer and the number before which it is the last one
defines the register. -/
theorem target?_ne_of_definerBefore? {bound number between : Nat}
    (h : ledger.definerBefore? register bound = some number)
    (hafter : number < between) (hbefore : between < bound) :
    ledger.target? between ≠ some register := by
  induction bound with
  | zero => omega
  | succ bound ih =>
      rw [definerBefore?] at h
      split at h
      · cases h
        omega
      · next hne =>
          rcases Nat.lt_or_eq_of_le (Nat.le_of_lt_succ hbefore) with hlt | heq
          · exact ih h hlt
          · exact heq ▸ hne

theorem definerBefore?_eq_none {bound number : Nat}
    (h : ledger.definerBefore? register bound = none) (hlt : number < bound) :
    ledger.target? number ≠ some register := by
  induction bound with
  | zero => omega
  | succ bound ih =>
      rw [definerBefore?] at h
      split at h
      · contradiction
      · next hne =>
          rcases Nat.lt_or_eq_of_le (Nat.le_of_lt_succ hlt) with hlt' | heq
          · exact ih h hlt'
          · exact heq ▸ hne

end Ledger

end OutOfOrder
