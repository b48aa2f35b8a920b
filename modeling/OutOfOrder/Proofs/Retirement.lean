import OutOfOrder.Proofs.Renaming

/-!
# The order of write-backs

Issues leave their stations in another order than that in which they came.  A
chronicle keeps this order beside the ledger, from the happenings of a run
alone: with every write-back it enters the issue that its station works on.

An issue is in the chronicle once it is over, and only once.  A branch whose way
cannot be told keeps its station although its write-back was told, so this is
shown for write-backs that are told in full.
-/

namespace OutOfOrder

/-- A ledger, and the issues that were written back, in this order. -/
structure Chronicle where
  ledger : Ledger := {}
  retired : List Nat := []

namespace Chronicle

def note (chronicle : Chronicle) (happening : Happening) : Chronicle where
  ledger := chronicle.ledger.note happening
  retired := chronicle.retired ++
    if happening.kind = .writeback
    then (happening.station?.bind chronicle.ledger.seat?).toList else []

def noteAll (chronicle : Chronicle) (log : List Happening) : Chronicle :=
  log.foldl note chronicle

theorem noteAll_append (chronicle : Chronicle) (log rest : List Happening) :
    chronicle.noteAll (log ++ rest) = (chronicle.noteAll log).noteAll rest :=
  List.foldl_append

theorem ledger_noteAll (chronicle : Chronicle) (log : List Happening) :
    (chronicle.noteAll log).ledger = chronicle.ledger.noteAll log := by
  induction log generalizing chronicle with
  | nil => rfl
  | cons happening rest ih => exact ih (chronicle.note happening)

/-- What is no write-back leaves the retired issues as they are. -/
theorem retired_noteAll {log : List Happening}
    (h : ∀ happening ∈ log, happening.kind ≠ .writeback)
    (chronicle : Chronicle) :
    (chronicle.noteAll log).retired = chronicle.retired := by
  induction log generalizing chronicle with
  | nil => rfl
  | cons happening rest ih =>
      have hrest := ih (fun other hother => h other (by simp [hother]))
        (chronicle.note happening)
      have hfirst : (chronicle.note happening).retired = chronicle.retired := by
        simp [note, h happening (by simp)]
      exact hrest.trans hfirst

theorem note_cycleStarted (chronicle : Chronicle) :
    chronicle.note .cycleStarted = chronicle := by
  simp [note, Ledger.note, Happening.kind]

theorem note_of_isExecution {happening : Happening}
    (h : happening.kind.isExecution = true) (chronicle : Chronicle) :
    chronicle.note happening = chronicle := by
  have hkind : happening.kind ≠ .writeback := by
    intro heq
    rw [heq] at h
    contradiction
  simp [note, hkind, Ledger.note_of_isExecution h]

end Chronicle

def Simulation.chronicle (sim : Simulation) : Chronicle :=
  ({} : Chronicle).noteAll sim.happenings

/-- The issues that were written back in a simulation, in this order. -/
def Simulation.retired (sim : Simulation) : List Nat :=
  sim.chronicle.retired

theorem Simulation.ledger_chronicle (sim : Simulation) :
    sim.chronicle.ledger = sim.ledger :=
  Chronicle.ledger_noteAll {} sim.happenings

namespace Machine

variable {m m' : Machine} {log : List Happening}

/-! ## What the phases leave in a chronicle -/

/-- A write-back that can be told takes the issue that has the bus, if there is
one, from its seat and enters it. -/
theorem WritesBack.retires (hphase : m.WritesBack m' log)
    (htold : isTold log = true) (chronicle : Chronicle) :
    (m.bank.granted? = none ∧ log = []) ∨
      ∃ station, m.bank.granted? = some station ∧
        (chronicle.noteAll log).retired =
          chronicle.retired ++
            (chronicle.ledger.seat? station.name).toList ∧
        (chronicle.noteAll log).ledger.issues = chronicle.ledger.issues ∧
        ∀ name, (chronicle.noteAll log).ledger.seat? name =
          if name = station.name then none
          else chronicle.ledger.seat? name := by
  cases hphase with
  | idle hgranted => exact .inl ⟨hgranted, rfl⟩
  | empty => nomatch htold
  | broken _ _ huntold =>
      rw [huntold] at htold
      nomatch htold
  | @stored station ins hgranted =>
      exact .inr ⟨station, hgranted, rfl, rfl, fun _ => rfl⟩
  | @branched station ins hgranted =>
      obtain ⟨happening, hlog, hway⟩ := m.redirect_log station ins
      refine .inr ⟨station, hgranted, ?_⟩
      rw [hlog]
      rcases hway with ⟨_, _, _, _, rfl⟩ | ⟨_, _, rfl⟩ | ⟨_, _, rfl⟩
      all_goals exact ⟨List.append_nil _, rfl, fun _ => rfl⟩
  | @published station ins value happening hgranted _ _ hhappening htellable =>
      refine .inr ⟨station, hgranted, ?_⟩
      -- the value is entered once, however many stations receive it
      have hreceived : ∀ other ∈
          (m.released.publish station.name ins value).2,
          other.kind ≠ .writeback := by
        intro other hother
        obtain ⟨name, -, rfl⟩ := List.mem_map.mp hother
        exact fun heq => nomatch heq
      have hledger : chronicle.ledger.noteAll ((happening ::
          (m.released.publish station.name ins value).2).takeWhile
            Happening.isTellable) =
              chronicle.ledger.publish station.name value :=
        chronicle.ledger.noteAll_publish hhappening htellable
      rw [takeWhile_isTellable_of_isTold htold] at hledger
      rw [Chronicle.ledger_noteAll, hledger]
      refine ⟨?_, rfl, fun _ => rfl⟩
      have hsplit : chronicle.noteAll
          (happening :: (m.released.publish station.name ins value).2) =
            (chronicle.note happening).noteAll
              (m.released.publish station.name ins value).2 := rfl
      rw [hsplit, Chronicle.retired_noteAll hreceived]
      rcases hhappening with rfl | rfl
      · rfl
      · rfl

theorem WritesBack.retired_noteAll (hphase : m.WritesBack m' log)
    (htold : isTold log = true) (chronicle : Chronicle) :
    ∃ left : Option Nat,
      (chronicle.noteAll log).retired = chronicle.retired ++ left.toList ∧
        ∀ number, left = some number ↔
          ∃ station, m.bank.granted? = some station ∧
            chronicle.ledger.seat? station.name = some number := by
  rcases hphase.retires htold chronicle with
    ⟨hgranted, rfl⟩ | ⟨station, hgranted, hretired, -, -⟩
  · refine ⟨none, (List.append_nil _).symm, fun number => ?_⟩
    simp [hgranted]
  · refine ⟨chronicle.ledger.seat? station.name, hretired, fun number => ?_⟩
    simp [hgranted]

theorem Issues.retired_noteAll (hphase : m.Issues m' log)
    (chronicle : Chronicle) :
    (chronicle.noteAll log).retired = chronicle.retired := by
  apply Chronicle.retired_noteAll
  intro happening hmem
  cases hphase with
  | drained => contradiction
  | stalled | issued =>
      rw [List.mem_singleton.mp hmem]
      exact fun heq => nomatch heq

/-! ## Machines and their chronicles -/

/-- The machine agrees with the ledger of a chronicle, in which those issues are
retired that are over, each of them once. -/
structure Accounts (m : Machine) (chronicle : Chronicle) : Prop where
  agrees : m.Agrees chronicle.ledger
  retired_iff : ∀ {number}, number ∈ chronicle.retired ↔
    chronicle.ledger.IsOver number
  once : chronicle.retired.Nodup

variable {chronicle : Chronicle}

/-- Before anything is issued nothing is retired. -/
theorem Agrees.accounts (h : m.Agrees {}) : m.Accounts {} := by
  refine ⟨h, ?_, List.nodup_nil⟩
  intro number
  constructor
  · intro hmem
    contradiction
  · rintro ⟨hlt, -⟩
    contradiction

theorem Accounts.begin (h : m.Accounts chronicle) :
    m.begin.Accounts chronicle :=
  ⟨h.agrees.begin, h.retired_iff, h.once⟩

theorem Accounts.execute (h : m.Accounts chronicle) :
    m.execute.1.Accounts chronicle :=
  ⟨h.agrees.execute, h.retired_iff, h.once⟩

theorem Accounts.writesBack (h : m.Accounts chronicle)
    (hphase : m.WritesBack m' log) (htold : isTold log = true) :
    m'.Accounts (chronicle.noteAll log) := by
  have hagrees : m'.Agrees (chronicle.noteAll log).ledger := by
    rw [Chronicle.ledger_noteAll]
    simpa [takeWhile_isTellable_of_isTold htold] using
      h.agrees.writesBack hphase
  rcases hphase.retires htold chronicle with
    ⟨-, rfl⟩ | ⟨station, hgranted, hretired, hissues, hseats⟩
  · exact ⟨hagrees, h.retired_iff, h.once⟩
  · obtain ⟨number, hseat⟩ := h.agrees.seated_granted hgranted
    rw [hseat, Option.toList_some] at hretired
    have hopen : number ∉ chronicle.retired :=
      fun hmem => (h.retired_iff.mp hmem).2 station.name hseat
    refine ⟨hagrees, ?_, ?_⟩
    · intro other
      rw [hretired, List.mem_append, List.mem_singleton, h.retired_iff,
        h.agrees.isOver_leave hseat hissues hseats]
      exact or_comm
    · rw [hretired]
      exact h.once.append (List.nodup_singleton number)
        (List.disjoint_singleton.mpr hopen)

theorem Accounts.issues (h : m.Accounts chronicle)
    (hphase : m.Issues m' log) : m'.Accounts (chronicle.noteAll log) := by
  have hagrees : m'.Agrees (chronicle.noteAll log).ledger := by
    rw [Chronicle.ledger_noteAll]
    exact h.agrees.issues hphase
  have hretired := hphase.retired_noteAll chronicle
  refine ⟨hagrees, ?_, hretired ▸ h.once⟩
  intro number
  rw [hretired, h.retired_iff]
  cases hphase with
  | drained => exact Iff.rfl
  | stalled => exact Iff.rfl
  | issued hqueue hfree =>
      have hstation := station?_free h.agrees.sound.distinct hfree
      have hempty := h.agrees.seat?_eq_none hstation (mem_of_free? hfree).2.2
      exact (Ledger.isOver_issue hempty).symm

/-- When no station is at work, every issue is retired, and was written back
once. -/
theorem Accounts.retired_perm (h : m.Accounts chronicle)
    (hfree : m.bank.isFree = true) :
    chronicle.retired.Perm (List.range chronicle.ledger.issues.length) := by
  rw [List.perm_ext_iff_of_nodup h.once List.nodup_range]
  intro number
  rw [h.retired_iff, List.mem_range]
  refine ⟨fun hover => hover.1, fun hlt => ⟨hlt, fun name => ?_⟩⟩
  rw [h.agrees.seat?_eq_none_of_isFree hfree]
  simp

end Machine

end OutOfOrder
