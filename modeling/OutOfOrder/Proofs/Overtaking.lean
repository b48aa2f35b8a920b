import Mathlib.Data.List.Basic
import OutOfOrder.Proofs.InOrderResult
import OutOfOrder.Proofs.Retirement

/-!
# Loads that overtake stores

A load reads memory when it has the bus, and a store writes memory when it has
the bus.  Nothing makes a load wait for an older store to the same address: if
there are several load/store stations, the store may be waiting for its value
when the load is over.

So it is the order of the two write-backs that decides what the load observes.
Up to the load's write-back the machine follows the in-order execution, as only
this pair of accesses is not independent.  Behind it the published value stays
as it is.
-/

namespace OutOfOrder

open Architecture (DefinesOnce)

namespace Architecture

variable {state : Architecture} {program : List Instruction}

def HoldsWords (state : Architecture) : Prop :=
  ∀ register, Word.wrap (state.registers register) = state.registers register

theorem wrap_word (state : Architecture) (address : Int) :
    Word.wrap (state.word address) = state.word address := by
  rw [word, Word.ofBytes, Word.wrap_wrap]

theorem HoldsWords.step (h : state.HoldsWords) (ins : Instruction) :
    (state.step ins).HoldsWords := by
  intro register
  rw [registers_step]
  split
  · unfold result
    split
    · exact state.wrap_word _
    · exact ins.opcode.wrap_evaluate _ _ _
  · exact h register

theorem HoldsWords.before (h : state.HoldsWords) (program : List Instruction)
    (index : Nat) : (state.before program index).HoldsWords := by
  induction index with
  | zero => exact h
  | succ index ih =>
      cases hins : program[index]? with
      | none => rwa [before_succ_of_none hins]
      | some ins =>
          rw [before_succ hins]
          exact ih.step ins

theorem HoldsWords.wrap_source (h : state.HoldsWords)
    (source : Option String) :
    Word.wrap (state.source source) = state.source source := by
  cases source with
  | none =>
      have hzero : state.source none = 0 := rfl
      rw [hzero]
      decide
  | some register => exact h register

theorem word_store (state : Architecture) (address value : Int) :
    (state.store address value).word address = Word.wrap value := by
  have hbytes : (state.store address value).memory = fun other =>
      (Word.byte? address value other).getD (state.memory other) := rfl
  have hsecond : address + 1 ≠ address := by omega
  have hthird : address + 2 ≠ address := by omega
  have hfourth : address + 3 ≠ address := by omega
  rw [← Word.ofBytes_lowByte, word, hbytes]
  simp [Word.byte?, hsecond, hthird, hfourth]

theorem memory_before_eq {low high : Nat} {address : Int} (hle : low ≤ high)
    (h : ∀ index, low ≤ index → index < high →
      state.writtenAt? program index address = none) :
    (state.before program high).memory address =
      (state.before program low).memory address := by
  induction high, hle using Nat.le_induction with
  | base => rfl
  | succ high hle ih =>
      have hkept := ih fun index hlow hhigh => h index hlow (by omega)
      have hlast := h high hle (Nat.lt_succ_self high)
      rw [memory_before_succ, hlast]
      exact hkept

/-- In the in-order execution, the load at the second index reads the word that
the store at the first one has written, and apart from this pair no store
touches a byte that another access touches. -/
structure Rereads (state : Architecture) (program : List Instruction)
    (store load : Fin program.length) : Prop where
  lt : store < load
  isStore : program[store].opcode.isStore = true
  isLoad : program[load].opcode.isLoad = true
  address : (state.before program load).address program[load] =
    (state.before program store).address program[store]
  apart : ∀ i j : Fin program.length, i ≠ j → ¬ (i = store ∧ j = load) →
    program[i].opcode.isStore = true → program[j].opcode.isMemory = true →
    Apart ((state.before program i).address program[i])
      ((state.before program j).address program[j])

variable {store load : Fin program.length}

theorem Rereads.isMemory (h : state.Rereads program store load) :
    program[load].opcode.isMemory = true := by
  rw [Opcode.isMemory, h.isLoad, Bool.true_or]

/-- The two accesses are the only ones that are not independent. -/
theorem Rereads.independent (h : state.Rereads program store load) {i j : Nat}
    (hne : i ≠ j) (hforth : ¬ (i = store ∧ j = load))
    (hback : ¬ (j = store ∧ i = load)) : state.Independent program i j := by
  intro ins other hins hother hmemory hmemory' hstore
  obtain ⟨hi, rfl⟩ := List.getElem?_eq_some_iff.mp hins
  obtain ⟨hj, rfl⟩ := List.getElem?_eq_some_iff.mp hother
  rcases hstore with hstore | hstore
  · apply h.apart ⟨i, hi⟩ ⟨j, hj⟩ (by simpa using hne) _ hstore hmemory'
    simpa [Fin.ext_iff] using hforth
  · apply Apart.symm
    apply h.apart ⟨j, hj⟩ ⟨i, hi⟩ (by simpa using hne.symm) _ hstore hmemory
    simpa [Fin.ext_iff] using hback

theorem Rereads.writtenAt?_load (h : state.Rereads program store load)
    (address : Int) : state.writtenAt? program load address = none := by
  have hins : program[(load : Nat)]? = some program[load] := by simp
  have hform : program[load].opcode.form = .load := of_decide_eq_true h.isLoad
  have hstore : program[load].opcode.isStore = false := by
    rw [Opcode.isStore, hform]
    rfl
  rw [writtenAt?, hins]
  simp only [Option.bind_some, written?, hstore]
  rfl

/-- No other instruction writes into the word that the load reads. -/
theorem Rereads.writtenAt?_eq_none (h : state.Rereads program store load)
    {other : Nat} (hother : other ≠ store) {address : Int}
    (hlow : (state.before program load).address program[load] ≤ address)
    (hhigh : address <
      (state.before program load).address program[load] + 4) :
    state.writtenAt? program other address = none := by
  have hins : program[(load : Nat)]? = some program[load] := by simp
  by_cases hload : other = load
  · rw [hload]
    exact h.writtenAt?_load address
  · have hindependent : state.Independent program other load :=
      h.independent hload (fun hpair => hother hpair.1)
        (fun hpair => hload hpair.2)
    exact hindependent.writtenAt?_eq_none hins h.isMemory hlow hhigh

/-- No byte is written by two instructions. -/
theorem Rereads.writtenAt?_or (h : state.Rereads program store load)
    {i j : Nat} (hne : i ≠ j) (address : Int) :
    state.writtenAt? program i address = none ∨
      state.writtenAt? program j address = none := by
  by_cases hfirst : i = load
  · left
    rw [hfirst]
    exact h.writtenAt?_load address
  · by_cases hsecond : j = load
    · right
      rw [hsecond]
      exact h.writtenAt?_load address
    · have hindependent : state.Independent program j i :=
        h.independent hne.symm (fun hpair => hfirst hpair.2)
          (fun hpair => hsecond hpair.2)
      exact hindependent.writtenAt?_or address

/-- The load reads the value of the store. -/
theorem Rereads.word_eq (h : state.Rereads program store load)
    (hwords : state.HoldsWords) :
    (state.before program load).word
        ((state.before program load).address program[load]) =
      (state.before program store).source program[store].src2 := by
  have hins : program[(store : Nat)]? = some program[store] := by simp
  have hafter : (state.before program load).word
      ((state.before program load).address program[load]) =
        (state.before program (store + 1)).word
          ((state.before program load).address program[load]) := by
    apply word_congr
    intro place hlow hhigh
    apply memory_before_eq h.lt
    intro index hindex _
    exact h.writtenAt?_eq_none (by omega) hlow hhigh
  have hstep : (state.before program (store + 1)) =
      (state.before program store).store
        ((state.before program store).address program[store])
        ((state.before program store).source program[store].src2) := by
    have hform : program[store].opcode.form = .store :=
      of_decide_eq_true h.isStore
    rw [before_succ hins, step, hform]
  rw [hafter, hstep, h.address, word_store,
    (hwords.before program store).wrap_source]

end Architecture

/-! ## The order of two write-backs -/

/-- The first of two issues was written back before the second. -/
def Precedes (retired : List Nat) (first second : Nat) : Prop :=
  retired.idxOf first < retired.idxOf second

instance (retired : List Nat) (first second : Nat) :
    Decidable (Precedes retired first second) :=
  inferInstanceAs (Decidable (_ < _))

theorem precedes_append {retired : List Nat} {first second : Nat}
    (hmem : second ∈ retired) (later : List Nat) :
    Precedes (retired ++ later) first second ↔
      Precedes retired first second := by
  have hlt := List.idxOf_lt_length_of_mem hmem
  unfold Precedes
  rw [List.idxOf_append, List.idxOf_append, if_pos hmem]
  split
  · exact Iff.rfl
  · next hfirst =>
      rw [List.idxOf_eq_length hfirst]
      omega

/-- At the moment of its write-back an issue comes behind those that are
over. -/
theorem precedes_append_self {retired : List Nat} {first second : Nat}
    (hnew : second ∉ retired) (hne : first ≠ second) :
    Precedes (retired ++ [second]) first second ↔ first ∈ retired := by
  unfold Precedes
  rw [List.idxOf_append, List.idxOf_append, if_neg hnew]
  split
  · next hfirst =>
      have hlt := List.idxOf_lt_length_of_mem hfirst
      simp [hfirst]
      omega
  · next hfirst =>
      have hlast : [second].idxOf first = 1 := by
        rw [List.idxOf_eq_length (by simpa using hne)]
        rfl
      simp [hfirst, hlast]

namespace Machine

variable {initial : Architecture} {program : List Instruction}
  {store load : Fin program.length} {m m' : Machine} {ledger : Ledger}
  {chronicle : Chronicle} {log : List Happening} {station : Station}
  {ins : Instruction} {number : Nat} {value : Int}

/-! ## Everything but the pair -/

/-- Every other instruction publishes what the interpreter computes. -/
theorem Follows.exact_of_ne (h : m.Follows initial program ledger)
    (hpair : initial.Rereads program store load)
    (hother : ∀ {station}, m.bank.granted? = some station →
      ledger.seat? station.name ≠ some load) :
    Exact initial program m ledger := by
  intro station ins number value hgranted hins hseat hvalue
  apply h.product_eq _ hgranted hins hseat hvalue
  intro hload other _ hne
  have hnumber : number ≠ load := by
    rintro rfl
    exact hother hgranted hseat
  have hstore : number ≠ store := by
    rintro rfl
    have hstation := station?_granted h.agrees.sound.distinct hgranted
    have hprogram := h.stream.seated h.agrees hstation hseat hins
    have hheld : program[(store : Nat)]? = some program[store] := by simp
    rw [hheld] at hprogram
    cases hprogram
    have hform : program[store].opcode.form = .load := of_decide_eq_true hload
    have hisStore := hpair.isStore
    rw [Opcode.isStore, hform] at hisStore
    contradiction
  exact .inl (hpair.independent hne (fun hboth => hnumber hboth.2)
    (fun hboth => hstore hboth.1))

/-! ## The load -/

/-- If the store is over, the load reads its value. -/
theorem Follows.product_eq_stored (h : m.Follows initial program ledger)
    (hpair : initial.Rereads program store load)
    (hwords : initial.HoldsWords)
    (hgranted : m.bank.granted? = some station)
    (hins : station.instruction? = some program[load])
    (hseat : ledger.seat? station.name = some load)
    (hvalue : m.product? station program[load] = some value)
    (hover : ledger.IsOver store) :
    value = (initial.before program store).source program[store].src2 := by
  have hordered : Ordered initial program ledger load := by
    intro other _ hne
    by_cases hother : other = store
    · right
      rw [hother]
      exact ⟨hpair.lt, hover.2⟩
    · left
      exact hpair.independent hne (fun hboth => hother hboth.1)
        (fun hboth => hne hboth.2)
  have hresult : value = (initial.before program load).result program[load] :=
    h.product_eq (fun _ => hordered) hgranted hins hseat hvalue
  have hform : program[load].opcode.form = .load :=
    of_decide_eq_true hpair.isLoad
  rw [hresult, Architecture.result, hform]
  exact hpair.word_eq hwords

/-- If the store is under way, the load reads what memory held at first. -/
theorem Follows.product_eq_initial (h : m.Follows initial program ledger)
    (hpair : initial.Rereads program store load)
    (hgranted : m.bank.granted? = some station)
    (hins : station.instruction? = some program[load])
    (hseat : ledger.seat? station.name = some load)
    (hvalue : m.product? station program[load] = some value)
    (hopen : ¬ ledger.IsOver store) :
    value = initial.word
      ((initial.before program load).address program[load]) := by
  obtain ⟨isOver, hover, hbytes⟩ := h.commits
  rw [h.product_eq_word hgranted hins hpair.isLoad hseat hvalue]
  apply Architecture.word_congr
  intro place hlow hhigh
  have hmemory : m.architecture.memory place =
      (initial.before program 0).memory place := by
    change m.cache.readByte place = _
    rw [hbytes]
    apply Architecture.committed_eq (Nat.zero_le _)
    · intro other hlt
      omega
    · intro other _ _
      by_cases hother : other = store
      · left
        rw [hother]
        cases hovered : isOver store with
        | false => rfl
        | true => exact absurd ((hover store).mp hovered) hopen
      · right
        exact hpair.writtenAt?_eq_none hother hlow hhigh
  exact hmemory

/-- A load that has the bus publishes its value. -/
theorem WritesBack.publishes_load (hphase : m.WritesBack m' log)
    (htold : isTold log = true) (hgranted : m.bank.granted? = some station)
    (hins : station.instruction? = some ins)
    (hload : ins.opcode.isLoad = true)
    (hseat : ledger.seat? station.name = some number) :
    ∃ value, m.product? station ins = some value ∧
      (number, value) ∈ (ledger.noteAll log).published := by
  have hread : ins.opcode.form = .load := of_decide_eq_true hload
  rcases hphase.of_granted htold hgranted hins with
    ⟨hform, -⟩ | ⟨hform, -⟩ |
      ⟨value, happening, hvalue, hhappening, htellable, -, hlog⟩
  · exact absurd (hread.symm.trans hform) (by decide)
  · exact absurd (hread.symm.trans hform) (by decide)
  · have hledger : ledger.noteAll (log.takeWhile Happening.isTellable) =
        ledger.publish station.name value := by
      rw [hlog]
      exact ledger.noteAll_publish hhappening htellable
    rw [takeWhile_isTellable_of_isTold htold] at hledger
    refine ⟨value, hvalue, ?_⟩
    rw [hledger, Ledger.published_publish hseat]
    simp

/-! ## The course of a run -/

/-- What the load observes, as the order of the two write-backs has it. -/
def observed (initial : Architecture) (program : List Instruction)
    (store load : Fin program.length) (retired : List Nat) : Int :=
  if Precedes retired store load
  then (initial.before program store).source program[store].src2
  else initial.word ((initial.before program load).address program[load])

/-- Up to the load's write-back the machine follows the in-order execution, and
from then on it keeps what the load has published.  With a single station for
both, the load is not issued before the store is over. -/
structure Races (initial : Architecture) (program : List Instruction)
    (store load : Fin program.length) (single : Prop) (m : Machine)
    (chronicle : Chronicle) : Prop where
  accounts : m.Accounts chronicle
  stream : Streams program m chronicle.ledger
  follows : (load : Nat) ∉ chronicle.retired →
    m.Follows initial program chronicle.ledger
  publishes : (load : Nat) ∈ chronicle.retired →
    ((load : Nat), observed initial program store load chronicle.retired) ∈
      chronicle.ledger.published
  waits : single → (load : Nat) < chronicle.ledger.issues.length →
    (store : Nat) ∈ chronicle.retired
  precedes : single → (load : Nat) ∈ chronicle.retired →
    Precedes chronicle.retired store load

variable {single : Prop}

/-- The load's write-back publishes what the order of the write-backs says. -/
theorem Races.publishes_observed
    (h : m.Races initial program store load single chronicle)
    (hpair : initial.Rereads program store load)
    (hwords : initial.HoldsWords)
    (hgranted : m.bank.granted? = some station)
    (hseat : chronicle.ledger.seat? station.name = some load)
    (hopen : (load : Nat) ∉ chronicle.retired)
    (hphase : m.WritesBack m' log) (htold : isTold log = true) :
    ((load : Nat), observed initial program store load
        (chronicle.retired ++ [(load : Nat)])) ∈
      (chronicle.ledger.noteAll log).published := by
  have hfollows := h.follows hopen
  have hagrees := h.accounts.agrees
  have hstation := station?_granted hagrees.sound.distinct hgranted
  obtain ⟨held, ins, hheld, -, hins, -⟩ := hagrees.occupied hseat
  rw [hstation] at hheld
  cases hheld
  have hprogram := h.stream.seated hagrees hstation hseat hins
  have hload : program[(load : Nat)]? = some program[load] := by simp
  rw [hload] at hprogram
  cases hprogram
  obtain ⟨value, hvalue, hmem⟩ :=
    hphase.publishes_load htold hgranted hins hpair.isLoad hseat
  have hne : (store : Nat) ≠ load := Nat.ne_of_lt hpair.lt
  have hobserved : observed initial program store load
      (chronicle.retired ++ [(load : Nat)]) = value := by
    unfold observed
    by_cases hover : (store : Nat) ∈ chronicle.retired
    · rw [if_pos ((precedes_append_self hopen hne).mpr hover)]
      exact (hfollows.product_eq_stored hpair hwords hgranted hins hseat hvalue
        (h.accounts.retired_iff.mp hover)).symm
    · rw [if_neg fun hbefore =>
        hover ((precedes_append_self hopen hne).mp hbefore)]
      exact (hfollows.product_eq_initial hpair hgranted hins hseat hvalue
        fun hdone => hover (h.accounts.retired_iff.mpr hdone)).symm
  rw [hobserved]
  exact hmem

theorem Races.writesBack
    (h : m.Races initial program store load single chronicle)
    (hpair : initial.Rereads program store load)
    (hwords : initial.HoldsWords)
    (hstraight : ∀ ins ∈ program, ins.opcode.isBranch = false)
    (honce : DefinesOnce program) (hphase : m.WritesBack m' log)
    (htold : isTold log = true) :
    m'.Races initial program store load single (chronicle.noteAll log) := by
  have hagrees := h.accounts.agrees
  have heffect := hphase.busEffect chronicle.ledger
  rw [takeWhile_isTellable_of_isTold htold] at heffect
  have hne : (store : Nat) ≠ load := Nat.ne_of_lt hpair.lt
  obtain ⟨left, hretired, hleft⟩ := hphase.retired_noteAll htold chronicle
  have hkept : ∀ {number}, number ∈ chronicle.retired →
      number ∈ (chronicle.noteAll log).retired := by
    intro number hmem
    rw [hretired]
    exact List.mem_append_left _ hmem
  -- the load is retired by now, or by this write-back
  have hcases : (load : Nat) ∈ (chronicle.noteAll log).retired →
      (load : Nat) ∈ chronicle.retired ∨
        (load : Nat) ∉ chronicle.retired ∧ left = some (load : Nat) := by
    intro hmem
    by_cases hdone : (load : Nat) ∈ chronicle.retired
    · exact .inl hdone
    · rw [hretired, List.mem_append] at hmem
      refine .inr ⟨hdone, ?_⟩
      simpa using hmem.resolve_left hdone
  refine ⟨h.accounts.writesBack hphase htold, ?_, ?_, ?_, ?_, ?_⟩
  · rw [Chronicle.ledger_noteAll]
    exact h.stream.writesBack hagrees hstraight hphase htold
  · intro hopen
    have hfollows := h.follows fun hmem => hopen (hkept hmem)
    have hother : ∀ {station}, m.bank.granted? = some station →
        chronicle.ledger.seat? station.name ≠ some load := by
      intro station hgranted hseat
      apply hopen
      rw [hretired, (hleft load).mpr ⟨station, hgranted, hseat⟩]
      simp
    have hafter := hfollows.writesBack (hfollows.exact_of_ne hpair hother)
      (fun _ _ _ hlt _ => hpair.writtenAt?_or (Nat.ne_of_lt hlt)) hstraight
      honce hphase htold
    rw [takeWhile_isTellable_of_isTold htold] at hafter
    rw [Chronicle.ledger_noteAll]
    exact hafter
  · intro hmem
    rw [Chronicle.ledger_noteAll, hretired]
    rcases hcases hmem with hdone | ⟨hopen, hload⟩
    · have hsame : observed initial program store load
          (chronicle.retired ++ left.toList) =
            observed initial program store load chronicle.retired := by
        simp only [observed, precedes_append hdone]
      rw [hsame]
      exact heffect.mem_published (h.publishes hdone)
    · obtain ⟨station, hgranted, hseat⟩ := (hleft load).mp hload
      rw [hload]
      exact h.publishes_observed hpair hwords hgranted hseat hopen hphase htold
  · intro hsingle hlt
    rw [Chronicle.ledger_noteAll, heffect.issues_eq] at hlt
    exact hkept (h.waits hsingle hlt)
  · intro hsingle hmem
    rw [hretired]
    rcases hcases hmem with hdone | ⟨hopen, hload⟩
    · exact (precedes_append hdone _).mpr (h.precedes hsingle hdone)
    · obtain ⟨station, -, hseat⟩ := (hleft load).mp hload
      rw [hload]
      exact (precedes_append_self hopen hne).mpr
        (h.waits hsingle (hagrees.number_lt hseat))

/-- With a single station the load is issued when the store has left it. -/
theorem Races.waits_issue
    (h : m.Races initial program store load single chronicle)
    (hpair : initial.Rereads program store load) (hsingle : m.SingleAccess)
    {next : Stamped} {rest : List Stamped} (hqueue : m.queue = next :: rest)
    (hfree : m.bank.free? next.instruction.opcode.pool = some station)
    (hlast : chronicle.ledger.issues.length = load) :
    (store : Nat) ∈ chronicle.retired := by
  have hagrees := h.accounts.agrees
  have hnext := h.stream.next hqueue
  have hload : program[(load : Nat)]? = some program[load] := by simp
  rw [hlast, hload] at hnext
  rw [← Option.some.inj hnext, Opcode.pool_of_isMemory hpair.isMemory] at hfree
  rw [h.accounts.retired_iff]
  refine ⟨hlast ▸ hpair.lt, fun name hseat => ?_⟩
  obtain ⟨held, ins, hheld, -, hins, -⟩ := hagrees.occupied hseat
  have hprogram := h.stream.seated hagrees hheld hseat hins
  have hstore : program[(store : Nat)]? = some program[store] := by simp
  rw [hstore] at hprogram
  cases hprogram
  have hmemory := hsingle.isMemory_eq_false hagrees hfree hheld hseat hins
  rw [Opcode.isMemory_of_isStore hpair.isStore] at hmemory
  contradiction

theorem Races.issues
    (h : m.Races initial program store load single chronicle)
    (hpair : initial.Rereads program store load)
    (hsingle : single → m.SingleAccess) (hphase : m.Issues m' log) :
    m'.Races initial program store load single (chronicle.noteAll log) := by
  have hretired := hphase.retired_noteAll chronicle
  refine ⟨h.accounts.issues hphase, ?_, ?_, ?_, ?_, ?_⟩
  · rw [Chronicle.ledger_noteAll]
    exact h.stream.issues hphase
  · intro hopen
    rw [hretired] at hopen
    rw [Chronicle.ledger_noteAll]
    exact (h.follows hopen).issues hphase
  · intro hmem
    rw [hretired] at hmem ⊢
    rw [Chronicle.ledger_noteAll, hphase.published_eq]
    exact h.publishes hmem
  · intro hone hlt
    rw [hretired]
    by_cases hissued : (load : Nat) < chronicle.ledger.issues.length
    · exact h.waits hone hissued
    · rw [Chronicle.ledger_noteAll] at hlt
      cases hphase with
      | drained => exact absurd hlt hissued
      | stalled => exact absurd hlt hissued
      | @issued next rest station hqueue hfree =>
          have hlength : (chronicle.ledger.noteAll
              [.issued station.name next.instruction]).issues.length =
                chronicle.ledger.issues.length + 1 :=
            chronicle.ledger.length_issue station.name next.instruction
          exact h.waits_issue hpair (hsingle hone) hqueue hfree (by omega)
  · rw [hretired]
    exact h.precedes

theorem Races.begin
    (h : m.Races initial program store load single chronicle) :
    m.begin.Races initial program store load single chronicle :=
  ⟨h.accounts.begin, h.stream, fun hopen => (h.follows hopen).begin,
    h.publishes, h.waits, h.precedes⟩

theorem Races.execute
    (h : m.Races initial program store load single chronicle) :
    m.execute.1.Races initial program store load single chronicle :=
  ⟨h.accounts.execute, h.stream, fun hopen => (h.follows hopen).execute,
    h.publishes, h.waits, h.precedes⟩

/-- A cycle keeps to the course of the run, or the machine is stuck from then
on. -/
theorem Races.advance
    (h : m.Races initial program store load single chronicle)
    (hpair : initial.Rereads program store load)
    (hwords : initial.HoldsWords)
    (hstraight : ∀ ins ∈ program, ins.opcode.isBranch = false)
    (honce : DefinesOnce program) (hsingle : single → m.SingleAccess) :
    m.advance.1.Stuck ∨ m.advance.1.Races initial program store load single
      (chronicle.noteAll (m.advance.2.takeWhile Happening.isTellable)) := by
  let P : Machine → Chronicle → Prop := fun m chronicle =>
    m.Races initial program store load single chronicle ∧
      (single → m.SingleAccess)
  let R : Machine → Chronicle → Prop := fun m chronicle =>
    m.Stuck ∨ m.Races initial program store load single chronicle
  have hbegin : ∀ m chronicle, P m chronicle → P m.begin chronicle :=
    fun m _ h => ⟨h.1.begin,
      fun hone => (h.2 hone).of_map_place_eq (map_place_begin m)⟩
  have huntold : ∀ m chronicle m' log, m.WritesBack m' log →
      isTold log = false → P m chronicle →
      R m' (chronicle.noteAll (log.takeWhile Happening.isTellable)) :=
    fun m _ m' _ hphase huntold h => .inl <|
      h.1.accounts.agrees.stuck_of_untold hphase huntold fun hgranted hins =>
        h.1.stream.form_ne_branch h.1.accounts.agrees hstraight hgranted hins
  have htold : ∀ m chronicle m' log, m.WritesBack m' log →
      isTold log = true → P m chronicle →
      P m' (chronicle.noteAll (log.takeWhile Happening.isTellable)) := by
    intro m chronicle m' log hphase htold h
    rw [takeWhile_isTellable_of_isTold htold]
    exact ⟨h.1.writesBack hpair hwords hstraight honce hphase htold,
      fun hone => (h.2 hone).of_map_place_eq (map_place_writesBack hphase)⟩
  have hissue : ∀ m chronicle m' log, m.Issues m' log → P m chronicle →
      P m' (chronicle.noteAll log) :=
    fun m _ m' _ hphase h => ⟨h.1.issues hpair h.2 hphase,
      fun hone => (h.2 hone).of_map_place_eq (map_place_issues hphase)⟩
  exact advance_phases (P := P) (Q := P) (R := R) Chronicle.note
    Chronicle.note_cycleStarted
    (fun chronicle _ hkind => Chronicle.note_of_isExecution hkind chronicle)
    hbegin huntold htold hissue (fun _ _ h => .inr h.1.execute) ⟨h, hsingle⟩

/-! ## The end of a run -/

theorem Races.lastWrite?_eq
    (h : m.Races initial program store load single chronicle)
    (hpair : initial.Rereads program store load) (honce : DefinesOnce program)
    {register : String} (htarget : program[load].dest = some register)
    (hne : register ≠ zeroRegister)
    (hlength : chronicle.ledger.issues.length = program.length)
    (hmem : (load : Nat) ∈ chronicle.retired) :
    chronicle.ledger.lastWrite? register =
      some (observed initial program store load chronicle.retired) := by
  have hdefines : program[(load : Nat)]?.bind Instruction.target? =
      some register := by
    have hins : program[(load : Nat)]? = some program[load] := by simp
    rw [hins, Option.bind_some, Instruction.target?,
      Opcode.definesDestination, hpair.isLoad]
    exact htarget
  apply h.accounts.agrees.lastWrite?_of_unique (h.publishes hmem)
  · rw [← h.stream.target?_eq (Nat.lt_of_lt_of_eq load.isLt hlength.symm)]
    exact hdefines
  · intro other hlt hother
    rw [← h.stream.target?_eq hlt] at hother
    exact honce.eq hne hother hdefines

end Machine

/-! ## Whole runs -/

namespace Simulation

theorem races_running (config : Config) (preload : List (Int × Int))
    (registers : List (String × Int)) (words : List (Int × Int))
    (program : List Instruction) {store load : Fin program.length}
    (hstraight : ∀ ins ∈ program, ins.opcode.isBranch = false)
    (honce : DefinesOnce program)
    (hpair : (prepared config preload registers
      words).machine.architecture.Rereads program store load) (cycles : Nat) :
    let start := prepared config preload registers words
    let sim := start.running program cycles
    sim.machine.Stuck ∨ sim.machine.Races start.machine.architecture program
      store load (config.value .numLoadBuffers = 1) sim.chronicle := by
  intro start
  let initial := start.machine.architecture
  let single := config.value .numLoadBuffers = 1
  let P : Machine → Chronicle → Prop := fun m chronicle =>
    (single → m.SingleAccess) ∧
      (m.Stuck ∨ m.Races initial program store load single chronicle)
  have hwords : start.machine.registers.HoldsWords := by
    rw [registers_prepared]
    exact RegisterFile.holdsWords_writeAll RegisterFile.holdsWords_initial
      registers
  have hempty : start.chronicle = {} :=
    congrArg ({} : Chronicle).noteAll
      (happenings_prepared config preload registers words)
  have hfollows : (start.machine.load program).Follows initial program
      start.ledger := follows_start config preload registers words program
  have hstart : P (start.machine.load program) start.chronicle := by
    rw [← ledger_chronicle, hempty] at hfollows
    rw [hempty]
    constructor
    · intro hone
      have hbank : start.machine.bank =
          (Machine.create config preload).bank :=
        bank_prepared config preload registers words
      exact (Machine.singleAccess_create hone preload).of_map_place_eq
        (congrArg (List.map Machine.place) hbank)
    · right
      refine ⟨hfollows.agrees.accounts, hfollows.stream, fun _ => hfollows,
        ?_, ?_, ?_⟩
      · intro hmem
        contradiction
      · intro _ hlt
        contradiction
      · intro _ hmem
        contradiction
  have hcycle : ∀ m chronicle, P m chronicle → P m.advance.1
      (chronicle.noteAll (m.advance.2.takeWhile Happening.isTellable)) := by
    rintro m chronicle ⟨hsingle, hstate⟩
    refine ⟨fun hone => (hsingle hone).of_map_place_eq m.map_place_advance, ?_⟩
    rcases hstate with hstuck | hraces
    · exact .inl hstuck.advance
    · exact hraces.advance hpair hwords hstraight honce hsingle
  exact (running_notes Chronicle.note (P := P) hcycle hstart cycles).2

/-- A load observes an older store to the same address if the store is written
back first.  Whatever the machine's parameters, its registers and its memory
are, take a program without branches that defines no register but the zero
register twice, with a load of the word that an older store has written, and let
no other store touch a byte that another access touches.  If the machine is idle
after some number of cycles, then both were written back.  If the store was
written back first, the load's register holds the store's value; if the load
was, it holds what memory held at first.  With a single station for loads and
stores the store is always first. -/
theorem load_observes_store_written_back_first (config : Config)
    (preload : List (Int × Int)) (registers : List (String × Int))
    (words : List (Int × Int)) (program : List Instruction) (cycles : Nat)
    (store load : Fin program.length) (register : String)
    (hstraight : ∀ ins ∈ program, ins.opcode.isBranch = false)
    (honce : DefinesOnce program)
    (hpair : (prepared config preload registers
      words).machine.architecture.Rereads program store load)
    (htarget : program[load].dest = some register)
    (hne : register ≠ zeroRegister)
    (hidle : ((prepared config preload registers words).running program
      cycles).machine.isIdle = true) :
    let initial :=
      (prepared config preload registers words).machine.architecture
    let sim := (prepared config preload registers words).running program cycles
    (store : Nat) ∈ sim.retired ∧ (load : Nat) ∈ sim.retired ∧
      (Precedes sim.retired store load →
        sim.machine.registers.read register =
          (initial.before program store).source program[store].src2) ∧
      (¬ Precedes sim.retired store load →
        sim.machine.registers.read register = initial.word
          ((initial.before program load).address program[load])) ∧
      (config.value .numLoadBuffers = 1 →
        Precedes sim.retired store load) := by
  intro initial sim
  have hraces : sim.machine.Races initial program store load
      (config.value .numLoadBuffers = 1) sim.chronicle := by
    rcases races_running config preload registers words program hstraight honce
      hpair cycles with hstuck | hraces
    · rw [hstuck.isIdle_eq_false] at hidle
      contradiction
    · exact hraces
  simp only [Machine.isIdle, Bool.and_eq_true, List.isEmpty_iff] at hidle
  obtain ⟨hqueue, hfree⟩ := hidle
  have hlength : sim.chronicle.ledger.issues.length = program.length := by
    rw [← hraces.stream, hqueue]
    simp
  have hretired : ∀ number < program.length, number ∈ sim.retired := by
    intro number hlt
    apply (hraces.accounts.retired_perm hfree).mem_iff.mpr
    rw [List.mem_range, hlength]
    exact hlt
  have hload := hretired load load.isLt
  have hread : sim.machine.registers.read register =
      Machine.observed initial program store load sim.retired := by
    have hlast := hraces.lastWrite?_eq hpair honce htarget hne hlength hload
    have hholds : sim.machine.registers.read register =
        (sim.ledger.lastWrite? register).getD _ :=
      holdsLastWrites_running config preload registers words program cycles
        register hne
    rw [hholds, ← ledger_chronicle, hlast]
    rfl
  refine ⟨hretired store store.isLt, hload, ?_, ?_, ?_⟩
  · intro hbefore
    rw [hread, Machine.observed, if_pos hbefore]
  · intro hbehind
    rw [hread, Machine.observed, if_neg hbehind]
  · intro hone
    exact hraces.precedes hone hload

/-- A store and a load that are ready at once: the store is first at the port
and at the bus. -/
theorem load_observes_store_ahead_at_port :
    let start := prepared .standard [] [("F1", 5)] []
    let program : List Instruction :=
      [{ opcode := .sw, src1 := "R0", src2 := "F1", immediate := some 0 },
        { opcode := .lw, dest := "F4", src1 := "R0", immediate := some 0 }]
    let sim := start.running program 60
    Precedes sim.retired 0 1 ∧ sim.machine.registers.read "F4" = 5 := by
  intro start program sim
  have hpair : start.machine.architecture.Rereads program ⟨0, by decide⟩
      ⟨1, by decide⟩ :=
    ⟨by decide, by decide, by decide, by decide +kernel, by decide +kernel⟩
  have hfirst : Precedes sim.retired 0 1 := by decide +kernel
  obtain ⟨-, -, hread, -, -⟩ := load_observes_store_written_back_first .standard
    [] [("F1", 5)] [] program 60 ⟨0, by decide⟩ ⟨1, by decide⟩ "F4" (by decide)
    (by decide) hpair (by decide) (by decide) (by decide +kernel)
  refine ⟨hfirst, ?_⟩
  rw [hread hfirst]
  decide +kernel

/-- A load may observe what memory held before an older store to its address.
The store waits for a product, and the load, which waits for nothing, is over
long before. -/
theorem load_overtakes_store :
    let start := prepared .standard [] [("F1", 5)] []
    let program : List Instruction :=
      [{ opcode := .mul, dest := "F2", src1 := "F1", src2 := "F1" },
        { opcode := .sw, src1 := "R0", src2 := "F2", immediate := some 0 },
        { opcode := .lw, dest := "F4", src1 := "R0", immediate := some 0 }]
    let sim := start.running program 65
    let initial := start.machine.architecture
    (∀ ins ∈ program, ins.opcode.isBranch = false) ∧ DefinesOnce program ∧
      initial.Rereads program ⟨1, by decide⟩ ⟨2, by decide⟩ ∧
      sim.machine.isIdle = true ∧
      (initial.before program 1).source (some "F2") = 25 ∧
      sim.machine.registers.read "F4" = 0 := by
  intro start program sim initial
  refine ⟨by decide, by decide, ⟨by decide, by decide, by decide, ?_, ?_⟩, ?_⟩
  · decide +kernel
  · decide +kernel
  · decide +kernel

end Simulation

end OutOfOrder
