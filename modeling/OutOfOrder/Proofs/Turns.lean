import Mathlib.Data.List.Count
import OutOfOrder.Proofs.PortTenure

/-!
# A station's part in a cycle

A cycle is told of all stations at once.  What it does to one of them, and what
it tells of that one, is said here phase by phase: at write-back a station may
leave its instruction, hear of a value or be left alone, at issue a free station
may begin on an instruction, and in execution it takes its step, unless the
cycle is broken off before.

While a station keeps the port, it finds the port in its step as it left it.
-/

namespace OutOfOrder

/-! ## What is told of a station -/

/-- What is told of the station of a name. -/
def toldAt (name : String) (log : List Happening) : List Happening :=
  (log.takeWhile Happening.isTellable).filter (·.station? = some name)

section ToldAt

variable {name : String} {log rest : List Happening}

theorem toldAt_append (h : isTold log = true) :
    toldAt name (log ++ rest) = toldAt name log ++ toldAt name rest := by
  rw [toldAt, takeWhile_isTellable_append h, List.filter_append, toldAt,
    takeWhile_isTellable_of_isTold h, toldAt]

theorem toldAt_eq_nil (h : ∀ happening ∈ log, happening.station? ≠ some name) :
    toldAt name log = [] := by
  rw [toldAt, List.filter_eq_nil_iff]
  intro happening hmem
  simpa using h happening (mem_of_mem_takeWhile_isTellable hmem)

theorem toldAt_eq_takeWhile
    (h : ∀ happening ∈ log, happening.station? = some name) :
    toldAt name log = log.takeWhile Happening.isTellable := by
  rw [toldAt, List.filter_eq_self]
  intro happening hmem
  simpa using h happening (mem_of_mem_takeWhile_isTellable hmem)

theorem toldAt_cycleStarted (name : String) (log : List Happening) :
    toldAt name (.cycleStarted :: log) = toldAt name log := by
  have hstation : Happening.cycleStarted.station? ≠ some name := nofun
  rw [toldAt, List.takeWhile_cons_of_pos rfl,
    List.filter_cons_of_neg (by simpa using hstation), toldAt]

end ToldAt

/-! ## Execution -/

namespace Station

variable {station : Station} {port : Port} {cache : Cache} {name : String}

theorem station?_of_mem_execute {happening : Happening}
    (h : happening ∈ (station.execute port cache).log) :
    happening.station? = some station.name :=
  (isStepOf_of_mem_execute h).1.2

end Station

namespace Bank

/-- What execution makes of the station of a name, and what it tells of it.  The
station takes its step, unless the cycle is broken off before. -/
inductive Turn (name : String) (station : Station) (port : Port)
    (cache : Cache) (log : List Happening) : Station → Prop where
  | missed (huntold : isTold log = false) (hlog : toldAt name log = []) :
      Turn name station port cache log station
  | taken {port' : Port} {cache' : Cache}
      (hport : port.owner = some name → port' = port)
      (hcache : cache'.base = cache.base)
      (hlog : toldAt name log =
        (station.execute port' cache').log.takeWhile Happening.isTellable)
      (htold : isTold log = true →
        isTold (station.execute port' cache').log = true) :
      Turn name station port cache log (station.execute port' cache').station

theorem station?_cons (station : Station) (rest : Bank) (name : String) :
    station? (station :: rest) name =
      if station.name = name then some station else rest.station? name := by
  unfold station?
  rw [List.find?_cons]
  split
  · next h => rw [if_pos (of_decide_eq_true h)]
  · next h => rw [if_neg (of_decide_eq_false h)]

theorem toldAt_execute_of_not_mem {bank : Bank} {port : Port} {cache : Cache}
    {name : String} (h : name ∉ bank.map Station.name) :
    toldAt name (bank.execute port cache).2.2.2 = [] := by
  apply toldAt_eq_nil
  intro happening hmem hname
  obtain ⟨station, hstation, hstep, -⟩ := isStepOf_of_mem_execute hmem
  rw [hstep.2] at hname
  exact h (Option.some.inj hname ▸ List.mem_map_of_mem hstation)

theorem toldAt_execute_of_ne {first : Station} {port : Port} {cache : Cache}
    {name : String} (hne : first.name ≠ name) :
    toldAt name (first.execute port cache).log = [] := by
  apply toldAt_eq_nil
  intro happening hmem
  rw [Station.station?_of_mem_execute hmem]
  exact fun heq => hne (Option.some.inj heq)

/-- A turn behind another station's step is a turn of the whole cycle. -/
theorem Turn.behind {first station other : Station} {port : Port}
    {cache : Cache} {name : String} {log : List Happening}
    (h : Turn name station (first.execute port cache).port
      (first.execute port cache).cache log other)
    (hsound : first.Sound ∧ first.PortSound) (hne : first.name ≠ name)
    (htold : isTold (first.execute port cache).log = true) :
    Turn name station port cache ((first.execute port cache).log ++ log)
      other := by
  have hlog :
      toldAt name ((first.execute port cache).log ++ log) = toldAt name log := by
    rw [toldAt_append htold, toldAt_execute_of_ne hne, List.nil_append]
  cases h with
  | missed huntold hnone =>
      refine .missed ?_ (hlog.trans hnone)
      rw [isTold_append, huntold, Bool.and_false]
  | taken hport hcache hmine htaken =>
      refine .taken (fun howner => ?_) ?_ (hlog.trans hmine) fun hall => ?_
      · have hpassed : (first.execute port cache).port = port :=
          (Station.portTurn_execute hsound.1 hsound.2 port
            cache).1.eq_of_owner howner hne
        rw [hport (hpassed.symm ▸ howner), hpassed]
      · rw [hcache, Station.base_execute]
      · rw [isTold_append, Bool.and_eq_true] at hall
        exact htaken hall.2

/-- What is told of a station is told in its own step. -/
theorem toldAt_execute_cons {station : Station} {rest : Bank} {port : Port}
    {cache : Cache} (hfresh : station.name ∉ rest.map Station.name) :
    toldAt station.name (execute (station :: rest) port cache).2.2.2 =
      (station.execute port cache).log.takeWhile Happening.isTellable := by
  have hmine := toldAt_eq_takeWhile fun _ hmem =>
    @Station.station?_of_mem_execute station port cache _ hmem
  cases htold : isTold (station.execute port cache).log with
  | false => rw [execute_cons_of_untold htold, hmine]
  | true =>
      rw [execute_cons_of_told htold, toldAt_append htold, hmine,
        toldAt_execute_of_not_mem hfresh, List.append_nil]

theorem exists_turn {bank : Bank} {port : Port} {cache : Cache} {name : String}
    {station : Station} (hdistinct : bank.Distinct)
    (hsound : ∀ station ∈ bank, station.Sound ∧ station.PortSound)
    (hstation : bank.station? name = some station) :
    ∃ other, (bank.execute port cache).1.station? name = some other ∧
      Turn name station port cache (bank.execute port cache).2.2.2 other := by
  induction bank generalizing port cache with
  | nil => nomatch hstation
  | cons first rest ih =>
      have hnodup := List.nodup_cons.mp hdistinct
      obtain ⟨hfirst, hothers⟩ := List.forall_mem_cons.mp hsound
      have hname := (Station.sameWork_execute first port cache).name
      rw [station?_cons] at hstation
      by_cases hmine : first.name = name
      · rw [if_pos hmine] at hstation
        cases hstation
        subst hmine
        have hlog := @toldAt_execute_cons _ rest port cache hnodup.1
        cases htold : isTold (station.execute port cache).log with
        | false =>
            rw [execute_cons_of_untold htold] at hlog ⊢
            refine ⟨_, by rw [station?_cons, if_pos hname], ?_⟩
            exact .taken (fun _ => rfl) rfl hlog fun hall => hall
        | true =>
            rw [execute_cons_of_told htold] at hlog ⊢
            refine ⟨_, by rw [station?_cons, if_pos hname], ?_⟩
            exact .taken (fun _ => rfl) rfl hlog fun _ => htold
      · rw [if_neg hmine] at hstation
        cases htold : isTold (first.execute port cache).log with
        | false =>
            rw [execute_cons_of_untold htold]
            refine ⟨station, ?_, .missed htold (toldAt_execute_of_ne hmine)⟩
            rw [station?_cons, hname, if_neg hmine, hstation]
        | true =>
            rw [execute_cons_of_told htold]
            obtain ⟨other, hfound, hturn⟩ := ih hnodup.2 hothers hstation
            refine ⟨other, ?_, hturn.behind hfirst hmine htold⟩
            rw [station?_cons, hname, if_neg hmine, hfound]

end Bank

/-! ## Write-back -/

/-- What a branch tells of its way. -/
inductive Happening.IsWay (name : String) : Happening → Prop where
  | taken {index : Nat} {next : Instruction} {a b : Int} :
      IsWay name (.taken name index next a b)
  | notTaken {a b : Int} : IsWay name (.notTaken name a b)
  | outOfRange {index : Int} {size : Nat} :
      IsWay name (.outOfRange name index size)

namespace Station

variable {station : Station} {ins : Instruction}

/-- What the last things are that are told of an instruction. -/
inductive Ends (name : String) (ins : Instruction) (address : Int) :
    List Happening → Prop where
  | stored {value : Int} (hform : ins.opcode.form = .store) :
      Ends name ins address [.stored name value address]
  | branched {way : Happening} (hform : ins.opcode.form = .branch)
      (hway : way.IsWay name) : Ends name ins address [.resolved name ins, way]
  | loaded {value : Int} (hform : ins.opcode.form = .load) :
      Ends name ins address [.loaded name value address]
  | computed {value : Int} (hmemory : ins.opcode.isMemory = false)
      (hbranch : ins.opcode.isBranch = false) :
      Ends name ins address [.computed name value]

theorem Ends.station?_eq {name : String} {address : Int} {log : List Happening}
    (h : Ends name ins address log) {happening : Happening}
    (hmem : happening ∈ log) : happening.station? = some name := by
  cases h with
  | branched _ hway =>
      simp only [List.mem_cons, List.not_mem_nil, or_false] at hmem
      rcases hmem with rfl | rfl
      · rfl
      · cases hway <;> rfl
  | stored | loaded | computed =>
      rw [List.mem_singleton.mp hmem]
      rfl

/-- What write-back makes of a station, and what it tells of it: the station is
left alone, receives a value that it waits for, or has the bus and is free
then. -/
inductive AtBus (station : Station) : Station → List Happening → Prop where
  | alone : AtBus station station []
  | hears {tag : String} {value : Int} (hhears : station.hears tag = true) :
      AtBus station (station.receive tag value)
        [.received station.name tag value]
  | leaves {ins : Instruction} {log : List Happening}
      (hasks : station.asksForBus = true)
      (hins : station.instruction? = some ins)
      (hends : Ends station.name ins station.address log) :
      AtBus station station.release log

/-- What is sent round reaches a station if it waits for it. -/
theorem atBus_listen (station : Station) (tag : String) (value : Int) :
    station.AtBus (station.listen tag value)
      (if station.hears tag then [.received station.name tag value]
        else []) := by
  cases hhears : station.hears tag with
  | true =>
      have hboth := hhears
      simp only [hears, Bool.and_eq_true] at hboth
      rw [listen, if_pos hboth.1]
      exact .hears hhears
  | false =>
      have hsame : station.listen tag value = station := by
        unfold listen receive
        split
        · next hbusy =>
            have hdeaf : station.awaits tag = false := by
              simpa [hears, hbusy] using hhears
            rw [if_neg (by simp [hdeaf])]
        · rfl
      rw [hsame]
      exact .alone

end Station

namespace Bank

variable {bank : Bank} {name tag : String} {station : Station}

/-- Among those who hear of a value no station is named twice. -/
theorem filter_received (hdistinct : bank.Distinct)
    (hstation : bank.station? name = some station) (value : Int) :
    ((bank.hearers tag).map fun hearer =>
        Happening.received hearer tag value).filter (·.station? = some name) =
      if station.hears tag then [.received name tag value] else [] := by
  have hnodup : (bank.hearers tag).Nodup := hdistinct.filter _
  have hmem : name ∈ bank.hearers tag ↔ station.hears tag = true := by
    rw [hearers, List.mem_map]
    constructor
    · rintro ⟨other, hother, rfl⟩
      obtain ⟨hbank, hhears⟩ := List.mem_filter.mp hother
      rw [hdistinct.station?_name hbank] at hstation
      cases hstation
      exact hhears
    · intro hhears
      exact ⟨station, List.mem_filter.mpr ⟨mem_of_station? hstation, hhears⟩,
        name_of_station? hstation⟩
  have hfilter : ((bank.hearers tag).map fun hearer =>
      Happening.received hearer tag value).filter (·.station? = some name) =
        ((bank.hearers tag).filter (· = name)).map fun hearer =>
          Happening.received hearer tag value := by
    rw [List.filter_map]
    congr 1
    apply List.filter_congr
    intro hearer _
    simp [Happening.station?]
  rw [hfilter, List.filter_eq]
  cases hhears : station.hears tag with
  | true =>
      rw [List.count_eq_one_of_mem hnodup (hmem.mpr hhears)]
      rfl
  | false =>
      have hnone : name ∉ bank.hearers tag := by
        rw [hmem, hhears]
        exact Bool.false_ne_true
      rw [List.count_eq_zero_of_not_mem hnone]
      rfl

end Bank

namespace Machine

variable {m m' : Machine} {log : List Happening} {name : String}
  {station : Station}

theorem toldAt_of_isTold (htold : isTold log = true) (name : String) :
    toldAt name log = log.filter (·.station? = some name) := by
  rw [toldAt, takeWhile_isTellable_of_isTold htold]

/-- What is settled is the end of an instruction. -/
theorem ends_settle (m : Machine) (station : Station) (ins : Instruction) :
    Station.Ends station.name ins station.address
      (m.settle station ins).2 := by
  unfold settle
  cases hform : ins.opcode.form with
  | store => exact .stored hform
  | load => exact .loaded hform
  | branch =>
      obtain ⟨way, hlog, hway⟩ := m.redirect_log station ins
      dsimp only
      rw [hlog]
      refine .branched hform ?_
      rcases hway with ⟨_, _, _, _, rfl⟩ | ⟨_, _, rfl⟩ | ⟨_, _, rfl⟩
      · exact .taken
      · exact .notTaken
      · exact .outOfRange
  | immediate | register | bare =>
      refine .computed ?_ ?_
      · simp [Opcode.isMemory, Opcode.isLoad, Opcode.isStore, hform]
      · simp [Opcode.isBranch, hform]

/-- Behind a release, the station that had the bus is free, and every other one
is as it was. -/
theorem station?_released_cases (hdistinct : m.bank.Distinct)
    {granted : Station} {ins : Instruction}
    (hgranted : m.bank.granted? = some granted)
    (hends : Station.Ends granted.name ins granted.address log)
    (hstation : m.bank.station? name = some station) :
    (station = granted ∧
        m.released.bank.station? name = some station.release ∧
        log.filter (·.station? = some name) = log) ∨
      (m.released.bank.station? name = some station ∧
        log.filter (·.station? = some name) = []) := by
  rw [station?_released hdistinct hgranted]
  split
  · next heq =>
      subst heq
      rw [station?_granted hdistinct hgranted] at hstation
      cases hstation
      refine .inl ⟨rfl, rfl, ?_⟩
      rw [List.filter_eq_self]
      intro happening hmem
      simpa using hends.station?_eq hmem
  · next hne =>
      refine .inr ⟨hstation, ?_⟩
      rw [List.filter_eq_nil_iff]
      intro happening hmem
      simpa [hends.station?_eq hmem] using Ne.symm hne

/-- The station that has the bus leaves its instruction, and those that wait for
its value receive it. -/
theorem exists_atBus_complete (hdistinct : m.bank.Distinct)
    {granted : Station} {ins : Instruction}
    (hgranted : m.bank.granted? = some granted)
    (hins : granted.instruction? = some ins)
    (hends : Station.Ends granted.name ins granted.address log)
    (hstation : m.bank.station? name = some station) :
    ∃ other, (m.complete granted ins).1.bank.station? name = some other ∧
      station.AtBus other ((log ++ (m.complete granted ins).2).filter
        (·.station? = some name)) := by
  have hcases := station?_released_cases hdistinct hgranted hends hstation
  have hasks : granted.asksForBus = true := List.find?_some hgranted
  cases hproduct : m.product? granted ins with
  | none =>
      have hcomplete : m.complete granted ins = (m.released, []) := by
        simp only [complete, hproduct, released]
      rw [hcomplete, List.append_nil]
      rcases hcases with ⟨rfl, hother, hlog⟩ | ⟨hother, hlog⟩
      · rw [hlog]
        exact ⟨_, hother, .leaves hasks hins hends⟩
      · rw [hlog]
        exact ⟨_, hother, .alone⟩
  | some value =>
      have hcomplete : m.complete granted ins =
          m.released.publish granted.name ins value := by
        simp only [complete, hproduct, released]
      have hlisten : ∀ {other : Station},
          m.released.bank.station? name = some other →
          (m.released.publish granted.name ins value).1.bank.station? name =
              some (other.listen granted.name value) ∧
            (m.released.publish granted.name ins value).2.filter
                (·.station? = some name) =
              if other.hears granted.name
              then [.received name granted.name value] else [] := by
        intro other hother
        have hmap := Bank.station?_map
          (Station.name_listen granted.name value) m.released.bank name
        rw [hother] at hmap
        exact ⟨hmap, Bank.filter_received (distinct_released hdistinct) hother
          value⟩
      rw [hcomplete, List.filter_append]
      rcases hcases with ⟨rfl, hother, hlog⟩ | ⟨hother, hlog⟩
      -- the free station hears nothing
      · obtain ⟨hother, hreceived⟩ := hlisten hother
        refine ⟨_, hother, ?_⟩
        rw [hlog, hreceived, if_neg (by simp [Station.hears, Station.release]),
          List.append_nil]
        exact .leaves hasks hins hends
      · obtain ⟨hother, hreceived⟩ := hlisten hother
        refine ⟨_, hother, ?_⟩
        rw [hlog, hreceived, List.nil_append]
        cases Bank.name_of_station? hstation
        exact station.atBus_listen granted.name value

theorem exists_atBus (htold : isTold m.writeback.2 = true)
    (hdistinct : m.bank.Distinct)
    (hstation : m.bank.station? name = some station) :
    ∃ other, m.writeback.1.bank.station? name = some other ∧
      station.AtBus other (toldAt name m.writeback.2) := by
  rw [toldAt_of_isTold htold]
  cases hgranted : m.bank.granted? with
  | none =>
      simp only [writeback, hgranted]
      exact ⟨station, hstation, .alone⟩
  | some granted =>
      cases hins : granted.instruction? with
      | none =>
          simp only [writeback, hgranted, hins] at htold
          nomatch htold
      | some ins =>
          have hends := m.ends_settle granted ins
          obtain ⟨cache, queue, issuedCount, heq⟩ := settle_eq m granted ins
          simp only [writeback, hgranted, hins] at htold ⊢
          split
          · next huntold =>
              rw [if_pos huntold] at htold
              simp [htold] at huntold
          · rw [heq]
            exact exists_atBus_complete
              (m := { m with cache, queue, issuedCount }) hdistinct hgranted hins
              hends hstation

/-- Of an instruction that cannot be told, it is told at most that a branch has
had the bus. -/
theorem toldAt_ends {granted : String} {ins : Instruction} {address : Int}
    (hends : Station.Ends granted ins address log)
    (huntold : isTold log = false) :
    toldAt name log = [] ∨
      granted = name ∧ ins.opcode.form = .branch ∧
        toldAt name log = [.resolved name ins] := by
  cases hends with
  | stored | loaded | computed =>
      left
      simp only [isTold, List.all_cons, List.all_nil, Bool.and_true] at huntold
      rw [toldAt, List.takeWhile_cons, huntold]
      rfl
  | @branched way hform _ =>
      have hresolved : (Happening.resolved granted ins).isTellable = true := rfl
      simp only [isTold, List.all_cons, List.all_nil, Bool.and_true, hresolved,
        Bool.true_and] at huntold
      rw [toldAt, List.takeWhile_cons, hresolved, List.takeWhile_cons, huntold]
      by_cases heq : granted = name
      · subst heq
        exact .inr ⟨rfl, hform, by simp [Happening.station?]⟩
      · exact .inl (by simp [Happening.station?, heq])

theorem WritesBack.of_untold (hphase : m.WritesBack m' log)
    (huntold : isTold log = false) (hdistinct : m.bank.Distinct)
    (hstation : m.bank.station? name = some station) :
    m'.bank.station? name = some station ∧
      (toldAt name log = [] ∨
        ∃ ins, station.asksForBus = true ∧
          station.instruction? = some ins ∧ ins.opcode.form = .branch ∧
          toldAt name log = [.resolved name ins]) := by
  cases hphase with
  | idle => nomatch huntold
  | empty => exact ⟨hstation, .inl rfl⟩
  | @broken granted ins hgranted hins =>
      obtain ⟨cache, queue, issuedCount, heq⟩ := settle_eq m granted ins
      refine ⟨by rw [heq]; exact hstation, ?_⟩
      rcases @toldAt_ends _ name _ _ _ (m.ends_settle granted ins) huntold with
        hnone | ⟨hname, hform, hresolved⟩
      · exact .inl hnone
      · rw [← hname, station?_granted hdistinct hgranted] at hstation
        cases hstation
        exact .inr ⟨ins, List.find?_some hgranted, hins, hform, hresolved⟩
  | stored _ _ _ htold =>
      rw [htold] at huntold
      nomatch huntold
  | @branched granted ins _ _ _ htold =>
      have hall : isTold (.resolved granted.name ins ::
          (m.redirect granted ins).2) = true := htold
      rw [hall] at huntold
      nomatch huntold
  | published _ _ _ hhappening htold =>
      rw [isTold_publish hhappening htold] at huntold
      nomatch huntold

/-! ## Issue -/

/-- At issue a station is left alone, or it is free and begins on an instruction
of its pool. -/
theorem Issues.station?_cases (hphase : m.Issues m' log)
    (hdistinct : m.bank.Distinct)
    (hstation : m.bank.station? name = some station) :
    (m'.bank.station? name = some station ∧ toldAt name log = []) ∨
      ∃ next : Stamped, station.busy = false ∧
        station.pool = next.instruction.opcode.pool ∧
        m'.bank.station? name = some (m.occupied station next) ∧
        toldAt name log = [.issued name next.instruction] := by
  cases hphase with
  | drained => exact .inl ⟨hstation, rfl⟩
  | stalled => exact .inl ⟨hstation, rfl⟩
  | @issued next rest free hqueue hfree =>
      rw [toldAt_of_isTold rfl, station?_occupied hdistinct hfree]
      split
      · next heq =>
          subst heq
          rw [station?_free hdistinct hfree] at hstation
          cases hstation
          obtain ⟨-, hpool, hidle⟩ := mem_of_free? hfree
          exact .inr ⟨next, hidle, hpool, rfl, by simp [Happening.station?]⟩
      · next hne =>
          refine .inl ⟨hstation, ?_⟩
          simpa [Happening.station?] using Ne.symm hne

/-! ## Happenings and the stations of the machine -/

theorem map_name_of_map_place {bank other : Bank}
    (h : other.map place = bank.map place) :
    other.map Station.name = bank.map Station.name := by
  have hnames := congrArg (List.map Prod.fst) h
  simpa [place, Function.comp_def] using hnames

theorem WritesBack.mem_names (hphase : m.WritesBack m' log)
    {happening : Happening} (hmem : happening ∈ log)
    (hname : happening.station? = some name) :
    name ∈ m.bank.map Station.name := by
  have hgrant : ∀ {granted : Station}, m.bank.granted? = some granted →
      granted.name = name → name ∈ m.bank.map Station.name := by
    rintro granted hgranted rfl
    exact List.mem_map_of_mem (mem_of_granted? hgranted).1
  have hends : ∀ {granted : Station} {ins : Instruction} {ending},
      m.bank.granted? = some granted →
      Station.Ends granted.name ins granted.address ending →
      happening ∈ ending → name ∈ m.bank.map Station.name := by
    intro granted ins ending hgranted hends hmem
    rw [hends.station?_eq hmem] at hname
    exact hgrant hgranted (Option.some.inj hname)
  cases hphase with
  | idle => contradiction
  | empty hgranted =>
      rw [List.mem_singleton.mp hmem] at hname
      exact hgrant hgranted (Option.some.inj hname)
  | @broken granted ins hgranted =>
      exact hends hgranted (m.ends_settle granted ins) hmem
  | @stored granted ins hgranted _ hform =>
      exact hends hgranted (.stored hform) hmem
  | @branched granted ins hgranted _ hform =>
      have hsettle := m.ends_settle granted ins
      simp only [settle, hform] at hsettle
      exact hends hgranted hsettle hmem
  | @published granted ins value first hgranted _ _ hfirst =>
      rcases List.mem_cons.mp hmem with rfl | hreceived
      · have hstation : happening.station? = some granted.name := by
          rcases hfirst with rfl | rfl
          · rfl
          · rfl
        rw [hstation] at hname
        exact hgrant hgranted (Option.some.inj hname)
      · obtain ⟨hearer, hhearer, rfl⟩ := List.mem_map.mp hreceived
        cases hname
        obtain ⟨station, hstation, rfl⟩ := List.mem_map.mp hhearer
        have hnames : m.released.bank.map Station.name =
            m.bank.map Station.name := Bank.map_changeFirst name_release
        rw [← hnames]
        exact List.mem_map_of_mem (List.mem_filter.mp hstation).1

theorem Issues.mem_names (hphase : m.Issues m' log) {happening : Happening}
    (hmem : happening ∈ log) (hname : happening.station? = some name) :
    name ∈ m.bank.map Station.name := by
  cases hphase with
  | drained => contradiction
  | stalled =>
      rw [List.mem_singleton.mp hmem] at hname
      nomatch hname
  | issued hqueue hfree =>
      rw [List.mem_singleton.mp hmem] at hname
      cases hname
      exact List.mem_map_of_mem (mem_of_free? hfree).1

theorem mem_names_of_mem_advance {happening : Happening}
    (hmem : happening ∈ m.advance.2) (hname : happening.station? = some name) :
    name ∈ m.bank.map Station.name := by
  have hwrites := m.begin.writeback_writesBack
  have hbegun := map_name_of_map_place (map_place_begin m)
  have hwritten : happening ∈ m.begin.writeback.2 →
      name ∈ m.bank.map Station.name := fun hmem =>
    hbegun ▸ hwrites.mem_names hmem hname
  cases htold : isTold m.begin.writeback.2 with
  | false =>
      rw [advance_of_untold htold] at hmem
      rcases List.mem_cons.mp hmem with rfl | hmem
      · nomatch hname
      · exact hwritten hmem
  | true =>
      rw [advance_of_told htold] at hmem
      have hissues := m.begin.writeback.1.issue_issues
      have hnames := (map_name_of_map_place
        (map_place_writesBack hwrites)).trans hbegun
      rcases mem_completes hmem with rfl | hmem | hissued | hexecuted
      · nomatch hname
      · exact hwritten hmem
      · exact hnames ▸ hissues.mem_names hissued hname
      · obtain ⟨station, hstation, hstep, -⟩ :=
          Bank.isStepOf_of_mem_execute hexecuted
        rw [hstep.2] at hname
        have hissued := map_name_of_map_place (map_place_issues hissues)
        rw [← hnames, ← hissued, ← Option.some.inj hname]
        exact List.mem_map_of_mem hstation

/-! ## A cycle that runs through all its phases -/

/-- The machine as it goes into execution, in a cycle that is not broken off
before. -/
def atExecution (m : Machine) : Machine :=
  m.begin.writeback.1.issue.1

theorem advance_eq_execute (htold : isTold m.begin.writeback.2 = true) :
    m.advance.1 = m.atExecution.execute.1 := by
  rw [advance_of_told htold]
  rfl

theorem isTold_writeback (h : isTold m.advance.2 = true) :
    isTold m.begin.writeback.2 = true := by
  cases htold : isTold m.begin.writeback.2 with
  | true => rfl
  | false =>
      rw [advance_of_untold htold, isTold, List.all_cons, ← isTold, htold,
        Bool.and_false] at h
      contradiction

/-- What a cycle tells of a station, phase by phase. -/
theorem toldAt_advance (htold : isTold m.begin.writeback.2 = true)
    (name : String) :
    toldAt name m.advance.2 =
      toldAt name m.begin.writeback.2 ++
        toldAt name m.begin.writeback.1.issue.2 ++
        toldAt name m.atExecution.execute.2 := by
  have hissued := m.begin.writeback.1.issue_issues.isTold
  have hstarted : isTold (.cycleStarted :: m.begin.writeback.2) = true := htold
  have hboth : isTold (.cycleStarted :: m.begin.writeback.2 ++
      m.begin.writeback.1.issue.2) = true := by
    rw [isTold_append, hstarted, hissued]
    rfl
  rw [advance_of_told htold, toldAt_append hboth, toldAt_append hstarted,
    toldAt_cycleStarted]
  rfl

end Machine

end OutOfOrder
