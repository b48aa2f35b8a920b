import Mathlib.Data.List.Dedup
import OutOfOrder.Proofs.Diary
import OutOfOrder.Proofs.Monitoring

/-!
# The life of an instruction in a station

What is told of a station is told of one instruction after another, and of each
in the same order.  It is issued and receives its operands, one value from each
station that it waits for; an access finds its address as soon as it has its
base.  Then it starts, an access with the news of how it found its block, and
with that of the fill if the block has to be waited for.  It finishes, and is
written back.

While an instruction is at work the flags of its station say how far it has
come, and the values received and those that it still waits for are together
those that it waited for at its issue.
-/

namespace OutOfOrder

/-! ## What is told of an instruction -/

/-- The stations that two operands wait for, each of them once. -/
def awaitedBy (first second : Operand) : List String :=
  (first.tag?.toList ++ second.tag?.toList).dedup

/-- The station of a name received a value from each producer in turn. -/
def Receipts (name : String) (producers : List String)
    (log : List Happening) : Prop :=
  List.Forall₂ (fun producer happening =>
    ∃ value, happening = .received name producer value) producers log

/-- An instruction is issued with two operands, and receives a value from each
station that these wait for.  An access also finds its address, behind the value
of its base; a load does so last. -/
inductive Arrives (name : String) (ins : Instruction) (first second : Operand)
    (address : Int) : List Happening → Prop where
  | computing {producers : List String} {log : List Happening}
      (hmemory : ins.opcode.isMemory = false)
      (hreceipts : Receipts name producers log)
      (hall : producers.Perm (awaitedBy first second)) :
      Arrives name ins first second address (.issued name ins :: log)
  | accessing {early late : List String} {log log' : List Happening}
      (hmemory : ins.opcode.isMemory = true)
      (hearly : Receipts name early log) (hlate : Receipts name late log')
      (hall : (early ++ late).Perm (awaitedBy first second))
      (hbase : ∀ producer, first = .pending producer → producer ∈ early)
      (hload : ins.opcode.isLoad = true → late = []) :
      Arrives name ins first second address
        (.issued name ins :: log ++ .addressed name address :: log')

/-- An instruction is executed.  An access has found its block in the cache or
not, and waits for it if that takes time. -/
inductive Executes (config : Config) (name : String) (ins : Instruction)
    (address : Int) : List Happening → Prop where
  | computing (hmemory : ins.opcode.isMemory = false) :
      Executes config name ins address
        [.started name ins, .finished name ins]
  | hit (hmemory : ins.opcode.isMemory = true) :
      Executes config name ins address
        [.hit name address, .started name ins, .finished name ins]
  | missed (hmemory : ins.opcode.isMemory = true)
      (hpenalty : 0 < config.value .cacheMissPenalty) :
      Executes config name ins address
        [.missed name address (config.value .cacheMissPenalty),
          .started name ins, .filled name address, .finished name ins]
  | missedFree (hmemory : ins.opcode.isMemory = true)
      (hpenalty : config.value .cacheMissPenalty = 0) :
      Executes config name ins address
        [.missed name address 0, .started name ins, .finished name ins]

/-- All that is told of an instruction from its issue to its end. -/
def IsWhole (config : Config) (name : String) (ins : Instruction)
    (first second : Operand) (log : List Happening) : Prop :=
  ∃ address arrival execution ending,
    Arrives name ins first second address arrival ∧
    Executes config name ins address execution ∧
    Station.Ends name ins address ending ∧
    log = arrival ++ execution ++ ending

/-- What is told of an instruction from its issue on, up to some point. -/
def IsBegun (config : Config) (name : String) (ins : Instruction)
    (first second : Operand) (log : List Happening) : Prop :=
  ∃ rest, IsWhole config name ins first second (log ++ rest)

/-! ## Operands that are waited for -/

theorem mem_awaitedBy {first second : Operand} {tag : String} :
    tag ∈ awaitedBy first second ↔
      first = .pending tag ∨ second = .pending tag := by
  have htag : ∀ operand : Operand, operand.tag? = some tag ↔
      operand = .pending tag := by
    intro operand
    cases operand <;> simp [Operand.tag?]
  rw [awaitedBy, List.mem_dedup, List.mem_append, Option.mem_toList,
    Option.mem_toList, htag, htag]

theorem nodup_awaitedBy (first second : Operand) :
    (awaitedBy first second).Nodup :=
  List.nodup_dedup _

theorem receive_eq_pending_iff {operand : Operand} {tag other : String}
    {value : Int} :
    operand.receive tag value = .pending other ↔
      operand = .pending other ∧ other ≠ tag := by
  unfold Operand.receive
  split
  · next heq =>
      rw [heq]
      simp [eq_comm]
  · next hne =>
      constructor
      · rintro rfl
        exact ⟨rfl, fun heq => hne (heq ▸ rfl)⟩
      · exact And.left

/-- Receiving a value takes its producer off those that are waited for. -/
theorem awaitedBy_receive {first second : Operand} {tag : String}
    (h : first = .pending tag ∨ second = .pending tag) (value : Int) :
    (awaitedBy first second).Perm
      (tag :: awaitedBy (first.receive tag value)
        (second.receive tag value)) := by
  have hfresh : tag ∉ awaitedBy (first.receive tag value)
      (second.receive tag value) := by
    rw [mem_awaitedBy, receive_eq_pending_iff, receive_eq_pending_iff]
    simp
  rw [List.perm_ext_iff_of_nodup (nodup_awaitedBy _ _)
    (List.nodup_cons.mpr ⟨hfresh, nodup_awaitedBy _ _⟩)]
  intro other
  rw [List.mem_cons, mem_awaitedBy, mem_awaitedBy, receive_eq_pending_iff,
    receive_eq_pending_iff]
  by_cases heq : other = tag
  · simp [heq, h]
  · simp [heq]

namespace Station

/-- The stations that the station waits for. -/
def awaited (station : Station) : List String :=
  awaitedBy station.j station.k

theorem awaited_eq_nil {station : Station}
    (h : station.operandsReady = true) : station.awaited = [] := by
  have hboth : station.j.isReady = true ∧ station.k.isReady = true := by
    simpa [operandsReady] using h
  rw [List.eq_nil_iff_forall_not_mem]
  intro tag hmem
  rcases mem_awaitedBy.mp hmem with hpending | hpending
  · rw [hpending] at hboth
    cases hboth.1
  · rw [hpending] at hboth
    cases hboth.2

/-- A station that receives a value waits for its producer no more. -/
theorem awaited_receive {station : Station} {tag : String}
    (h : station.hears tag = true) (value : Int) :
    station.awaited.Perm (tag :: (station.receive tag value).awaited) := by
  have hawaits : station.j = .pending tag ∨ station.k = .pending tag := by
    simpa [hears, awaits] using (Bool.and_eq_true_iff.mp h).2
  have hfirst := station.operand_receive tag value .first
  have hsecond := station.operand_receive tag value .second
  simp only [operand] at hfirst hsecond
  rw [awaited, awaited, hfirst, hsecond]
  exact awaitedBy_receive hawaits value

end Station

section Tells

variable {config : Config} {name : String} {ins : Instruction}
  {first second : Operand} {log rest : List Happening}

theorem IsWhole.isBegun (h : IsWhole config name ins first second log) :
    IsBegun config name ins first second log :=
  ⟨[], by rwa [List.append_nil]⟩

theorem IsBegun.of_append
    (h : IsBegun config name ins first second (log ++ rest)) :
    IsBegun config name ins first second log := by
  obtain ⟨more, hwhole⟩ := h
  exact ⟨rest ++ more, by rwa [← List.append_assoc]⟩

theorem Receipts.append {early late : List String} {log log' : List Happening}
    (h : Receipts name early log) (h' : Receipts name late log') :
    Receipts name (early ++ late) (log ++ log') :=
  List.rel_append h h'

theorem receipts_singleton (name producer : String) (value : Int) :
    Receipts name [producer] [.received name producer value] :=
  .cons ⟨value, rfl⟩ .nil

theorem exists_receipts (name : String) (producers : List String) :
    ∃ log, Receipts name producers log := by
  induction producers with
  | nil => exact ⟨[], .nil⟩
  | cons producer rest ih =>
      obtain ⟨log, hlog⟩ := ih
      exact ⟨_, .cons ⟨0, rfl⟩ hlog⟩

theorem exists_executes (config : Config) (name : String) (ins : Instruction)
    (address : Int) : ∃ log, Executes config name ins address log := by
  cases hmemory : ins.opcode.isMemory with
  | false => exact ⟨_, .computing hmemory⟩
  | true => exact ⟨_, .hit hmemory⟩

theorem exists_ends (name : String) (ins : Instruction) (address : Int) :
    ∃ log, Station.Ends name ins address log := by
  cases hform : ins.opcode.form with
  | load => exact ⟨[.loaded name 0 address], .loaded hform⟩
  | store => exact ⟨[.stored name 0 address], .stored hform⟩
  | branch =>
      exact ⟨[.resolved name ins, .notTaken name 0 0],
        .branched hform .notTaken⟩
  | immediate | register | bare =>
      refine ⟨[.computed name 0], .computed ?_ ?_⟩
      · simp [Opcode.isMemory, Opcode.isLoad, Opcode.isStore, hform]
      · simp [Opcode.isBranch, hform]

/-- What was told of the instruction of a station, and how its flags show it. -/
inductive Tells (config : Config) (name : String) (ins : Instruction)
    (first second : Operand) (station : Station) (told : List Happening) :
    Prop where
  /-- The station waits for its operands, an access also for its base. -/
  | waiting {producers : List String} {log : List Happening}
      (hidle : station.executing = false)
      (hpending : station.resultPending = false)
      (haddress : ins.opcode.isMemory = true → station.addressReady = false)
      (hreceipts : Receipts name producers log)
      (hall : (producers ++ station.awaited).Perm (awaitedBy first second))
      (hbase : ∀ producer, first = .pending producer →
        producer ∈ producers ∨ station.j = .pending producer)
      (htold : told = .issued name ins :: log)
  /-- An access has its address, and a store may wait for its value. -/
  | addressed {early late : List String} {log log' : List Happening}
      (hmemory : ins.opcode.isMemory = true)
      (hidle : station.executing = false)
      (hpending : station.resultPending = false)
      (haddress : station.addressReady = true)
      (hearly : Receipts name early log) (hlate : Receipts name late log')
      (hall : (early ++ (late ++ station.awaited)).Perm
        (awaitedBy first second))
      (hbase : ∀ producer, first = .pending producer → producer ∈ early)
      (hload : ins.opcode.isLoad = true → late ++ station.awaited = [])
      (htold : told =
        .issued name ins :: log ++ .addressed name station.address :: log')
  /-- An access waits for its block. -/
  | fetching {arrival : List Happening} (hmemory : ins.opcode.isMemory = true)
      (hexecuting : station.executing = true)
      (hpending : station.resultPending = false)
      (hmissing : station.blockResident = false)
      (hpenalty : 0 < config.value .cacheMissPenalty)
      (harrives : Arrives name ins first second station.address arrival)
      (htold : told = arrival ++
        [.missed name station.address (config.value .cacheMissPenalty),
          .started name ins])
  /-- Nothing but the finish is missing from the execution. -/
  | running {arrival execution : List Happening}
      (hexecuting : station.executing = true)
      (hpending : station.resultPending = false)
      (hresident : ins.opcode.isMemory = true → station.blockResident = true)
      (harrives : Arrives name ins first second station.address arrival)
      (hexecutes : Executes config name ins station.address
        (execution ++ [.finished name ins]))
      (htold : told = arrival ++ execution)
  /-- The result waits for the bus. -/
  | finished {arrival execution : List Happening}
      (hexecuting : station.executing = true)
      (hpending : station.resultPending = true)
      (harrives : Arrives name ins first second station.address arrival)
      (hexecutes : Executes config name ins station.address execution)
      (htold : told = arrival ++ execution)

variable {station found began other : Station} {told : List Happening}
  {geometry : Geometry} {port after : Port}

/-- Whatever has arrived, execution and the end can follow. -/
theorem Arrives.isBegun {address : Int} {arrival : List Happening}
    (h : Arrives name ins first second address arrival) :
    IsBegun config name ins first second arrival := by
  obtain ⟨execution, hexecutes⟩ := exists_executes config name ins address
  obtain ⟨ending, hends⟩ := exists_ends name ins address
  refine ⟨execution ++ ending, address, arrival, execution, ending, h,
    hexecutes, hends, ?_⟩
  rw [List.append_assoc]

theorem Executes.isBegun {address : Int} {arrival execution : List Happening}
    (harrives : Arrives name ins first second address arrival)
    (hexecutes : Executes config name ins address (execution ++ rest)) :
    IsBegun config name ins first second (arrival ++ execution) := by
  obtain ⟨ending, hends⟩ := exists_ends name ins address
  refine ⟨rest ++ ending, address, arrival, execution ++ rest, ending, harrives,
    hexecutes, hends, ?_⟩
  simp only [List.append_assoc]

/-- What the flags of a station show can go on to the end. -/
theorem Tells.isBegun (h : Tells config name ins first second station told) :
    IsBegun config name ins first second told := by
  cases h with
  | @waiting producers log _ _ _ hreceipts hall hbase htold =>
      obtain ⟨more, hmore⟩ := exists_receipts name station.awaited
      have hboth := hreceipts.append hmore
      have hsplit : told ++ more = .issued name ins :: (log ++ more) := by
        rw [htold, List.cons_append]
      apply IsBegun.of_append
      cases hmemory : ins.opcode.isMemory with
      | false =>
          have harrives : Arrives name ins first second 0 (told ++ more) := by
            rw [hsplit]
            exact .computing hmemory hboth hall
          exact harrives.isBegun
      | true =>
          -- the values may all come before the address
          have harrives : Arrives name ins first second 0
              (told ++ more ++ [.addressed name 0]) := by
            rw [hsplit]
            refine .accessing hmemory hboth .nil ?_ ?_ fun _ => rfl
            · rw [List.append_nil]
              exact hall
            · intro producer hproducer
              rcases hbase producer hproducer with hmem | hpending
              · exact List.mem_append_left _ hmem
              · exact List.mem_append_right _
                  (mem_awaitedBy.mpr (.inl hpending))
          exact harrives.isBegun.of_append
  | @addressed early late log log' hmemory _ _ _ hearly hlate hall hbase hload
      htold =>
      obtain ⟨more, hmore⟩ := exists_receipts name station.awaited
      have harrives : Arrives name ins first second station.address
          (told ++ more) := by
        have hsplit : told ++ more = .issued name ins :: log ++
            .addressed name station.address :: (log' ++ more) := by
          rw [htold, List.append_assoc]
          rfl
        rw [hsplit]
        exact .accessing hmemory hearly (hlate.append hmore) hall hbase hload
      exact harrives.isBegun.of_append
  | @fetching arrival hmemory _ _ _ hpenalty harrives htold =>
      rw [htold]
      exact Executes.isBegun harrives (.missed hmemory hpenalty)
  | running _ _ _ harrives hexecutes htold =>
      rw [htold]
      exact Executes.isBegun harrives hexecutes
  | finished _ _ harrives hexecutes htold =>
      rw [htold]
      exact Executes.isBegun harrives (by rwa [List.append_nil])

/-! ## From one part of a cycle to the next -/

theorem Tells.endPause (h : Tells config name ins first second station told) :
    Tells config name ins first second station.endPause told := by
  unfold Station.endPause
  split
  · cases h with
    | waiting hidle hpending haddress hreceipts hall hbase htold =>
        exact .waiting hidle hpending haddress hreceipts hall hbase htold
    | addressed hmemory hidle hpending haddress hearly hlate hall hbase hload
        htold =>
        exact .addressed hmemory hidle hpending haddress hearly hlate hall hbase
          hload htold
    | fetching hmemory hexecuting hpending hmissing hpenalty harrives htold =>
        exact .fetching hmemory hexecuting hpending hmissing hpenalty harrives
          htold
    | running hexecuting hpending hresident harrives hexecutes htold =>
        exact .running hexecuting hpending hresident harrives hexecutes htold
    | finished hexecuting hpending harrives hexecutes htold =>
        exact .finished hexecuting hpending harrives hexecutes htold
  · exact h

/-- A value is received while its station still waits for it. -/
theorem Tells.receive (h : Tells config name ins first second station told)
    {tag : String} (hhears : station.hears tag = true)
    (hready : station.executing = true → station.operandsReady = true)
    (value : Int) :
    Tells config name ins first second (station.receive tag value)
      (told ++ [.received name tag value]) := by
  have hawaited := Station.awaited_receive hhears value
  have hfirst := station.operand_receive tag value .first
  have hdeaf : station.executing = false := by
    by_contra hexecuting
    rw [Station.hears_eq_false (hready (by simpa using hexecuting))] at hhears
    contradiction
  have hreceive : station.receive tag value =
      { station with
        j := station.j.receive tag value
        k := station.k.receive tag value
        justTransitioned := true } := by
    rw [Station.receive, if_pos (Bool.and_eq_true_iff.mp hhears).2]
  rw [hreceive] at hawaited ⊢
  have hreceived := receipts_singleton name tag value
  cases h with
  | @waiting producers log hidle hpending haddress hreceipts hall hbase htold =>
      refine .waiting hidle hpending haddress (hreceipts.append hreceived) ?_ ?_
        (by rw [htold]; rfl)
      · rw [List.append_assoc]
        exact (hawaited.symm.append_left producers).trans hall
      · intro producer hproducer
        rcases hbase producer hproducer with hmem | hbase
        · exact .inl (List.mem_append_left _ hmem)
        · by_cases heq : producer = tag
          · exact .inl (List.mem_append_right _ (List.mem_singleton.mpr heq))
          · exact .inr (receive_eq_pending_iff.mpr ⟨hbase, heq⟩)
  | @addressed early late log log' hmemory hidle hpending haddress hearly hlate
      hall hbase hload htold =>
      refine .addressed hmemory hidle hpending haddress hearly
        (hlate.append hreceived) ?_ hbase ?_
        (by rw [htold, List.append_assoc]; rfl)
      · rw [List.append_assoc]
        exact ((hawaited.symm.append_left late).append_left early).trans hall
      · intro hloads
        have hnone := (List.append_eq_nil_iff.mp (hload hloads)).2
        rw [hnone] at hawaited
        simp at hawaited
  | fetching _ hexecuting | running hexecuting | finished hexecuting =>
      rw [hdeaf] at hexecuting
      contradiction

theorem Tells.finds (h : Tells config name ins first second station told)
    (hfinds : station.Finds ins found log) (hname : station.name = name)
    (hidle : station.executing = false)
    (halone : ins.opcode.isLoad = true → station.k = .absent) :
    Tells config name ins first second found (told ++ log) := by
  cases hfinds with
  | nothing => rwa [List.append_nil]
  | address hmemory hfresh hbase =>
      have hnone : ins.opcode.isLoad = true → station.awaited = [] := by
        intro hload
        apply Station.awaited_eq_nil
        rw [Station.operandsReady, hbase, halone hload]
        rfl
      cases h with
      | @waiting producers log _ hpending _ hreceipts hall hfirst htold =>
          refine .addressed hmemory hidle hpending rfl hreceipts .nil hall ?_
            hnone (by rw [htold, hname])
          intro producer hproducer
          rcases hfirst producer hproducer with hmem | hpending
          · exact hmem
          · rw [hpending] at hbase
            contradiction
      | addressed _ _ _ haddress =>
          rw [haddress] at hfresh
          contradiction
      | fetching _ hexecuting | running hexecuting | finished hexecuting =>
          rw [hidle] at hexecuting
          contradiction

theorem Tells.starts (h : Tells config name ins first second station told)
    (hstarts : station.Starts ins (.ofConfig config) began log)
    (hname : station.name = name) (hidle : station.executing = false)
    (hready : station.operandsReady = true) :
    Tells config name ins first second began (told ++ log) := by
  have hnone := Station.awaited_eq_nil hready
  cases h with
  | @waiting producers receipts _ hpending haddress hreceipts hall _ htold =>
      cases hstarts with
      | computing hmemory =>
          rw [hnone, List.append_nil] at hall
          refine .running rfl hpending (by simp [hmemory])
            (.computing hmemory hreceipts hall) ?_ (by rw [htold, hname])
          exact .computing hmemory
      | resident hmemory hready | missing hmemory hready =>
          rw [haddress hmemory] at hready
          nomatch hready
  | @addressed early late _ _ hmemory _ hpending haddress hearly hlate hall
      hbase hload htold =>
      rw [hnone, List.append_nil] at hall
      have harrives : Arrives name ins first second station.address told := by
        rw [htold]
        exact .accessing hmemory hearly hlate hall hbase
          fun hloads => (List.append_eq_nil_iff.mp (hload hloads)).1
      cases hstarts with
      | computing harithmetic =>
          rw [hmemory] at harithmetic
          nomatch harithmetic
      | resident _ _ hway =>
          refine .running rfl hpending (fun _ => rfl) harrives ?_ rfl
          rw [← hname]
          rcases hway with rfl | ⟨hpenalty, rfl⟩
          · exact .hit hmemory
          · exact .missedFree hmemory hpenalty
      | missing _ _ hpenalty =>
          exact .fetching hmemory rfl hpending rfl hpenalty harrives
            (by rw [hname]; rfl)
  | fetching _ hexecuting | running hexecuting | finished hexecuting =>
      rw [hidle] at hexecuting
      nomatch hexecuting

theorem Tells.counts (h : Tells config name ins first second station told)
    (hcounts : station.Counts ins port other after log)
    (hname : station.name = name) (hexecuting : station.executing = true)
    (hpending : station.resultPending = false) :
    Tells config name ins first second other (told ++ log) := by
  cases h with
  | waiting hidle | addressed _ hidle =>
      rw [hexecuting] at hidle
      nomatch hidle
  | finished _ hdone =>
      rw [hpending] at hdone
      nomatch hdone
  | fetching hmemory _ _ hmissing hpenalty harrives htold =>
      cases hcounts with
      | computes harithmetic | computed harithmetic =>
          rw [hmemory] at harithmetic
          nomatch harithmetic
      | awaits =>
          rw [List.append_nil]
          exact .fetching hmemory hexecuting hpending hmissing hpenalty harrives
            htold
      | filled =>
          rw [htold, List.append_assoc, hname]
          exact .running hexecuting hpending (fun _ => rfl) harrives
            (.missed hmemory hpenalty) rfl
      | stands _ hresident | uses _ hresident | finishes _ hresident =>
          rw [hmissing] at hresident
          nomatch hresident
  | running _ _ hresident harrives hexecutes htold =>
      cases hcounts with
      | computes | stands | uses =>
          rw [List.append_nil]
          exact .running hexecuting hpending hresident harrives hexecutes htold
      | computed | finishes =>
          rw [htold, List.append_assoc, hname]
          exact .finished hexecuting rfl harrives hexecutes rfl
      | awaits hmemory hmissing | filled hmemory hmissing =>
          rw [hresident hmemory] at hmissing
          nomatch hmissing

theorem Tells.steps (h : Tells config name ins first second station told)
    (hsteps : station.Steps port (.ofConfig config) other after log)
    (hname : station.name = name) (hins : station.instruction? = some ins)
    (halone : station.LoadsAlone) :
    Tells config name ins first second other (told ++ log) := by
  cases hsteps with
  | rests => rwa [List.append_nil]
  | waits _ hins' hidle hfinds =>
      cases hins.symm.trans hins'
      exact h.finds hfinds hname hidle (halone ins hins)
  | breaks _ hins' hidle hready hfinds hstarts =>
      cases hins.symm.trans hins'
      have hfound := hfinds.frame.1
      have hfoundReady := hfound.operandsReady_eq.trans hready
      rw [← List.append_assoc]
      exact (h.finds hfinds hname hidle (halone ins hins)).starts hstarts
        (hfound.name.trans hname) (hfinds.executing_eq.trans hidle) hfoundReady
  | begins hrests hins' hidle hready hfinds hstarts _ hcounts =>
      cases hins.symm.trans hins'
      obtain ⟨hfound, -, hfoundRests, -⟩ := hfinds.frame
      obtain ⟨hbegan, -, hbeganRests, hexecuting, -⟩ := hstarts.frame
      have hfoundReady := hfound.operandsReady_eq.trans hready
      have hfoundName := hfound.name.trans hname
      have hawake := hbeganRests.trans (hfoundRests.trans hrests)
      rw [← List.append_assoc, ← List.append_assoc]
      exact ((h.finds hfinds hname hidle (halone ins hins)).starts hstarts
        hfoundName (hfinds.executing_eq.trans hidle) hfoundReady).counts hcounts
          (hbegan.name.trans hfoundName) hexecuting
          (Station.rests_eq_false_iff.mp hawake).2.2
  | goesOn hrests hins' hexecuting hcounts =>
      cases hins.symm.trans hins'
      exact h.counts hcounts hname hexecuting
        (Station.rests_eq_false_iff.mp hrests).2.2

theorem tells_occupied (m : Machine) (station : Station) (next : Stamped) :
    Tells config name next.instruction (m.occupied station next).j
      (m.occupied station next).k (m.occupied station next)
      [.issued name next.instruction] :=
  .waiting rfl rfl (fun _ => rfl) .nil (.refl _) (fun _ hbase => .inr hbase) rfl

/-- A result that waits for the bus is followed by the end. -/
theorem Tells.isWhole (h : Tells config name ins first second station told)
    (hpending : station.resultPending = true)
    (hends : Station.Ends name ins station.address log) :
    IsWhole config name ins first second (told ++ log) := by
  cases h with
  | waiting _ hnot | addressed _ _ hnot | fetching _ _ hnot | running _ hnot =>
      rw [hpending] at hnot
      nomatch hnot
  | finished _ _ harrives hexecutes htold =>
      exact ⟨_, _, _, _, harrives, hexecutes, hends, by rw [htold]⟩

end Tells

/-! ## Stays in runs -/

namespace Stay

/-- All that is told of an instruction is told of the stay. -/
def IsWhole (config : Config) (name : String) (stay : Stay) : Prop :=
  OutOfOrder.IsWhole config name stay.instruction stay.first stay.second
    stay.log

/-- What is told of the stay is told of an instruction up to some point. -/
def IsBegun (config : Config) (name : String) (stay : Stay) : Prop :=
  OutOfOrder.IsBegun config name stay.instruction stay.first stay.second
    stay.log

/-- What was told of the stay shows in the flags of its station. -/
def IsTold (config : Config) (name : String) (_ : Nat) (station : Station)
    (stay : Stay) : Prop :=
  Tells config name stay.instruction stay.first stay.second station stay.log

end Stay

/-- The parts of a cycle keep what is told of a stay in step with the flags of
its station. -/
theorem upkeep_isTold (config : Config) (name : String) :
    Upkeep config name (Stay.IsTold config name) (Stay.IsTold config name)
      (Stay.IsBegun config name) (Stay.IsWhole config name) where
  begin := fun _ h => h.endPause
  hears := by
    intro now station stay tag value hhosts hsound hport h hhears
    unfold Stay.IsTold at h ⊢
    rw [Stay.log_addAll]
    exact h.receive hhears (hport.operandsReady hsound hhosts.busy) value
  leaves := by
    intro now station stay log hhosts h hpending hends
    unfold Stay.IsWhole
    rw [Stay.log_addAll]
    exact Tells.isWhole h hpending hends
  resolves := by
    intro now station stay hhosts h hpending hform
    unfold Stay.IsBegun
    have hsee : ((stay.addAll now [.resolved name stay.instruction]).see now
        station).log = stay.log ++ [.resolved name stay.instruction] :=
      Stay.log_addAll _ _ _
    rw [hsee]
    have hends : Station.Ends name stay.instruction station.address
        [.resolved name stay.instruction, .notTaken name 0 0] :=
      .branched hform .notTaken
    refine ⟨[.notTaken name 0 0], ?_⟩
    rw [List.append_assoc]
    exact Tells.isWhole h hpending hends
  issued := by
    intro m station next _ _
    exact tells_occupied m station next
  steps := by
    intro now station stay port other after log hhosts _ hport h _ hsteps _
    have htold := Tells.steps h hsteps hhosts.name_eq hhosts.instruction
      hport.alone
    rw [← Stay.log_addAll stay now log] at htold
    exact htold
  breaks := by
    intro now station stay port other after log hhosts _ hport h hsteps _
    have hbegun := (Tells.steps h hsteps hhosts.name_eq hhosts.instruction
      hport.alone).isBegun
    rw [← @List.takeWhile_append_dropWhile _ Happening.isTellable log,
      ← List.append_assoc] at hbegun
    have htold := hbegun.of_append
    rw [← Stay.log_addAll stay now] at htold
    exact htold
  misses := fun _ h => Tells.isBegun h
  sofar_behind := fun h => Tells.isBegun h
  sofar_whole := fun h => h.isBegun

/-! ## Instructions at work -/

/-- The number of issues in a log. -/
def issueCount (log : List Happening) : Nat :=
  log.countP (·.kind = .issue)

theorem issueCount_append (log rest : List Happening) :
    issueCount (log ++ rest) = issueCount log + issueCount rest :=
  List.countP_append

theorem issueCount_eq_zero {log : List Happening}
    (h : ∀ happening ∈ log, happening.kind ≠ .issue) : issueCount log = 0 := by
  rw [issueCount, List.countP_eq_zero]
  simpa using h

/-- The number of stations at work. -/
def Bank.busyCount (bank : Bank) : Nat :=
  bank.countP Station.busy

namespace Bank

variable {bank other : Bank}

theorem busyCount_eq (h : other.map Station.busy = bank.map Station.busy) :
    other.busyCount = bank.busyCount := by
  have hcount : ∀ stations : Bank, stations.busyCount =
      (stations.map Station.busy).countP id := by
    intro stations
    rw [busyCount, List.countP_map]
    rfl
  rw [hcount, hcount, h]

theorem busyCount_changeFirst {condition : Station → Bool} {station : Station}
    (h : bank.find? condition = some station) (change : Station → Station) :
    busyCount (bank.changeFirst condition change) + station.busy.toNat =
      bank.busyCount + (change station).busy.toNat :=
  countP_changeFirst Station.busy h change

theorem busyCount_of_isFree (h : bank.isFree = true) : bank.busyCount = 0 := by
  rw [busyCount, List.countP_eq_zero]
  simpa using isFree_iff.mp h

end Bank

namespace Machine

variable {m m' : Machine} {log : List Happening}

theorem busyCount_begin (m : Machine) :
    m.begin.bank.busyCount = m.bank.busyCount :=
  Bank.busyCount_eq (Bank.map_map_of_keeps
    (fun station => (Station.sameWork_endPause station).busy) m.bank)

theorem WritesBack.busyCount_eq (hphase : m.WritesBack m' log)
    (htold : isTold log = true) :
    m'.bank.busyCount + writebackCount log = m.bank.busyCount := by
  rw [hphase.writebackCount_eq htold]
  cases hgranted : m.bank.granted? with
  | none =>
      rw [hphase.eq_self htold hgranted]
      rfl
  | some station =>
      have hreleased := Bank.busyCount_changeFirst hgranted Station.release
      rw [(mem_of_granted? hgranted).2.1] at hreleased
      have hbank : m'.bank.busyCount = m.released.bank.busyCount := by
        rcases hphase.bank_eq htold hgranted with heq | ⟨tag, value, heq⟩
        · rw [heq]
        · rw [heq]
          exact Bank.busyCount_eq
            (Bank.map_map_of_keeps (Station.busy_listen tag value) _)
      rw [hbank]
      exact hreleased

theorem Issues.busyCount_eq (hphase : m.Issues m' log) :
    m'.bank.busyCount = m.bank.busyCount + issueCount log := by
  cases hphase with
  | drained => rfl
  | stalled => rfl
  | @issued next rest station _ hfree =>
      have hchanged := Bank.busyCount_changeFirst hfree (m.occupied · next)
      rw [(mem_of_free? hfree).2.2] at hchanged
      exact hchanged

theorem busyCount_execute (m : Machine) :
    m.execute.1.bank.busyCount = m.bank.busyCount :=
  Bank.busyCount_eq (Bank.map_of_forall₂
    (fun _ _ hstep => hstep.sameWork.busy) (Bank.stepped_execute m.bank _ _))

theorem WritesBack.issueCount_eq (hphase : m.WritesBack m' log)
    (htold : isTold log = true) : issueCount log = 0 := by
  apply issueCount_eq_zero
  intro happening hmem heq
  have houtcome := hphase.isOutcome_of_mem htold hmem
  rw [heq] at houtcome
  nomatch houtcome

theorem issueCount_execute (m : Machine) : issueCount m.execute.2 = 0 := by
  apply issueCount_eq_zero
  intro happening hmem heq
  have hexecution := isExecution_of_mem_execute hmem
  rw [heq] at hexecution
  nomatch hexecution

/-- In a completed cycle as many more stations are set to work than become free
as more issues are told than write-backs. -/
theorem Completes.busyCount_eq (h : m.Completes m' log) :
    m'.bank.busyCount + writebackCount log =
      m.bank.busyCount + issueCount log := by
  cases h with
  | @intro m₁ m₂ written issued hwrites htold hissues hexecuted =>
      have hbegun := m.busyCount_begin
      have hwritten := hwrites.busyCount_eq htold
      have hissued := hissues.busyCount_eq
      have hended := m₂.busyCount_execute
      have hnone := hwrites.issueCount_eq htold
      have hnone' := m₂.issueCount_execute
      have hwritebacks := writebackCount_execute m₂
      have hwritebacks' := hissues.writebackCount_eq
      have hstart : writebackCount [.cycleStarted] = 0 ∧
          issueCount [.cycleStarted] = 0 := ⟨rfl, rfl⟩
      have hsplit : .cycleStarted :: written ++ issued ++ m₂.execute.2 =
          [.cycleStarted] ++ (written ++ (issued ++ m₂.execute.2)) := by
        simp
      rw [hsplit]
      simp only [writebackCount_append, issueCount_append]
      omega

end Machine

/-! ## The life of instructions along a run -/

/-- What is told of a station is told of one instruction after another, all of
which have come to their end but the last. -/
structure Watch.TellsLives (config : Config) (name : String) (watch : Watch) :
    Prop where
  /-- The stays are all that is told of the station. -/
  events_eq : watch.simulation.eventsAt name = watch.diary.events
  whole : ∀ stay ∈ watch.diary.tail, stay.IsWhole config name
  begun : ∀ stay ∈ watch.diary, stay.IsBegun config name
  /-- As long as no cycle is broken off, a station that is free has brought its
  last instruction to an end also. -/
  free : watch.brokenOff = false → ∀ station,
    watch.simulation.machine.bank.station? name = some station →
    station.busy = false → ∀ stay ∈ watch.diary, stay.IsWhole config name
  /-- As many instructions are at work as have been issued and not yet been
  written back. -/
  at_work : watch.brokenOff = false →
    issueCount watch.simulation.happenings =
      writebackCount watch.simulation.happenings +
        watch.simulation.machine.bank.busyCount

theorem Watch.at_work_act {watch : Watch} (name : String)
    (h : watch.brokenOff = false →
      issueCount watch.simulation.happenings =
        writebackCount watch.simulation.happenings +
          watch.simulation.machine.bank.busyCount) (action : Action)
    (hwhole : (watch.act name action).brokenOff = false) :
    issueCount (watch.act name action).simulation.happenings =
      writebackCount (watch.act name action).simulation.happenings +
        (watch.act name action).simulation.machine.bank.busyCount := by
  cases hbroken : watch.brokenOff with
  | true =>
      rw [Watch.act, hbroken, if_pos rfl, hbroken] at hwhole
      contradiction
  | false =>
      have hbefore := h hbroken
      rw [Watch.act, hbroken, if_neg Bool.false_ne_true] at hwhole ⊢
      cases action with
      | load | writeRegister | storeWord | fillBlock => exact hbefore
      | cycle =>
          dsimp only at hwhole ⊢
          have htold : isTold watch.simulation.machine.advance.2 = true := by
            simpa using hwhole
          have hcount := (Machine.completes_advance htold).busyCount_eq
          rw [Simulation.happenings_cycle, Simulation.machine_cycle,
            takeWhile_isTellable_of_isTold htold, issueCount_append,
            writebackCount_append]
          omega

/-- Along every run of a new machine, what is told of each station is told of one
instruction after another, each of them in the order of its life. -/
theorem Simulation.station_tells_lives (config : Config)
    (preload : List (Int × Int)) (actions : List Action) (name : String) :
    ((fresh config preload).watch name actions).TellsLives config name := by
  have hkept :=
    (upkeep_isTold config name).kept_watch preload actions
  refine {
    events_eq := hkept.events_eq.symm
    whole := hkept.closed.1
    begun := hkept.closed.2
    free := ?_
    at_work := ?_ }
  · intro hwhole station hstation hfree
    have hfits := (hkept.fits hwhole).fits hstation
    generalize ((fresh config preload).watch name actions).diary = diary
      at hfits
    cases hfits with
    | free _ hall => exact hall
    | occupied hhosts =>
        rw [hhosts.busy] at hfree
        nomatch hfree
  · clear hkept
    induction actions using List.reverseRecOn with
    | nil =>
        have hnone := Bank.busyCount_of_isFree
          (Machine.isFree_create config preload)
        exact fun _ => ((Nat.zero_add _).trans hnone).symm
    | append_singleton actions action ih =>
        rw [watch_append]
        exact Watch.at_work_act name ih action

end OutOfOrder
