import OutOfOrder.Proofs.InOrder
import OutOfOrder.Proofs.Kept
import OutOfOrder.Proofs.Stages

/-!
# The tenure of the load/store port

A station that has begun to use the port and has not finished owns it, and no
other station does.  Each part of a step keeps that, and so does execution, in
which one station uses the port at most, and one does if one may whose block is
there.
-/

namespace OutOfOrder

namespace Station

variable {station other found began : Station} {ins : Instruction}
  {port after : Port} {geometry : Geometry} {log : List Happening}

/-- The station has begun to use the port and has not finished. -/
structure HasPort (station : Station) : Prop where
  pool : station.pool = .loadStore
  executing : station.executing = true
  resident : station.blockResident = true
  begun : 0 < station.portCycles
  pending : station.resultPending = false

/-- How the use of the port fits the other flags. -/
structure PortSound (station : Station) : Prop where
  nonneg : 0 ≤ station.portCycles
  resident : 0 < station.portCycles → station.blockResident = true
  executing : station.blockResident = true → station.executing = true
  memory : station.blockResident = true →
    ∃ ins, station.instruction? = some ins ∧ ins.opcode.isMemory = true
  alone : station.LoadsAlone

/-- A station that has begun to use the port and has not finished is in the
midst of an access. -/
theorem PortSound.hasPort (hport : station.PortSound) (hsound : station.Sound)
    (hbegun : 0 < station.portCycles) (hpending : station.resultPending = false) :
    station.HasPort := by
  have hresident := hport.resident hbegun
  have hbusy : station.busy = true := by
    by_contra hfree
    rw [hsound.free (by simpa using hfree)] at hbegun
    exact absurd hbegun (Int.lt_irrefl 0)
  obtain ⟨held, hheld, hmemory⟩ := hport.memory hresident
  obtain ⟨working, hworking, hprogress⟩ := hsound.working hbusy
  cases hheld.symm.trans hworking
  exact {
    pool := hprogress.pool.trans (Opcode.pool_of_isMemory hmemory)
    executing := hport.executing hresident
    resident := hresident
    begun := hbegun
    pending := hpending }

/-! ## What a step does at the port -/

theorem Finds.portSound (h : station.Finds ins found log)
    (hport : station.PortSound) : found.PortSound := by
  cases h with
  | nothing => exact hport
  | address => exact { hport with }

theorem PortSound.of_idle (hport : station.PortSound)
    (hidle : station.executing = false) :
    station.blockResident = false ∧ station.portCycles = 0 := by
  have hmissing : station.blockResident = false := by
    cases hresident : station.blockResident with
    | false => rfl
    | true =>
        rw [hport.executing hresident] at hidle
        nomatch hidle
  refine ⟨hmissing, ?_⟩
  by_contra hne
  have hnonneg := hport.nonneg
  rw [hport.resident (by omega)] at hmissing
  nomatch hmissing

theorem Starts.portSound (h : station.Starts ins geometry began log)
    (hport : station.PortSound) (hidle : station.executing = false)
    (hins : station.instruction? = some ins) : began.PortSound := by
  have hzero := (hport.of_idle hidle).2
  cases h with
  | computing => exact { hport with executing := fun _ => rfl }
  | resident hmemory =>
      exact {
        nonneg := hport.nonneg
        resident := fun _ => rfl
        executing := fun _ => rfl
        memory := fun _ => ⟨ins, hins, hmemory⟩
        alone := hport.alone }
  | missing =>
      exact {
        nonneg := hport.nonneg
        resident := fun hbegun => absurd hbegun (by dsimp only; omega)
        executing := fun _ => rfl
        memory := fun hresident => nomatch hresident
        alone := hport.alone }

theorem Counts.portSound (h : station.Counts ins port other after log)
    (hport : station.PortSound) (hexecuting : station.executing = true)
    (hins : station.instruction? = some ins) : other.PortSound := by
  have hnonneg := hport.nonneg
  cases h with
  | computes | computed | awaits => exact { hport with }
  | filled hmemory =>
      exact { hport with
        resident := fun _ => rfl
        executing := fun _ => hexecuting
        memory := fun _ => ⟨ins, hins, hmemory⟩ }
  | stands => exact hport
  | uses _ hresident | finishes _ hresident =>
      exact { hport with
        nonneg := by dsimp only; omega
        resident := fun _ => hresident }

/-- What a step does to the port: it passes the port on, keeps it for the next
cycle, or gives it back as it finishes. -/
inductive PortTurn (station : Station) (port : Port) (other : Station) :
    Port → List Happening → Prop where
  | passed {log : List Happening}
      (hcycles : other.portCycles = station.portCycles)
      (hsame : 0 < station.portCycles → other = station)
      (hclosed : station.rests = false → station.blockResident = true →
        port.isOpenTo station.name = false) :
      PortTurn station port other port log
  | kept {log : List Happening} (hrests : station.rests = false)
      (hopen : port.isOpenTo station.name = true)
      (hcycles : other.portCycles = station.portCycles + 1)
      (hport : other.HasPort)
      (hlog : ∀ ins, .finished station.name ins ∉ log) :
      PortTurn station port other ⟨some station.name, true⟩ log
  | returned {ins : Instruction} {log : List Happening}
      (hrests : station.rests = false)
      (hopen : port.isOpenTo station.name = true)
      (hcycles : other.portCycles = station.portCycles + 1)
      (hpending : other.resultPending = true)
      (hlog : .finished station.name ins ∈ log) :
      PortTurn station port other ⟨none, true⟩ log

theorem Counts.portTurn (h : station.Counts ins port other after log)
    (hport : station.PortSound) (hrests : station.rests = false)
    (hexecuting : station.executing = true)
    (hpool : ins.opcode.isMemory = true → station.pool = .loadStore)
    (hins : station.instruction? = some ins) :
    station.PortTurn port other after log := by
  have hpending := (rests_eq_false_iff.mp hrests).2.2
  -- who has used the port works on a memory access whose block is there
  have harithmetic : ins.opcode.isMemory = false →
      station.blockResident = true → False := by
    intro hmemory hresident
    obtain ⟨held, hheld, haccess⟩ := hport.memory hresident
    cases hins.symm.trans hheld
    rw [hmemory] at haccess
    nomatch haccess
  have hmissing : station.blockResident = false →
      station.blockResident = true → False := by
    intro hmissing hresident
    rw [hmissing] at hresident
    nomatch hresident
  cases h with
  | computes hmemory | computed hmemory =>
      exact .passed rfl (fun h => (harithmetic hmemory (hport.resident h)).elim)
        fun _ h => (harithmetic hmemory h).elim
  | awaits _ haway | filled _ haway =>
      exact .passed rfl (fun h => (hmissing haway (hport.resident h)).elim)
        fun _ h => (hmissing haway h).elim
  | stands _ _ hclosed => exact .passed rfl (fun _ => rfl) fun _ _ => hclosed
  | uses hmemory hresident hopen =>
      have hnonneg := hport.nonneg
      refine .kept hrests hopen rfl ?_ fun _ hmem => nomatch hmem
      exact {
        pool := hpool hmemory
        executing := hexecuting
        resident := hresident
        begun := by dsimp only; omega
        pending := hpending }
  | finishes _ _ hopen =>
      exact .returned hrests hopen rfl rfl List.mem_cons_self

/-- What is done at the port in a step does not depend on what the station did
before, if it had not started. -/
theorem PortTurn.of_idle (h : began.PortTurn port other after log)
    (hname : began.name = station.name)
    (hcycles : began.portCycles = station.portCycles)
    (hidle : station.blockResident = false ∧ station.portCycles = 0)
    (hrests : station.rests = false) {past : List Happening}
    (hpast : ∀ ins, .finished station.name ins ∉ past) :
    station.PortTurn port other after (past ++ log) := by
  cases h with
  | passed hsame _ _ =>
      refine .passed (hsame.trans hcycles) (fun h => ?_) fun _ h => ?_
      · omega
      · rw [hidle.1] at h
        nomatch h
  | kept _ hopen hmore hport hlog =>
      rw [hname] at hopen hlog ⊢
      refine .kept hrests hopen (hcycles ▸ hmore) hport fun ins hmem => ?_
      rcases List.mem_append.mp hmem with hmem | hmem
      · exact hpast ins hmem
      · exact hlog ins hmem
  | returned _ hopen hmore hpending hlog =>
      rw [hname] at hopen hlog
      exact .returned hrests hopen (hcycles ▸ hmore) hpending
        (List.mem_append_right _ hlog)

theorem Finds.frame (h : station.Finds ins found log) :
    station.SameWork found ∧ found.portCycles = station.portCycles ∧
      (found.rests = station.rests) ∧
      ∀ name other, .finished name other ∉ log := by
  cases h with
  | nothing => exact ⟨.refl _, rfl, rfl, fun _ _ hmem => nomatch hmem⟩
  | address =>
      refine ⟨⟨rfl, rfl, rfl, rfl, rfl, rfl⟩, rfl, rfl, fun _ _ hmem => ?_⟩
      simp at hmem

theorem Starts.frame (h : station.Starts ins geometry began log) :
    station.SameWork began ∧ began.portCycles = station.portCycles ∧
      (began.rests = station.rests) ∧ began.executing = true ∧
      ∀ name other, .finished name other ∉ log := by
  cases h with
  | computing | missing =>
      refine ⟨⟨rfl, rfl, rfl, rfl, rfl, rfl⟩, rfl, rfl, rfl, fun _ _ hmem => ?_⟩
      simp at hmem
  | resident _ _ hway =>
      refine ⟨⟨rfl, rfl, rfl, rfl, rfl, rfl⟩, rfl, rfl, rfl, fun _ _ hmem => ?_⟩
      rcases hway with rfl | ⟨-, rfl⟩
      · simp at hmem
      · simp at hmem

theorem Steps.portTurn (h : station.Steps port geometry other after log)
    (hsound : station.Sound) (hport : station.PortSound) :
    station.PortTurn port other after log ∧ other.PortSound := by
  have hpool : ∀ {ins}, station.rests = false →
      station.instruction? = some ins → ins.opcode.isMemory = true →
      station.pool = .loadStore := by
    intro ins hrests hins hmemory
    obtain ⟨held, hheld, hprogress⟩ :=
      hsound.working (rests_eq_false_iff.mp hrests).1
    cases hins.symm.trans hheld
    exact hprogress.pool.trans (Opcode.pool_of_isMemory hmemory)
  cases h with
  | rests hrests =>
      refine ⟨.passed rfl (fun _ => rfl) fun hawake => ?_, hport⟩
      rw [hrests] at hawake
      nomatch hawake
  | waits hrests hins hidle hfinds =>
      obtain ⟨hmissing, hzero⟩ := hport.of_idle hidle
      refine ⟨.passed hfinds.frame.2.1 (fun h => ?_) fun _ h => ?_,
        hfinds.portSound hport⟩
      · omega
      · rw [hmissing] at h
        nomatch h
  | breaks hrests hins hidle _ hfinds hstarts _ _ =>
      obtain ⟨hmissing, hzero⟩ := hport.of_idle hidle
      have hins' := hfinds.frame.1.instruction?.trans hins
      refine ⟨.passed (hstarts.frame.2.1.trans hfinds.frame.2.1) (fun h => ?_)
        fun _ h => ?_, hstarts.portSound (hfinds.portSound hport)
          (hfinds.executing_eq.trans hidle) hins'⟩
      · omega
      · rw [hmissing] at h
        nomatch h
  | begins hrests hins hidle _ hfinds hstarts _ hcounts =>
      obtain ⟨hfound, hfoundCycles, hfoundRests, hfoundLog⟩ := hfinds.frame
      obtain ⟨hbegan, hbeganCycles, hbeganRests, hexecuting, hbeganLog⟩ :=
        hstarts.frame
      have hins' := hfound.instruction?.trans hins
      have hins'' := hbegan.instruction?.trans hins'
      have hsame := hfound.trans hbegan
      have hsound' := hstarts.portSound (hfinds.portSound hport)
        (hfinds.executing_eq.trans hidle) hins'
      have hawake := hbeganRests.trans (hfoundRests.trans hrests)
      have hturn := hcounts.portTurn hsound' hawake hexecuting
        (fun hmemory => hsame.pool.trans (hpool hrests hins hmemory)) hins''
      refine ⟨hturn.of_idle hsame.name (hbeganCycles.trans hfoundCycles)
        (hport.of_idle hidle) hrests fun ins hmem => ?_,
          hcounts.portSound hsound' hexecuting hins''⟩
      rcases List.mem_append.mp hmem with hmem | hmem
      · exact hfoundLog _ ins hmem
      · exact hbeganLog _ ins hmem
  | goesOn hrests hins hexecuting hcounts =>
      exact ⟨hcounts.portTurn hport hrests hexecuting (hpool hrests hins) hins,
        hcounts.portSound hport hexecuting hins⟩

/-- Who owned the port before is known, so it is behind a turn. -/
theorem PortTurn.owner_iff (h : station.PortTurn port other after log)
    (hbefore : port.owner = some station.name ↔ station.HasPort) :
    after.owner = some station.name ↔ other.HasPort := by
  cases h with
  | passed hcycles hsame =>
      rw [hbefore]
      constructor
      · intro hport
        rw [hsame hport.begun]
        exact hport
      · intro hport
        have hbegun := hport.begun
        rw [hcycles] at hbegun
        rw [← hsame hbegun]
        exact hport
  | kept _ _ _ hport => exact ⟨fun _ => hport, fun _ => rfl⟩
  | returned _ _ _ hpending =>
      constructor
      · intro howner
        nomatch howner
      · intro hport
        rw [hport.pending] at hpending
        nomatch hpending

/-- A port that another station keeps is passed on. -/
theorem PortTurn.eq_of_owner {name : String}
    (h : station.PortTurn port other after log)
    (howner : port.owner = some name) (hne : station.name ≠ name) :
    after = port := by
  have hclosed : port.isOpenTo station.name = false := by
    simp [Port.isOpenTo, howner, hne.symm]
  cases h with
  | passed => rfl
  | kept _ hopen | returned _ hopen =>
      rw [hclosed] at hopen
      contradiction

theorem PortTurn.owner_iff_of_ne {name : String}
    (h : station.PortTurn port other after log) (hne : station.name ≠ name) :
    after.owner = some name ↔ port.owner = some name := by
  constructor
  · intro hafter
    cases h with
    | passed => exact hafter
    | kept => exact absurd (Option.some.inj hafter) hne
    | returned => nomatch hafter
  · intro howner
    rw [h.eq_of_owner howner hne, howner]

theorem portTurn_execute (hsound : station.Sound) (hport : station.PortSound)
    (port : Port) (cache : Cache) :
    station.PortTurn port (station.execute port cache).station
        (station.execute port cache).port (station.execute port cache).log ∧
      (station.execute port cache).station.PortSound :=
  (steps_execute hsound hport.alone port cache).portTurn hsound hport

end Station

namespace Bank

variable {bank : Bank} {port : Port} {cache : Cache} {name : String}

/-! ## The owner of the port -/

theorem owner_execute_of_not_mem
    (hsound : ∀ station ∈ bank, station.Sound ∧ station.PortSound)
    (h : name ∉ bank.map Station.name) :
    (bank.execute port cache).2.1.owner = some name ↔
      port.owner = some name := by
  induction bank generalizing port cache with
  | nil => exact Iff.rfl
  | cons station rest ih =>
      obtain ⟨⟨hstation, hport⟩, hothers⟩ := List.forall_mem_cons.mp hsound
      have hne : station.name ≠ name := fun heq => h (heq ▸ List.mem_cons_self)
      have hrest : name ∉ rest.map Station.name :=
        fun hmem => h (List.mem_cons_of_mem _ hmem)
      have hstep := (Station.portTurn_execute hstation hport port
        cache).1.owner_iff_of_ne hne
      cases htold : isTold (station.execute port cache).log with
      | false =>
          rw [execute_cons_of_untold htold]
          exact hstep
      | true =>
          rw [execute_cons_of_told htold]
          exact (ih hothers hrest).trans hstep

/-- The port belongs to who has begun to use it, and so it is behind
execution. -/
theorem owner_iff_execute (hdistinct : bank.Distinct)
    (hsound : ∀ station ∈ bank, station.Sound ∧ station.PortSound)
    (hbefore : ∀ station ∈ bank,
      port.owner = some station.name ↔ station.HasPort) :
    ∀ station ∈ (bank.execute port cache).1,
      (bank.execute port cache).2.1.owner = some station.name ↔
        station.HasPort := by
  induction bank generalizing port cache with
  | nil => exact fun _ hmem => nomatch hmem
  | cons station rest ih =>
      have hnodup := List.nodup_cons.mp hdistinct
      obtain ⟨⟨hstation, hport⟩, hothers⟩ := List.forall_mem_cons.mp hsound
      obtain ⟨hturn, -⟩ := Station.portTurn_execute hstation hport port cache
      have hname := (Station.sameWork_execute station port cache).name
      have hfirst := hturn.owner_iff (hbefore station List.mem_cons_self)
      have hrest : ∀ next ∈ rest,
          (station.execute port cache).port.owner = some next.name ↔
            next.HasPort := by
        intro next hmem
        rw [hturn.owner_iff_of_ne fun heq =>
          hnodup.1 (heq ▸ List.mem_map_of_mem hmem)]
        exact hbefore next (List.mem_cons_of_mem _ hmem)
      cases htold : isTold (station.execute port cache).log with
      | false =>
          rw [execute_cons_of_untold htold]
          exact List.forall_mem_cons.mpr ⟨hname ▸ hfirst, hrest⟩
      | true =>
          rw [execute_cons_of_told htold]
          refine List.forall_mem_cons.mpr ⟨?_, ih hnodup.2 hothers hrest⟩
          dsimp only
          rw [owner_execute_of_not_mem hothers (hname ▸ hnodup.1), hname]
          exact hfirst

/-! ## The user of the port -/

/-- The user has used the port for one more cycle, and nobody else has. -/
def GivesPortTo (user : Option String) (bank other : Bank) : Prop :=
  List.Forall₂ (fun station other => other.name = station.name ∧
    ((user = some station.name ∧ station.rests = false ∧
        other.portCycles = station.portCycles + 1) ∨
      (user ≠ some station.name ∧
        other.portCycles = station.portCycles))) bank other

theorem givesPortTo_none {other : Bank} (h : GivesPortTo none bank other)
    {user : String} (huser : user ∉ bank.map Station.name) :
    GivesPortTo (some user) bank other := by
  induction h with
  | nil => exact .nil
  | @cons station other rest rest' hfirst _ ih =>
      have hne : some user ≠ some station.name := fun heq =>
        huser (Option.some.inj heq ▸ List.mem_cons_self)
      refine .cons ⟨hfirst.1, .inr ⟨hne, ?_⟩⟩
        (ih fun hmem => huser (List.mem_cons_of_mem _ hmem))
      rcases hfirst.2 with ⟨hnone, -⟩ | ⟨-, hcycles⟩
      · nomatch hnone
      · exact hcycles

theorem givesPortTo_refl (bank : Bank) : GivesPortTo none bank bank :=
  List.forall₂_same.mpr fun _ _ => ⟨rfl, .inr ⟨nofun, rfl⟩⟩

/-- A station that uses the port in its turn leaves it to nobody behind it, and
any other one passes it on. -/
theorem exists_givesPortTo_cons {station other : Station} {rest others : Bank}
    {after : Port} {log : List Happening} {next : Option String}
    (hturn : station.PortTurn port other after log)
    (hname : other.name = station.name)
    (hfresh : station.name ∉ rest.map Station.name)
    (hrest : GivesPortTo next rest others)
    (hnext : ∀ name, next = some name →
      after.used = false ∧ name ∈ rest.map Station.name) :
    ∃ user : Option String,
      GivesPortTo user (station :: rest) (other :: others) ∧
      (∀ name, user = some name →
        port.used = false ∧ name ∈ (station :: rest).map Station.name) ∧
      (user = none → next = none ∧ after = port ∧
        (station.rests = false → station.blockResident = true →
          port.isOpenTo station.name = false)) := by
  cases hturn with
  | kept hrests hopen hcycles | returned hrests hopen hcycles =>
      have hnone : next = none := by
        cases hsome : next with
        | none => rfl
        | some name => nomatch (hnext name hsome).1
      rw [hnone] at hrest
      refine ⟨some station.name, ?_, fun name hsome => ?_,
        fun h => absurd h (Option.some_ne_none _)⟩
      · exact .cons ⟨hname, .inl ⟨rfl, hrests, hcycles⟩⟩
          (givesPortTo_none hrest hfresh)
      · rw [Port.isOpenTo, Bool.and_eq_true, Bool.not_eq_true'] at hopen
        exact ⟨hopen.1, Option.some.inj hsome ▸ List.mem_cons_self⟩
  | passed hcycles _ hclosed =>
      have hother : next ≠ some station.name :=
        fun heq => hfresh (hnext _ heq).2
      refine ⟨next, .cons ⟨hname, .inr ⟨hother, hcycles⟩⟩ hrest,
        fun name hsome => ?_, fun hnone => ⟨hnone, rfl, hclosed⟩⟩
      exact ⟨(hnext name hsome).1, List.mem_cons_of_mem _ (hnext name hsome).2⟩

/-- One station uses the port at most.  One does if a station may whose block is
there, unless execution is broken off. -/
theorem exists_givesPortTo (hdistinct : bank.Distinct)
    (hsound : ∀ station ∈ bank, station.Sound ∧ station.PortSound) :
    ∃ user : Option String, GivesPortTo user bank (bank.execute port cache).1 ∧
      (∀ name, user = some name →
        port.used = false ∧ name ∈ bank.map Station.name) ∧
      (isTold (bank.execute port cache).2.2.2 = true →
        (∃ station ∈ bank, station.rests = false ∧
          station.blockResident = true ∧
          port.isOpenTo station.name = true) → user ≠ none) := by
  induction bank generalizing port cache with
  | nil =>
      refine ⟨none, .nil, by simp, fun _ hwants => ?_⟩
      obtain ⟨_, hmem, -⟩ := hwants
      contradiction
  | cons station rest ih =>
      have hnodup := List.nodup_cons.mp hdistinct
      obtain ⟨⟨hstation, hport⟩, hothers⟩ := List.forall_mem_cons.mp hsound
      obtain ⟨hturn, -⟩ := Station.portTurn_execute hstation hport port cache
      have hname := (Station.sameWork_execute station port cache).name
      cases htold : isTold (station.execute port cache).log with
      | false =>
          obtain ⟨user, hgives, huser, -⟩ := exists_givesPortTo_cons hturn hname
            hnodup.1 (givesPortTo_refl rest) nofun
          rw [execute_cons_of_untold htold]
          refine ⟨user, hgives, huser, fun hall => ?_⟩
          exact absurd (htold.symm.trans hall) Bool.false_ne_true
      | true =>
          obtain ⟨next, hrest, hnext, hwanted⟩ := @ih
            (station.execute port cache).port (station.execute port cache).cache
            hnodup.2 hothers
          obtain ⟨user, hgives, huser, hpassed⟩ :=
            exists_givesPortTo_cons hturn hname hnodup.1 hrest hnext
          rw [execute_cons_of_told htold]
          refine ⟨user, hgives, huser, fun hall hwants hnone => ?_⟩
          dsimp only at hall
          rw [isTold_append, Bool.and_eq_true] at hall
          obtain ⟨hnobody, hport, hclosed⟩ := hpassed hnone
          obtain ⟨wanting, hmem, hrests, hresident, hopen⟩ := hwants
          rcases List.mem_cons.mp hmem with rfl | hmem
          · rw [hclosed hrests hresident] at hopen
            contradiction
          · rw [← hport] at hopen
            exact hwanted hall.2 ⟨wanting, hmem, hrests, hresident, hopen⟩
              hnobody

end Bank

end OutOfOrder
