import OutOfOrder.Proofs.Attempt
import OutOfOrder.Proofs.Residency

/-!
# Hits and fills

If a miss has a penalty, a block comes into the cache only when some access has
waited for it, which is told as its fill.  A write-back brings in a block that
its store waited for before, even if the line has lost it in between.  So no
access hits a block of which no fill was told.

A step needs for that what was told before it: of the blocks that the lines hold,
and of the block of its station, if that is there.  A fill can be told, as the
address was told when it was found.
-/

namespace OutOfOrder

/-- No hit is told. -/
def IsQuiet (log : List Happening) : Prop :=
  ∀ happening ∈ log, happening.kind ≠ .cacheHit

theorem isQuiet_nil : IsQuiet [] :=
  fun _ hmem => nomatch hmem

theorem IsQuiet.takeWhile {log : List Happening} (h : IsQuiet log) :
    IsQuiet (log.takeWhile Happening.isTellable) :=
  fun happening hmem => h happening ((List.takeWhile_sublist _).mem hmem)

namespace Geometry

/-! ## What was told of blocks -/

/-- A fill of the block was told. -/
def IsFilledIn (geometry : Geometry) (log : List Happening) (block : Int) :
    Prop :=
  ∃ name address, .filled name address ∈ log ∧
    geometry.blockOf address = block

/-- Every hit was told behind a fill of its block. -/
def HitsFilled (geometry : Geometry) (log : List Happening) : Prop :=
  ∀ front name address back, log = front ++ .hit name address :: back →
    geometry.IsFilledIn front (geometry.blockOf address)

variable {geometry : Geometry} {log rest past : List Happening} {block : Int}

theorem IsFilledIn.append (h : geometry.IsFilledIn log block)
    (rest : List Happening) : geometry.IsFilledIn (log ++ rest) block := by
  obtain ⟨name, address, hmem, hblock⟩ := h
  exact ⟨name, address, List.mem_append_left rest hmem, hblock⟩

/-- A hit of the whole is a hit of the first part, or one of the second behind
the first. -/
theorem HitsFilled.append (h : geometry.HitsFilled log)
    (hrest : ∀ front name address back,
      rest = front ++ .hit name address :: back →
        geometry.IsFilledIn (log ++ front) (geometry.blockOf address)) :
    geometry.HitsFilled (log ++ rest) := by
  intro front name address back hsplit
  rcases List.append_eq_append_iff.mp hsplit with
    ⟨middle, rfl, hback⟩ | ⟨middle, hfront, hback⟩
  · exact hrest middle name address back hback
  · cases middle with
    | nil =>
        rw [List.append_nil] at hfront
        have hfirst := hrest [] name address back hback.symm
        rwa [List.append_nil, hfront] at hfirst
    | cons happening middle =>
        cases hback
        exact h front name address middle hfront

/-- A block that was filled may be hit, and an access to it start. -/
theorem HitsFilled.append_hit (h : geometry.HitsFilled log) {name : String}
    {address : Int} (hfilled : geometry.IsFilledIn log (geometry.blockOf address))
    (ins : Instruction) :
    geometry.HitsFilled (log ++ [.hit name address, .started name ins]) := by
  refine h.append ?_
  intro front other hit back hsplit
  -- the one hit is the first that is told
  cases front with
  | nil =>
      cases hsplit
      rwa [List.append_nil]
  | cons first front =>
      have hrest := (List.cons.inj hsplit).2
      cases front with
      | nil => cases (List.cons.inj hrest).1
      | cons => simp at hrest

/-- What the lines of a cache hold was filled, as was every block that was
hit. -/
structure Backs (geometry : Geometry) (past : List Happening) (cache : Cache) :
    Prop where
  geometry_eq : cache.geometry = geometry
  hits : geometry.HitsFilled past
  lines : ∀ block, some block ∈ cache.lines.toList →
    geometry.IsFilledIn past block

variable {cache other : Cache}

/-- Where no hit is told, it is enough that new blocks in the lines were
filled. -/
theorem Backs.append (h : geometry.Backs past cache)
    (hgeometry : other.geometry = cache.geometry)
    (hquiet : IsQuiet log)
    (hlines : ∀ block, some block ∈ other.lines.toList →
      some block ∈ cache.lines.toList ∨
        geometry.IsFilledIn (past ++ log) block) :
    geometry.Backs (past ++ log) other where
  geometry_eq := hgeometry.trans h.geometry_eq
  hits := h.hits.append fun front name address back hsplit => by
    have hhit : .hit name address ∈ log := by
      rw [hsplit]
      exact List.mem_append_right front List.mem_cons_self
    exact absurd rfl (hquiet _ hhit)
  lines := fun block hmem => by
    rcases hlines block hmem with hbefore | hfilled
    · exact (h.lines block hbefore).append log
    · exact hfilled

/-- As long as neither a hit nor a new block comes, nothing is to be shown. -/
theorem Backs.append_quiet (h : geometry.Backs past cache)
    (hquiet : IsQuiet log) : geometry.Backs (past ++ log) cache :=
  h.append rfl hquiet fun _ => .inl

end Geometry

namespace Cache

variable {cache : Cache} {block : Int}

theorem mem_lines_fillBlock {address : Int}
    (h : some block ∈ (cache.fillBlock address).lines.toList) :
    some block ∈ cache.lines.toList ∨
      block = cache.geometry.blockOf address := by
  have hlines : (cache.fillBlock address).lines.toList =
      cache.lines.toList.set (cache.geometry.lineOf address)
        (some (cache.geometry.blockOf address)) :=
    Vector.toList_set (cache.geometry.lineOf address).isLt
  rw [hlines] at h
  rcases List.mem_or_eq_of_mem_set h with hmem | heq
  · exact .inl hmem
  · exact .inr (Option.some.inj heq)

theorem mem_lines_of_isResident {address : Int}
    (h : cache.isResident address = true) :
    some (cache.geometry.blockOf address) ∈ cache.lines.toList := by
  rw [← of_decide_eq_true h, Vector.mem_toList_iff]
  exact Vector.getElem_mem _

theorem mem_lines_writeWord {address value : Int}
    (h : some block ∈ (cache.writeWord address value).lines.toList) :
    some block ∈ cache.lines.toList ∨
      block = cache.geometry.blockOf address := by
  obtain ⟨hits, misses, hprobe, -⟩ := cache.probe_eq address
  rw [writeWord_eq, hprobe] at h
  by_cases hstays : cache.geometry.missPenalty = 0 ∨
      cache.isResident address = true
  · rw [if_pos hstays] at h
    exact .inl h
  · rw [if_neg hstays] at h
    exact mem_lines_fillBlock h

end Cache

/-! ## What a step tells -/

namespace Station

/-- The block of an access that has it was filled, and an address that was found
can be told. -/
structure Backed (geometry : Geometry) (past : List Happening)
    (station : Station) : Prop where
  resident : station.blockResident = true →
    geometry.IsFilledIn past (geometry.blockOf station.address)
  writable : station.addressReady = true →
    Numeral.isWritable station.address = true

/-- What a step brings in or hits was filled, and behind a step of which all is
told it is so with its station. -/
structure Step.Backed (geometry : Geometry) (past : List Happening)
    (step : Step) : Prop where
  cache : geometry.Backs
    (past ++ step.log.takeWhile Happening.isTellable) step.cache
  station : isTold step.log = true →
    Station.Backed geometry (past ++ step.log) step.station

variable {geometry : Geometry} {past log : List Happening}
  {station other : Station} {ins : Instruction} {port : Port} {cache : Cache}

theorem Backed.append (h : station.Backed geometry past)
    (log : List Happening) : station.Backed geometry (past ++ log) where
  resident := fun hresident => (h.resident hresident).append log
  writable := h.writable

theorem Backed.of_kept (h : station.Backed geometry past)
    (hkept : station.Kept other) : other.Backed geometry past := by
  obtain ⟨_, _, _, rfl⟩ := hkept
  exact ⟨h.resident, h.writable⟩

theorem Backed.of_same (h : station.Backed geometry past)
    (haddress : other.address = station.address)
    (hready : other.addressReady = station.addressReady)
    (hresident : other.blockResident = station.blockResident) :
    other.Backed geometry past where
  resident := by rw [haddress, hresident]; exact h.resident
  writable := by rw [haddress, hready]; exact h.writable

/-- A station that has no address and no block needs nothing. -/
theorem backed_of_fresh (hready : station.addressReady = false)
    (hresident : station.blockResident = false) :
    station.Backed geometry past where
  resident := fun h => by rw [hresident] at h; contradiction
  writable := fun h => by rw [hready] at h; contradiction

theorem Backed.step_of_same (h : station.Backed geometry past)
    (hcache : geometry.Backs past cache) (hquiet : IsQuiet log)
    (haddress : other.address = station.address)
    (hready : other.addressReady = station.addressReady)
    (hresident : other.blockResident = station.blockResident) :
    Step.Backed geometry past ⟨other, port, cache, log⟩ where
  cache := hcache.append_quiet hquiet.takeWhile
  station := fun _ => (h.of_same haddress hready hresident).append log

theorem isWritable_of_told {name : String} {address : Int}
    (h : isTold [.addressed name address] = true) :
    Numeral.isWritable address = true := by
  simpa [isTold, Happening.isTellable, Happening.obstacle?,
    Happening.numbers] using h

theorem Backed.findAddress (h : station.Backed geometry past)
    (ins : Instruction)
    (hfresh : station.addressReady = false → station.blockResident = false)
    (htold : isTold (station.findAddress ins).2 = true) :
    (station.findAddress ins).1.Backed geometry
      (past ++ (station.findAddress ins).2) := by
  unfold Station.findAddress at htold ⊢
  split
  · exact h.append []
  · next hlacks =>
      rw [if_neg hlacks] at htold
      have hnone : station.addressReady = false := by
        simp only [Bool.or_eq_true, not_or] at hlacks
        simpa using hlacks.1
      refine ⟨fun hresident => ?_, fun _ => ?_⟩
      · dsimp only at hresident
        rw [hfresh hnone] at hresident
        exact absurd hresident Bool.false_ne_true
      · exact isWritable_of_told htold

theorem addressReady_startAccess (station : Station) (ins : Instruction)
    (cache : Cache) :
    (station.startAccess ins cache).1.addressReady = station.addressReady := by
  unfold startAccess
  dsimp only
  split <;> rfl

/-- An access that starts hits a block that was filled, or has to wait. -/
theorem Backed.startAccess (h : station.Backed geometry past)
    (hcache : geometry.Backs past cache)
    (hpenalty : 0 < geometry.missPenalty)
    (hready : station.addressReady = true) (ins : Instruction) (port : Port) :
    Step.Backed geometry past
      ⟨(station.startAccess ins cache).1, port,
        (station.startAccess ins cache).2.1,
        (station.startAccess ins cache).2.2⟩ := by
  obtain rfl := hcache.geometry_eq
  have hwritable := h.writable hready
  unfold Station.startAccess Cache.probe
  cases hresident : cache.isResident station.address with
  | true =>
      have hfilled := hcache.lines _ (Cache.mem_lines_of_isResident hresident)
      have htold : isTold [.hit station.name station.address,
          .started station.name ins] = true := by
        simp [isTold, Happening.isTellable, Happening.obstacle?,
          Happening.numbers, hwritable]
      refine ⟨?_, fun _ => ⟨fun _ => hfilled.append _, fun _ => hwritable⟩⟩
      simp only [if_true]
      rw [takeWhile_isTellable_of_isTold htold]
      refine ⟨rfl, hcache.hits.append_hit hfilled ins, fun block hmem => ?_⟩
      rcases Cache.mem_lines_fillBlock hmem with hbefore | rfl
      · exact (hcache.lines block hbefore).append _
      · exact hfilled.append _
  | false =>
      have hmissing : cache.geometry.missPenalty ≠ 0 := by omega
      simp only [Bool.false_eq_true, if_false, if_neg hmissing]
      have hquiet : IsQuiet [.missed station.name station.address
          cache.geometry.missPenalty, .started station.name ins] := by
        simp [IsQuiet, Happening.kind]
      refine ⟨hcache.append rfl hquiet.takeWhile fun _ => .inl, fun _ => ?_⟩
      exact ⟨fun hresident => absurd hresident Bool.false_ne_true,
        fun _ => hwritable⟩

theorem Backed.compute (h : station.Backed geometry past)
    (hcache : geometry.Backs past cache) :
    Step.Backed geometry past
      ⟨(station.compute ins).1, port, cache, (station.compute ins).2⟩ := by
  have hstarted : IsQuiet
      (if station.executing then [] else [.started station.name ins]) := by
    split <;> simp [IsQuiet, Happening.kind]
  unfold Station.compute
  split
  · exact h.step_of_same hcache isQuiet_nil rfl rfl rfl
  · dsimp only
    split
    · refine h.step_of_same hcache ?_ rfl rfl rfl
      exact List.forall_mem_append.mpr
        ⟨hstarted, by simp [Happening.kind]⟩
    · exact h.step_of_same hcache hstarted rfl rfl rfl

/-- At the port nothing is hit, and the access stays the same. -/
theorem Backed.usePort (h : station.Backed geometry past)
    (hcache : geometry.Backs past cache) :
    Step.Backed geometry past
      ⟨(station.usePort ins port).1, (station.usePort ins port).2.1, cache,
        (station.usePort ins port).2.2⟩ := by
  unfold Station.usePort
  dsimp only
  split
  · exact h.step_of_same hcache isQuiet_nil rfl rfl rfl
  · generalize (if 0 < station.cacheRemaining then station.remaining
      else countDown station.remaining) = remaining
    split
    · refine h.step_of_same hcache ?_ rfl rfl rfl
      simp [IsQuiet, Happening.kind]
    · exact h.step_of_same hcache isQuiet_nil rfl rfl rfl

/-- An access that goes on tells of the block that it brings in. -/
theorem Backed.continueAccess (h : station.Backed geometry past)
    (hcache : geometry.Backs past cache)
    (hready : station.addressReady = true) (ins : Instruction) (port : Port) :
    Step.Backed geometry past (station.continueAccess ins port cache) := by
  obtain rfl := hcache.geometry_eq
  have hwritable := h.writable hready
  unfold Station.continueAccess
  split
  · exact h.usePort hcache
  · unfold Station.awaitBlock
    dsimp only
    split
    · have htold : isTold [.filled station.name station.address] = true := by
        simp [isTold, Happening.isTellable, Happening.obstacle?,
          Happening.numbers, hwritable]
      have hfilled : cache.geometry.IsFilledIn
          (past ++ [.filled station.name station.address])
          (cache.geometry.blockOf station.address) :=
        ⟨_, _, List.mem_append_right past List.mem_cons_self, rfl⟩
      refine ⟨?_, fun _ => ⟨fun _ => hfilled, fun _ => hwritable⟩⟩
      dsimp only
      rw [takeWhile_isTellable_of_isTold htold]
      refine hcache.append rfl ?_ fun block hmem => ?_
      · simp [IsQuiet, Happening.kind]
      · rcases Cache.mem_lines_fillBlock hmem with hbefore | rfl
        · exact .inl hbefore
        · exact .inr hfilled
    · exact h.step_of_same hcache isQuiet_nil rfl rfl rfl

/-- A step is backed whose first part is told and whose second part is backed. -/
theorem Step.Backed.prepend {step : Step} {first : List Happening}
    (hfirst : isTold first = true)
    (h : Step.Backed geometry (past ++ first) step) :
    Step.Backed geometry past { step with log := first ++ step.log } where
  cache := by
    dsimp only
    rw [takeWhile_isTellable_append hfirst, ← List.append_assoc]
    exact h.cache
  station := fun htold => by
    rw [isTold_append, hfirst, Bool.true_and] at htold
    rw [← List.append_assoc]
    exact h.station htold

theorem Backed.access (h : station.Backed geometry past)
    (hcache : geometry.Backs past cache)
    (hpenalty : 0 < geometry.missPenalty)
    (hfresh : station.addressReady = false → station.blockResident = false) :
    Step.Backed geometry past (station.access ins port cache) := by
  have hfound := h.findAddress ins hfresh
  have hquiet : IsQuiet (station.findAddress ins).2 := by
    unfold Station.findAddress
    split <;> simp [IsQuiet, Happening.kind]
  unfold Station.access
  dsimp only
  split
  · exact ⟨hcache.append_quiet hquiet.takeWhile, hfound⟩
  · next hgoes =>
      have hboth : isTold (station.findAddress ins).2 = true ∧
          (station.findAddress ins).1.mayAccess ins = true := by
        simpa using hgoes
      obtain ⟨htold, hmay⟩ := hboth
      have hready : (station.findAddress ins).1.addressReady = true := by
        simp only [mayAccess, Bool.and_eq_true] at hmay
        exact hmay.1
      have hfound := hfound htold
      have hcache := hcache.append_quiet hquiet
      split
      · have hgoesOn := hfound.continueAccess hcache hready ins port
        rw [if_neg (by simp [isTold]), List.append_nil]
        exact hgoesOn.prepend htold
      · have hstart := hfound.startAccess hcache hpenalty hready ins port
        split
        · exact hstart.prepend htold
        · next hbegins =>
            have hbegun : isTold ((station.findAddress ins).1.startAccess ins
                cache).2.2 = true := by simpa using hbegins
            have hfilled := hstart.cache
            dsimp only at hfilled
            rw [takeWhile_isTellable_of_isTold hbegun] at hfilled
            have hgoesOn := (hstart.station hbegun).continueAccess hfilled
              ((addressReady_startAccess _ ins cache).trans hready) ins port
            rw [List.append_assoc]
            exact (hgoesOn.prepend hbegun).prepend htold

theorem Backed.execute (h : station.Backed geometry past)
    (hcache : geometry.Backs past cache)
    (hpenalty : 0 < geometry.missPenalty) (hsound : station.Sound)
    (hport : station.PortSound) (port : Port) :
    Step.Backed geometry past (station.execute port cache) := by
  unfold Station.execute
  split
  · exact h.step_of_same hcache isQuiet_nil rfl rfl rfl
  · next hrests =>
      split
      · refine h.step_of_same hcache ?_ rfl rfl rfl
        simp [IsQuiet, Happening.kind]
      · next ins hins =>
          split
          · next hmemory =>
              have hbusy := (rests_eq_false_iff.mp (by simpa using hrests)).1
              obtain ⟨held, hheld, hprogress⟩ := hsound.working hbusy
              cases hins.symm.trans hheld
              have hready : station.executing = true →
                  station.addressReady = true :=
                fun hexecuting => (hprogress.accessing hmemory hexecuting).1
              refine h.access hcache hpenalty fun hfresh => ?_
              -- who has its block has started, and so has found its address
              cases hresident : station.blockResident with
              | false => rfl
              | true =>
                  rw [hready (hport.executing hresident)] at hfresh
                  exact absurd hfresh.symm Bool.false_ne_true
          · exact h.compute hcache

end Station

/-- What the stations of a bank bring in or hit in a cycle was filled, and behind
a cycle of which all is told so it is with every station. -/
theorem Bank.execute_backed {geometry : Geometry} {past : List Happening}
    {bank : Bank} {cache : Cache} (port : Port)
    (hpenalty : 0 < geometry.missPenalty)
    (hsound : ∀ station ∈ bank, station.Sound ∧ station.PortSound)
    (hcache : geometry.Backs past cache)
    (hstations : ∀ station ∈ bank, station.Backed geometry past) :
    geometry.Backs
        (past ++ (bank.execute port cache).2.2.2.takeWhile Happening.isTellable)
        (bank.execute port cache).2.2.1 ∧
      (isTold (bank.execute port cache).2.2.2 = true →
        ∀ station ∈ (bank.execute port cache).1,
          station.Backed geometry (past ++ (bank.execute port cache).2.2.2)) := by
  induction bank generalizing past port cache with
  | nil =>
      exact ⟨hcache.append_quiet isQuiet_nil,
        fun _ station hmem => absurd hmem List.not_mem_nil⟩
  | cons station rest ih =>
      obtain ⟨hfirst, hrest⟩ := List.forall_mem_cons.mp hstations
      obtain ⟨⟨hfirstSound, hfirstPort⟩, hrestSound⟩ :=
        List.forall_mem_cons.mp hsound
      have hstep := hfirst.execute hcache hpenalty hfirstSound hfirstPort
        port
      cases htold : isTold (station.execute port cache).log with
      | false =>
          rw [execute_cons_of_untold htold]
          refine ⟨hstep.cache, fun hall => ?_⟩
          exact absurd (htold.symm.trans hall) Bool.false_ne_true
      | true =>
          rw [execute_cons_of_told htold]
          have hstepCache := hstep.cache
          rw [takeWhile_isTellable_of_isTold htold] at hstepCache
          obtain ⟨hlast, hothers⟩ := ih (station.execute port cache).port
            hrestSound hstepCache fun other hmem => (hrest other hmem).append _
          dsimp only
          rw [takeWhile_isTellable_append htold, ← List.append_assoc,
            ← List.append_assoc]
          refine ⟨hlast, fun hall => ?_⟩
          rw [isTold_append, htold, Bool.true_and] at hall
          exact List.forall_mem_cons.mpr
            ⟨(hstep.station htold).append _, hothers hall⟩

/-! ## The phases of a cycle -/

namespace Machine

variable {geometry : Geometry} {past log : List Happening} {m m' : Machine}

/-- What the cache of a machine and its stations hold was filled. -/
structure Backed (geometry : Geometry) (past : List Happening) (m : Machine) :
    Prop where
  held : m.PortHeld
  cache : geometry.Backs past m.cache
  stations : ∀ station ∈ m.bank, station.Backed geometry past

theorem isQuiet_redirect (m : Machine) (station : Station)
    (ins : Instruction) : IsQuiet (m.redirect station ins).2 := by
  obtain ⟨way, hlog, hway⟩ := m.redirect_log station ins
  rw [hlog]
  rcases hway with ⟨_, _, _, _, rfl⟩ | ⟨_, _, rfl⟩ | ⟨_, _, rfl⟩
  all_goals simp [IsQuiet, Happening.kind]

theorem WritesBack.isQuiet (hphase : m.WritesBack m' log) : IsQuiet log := by
  have hresolved : ∀ station ins,
      IsQuiet (.resolved station.name ins :: (m.redirect station ins).2) :=
    fun station ins => List.forall_mem_cons.mpr
      ⟨by simp [Happening.kind], m.isQuiet_redirect station ins⟩
  cases hphase with
  | idle => exact isQuiet_nil
  | empty => simp [IsQuiet, Happening.kind]
  | broken =>
      unfold settle
      split
      · simp [IsQuiet, Happening.kind]
      · exact hresolved _ _
      · simp [IsQuiet, Happening.kind]
      · simp [IsQuiet, Happening.kind]
  | stored => simp [IsQuiet, Happening.kind]
  | branched => exact hresolved _ _
  | published _ _ _ hhappening =>
      rcases hhappening with rfl | rfl
      · simp [IsQuiet, publish, Happening.kind]
      · simp [IsQuiet, publish, Happening.kind]

/-- At write-back a store may change the cache, and nothing else does. -/
theorem WritesBack.cache_eq (hphase : m.WritesBack m' log) :
    m'.cache = m.cache ∨
      ∃ station ins, m.bank.granted? = some station ∧
        station.instruction? = some ins ∧ ins.opcode.form = .store ∧
        m'.cache = m.cache.writeWord station.address station.k.value := by
  cases hphase with
  | idle => exact .inl rfl
  | empty => exact .inl rfl
  | @broken station ins hgranted hins =>
      unfold settle
      split
      · next hform => exact .inr ⟨station, ins, hgranted, hins, hform, rfl⟩
      · obtain ⟨queue, issuedCount, heq⟩ := redirect_eq m station ins
        dsimp only
        rw [heq]
        exact .inl rfl
      · exact .inl rfl
      · exact .inl rfl
  | @stored station ins hgranted hins hform =>
      exact .inr ⟨station, ins, hgranted, hins, hform, rfl⟩
  | @branched station ins =>
      obtain ⟨queue, issuedCount, heq⟩ := redirect_eq m station ins
      rw [heq]
      exact .inl rfl
  | published => exact .inl rfl

theorem Backed.begin (h : m.Backed geometry past) :
    m.begin.Backed geometry (past ++ [.cycleStarted]) where
  held := h.held.begin
  cache := h.cache.append_quiet (by simp [IsQuiet, Happening.kind])
  stations := by
    intro station hmem
    obtain ⟨before, hbefore, rfl⟩ := List.mem_map.mp hmem
    exact ((h.stations before hbefore).of_kept before.kept_endPause).append _

/-- A store that is written back brings in nothing but the block that it had
waited for. -/
theorem Backed.cache_writesBack (h : m.Backed geometry past)
    (hphase : m.WritesBack m' log) :
    geometry.Backs (past ++ log.takeWhile Happening.isTellable) m'.cache := by
  refine h.cache.append hphase.sameFrame.geometry hphase.isQuiet.takeWhile
    fun block hmem => ?_
  rcases hphase.cache_eq with hsame | ⟨station, ins, hgranted, hins, hform, heq⟩
  · rw [hsame] at hmem
    exact .inl hmem
  · rw [heq] at hmem
    obtain ⟨hstation, hbusy, hpending⟩ := mem_of_granted? hgranted
    have hresident : station.blockResident = true := by
      obtain ⟨held, hheld, hprogress⟩ := (h.held.of_mem hstation).1.working hbusy
      cases hins.symm.trans hheld
      have hmemory : ins.opcode.isMemory = true := by
        simp [Opcode.isMemory, Opcode.isStore, hform]
      exact (hprogress.finished hpending).2.2.2 hmemory
    have hfilled := (h.stations station hstation).resident hresident
    rcases Cache.mem_lines_writeWord hmem with hbefore | rfl
    · exact .inl hbefore
    · right
      rw [h.cache.geometry_eq]
      exact hfilled.append _

theorem Backed.writesBack (h : m.Backed geometry past)
    (htold : isTold m.writeback.2 = true) :
    m.writeback.1.Backed geometry (past ++ m.writeback.2) := by
  have hphase := m.writeback_writesBack
  have hcache := h.cache_writesBack hphase
  rw [takeWhile_isTellable_of_isTold htold] at hcache
  refine ⟨h.held.writeback, hcache, fun station hmem => Station.Backed.append ?_ _⟩
  cases hgranted : m.bank.granted? with
  | none =>
      rw [hphase.eq_self htold hgranted] at hmem
      exact h.stations station hmem
  | some winner =>
      have hreleased : ∀ station ∈ m.released.bank,
          station.Backed geometry past :=
        Bank.forall_mem_changeFirst
          (fun _ _ => Station.backed_of_fresh rfl rfl) h.stations
      rcases hphase.bank_eq htold hgranted with hbank | ⟨tag, value, hbank⟩
      · rw [hbank] at hmem
        exact hreleased station hmem
      · rw [hbank] at hmem
        obtain ⟨before, hbefore, rfl⟩ := List.mem_map.mp hmem
        exact (hreleased before hbefore).of_kept (before.kept_listen tag value)

theorem Backed.issues (h : m.Backed geometry past)
    (hphase : m.Issues m' log) : m'.Backed geometry (past ++ log) := by
  refine ⟨h.held.issues hphase, ?_, ?_⟩
  · cases hphase with
    | drained => exact h.cache.append_quiet isQuiet_nil
    | stalled | issued =>
        refine h.cache.append_quiet ?_
        simp [IsQuiet, Happening.kind]
  · intro station hmem
    apply Station.Backed.append
    cases hphase with
    | drained | stalled => exact h.stations station hmem
    | issued =>
        exact Bank.forall_mem_changeFirst
          (fun _ _ => Station.backed_of_fresh rfl rfl) h.stations station hmem

theorem Backed.execute (h : m.Backed geometry past)
    (hpenalty : 0 < geometry.missPenalty) :
    geometry.Backs
        (past ++ m.execute.2.takeWhile Happening.isTellable) m.execute.1.cache ∧
      (isTold m.execute.2 = true →
        m.execute.1.Backed geometry (past ++ m.execute.2)) := by
  obtain ⟨hcache, hstations⟩ := Bank.execute_backed
    ⟨m.portOwner, false⟩ hpenalty (fun _ hmem => h.held.of_mem hmem)
      h.cache h.stations
  refine ⟨hcache, fun htold => ⟨h.held.execute, ?_, hstations htold⟩⟩
  rw [← takeWhile_isTellable_of_isTold htold]
  exact hcache

/-- Behind a cycle of which all is told the machine is backed, and behind one
that is broken off its cache is. -/
theorem Backed.advance (h : m.Backed geometry past)
    (hpenalty : 0 < geometry.missPenalty) :
    geometry.Backs
        (past ++ m.advance.2.takeWhile Happening.isTellable) m.advance.1.cache ∧
      (isTold m.advance.2 = true →
        m.advance.1.Backed geometry (past ++ m.advance.2)) := by
  have hbegun := h.begin
  cases hwritten : isTold m.begin.writeback.2 with
  | false =>
      have hcache := hbegun.cache_writesBack m.begin.writeback_writesBack
      rw [advance_of_untold hwritten, List.takeWhile_cons_of_pos rfl,
        List.append_cons]
      refine ⟨hcache, fun htold => ?_⟩
      dsimp only at htold
      rw [isTold, List.all_cons, ← isTold, hwritten, Bool.and_false] at htold
      exact absurd htold Bool.false_ne_true
  | true =>
      have hready := (hbegun.writesBack hwritten).issues (issue_issues _)
      have hsplit : ∀ executed, past ++ (.cycleStarted :: m.begin.writeback.2 ++
          m.begin.writeback.1.issue.2 ++ executed) =
          past ++ [.cycleStarted] ++ m.begin.writeback.2 ++
            m.begin.writeback.1.issue.2 ++ executed := by simp
      obtain ⟨hcache, hexecuted⟩ := hready.execute hpenalty
      rw [takeWhile_advance hwritten, advance_of_told hwritten]
      dsimp only
      rw [hsplit, hsplit]
      refine ⟨hcache, fun htold => hexecuted ?_⟩
      rw [isTold_append, Bool.and_eq_true] at htold
      exact htold.2

theorem backed_create (config : Config) (preload : List (Int × Int)) :
    (create config preload).Backed (.ofConfig config) [] where
  held := portHeld_create config preload
  cache := {
    geometry_eq := rfl
    hits := fun front name address back hsplit => by simp at hsplit
    lines := fun block hmem => by simp [create, Cache.create] at hmem }
  stations := fun station hmem => by
    rw [Bank.eq_release_of_mem_ofSizes hmem]
    exact Station.backed_of_fresh rfl rfl

end Machine

namespace Simulation

/-- What the cache holds and what was hit was filled, along every run that ends
with the first cycle that is broken off, and brings in no block from outside. -/
theorem backs_attempt (config : Config) (preload : List (Int × Int))
    (actions : List Action) (hpenalty : 0 < config.value .cacheMissPenalty)
    (hfills : ∀ address, .fillBlock address ∉ actions) :
    (Geometry.ofConfig config).Backs
      (left ((fresh config preload).attempt actions)).happenings
      (left ((fresh config preload).attempt actions)).machine.cache := by
  have hrun := attempt_induction (fresh config preload) actions
    (P := fun sim => sim.machine.Backed (.ofConfig config) sim.happenings)
    (Q := fun sim => (Geometry.ofConfig config).Backs sim.happenings
      sim.machine.cache) ?_ ?_ ?_ ?_
  · cases hattempt : (fresh config preload).attempt actions with
    | ok next =>
        rw [hattempt] at hrun
        exact hrun.cache
    | error breakdown =>
        rw [hattempt] at hrun
        exact hrun
  · intro sim h htold
    rw [machine_cycle, happenings_cycle, takeWhile_isTellable_of_isTold htold]
    exact (h.advance hpenalty).2 htold
  · intro sim h _
    rw [machine_cycle, happenings_cycle]
    exact (h.advance hpenalty).1
  · intro sim action hmem hne h
    cases action with
    | cycle => exact absurd rfl hne
    | fillBlock address => exact absurd hmem (hfills address)
    | load | writeRegister | storeWord =>
        exact ⟨h.held.of_bank_eq rfl rfl, ⟨h.cache.geometry_eq, h.cache.hits,
          h.cache.lines⟩, h.stations⟩
  · exact Machine.backed_create config preload

end Simulation

end OutOfOrder
