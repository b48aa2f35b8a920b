import OutOfOrder.Proofs.Soundness

/-!
# Slots

The stations of a pool are numbered, and their names say the number.  A machine
keeps its stations in their places, pool after pool and in the order of the
numbers, so the first free station of a pool is the one with the least number.
A pool without a free station is full: each of its slots is at work.
-/

namespace OutOfOrder

/-- The name of the station of a pool that has a number. -/
def Pool.slotName (pool : Pool) (index : Nat) : String :=
  pool.label ++ toString index

theorem Pool.slotName_inj {pool other : Pool} {i j : Nat}
    (h : pool.slotName i = other.slotName j) : pool = other ∧ i = j := by
  obtain ⟨hpool, hindex⟩ := Pool.label_append_inj h
  exact ⟨hpool, Nat.repr_injective hindex⟩

namespace Machine

def FreeSlot (m : Machine) (pool : Pool) (index : Nat) : Prop :=
  ∃ station, m.bank.station? (pool.slotName index) = some station ∧
    station.pool = pool ∧ station.busy = false

def BusySlot (m : Machine) (pool : Pool) (index : Nat) : Prop :=
  ∃ station, m.bank.station? (pool.slotName index) = some station ∧
    station.pool = pool ∧ station.busy = true

theorem BusySlot.not_freeSlot {m : Machine} {pool : Pool} {index : Nat}
    (h : m.BusySlot pool index) : ¬ m.FreeSlot pool index := by
  rintro ⟨station, hstation, -, hidle⟩
  obtain ⟨other, hother, -, hbusy⟩ := h
  rw [hstation] at hother
  cases hother
  rw [hidle] at hbusy
  contradiction

/-- A slot of a pool is free, and none with a lesser number is. -/
structure FirstFree (m : Machine) (pool : Pool) (index : Nat) : Prop where
  lt : index < m.config.value pool.size
  free : m.FreeSlot pool index
  least : ∀ lower < index, m.BusySlot pool lower

/-- The names and pools of the stations that a configuration asks for. -/
def places (config : Config) : List (String × Pool) :=
  Pool.busOrder.flatMap fun pool =>
    (List.range (config.value pool.size)).map fun index =>
      (pool.slotName index, pool)

theorem mem_places_iff {config : Config} {name : String} {pool : Pool} :
    (name, pool) ∈ places config ↔
      ∃ index < config.value pool.size, name = pool.slotName index := by
  simp only [places, List.mem_flatMap, List.mem_map, List.mem_range,
    Prod.mk.injEq]
  constructor
  · rintro ⟨_, -, index, hlt, rfl, rfl⟩
    exact ⟨index, hlt, rfl⟩
  · rintro ⟨index, hlt, rfl⟩
    have hpool : pool ∈ Pool.busOrder := by cases pool <;> decide
    exact ⟨pool, hpool, index, hlt, rfl, rfl⟩

theorem pairwise_places (config : Config) :
    (places config).Pairwise fun entry other => ∀ pool i j,
      entry = (pool.slotName i, pool) → other = (pool.slotName j, pool) →
        i < j := by
  rw [places, List.pairwise_flatMap]
  constructor
  · intro pool _
    rw [List.pairwise_map]
    refine List.pairwise_lt_range.imp ?_
    intro m n hlt pool' i j hm hn
    cases (Pool.slotName_inj (congrArg Prod.fst hm)).2
    cases (Pool.slotName_inj (congrArg Prod.fst hn)).2
    exact hlt
  · have hnodup : Pool.busOrder.Nodup := by decide
    refine hnodup.imp ?_
    intro pool other hne entry hentry entry' hentry' pool' i j heq heq'
    obtain ⟨_, -, rfl⟩ := List.mem_map.mp hentry
    obtain ⟨_, -, rfl⟩ := List.mem_map.mp hentry'
    exact absurd ((congrArg Prod.snd heq).trans (congrArg Prod.snd heq').symm)
      hne

/-- The machine has the stations that a configuration asks for. -/
structure Placed (config : Config) (m : Machine) : Prop where
  config_eq : m.config = config
  places_eq : m.bank.map place = places config

variable {config : Config} {m : Machine} {pool : Pool} {station : Station}

theorem placed_create (config : Config) (preload : List (Int × Int)) :
    Placed config (create config preload) where
  config_eq := rfl
  places_eq := by
    simp only [create, Bank.ofSizes, Machine.places, List.map_flatMap,
      List.flatMap_map, List.map_map]
    rfl

theorem Placed.of_map_place_eq {m' : Machine} (h : Placed config m)
    (hconfig : m'.config = m.config)
    (hplaces : m'.bank.map place = m.bank.map place) : Placed config m' where
  config_eq := hconfig.trans h.config_eq
  places_eq := hplaces.trans h.places_eq

theorem Placed.begin (h : Placed config m) : Placed config m.begin :=
  h.of_map_place_eq rfl (map_place_begin m)

theorem Placed.writesBack {m' : Machine} {log : List Happening}
    (h : Placed config m) (hphase : m.WritesBack m' log) : Placed config m' :=
  h.of_map_place_eq hphase.sameFrame.config (map_place_writesBack hphase)

theorem Placed.advance (h : Placed config m) : Placed config m.advance.1 :=
  h.of_map_place_eq m.sameFrame_advance.config (map_place_advance m)

theorem Placed.exists_index (h : Placed config m) (hmem : station ∈ m.bank) :
    ∃ index < m.config.value station.pool.size,
      station.name = station.pool.slotName index := by
  have hplace : place station ∈ Machine.places config :=
    h.places_eq ▸ List.mem_map_of_mem hmem
  rw [h.config_eq]
  exact mem_places_iff.mp hplace

theorem Placed.exists_station (h : Placed config m)
    (hdistinct : m.bank.Distinct) {index : Nat}
    (hlt : index < m.config.value pool.size) :
    ∃ station, m.bank.station? (pool.slotName index) = some station ∧
      station.pool = pool := by
  have hplace : (pool.slotName index, pool) ∈ m.bank.map place := by
    rw [h.places_eq, mem_places_iff, ← h.config_eq]
    exact ⟨index, hlt, rfl⟩
  obtain ⟨station, hmem, heq⟩ := List.mem_map.mp hplace
  have hname : station.name = pool.slotName index := congrArg Prod.fst heq
  exact ⟨station, hname ▸ hdistinct.station?_name hmem,
    congrArg Prod.snd heq⟩

theorem Placed.busySlot_of_not_free (h : Placed config m)
    (hdistinct : m.bank.Distinct) {index : Nat}
    (hlt : index < m.config.value pool.size)
    (hnot : ∀ station, m.bank.station? (pool.slotName index) = some station →
      station.isFreeIn pool = false) : m.BusySlot pool index := by
  obtain ⟨station, hstation, hpool⟩ := h.exists_station hdistinct hlt
  refine ⟨station, hstation, hpool, ?_⟩
  simpa [Station.isFreeIn, hpool] using hnot station hstation

/-- **A pool without a free station is full.** -/
theorem Placed.free?_eq_none_iff (h : Placed config m)
    (hdistinct : m.bank.Distinct) :
    m.bank.free? pool = none ↔
      ∀ index < m.config.value pool.size, m.BusySlot pool index := by
  constructor
  · intro hnone index hlt
    refine h.busySlot_of_not_free hdistinct hlt fun station hstation => ?_
    simpa using List.find?_eq_none.mp hnone station
      (Bank.mem_of_station? hstation)
  · intro hfull
    cases hfree : m.bank.free? pool with
    | none => rfl
    | some station =>
        obtain ⟨hmem, rfl, hidle⟩ := mem_of_free? hfree
        obtain ⟨index, hlt, hname⟩ := h.exists_index hmem
        have hstation := hname ▸ hdistinct.station?_name hmem
        exact absurd ⟨station, hstation, rfl, hidle⟩
          (hfull index hlt).not_freeSlot

/-- **The first free station of a pool is its free slot with the least
number.** -/
theorem Placed.of_free? (h : Placed config m) (hdistinct : m.bank.Distinct)
    (hfree : m.bank.free? pool = some station) :
    ∃ index, station.name = pool.slotName index ∧ m.FirstFree pool index := by
  obtain ⟨hmem, rfl, hidle⟩ := mem_of_free? hfree
  obtain ⟨index, hlt, hname⟩ := h.exists_index hmem
  have hstation := hname ▸ hdistinct.station?_name hmem
  refine ⟨index, hname, hlt, ⟨station, hstation, rfl, hidle⟩, ?_⟩
  intro lower hlower
  refine h.busySlot_of_not_free hdistinct (by omega) fun other hother => ?_
  obtain ⟨-, front, back, hbank, hfront⟩ :=
    List.find?_eq_some_iff_append.mp hfree
  have hothername := Bank.name_of_station? hother
  have hothermem := Bank.mem_of_station? hother
  rw [hbank] at hothermem
  rcases List.mem_append.mp hothermem with hbefore | hrest
  · simpa using hfront other hbefore
  · rcases List.mem_cons.mp hrest with rfl | hbehind
    · rw [hname] at hothername
      have heq := (Pool.slotName_inj hothername).2
      omega
    · -- a place behind the station's has a greater number
      have hpairwise := pairwise_places config
      rw [← h.places_eq, hbank, List.map_append, List.map_cons,
        List.pairwise_append, List.pairwise_cons] at hpairwise
      by_contra hfreein
      have hpool : other.pool = station.pool := by
        have hboth : other.pool = station.pool ∧ other.busy = false := by
          simpa [Station.isFreeIn] using hfreein
        exact hboth.1
      have hless := hpairwise.2.1.1 (place other) (List.mem_map_of_mem hbehind)
        station.pool index lower (by rw [place, hname])
        (by rw [place, hothername, hpool])
      omega

end Machine

theorem Simulation.placed_after (config : Config) (preload : List (Int × Int))
    (actions : List Action) :
    Machine.Placed config ((fresh config preload).after actions).machine :=
  after_induction (P := fun m _ => Machine.Placed config m)
    (fun _ _ h => h.advance) (fun _ _ _ h => h.of_map_place_eq rfl rfl)
    (fun _ _ _ _ h => h.of_map_place_eq rfl rfl)
    (fun _ _ _ _ h => h.of_map_place_eq rfl rfl)
    (fun _ _ _ h => h.of_map_place_eq rfl rfl)
    (Machine.placed_create config preload) actions

end OutOfOrder
