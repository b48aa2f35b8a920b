import OutOfOrder.Proofs.Residency
import OutOfOrder.Proofs.Run

/-!
# Writing brings blocks in

A word that is written through the cache counts as one lookup.  Its block is in
the cache behind it if it was there before, and also if it was missing and a miss
has a penalty.  Without a penalty a miss cannot be told from a hit by what is
owed for it, and the missing block stays out.

A store writes its word when it has the result bus.  By then another access may
have driven out the block that the store had found or brought in, so without a
penalty the block of a store may be missing when the store is done.
-/

namespace OutOfOrder

namespace Cache

variable (cache : Cache) (address value : Int)

/-- The block of a word that is written is in the cache if it was before, or if a
miss has a penalty. -/
theorem isResident_writeWord :
    (cache.writeWord address value).isResident address = true ↔
      cache.isResident address = true ∨ 0 < cache.geometry.missPenalty := by
  have hcall := cache.isResident_call (.writeWord address value) address
  have hwrite : cache.call (.writeWord address value) =
      cache.writeWord address value := rfl
  rw [← hwrite, hcall, allocated?]
  split
  · next hbrought =>
      split at hbrought
      · contradiction
      · next hmissing =>
          cases hbrought
          rw [not_or] at hmissing
          rw [isResident_fillBlock, if_pos rfl]
          simp [Nat.pos_of_ne_zero hmissing.1]
  · next hkept =>
      split at hkept
      · next hstays =>
          rcases hstays with hfree | hresident
          · simp [hfree]
          · simp [hresident]
      · contradiction

theorem counts_writeWord :
    (cache.writeWord address value).hits =
        cache.hits + (cache.isResident address).toNat ∧
      (cache.writeWord address value).misses =
        cache.misses + (!cache.isResident address).toNat := by
  unfold writeWord probe
  cases cache.isResident address with
  | true => exact ⟨rfl, rfl⟩
  | false =>
      by_cases hfree : cache.geometry.missPenalty = 0
      · simp [hfree, storeWord]
      · simp [hfree, storeWord, fillBlock]

theorem lines_writeWord_of_ne {index : Nat}
    (h : index ≠ (cache.geometry.lineOf address).val) :
    (cache.writeWord address value).lines.toList[index]? =
      cache.lines.toList[index]? := by
  have hwrite : cache.call (.writeWord address value) =
      cache.writeWord address value := rfl
  rw [← hwrite, lines_call, allocated?]
  split
  · next hbrought =>
      split at hbrought
      · contradiction
      · cases hbrought
        exact List.getElem?_set_ne h.symm
  · rfl

end Cache

namespace Machine

/-- A store that has the bus writes its word, whether or not that can be told. -/
theorem cache_writeback_of_isStore {m : Machine} {station : Station}
    {ins : Instruction} (hgranted : m.bank.granted? = some station)
    (hins : station.instruction? = some ins)
    (hstore : ins.opcode.isStore = true) :
    m.writeback.1.cache =
      m.cache.writeWord station.address station.k.value := by
  have hform : ins.opcode.form = .store := by
    simpa [Opcode.isStore] using hstore
  have hproduct : ∀ m' : Machine, m'.product? station ins = none := by
    intro m'
    rw [product?, hform]
  have hsettle : (m.settle station ins).1.cache =
      m.cache.writeWord station.address station.k.value := by
    rw [settle, hform]
  unfold writeback
  rw [hgranted]
  dsimp only
  rw [hins]
  dsimp only
  split
  · exact hsettle
  · rw [complete, hproduct]
    exact hsettle

end Machine

namespace Simulation

theorem geometry_after (config : Config) (preload : List (Int × Int))
    (actions : List Action) :
    ((fresh config preload).after actions).machine.cache.geometry =
      .ofConfig config :=
  after_induction
    (P := fun m _ => m.cache.geometry = .ofConfig config)
    (fun m _ h => m.sameFrame_advance.geometry.trans h)
    (fun _ _ _ h => h) (fun _ _ _ _ h => h) (fun _ _ _ _ h => h)
    (fun _ _ _ h => h) rfl actions

/-- **A word that is written brings its block in if a miss has a penalty.**  For
every geometry, all words that the memory holds at first and all calls, a word
that is written counts as one lookup and changes no other line than its own; its
block is in the cache behind it exactly if it was before or a miss has a penalty.
So it is in every run of every machine with the block of a store, when the store
has had the result bus. -/
theorem write_allocates_iff_penalty (geometry : Geometry) (config : Config)
    (preload : List (Int × Int)) :
    (∀ (calls : List CacheCall) (address value : Int),
      let cache := (Cache.create geometry preload).after calls
      let written := cache.writeWord address value
      (written.isResident address = true ↔
          cache.isResident address = true ∨ 0 < geometry.missPenalty) ∧
        written.hits = cache.hits + (cache.isResident address).toNat ∧
        written.misses = cache.misses + (!cache.isResident address).toNat ∧
        ∀ index, index ≠ (geometry.lineOf address).val →
          written.lines.toList[index]? = cache.lines.toList[index]?) ∧
    ∀ (actions : List Action) (station : Station) (ins : Instruction),
      let m := ((fresh config preload).after actions).machine.begin
      m.bank.granted? = some station → station.instruction? = some ins →
      ins.opcode.isStore = true →
      (m.writeback.1.cache.isResident station.address = true ↔
        m.cache.isResident station.address = true ∨
          0 < config.value .cacheMissPenalty) := by
  constructor
  · intro calls address value cache written
    have hgeometry : cache.geometry = geometry :=
      (Cache.recalls_after (Cache.recalls_create geometry preload)
        calls).geometry_eq
    obtain ⟨hhits, hmisses⟩ := cache.counts_writeWord address value
    refine ⟨?_, hhits, hmisses, fun index hindex => ?_⟩
    · have hresident := cache.isResident_writeWord address value
      rwa [hgeometry] at hresident
    · rw [← hgeometry] at hindex
      exact cache.lines_writeWord_of_ne address value hindex
  · intro actions station ins m hgranted hins hstore
    have hgeometry : m.cache.geometry = .ofConfig config :=
      geometry_after config preload actions
    rw [Machine.cache_writeback_of_isStore hgranted hins hstore,
      Cache.isResident_writeWord, hgeometry]
    exact Iff.rfl

/-- Without a penalty the missing block of a word that is written stays out.  So
it happens to a store in a cache of one line: a load behind it drives its block
out before it has the bus, and the block is missing when it is done. -/
theorem missing_block_stays_out :
    let cache := Cache.create (.ofSizes 64 16 2 0 (by decide)) []
    let config : Config :=
      ⟨fun parameter => if parameter = .cacheMissPenalty then 0
        else if parameter = .cacheSizeBytes then 16
        else parameter.standard, by decide⟩
    let m := ((fresh config []).running
      [{ opcode := .sw, src1 := "R0", src2 := "F1", immediate := some 0 },
        { opcode := .lw, dest := "F2", src1 := "R0", immediate := some 64 }]
      5).machine.begin
    (cache.writeWord 1000 42).misses = 1 ∧
      (cache.writeWord 1000 42).isResident 1000 = false ∧
      (m.bank.granted?.map fun station =>
        (station.instruction?.map (·.opcode), station.address)) =
          some (some .sw, 0) ∧
      m.writeback.1.cache.isResident 0 = false := by
  decide +kernel

end Simulation

end OutOfOrder
