import OutOfOrder.Proofs.FlatMemory
import OutOfOrder.Proofs.Phases

/-!
# What is resident

A cache forgets all but the last block that came to each of its lines.  So what
it holds is told by the addresses whose blocks were brought in, in their order:
those of the calls that bring a block in, and those of the words that are written
past a line that holds another block, if a miss has a penalty.

A block is brought to one line alone, that of all its addresses.  The ranges of
addresses that the lines show are therefore whole blocks, and no two of them
meet.
-/

namespace OutOfOrder

namespace Geometry

/-! ## Blocks and lines -/

theorem blockOf_eq_iff (geometry : Geometry) (address block : Int) :
    geometry.blockOf address = block ↔
      block * geometry.blockSize ≤ address ∧
        address ≤ block * geometry.blockSize + geometry.blockSize - 1 := by
  have hpos : (0 : Int) < geometry.blockSize :=
    Int.natCast_pos.mpr geometry.blockSize_pos
  rw [blockOf, Int.ediv_eq_iff_of_pos hpos]
  omega

/-- The index of a line is the remainder of the numbers of its blocks. -/
theorem val_lineOf (geometry : Geometry) (address : Int) :
    ((geometry.lineOf address).val : Int) =
      geometry.blockOf address % geometry.lineCount := by
  have hne : (geometry.lineCount : Int) ≠ 0 :=
    Int.ne_of_gt (Int.natCast_pos.mpr geometry.lineCount_pos)
  exact Int.toNat_of_nonneg (Int.emod_nonneg _ hne)

/-! ## The history of the lines -/

/-- Of the addresses whose blocks were brought in, the last one first, the first
on the line of an address. -/
def lastOn? (geometry : Geometry) (allocations : List Int) (address : Int) :
    Option Int :=
  allocations.find? fun other =>
    geometry.lineOf other = geometry.lineOf address

/-- The last block that was brought to the line of an address is its own. -/
def holds (geometry : Geometry) (allocations : List Int) (address : Int) :
    Bool :=
  (geometry.lastOn? allocations address).any fun last =>
    geometry.blockOf last = geometry.blockOf address

/-- The addresses whose blocks were brought in, after one more call.  To write a
word brings its block in if it is missing and a miss has a penalty. -/
def allocate (geometry : Geometry) (allocations : List Int) :
    CacheCall → List Int
  | .fillBlock address => address :: allocations
  | .writeWord address _ =>
    if geometry.missPenalty = 0 ∨ geometry.holds allocations address then
      allocations
    else address :: allocations
  | _ => allocations

/-- The addresses whose blocks are brought in by calls, the last one first. -/
def allocations (geometry : Geometry) (calls : List CacheCall) : List Int :=
  calls.foldl geometry.allocate []

theorem holds_eq_true_iff {geometry : Geometry} {allocations : List Int}
    {address : Int} :
    geometry.holds allocations address = true ↔
      ∃ last, geometry.lastOn? allocations address = some last ∧
        geometry.blockOf last = geometry.blockOf address := by
  simp [holds, Option.any_eq_true]

theorem holds_cons (geometry : Geometry) (first : Int) (rest : List Int)
    (address : Int) :
    geometry.holds (first :: rest) address =
      if geometry.lineOf address = geometry.lineOf first then
        decide (geometry.blockOf address = geometry.blockOf first)
      else geometry.holds rest address := by
  unfold holds lastOn?
  rw [List.find?_cons]
  split
  · next h => simp [(of_decide_eq_true h).symm, eq_comm]
  · next h => rw [if_neg fun heq => of_decide_eq_false h heq.symm]

end Geometry

/-- The call looks an address up, and so counts as a hit or a miss. -/
def CacheCall.isLookup : CacheCall → Bool
  | .probe _ | .writeWord _ _ => true
  | _ => false

namespace Cache

variable {cache : Cache} {call : CacheCall} {address other : Int}

/-! ## What a call does to the lines -/

/-- The address whose block a call brings in, if it brings one in. -/
def allocated? (cache : Cache) : CacheCall → Option Int
  | .fillBlock address => some address
  | .writeWord address _ =>
    if cache.geometry.missPenalty = 0 ∨ cache.isResident address then none
    else some address
  | _ => none

/-- To write a word brings its block in if it is missing and a miss has a
penalty, and counts the access. -/
theorem writeWord_eq (cache : Cache) (address value : Int) :
    cache.writeWord address value =
      (if cache.geometry.missPenalty = 0 ∨ cache.isResident address then
        (cache.probe address).2
      else (cache.probe address).2.fillBlock address).storeWord address
        value := by
  unfold writeWord probe
  cases hresident : cache.isResident address with
  | true => simp
  | false =>
      by_cases hpenalty : cache.geometry.missPenalty = 0
      · simp [hpenalty]
      · simp [hpenalty]

theorem probe_eq (cache : Cache) (address : Int) :
    ∃ hits misses, (cache.probe address).2 = { cache with hits, misses } ∧
      hits + misses = cache.hits + cache.misses + 1 := by
  unfold probe
  split
  · exact ⟨_, _, rfl, by omega⟩
  · exact ⟨_, _, rfl, by omega⟩

/-- Behind a call the lines are as they were, or as if the block of an address had
been brought in. -/
theorem exists_call_eq (cache : Cache) (call : CacheCall) :
    ∃ memory hits misses, cache.call call =
        { (match cache.allocated? call with
          | some address => cache.fillBlock address
          | none => cache) with memory, hits, misses } ∧
      hits + misses = cache.hits + cache.misses + call.isLookup.toNat := by
  cases call with
  | probe address =>
      obtain ⟨hits, misses, heq, hsum⟩ := cache.probe_eq address
      exact ⟨cache.memory, hits, misses, heq, hsum⟩
  | writeWord address value =>
      obtain ⟨hits, misses, heq, hsum⟩ := cache.probe_eq address
      refine ⟨cache.memory.storeWord address value, hits, misses, ?_, hsum⟩
      rw [Cache.call, writeWord_eq, heq, allocated?]
      split
      · rfl
      · rfl
  | fillBlock | isResident | lineTable | writeByte | storeWord | readByte
  | readWord => exact ⟨_, _, _, rfl, rfl⟩

theorem geometry_call (cache : Cache) (call : CacheCall) :
    (cache.call call).geometry = cache.geometry := by
  obtain ⟨memory, hits, misses, heq, -⟩ := cache.exists_call_eq call
  rw [heq]
  cases cache.allocated? call <;> rfl

/-- A block is resident behind a call if it was before, or is brought in. -/
theorem isResident_call (cache : Cache) (call : CacheCall) (other : Int) :
    (cache.call call).isResident other =
      match cache.allocated? call with
      | some address => (cache.fillBlock address).isResident other
      | none => cache.isResident other := by
  obtain ⟨memory, hits, misses, heq, -⟩ := cache.exists_call_eq call
  rw [heq]
  cases cache.allocated? call <;> rfl

theorem lines_call (cache : Cache) (call : CacheCall) :
    (cache.call call).lines.toList =
      match cache.allocated? call with
      | some address =>
        cache.lines.toList.set (cache.geometry.lineOf address)
          (some (cache.geometry.blockOf address))
      | none => cache.lines.toList := by
  obtain ⟨memory, hits, misses, heq, -⟩ := cache.exists_call_eq call
  rw [heq]
  cases cache.allocated? call with
  | none => rfl
  | some address => exact Vector.toList_set (cache.geometry.lineOf address).isLt

/-! ## What the lines recall -/

/-- The cache holds the blocks that were brought in last. -/
structure Recalls (geometry : Geometry) (allocations : List Int)
    (cache : Cache) : Prop where
  geometry_eq : cache.geometry = geometry
  isResident_eq : ∀ address,
    cache.isResident address = geometry.holds allocations address
  /-- The number of a block has the index of its line for a remainder. -/
  emod_eq : ∀ (index : Nat) (block : Int),
    cache.lines.toList[index]? = some (some block) →
      block % geometry.lineCount = index

variable {geometry : Geometry} {allocations : List Int}

theorem recalls_create (geometry : Geometry) (preload : List (Int × Int)) :
    (create geometry preload).Recalls geometry [] where
  geometry_eq := rfl
  isResident_eq := fun address => decide_eq_false (by
    have hempty : (create geometry preload).lines[geometry.lineOf address] =
        none := Vector.getElem_replicate _
    exact fun heq => nomatch hempty.symm.trans heq)
  emod_eq := fun index block h => by
    have hmem := List.mem_of_getElem? h
    simp [create] at hmem

theorem Recalls.allocate_eq (h : cache.Recalls geometry allocations)
    (call : CacheCall) :
    geometry.allocate allocations call =
      (cache.allocated? call).toList ++ allocations := by
  cases call with
  | writeWord address value =>
      rw [Geometry.allocate, allocated?, h.isResident_eq, h.geometry_eq]
      split <;> rfl
  | _ => rfl

theorem recalls_call (h : cache.Recalls geometry allocations)
    (call : CacheCall) :
    (cache.call call).Recalls geometry
      (geometry.allocate allocations call) := by
  have hallocate := h.allocate_eq call
  have hresident := cache.isResident_call call
  have hlines := cache.lines_call call
  rw [hallocate]
  cases hallocated : cache.allocated? call with
  | none =>
      rw [hallocated] at hresident hlines
      refine ⟨(cache.geometry_call call).trans h.geometry_eq,
        fun other => (hresident other).trans (h.isResident_eq other), ?_⟩
      intro index block hblock
      rw [hlines] at hblock
      exact h.emod_eq index block hblock
  | some address =>
      rw [hallocated] at hresident hlines
      refine ⟨(cache.geometry_call call).trans h.geometry_eq,
        fun other => ?_, ?_⟩
      · refine (hresident other).trans ?_
        dsimp only
        rw [isResident_fillBlock, h.isResident_eq, h.geometry_eq]
        exact (geometry.holds_cons address allocations other).symm
      · intro index block hblock
        rw [hlines, List.getElem?_set] at hblock
        split at hblock
        · next hindex =>
            split at hblock
            · cases hblock
              rw [← hindex, ← h.geometry_eq, Geometry.val_lineOf]
            · contradiction
        · exact h.emod_eq index block hblock

theorem recalls_after (h : cache.Recalls geometry allocations)
    (calls : List CacheCall) :
    (cache.after calls).Recalls geometry
      (calls.foldl geometry.allocate allocations) := by
  induction calls generalizing cache allocations with
  | nil => exact h
  | cons call rest ih => exact ih (recalls_call h call)

/-! ## What the lines show -/

theorem mem_lineTable_iff {index : Nat} {view : LineView} :
    (index, some view) ∈ cache.lineTable ↔
      ∃ block, cache.lines.toList[index]? = some (some block) ∧
        view = cache.lineView block := by
  rw [lineTable, List.mem_iff_getElem?]
  simp only [List.getElem?_mapIdx, Option.map_eq_some_iff, Prod.mk.injEq]
  constructor
  · rintro ⟨_, _, hline, rfl, block, rfl, rfl⟩
    exact ⟨block, hline, rfl⟩
  · rintro ⟨block, hline, rfl⟩
    exact ⟨index, some block, hline, rfl, block, rfl, rfl⟩

theorem Recalls.isResident_iff (h : cache.Recalls geometry allocations)
    (address : Int) :
    cache.isResident address = true ↔
      cache.lines.toList[(geometry.lineOf address).val]? =
        some (some (geometry.blockOf address)) := by
  cases h.geometry_eq
  simp [isResident]

/-- What a row of the table shows is a block of its line, with all its addresses
and no others. -/
theorem Recalls.row (h : cache.Recalls geometry allocations) {index : Nat}
    {view : LineView} (hrow : (index, some view) ∈ cache.lineTable) :
    view.block % geometry.lineCount = index ∧
      ∀ address, (view.first ≤ address ∧ address ≤ view.last ↔
          geometry.blockOf address = view.block) ∧
        (view.first ≤ address ∧ address ≤ view.last →
          (geometry.lineOf address).val = index) := by
  obtain ⟨block, hline, rfl⟩ := mem_lineTable_iff.mp hrow
  have hemod := h.emod_eq index block hline
  refine ⟨hemod, fun address => ?_⟩
  have hrange := geometry.blockOf_eq_iff address block
  rw [← h.geometry_eq] at hrange ⊢
  refine ⟨hrange.symm, fun hmem => ?_⟩
  have hindex := cache.geometry.val_lineOf address
  rw [hrange.mpr hmem, h.geometry_eq, hemod] at hindex
  exact Int.ofNat.inj (h.geometry_eq ▸ hindex)

theorem Recalls.isResident_iff_row (h : cache.Recalls geometry allocations)
    (address : Int) :
    cache.isResident address = true ↔
      ∃ index view, (index, some view) ∈ cache.lineTable ∧
        view.first ≤ address ∧ address ≤ view.last := by
  constructor
  · intro hresident
    have hline := (h.isResident_iff address).mp hresident
    have hrow : ((geometry.lineOf address).val,
        some (cache.lineView (geometry.blockOf address))) ∈ cache.lineTable :=
      mem_lineTable_iff.mpr ⟨_, hline, rfl⟩
    exact ⟨_, _, hrow, ((h.row hrow).2 address).1.mpr rfl⟩
  · rintro ⟨index, view, hrow, hrange⟩
    obtain ⟨hblock, hindex⟩ := (h.row hrow).2 address
    obtain ⟨block, hline, rfl⟩ := mem_lineTable_iff.mp hrow
    rw [h.isResident_iff, hindex hrange, hblock.mp hrange]
    exact hline

/-- A call that changes a line brings a block in, or writes a word whose block is
missing. -/
theorem eq_of_lines_call_ne
    (h : (cache.call call).lines.toList ≠ cache.lines.toList) :
    (∃ address, call = .fillBlock address) ∨
      ∃ address value, call = .writeWord address value ∧
        cache.isResident address = false := by
  have hlines := cache.lines_call call
  cases call with
  | fillBlock address => exact .inl ⟨address, rfl⟩
  | writeWord address value =>
      refine .inr ⟨address, value, rfl, ?_⟩
      by_contra hresident
      rw [allocated?, if_pos (.inr (by simpa using hresident))] at hlines
      exact h hlines
  | _ => exact absurd hlines h

/-- Lookups are counted as hits or as misses, each of them once. -/
theorem lookups_after (cache : Cache) (calls : List CacheCall) :
    (cache.after calls).hits + (cache.after calls).misses =
      cache.hits + cache.misses + calls.countP CacheCall.isLookup := by
  induction calls generalizing cache with
  | nil => rfl
  | cons call rest ih =>
      obtain ⟨memory, hits, misses, heq, hsum⟩ := cache.exists_call_eq call
      have hcounts : (cache.call call).hits + (cache.call call).misses =
          cache.hits + cache.misses + call.isLookup.toNat := by
        rw [heq]
        exact hsum
      have hrest := ih (cache.call call)
      rw [hcounts] at hrest
      refine hrest.trans ?_
      rw [List.countP_cons]
      cases call.isLookup with
      | true => simp only [Bool.toNat_true, if_pos]; omega
      | false => simp

/-- **What is resident is what was brought to its line last.**  For every
geometry, all words that the memory holds at first and all calls: a block is
resident exactly if, of the blocks that were brought to its line, it was the last
one.  A row of the table shows a block whose number has the index of the row for
its remainder, with exactly the addresses of that block, which all map to the
row; an address is resident exactly if a row shows it; and no two rows show a
common address.  Every lookup was counted once, as a hit or as a miss.  No call
changes a line but one that brings a block in, or writes a word whose block is
missing. -/
theorem resident_iff_last_on_line (geometry : Geometry)
    (preload : List (Int × Int)) (calls : List CacheCall) :
    let cache := (create geometry preload).after calls
    (∀ address, cache.isResident address = true ↔
      ∃ last, geometry.lastOn? (geometry.allocations calls) address = some last ∧
        geometry.blockOf last = geometry.blockOf address) ∧
    (∀ index view, (index, some view) ∈ cache.lineTable →
      view.block % geometry.lineCount = index ∧
      ∀ address, (view.first ≤ address ∧ address ≤ view.last ↔
          geometry.blockOf address = view.block) ∧
        (view.first ≤ address ∧ address ≤ view.last →
          (geometry.lineOf address).val = index)) ∧
    (∀ address, cache.isResident address = true ↔
      ∃ index view, (index, some view) ∈ cache.lineTable ∧
        view.first ≤ address ∧ address ≤ view.last) ∧
    (∀ index index' view view' address,
      (index, some view) ∈ cache.lineTable →
      (index', some view') ∈ cache.lineTable →
      view.first ≤ address ∧ address ≤ view.last →
      view'.first ≤ address ∧ address ≤ view'.last → index = index') ∧
    cache.hits + cache.misses = calls.countP CacheCall.isLookup ∧
    ∀ call, (cache.call call).lines.toList ≠ cache.lines.toList →
      (∃ address, call = .fillBlock address) ∨
      ∃ address value, call = .writeWord address value ∧
        cache.isResident address = false := by
  intro cache
  have hrecalls : cache.Recalls geometry (geometry.allocations calls) :=
    recalls_after (recalls_create geometry preload) calls
  refine ⟨fun address => ?_, fun index view hrow => hrecalls.row hrow,
    hrecalls.isResident_iff_row, ?_, ?_, fun call => eq_of_lines_call_ne⟩
  · rw [hrecalls.isResident_eq, Geometry.holds_eq_true_iff]
  · intro index index' view view' address hrow hrow' hrange hrange'
    have hindex := ((hrecalls.row hrow).2 address).2 hrange
    have hindex' := ((hrecalls.row hrow').2 address).2 hrange'
    exact hindex.symm.trans hindex'
  · have hlookups := (create geometry preload).lookups_after calls
    rw [hlookups]
    exact Nat.zero_add _

end Cache

end OutOfOrder
