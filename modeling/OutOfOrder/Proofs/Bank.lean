import Mathlib.Data.List.Forall2
import Mathlib.Data.List.Nodup
import OutOfOrder.Machine.State
import Std.Data.String.ToNat

/-!
# Banks as maps from names to stations

The stations of a machine's bank have different names, so a bank is a finite
map from names to stations.  Every change that a cycle makes to a bank keeps
the names, and is described here by what it does to that map.
-/

namespace OutOfOrder

/-! ## The names of a new bank -/

theorem Pool.label_append_inj {p q : Pool} {a b : String}
    (h : p.label ++ a = q.label ++ b) : p = q ∧ a = b := by
  have hchars : p.label.toList ++ a.toList = q.label.toList ++ b.toList := by
    rw [← String.toList_append, h, String.toList_append]
  cases p <;> cases q <;> simp [label] at h hchars ⊢
  all_goals exact h

namespace Bank

/-- No two stations of the bank have the same name. -/
def Distinct (bank : Bank) : Prop :=
  (bank.map Station.name).Nodup

theorem map_name_ofSizes (sizes : List (Pool × Nat)) :
    (ofSizes sizes).map Station.name =
      sizes.flatMap fun entry =>
        (List.range entry.2).map fun index => entry.1.label ++ toString index := by
  simp only [ofSizes, List.map_flatMap, List.map_map]
  rfl

theorem distinct_ofSizes {sizes : List (Pool × Nat)}
    (hpools : (sizes.map (·.1)).Nodup) : (ofSizes sizes).Distinct := by
  rw [Distinct, map_name_ofSizes, List.nodup_flatMap]
  constructor
  · intro entry _
    refine List.nodup_range.map ?_
    intro m n hmn
    exact Nat.repr_injective (Pool.label_append_inj hmn).2
  · refine (List.pairwise_map.mp hpools).imp ?_
    intro entry other hne name hleft hright
    obtain ⟨m, -, rfl⟩ := List.mem_map.mp hleft
    obtain ⟨n, -, hmn⟩ := List.mem_map.mp hright
    exact hne (Pool.label_append_inj hmn).1.symm

theorem eq_release_of_mem_ofSizes {sizes : List (Pool × Nat)} {station : Station}
    (h : station ∈ ofSizes sizes) : station = station.release := by
  simp only [ofSizes, List.mem_flatMap, List.mem_map] at h
  obtain ⟨entry, -, index, -, rfl⟩ := h
  rfl

/-! ## Looking stations up -/

variable {bank other : Bank} {station : Station} {name : String}

theorem mem_of_station? (h : bank.station? name = some station) :
    station ∈ bank :=
  List.mem_of_find?_eq_some h

theorem isFree_iff :
    bank.isFree = true ↔ ∀ station ∈ bank, station.busy = false := by
  simp [isFree]

theorem isFree_eq_false_iff :
    bank.isFree = false ↔ ∃ station ∈ bank, station.busy = true := by
  simp [isFree]

theorem busy_eq_false_of_isFree (h : bank.isFree = true)
    (hstation : bank.station? name = some station) : station.busy = false :=
  isFree_iff.mp h station (mem_of_station? hstation)

theorem name_of_station? (h : bank.station? name = some station) :
    station.name = name := by
  simpa using List.find?_some h

theorem Distinct.station?_name (hdistinct : bank.Distinct)
    (h : station ∈ bank) : bank.station? station.name = some station := by
  induction bank with
  | nil => simp at h
  | cons first rest ih =>
      have hnodup : first.name ∉ rest.map Station.name ∧ Distinct rest := by
        simpa [Distinct] using hdistinct
      rcases List.mem_cons.mp h with rfl | hrest
      · simp [station?]
      · have hne : first.name ≠ station.name := by
          intro heq
          exact hnodup.1 (heq ▸ List.mem_map_of_mem hrest)
        have hfound := ih hnodup.2 hrest
        simpa [station?, hne] using hfound

theorem Distinct.station?_eq_some_iff (hdistinct : bank.Distinct) :
    bank.station? name = some station ↔
      station ∈ bank ∧ station.name = name := by
  constructor
  · intro h
    exact ⟨mem_of_station? h, name_of_station? h⟩
  · rintro ⟨hmem, rfl⟩
    exact hdistinct.station?_name hmem

theorem Distinct.filter (hdistinct : bank.Distinct)
    (condition : Station → Bool) : Distinct (bank.filter condition) :=
  hdistinct.sublist (List.filter_sublist.map Station.name)

theorem isSome_station?_of_map_name_eq
    (h : other.map Station.name = bank.map Station.name) (name : String) :
    (other.station? name).isSome = (bank.station? name).isSome := by
  have hmem : ∀ stations : Bank, (stations.station? name).isSome =
      decide (name ∈ stations.map Station.name) := by
    intro stations
    rw [station?, Bool.eq_iff_iff, List.find?_isSome]
    simp
  rw [hmem, hmem, h]

theorem distinct_of_map_name_eq (hdistinct : bank.Distinct)
    (h : other.map Station.name = bank.map Station.name) : other.Distinct := by
  rw [Distinct, h]
  exact hdistinct

/-! ## Changing every station -/

theorem station?_map {change : Station → Station}
    (hname : ∀ s, (change s).name = s.name) (bank : Bank) (name : String) :
    station? (bank.map change) name = (bank.station? name).map change := by
  simp only [station?, List.find?_map]
  congr 2
  funext s
  simp [hname]

/-- What a change keeps of every station it keeps of the bank. -/
theorem map_map_of_keeps {α : Type} {f : Station → α}
    {change : Station → Station} (hkeeps : ∀ s, f (change s) = f s)
    (bank : Bank) : (bank.map change).map f = bank.map f := by
  rw [List.map_map]
  exact List.map_congr_left fun s _ => hkeeps s

/-- Two banks whose stations are related place by place are related name by
name. -/
theorem rel_station?_of_forall₂ {R : Station → Station → Prop}
    (hname : ∀ s t, R s t → t.name = s.name)
    (h : List.Forall₂ R bank other) (name : String) :
    Option.Rel R (bank.station? name) (other.station? name) := by
  induction h with
  | nil => exact .none
  | @cons s t rest rest' hst _ ih =>
      have heq := hname s t hst
      by_cases hs : s.name = name
      · simpa [station?, hs, heq] using Option.Rel.some hst
      · simpa [station?, hs, heq] using ih

theorem map_of_forall₂ {α : Type} {f : Station → α}
    {R : Station → Station → Prop} (hkeeps : ∀ s t, R s t → f t = f s)
    (h : List.Forall₂ R bank other) : other.map f = bank.map f := by
  induction h with
  | nil => rfl
  | cons hst _ ih => simp [hkeeps _ _ hst, ih]

theorem exists_mem_of_forall₂ {R : Station → Station → Prop}
    (h : List.Forall₂ R bank other) (hmem : station ∈ other) :
    ∃ before ∈ bank, R before station := by
  induction h with
  | nil => contradiction
  | @cons s t rest rest' hst _ ih =>
      rcases List.mem_cons.mp hmem with rfl | hrest
      · exact ⟨s, List.mem_cons_self, hst⟩
      · obtain ⟨before, hbefore, hrel⟩ := ih hrest
        exact ⟨before, List.mem_cons_of_mem _ hbefore, hrel⟩

/-! ## Changing the first station that meets a condition -/

variable {condition : Station → Bool} {change : Station → Station}

theorem changeFirst_append {front back : Bank}
    (hfront : ∀ s ∈ front, condition s = false) (h : condition station = true) :
    changeFirst (front ++ station :: back) condition change =
      front ++ change station :: back := by
  induction front with
  | nil => simp [changeFirst, List.findIdx_cons, h]
  | cons first rest ih =>
      have hfirst : condition first = false := hfront first (by simp)
      have hrest := ih fun s hs => hfront s (by simp [hs])
      simpa [changeFirst, List.findIdx_cons, hfirst] using hrest

theorem map_changeFirst {α : Type} {f : Station → α}
    (hkeeps : ∀ s, f (change s) = f s) :
    (bank.changeFirst condition change).map f = bank.map f := by
  apply List.ext_getElem?
  intro index
  simp only [changeFirst, List.getElem?_map, List.getElem?_modify]
  split <;> cases bank[index]? <;> simp [hkeeps]

/-- Of the stations that are counted only the changed one may be another. -/
theorem countP_changeFirst (counted : Station → Bool)
    (h : bank.find? condition = some station) (change : Station → Station) :
    List.countP counted (bank.changeFirst condition change) +
        (counted station).toNat =
      bank.countP counted + (counted (change station)).toNat := by
  obtain ⟨hmeets, front, back, rfl, hfront⟩ :=
    List.find?_eq_some_iff_append.mp h
  rw [changeFirst_append (by simpa using hfront) hmeets]
  have htoNat : ∀ counted : Bool,
      (if counted = true then 1 else 0) = counted.toNat := by
    decide
  simp only [List.countP_append, List.countP_cons, htoNat]
  omega

/-- What holds of all stations, and what a change keeps, holds when one of them
has been changed. -/
theorem forall_mem_changeFirst {P : Station → Prop}
    (hkeeps : ∀ s, P s → P (change s)) (h : ∀ s ∈ bank, P s) :
    ∀ s ∈ bank.changeFirst condition change, P s := by
  intro s hmem
  obtain ⟨index, hindex⟩ := List.mem_iff_getElem?.mp hmem
  rw [changeFirst, List.getElem?_modify] at hindex
  obtain ⟨before, hbefore, hchanged⟩ := Option.map_eq_some_iff.mp hindex
  have hkept := h before (List.mem_of_getElem? hbefore)
  split at hchanged
  · rw [← hchanged]
    exact hkeeps before hkept
  · rw [← hchanged]
    exact hkept

/-- Changing the first station that meets a condition changes the station of
that name, and no other. -/
theorem Distinct.station?_changeFirst (hdistinct : bank.Distinct)
    (hname : ∀ s, (change s).name = s.name)
    (h : bank.find? condition = some station) (name : String) :
    station? (bank.changeFirst condition change) name =
      if name = station.name then some (change station)
      else bank.station? name := by
  have hchanged : (bank.changeFirst condition change).Distinct :=
    distinct_of_map_name_eq hdistinct (map_changeFirst hname)
  obtain ⟨hmeets, front, back, rfl, hfront⟩ :=
    List.find?_eq_some_iff_append.mp h
  have hsplit : changeFirst (front ++ station :: back) condition change =
      front ++ change station :: back :=
    changeFirst_append (by simpa using hfront) hmeets
  rw [hsplit] at hchanged ⊢
  split
  · next heq =>
      rw [hchanged.station?_eq_some_iff, hname]
      exact ⟨by simp, heq.symm⟩
  · next hne =>
      have hne' : station.name ≠ name := fun heq => hne heq.symm
      simp [station?, hname, hne']

end Bank

end OutOfOrder
