/-!
# Directories

A directory holds values under keys and keeps the order in which the keys were first entered.
Entering a key again replaces its value where it stands; a key that is removed and entered again
moves to the end.
-/

namespace OutOfOrder

/-- Values under keys, in the order in which the keys were entered. -/
structure Directory (κ α : Type) where
  entries : List (κ × α) := []
  deriving Repr

namespace Directory

variable {κ α : Type} [DecidableEq κ]

def get? (directory : Directory κ α) (key : κ) : Option α :=
  (directory.entries.find? (·.1 = key)).map (·.2)

def contains (directory : Directory κ α) (key : κ) : Bool :=
  (directory.get? key).isSome

/-- The entries with a value under a key: in the key's place, or at the end if the key is new. -/
def putEntry (key : κ) (value : α) : List (κ × α) → List (κ × α)
  | [] => [(key, value)]
  | entry :: rest =>
    if entry.1 = key then (key, value) :: rest else entry :: putEntry key value rest

def put (directory : Directory κ α) (key : κ) (value : α) : Directory κ α :=
  ⟨putEntry key value directory.entries⟩

def erase (directory : Directory κ α) (key : κ) : Directory κ α :=
  ⟨directory.entries.filter (·.1 ≠ key)⟩

def ofList (pairs : List (κ × α)) : Directory κ α :=
  pairs.foldl (fun directory (key, value) => directory.put key value) {}

@[simp] theorem get?_empty (key : κ) : ({} : Directory κ α).get? key = none :=
  rfl

theorem find?_putEntry (key other : κ) (value : α) (entries : List (κ × α)) :
    (putEntry key value entries).find? (·.1 = other) =
      if other = key then some (key, value) else entries.find? (·.1 = other) := by
  induction entries with
  | nil => by_cases h : other = key <;> simp [putEntry, h, Ne.symm]
  | cons entry rest ih =>
    unfold putEntry
    split
    · grind
    · grind

/-- A key has the value that was entered last. -/
theorem get?_put (directory : Directory κ α) (key other : κ) (value : α) :
    (directory.put key value).get? other =
      if other = key then some value else directory.get? other := by
  simp only [get?, put, find?_putEntry]
  split <;> rfl

theorem get?_erase (directory : Directory κ α) (key other : κ) :
    (directory.erase key).get? other = if other = key then none else directory.get? other := by
  simp only [get?, erase, List.find?_filter]
  split
  · next h => subst h; simp
  · next h =>
    congr 2
    funext entry
    grind

/-- Entering a key again keeps the keys in their order, and a new key comes last. -/
theorem keys_putEntry (key : κ) (value : α) (entries : List (κ × α)) :
    (putEntry key value entries).map (·.1) =
      if key ∈ entries.map (·.1) then entries.map (·.1) else entries.map (·.1) ++ [key] := by
  induction entries with
  | nil => simp [putEntry]
  | cons entry rest ih =>
    unfold putEntry
    split
    · next h => simp [h]
    · next h => grind

end Directory

end OutOfOrder
