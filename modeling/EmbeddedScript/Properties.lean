/-!
# Ordered properties

Named entries in the order of their first setting. Setting a name that is
present replaces its entry where it stands; removing a name and setting it again
moves it to the end. The entries of a map built by `set` and `remove` never
repeat a name, which is why looking for the first one is enough.
-/

namespace EmbeddedScript

/-- **A map from names that remembers the order of insertion.** -/
structure Properties (α : Type) where
  /-- The entries, oldest first. -/
  entries : List (String × α)
deriving DecidableEq

namespace Properties

variable {α : Type}

/-- No entries. -/
def empty : Properties α := ⟨[]⟩

instance : Inhabited (Properties α) := ⟨empty⟩

/-- The entry of a name. -/
def get? (p : Properties α) (name : String) : Option α :=
  (p.entries.find? (·.1 = name)).map (·.2)

/-- The entries after `name` is set: in its place, or else at the end. -/
def setEntries (name : String) (a : α) : List (String × α) → List (String × α)
  | [] => [(name, a)]
  | (other, b) :: rest =>
    if other = name then (other, a) :: rest else (other, b) :: setEntries name a rest

/-- Set the entry of a name, which keeps its position if it has one. -/
def set (p : Properties α) (name : String) (a : α) : Properties α :=
  ⟨setEntries name a p.entries⟩

/-- Remove the entry of a name. -/
def remove (p : Properties α) (name : String) : Properties α :=
  ⟨p.entries.eraseP (·.1 = name)⟩

/-- Take out the entry of a name: its value, if there is one, and the map without it. -/
def take (p : Properties α) (name : String) : Option α × Properties α :=
  match p.entries.findIdx? (·.1 = name) with
  | none => (none, p)
  | some i => (p.entries[i]?.map (·.2), ⟨p.entries.eraseIdx i⟩)

/-- The name has an entry. -/
def contains (p : Properties α) (name : String) : Bool := (p.get? name).isSome

/-- The names, oldest first. -/
def keys (p : Properties α) : List String := p.entries.map (·.1)

/-- The entries' values, in the order of the names. -/
def values (p : Properties α) : List α := p.entries.map (·.2)

/-- The number of entries. -/
def size (p : Properties α) : Nat := p.entries.length

/-- There are no entries. -/
def isEmpty (p : Properties α) : Bool := p.entries.isEmpty

@[simp] theorem get?_empty (name : String) : (empty : Properties α).get? name = none := rfl

theorem find?_setEntries_self (name : String) (a : α) (l : List (String × α)) :
    (setEntries name a l).find? (·.1 = name) = some (name, a) := by
  induction l with
  | nil => simp [setEntries]
  | cons e l ih => by_cases h : e.1 = name <;> simp [setEntries, h, ih]

theorem find?_setEntries_of_ne {name other : String} (h : name ≠ other) (a : α)
    (l : List (String × α)) :
    (setEntries name a l).find? (·.1 = other) = l.find? (·.1 = other) := by
  induction l with
  | nil => simp [setEntries, h]
  | cons e l ih =>
    by_cases hn : e.1 = name
    · simp [setEntries, hn, h]
    · simp only [setEntries, if_neg hn, List.find?_cons, ih]

/-- Reading the name just set gives what was set. -/
@[simp] theorem get?_set_self (p : Properties α) (name : String) (a : α) :
    (p.set name a).get? name = some a := by
  simp [get?, set, find?_setEntries_self]

/-- Setting one name leaves every other as it was. -/
theorem get?_set_of_ne (p : Properties α) {name other : String} (h : name ≠ other) (a : α) :
    (p.set name a).get? other = p.get? other := by
  simp [get?, set, find?_setEntries_of_ne h]

/-- Taking an entry out answers what reading it would, and leaves what removing it would. -/
theorem take_eq (p : Properties α) (name : String) :
    p.take name = (p.get? name, p.remove name) := by
  unfold take get? remove
  rw [List.eraseP_eq_eraseIdx]
  cases hi : p.entries.findIdx? (·.1 = name) with
  | none =>
    have hnone : p.entries.find? (·.1 = name) = none :=
      List.find?_eq_none.2 fun entry hmem =>
        Bool.eq_false_iff.1 (List.findIdx?_eq_none_iff.1 hi entry hmem)
    simp only [hnone, Option.map_none]
  | some i =>
    obtain ⟨hlt, hname, hbefore⟩ := List.findIdx?_eq_some_iff_getElem.1 hi
    have hfind : p.entries.find? (·.1 = name) = some p.entries[i] :=
      List.find?_eq_some_iff_getElem.2 ⟨hname, i, hlt, rfl, fun j hj => by simpa using hbefore j hj⟩
    simp only [hfind, List.getElem?_eq_getElem hlt]

end Properties

end EmbeddedScript
