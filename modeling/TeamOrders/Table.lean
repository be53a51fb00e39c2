import TeamOrders.Names

/-!
# Ordered tables

A finite map from texts to values, kept as the list of its entries in ascending order of the keys.
Writing to a key that is present replaces its value.
-/

namespace TeamOrders

/-- Writes an entry into an ascending list of entries. -/
def putAscending {α : Type} (key : String) (value : α) : List (String × α) → List (String × α)
  | [] => [(key, value)]
  | first :: rest =>
    if key < first.1 then (key, value) :: first :: rest
    else if key = first.1 then (key, value) :: rest
    else first :: putAscending key value rest

theorem keys_putAscending {α : Type} (key : String) (value : α) (entries : List (String × α)) :
    (putAscending key value entries).map Prod.fst = insertAscending key (entries.map Prod.fst) := by
  induction entries with
  | nil => rfl
  | cons first rest ih =>
    unfold putAscending
    split
    · rename_i hlt
      simp [insertAscending, hlt]
    · split
      · rename_i hnlt heq
        subst heq
        simp [insertAscending]
      · rename_i hnlt hne
        simp [insertAscending, hnlt, hne, ih]

/-- A finite map with its keys in ascending order. -/
structure Table (α : Type) where
  entries : List (String × α)
  ascending : (entries.map Prod.fst).Pairwise (· < ·)

namespace Table

variable {α : Type}

def empty : Table α := ⟨[], ascending_nil⟩

instance : Inhabited (Table α) := ⟨empty⟩

theorem eq_of_entries {a b : Table α} (h : a.entries = b.entries) : a = b := by
  cases a
  cases b
  simp_all

instance [DecidableEq α] : DecidableEq (Table α) := fun a b =>
  if h : a.entries = b.entries then isTrue (eq_of_entries h)
  else isFalse fun heq => h (heq ▸ rfl)

/-- Writes an entry, replacing the value that the key had. -/
def insert (table : Table α) (key : String) (value : α) : Table α :=
  ⟨putAscending key value table.entries, by
    rw [keys_putAscending]
    exact pairwise_insertAscending table.ascending⟩

/-- The table of a list of entries, of which a later one wins. -/
def ofList (entries : List (String × α)) : Table α :=
  entries.foldl (fun table entry => table.insert entry.1 entry.2) empty

def keys (table : Table α) : List String := table.entries.map Prod.fst

def find? (table : Table α) (key : String) : Option α :=
  (table.entries.find? fun entry => entry.1 == key).map Prod.snd

def map {β : Type} (f : α → β) (table : Table α) : Table β :=
  ⟨table.entries.map fun entry => (entry.1, f entry.2), by
    simpa [List.map_map, Function.comp_def] using table.ascending⟩

end Table

end TeamOrders
