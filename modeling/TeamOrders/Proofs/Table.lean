import TeamOrders.Table

/-!
# Reading a table back

A table is its entries in ascending order, so looking up a key is searching a list. What is found
after an entry has been written is the value written under its key, and what was there before under
all others. Entries that are written in ascending order are appended, so the entries of a table make
that table again, and the names of a set make that set.
-/

namespace TeamOrders

variable {α : Type}

theorem find?_putAscending (key other : String) (value : α) (entries : List (String × α)) :
    (putAscending key value entries).find? (fun entry => entry.1 == other)
      = if key = other then some (key, value)
        else entries.find? (fun entry => entry.1 == other) := by
  induction entries with
  | nil =>
    by_cases h : key = other
    · simp [putAscending, h]
    · simp [putAscending, h]
  | cons first rest ih =>
    unfold putAscending
    split
    · by_cases h : key = other
      · simp [h]
      · simp [h]
    · split
      · rename_i heq
        by_cases h : key = other
        · simp [h]
        · simp [h, ← heq]
      · rename_i hne
        rw [List.find?_cons, List.find?_cons, ih]
        by_cases h : key = other
        · have hfirst : (first.1 == other) = false := by
            rw [beq_eq_false_iff_ne, ← h]
            exact Ne.symm hne
          simp [h, hfirst]
        · simp [h]

/-- A key above all others is written at the end. -/
theorem putAscending_of_last {key : String} {entries : List (String × α)}
    (h : ∀ entry ∈ entries, entry.1 < key) (value : α) :
    putAscending key value entries = entries ++ [(key, value)] := by
  induction entries with
  | nil => rfl
  | cons first rest ih =>
    have hfirst := h first List.mem_cons_self
    have hrest := ih fun entry hentry => h entry (List.mem_cons_of_mem first hentry)
    have hnlt : ¬key < first.1 := String.lt_asymm hfirst
    have hne : key ≠ first.1 := fun heq => String.lt_irrefl _ (heq ▸ hfirst)
    rw [putAscending, if_neg hnlt, if_neg hne, hrest]
    rfl

theorem find?_of_mem_of_nodup {key : String} {value : α} {entries : List (String × α)}
    (hkeys : (entries.map Prod.fst).Nodup) (h : (key, value) ∈ entries) :
    (entries.find? fun entry => entry.1 == key) = some (key, value) := by
  induction entries with
  | nil => cases h
  | cons first rest ih =>
    obtain ⟨hfirst, hrest⟩ := List.nodup_cons.mp hkeys
    rcases List.mem_cons.mp h with rfl | h
    · simp
    · have hne : (first.1 == key) = false := by
        rw [beq_eq_false_iff_ne]
        rintro rfl
        exact hfirst (List.mem_map.mpr ⟨_, h, rfl⟩)
      rw [List.find?_cons, hne]
      exact ih hrest h

/-- Writing under a new key adds an entry, wherever it is put. -/
theorem putAscending_perm {key : String} {entries : List (String × α)}
    (h : key ∉ entries.map Prod.fst) (value : α) :
    (putAscending key value entries).Perm ((key, value) :: entries) := by
  induction entries with
  | nil => exact List.Perm.refl _
  | cons first rest ih =>
    rw [List.map_cons, List.mem_cons, not_or] at h
    unfold putAscending
    split
    · exact List.Perm.refl _
    · rw [if_neg h.1]
      exact ((ih h.2).cons first).trans (List.Perm.swap _ _ _)

theorem putAscending_map {β : Type} (f : α → β) (key : String) (value : α)
    (entries : List (String × α)) :
    (putAscending key value entries).map (fun entry => (entry.1, f entry.2))
      = putAscending key (f value) (entries.map fun entry => (entry.1, f entry.2)) := by
  induction entries with
  | nil => rfl
  | cons first rest ih =>
    rw [List.map_cons]
    unfold putAscending
    dsimp only
    split
    · rfl
    · split
      · rfl
      · rw [List.map_cons, ih]

theorem mem_of_mem_putAscending {key : String} {value : α} {entry : String × α}
    {entries : List (String × α)} (h : entry ∈ putAscending key value entries) :
    entry = (key, value) ∨ entry ∈ entries := by
  induction entries with
  | nil => exact .inl (List.mem_singleton.mp h)
  | cons first rest ih =>
    unfold putAscending at h
    split at h
    · exact List.mem_cons.mp h
    · split at h
      · rcases List.mem_cons.mp h with h | h
        · exact .inl h
        · exact .inr (List.mem_cons_of_mem first h)
      · rcases List.mem_cons.mp h with h | h
        · exact .inr (h ▸ List.mem_cons_self)
        · exact (ih h).imp_right (List.mem_cons_of_mem first)

theorem insertAscending_of_last {name : String} {names : List String} (h : ∀ x ∈ names, x < name) :
    insertAscending name names = names ++ [name] := by
  have hput : putAscending name () (names.map fun x => (x, ()))
      = (names.map fun x => (x, ())) ++ [(name, ())] := putAscending_of_last (by simpa using h) ()
  have hkeys := congrArg (List.map Prod.fst) hput
  rw [keys_putAscending] at hkeys
  simpa [List.map_map, Function.comp_def] using hkeys

theorem nodup_of_ascending {names : List String} (h : names.Pairwise (· < ·)) : names.Nodup := by
  refine h.imp ?_
  rintro a b hless rfl
  exact String.lt_irrefl a hless

theorem NameSet.nodup (set : NameSet) : set.names.Nodup := nodup_of_ascending set.ascending

theorem NameSet.eq_of_names {a b : NameSet} (h : a.names = b.names) : a = b := by
  cases a
  cases b
  simp_all

theorem NameSet.mem_names_ofList {name : String} {names : List String} :
    name ∈ (ofList names).names ↔ name ∈ names := by
  suffices h : ∀ set : NameSet,
      name ∈ (names.foldl insert set).names ↔ name ∈ set.names ∨ name ∈ names by
    have hempty : name ∉ empty.names := List.not_mem_nil
    exact (h empty).trans (or_iff_right hempty)
  induction names with
  | nil => simp
  | cons first rest ih =>
    intro set
    rw [List.foldl_cons, ih, insert, mem_insertAscending, List.mem_cons, or_assoc, or_left_comm]

theorem NameSet.ofList_names (set : NameSet) : NameSet.ofList set.names = set := by
  suffices h : ∀ (rest : List String) (start : NameSet),
      (start.names ++ rest).Pairwise (· < ·) →
        (rest.foldl NameSet.insert start).names = start.names ++ rest by
    exact NameSet.eq_of_names (h set.names .empty set.ascending)
  intro rest
  induction rest with
  | nil =>
    intro start _
    simp
  | cons name rest ih =>
    intro start hascending
    have hlast : ∀ x ∈ start.names, x < name := fun x hx =>
      (List.pairwise_append.mp hascending).2.2 x hx name List.mem_cons_self
    have hinsert : (start.insert name).names = start.names ++ [name] :=
      insertAscending_of_last hlast
    rw [List.foldl_cons, ih (start.insert name) (by simpa [hinsert] using hascending), hinsert,
      List.append_assoc]
    rfl

namespace Table

theorem ofList_entries (table : Table α) : ofList table.entries = table := by
  suffices h : ∀ (rest : List (String × α)) (start : Table α),
      ((start.entries ++ rest).map Prod.fst).Pairwise (· < ·) →
        (rest.foldl (fun table entry => table.insert entry.1 entry.2) start).entries
          = start.entries ++ rest by
    exact eq_of_entries (h table.entries empty table.ascending)
  intro rest
  induction rest with
  | nil =>
    intro start _
    simp
  | cons entry rest ih =>
    intro start hascending
    have hlast : ∀ other ∈ start.entries, other.1 < entry.1 := by
      rw [List.map_append] at hascending
      intro other hother
      exact (List.pairwise_append.mp hascending).2.2 other.1 (List.mem_map_of_mem hother) entry.1
        List.mem_cons_self
    have hinsert : (start.insert entry.1 entry.2).entries = start.entries ++ [entry] :=
      putAscending_of_last hlast entry.2
    rw [List.foldl_cons, ih _ (by simpa [hinsert] using hascending), hinsert, List.append_assoc]
    rfl

theorem mem_of_mem_ofList {entry : String × α} {entries : List (String × α)}
    (h : entry ∈ (ofList entries).entries) : entry ∈ entries := by
  suffices hfold : ∀ table : Table α,
      entry ∈ (entries.foldl (fun table entry => table.insert entry.1 entry.2) table).entries →
        entry ∈ table.entries ∨ entry ∈ entries by
    exact (hfold empty h).resolve_left List.not_mem_nil
  clear h
  induction entries with
  | nil =>
    intro table h
    exact .inl h
  | cons first rest ih =>
    intro table h
    rcases ih _ h with h | h
    · rcases mem_of_mem_putAscending h with h | h
      · exact .inr (h ▸ List.mem_cons_self)
      · exact .inl h
    · exact .inr (List.mem_cons_of_mem first h)

/-- Entries with different keys are the entries of the table that is made from them. -/
theorem perm_entries_ofList {entries : List (String × α)} (h : (entries.map Prod.fst).Nodup) :
    (ofList entries).entries.Perm entries := by
  suffices hfold : ∀ table : Table α, ((table.entries ++ entries).map Prod.fst).Nodup →
      (entries.foldl (fun table entry => table.insert entry.1 entry.2) table).entries.Perm
        (table.entries ++ entries) by
    exact hfold empty h
  clear h
  induction entries with
  | nil =>
    intro table _
    rw [List.append_nil]
    exact List.Perm.refl _
  | cons entry rest ih =>
    intro table h
    have hnew : entry.1 ∉ table.entries.map Prod.fst := by
      rw [List.map_append, List.map_cons, List.nodup_append] at h
      exact fun hmem => h.2.2 _ hmem _ List.mem_cons_self rfl
    have hperm : ((table.insert entry.1 entry.2).entries ++ rest).Perm
        (table.entries ++ entry :: rest) :=
      ((putAscending_perm hnew entry.2).append_right rest).trans List.perm_middle.symm
    rw [List.foldl_cons]
    exact (ih _ ((hperm.map Prod.fst).nodup_iff.mpr h)).trans hperm

theorem ofList_map {β : Type} (f : α → β) (entries : List (String × α)) :
    ofList (entries.map fun entry => (entry.1, f entry.2)) = (ofList entries).map f := by
  suffices hfold : ∀ table : Table α,
      (entries.map fun entry => (entry.1, f entry.2)).foldl
          (fun table entry => table.insert entry.1 entry.2) (table.map f)
        = (entries.foldl (fun table entry => table.insert entry.1 entry.2) table).map f by
    exact hfold empty
  induction entries with
  | nil => exact fun _ => rfl
  | cons entry rest ih =>
    intro table
    have hinsert : (table.map f).insert entry.1 (f entry.2) = (table.insert entry.1 entry.2).map f :=
      eq_of_entries (putAscending_map f entry.1 entry.2 table.entries).symm
    rw [List.map_cons, List.foldl_cons, List.foldl_cons, hinsert]
    exact ih _

theorem find?_of_mem {table : Table α} {key : String} {value : α}
    (h : (key, value) ∈ table.entries) : table.find? key = some value := by
  rw [find?, find?_of_mem_of_nodup (nodup_of_ascending table.ascending) h]
  rfl

theorem find?_insert (table : Table α) (key other : String) (value : α) :
    (table.insert key value).find? other
      = if key = other then some value else table.find? other := by
  simp only [find?, insert, find?_putAscending]
  split <;> rfl

theorem mem_keys_insert {table : Table α} {key other : String} {value : α} :
    other ∈ (table.insert key value).keys ↔ other = key ∨ other ∈ table.keys := by
  simp only [keys, insert, keys_putAscending, mem_insertAscending]

theorem mem_keys_ofList {key : String} {entries : List (String × α)} :
    key ∈ (ofList entries).keys ↔ key ∈ entries.map Prod.fst := by
  suffices h : ∀ table : Table α,
      key ∈ (entries.foldl (fun table entry => table.insert entry.1 entry.2) table).keys
        ↔ key ∈ table.keys ∨ key ∈ entries.map Prod.fst by
    have hempty : key ∉ (empty : Table α).keys := List.not_mem_nil
    exact (h empty).trans (or_iff_right hempty)
  induction entries with
  | nil => simp
  | cons entry rest ih =>
    intro table
    rw [List.foldl_cons, ih, mem_keys_insert, List.map_cons, List.mem_cons]
    rw [or_assoc, or_left_comm]

end Table

end TeamOrders
