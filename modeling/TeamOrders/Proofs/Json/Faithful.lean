import TeamOrders.Json.Members
import TeamOrders.Proofs.Table

/-!
# Written values are read back

A reader may accept one thing in several forms, of which its writer knows one. So reading and writing
are no inverses of each other on all values. But a reader gives results of a certain sort only, and
each result of that sort is read from its written form. Hence what was read once, from whatever form,
is read again from the form in which it is written.
-/

namespace TeamOrders.Json

variable {α β : Type}

/-- What is read is legal, and what is legal is read from its written form. -/
structure Faithful (read : Json → Option α) (write : α → Json) (legal : α → Prop) : Prop where
  legal_of_read : ∀ {value x}, read value = some x → legal x
  read_write : ∀ {x}, legal x → read (write x) = some x

/-- Reading undoes writing for everything that was ever read, writing what was read changes nothing the
second time, and it is known what can be read at all. -/
structure RoundTrip (read : Json → Option α) (write : α → Json) (legal : α → Prop) : Prop where
  restores : ∀ value x, read value = some x → read (write x) = some x
  idempotent : ∀ value written, (read value).map write = some written →
    (read written).map write = some written
  readable : ∀ x, (∃ value, read value = some x) ↔ legal x

theorem Faithful.roundTrip {read : Json → Option α} {write : α → Json} {legal : α → Prop}
    (h : Faithful read write legal) : RoundTrip read write legal where
  restores := fun _ _ hread => h.read_write (h.legal_of_read hread)
  idempotent := by
    intro value written hwritten
    obtain ⟨x, hread, rfl⟩ := Option.map_eq_some_iff.mp hwritten
    rw [h.read_write (h.legal_of_read hread), Option.map_some]
  readable := fun x => ⟨fun ⟨_, hread⟩ => h.legal_of_read hread, fun hx => ⟨_, h.read_write hx⟩⟩

/-! ### Single values -/

theorem faithful_text : Faithful text? .string fun _ => True where
  legal_of_read := fun _ => trivial
  read_write := fun _ => rfl

theorem faithful_bool : Faithful bool? .bool fun _ => True where
  legal_of_read := fun _ => trivial
  read_write := fun _ => rfl

theorem faithful_double : Faithful double? .double fun _ => True where
  legal_of_read := fun _ => trivial
  read_write := fun _ => rfl

theorem faithful_natBelow {limit : Nat} : Faithful (natBelow? limit) nat (· < limit) where
  legal_of_read := by
    intro value n h
    cases value with
    | int m =>
      obtain ⟨hlimit, h⟩ := Option.ite_none_right_eq_some.mp h
      cases h
      rw [Bool.and_eq_true, decide_eq_true_eq, decide_eq_true_eq] at hlimit
      omega
    | _ => cases h
  read_write := by
    intro n hn
    simp [natBelow?, nat, hn]

theorem faithful_named {tagged : Bool} {all : List α} {name : α → String}
    (h : ∀ x, (all.find? fun y => name y == name x) = some x) :
    Faithful (named? tagged all name) (fun x => .string (name x)) fun _ => True where
  legal_of_read := fun _ => trivial
  read_write := fun {x} _ => h x

/-! ### Collections -/

theorem exists_of_mem_of_mapM {f : β → Option α} {items : List β} {xs : List α}
    (h : items.mapM f = some xs) {x : α} (hx : x ∈ xs) : ∃ item ∈ items, f item = some x := by
  induction items generalizing xs with
  | nil =>
    cases h
    exact absurd hx List.not_mem_nil
  | cons item items ih =>
    simp only [List.mapM_cons, Option.bind_eq_bind, Option.bind_eq_some_iff] at h
    obtain ⟨first, hfirst, rest, hrest, heq⟩ := h
    cases heq
    rcases List.mem_cons.mp hx with rfl | hx
    · exact ⟨item, List.mem_cons_self, hfirst⟩
    · obtain ⟨other, hmem, hother⟩ := ih hrest hx
      exact ⟨other, List.mem_cons_of_mem item hmem, hother⟩

theorem mapM_map_eq_some {f : β → Option α} {g : α → β} {xs : List α}
    (h : ∀ x ∈ xs, f (g x) = some x) : (xs.map g).mapM f = some xs := by
  induction xs with
  | nil => rfl
  | cons x xs ih =>
    have hfirst := h x List.mem_cons_self
    have hrest := ih fun y hy => h y (List.mem_cons_of_mem x hy)
    rw [List.map_cons, List.mapM_cons, hfirst, hrest]
    rfl

theorem exists_of_mem_of_list {read : Json → Option α} {value : Json} {xs : List α}
    (h : list? read value = some xs) {x : α} (hx : x ∈ xs) : ∃ item, read item = some x := by
  cases value with
  | array items =>
    obtain ⟨item, -, hitem⟩ := exists_of_mem_of_mapM h hx
    exact ⟨item, hitem⟩
  | _ => cases h

variable {read : Json → Option α} {write : α → Json} {legal : α → Prop}

theorem faithful_list (h : Faithful read write legal) :
    Faithful (list? read) (fun xs => .array (xs.map write)) fun xs => ∀ x ∈ xs, legal x where
  legal_of_read := by
    intro value xs hread x hx
    obtain ⟨item, hitem⟩ := exists_of_mem_of_list hread hx
    exact h.legal_of_read hitem
  read_write := fun hlegal => mapM_map_eq_some fun x hx => h.read_write (hlegal x hx)

theorem faithful_texts : Faithful texts? strings fun _ => True where
  legal_of_read := fun _ => trivial
  read_write := fun _ => (faithful_list faithful_text).read_write fun _ _ => trivial

theorem faithful_nameSet : Faithful nameSet? ofNameSet fun _ => True where
  legal_of_read := fun _ => trivial
  read_write := by
    intro set _
    have htexts : texts? (ofNameSet set) = some set.names := faithful_texts.read_write trivial
    rw [nameSet?, htexts, Option.map_some, NameSet.ofList_names]

theorem faithful_table (h : Faithful read write legal) :
    Faithful (table? read) (ofTable write) fun table => ∀ entry ∈ table.entries, legal entry.2 where
  legal_of_read := by
    intro value table hread entry hentry
    cases value with
    | object members =>
      simp only [table?, Option.bind_eq_bind, Option.bind_eq_some_iff] at hread
      obtain ⟨entries, hentries, heq⟩ := hread
      cases heq
      obtain ⟨member, -, hmember⟩ := exists_of_mem_of_mapM hentries (Table.mem_of_mem_ofList hentry)
      obtain ⟨x, hx, rfl⟩ := Option.map_eq_some_iff.mp hmember
      exact h.legal_of_read hx
    | _ => cases hread
  read_write := by
    intro table hlegal
    simp only [ofTable, table?, Option.bind_eq_bind]
    rw [mapM_map_eq_some, Option.bind_some, Table.ofList_entries]
    intro entry hentry
    simp only [h.read_write (hlegal entry hentry), Option.map_some]

theorem faithful_textTable : Faithful (table? text?) (ofTable .string) fun _ => True where
  legal_of_read := fun _ => trivial
  read_write := fun _ => (faithful_table faithful_text).read_write fun _ _ => trivial

/-! ### Values that are kept -/

theorem mem_sortedMembers {member : String × Json} {members : List (String × Json)}
    (h : member ∈ sortedMembers members) : ∃ other ∈ members, member = (other.1, other.2.sorted) := by
  induction members with
  | nil => exact absurd h List.not_mem_nil
  | cons first rest ih =>
    have hrest : member ∈ sortedMembers rest →
        ∃ other ∈ first :: rest, member = (other.1, other.2.sorted) := by
      intro h
      obtain ⟨other, hmem, heq⟩ := ih h
      exact ⟨other, List.mem_cons_of_mem first hmem, heq⟩
    rw [sortedMembers] at h
    split at h
    · exact hrest h
    · rcases mem_of_mem_putAscending h with h | h
      · exact ⟨first, List.mem_cons_self, h⟩
      · exact hrest h

theorem ascending_sortedMembers (members : List (String × Json)) :
    ((sortedMembers members).map Prod.fst).Pairwise (· < ·) := by
  induction members with
  | nil => exact ascending_nil
  | cons first rest ih =>
    rw [sortedMembers]
    split
    · exact ih
    · rw [keys_putAscending]
      exact pairwise_insertAscending ih

theorem sortedMembers_eq_self {members : List (String × Json)}
    (hascending : (members.map Prod.fst).Pairwise (· < ·))
    (hvalues : ∀ member ∈ members, member.2.sorted = member.2) :
    sortedMembers members = members := by
  induction members with
  | nil => rfl
  | cons first rest ih =>
    obtain ⟨hbelow, htail⟩ := List.pairwise_cons.mp hascending
    have hrest := ih htail fun member hmember => hvalues member (List.mem_cons_of_mem first hmember)
    have hfirst := hvalues first List.mem_cons_self
    have hnew : rest.any (·.1 == first.1) = false := by
      rw [List.any_eq_false]
      intro member hmember heq
      have hlt := hbelow member.1 (List.mem_map_of_mem hmember)
      exact String.lt_irrefl _ (eq_of_beq heq ▸ hlt)
    have hput : putAscending first.1 first.2 rest = first :: rest := by
      cases rest with
      | nil => rfl
      | cons second rest =>
        have hlt : first.1 < second.1 := hbelow second.1 List.mem_cons_self
        rw [putAscending, if_pos hlt]
    rw [sortedMembers, hrest]
    simp only [hnew, hfirst, hput]
    rfl

mutual

theorem sorted_sorted : (value : Json) → value.sorted.sorted = value.sorted
  | .null => rfl
  | .bool _ => rfl
  | .int _ => rfl
  | .double _ => rfl
  | .string _ => rfl
  | .array items => by
    rw [sorted, sorted, sortedItems_sortedItems items]
  | .object members => by
    rw [sorted, sorted, sortedMembers_eq_self (ascending_sortedMembers members)]
    intro member hmember
    obtain ⟨other, hother, rfl⟩ := mem_sortedMembers hmember
    exact sorted_values members other hother

theorem sortedItems_sortedItems : (items : List Json) →
    sortedItems (sortedItems items) = sortedItems items
  | [] => rfl
  | item :: items => by
    simp only [sortedItems, sorted_sorted item, sortedItems_sortedItems items]

theorem sorted_values : (members : List (String × Json)) →
    ∀ member ∈ members, member.2.sorted.sorted = member.2.sorted
  | [] => fun _ h => absurd h List.not_mem_nil
  | (name, value) :: rest => by
    intro member hmember
    rcases List.mem_cons.mp hmember with rfl | hmember
    · exact sorted_sorted value
    · exact sorted_values rest member hmember

end

/-- All objects in the values of the table have their members in ascending order. -/
def Canonical (table : Table Json) : Prop := ∀ entry ∈ table.entries, entry.2.sorted = entry.2

theorem faithful_opaqueTable : Faithful opaqueTable? (ofTable id) Canonical := by
  have hkept : Faithful (fun value => some value.sorted) id fun value => value.sorted = value := by
    constructor
    · intro value x h
      cases h
      exact sorted_sorted value
    · intro x hx
      exact congrArg some hx
  exact faithful_table hkept

end TeamOrders.Json
