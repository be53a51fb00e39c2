/-!
# Ordered sets of names

A finite set of texts, kept as the list of its members in ascending order. Two sets with the same
members are equal, and every answer that lists a set lists it in this order.
-/

namespace TeamOrders

def insertAscending (name : String) : List String → List String
  | [] => [name]
  | first :: rest =>
    if name < first then name :: first :: rest
    else if name = first then first :: rest
    else first :: insertAscending name rest

theorem mem_insertAscending {x name : String} {names : List String} :
    x ∈ insertAscending name names ↔ x = name ∨ x ∈ names := by
  induction names with
  | nil => simp [insertAscending]
  | cons first rest ih =>
    unfold insertAscending
    split
    · simp
    · split
      · rename_i heq
        simp [heq]
      · simp only [List.mem_cons, ih]
        exact ⟨fun h => by rcases h with h | h | h <;> simp [h],
          fun h => by rcases h with h | h | h <;> simp [h]⟩

theorem pairwise_insertAscending {name : String} {names : List String}
    (ascending : names.Pairwise (· < ·)) : (insertAscending name names).Pairwise (· < ·) := by
  induction names with
  | nil => simp [insertAscending]
  | cons first rest ih =>
    have ⟨below, tail⟩ := List.pairwise_cons.mp ascending
    unfold insertAscending
    split
    · rename_i hlt
      refine List.pairwise_cons.mpr ⟨fun y hy => ?_, ascending⟩
      rcases List.mem_cons.mp hy with rfl | hy
      · exact hlt
      · exact String.lt_trans hlt (below y hy)
    · split
      · exact ascending
      · rename_i hnlt hne
        refine List.pairwise_cons.mpr ⟨fun y hy => ?_, ih tail⟩
        rcases mem_insertAscending.mp hy with rfl | hy
        · by_cases hgt : first < y
          · exact hgt
          · exact absurd (String.le_antisymm (String.not_lt.mp hgt) (String.not_lt.mp hnlt)) hne
        · exact below y hy

theorem ascending_nil : ([] : List String).Pairwise (· < ·) := List.Pairwise.nil

/-- A finite set of names in ascending order. -/
structure NameSet where
  names : List String
  ascending : names.Pairwise (· < ·)
deriving DecidableEq

namespace NameSet

def empty : NameSet := ⟨[], ascending_nil⟩

instance : Inhabited NameSet := ⟨empty⟩

/-- Adds a name; a name that is there already changes nothing. -/
def insert (set : NameSet) (name : String) : NameSet :=
  ⟨insertAscending name set.names, pairwise_insertAscending set.ascending⟩

def ofList (names : List String) : NameSet := names.foldl insert empty

end NameSet

end TeamOrders
