import TeamOrders.Proofs.Json.Faithful

/-!
# Fields of written records

A record is written as an object of its fields. What is read from a field is legal, whether it was
given or left out; and what is legal is read from a field that holds it in its written form. A field
without a value is left out of the written record.
-/

namespace TeamOrders.Json

variable {α : Type} {read : Json → Option α} {write : α → Json} {legal : α → Prop}
  {fields written : Fields} {name : String}

/-! ### What was given -/

theorem exists_of_required {x : α} (hread : fields.required name read = some x) :
    ∃ value, read value = some x := by
  unfold Fields.required at hread
  split at hread
  · exact ⟨_, hread⟩
  · cases hread

/-- What a field with a default comes to was read or is the default. -/
theorem exists_or_eq_of_defaulted {default x : α}
    (hread : fields.defaulted name default read = some x) :
    (∃ value, read value = some x) ∨ x = default := by
  unfold Fields.defaulted at hread
  split at hread
  · exact .inl ⟨_, hread⟩
  · exact .inr (Option.some.inj hread).symm

theorem exists_of_optional {x : α} (hread : fields.optional name read = some (some x)) :
    ∃ value, read value = some x := by
  rcases exists_or_eq_of_defaulted hread with ⟨value, hvalue⟩ | hnone
  · unfold Fields.nullable at hvalue
    split at hvalue
    · cases hvalue
    · obtain ⟨y, hy, heq⟩ := Option.map_eq_some_iff.mp hvalue
      cases heq
      exact ⟨_, hy⟩
  · cases hnone

namespace Faithful

theorem legal_of_required (h : Faithful read write legal) {x : α}
    (hread : fields.required name read = some x) : legal x := by
  obtain ⟨value, hvalue⟩ := exists_of_required hread
  exact h.legal_of_read hvalue

theorem legal_of_defaulted (h : Faithful read write legal) {default x : α} (hdefault : legal default)
    (hread : fields.defaulted name default read = some x) : legal x := by
  rcases exists_or_eq_of_defaulted hread with ⟨value, hvalue⟩ | rfl
  · exact h.legal_of_read hvalue
  · exact hdefault

theorem legal_of_optional (h : Faithful read write legal) {x? : Option α}
    (hread : fields.optional name read = some x?) : ∀ x, x? = some x → legal x := by
  rintro x rfl
  obtain ⟨value, hvalue⟩ := exists_of_optional hread
  exact h.legal_of_read hvalue

/-! ### What is written -/

theorem required (h : Faithful read write legal) {x : α} (hlegal : legal x)
    (hwritten : written.find? name = some (write x)) : written.required name read = some x := by
  simp only [Fields.required, hwritten, h.read_write hlegal]

theorem defaulted (h : Faithful read write legal) {default x : α} (hlegal : legal x)
    (hwritten : written.find? name = some (write x)) :
    written.defaulted name default read = some x := by
  simp only [Fields.defaulted, hwritten, h.read_write hlegal]

theorem nullable (h : Faithful read write legal) {x : α} (hlegal : legal x)
    (hnull : write x ≠ .null) : Fields.nullable read (write x) = some (some x) := by
  unfold Fields.nullable
  split
  · rename_i heq
    exact absurd heq hnull
  · rw [h.read_write hlegal, Option.map_some]

/-- A value that is written is not taken for a missing one, as it is not written as `null`. -/
theorem optional (h : Faithful read write legal) (hnull : ∀ x, write x ≠ .null) {x? : Option α}
    (hlegal : ∀ x, x? = some x → legal x) (hwritten : written.find? name = x?.map write) :
    written.optional name read = some x? := by
  cases x? with
  | none => simp only [Fields.optional, Fields.defaulted, hwritten, Option.map_none]
  | some x =>
    simp only [Fields.optional, Fields.defaulted, hwritten, Option.map_some,
      h.nullable (hlegal x rfl) (hnull x)]

/-- In an object a field that may be left out of objects only is like any other one that may be. -/
theorem optionalMember (h : Faithful read write legal) (hnull : ∀ x, write x ≠ .null) {x? : Option α}
    (hlegal : ∀ x, x? = some x → legal x) (hobject : written.positional = false)
    (hwritten : written.find? name = x?.map write) :
    written.optionalMember name read = some x? := by
  rw [Fields.optionalMember, hobject, if_neg Bool.false_ne_true]
  exact h.optional hnull hlegal hwritten

end Faithful

theorem string_ne_null (s : String) : Json.string s ≠ .null := fun h => Json.noConfusion h

theorem nat_ne_null (n : Nat) : nat n ≠ .null := fun h => Json.noConfusion h

theorem array_ne_null (items : List Json) : Json.array items ≠ .null := fun h => Json.noConfusion h

end TeamOrders.Json
