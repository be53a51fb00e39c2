import TeamOrders.Distribution

/-!
# Choosers are greedy

A chooser is greedy if it picks rows with room only, and refuses a task only when no row has room. Both
ways of choosing are, whatever the weights. The rest of the theory of plans knows no more than this of
how a plan is made, except where it is about a particular way.
-/

namespace TeamOrders.Distribution

variable {σ : Type} {cap : Option Nat} {position : Nat} {weights : List Double} {rows : List Row}
  {seen rest : List (Option Double)} {best : Option (Nat × Double)}

/-- Whatever the state, a row with room is chosen among this many rows, if there is one. -/
structure Chooser.Greedy (chooser : Chooser σ) (cap : Option Nat) (count : Nat) : Prop where
  chosen : ∀ {state state' rows position}, rows.length = count →
    chooser.choose state rows = some (position, state') →
      ∃ row, rows[position]? = some row ∧ hasRoom cap row = true
  refused : ∀ {state rows}, rows.length = count → chooser.choose state rows = none →
    ∀ row ∈ rows, hasRoom cap row = false

/-! ### Taking turns -/

/-- Going round from any position passes every position once, whatever its number. -/
theorem mem_around {count next i : Nat} : i ∈ around count next ↔ i < count := by
  simp only [around, List.mem_map, List.mem_range]
  constructor
  · rintro ⟨k, hk, rfl⟩
    exact Nat.mod_lt _ (Nat.zero_lt_of_lt hk)
  · intro hi
    have hcount : 0 < count := Nat.zero_lt_of_lt hi
    -- From `next`, the position `i` lies as far ahead as `i` and what `next` lacks to a full round.
    refine ⟨(i + (count - next % count)) % count, Nat.mod_lt _ hcount, ?_⟩
    have hnext : next % count < count := Nat.mod_lt _ hcount
    calc (next + (i + (count - next % count)) % count) % count
        = (next % count + (i + (count - next % count))) % count := by
          rw [Nat.add_mod_mod, Nat.mod_add_mod]
      _ = (i + count) % count := by
          congr 1
          omega
      _ = i := by rw [Nat.add_mod_right, Nat.mod_eq_of_lt hi]

theorem greedy_inTurn (cap : Option Nat) (count : Nat) : (inTurn cap).Greedy cap count where
  chosen := by
    intro _ _ rows position _ h
    obtain ⟨i, hfind, heq⟩ := Option.map_eq_some_iff.mp h
    obtain ⟨rfl, -⟩ := Prod.mk.inj heq
    have hroom := List.find?_some hfind
    rwa [Option.any_eq_true] at hroom
  refused := by
    intro _ rows _ h row hrow
    have hnone := List.find?_eq_none.mp (Option.map_eq_none_iff.mp h)
    obtain ⟨i, hi, rfl⟩ := List.mem_iff_getElem.mp hrow
    simpa [List.getElem?_eq_getElem hi] using hnone i (mem_around.mpr hi)

/-! ### Choosing by weight -/

/-- The best so far after one more value, which stands at the position. -/
def better (position : Nat) (best : Option (Nat × Double)) : Option Double → Option (Nat × Double)
  | none => best
  | some value =>
    match best with
    | some (i, low) => if low.atMost value then some (i, low) else some (position, value)
    | none => some (position, value)

theorem go_cons (value : Option Double) : lowest.go position best (value :: rest)
    = lowest.go (position + 1) (better position best value) rest := by
  cases value with
  | none => rfl
  | some value =>
    cases best with
    | none => rfl
    | some choice =>
      rw [lowest.go, better]
      split <;> rfl

/-- What every step keeps of the values seen so far and the best among them, holds of all values and the
lowest. -/
theorem invariant_lowest {P : List (Option Double) → Option (Nat × Double) → Prop} (start : P [] none)
    (step : ∀ seen best value, P seen best → P (seen ++ [value]) (better seen.length best value))
    (values : List (Option Double)) : P values (lowest values) := by
  suffices hfrom : ∀ rest seen best, P seen best → P (seen ++ rest) (lowest.go seen.length best rest) from
    hfrom values [] none start
  intro rest
  induction rest with
  | nil =>
    intro seen best h
    rwa [List.append_nil, lowest.go]
  | cons value rest ih =>
    intro seen best h
    have hlength : (seen ++ [value]).length = seen.length + 1 := List.length_append
    rw [go_cons, List.append_cons, ← hlength]
    exact ih _ _ (step seen best value h)

def StandsAmong (seen : List (Option Double)) : Option (Nat × Double) → Prop
  | some (i, low) => seen[i]? = some (some low)
  | none => ∀ value ∈ seen, value = none

theorem StandsAmong.better (h : StandsAmong seen best) (value : Option Double) :
    StandsAmong (seen ++ [value]) (better seen.length best value) := by
  cases best with
  | none =>
    cases value with
    | none => exact List.forall_mem_append.mpr ⟨h, List.forall_mem_singleton.mpr rfl⟩
    | some value => exact List.getElem?_concat_length
  | some choice =>
    obtain ⟨i, low⟩ := choice
    have hkept : StandsAmong (seen ++ [value]) (some (i, low)) := by
      have hi := (List.getElem?_eq_some_iff.mp h).1
      exact (List.getElem?_append_left hi).trans h
    cases value with
    | none => exact hkept
    | some value =>
      rw [Distribution.better]
      split
      · exact hkept
      · exact List.getElem?_concat_length

theorem standsAmong_lowest (values : List (Option Double)) : StandsAmong values (lowest values) :=
  invariant_lowest (List.forall_mem_nil _) (fun _ _ value h => h.better value) values

def loads (cap : Option Nat) (weights : List Double) (rows : List Row) : List (Option Double) :=
  (rows.zip weights).map fun entry =>
    if hasRoom cap entry.1 then some (load entry.1 entry.2) else none

theorem choose_byWeight (cap : Option Nat) (weights : List Double) (rows : List Row) (state : Unit) :
    (byWeight cap weights).choose state rows
      = (lowest (loads cap weights rows)).map fun choice => (choice.1, ()) := rfl

theorem getElem?_loads {j : Nat} {value : Double} :
    (loads cap weights rows)[j]? = some (some value) ↔
      ∃ row weight, rows[j]? = some row ∧ weights[j]? = some weight ∧ hasRoom cap row = true ∧
        load row weight = value := by
  rw [loads, List.getElem?_map, Option.map_eq_some_iff]
  constructor
  · rintro ⟨⟨row, weight⟩, hentry, hvalue⟩
    obtain ⟨hrow, hweight⟩ := List.getElem?_zip_eq_some.mp hentry
    dsimp only at hvalue
    split at hvalue
    · rename_i hroom
      exact ⟨row, weight, hrow, hweight, hroom, Option.some.inj hvalue⟩
    · cases hvalue
  · rintro ⟨row, weight, hrow, hweight, hroom, rfl⟩
    exact ⟨(row, weight), List.getElem?_zip_eq_some.mpr ⟨hrow, hweight⟩, if_pos hroom⟩

theorem greedy_byWeight (cap : Option Nat) (weights : List Double) :
    (byWeight cap weights).Greedy cap weights.length where
  chosen := by
    intro _ _ rows position _ h
    rw [choose_byWeight] at h
    obtain ⟨⟨i, low⟩, hlowest, heq⟩ := Option.map_eq_some_iff.mp h
    obtain ⟨rfl, -⟩ := Prod.mk.inj heq
    have hlow := standsAmong_lowest (loads cap weights rows)
    rw [hlowest] at hlow
    obtain ⟨row, weight, hrow, -, hroom, -⟩ := getElem?_loads.mp hlow
    exact ⟨row, hrow, hroom⟩
  refused := by
    intro _ rows hlength h row hrow
    rw [choose_byWeight, Option.map_eq_none_iff] at h
    have hnone := standsAmong_lowest (loads cap weights rows)
    rw [h] at hnone
    obtain ⟨i, hi, rfl⟩ := List.mem_iff_getElem.mp hrow
    have hweight : i < weights.length := hlength ▸ hi
    rw [Bool.eq_false_iff]
    intro hroom
    have hload : (loads cap weights rows)[i]? = some (some (load rows[i] weights[i])) :=
      getElem?_loads.mpr ⟨rows[i], weights[i], List.getElem?_eq_getElem hi,
        List.getElem?_eq_getElem hweight, hroom, rfl⟩
    cases hnone _ (List.mem_of_getElem? hload)

/-! ### Plans -/

/-- A plan gives out the open tasks by a greedy chooser, whatever the strategy. -/
theorem exists_greedy_plan (request : BalanceRequest) (context : Context) :
    ∃ (σ : Type) (chooser : Chooser σ) (state : σ),
      chooser.Greedy (cap? request) (bare request).rows.length ∧
        plan request context = giveOut chooser state (bare request) context.tasks.names := by
  unfold plan
  cases weightTable? request.strategy with
  | none => exact ⟨Nat, _, _, greedy_inTurn _ _, rfl⟩
  | some key =>
    have hcount : (bare request).rows.length = (request.teams.map (weight context key)).length := by
      simp [bare]
    rw [hcount]
    exact ⟨Unit, _, _, greedy_byWeight _ _, rfl⟩

end TeamOrders.Distribution
