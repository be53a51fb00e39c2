import Mathlib.Data.List.Find
import TeamOrders.Distribution
import TeamOrders.Proofs.Table
import TeamOrders.Proofs.Text.Fold

/-!
# A context with its teams in small letters

Writing the teams of a context in small letters, in the set of known teams and in the tables of weights,
does not change which teams are known, because that is asked without regard to case. Weights are looked
up as they are written: a team named in small letters keeps its weight exactly if the table has it under
no other spelling.
-/

namespace TeamOrders

open Text

variable {context : Context} {key name team : String}

theorem asciiLowered_asciiLowered (s : String) : asciiLowered (asciiLowered s) = asciiLowered s := by
  rw [asciiLowered, asciiLowered, String.toList_ofList, List.map_map]
  congr 1
  exact List.map_congr_left fun c _ => toLower_of_not_isUpper (isUpper_toLower c)

theorem sameIgnoringCase_iff {a b : String} :
    sameIgnoringCase a b = true ↔ asciiLowered a = asciiLowered b := beq_iff_eq

/-- The members of an object under their names in small letters. -/
def Json.smallKeys : Json → Json
  | .object members => .object (members.map fun (name, value) => (asciiLowered name, value))
  | value => value

def weightKeys : List String := Strategy.all.filterMap Distribution.weightTable?

def smallTables (state : Table Json) : Table Json :=
  ⟨state.entries.map fun (key, value) => (key, if key ∈ weightKeys then value.smallKeys else value), by
    simpa [List.map_map, Function.comp_def] using state.ascending⟩

namespace Context

/-- The context with its teams in small letters. -/
def smallTeams (context : Context) : Context :=
  { context with
    teams := NameSet.ofList (context.teams.names.map asciiLowered)
    state := smallTables context.state }

/-- In this table of weights the team stands under no spelling but its own. -/
def SpellsOnly (context : Context) (key team : String) : Prop :=
  ∀ members, context.state.find? key = some (.object members) →
    ∀ member ∈ members, sameIgnoringCase member.1 team = true → member.1 = team

theorem hasTeam_smallTeams (context : Context) (team : String) :
    context.smallTeams.hasTeam team = context.hasTeam team := by
  rw [Bool.eq_iff_iff, hasTeam, hasTeam, List.any_eq_true, List.any_eq_true]
  simp only [smallTeams, NameSet.mem_names_ofList, List.mem_map]
  constructor
  · rintro ⟨_, ⟨name, hname, rfl⟩, hsame⟩
    rw [sameIgnoringCase_iff, asciiLowered_asciiLowered] at hsame
    exact ⟨name, hname, sameIgnoringCase_iff.mpr hsame⟩
  · rintro ⟨name, hname, hsame⟩
    refine ⟨asciiLowered name, ⟨name, hname, rfl⟩, ?_⟩
    rw [sameIgnoringCase_iff, asciiLowered_asciiLowered]
    exact sameIgnoringCase_iff.mp hsame

theorem find?_smallTables (state : Table Json) (key : String) :
    (smallTables state).find? key
      = (state.find? key).map fun value => if key ∈ weightKeys then value.smallKeys else value := by
  simp only [Table.find?, smallTables, List.find?_map, Option.map_map]
  cases hfind : state.entries.find? fun entry => entry.1 == key with
  | none => simp [Function.comp_def, hfind]
  | some entry =>
    obtain ⟨found, value⟩ := entry
    obtain rfl : found = key := by simpa using List.find?_some hfind
    simp [Function.comp_def, hfind]

theorem member?_smallKeys {members : List (String × Json)} (small : asciiLowered team = team)
    (h : ∀ member ∈ members, sameIgnoringCase member.1 team = true → member.1 = team) :
    Json.member? team (Json.smallKeys (.object members)) = Json.member? team (.object members) := by
  have hagree : ∀ member ∈ members.reverse,
      (asciiLowered member.1 == team) = (member.1 == team) := by
    intro member hmember
    rw [Bool.eq_iff_iff, beq_iff_eq, beq_iff_eq]
    constructor
    · intro hsmall
      refine h member (List.mem_reverse.mp hmember) (sameIgnoringCase_iff.mpr ?_)
      rw [hsmall, small]
    · rintro rfl
      exact small
  simp only [Json.smallKeys, Json.member?, ← List.map_reverse, List.find?_map, Option.map_map]
  rw [← List.find?_congr hagree]
  rfl

/-- A team in small letters keeps its weight if the table has it under no other spelling. -/
theorem teamWeight_smallTeams (small : asciiLowered team = team) (h : context.SpellsOnly key team) :
    context.smallTeams.teamWeight key team = context.teamWeight key team := by
  have hmember : (context.smallTeams.state.find? key).bind (Json.member? team)
      = (context.state.find? key).bind (Json.member? team) := by
    rw [smallTeams, find?_smallTables]
    cases hvalue : context.state.find? key with
    | none => rfl
    | some value =>
      rw [Option.map_some, Option.bind_some, Option.bind_some]
      split
      · cases value with
        | object members => exact member?_smallKeys small (h members hvalue)
        | _ => rfl
      · rfl
  rw [teamWeight, hmember, teamWeight]

end Context

namespace Distribution

theorem plan_smallTeams {request : BalanceRequest}
    (small : ∀ team ∈ request.teams, asciiLowered team = team)
    (h : ∀ key, weightTable? request.strategy = some key →
      ∀ team ∈ request.teams, context.SpellsOnly key team) :
    plan request context.smallTeams = plan request context := by
  unfold plan
  cases hkey : weightTable? request.strategy with
  | none => rfl
  | some key =>
    have hweights : request.teams.map (weight context.smallTeams key)
        = request.teams.map (weight context key) := by
      refine List.map_congr_left fun team hteam => ?_
      rw [weight, Context.teamWeight_smallTeams (small team hteam) (h key hkey team hteam), weight]
    dsimp only
    rw [hweights]
    rfl

end Distribution

end TeamOrders
