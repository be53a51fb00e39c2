import TeamOrders.Reading.Meaning

/-!
# What matches mean

The meaning of each kind of order, told once by the parts of a match that it is made of. What else is shown
of meanings follows from here, and does not depend on the way in which they are found.
-/

namespace TeamOrders

open Text Meaning

/-- The constraints of a request that keeps a number, if there is one to keep. -/
def keptBound (bound : Option Nat) : Table Json :=
  match bound with
  | some bound => Table.empty.insert maxTasksKey (Json.nat bound)
  | none => .empty

namespace Meaning

variable {m : Phrase.Match} {meant : Meant}

def conditionIn (m : Phrase.Match) : Option String :=
  (((m.get? .condition).map unquote).filter (!·.isEmpty)).map String.ofList

theorem exists_of_conditionIn {condition : String} (h : conditionIn m = some condition) :
    ∃ whole, m.get? .condition = some whole ∧ unquote whole ≠ [] ∧
      condition = String.ofList (unquote whole) := by
  obtain ⟨stated, hstated, rfl⟩ := Option.map_eq_some_iff.mp h
  obtain ⟨hunquoted, hne⟩ := Option.filter_eq_some_iff.mp hstated
  obtain ⟨whole, hwhole, rfl⟩ := Option.map_eq_some_iff.mp hunquoted
  exact ⟨whole, hwhole, by simpa using hne, rfl⟩

theorem conditionIn_of_get? {whole : List Char} (h : m.get? .condition = some whole)
    (hne : unquote whole ≠ []) : conditionIn m = some (String.ofList (unquote whole)) := by
  have hkept : (some (unquote whole)).filter (fun s => !s.isEmpty) = some (unquote whole) := by simp [hne]
  rw [conditionIn, h, Option.map_some, hkept, Option.map_some]

theorem conditionIn_of_get?_eq_none (h : m.get? .condition = none) : conditionIn m = none := by
  rw [conditionIn, h]
  rfl

theorem speaksOfCompletionAt_iff {before : Option Char} {s : List Char} :
    speaksOfCompletionAt before s = true ↔ endsInWord before = false ∧
      ("complet".toList <+: s ∨ "finish".toList <+: s ∨
        ∃ rest, s = "done".toList ++ rest ∧ startsInWord rest = false) := by
  have hdone : ("done".toList.isPrefixOf s && !startsInWord (s.drop 4)) = true ↔
      ∃ rest, s = "done".toList ++ rest ∧ startsInWord rest = false := by
    rw [Bool.and_eq_true, List.isPrefixOf_iff_prefix, Bool.not_eq_true']
    constructor
    · rintro ⟨⟨rest, rfl⟩, hrest⟩
      exact ⟨rest, rfl, hrest⟩
    · rintro ⟨rest, rfl, hrest⟩
      exact ⟨List.prefix_append _ _, hrest⟩
  rw [speaksOfCompletionAt, Bool.and_eq_true, Bool.not_eq_true', Bool.or_eq_true, Bool.or_eq_true, hdone,
    List.isPrefixOf_iff_prefix, List.isPrefixOf_iff_prefix, or_assoc]

theorem speaksOfCompletion_iff_exists_at {before : Option Char} {s : List Char} :
    speaksOfCompletion before s = true ↔ ∃ front back, s = front ++ back ∧
      speaksOfCompletionAt (front.getLast?.or before) back = true := by
  induction s generalizing before with
  | nil =>
    have hnil (before : Option Char) : speaksOfCompletionAt before [] = false := by
      simp [speaksOfCompletionAt]
    simp [speaksOfCompletion, hnil]
  | cons c rest ih =>
    have hlast (front : List Char) : (c :: front).getLast?.or before = front.getLast?.or (some c) := by
      rw [List.getLast?_cons, Option.or_some, Option.some_or]
    rw [speaksOfCompletion, Bool.or_eq_true, ih]
    constructor
    · rintro (h | ⟨front, back, rfl, h⟩)
      · exact ⟨[], c :: rest, rfl, h⟩
      · exact ⟨c :: front, back, rfl, by rwa [hlast]⟩
    · rintro ⟨front, back, hsplit, h⟩
      cases front with
      | nil =>
        obtain rfl : c :: rest = back := hsplit
        exact .inl h
      | cons d front =>
        obtain ⟨rfl, rfl⟩ := List.cons.inj hsplit
        exact .inr ⟨front, back, rfl, by rwa [hlast] at h⟩

/-- A text speaks of completion exactly if one of its words starts with `complet` or with `finish`, or is
`done`. -/
theorem speaksOfCompletion_iff {s : List Char} :
    speaksOfCompletion none s = true ↔ ∃ front back, s = front ++ back ∧
      endsInWord front.getLast? = false ∧
        ("complet".toList <+: back ∨ "finish".toList <+: back ∨
          ∃ rest, back = "done".toList ++ rest ∧ startsInWord rest = false) := by
  simp only [speaksOfCompletion_iff_exists_at, Option.or_none, speaksOfCompletionAt_iff]

theorem waveStart_eq_some_iff : waveStart m = some meant ↔ ∃ wave, m.get? .wave = some wave ∧
    ⟨.startWave { wave := unsigned wave, teams := teamsIn m .teams }, []⟩ = meant := by
  simp only [waveStart, Option.bind_eq_bind, Option.bind_eq_some_iff, Option.some.injEq]

theorem teamAssignment_eq_some_iff : teamAssignment m = some meant ↔
    ∃ fragment, m.get? .tasks = some fragment ∧ teamsIn m .teams ≠ [] ∧
      (Roster.distinct (Roster.tasks fragment)).map String.ofList ≠ [] ∧
      ⟨.assignTeams
        { teams := teamsIn m .teams
          tasks := (Roster.distinct (Roster.tasks fragment)).map String.ofList
          priority := priorityIn m }, []⟩ = meant := by
  simp only [teamAssignment, Option.bind_eq_bind, Option.bind_eq_some_iff, Bool.or_eq_true,
    List.isEmpty_iff]
  refine exists_congr fun fragment => and_congr_right fun _ => ?_
  split
  · rename_i hempty
    exact iff_of_false nofun fun h => hempty.elim h.1 h.2.1
  · rename_i hnonempty
    obtain ⟨hteams, htasks⟩ := not_or.mp hnonempty
    rw [ne_eq, ne_eq, and_iff_right hteams, and_iff_right htasks, Option.some.injEq]

theorem taskAssignment_eq_some_iff : taskAssignment m = some meant ↔
    ∃ task, m.get? .task = some task ∧ ∃ team notes,
      singleTeam "target" (teamsIn m .teams) = some (team, notes) ∧
      ⟨.assignTask { task := unsigned task, team, priority := priorityIn m }, notes⟩ = meant := by
  simp only [taskAssignment, Option.bind_eq_bind, Option.bind_eq_some_iff, Option.some.injEq, Prod.exists]

theorem blockingRelation_eq_some_iff : blockingRelation m = some meant ↔
    ∃ blocked blockedNotes,
      singleTeam "blocked" (teamsIn m .blockedTeams) = some (blocked, blockedNotes) ∧
      ∃ blocking blockingNotes,
        singleTeam "blocking" (teamsIn m .blockingTeams) = some (blocking, blockingNotes) ∧
        ⟨.blockTeam
          { blocked, blocking, condition := (conditionIn m).getD defaultCondition
            until? := if m.get? .connector = some "until".toList then conditionIn m else none },
          blockedNotes ++ blockingNotes⟩ = meant := by
  simp only [blockingRelation, conditionIn, Option.bind_eq_bind, Option.bind_eq_some_iff, Option.some.injEq,
    Prod.exists]

theorem syncPoint_eq_some_iff : syncPoint m = some meant ↔ teamsIn m .teams ≠ [] ∧
    ⟨.syncTeams
      { teams := teamsIn m .teams, condition := String.ofList (unquote (textIn m .condition))
        trigger :=
          if speaksOfCompletion none (unquote (textIn m .condition)) then .completion else .custom },
      []⟩ = meant := by
  simp only [syncPoint, List.isEmpty_iff, Option.ite_none_left_eq_some, Option.some.injEq, ne_eq]

theorem balanceRequest_eq_some_iff : balanceRequest m = some meant ↔ teamsIn m .teams ≠ [] ∧
    ⟨.balanceLoad
      { teams := teamsIn m .teams
        strategy := (((m.get? .strategy).map String.ofList).bind Strategy.ofPhrase?).getD .roundRobin
        constraints := keptBound
          ((m.get? .maxPerTeam).bind (Number.readUnsigned Number.wordLimit)) }, []⟩ = meant := by
  simp only [balanceRequest, List.isEmpty_iff, Option.ite_none_left_eq_some, Option.some.injEq, ne_eq]
  rfl

theorem kind_of_ofMatch? {kind : Kind} (h : ofMatch? kind m = some meant) : meant.order.kind = kind := by
  cases kind with
  | waveStart =>
    obtain ⟨_, -, rfl⟩ := waveStart_eq_some_iff.mp h
    rfl
  | teamAssign =>
    obtain ⟨_, -, -, -, rfl⟩ := teamAssignment_eq_some_iff.mp h
    rfl
  | taskAssign =>
    obtain ⟨_, -, _, _, -, rfl⟩ := taskAssignment_eq_some_iff.mp h
    rfl
  | teamBlock =>
    obtain ⟨_, _, -, _, _, -, rfl⟩ := blockingRelation_eq_some_iff.mp h
    rfl
  | teamSync =>
    obtain ⟨-, rfl⟩ := syncPoint_eq_some_iff.mp h
    rfl
  | loadBalance =>
    obtain ⟨-, rfl⟩ := balanceRequest_eq_some_iff.mp h
    rfl
  | batch => cases h

end Meaning

end TeamOrders
