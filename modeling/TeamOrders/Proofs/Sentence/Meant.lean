import Mathlib.Data.List.Nodup
import TeamOrders.Proofs.Reading.Meaning
import TeamOrders.Proofs.Sentence.Phrases

/-!
# Every sentence means its order

From the parts of a matched phrase the meaning rebuilds the order: lists become the teams and tasks that
were listed, each once as they were different, and words become the priority, strategy or bound that
they were made from.
-/

namespace TeamOrders

open Phrase Text

variable {role : Slot} {s word : List Char} {filled : List (Slot × List Char)}

/-! ### Parts of a match -/

theorem get?_cons_self (h : IsTrimmed s) (hne : s ≠ []) :
    (⟨(role, s) :: filled⟩ : Match).get? role = some s := by
  simp [Match.get?, trim_eq_self h, hne]

theorem get?_cons_of_ne {name : Slot} (h : name ≠ role) :
    (⟨(name, s) :: filled⟩ : Match).get? role = (⟨filled⟩ : Match).get? role := by
  have hname : (name == role) = false := by simpa using h
  simp [Match.get?, hname]

theorem Smooth.get?_self (h : Smooth true s false) (role : Slot)
    (filled : List (Slot × List Char)) : (⟨(role, s) :: filled⟩ : Match).get? role = some s :=
  get?_cons_self h.isTrimmed h.ne_nil

theorem PlainWord.smooth_introduced (word : PlainWord) :
    Smooth true ("team".toList ++ ' ' :: word.chars) false := by
  have hteam : Smooth true "team ".toList true := smooth_of_looksSmooth (by decide)
  exact hteam.append (word.smooth true) (.inl rfl)

/-! ### Teams and tasks -/

theorem ofList_teamPrefix_append (s : List Char) :
    String.ofList (Roster.teamPrefix ++ s) = "team-" ++ String.ofList s := by
  rw [String.ofList_append]
  rfl

theorem NameList.teams_eq (list : NameList) (h : word ∈ Roster.teamWords) :
    (Roster.distinct (Roster.teams (word ++ ' ' :: list.chars))).map String.ofList = list.teams := by
  have hnodup : (list.names.map fun name => Roster.teamPrefix ++ name.chars).Nodup := by
    have hmap := list.distinct.map (List.append_right_injective Roster.teamPrefix)
    rwa [List.map_map] at hmap
  rw [Roster.teams_names list h, Roster.distinct_eq_self hnodup, List.map_map]
  apply List.map_congr_left
  intro name _
  exact ofList_teamPrefix_append name.chars

theorem NameList.tasks_eq (list : NameList) :
    (Roster.distinct (Roster.tasks ("tasks".toList ++ ' ' :: list.chars))).map String.ofList
      = list.names.map (·.text) := by
  rw [Roster.tasks_names list (by decide), Roster.distinct_eq_self list.distinct, List.map_map]
  rfl

theorem teamsIn_of_teams {m : Match} (list : NameList)
    (h : m.get? role = some ("teams".toList ++ ' ' :: list.chars)) :
    Meaning.teamsIn m role = list.teams := by
  rw [Meaning.teamsIn, Meaning.textIn, h, Option.getD_some, list.teams_eq (by decide)]

theorem teamsIn_of_team {m : Match} (team : CleanName)
    (h : m.get? role = some ("team".toList ++ ' ' :: team.chars)) :
    Meaning.teamsIn m role = [team.team] := by
  rw [← NameList.single_chars team] at h
  rw [Meaning.teamsIn, Meaning.textIn, h, Option.getD_some, NameList.teams_eq _ (by decide)]
  rfl

theorem NameList.teams_ne_nil (list : NameList) : list.teams ≠ [] := by
  simpa [NameList.teams] using list.nonempty

/-! ### Words -/

theorem unsigned_name (name : CleanName) : Meaning.unsigned name.chars = name.text := by
  rw [Meaning.unsigned, Roster.trimStart_plain name.plain]
  rfl

theorem smooth_priorityName (priority : Priority) : Smooth true priority.name.toList false := by
  cases priority <;> exact smooth_of_looksSmooth (by decide)

theorem priorityIn_name {m : Match} {priority : Priority}
    (h : m.get? .priority = some priority.name.toList) : Meaning.priorityIn m = priority := by
  have hword : Priority.ofWord? priority.name = some priority := by
    cases priority <;> decide
  rw [Meaning.priorityIn, h, Option.map_some, String.ofList_toList, Option.bind_some, hword]
  rfl

theorem ofPhrase?_name (strategy : Strategy) : Strategy.ofPhrase? strategy.name = some strategy := by
  cases strategy <;> decide

theorem unquote_eq_self (h : IsTrimmed s) (hunquoted : '"' ∉ s) : Meaning.unquote s = s := by
  have hquote : ∀ c ∈ s, (c == '"') = false := fun c hc =>
    beq_eq_false_iff_ne.mpr fun heq => hunquoted (heq ▸ hc)
  have hstart : ∀ c ∈ s.head?, (c == '"') = false := fun c hc => hquote c (List.mem_of_head? hc)
  have hend : ∀ c ∈ s.reverse.head?, (c == '"') = false := fun c hc =>
    hquote c (List.mem_reverse.mp (List.mem_of_head? hc))
  rw [Meaning.unquote, trim_eq_self h, trimBy, trimStartBy, dropWhile_eq_self hstart, trimEndBy,
    dropWhile_eq_self hend, List.reverse_reverse, trim_eq_self h]

theorem unquote_text (text : CleanText) : Meaning.unquote text.chars = text.chars := by
  have hchars : '"' ∉ sentenceChars := by decide
  exact unquote_eq_self (text.smooth true).isTrimmed
    fun hmem => hchars ((text.smooth true).chars _ hmem)

/-! ### Orders -/

namespace Meaning

theorem waveStart_alone (wave : CleanName) :
    waveStart ⟨[(.wave, wave.chars)]⟩ = some ⟨(Sentence.startWave wave).order, []⟩ := by
  have hwave := (wave.smooth true).get?_self .wave []
  refine waveStart_eq_some_iff.mpr ⟨wave.chars, hwave, ?_⟩
  rw [unsigned_name]
  rfl

theorem waveStart_with (wave : CleanName) (teams : NameList) :
    waveStart ⟨[(.wave, wave.chars), (.teams, "teams".toList ++ ' ' :: teams.chars)]⟩
      = some ⟨(Sentence.startWaveWith wave teams).order, []⟩ := by
  have hlist : Smooth true ("teams".toList ++ ' ' :: teams.chars) false :=
    teams.smooth_introduced (by decide)
  have hwave := (wave.smooth true).get?_self .wave
    [(.teams, "teams".toList ++ ' ' :: teams.chars)]
  have hteams : teamsIn ⟨[(.wave, wave.chars), (.teams, "teams".toList ++ ' ' :: teams.chars)]⟩
      .teams = teams.teams := by
    apply teamsIn_of_teams teams
    rw [get?_cons_of_ne (by decide), hlist.get?_self]
  refine waveStart_eq_some_iff.mpr ⟨wave.chars, hwave, ?_⟩
  rw [unsigned_name, hteams]
  rfl

theorem teamAssignment_lists (teams tasks : NameList) (priority : Priority) :
    teamAssignment ⟨[(.teams, "teams".toList ++ ' ' :: teams.chars),
        (.tasks, "tasks".toList ++ ' ' :: tasks.chars), (.priority, priority.name.toList)]⟩
      = some ⟨(Sentence.assignTeams teams tasks priority).order, []⟩ := by
  have hteamList : Smooth true ("teams".toList ++ ' ' :: teams.chars) false :=
    teams.smooth_introduced (by decide)
  have htaskList : Smooth true ("tasks".toList ++ ' ' :: tasks.chars) false :=
    tasks.smooth_introduced (by decide)
  generalize hm : (⟨[(.teams, "teams".toList ++ ' ' :: teams.chars),
    (.tasks, "tasks".toList ++ ' ' :: tasks.chars), (.priority, priority.name.toList)]⟩ : Match) = m
  have hteams : teamsIn m .teams = teams.teams := by
    apply teamsIn_of_teams teams
    rw [← hm, hteamList.get?_self]
  have htasks : m.get? .tasks = some ("tasks".toList ++ ' ' :: tasks.chars) := by
    rw [← hm, get?_cons_of_ne (by decide), htaskList.get?_self]
  have hpriority : priorityIn m = priority := by
    apply priorityIn_name
    rw [← hm, get?_cons_of_ne (by decide), get?_cons_of_ne (by decide),
      (smooth_priorityName priority).get?_self]
  refine teamAssignment_eq_some_iff.mpr ⟨_, htasks, ?_, ?_, ?_⟩
  · rw [hteams]
    exact teams.teams_ne_nil
  · rw [tasks.tasks_eq]
    simpa using tasks.nonempty
  · rw [hteams, hpriority, tasks.tasks_eq]
    rfl

theorem taskAssignment_names (task team : CleanName) (priority : Priority) :
    taskAssignment ⟨[(.task, task.chars), (.teams, "team".toList ++ ' ' :: team.chars),
        (.priority, priority.name.toList)]⟩
      = some ⟨(Sentence.reassignTask task team priority).order, []⟩ := by
  have hteamList := team.smooth_introduced
  generalize hm : (⟨[(.task, task.chars), (.teams, "team".toList ++ ' ' :: team.chars),
    (.priority, priority.name.toList)]⟩ : Match) = m
  have htask : m.get? .task = some task.chars := by
    rw [← hm, (task.smooth true).get?_self]
  have hteams : teamsIn m .teams = [team.team] := by
    apply teamsIn_of_team team
    rw [← hm, get?_cons_of_ne (by decide), hteamList.get?_self]
  have hpriority : priorityIn m = priority := by
    apply priorityIn_name
    rw [← hm, get?_cons_of_ne (by decide), get?_cons_of_ne (by decide),
      (smooth_priorityName priority).get?_self]
  refine taskAssignment_eq_some_iff.mpr ⟨_, htask, team.team, [], by rw [hteams]; rfl, ?_⟩
  rw [unsigned_name, hpriority]
  rfl

/-- A block of one team on one team, whatever the condition. -/
theorem blockingRelation_of_teams {m : Match} {blocked blocking : String}
    (hblocked : teamsIn m .blockedTeams = [blocked])
    (hblocking : teamsIn m .blockingTeams = [blocking]) :
    blockingRelation m = some ⟨.blockTeam
      { blocked, blocking, condition := (conditionIn m).getD defaultCondition
        until? := if m.get? .connector = some "until".toList then conditionIn m else none }, []⟩ :=
  blockingRelation_eq_some_iff.mpr
    ⟨blocked, [], by rw [hblocked]; rfl, blocking, [], by rw [hblocking]; rfl, rfl⟩

theorem blockingRelation_of_condition {m : Match} {blocked blocking : String}
    (hblocked : teamsIn m .blockedTeams = [blocked])
    (hblocking : teamsIn m .blockingTeams = [blocking]) (hcondition : m.get? .condition = some s)
    (hne : s ≠ []) (hunquote : unquote s = s) :
    blockingRelation m = some ⟨.blockTeam
      { blocked, blocking, condition := String.ofList s
        until? := if m.get? .connector = some "until".toList then some (String.ofList s) else none },
      []⟩ := by
  have hstated := conditionIn_of_get? hcondition (hunquote.symm ▸ hne)
  rw [hunquote] at hstated
  rw [blockingRelation_of_teams hblocked hblocking, hstated, Option.getD_some]

theorem blockingRelation_names {connector : List Char} (h : IsConnector connector)
    (blocked blocking : CleanName) (condition : CleanText) :
    blockingRelation ⟨[(.blockedTeams, "team".toList ++ ' ' :: blocked.chars),
        (.blockingTeams, "team".toList ++ ' ' :: blocking.chars), (.connector, connector),
        (.condition, condition.chars)]⟩
      = some ⟨.blockTeam
          { blocked := blocked.team, blocking := blocking.team, condition := condition.text
            until? := if connector = "until".toList then some condition.text else none }, []⟩ := by
  have hblockedList := blocked.smooth_introduced
  have hblockingList := blocking.smooth_introduced
  have hword : Smooth true connector false := by
    rcases h with rfl | rfl <;> exact smooth_of_looksSmooth (by decide)
  generalize hm : (⟨[(.blockedTeams, "team".toList ++ ' ' :: blocked.chars),
    (.blockingTeams, "team".toList ++ ' ' :: blocking.chars), (.connector, connector),
    (.condition, condition.chars)]⟩ : Match) = m
  have hblocked : teamsIn m .blockedTeams = [blocked.team] := by
    apply teamsIn_of_team blocked
    rw [← hm, hblockedList.get?_self]
  have hblocking : teamsIn m .blockingTeams = [blocking.team] := by
    apply teamsIn_of_team blocking
    rw [← hm, get?_cons_of_ne (by decide), hblockingList.get?_self]
  have hconnector : m.get? .connector = some connector := by
    rw [← hm, get?_cons_of_ne (by decide), get?_cons_of_ne (by decide), hword.get?_self]
  have hcondition : m.get? .condition = some condition.chars := by
    rw [← hm, get?_cons_of_ne (by decide), get?_cons_of_ne (by decide),
      get?_cons_of_ne (by decide), (condition.smooth true).get?_self]
  rw [blockingRelation_of_condition hblocked hblocking hcondition (condition.smooth true).ne_nil
    (unquote_text condition), hconnector]
  simp only [Option.some.injEq]
  rfl

theorem syncPoint_list (teams : NameList) (condition : CleanText) :
    syncPoint ⟨[(.teams, "teams".toList ++ ' ' :: teams.chars), (.connector, "on".toList),
        (.condition, condition.chars)]⟩
      = some ⟨(Sentence.syncTeams teams condition).order, []⟩ := by
  have hteamList : Smooth true ("teams".toList ++ ' ' :: teams.chars) false :=
    teams.smooth_introduced (by decide)
  generalize hm : (⟨[(.teams, "teams".toList ++ ' ' :: teams.chars), (.connector, "on".toList),
    (.condition, condition.chars)]⟩ : Match) = m
  have hteams : teamsIn m .teams = teams.teams := by
    apply teamsIn_of_teams teams
    rw [← hm, hteamList.get?_self]
  have hcondition : m.get? .condition = some condition.chars := by
    rw [← hm, get?_cons_of_ne (by decide), get?_cons_of_ne (by decide),
      (condition.smooth true).get?_self]
  refine syncPoint_eq_some_iff.mpr ⟨hteams ▸ teams.teams_ne_nil, ?_⟩
  rw [hteams, textIn, hcondition, Option.getD_some, unquote_text]
  rfl

theorem balanceRequest_list (teams : NameList) (strategy : Strategy) (bound : UInt64) :
    balanceRequest ⟨[(.teams, "teams".toList ++ ' ' :: teams.chars),
        (.strategy, strategy.name.toList), (.maxPerTeam, Roster.numeral bound.toNat)]⟩
      = some ⟨(Sentence.balanceLoad teams strategy bound).order, []⟩ := by
  have hteamList : Smooth true ("teams".toList ++ ' ' :: teams.chars) false :=
    teams.smooth_introduced (by decide)
  generalize hm : (⟨[(.teams, "teams".toList ++ ' ' :: teams.chars),
    (.strategy, strategy.name.toList), (.maxPerTeam, Roster.numeral bound.toNat)]⟩ : Match) = m
  have hteams : teamsIn m .teams = teams.teams := by
    apply teamsIn_of_teams teams
    rw [← hm, hteamList.get?_self]
  have hstrategy : m.get? .strategy = some strategy.name.toList := by
    rw [← hm, get?_cons_of_ne (by decide), (Sentence.smooth_strategy strategy).get?_self]
  have hbound : m.get? .maxPerTeam = some (Roster.numeral bound.toNat) := by
    have hsmooth : Smooth true (Roster.numeral bound.toNat) false :=
      (Sentence.numeralWord bound.toNat).smooth true
    rw [← hm, get?_cons_of_ne (by decide), get?_cons_of_ne (by decide), hsmooth.get?_self]
  have hread : Number.readUnsigned Number.wordLimit (Roster.numeral bound.toNat)
      = some bound.toNat := readUnsigned_numeral bound.toNat_lt
  refine balanceRequest_eq_some_iff.mpr ⟨hteams ▸ teams.teams_ne_nil, ?_⟩
  rw [hteams, hstrategy, hbound, Option.map_some, String.ofList_toList, Option.bind_some, ofPhrase?_name,
    Option.getD_some, Option.bind_some, hread]
  rfl

end Meaning

end TeamOrders
