import Mathlib.Data.List.Permutation
import TeamOrders.Proofs.Roster.Written
import TeamOrders.Proofs.Sentence.ListPattern
import TeamOrders.Proofs.Sentence.Sentence

/-!
# Every sentence is put in a phrase

The preferred match of the phrase that a sentence is put in takes the sentence part by part, as it was
put together: no name, list or condition reaches into what follows it.
-/

namespace TeamOrders

open Pattern Phrase Text

variable {rest : List Char}

theorem Phrase.match?_of_takes {phrase : Phrase} {s : List Char} {slots : List (Slot × Span)}
    (h : Takes phrase.pattern s slots []) :
    phrase.match? s = some ⟨slots.map fun (role, span) => (role, span.text)⟩ := by
  rw [match?, fullMatch?_of_takes h]
  rfl

/-! ### Parts of phrases -/

theorem takes_listSlot (role : Slot) (list : NameList) {w : String} {form : List Char}
    (h : IsIntroduction w form) (hrest : EndsList rest) :
    Takes (slot role (Phrase.list w)) (form ++ ' ' :: (list.chars ++ rest))
      [(role, ⟨(form ++ ' ' :: list.chars) ++ rest, rest⟩)] rest := by
  have htext : (form ++ ' ' :: list.chars) ++ rest = form ++ ' ' :: (list.chars ++ rest) := by simp
  rw [htext]
  exact (takes_list h list hrest).slot role

theorem isIntroduction_team : IsIntroduction "team" "team".toList := ⟨.inl rfl, .inl rfl⟩

theorem isIntroduction_teams : IsIntroduction "team" "teams".toList := ⟨.inl rfl, .inr rfl⟩

theorem isIntroduction_task : IsIntroduction "task" "task".toList := ⟨.inr rfl, .inl rfl⟩

theorem isIntroduction_tasks : IsIntroduction "task" "tasks".toList := ⟨.inr rfl, .inr rfl⟩

theorem endsList_nil : EndsList [] := ⟨by simp, rfl⟩

theorem not_isNameChar_blank (s : List Char) : ∀ c ∈ (' ' :: s).head?, isNameChar c = false := by
  intro c hc
  obtain rfl : ' ' = c := Option.some.inj hc
  decide

theorem endsList_blank {s : List Char} (h : Fails listSeparator (' ' :: s)) : EndsList (' ' :: s) :=
  ⟨not_isNameChar_blank s, h⟩

/-- Behind a blank, a list ends before any other word than `and`. -/
theorem endsList_word {c : Char} (hblank : isBlank c = false) (hc : c ∉ [',', '&', 'a'])
    (s : List Char) : EndsList (' ' :: c :: s) := by
  simp only [List.mem_cons, List.not_mem_nil, or_false, not_or] at hc
  apply endsList_blank
  apply fails_listSeparator_blank_cons
  · rintro d ⟨⟩
    exact hblank
  · rintro d ⟨⟩
    exact ⟨hc.1, hc.2.1⟩
  · intro d rest h
    exact absurd (List.cons.inj h).1 hc.2.2

theorem takes_priorityClause (priority : Priority) :
    Takes priorityClause (" with ".toList ++ (priority.name.toList ++ " priority".toList))
      [(.priority, ⟨priority.name.toList ++ " priority".toList, " priority".toList⟩)] [] := by
  unfold Takes
  cases priority <;> cbv

theorem takes_strategyClause (strategy : Strategy) (rest : List Char) :
    Takes strategyClause (" using ".toList ++ (strategy.name.toList ++ (" max ".toList ++ rest)))
      [(.strategy, ⟨strategy.name.toList ++ (" max ".toList ++ rest), " max ".toList ++ rest⟩)]
      (" max ".toList ++ rest) := by
  unfold Takes
  cases strategy <;> cbv

theorem takes_max (rest : List Char) :
    Takes (all [blanks, word "max", optional (word "imum")] : Pattern Slot) (" max ".toList ++ rest)
      [] (' ' :: rest) := by
  unfold Takes
  cbv

theorem takes_perTeam :
    Takes (all [blanks, optional (all [oneOrMany "task", blanks]), word "per", blanks,
      word "team"] : Pattern Slot) " tasks per team".toList [] [] := by
  unfold Takes
  cbv

theorem takes_maxClause {digits : List Char} (hne : digits ≠ [])
    (hdigits : ∀ c ∈ digits, c ∈ asciiDigits) :
    Takes maxClause (" max ".toList ++ (digits ++ " tasks per team".toList))
      [(.maxPerTeam, ⟨digits ++ " tasks per team".toList, " tasks per team".toList⟩)] [] := by
  have hall : ∀ c ∈ asciiDigits, isDigit c = true ∧ isBlank c = false :=
    List.all_iff_forall_prop.mp (by decide)
  have hhead : ∀ c ∈ (digits ++ " tasks per team".toList).head?, isBlank c = false := by
    intro c hc
    obtain ⟨d, more, rfl⟩ := List.exists_cons_of_ne_nil hne
    obtain rfl : d = c := Option.some.inj hc
    exact (hall d (hdigits d List.mem_cons_self)).2
  have hstop : ∀ c ∈ " tasks per team".toList.head?, isDigit c = false := by
    intro c hc
    obtain rfl : ' ' = c := Option.some.inj hc
    decide
  have hrun : Takes (run isDigit : Pattern Slot) (digits ++ " tasks per team".toList) []
      " tasks per team".toList := takes_run hne (fun c hc => (hall c (hdigits c hc)).1) hstop
  have hclause := (takes_max (digits ++ " tasks per team".toList)).all
    ((takes_blank hhead).cons ((hrun.slot .maxPerTeam).cons takes_perTeam))
  exact hclause.optional

theorem takes_restOfLine {text : List Char} (hne : text ≠ []) (hline : '\n' ∉ text) :
    Takes (slot .condition restOfLine) text [(.condition, ⟨text, []⟩)] [] := by
  have hrun : Takes restOfLine (text ++ []) [] [] :=
    takes_run hne (fun c hc => bne_iff_ne.mpr fun heq => hline (heq ▸ hc)) (by simp)
  rw [List.append_nil] at hrun
  exact hrun.slot .condition

theorem CleanText.not_mem_newline (text : CleanText) : '\n' ∉ text.chars := by
  have hline : '\n' ∉ sentenceChars := by decide
  exact fun hmem => hline ((text.smooth true).chars _ hmem)

theorem CleanText.takes_condition (text : CleanText) :
    Takes (slot .condition restOfLine) text.chars [(.condition, ⟨text.chars, []⟩)] [] :=
  takes_restOfLine (text.smooth true).ne_nil text.not_mem_newline

/-! ### Waves -/

theorem takes_startWave (rest : List Char) :
    Takes (all [choice [word "start", word "launch", word "begin",
      all [word "kick", space, word "off"]], blanks, article, word "wave"])
      ("start wave ".toList ++ rest) [] (' ' :: rest) := by
  unfold Takes
  cbv

theorem takes_withTeams (rest : List Char) :
    Takes (all [blanks, oneOf ["with", "using", "for"], blanks] : Pattern Slot)
      (" with teams ".toList ++ rest) [] ("teams".toList ++ ' ' :: rest) := by
  unfold Takes
  cbv

theorem takes_wave (wave : CleanName) {rest : List Char} {slots : List (Slot × Span)}
    (hrest : ∀ c ∈ rest.head?, isNameChar c = false) (hteams : Takes waveTeams rest slots []) :
    Takes waveStart.pattern ("start wave ".toList ++ (wave.chars ++ rest))
      ((.wave, ⟨wave.chars ++ rest, rest⟩) :: slots) [] := by
  have hname := takes_optional_of_fails (wave.fails_numberSign rest)
  exact (takes_startWave (wave.chars ++ rest)).all ((takes_blank (wave.not_blank_head rest)).cons
    (hname.cons (((wave.takes_name hrest).slot .wave).cons hteams.last)))

theorem match?_startWave (wave : CleanName) :
    waveStart.match? ("start wave ".toList ++ wave.chars) = some ⟨[(.wave, wave.chars)]⟩ := by
  have hteams : Takes waveTeams [] [] [] := takes_optional_of_fails rfl
  have htakes := takes_wave wave (by simp) hteams
  rw [List.append_nil] at htakes
  rw [match?_of_takes htakes]
  simp only [List.map_cons, List.map_nil, Span.text_nil]

theorem match?_startWaveWith (wave : CleanName) (teams : NameList) :
    waveStart.match? ("start wave ".toList ++ (wave.chars ++ (" with teams ".toList ++ teams.chars)))
      = some ⟨[(.wave, wave.chars), (.teams, "teams".toList ++ ' ' :: teams.chars)]⟩ := by
  have hlist := takes_listSlot .teams teams isIntroduction_teams endsList_nil
  rw [List.append_nil, List.append_nil] at hlist
  have hteams := ((takes_withTeams teams.chars).all hlist.last).optional
  have hhead : ∀ c ∈ (" with teams ".toList ++ teams.chars).head?, isNameChar c = false :=
    not_isNameChar_blank _
  have htakes := takes_wave wave hhead hteams
  rw [match?_of_takes htakes]
  simp only [List.map_cons, List.map_nil, List.nil_append, Span.text_nil, Span.text_append]

/-! ### Assignments -/

theorem takes_assign (rest : List Char) :
    Takes (all [oneOf ["assign", "give"], blanks] : Pattern Slot) ("assign teams ".toList ++ rest) []
      ("teams".toList ++ ' ' :: rest) := by
  unfold Takes
  cbv

theorem takes_toTasks (rest : List Char) :
    Takes (all [blanks, oneOf ["to", "with"], blanks] : Pattern Slot) (" to tasks ".toList ++ rest) []
      ("tasks".toList ++ ' ' :: rest) := by
  unfold Takes
  cbv

theorem endsList_toTasks (rest : List Char) : EndsList (" to tasks ".toList ++ rest) :=
  endsList_word (by decide) (by decide) _

theorem endsList_with (rest : List Char) : EndsList (" with ".toList ++ rest) :=
  endsList_word (by decide) (by decide) _

theorem match?_assignTeams (teams tasks : NameList) (priority : Priority) :
    teamAssign.match? ("assign teams ".toList ++ (teams.chars ++ (" to tasks ".toList ++ (tasks.chars
        ++ (" with ".toList ++ (priority.name.toList ++ " priority".toList))))))
      = some ⟨[(.teams, "teams".toList ++ ' ' :: teams.chars),
          (.tasks, "tasks".toList ++ ' ' :: tasks.chars), (.priority, priority.name.toList)]⟩ := by
  generalize hclause : " with ".toList ++ (priority.name.toList ++ " priority".toList) = clause
  have hpriority := takes_priorityClause priority
  have hends := endsList_with (priority.name.toList ++ " priority".toList)
  rw [hclause] at hpriority hends
  have htasks := takes_listSlot .tasks tasks isIntroduction_tasks hends
  have hteams := takes_listSlot .teams teams isIntroduction_teams
    (endsList_toTasks (tasks.chars ++ clause))
  have htakes : Takes teamAssign.pattern _ _ _ := (takes_assign _).all (hteams.last.all
    ((takes_toTasks _).all (htasks.cons hpriority.last)))
  rw [match?_of_takes htakes]
  simp only [List.map_cons, List.map_nil, List.nil_append, List.cons_append, Span.text_append]

theorem takes_reassign (rest : List Char) :
    Takes (all [oneOf ["reassign", "move", "transfer"], blanks] : Pattern Slot)
      ("reassign task ".toList ++ rest) [] ("task".toList ++ ' ' :: rest) := by
  unfold Takes
  cbv

theorem takes_toTeam (rest : List Char) :
    Takes (all [blanks, optional (all [word "over", blanks]), word "to", blanks] : Pattern Slot)
      (" to team ".toList ++ rest) [] ("team".toList ++ ' ' :: rest) := by
  unfold Takes
  cbv

theorem takes_oneTask (task : CleanName) (hrest : ∀ c ∈ rest.head?, isNameChar c = false) :
    Takes oneTask ("task".toList ++ ' ' :: (task.chars ++ rest))
      [(.task, ⟨task.chars ++ rest, rest⟩)] rest :=
  (takes_introduced isIntroduction_task (task.not_blank_head rest)).cons
    ((takes_optional_of_fails (task.fails_numberSign rest)).cons
      ((task.takes_name hrest).slot .task).last)

def NameList.single (name : CleanName) : NameList := ⟨[name], by simp, by simp⟩

theorem NameList.single_chars (name : CleanName) : (single name).chars = name.chars := by
  simp [single, NameList.chars]

theorem PlainWord.takes_teamSlot (team : PlainWord) (role : Slot) (hrest : EndsList rest) :
    Takes (teamList role) ("team".toList ++ ' ' :: (team.chars ++ rest))
      [(role, ⟨("team".toList ++ ' ' :: team.chars) ++ rest, rest⟩)] rest := by
  rw [List.append_assoc]
  exact (takes_single isIntroduction_team team hrest).slot role

theorem match?_reassignTask (task team : CleanName) (priority : Priority) :
    taskReassign.match? ("reassign task ".toList ++ (task.chars ++ (" to team ".toList ++ (team.chars
        ++ (" with ".toList ++ (priority.name.toList ++ " priority".toList))))))
      = some ⟨[(.task, task.chars), (.teams, "team".toList ++ ' ' :: team.chars),
          (.priority, priority.name.toList)]⟩ := by
  generalize hclause : " with ".toList ++ (priority.name.toList ++ " priority".toList) = clause
  have hpriority := takes_priorityClause priority
  have hends := endsList_with (priority.name.toList ++ " priority".toList)
  rw [hclause] at hpriority hends
  have hteam := team.takes_teamSlot .teams hends
  have hhead : ∀ c ∈ (" to team ".toList ++ (team.chars ++ clause)).head?, isNameChar c = false :=
    not_isNameChar_blank _
  have htask := takes_oneTask task hhead
  have htakes : Takes taskReassign.pattern _ _ _ := (takes_reassign _).all (htask.last.all
    ((takes_toTeam _).all (hteam.cons hpriority.last)))
  rw [match?_of_takes htakes]
  simp only [List.map_cons, List.map_nil, List.nil_append, List.cons_append, Span.text_append]

/-! ### Blocks -/

theorem takes_block (rest : List Char) :
    Takes (all [word "block", blanks] : Pattern Slot) ("block team ".toList ++ rest) []
      ("team".toList ++ ' ' :: rest) := by
  unfold Takes
  cbv

theorem takes_onTeam (rest : List Char) :
    Takes (all [blanks, oneOf ["on", "by"], blanks] : Pattern Slot) (" on team ".toList ++ rest) []
      ("team".toList ++ ' ' :: rest) := by
  unfold Takes
  cbv

theorem endsList_onTeam (rest : List Char) : EndsList (" on team ".toList ++ rest) :=
  endsList_word (by decide) (by decide) _

def IsConnector (connector : List Char) : Prop :=
  connector = "until".toList ∨ connector = "when".toList

variable {connector : List Char}

theorem endsList_connector (h : IsConnector connector) (rest : List Char) :
    EndsList (' ' :: (connector ++ ' ' :: rest)) := by
  rcases h with rfl | rfl <;> exact endsList_word (by decide) (by decide) _

def conditionWords : List (List Char) :=
  ["until", "when", "because", "for", "after"].map String.toList

theorem IsConnector.mem_conditionWords (h : IsConnector connector) : connector ∈ conditionWords := by
  rcases h with rfl | rfl <;> decide

theorem not_blank_of_mem_conditionWords (h : connector ∈ conditionWords) (rest : List Char) :
    ∀ c ∈ (connector ++ rest).head?, isBlank c = false := by
  have hwords : ∀ word ∈ conditionWords, word ≠ [] ∧ (word.all fun c => !isBlank c) = true := by decide
  obtain ⟨hne, hblank⟩ := hwords connector h
  obtain ⟨d, more, rfl⟩ := List.exists_cons_of_ne_nil hne
  intro c hc
  obtain rfl : d = c := Option.some.inj hc
  simpa using List.all_eq_true.mp hblank d List.mem_cons_self

theorem takes_conditionWord (h : connector ∈ conditionWords) (rest : List Char) :
    Takes (oneOf ["until", "when", "because", "for", "after"] : Pattern Slot)
      (connector ++ ' ' :: rest) [] (' ' :: rest) := by
  unfold Takes
  simp only [conditionWords, List.map_cons, List.map_nil, List.mem_cons, List.not_mem_nil,
    or_false] at h
  rcases h with rfl | rfl | rfl | rfl | rfl <;> cbv

theorem takes_conditionClause (h : connector ∈ conditionWords) {text : List Char} (hne : text ≠ [])
    (hhead : ∀ c ∈ text.head?, isBlank c = false) (hline : '\n' ∉ text) :
    Takes conditionClause (' ' :: (connector ++ ' ' :: text))
      [(.connector, ⟨connector ++ ' ' :: text, ' ' :: text⟩), (.condition, ⟨text, []⟩)] [] := by
  have hblank := takes_blank (not_blank_of_mem_conditionWords h (' ' :: text))
  have hconnector := (((takes_conditionWord h text).slot .connector).cons
    (takes_blank hhead).last).optional
  exact (hblank.cons (hconnector.cons (takes_restOfLine hne hline).last)).optional

/-- A block is taken up to its condition, whatever names its teams have. -/
theorem match?_teamBlock (blocked blocking : PlainWord) {clause : List Char}
    {slots : List (Slot × Span)} (hclause : Takes conditionClause clause slots [])
    (hends : EndsList clause) :
    teamBlock.match? ("block team ".toList ++ (blocked.chars ++ (" on team ".toList
        ++ (blocking.chars ++ clause))))
      = some ⟨(.blockedTeams, "team".toList ++ ' ' :: blocked.chars)
          :: (.blockingTeams, "team".toList ++ ' ' :: blocking.chars)
          :: slots.map fun (role, span) => (role, span.text)⟩ := by
  have hblocking := blocking.takes_teamSlot .blockingTeams hends
  have hblocked := blocked.takes_teamSlot .blockedTeams (endsList_onTeam (blocking.chars ++ clause))
  have htakes : Takes teamBlock.pattern _ _ _ := (takes_block _).all (hblocked.last.all
    ((takes_onTeam _).all (hblocking.cons hclause.last)))
  rw [match?_of_takes htakes]
  simp only [List.map_cons, List.nil_append, List.cons_append, Span.text_append]

theorem match?_block (h : IsConnector connector) (blocked blocking : CleanName)
    (condition : CleanText) :
    teamBlock.match? ("block team ".toList ++ (blocked.chars ++ (" on team ".toList
        ++ (blocking.chars ++ ' ' :: (connector ++ ' ' :: condition.chars)))))
      = some ⟨[(.blockedTeams, "team".toList ++ ' ' :: blocked.chars),
          (.blockingTeams, "team".toList ++ ' ' :: blocking.chars), (.connector, connector),
          (.condition, condition.chars)]⟩ := by
  have hclause := takes_conditionClause h.mem_conditionWords (condition.smooth true).ne_nil
    (condition.smooth true).not_blank_head condition.not_mem_newline
  rw [match?_teamBlock blocked.toPlainWord blocking.toPlainWord hclause
    (endsList_connector h condition.chars)]
  simp only [List.map_cons, List.map_nil, Span.text_append, Span.text_nil]

/-! ### Synchronisation and load -/

theorem takes_sync (rest : List Char) :
    Takes (all [syncWords, blanks] : Pattern Slot) ("sync teams ".toList ++ rest) []
      ("teams".toList ++ ' ' :: rest) := by
  unfold Takes
  cbv

theorem takes_on (rest : List Char) :
    Takes (slot Slot.connector (oneOf ["on", "when", "after", "at", "before"]))
      ("on".toList ++ ' ' :: rest) [(Slot.connector, ⟨"on".toList ++ ' ' :: rest, ' ' :: rest⟩)]
      (' ' :: rest) := by
  unfold Takes
  cbv

theorem endsList_on (rest : List Char) : EndsList (" on ".toList ++ rest) :=
  endsList_word (by decide) (by decide) _

theorem match?_syncTeams (teams : NameList) (condition : CleanText) :
    teamSync.match? ("sync teams ".toList ++ (teams.chars ++ (" on ".toList ++ condition.chars)))
      = some ⟨[(.teams, "teams".toList ++ ' ' :: teams.chars), (.connector, "on".toList),
          (.condition, condition.chars)]⟩ := by
  have hblank : Takes (blanks : Pattern Slot) (" on ".toList ++ condition.chars) []
      ("on".toList ++ ' ' :: condition.chars) := by
    unfold Takes
    cbv
  have hteams := takes_listSlot .teams teams isIntroduction_teams (endsList_on condition.chars)
  have hhead : ∀ c ∈ condition.chars.head?, isBlank c = false :=
    (condition.smooth true).not_blank_head
  have htakes : Takes teamSync.pattern _ _ _ := (takes_sync _).all (hteams.cons (hblank.cons
    ((takes_on condition.chars).cons ((takes_blank hhead).cons condition.takes_condition.last))))
  rw [match?_of_takes htakes]
  simp only [List.map_cons, List.map_nil, List.nil_append, List.cons_append, Span.text_append,
    Span.text_nil]

theorem takes_balance (rest : List Char) :
    Takes (all [oneOf ["balance", "distribute", "rebalance", "spread"],
      optional (all [blanks, article, choice (loadWords ++ [word "tasks"])]),
      optional (all [blanks, oneOf ["across", "between", "among", "over"]]), blanks])
      ("balance load across teams ".toList ++ rest) [] ("teams".toList ++ ' ' :: rest) := by
  unfold Takes
  cbv

theorem endsList_using (rest : List Char) : EndsList (" using ".toList ++ rest) :=
  endsList_word (by decide) (by decide) _

theorem match?_balanceLoad (teams : NameList) (strategy : Strategy) (n : Nat) :
    loadBalance.match? ("balance load across teams ".toList ++ (teams.chars ++ (" using ".toList
        ++ (strategy.name.toList ++ (" max ".toList
          ++ (Roster.numeral n ++ " tasks per team".toList))))))
      = some ⟨[(.teams, "teams".toList ++ ' ' :: teams.chars), (.strategy, strategy.name.toList),
          (.maxPerTeam, Roster.numeral n)]⟩ := by
  have hmax := takes_maxClause (numeral_ne_nil n) fun c hc => mem_asciiDigits_of_mem_numeral hc
  have hstrategy := takes_strategyClause strategy (Roster.numeral n ++ " tasks per team".toList)
  have hteams := takes_listSlot .teams teams isIntroduction_teams (endsList_using
    (strategy.name.toList ++ (" max ".toList ++ (Roster.numeral n ++ " tasks per team".toList))))
  have htakes : Takes loadBalance.pattern _ _ _ := (takes_balance _).all
    (hteams.cons (hstrategy.cons hmax.last))
  rw [match?_of_takes htakes]
  simp only [List.map_cons, List.map_nil, List.nil_append, List.cons_append, Span.text_append]

end TeamOrders
