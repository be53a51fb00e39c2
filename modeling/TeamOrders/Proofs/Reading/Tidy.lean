import TeamOrders.Proofs.Reading.Alternatives
import TeamOrders.Proofs.Reading.Parts
import TeamOrders.Proofs.Roster.Ids

/-!
# Readings are tidy

What reading gives can be relied on without another check. Teams go by names that name themselves and
stand once in a list, tasks by names that are not blank and have no number sign in front, and lists that
an order cannot do without are not empty. A reading has one command at most, and only the batch that
wraps several commands holds others: every other command, and every alternative, is a single order under
its own kind, which was read from one segment.
-/

namespace TeamOrders

open Text

/-! ### Tidy orders -/

/-- The name names the team itself, and it is in one piece and in small letters. -/
structure TeamNamed (team : String) : Prop where
  fixed : Roster.teamName team.toList = team.toList
  whole : ∀ c ∈ team.toList, isBlank c = false ∧ c ≠ ','
  small : asciiLowered team = team

structure TeamsNamed (teams : List String) : Prop where
  named : ∀ team ∈ teams, TeamNamed team
  nodup : teams.Nodup

/-- The name says something, is in one piece and has no number sign in front. -/
structure TaskNamed (task : String) : Prop where
  said : isBlankText task = false
  whole : ∀ c ∈ task.toList, isBlank c = false
  unsigned : ∀ c ∈ task.toList.head?, c ≠ '#'

/-- The parts of an order are in the form in which they are understood. -/
def Order.Tidy : Order → Prop
  | startWave p => TeamsNamed p.teams
  | assignTeams p =>
    (TeamsNamed p.teams ∧ p.teams ≠ []) ∧ p.tasks ≠ [] ∧ p.tasks.Nodup ∧
      ∀ task ∈ p.tasks, TaskNamed task
  | assignTask p => TeamNamed p.team ∧ TaskNamed p.task
  | blockTeam p =>
    TeamNamed p.blocked ∧ TeamNamed p.blocking ∧ isBlankText p.condition = false ∧
      (p.until? = none ∨ p.until? = some p.condition)
  | syncTeams p => TeamsNamed p.teams ∧ p.teams ≠ []
  | balanceLoad p => TeamsNamed p.teams ∧ p.teams ≠ []

theorem teamNamed_of_isTeamId {id : List Char} (h : Roster.IsTeamId id) :
    TeamNamed (String.ofList id) where
  fixed := by rw [String.toList_ofList, h.teamName_eq]
  whole := fun c hc => by
    have hchar := h.chars c (by rwa [String.toList_ofList] at hc)
    exact ⟨Roster.not_isBlank_of_isItemChar hchar, (Roster.ne_of_isItemChar hchar).1⟩
  small := by rw [asciiLowered, String.toList_ofList, h.toLower_eq]

theorem isBlankText_ofList {s : List Char} {c : Char} (hc : c ∈ s) (h : isBlank c = false) :
    isBlankText (String.ofList s) = false := by
  rw [isBlankText, String.toList_ofList, List.all_eq_false]
  exact ⟨c, hc, by simp [h]⟩

theorem taskNamed_of_isTaskId {id : List Char} (h : Roster.IsTaskId id) :
    TaskNamed (String.ofList id) where
  said := by
    obtain ⟨c, rest, rfl⟩ := List.exists_cons_of_ne_nil h.nonempty
    exact isBlankText_ofList List.mem_cons_self
      (Roster.not_isBlank_of_isItemChar (h.chars c List.mem_cons_self))
  whole := fun c hc => Roster.not_isBlank_of_isItemChar (h.chars c (by rwa [String.toList_ofList] at hc))
  unsigned := by
    rw [String.toList_ofList]
    exact h.unsigned

theorem nodup_map_ofList {names : List (List Char)} (h : names.Nodup) :
    (names.map String.ofList).Nodup :=
  List.pairwise_map.mpr (h.imp fun hne heq => hne (String.ofList_injective heq))

namespace Meaning

variable {phrase : Phrase} {m : Phrase.Match} {role : Slot} {segment : List Char} {meant : Meant}

structure Found (phrase : Phrase) (segment : List Char) (m : Phrase.Match) : Prop where
  mem : phrase ∈ Phrase.table
  matched : phrase.match? segment = some m

theorem Found.mem_textIn (found : Found phrase segment m) (role : Slot) :
    ∀ c ∈ textIn m role, c ∈ segment ∧ Phrase.HoldsIn role c := by
  intro c hc
  unfold textIn at hc
  cases htext : m.get? role with
  | none =>
    rw [htext] at hc
    cases hc
  | some text =>
    rw [htext] at hc
    exact (Phrase.holds_of_get? found.mem found.matched htext).2 c hc

theorem Found.teamsNamed (found : Found phrase segment m)
    (hrole : ∀ c, Phrase.HoldsIn role c → Phrase.isListChar c = true) :
    TeamsNamed (teamsIn m role) where
  named := fun team hteam => by
    obtain ⟨id, hid, rfl⟩ := List.mem_map.mp hteam
    exact teamNamed_of_isTeamId (Roster.isTeamId_of_mem_teams
      (fun c hc => hrole c (found.mem_textIn role c hc).2) (Roster.mem_distinct.mp hid))
  nodup := nodup_map_ofList (Roster.nodup_distinct _)

theorem mem_of_singleTeam {role team : String} {teams notes : List String}
    (h : singleTeam role teams = some (team, notes)) : team ∈ teams := by
  unfold singleTeam at h
  split at h
  · cases h
  · cases h
    exact List.mem_cons_self
  · cases h
    exact List.mem_cons_self

/-! ### The kinds of orders -/

theorem tidy_waveStart (found : Found phrase segment m) (h : waveStart m = some meant) :
    meant.order.Tidy := by
  obtain ⟨wave, -, rfl⟩ := waveStart_eq_some_iff.mp h
  exact found.teamsNamed fun _ hc => hc

theorem tidy_teamAssignment (found : Found phrase segment m) (h : teamAssignment m = some meant) :
    meant.order.Tidy := by
  obtain ⟨fragment, hfragment, hteams, htasks, rfl⟩ := teamAssignment_eq_some_iff.mp h
  refine ⟨⟨found.teamsNamed fun _ hc => hc, hteams⟩, htasks,
    nodup_map_ofList (Roster.nodup_distinct _), fun task htask => ?_⟩
  obtain ⟨id, hid, rfl⟩ := List.mem_map.mp htask
  have hchars := (Phrase.holds_of_get? found.mem found.matched hfragment).2
  exact taskNamed_of_isTaskId (Roster.isTaskId_of_mem_tasks (fun c hc => (hchars c hc).2)
    (Roster.mem_distinct.mp hid))

theorem taskNamed_unsigned (found : Found phrase segment m) {task : List Char}
    (h : m.get? .task = some task) : TaskNamed (unsigned task) := by
  obtain ⟨hne, hchars⟩ := Phrase.holds_of_get? found.mem found.matched h
  have hname : ∀ c ∈ task, Phrase.isNameChar c = true := fun c hc => (hchars c hc).2
  have hsign : ∀ c ∈ task.head?, c ≠ '#' := fun c hc heq =>
    absurd (hname c (List.mem_of_head? hc)) (by rw [heq]; decide)
  have hself : trimStartBy (· == '#') task = task :=
    dropWhile_eq_self fun c hc => beq_eq_false_iff_ne.mpr (hsign c hc)
  rw [unsigned, hself]
  exact taskNamed_of_isTaskId ⟨hne, hsign, fun c hc => Roster.isItemChar_of_isNameChar (hname c hc)⟩

theorem tidy_taskAssignment (found : Found phrase segment m) (h : taskAssignment m = some meant) :
    meant.order.Tidy := by
  obtain ⟨task, htask, team, notes, hteam, rfl⟩ := taskAssignment_eq_some_iff.mp h
  have hteams : TeamsNamed (teamsIn m .teams) := found.teamsNamed fun _ hc => hc
  exact ⟨hteams.named team (mem_of_singleTeam hteam), taskNamed_unsigned found htask⟩

theorem isBlankText_of_trim {s : List Char} (h : trim s ≠ []) :
    isBlankText (String.ofList (trim s)) = false := by
  obtain ⟨c, rest, heq⟩ := List.exists_cons_of_ne_nil h
  have hhead : c ∈ (trim s).head? := by
    rw [heq]
    rfl
  exact isBlankText_ofList (List.mem_of_head? hhead) ((isTrimmed_trim s).1 c hhead)

theorem isBlankText_defaultCondition : isBlankText defaultCondition = false := by decide

theorem tidy_blockingRelation (found : Found phrase segment m)
    (h : blockingRelation m = some meant) : meant.order.Tidy := by
  obtain ⟨blocked, blockedNotes, hblocked, blocking, blockingNotes, hblocking, rfl⟩ :=
    blockingRelation_eq_some_iff.mp h
  have hblockedTeams : TeamsNamed (teamsIn m .blockedTeams) := found.teamsNamed fun _ hc => hc
  have hblockingTeams : TeamsNamed (teamsIn m .blockingTeams) := found.teamsNamed fun _ hc => hc
  refine ⟨hblockedTeams.named blocked (mem_of_singleTeam hblocked),
    hblockingTeams.named blocking (mem_of_singleTeam hblocking), ?_⟩
  cases hcondition : conditionIn m with
  | none => exact ⟨isBlankText_defaultCondition, .inl (ite_self none)⟩
  | some condition =>
    obtain ⟨whole, -, hne, rfl⟩ := exists_of_conditionIn hcondition
    refine ⟨isBlankText_of_trim hne, ?_⟩
    by_cases hconnector : m.get? .connector = some "until".toList
    · exact .inr (if_pos hconnector)
    · exact .inl (if_neg hconnector)

theorem tidy_syncPoint (found : Found phrase segment m) (h : syncPoint m = some meant) :
    meant.order.Tidy := by
  obtain ⟨hteams, rfl⟩ := syncPoint_eq_some_iff.mp h
  exact ⟨found.teamsNamed fun _ hc => hc, hteams⟩

theorem tidy_balanceRequest (found : Found phrase segment m) (h : balanceRequest m = some meant) :
    meant.order.Tidy := by
  obtain ⟨hteams, rfl⟩ := balanceRequest_eq_some_iff.mp h
  exact ⟨found.teamsNamed fun _ hc => hc, hteams⟩

theorem tidy_of_ofMatch? (found : Found phrase segment m) {kind : Kind}
    (h : ofMatch? kind m = some meant) : meant.order.Tidy := by
  cases kind with
  | waveStart => exact tidy_waveStart found h
  | teamAssign => exact tidy_teamAssignment found h
  | taskAssign => exact tidy_taskAssignment found h
  | teamBlock => exact tidy_blockingRelation found h
  | teamSync => exact tidy_syncPoint found h
  | loadBalance => exact tidy_balanceRequest found h
  | batch => cases h

end Meaning

/-! ### Tidy commands -/

theorem Candidate.tidy_of_mem_ofSegment {segment : List Char} {candidate : Candidate}
    (h : candidate ∈ ofSegment segment) : candidate.order.Tidy := by
  obtain ⟨phrase, hphrase, m, meant, hmatch, hofMatch, rfl⟩ := exists_meant_of_mem_ofSegment h
  exact Meaning.tidy_of_ofMatch? ⟨hphrase, hmatch⟩ hofMatch

/-- A tidy order under its own kind, from the sender, read from one of the segments. -/
structure Command.TidySingle (actor : String) (segments : List (List Char)) (command : Command) :
    Prop where
  order : ∃ order, command.payload = .single order ∧ order.Tidy
  kind : command.kind = command.payload.kind
  sender : command.actor = actor
  segment : command.rawText.toList ∈ segments

/-- A tidy single command, whose alternatives are tidy single commands without further ones. -/
structure Command.TidyRead (actor : String) (segments : List (List Char)) (command : Command) : Prop
    extends command.TidySingle actor segments where
  alternatives : ∀ other ∈ command.alternatives,
    other.TidySingle actor segments ∧ other.alternatives = []

/-- A batch from the sender of at least two tidy commands, which has no alternatives. -/
structure Command.TidyBatch (actor : String) (segments : List (List Char)) (command : Command) :
    Prop where
  members : ∃ members, command.payload = .batch members ∧ 2 ≤ members.length ∧
    ∀ member ∈ members, member.TidyRead actor segments
  kind : command.kind = command.payload.kind
  sender : command.actor = actor
  alternatives : command.alternatives = []

variable {settings : Settings} {context : Context} {now : Timestamp} {actor : String}

theorem Candidate.tidySingle_toCommand {segment : List Char} {segments : List (List Char)}
    (hsegment : segment ∈ segments) {candidate : Candidate}
    (h : candidate ∈ ofSegment segment) :
    (candidate.toCommand (String.ofList segment) actor now).TidySingle actor segments where
  order := ⟨candidate.order, rfl, tidy_of_mem_ofSegment h⟩
  kind := rfl
  sender := rfl
  segment := by
    rw [Candidate.toCommand, Command.new, String.toList_ofList]
    exact hsegment

theorem tidyRead_of_readSegment {segment : List Char} {segments : List (List Char)}
    (hsegment : segment ∈ segments) {command : Command} {notes : List String}
    (h : readSegment settings actor now segment = .ok (command, notes)) :
    command.TidyRead actor segments := by
  obtain ⟨chosen, others, hchoose, rfl, -⟩ := readSegment_eq_ok_iff.mp h
  have hmem := (Candidate.perm_of_choose hchoose).subset
  have hchosen : (chosen.toCommand (String.ofList segment) actor now).TidySingle actor segments :=
    Candidate.tidySingle_toCommand hsegment (hmem List.mem_cons_self)
  refine ⟨⟨hchosen.order, hchosen.kind, hchosen.sender, hchosen.segment⟩, fun other hother => ?_⟩
  obtain ⟨candidate, hcandidate, rfl⟩ := List.mem_map.mp hother
  have hother : candidate ∈ others := Candidate.mem_of_mem_alternatives hcandidate
  exact ⟨Candidate.tidySingle_toCommand hsegment (hmem (List.mem_cons_of_mem chosen hother)), rfl⟩

namespace Reading

variable {comment : String}

theorem tidyRead_of_mem_commandsOf {command : Command}
    (h : command ∈ commandsOf settings context now comment) :
    command.TidyRead context.sender (segmentsOf settings comment) := by
  obtain ⟨part, hpart, hcommand⟩ := List.mem_filterMap.mp h
  obtain ⟨segment, hsegment, rfl⟩ := List.mem_map.mp hpart
  cases hread : readSegment settings context.sender now segment with
  | error e =>
    rw [Part.ofSegment_error hread] at hcommand
    cases hcommand
  | ok read =>
    obtain ⟨found, notes⟩ := read
    rw [Part.ofSegment_ok hread] at hcommand
    obtain rfl : found = command := Option.some.inj hcommand
    exact tidyRead_of_readSegment hsegment hread

theorem tidy_wrap {segments : List (List Char)} {commands : List Command}
    (h : ∀ command ∈ commands, command.TidyRead actor segments) :
    wrap actor now commands = [] ∨ ∃ command, wrap actor now commands = [command] ∧
      (command.TidyRead actor segments ∨ command.TidyBatch actor segments) := by
  match commands with
  | [] => exact .inl rfl
  | [command] => exact .inr ⟨command, rfl, .inl (h command List.mem_cons_self)⟩
  | first :: second :: rest =>
    refine .inr ⟨_, if_pos (by simp), .inr ?_⟩
    exact ⟨⟨_, rfl, by simp, h⟩, rfl, rfl, rfl⟩

/-- A reading has one command at most, which is a tidy single command or a batch of them. -/
theorem ofComment_tidy (settings : Settings) (context : Context) (now : Timestamp)
    (comment : String) :
    (ofComment settings context now comment).commands = [] ∨
      ∃ command, (ofComment settings context now comment).commands = [command] ∧
        (command.TidyRead context.sender (segmentsOf settings comment) ∨
          command.TidyBatch context.sender (segmentsOf settings comment)) := by
  by_cases hsegments : segmentsOf settings comment = []
  · rw [ofComment_of_no_segments hsegments]
    exact .inl rfl
  · rw [ofComment_of_segments hsegments]
    exact tidy_wrap fun command hcommand => tidyRead_of_mem_commandsOf hcommand

end Reading

end TeamOrders
