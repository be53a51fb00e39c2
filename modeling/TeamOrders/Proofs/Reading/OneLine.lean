import TeamOrders.Proofs.Comment.OneLine
import TeamOrders.Proofs.Reading.Tidy

/-!
# What is read from one line stays on one line

The names in a tidy order are in one piece, so they hold no line break wherever they come from. A wave
and a condition are taken from the segment, and notes, errors and hints quote nothing else. So what a
segment without line breaks adds to a reading is free of them.
-/

namespace TeamOrders

open Text

def Order.texts : Order → List String
  | startWave p => p.wave :: p.teams
  | assignTeams p => p.teams ++ p.tasks
  | assignTask p => [p.task, p.team]
  | blockTeam p => [p.blocked, p.blocking, p.condition]
  | syncTeams p => p.condition :: p.teams
  | balanceLoad p => p.teams

theorem oneLine_of_whole {s : String} (h : ∀ c ∈ s.toList, isBlank c = false) : OneLine s :=
  fun hmem => absurd (h _ hmem) (by decide)

theorem TeamNamed.oneLine {team : String} (h : TeamNamed team) : OneLine team :=
  oneLine_of_whole fun c hc => (h.whole c hc).1

theorem TeamsNamed.oneLine {teams : List String} (h : TeamsNamed teams) :
    ∀ team ∈ teams, OneLine team := fun team hteam => (h.named team hteam).oneLine

theorem TaskNamed.oneLine {task : String} (h : TaskNamed task) : OneLine task :=
  oneLine_of_whole h.whole

/-! ### Meanings -/

namespace Meaning

variable {phrase : Phrase} {m : Phrase.Match} {segment : List Char} {meant : Meant}

theorem oneLine_unsigned {s : List Char} (h : '\n' ∉ s) : OneLine (unsigned s) :=
  oneLine_ofList.mpr fun hmem => h ((List.dropWhile_suffix _).subset hmem)

theorem not_mem_unquote {s : List Char} (h : '\n' ∉ s) : '\n' ∉ unquote s := fun hmem =>
  h ((trimBy_isInfix _ s).subset ((trimBy_isInfix _ _).subset ((trimBy_isInfix _ _).subset hmem)))

theorem Found.not_mem_get? (found : Found phrase segment m) (hsegment : '\n' ∉ segment) {role : Slot}
    {text : List Char} (h : m.get? role = some text) : '\n' ∉ text := fun hmem =>
  hsegment ((Phrase.holds_of_get? found.mem found.matched h).2 _ hmem).1

theorem Found.not_mem_textIn (found : Found phrase segment m) (hsegment : '\n' ∉ segment)
    (role : Slot) : '\n' ∉ textIn m role := fun hmem =>
  hsegment (found.mem_textIn role _ hmem).1

theorem oneLine_notes_of_singleTeam {role team : String} {teams notes : List String}
    (hrole : OneLine role) (hteams : ∀ team ∈ teams, OneLine team)
    (h : singleTeam role teams = some (team, notes)) : ∀ note ∈ notes, OneLine note := by
  unfold singleTeam at h
  split at h
  · cases h
  · cases h
    exact nofun
  · cases h
    obtain ⟨hteam, hothers⟩ := List.forall_mem_cons.mp hteams
    rw [List.forall_mem_singleton]
    simp +decide only [oneLine_append, hrole, hteam, oneLine_listed hothers, and_self]

structure Meant.OnOneLine (meant : Meant) : Prop where
  texts : ∀ text ∈ meant.order.texts, OneLine text
  notes : ∀ note ∈ meant.notes, OneLine note

theorem onOneLine_waveStart (found : Found phrase segment m) (hsegment : '\n' ∉ segment)
    (h : waveStart m = some meant) : meant.OnOneLine := by
  have htidy := tidy_waveStart found h
  obtain ⟨wave, hwave, rfl⟩ := waveStart_eq_some_iff.mp h
  have hname : OneLine (unsigned wave) := oneLine_unsigned (found.not_mem_get? hsegment hwave)
  exact ⟨List.forall_mem_cons.mpr ⟨hname, htidy.oneLine⟩, nofun⟩

theorem onOneLine_teamAssignment (found : Found phrase segment m)
    (h : teamAssignment m = some meant) : meant.OnOneLine := by
  have htidy := tidy_teamAssignment found h
  obtain ⟨fragment, -, -, -, rfl⟩ := teamAssignment_eq_some_iff.mp h
  obtain ⟨⟨hteams, -⟩, -, -, hnamed⟩ := htidy
  have htasks := fun task htask => (hnamed task htask).oneLine
  exact ⟨List.forall_mem_append.mpr ⟨hteams.oneLine, htasks⟩, nofun⟩

theorem onOneLine_taskAssignment (found : Found phrase segment m)
    (h : taskAssignment m = some meant) : meant.OnOneLine := by
  have htidy := tidy_taskAssignment found h
  obtain ⟨task, -, team, notes, hteam, rfl⟩ := taskAssignment_eq_some_iff.mp h
  have hteams : TeamsNamed (teamsIn m .teams) := found.teamsNamed fun _ hc => hc
  refine ⟨?_, oneLine_notes_of_singleTeam (by decide) hteams.oneLine hteam⟩
  simp only [Order.texts, List.forall_mem_cons]
  exact ⟨htidy.2.oneLine, htidy.1.oneLine, nofun⟩

theorem onOneLine_blockingRelation (found : Found phrase segment m) (hsegment : '\n' ∉ segment)
    (h : blockingRelation m = some meant) : meant.OnOneLine := by
  have htidy := tidy_blockingRelation found h
  obtain ⟨blocked, blockedNotes, hblocked, blocking, blockingNotes, hblocking, rfl⟩ :=
    blockingRelation_eq_some_iff.mp h
  have hblockedTeams : TeamsNamed (teamsIn m .blockedTeams) := found.teamsNamed fun _ hc => hc
  have hblockingTeams : TeamsNamed (teamsIn m .blockingTeams) := found.teamsNamed fun _ hc => hc
  refine ⟨?_, List.forall_mem_append.mpr
    ⟨oneLine_notes_of_singleTeam (by decide) hblockedTeams.oneLine hblocked,
      oneLine_notes_of_singleTeam (by decide) hblockingTeams.oneLine hblocking⟩⟩
  have hcondition : OneLine ((conditionIn m).getD defaultCondition) := by
    cases hget : conditionIn m with
    | none => exact (by decide : OneLine defaultCondition)
    | some condition =>
      obtain ⟨whole, hwhole, -, rfl⟩ := exists_of_conditionIn hget
      exact oneLine_ofList.mpr (not_mem_unquote (found.not_mem_get? hsegment hwhole))
  simp only [Order.texts, List.forall_mem_cons]
  exact ⟨htidy.1.oneLine, htidy.2.1.oneLine, hcondition, nofun⟩

theorem onOneLine_syncPoint (found : Found phrase segment m) (hsegment : '\n' ∉ segment)
    (h : syncPoint m = some meant) : meant.OnOneLine := by
  have htidy := tidy_syncPoint found h
  obtain ⟨-, rfl⟩ := syncPoint_eq_some_iff.mp h
  have hcondition : OneLine (String.ofList (unquote (textIn m .condition))) :=
    oneLine_ofList.mpr (not_mem_unquote (found.not_mem_textIn hsegment .condition))
  exact ⟨List.forall_mem_cons.mpr ⟨hcondition, htidy.1.oneLine⟩, nofun⟩

theorem onOneLine_balanceRequest (found : Found phrase segment m)
    (h : balanceRequest m = some meant) : meant.OnOneLine := by
  have htidy := tidy_balanceRequest found h
  obtain ⟨-, rfl⟩ := balanceRequest_eq_some_iff.mp h
  exact ⟨htidy.1.oneLine, nofun⟩

theorem onOneLine_of_ofMatch? (found : Found phrase segment m) (hsegment : '\n' ∉ segment)
    {kind : Kind} (h : ofMatch? kind m = some meant) : meant.OnOneLine := by
  cases kind with
  | waveStart => exact onOneLine_waveStart found hsegment h
  | teamAssign => exact onOneLine_teamAssignment found h
  | taskAssign => exact onOneLine_taskAssignment found h
  | teamBlock => exact onOneLine_blockingRelation found hsegment h
  | teamSync => exact onOneLine_syncPoint found hsegment h
  | loadBalance => exact onOneLine_balanceRequest found h
  | batch => cases h

end Meaning

/-! ### Errors and hints -/

theorem Help.oneLine_of_mem_hints {nearMisses : Bool} {s : List Char} {template : String}
    (h : template ∈ hints nearMisses s) : OneLine template := by
  have hentries : ∀ entry ∈ entries, OneLine entry.template := by
    simp only [entries, List.forall_mem_cons]
    refine ⟨?_, ?_, ?_, ?_, ?_, ?_, ?_, nofun⟩ <;> exact oneLine_ofList.mpr (by decide)
  simp only [hints, List.mem_map] at h
  obtain ⟨entry, hentry, rfl⟩ := h
  have hmem := (List.take_sublist _ _).subset hentry
  exact hentries entry (List.mem_filter.mp hmem).1

theorem ReadingError.oneLine_message {segment : String} (h : OneLine segment) (hints : List String) :
    OneLine (message (.noMatch segment hints)) := by
  refine oneLine_append.mpr ⟨oneLine_append.mpr ⟨?_, h⟩, ?_⟩ <;>
    exact oneLine_ofList.mpr (by decide)

theorem ReadingError.oneLine_hint {segment : String} {hints : List String} (h : OneLine segment)
    (hhints : ∀ template ∈ hints, OneLine template) : OneLine (hint (.noMatch segment hints)) := by
  rw [hint]
  split
  · exact oneLine_append.mpr ⟨oneLine_ofList.mpr (by decide), oneLine_listed (by decide)⟩
  · have hlisted : OneLine (" | ".intercalate hints) := oneLine_intercalate (by decide) hhints
    simp +decide only [oneLine_append, h, hlisted, and_self]

/-! ### Parts of readings -/

/-- The command carries an order under its own kind, and neither the texts of the order nor the text it
was read from hold a line break. -/
structure Command.OnOneLine (command : Command) : Prop where
  rawText : OneLine command.rawText
  order : ∃ order, command.payload = .single order ∧ command.kind = order.kind ∧
    ∀ text ∈ order.texts, OneLine text

namespace Reading

structure Part.OnOneLine (part : Part) : Prop where
  command : ∀ command, part.command? = some command → command.OnOneLine
  error : ∀ error, part.error? = some error → OneLine error
  warnings : ∀ warning ∈ part.warnings, OneLine warning

variable {settings : Settings} {context : Context} {actor : String} {now : Timestamp}
  {segment : List Char} {comment : String}

theorem Part.onOneLine_ofSegment (h : '\n' ∉ segment) :
    (ofSegment settings actor now segment).OnOneLine := by
  have htext : OneLine (String.ofList segment) := oneLine_ofList.mpr h
  cases hread : readSegment settings actor now segment with
  | error e =>
    rw [ofSegment_error hread]
    obtain ⟨-, rfl⟩ := readSegment_eq_error_iff.mp hread
    refine ⟨nofun, ?_, ?_⟩
    · rintro _ ⟨⟩
      exact ReadingError.oneLine_message htext _
    · rw [List.forall_mem_singleton]
      exact ReadingError.oneLine_hint htext fun _ => Help.oneLine_of_mem_hints
  | ok read =>
    obtain ⟨command, notes⟩ := read
    rw [ofSegment_ok hread]
    obtain ⟨chosen, others, hchoose, rfl, rfl⟩ := readSegment_eq_ok_iff.mp hread
    have hmem := (Candidate.perm_of_choose hchoose).subset List.mem_cons_self
    obtain ⟨phrase, hphrase, m, meant, hmatch, hofMatch, rfl⟩ :=
      Candidate.exists_meant_of_mem_ofSegment hmem
    have hline := Meaning.onOneLine_of_ofMatch? ⟨hphrase, hmatch⟩ h hofMatch
    refine ⟨?_, nofun, hline.notes⟩
    rintro _ ⟨⟩
    exact ⟨htext, meant.order, rfl, rfl, hline.texts⟩

theorem onOneLine_of_mem_parts (h : ∀ entry ∈ settings.vocabulary.entries, OneLine entry.2)
    {part : Part} (hpart : part ∈ parts settings context now comment) : part.OnOneLine := by
  obtain ⟨segment, hsegment, rfl⟩ := List.mem_map.mp hpart
  exact Part.onOneLine_ofSegment (not_mem_of_mem_segmentsOf h hsegment)

end Reading

end TeamOrders
