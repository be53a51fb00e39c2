import TeamOrders.Proofs.Number.Numeral
import TeamOrders.Proofs.Sentence.Roster
import TeamOrders.Reading.Meaning

/-!
# Sentences

One way of putting each order in words, for all names, lists, conditions, priorities, strategies and
bounds. `Sentence.text` is what is said and `Sentence.order` what is meant by it.
-/

namespace TeamOrders

open Text

/-- What can be said about teams, waves and tasks with clean names. -/
inductive Sentence where
  | startWave (wave : CleanName)
  | startWaveWith (wave : CleanName) (teams : NameList)
  | assignTeams (teams tasks : NameList) (priority : Priority)
  | reassignTask (task team : CleanName) (priority : Priority)
  | blockUntil (blocked blocking : CleanName) (condition : CleanText)
  | blockWhen (blocked blocking : CleanName) (condition : CleanText)
  | syncTeams (teams : NameList) (condition : CleanText)
  | balanceLoad (teams : NameList) (strategy : Strategy) (bound : UInt64)

def NameList.text (list : NameList) : String := listed (list.names.map (·.text))

def CleanName.team (name : CleanName) : String := "team-" ++ name.text

def NameList.teams (list : NameList) : List String := list.names.map (·.team)

namespace Sentence

def text : Sentence → String
  | startWave wave => "start wave " ++ wave.text
  | startWaveWith wave teams => "start wave " ++ wave.text ++ " with teams " ++ teams.text
  | assignTeams teams tasks priority =>
    "assign teams " ++ teams.text ++ " to tasks " ++ tasks.text ++ " with " ++ priority.name
      ++ " priority"
  | reassignTask task team priority =>
    "reassign task " ++ task.text ++ " to team " ++ team.text ++ " with " ++ priority.name
      ++ " priority"
  | blockUntil blocked blocking condition =>
    "block team " ++ blocked.text ++ " on team " ++ blocking.text ++ " until " ++ condition.text
  | blockWhen blocked blocking condition =>
    "block team " ++ blocked.text ++ " on team " ++ blocking.text ++ " when " ++ condition.text
  | syncTeams teams condition => "sync teams " ++ teams.text ++ " on " ++ condition.text
  | balanceLoad teams strategy bound =>
    "balance load across teams " ++ teams.text ++ " using " ++ strategy.name ++ " max "
      ++ toString bound.toNat ++ " tasks per team"

/-- What is meant. Which conditions speak of completion, `Meaning.speaksOfCompletion_iff` says. -/
def order : Sentence → Order
  | startWave wave => .startWave { wave := wave.text, teams := [] }
  | startWaveWith wave teams => .startWave { wave := wave.text, teams := teams.teams }
  | assignTeams teams tasks priority =>
    .assignTeams { teams := teams.teams, tasks := tasks.names.map (·.text), priority }
  | reassignTask task team priority =>
    .assignTask { task := task.text, team := team.team, priority }
  | blockUntil blocked blocking condition =>
    .blockTeam
      { blocked := blocked.team, blocking := blocking.team, condition := condition.text
        until? := some condition.text }
  | blockWhen blocked blocking condition =>
    .blockTeam
      { blocked := blocked.team, blocking := blocking.team, condition := condition.text
        until? := none }
  | syncTeams teams condition =>
    .syncTeams
      { teams := teams.teams, condition := condition.text
        trigger := if Meaning.speaksOfCompletion none condition.chars then .completion else .custom }
  | balanceLoad teams strategy bound =>
    .balanceLoad
      { teams := teams.teams, strategy
        constraints := Table.empty.insert "max_tasks_per_team" (Json.nat bound.toNat) }

def chars : Sentence → List Char
  | startWave wave => "start wave ".toList ++ wave.chars
  | startWaveWith wave teams =>
    "start wave ".toList ++ (wave.chars ++ (" with teams ".toList ++ teams.chars))
  | assignTeams teams tasks priority =>
    "assign teams ".toList ++ (teams.chars ++ (" to tasks ".toList ++ (tasks.chars
      ++ (" with ".toList ++ (priority.name.toList ++ " priority".toList)))))
  | reassignTask task team priority =>
    "reassign task ".toList ++ (task.chars ++ (" to team ".toList ++ (team.chars
      ++ (" with ".toList ++ (priority.name.toList ++ " priority".toList)))))
  | blockUntil blocked blocking condition =>
    "block team ".toList ++ (blocked.chars ++ (" on team ".toList ++ (blocking.chars
      ++ (" until ".toList ++ condition.chars))))
  | blockWhen blocked blocking condition =>
    "block team ".toList ++ (blocked.chars ++ (" on team ".toList ++ (blocking.chars
      ++ (" when ".toList ++ condition.chars))))
  | syncTeams teams condition =>
    "sync teams ".toList ++ (teams.chars ++ (" on ".toList ++ condition.chars))
  | balanceLoad teams strategy bound =>
    "balance load across teams ".toList ++ (teams.chars ++ (" using ".toList
      ++ (strategy.name.toList ++ (" max ".toList
        ++ (Roster.numeral bound.toNat ++ " tasks per team".toList)))))

end Sentence

theorem CleanName.toList_text (name : CleanName) : name.text.toList = name.chars :=
  String.toList_ofList

theorem CleanText.toList_text (text : CleanText) : text.text.toList = text.chars :=
  String.toList_ofList

theorem NameList.toList_text (list : NameList) : list.text.toList = list.chars := by
  have hnames : (list.names.map (·.text)).map String.toList = list.names.map (·.chars) := by
    rw [List.map_map]
    apply List.map_congr_left
    intro name _
    exact name.toList_text
  rw [NameList.text, listed, String.toList_intercalate, hnames]
  rfl

namespace Sentence

theorem toList_text (sentence : Sentence) : sentence.text.toList = sentence.chars := by
  cases sentence with
  | startWave wave =>
    change ("start wave " ++ wave.text).toList = _
    rw [String.toList_append, CleanName.toList_text]
    rfl
  | startWaveWith wave teams =>
    change ("start wave " ++ wave.text ++ " with teams " ++ teams.text).toList = _
    simp only [String.toList_append, CleanName.toList_text, NameList.toList_text, List.append_assoc]
    rfl
  | assignTeams teams tasks priority =>
    change ("assign teams " ++ teams.text ++ " to tasks " ++ tasks.text ++ " with "
      ++ priority.name ++ " priority").toList = _
    simp only [String.toList_append, NameList.toList_text, List.append_assoc]
    rfl
  | reassignTask task team priority =>
    change ("reassign task " ++ task.text ++ " to team " ++ team.text ++ " with "
      ++ priority.name ++ " priority").toList = _
    simp only [String.toList_append, CleanName.toList_text, List.append_assoc]
    rfl
  | blockUntil blocked blocking condition =>
    change ("block team " ++ blocked.text ++ " on team " ++ blocking.text ++ " until "
      ++ condition.text).toList = _
    simp only [String.toList_append, CleanName.toList_text, CleanText.toList_text,
      List.append_assoc]
    rfl
  | blockWhen blocked blocking condition =>
    change ("block team " ++ blocked.text ++ " on team " ++ blocking.text ++ " when "
      ++ condition.text).toList = _
    simp only [String.toList_append, CleanName.toList_text, CleanText.toList_text,
      List.append_assoc]
    rfl
  | syncTeams teams condition =>
    change ("sync teams " ++ teams.text ++ " on " ++ condition.text).toList = _
    simp only [String.toList_append, NameList.toList_text, CleanText.toList_text,
      List.append_assoc]
    rfl
  | balanceLoad teams strategy bound =>
    change ("balance load across teams " ++ teams.text ++ " using " ++ strategy.name ++ " max "
      ++ toString bound.toNat ++ " tasks per team").toList = _
    simp only [String.toList_append, NameList.toList_text, List.append_assoc]
    rfl

/-! ### Sentences are smooth -/

def numeralWord (n : Nat) : PlainWord where
  chars := Roster.numeral n
  nonempty := numeral_ne_nil n
  plain := by
    have hplain : ∀ c ∈ asciiDigits, c ∈ plainChars := List.all_iff_forall_prop.mp (by decide)
    exact fun c hc => hplain c (mem_asciiDigits_of_mem_numeral hc)
  noThen := by
    apply not_holdsWord_of_not_isInfix
    intro h
    have hmem : 't' ∈ asciiDigits := mem_asciiDigits_of_mem_numeral (h.subset (by decide))
    exact absurd hmem (by decide)
  noAlso := by
    apply not_holdsWord_of_not_isInfix
    intro h
    have hmem : 'a' ∈ asciiDigits := mem_asciiDigits_of_mem_numeral (h.subset (by decide))
    exact absurd hmem (by decide)

theorem smooth_priority (priority : Priority) :
    Smooth true (priority.name.toList ++ " priority".toList) false := by
  cases priority <;> exact smooth_of_looksSmooth (by decide)

theorem smooth_strategy (strategy : Strategy) : Smooth true strategy.name.toList false := by
  cases strategy <;> exact smooth_of_looksSmooth (by decide)

def verbs : List String :=
  ["start wave ", "assign teams ", "reassign task ", "block team ", "sync teams ",
    "balance load across teams "]

def gaps : List String :=
  [" with teams ", " to tasks ", " to team ", " with ", " on team ", " until ", " when ", " on ",
    " using ", " max "]

theorem smooth_verb {verb : String} (h : verb ∈ verbs) : Smooth true verb.toList true := by
  have hlooks : ∀ verb ∈ verbs, looksSmooth true verb.toList true = true := by decide
  exact smooth_of_looksSmooth (hlooks verb h)

theorem spacer_gap {gap : String} (h : gap ∈ gaps) : Spacer gap.toList := by
  have hlooks : ∀ gap ∈ gaps, looksSmooth false gap.toList true = true := by decide
  have hsides : ∀ gap ∈ gaps, startsInWord gap.toList = false ∧
      endsInWord gap.toList.getLast? = false ∧ gap.toList ≠ [] := by decide
  obtain ⟨hstarts, hends, hnonempty⟩ := hsides gap h
  exact ⟨smooth_of_looksSmooth (hlooks gap h), hstarts, hends, hnonempty⟩

/-- Nothing in a sentence is changed by the passes over comments. -/
theorem smooth (sentence : Sentence) : Smooth true sentence.chars false := by
  cases sentence with
  | startWave wave =>
    have hverb : Smooth true "start wave ".toList true := smooth_verb (by simp [verbs])
    exact hverb.append (wave.smooth true) (.inl rfl)
  | startWaveWith wave teams =>
    have hverb : Smooth true "start wave ".toList true := smooth_verb (by simp [verbs])
    have hwith : Spacer " with teams ".toList := spacer_gap (by simp [gaps])
    exact hverb.append ((wave.smooth true).spaced hwith (teams.smooth true)) (.inl rfl)
  | assignTeams teams tasks priority =>
    have hverb : Smooth true "assign teams ".toList true := smooth_verb (by simp [verbs])
    have hto : Spacer " to tasks ".toList := spacer_gap (by simp [gaps])
    have hwith : Spacer " with ".toList := spacer_gap (by simp [gaps])
    have htasks := (tasks.smooth true).spaced hwith (smooth_priority priority)
    exact hverb.append ((teams.smooth true).spaced hto htasks) (.inl rfl)
  | reassignTask task team priority =>
    have hverb : Smooth true "reassign task ".toList true := smooth_verb (by simp [verbs])
    have hto : Spacer " to team ".toList := spacer_gap (by simp [gaps])
    have hwith : Spacer " with ".toList := spacer_gap (by simp [gaps])
    have hteam := (team.smooth true).spaced hwith (smooth_priority priority)
    exact hverb.append ((task.smooth true).spaced hto hteam) (.inl rfl)
  | blockUntil blocked blocking condition =>
    have hverb : Smooth true "block team ".toList true := smooth_verb (by simp [verbs])
    have hon : Spacer " on team ".toList := spacer_gap (by simp [gaps])
    have huntil : Spacer " until ".toList := spacer_gap (by simp [gaps])
    have hblocking := (blocking.smooth true).spaced huntil (condition.smooth true)
    exact hverb.append ((blocked.smooth true).spaced hon hblocking) (.inl rfl)
  | blockWhen blocked blocking condition =>
    have hverb : Smooth true "block team ".toList true := smooth_verb (by simp [verbs])
    have hon : Spacer " on team ".toList := spacer_gap (by simp [gaps])
    have hwhen : Spacer " when ".toList := spacer_gap (by simp [gaps])
    have hblocking := (blocking.smooth true).spaced hwhen (condition.smooth true)
    exact hverb.append ((blocked.smooth true).spaced hon hblocking) (.inl rfl)
  | syncTeams teams condition =>
    have hverb : Smooth true "sync teams ".toList true := smooth_verb (by simp [verbs])
    have hon : Spacer " on ".toList := spacer_gap (by simp [gaps])
    exact hverb.append ((teams.smooth true).spaced hon (condition.smooth true)) (.inl rfl)
  | balanceLoad teams strategy bound =>
    have hverb : Smooth true "balance load across teams ".toList true :=
      smooth_verb (by simp [verbs])
    have husing : Spacer " using ".toList := spacer_gap (by simp [gaps])
    have hmax : Spacer " max ".toList := spacer_gap (by simp [gaps])
    have hend : Smooth false " tasks per team".toList false := smooth_of_looksSmooth (by decide)
    have hbound := ((numeralWord bound.toNat).smooth true).append hend (.inr rfl)
    have hstrategy := (smooth_strategy strategy).spaced hmax hbound
    exact hverb.append ((teams.smooth true).spaced husing hstrategy) (.inl rfl)

end Sentence

end TeamOrders
