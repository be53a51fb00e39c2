import TeamOrders.Proofs.Reading.Instruction
import TeamOrders.Proofs.Sentence.Tails
import TeamOrders.Proofs.Sentence.Understood

/-!
# The condition of a block is the rest of the sentence

A block of one team on another is read as one command whatever tail it has, and what the tail states
is the condition. Only where a word such as `until` is all that follows, it is not taken off: the
grammar wants a blank and more behind it, so what introduces a condition is taken for the condition
itself.
-/

namespace TeamOrders

open Pattern Phrase Text Comment

/-! ### Sentences about a block -/

/-- A block of one team on another, with what stands behind the teams. -/
structure BlockSentence where
  blocked : TeamWord
  blocking : TeamWord
  tail : Tail

namespace BlockSentence

variable (sentence : BlockSentence)

def head : List Char :=
  "block team ".toList ++ (sentence.blocked.chars
    ++ (" on team ".toList ++ sentence.blocking.chars))

def chars : List Char := sentence.head ++ sentence.tail.clause

def text : String := String.ofList sentence.chars

theorem smooth_head : Smooth true sentence.head false := by
  have hverb : Smooth true "block team ".toList true :=
    Sentence.smooth_verb (by simp [Sentence.verbs])
  have hon : Spacer " on team ".toList := Sentence.spacer_gap (by simp [Sentence.gaps])
  exact hverb.append ((sentence.blocked.toPlainWord.smooth true).spaced hon
    (sentence.blocking.toPlainWord.smooth true)) (.inl rfl)

theorem fold_chars : fold sentence.chars = sentence.chars := by
  have hhead : fold sentence.head = sentence.head := fold_eq_self sentence.smooth_head
  unfold chars Tail.clause
  split
  · rw [List.append_nil, hhead]
  · rename_i hne
    rw [fold_append_blank sentence.smooth_head.isTrimmed sentence.smooth_head.ne_nil
      sentence.tail.isTrimmed hne, hhead, sentence.tail.fold_eq]

theorem trim_chars_ne_nil : trim sentence.chars ≠ [] := by
  rw [trim_eq_self (isTrimmed_of_fold_eq sentence.fold_chars)]
  exact List.append_ne_nil_of_left_ne_nil sentence.smooth_head.ne_nil _

theorem not_holdsWord_and : ¬ HoldsWord "and".toList sentence.head := by
  have hword : ∀ c ∈ "and".toList, isWord c = true := List.all_eq_true.mp rfl
  have hname : ∀ name : TeamWord, ¬ HoldsWord "and".toList name.chars := fun name h =>
    name.free (eq_of_holdsWord name.isWord h ▸ by decide)
  intro h
  rcases holdsWord_append hword (.inl rfl) h with h | h
  · exact absurd h (by decide)
  rcases holdsWord_append hword (.inr rfl) h with h | h
  · exact hname _ h
  rcases holdsWord_append hword (.inl rfl) h with h | h
  · exact absurd h (by decide)
  · exact hname _ h

theorem unseparated_chars : Unseparated sentence.chars := by
  have hhead : Unseparated sentence.head :=
    fun before rest => separator_eq_none sentence.smooth_head
  unfold chars Tail.clause
  split
  · rwa [List.append_nil]
  · refine unseparated_append_blank hhead sentence.smooth_head.isTrimmed.2 ?_
      sentence.tail.unseparated
    intro before front hsplit hspelt
    by_contra hends
    rw [Bool.not_eq_true] at hends
    have hchars : ∀ c ∈ front, c ∈ sentenceChars := fun c hc =>
      sentence.smooth_head.chars c (hsplit ▸ List.mem_append_right before hc)
    obtain rfl := eq_of_spells hspelt hchars
    exact sentence.not_holdsWord_and ⟨before, [], by simpa using hsplit, hends, rfl⟩

theorem normalize_text :
    Comment.normalize Settings.default.words sentence.text.toList = sentence.chars := by
  rw [normalize_of_no_words rfl, text, String.toList_ofList, sentence.fold_chars]

theorem segmentsOf_text : Reading.segmentsOf .default sentence.text = [sentence.chars] := by
  rw [Reading.segmentsOf_eq, sentence.normalize_text,
    segments_of_unseparated sentence.unseparated_chars sentence.trim_chars_ne_nil,
    trim_eq_self (isTrimmed_of_fold_eq sentence.fold_chars)]

/-! ### What is read -/

def relation : BlockingRelation where
  blocked := sentence.blocked.team
  blocking := sentence.blocking.team
  condition := sentence.tail.readCondition
  until? := sentence.tail.until?

def found (filled : List (Slot × List Char)) : Match :=
  ⟨(.blockedTeams, "team".toList ++ ' ' :: sentence.blocked.chars)
    :: (.blockingTeams, "team".toList ++ ' ' :: sentence.blocking.chars) :: filled⟩

variable {filled : List (Slot × List Char)}

theorem teamsIn_blocked :
    Meaning.teamsIn (sentence.found filled) .blockedTeams = [sentence.blocked.team] :=
  sentence.blocked.teamsIn_eq (sentence.blocked.toPlainWord.smooth_introduced.get?_self _ _)

theorem teamsIn_blocking :
    Meaning.teamsIn (sentence.found filled) .blockingTeams = [sentence.blocking.team] := by
  apply sentence.blocking.teamsIn_eq
  rw [found, get?_cons_of_ne (by decide)]
  exact sentence.blocking.toPlainWord.smooth_introduced.get?_self _ _

theorem get?_found {role : Slot} (hblocked : .blockedTeams ≠ role)
    (hblocking : .blockingTeams ≠ role) :
    (sentence.found filled).get? role = (⟨filled⟩ : Match).get? role := by
  rw [found, get?_cons_of_ne hblocked, get?_cons_of_ne hblocking]

theorem match?_chars {slots : List (Slot × Span)}
    (h : Takes conditionClause sentence.tail.clause slots []) :
    teamBlock.match? sentence.chars
      = some (sentence.found (slots.map fun (role, span) => (role, span.text))) := by
  have hmatch := match?_teamBlock sentence.blocked.toPlainWord sentence.blocking.toPlainWord h
    sentence.tail.endsList_clause
  have htext : sentence.chars = "block team ".toList ++ (sentence.blocked.toPlainWord.chars
      ++ (" on team ".toList ++ (sentence.blocking.toPlainWord.chars
        ++ sentence.tail.clause))) := by
    unfold chars head
    simp only [List.append_assoc]
    rfl
  rw [htext, hmatch]
  rfl

theorem smooth_of_mem_conditionWords {word : List Char} (h : word ∈ conditionWords) :
    Smooth true word false := by
  have hwords : ∀ word ∈ conditionWords, looksSmooth true word false = true := by decide
  exact smooth_of_looksSmooth (hwords word h)

/-- Some match of the sentence means the relation. -/
def Means : Prop :=
  ∃ m, teamBlock.match? sentence.chars = some m ∧
    Meaning.blockingRelation m = some ⟨.blockTeam sentence.relation, []⟩

theorem means_of_nothing (h : sentence.tail.chars = []) : sentence.Means := by
  have hclause : sentence.tail.clause = [] := if_pos h
  have htakes : Takes conditionClause sentence.tail.clause [] [] := by
    rw [hclause]
    exact takes_optional_of_fails rfl
  have hrelation : sentence.relation
      = ⟨sentence.blocked.team, sentence.blocking.team, "completion", none⟩ := by
    obtain ⟨hcondition, huntil⟩ := sentence.tail.condition_of_nil h
    rw [relation, sentence.tail.readCondition_of_not_mem (by rw [h]; decide), hcondition, huntil]
  refine ⟨_, sentence.match?_chars htakes, ?_⟩
  have hcondition : (sentence.found []).get? .condition = none := by
    rw [get?_found _ (by decide) (by decide)]
    rfl
  rw [List.map_nil, Meaning.blockingRelation_of_teams sentence.teamsIn_blocked sentence.teamsIn_blocking,
    Meaning.conditionIn_of_get?_eq_none hcondition, hrelation, ite_self]
  rfl

/-- Without a word that is taken off, the whole of the tail is the condition. -/
theorem means_of_whole (hne : sentence.tail.chars ≠ [])
    (h : ∀ word ∈ conditionWords, ∀ rest, sentence.tail.chars ≠ word ++ ' ' :: rest)
    (hrelation : sentence.relation = ⟨sentence.blocked.team, sentence.blocking.team,
      String.ofList sentence.tail.chars, none⟩) : sentence.Means := by
  have htakes : Takes conditionClause sentence.tail.clause
      [(.condition, ⟨sentence.tail.chars, []⟩)] [] := by
    rw [Tail.clause, if_neg hne]
    exact sentence.tail.takes_conditionClause_whole hne h
  refine ⟨_, sentence.match?_chars htakes, ?_⟩
  simp only [List.map_cons, List.map_nil, Span.text_nil]
  have hcondition : (sentence.found [(.condition, sentence.tail.chars)]).get? .condition
      = some sentence.tail.chars := by
    rw [get?_found _ (by decide) (by decide), get?_cons_self sentence.tail.isTrimmed hne]
  have hconnector : (sentence.found [(.condition, sentence.tail.chars)]).get? .connector
      = none := by
    rw [get?_found _ (by decide) (by decide), get?_cons_of_ne (by decide)]
    rfl
  rw [Meaning.blockingRelation_of_condition sentence.teamsIn_blocked sentence.teamsIn_blocking
    hcondition hne (unquote_eq_self sentence.tail.isTrimmed sentence.tail.unquoted), hconnector,
    hrelation, if_neg (by simp)]

/-- A word that introduces a condition is taken off, and the rest of the tail is the condition. -/
theorem means_of_introduced {rest : List Char} (h : sentence.tail.first ∈ conditionWords)
    (heq : sentence.tail.chars = sentence.tail.first ++ ' ' :: rest) (hne : rest ≠ [])
    (htrimmed : IsTrimmed rest) : sentence.Means := by
  obtain ⟨hcondition, huntil⟩ := sentence.tail.condition_of_mem h heq hne
  have hread := sentence.tail.readCondition_of_not_mem (sentence.tail.not_mem_conditionWords heq)
  have hsubset : ∀ c ∈ rest, c ∈ sentence.tail.chars := fun c hc =>
    heq ▸ List.mem_append_right _ (List.mem_cons_of_mem ' ' hc)
  have hclause : sentence.tail.clause = ' ' :: (sentence.tail.first ++ ' ' :: rest) := by
    rw [Tail.clause, heq, if_neg (by simp)]
  generalize sentence.tail.first = word at h huntil hclause
  have htakes : Takes conditionClause sentence.tail.clause
      [(.connector, ⟨word ++ ' ' :: rest, ' ' :: rest⟩), (.condition, ⟨rest, []⟩)] [] := by
    rw [hclause]
    exact takes_conditionClause h hne htrimmed.1 fun hmem =>
      sentence.tail.not_mem_newline (hsubset _ hmem)
  refine ⟨_, sentence.match?_chars htakes, ?_⟩
  simp only [List.map_cons, List.map_nil, Span.text_append, Span.text_nil]
  have hgiven : (sentence.found [(.connector, word), (.condition, rest)]).get? .connector
      = some word := by
    rw [get?_found _ (by decide) (by decide), (smooth_of_mem_conditionWords h).get?_self]
  have hstated : (sentence.found [(.connector, word), (.condition, rest)]).get? .condition
      = some rest := by
    rw [get?_found _ (by decide) (by decide), get?_cons_of_ne (by decide),
      get?_cons_self htrimmed hne]
  rw [Meaning.blockingRelation_of_condition sentence.teamsIn_blocked sentence.teamsIn_blocking
    hstated hne (unquote_eq_self htrimmed fun hmem => sentence.tail.unquoted (hsubset _ hmem)),
    hgiven, relation, hread, hcondition, huntil]
  simp only [Option.some.injEq]

theorem means : sentence.Means := by
  have hfirst := sentence.tail.not_mem_first
  rcases eq_or_ne sentence.tail.chars [] with hnil | hne
  · exact sentence.means_of_nothing hnil
  rcases sentence.tail.chars_eq_first_or with hbare | ⟨rest, heq, hrest, htrimmed⟩
  · refine sentence.means_of_whole hne (fun word _ rest heq => hfirst ?_) ?_
    · rw [← hbare, heq]
      simp
    · by_cases hmem : sentence.tail.chars ∈ conditionWords
      · rw [relation, sentence.tail.readCondition_of_mem hmem,
          (sentence.tail.condition_of_bare hbare hmem).2]
      · obtain ⟨hcondition, huntil⟩ := sentence.tail.condition_of_not_mem (hbare ▸ hmem) hne
        rw [relation, sentence.tail.readCondition_of_not_mem hmem, hcondition, huntil]
  · by_cases hmem : sentence.tail.first ∈ conditionWords
    · exact sentence.means_of_introduced hmem heq hrest htrimmed
    · obtain ⟨hcondition, huntil⟩ := sentence.tail.condition_of_not_mem hmem hne
      refine sentence.means_of_whole hne (fun word hword rest heq => hmem ?_) ?_
      · rwa [sentence.tail.first_of_chars_eq (Tail.blank_not_mem_of_mem_conditionWords hword) heq]
      · rw [relation, sentence.tail.readCondition_of_not_mem
          (sentence.tail.not_mem_conditionWords heq), hcondition, huntil]

theorem ofSegment_chars : Candidate.ofSegment sentence.chars
    = [⟨.blockTeam sentence.relation, [], Meaning.baseConfidence .teamBlock⟩] := by
  obtain ⟨m, hmatch, hmeant⟩ := sentence.means
  have hothers : (others [teamBlock.name]).filterMap (·.match? sentence.chars) = [] := by
    unfold chars head
    rw [List.append_assoc]
    exact others_block _
  exact Candidate.ofSegment_eq_singleton (by simp [table]) hothers hmatch hmeant

def command (actor : String) (now : Timestamp) : Command :=
  .new sentence.text actor now (.single (.blockTeam sentence.relation))
    (Meaning.baseConfidence .teamBlock)

theorem readSegment_chars (settings : Settings) (actor : String) (now : Timestamp) :
    readSegment settings actor now sentence.chars = .ok (sentence.command actor now, []) := by
  rw [readSegment_of_ofSegment_eq_singleton sentence.ofSegment_chars, Candidate.toCommand, command,
    text]

theorem readInstruction_text (context : Context) (now : Timestamp) :
    readInstruction .default context now sentence.text
      = .ok (sentence.command context.sender now) := by
  rw [readInstruction_eq (by rw [sentence.normalize_text]; exact sentence.trim_chars_ne_nil),
    sentence.normalize_text, sentence.readSegment_chars]
  rfl

end BlockSentence

/-- A block is read as one command, in a comment and as an instruction alike, whatever its tail is.
The condition is what the tail states, but for a word that introduces nothing. -/
theorem Reading.ofComment_block (sentence : BlockSentence) (context : Context) (now : Timestamp) :
    let command := sentence.command context.sender now
    let reading := Reading.ofComment .default context now sentence.text
    reading.errors = [] ∧ reading.warnings = [] ∧ reading.commands = [command] ∧
      readInstruction .default context now sentence.text = .ok command ∧
      (sentence.relation.condition = sentence.tail.condition ↔
        sentence.tail.chars ∉ conditionWords) := by
  intro command reading
  obtain ⟨hcommands, herrors, hwarnings⟩ := ofComment_of_read sentence.segmentsOf_text
    (sentence.readSegment_chars .default context.sender now)
  exact ⟨herrors, hwarnings, hcommands, sentence.readInstruction_text context now,
    sentence.tail.readCondition_eq_iff⟩

/-- With nothing behind it `until` is the condition, where it should leave the block to last until
completion. -/
theorem readInstruction_block_until_nothing :
    let sentence : BlockSentence := ⟨.ofText "a" (by decide), .ofText "b" (by decide),
      .ofText "until" (by decide +kernel)⟩
    sentence.text = "block team a on team b until" ∧ sentence.tail.condition = "completion" ∧
      (readInstruction .default (Context.new "acme/platform" 1) .epoch sentence.text).map
        (·.payload) = .ok (.single (.blockTeam ⟨"team-a", "team-b", "until", none⟩)) := by
  intro sentence
  refine ⟨by decide, by decide, ?_⟩
  have hrelation : sentence.relation = ⟨"team-a", "team-b", "until", none⟩ := by decide
  rw [sentence.readInstruction_text, ← hrelation]
  rfl

example :
    (Tail.ofText "until until noon" (by decide +kernel)).condition = "until noon" ∧
      (Tail.ofText "until until noon" (by decide +kernel)).until? = some "until noon" ∧
      (Tail.ofText "afterwards" (by decide +kernel)).condition = "afterwards" ∧
      (Tail.ofText "on friday" (by decide +kernel)).until? = none := by
  decide

end TeamOrders
