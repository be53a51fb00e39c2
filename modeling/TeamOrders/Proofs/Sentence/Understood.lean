import TeamOrders.Proofs.Reading.Parts
import TeamOrders.Proofs.Sentence.Meant
import TeamOrders.Proofs.Sentence.Rivals

/-!
# Every order can be said

A sentence is its own normal form and its own only segment, and it is put in one phrase only. So there
is one candidate, nothing to choose and nothing to keep beside it, and the comment is read as the one
command that the sentence means.
-/

namespace TeamOrders

open Phrase

variable {s : List Char}

/-! ### The only candidate -/

def Phrase.others (names : List String) : List Phrase :=
  table.filter fun phrase => phrase.name ∉ names

theorem nodup_names : (table.map (·.name)).Nodup := by decide

theorem Phrase.eq_of_name {phrase other : Phrase} (hphrase : phrase ∈ table) (hother : other ∈ table)
    (h : phrase.name = other.name) : phrase = other :=
  List.inj_on_of_nodup_map nodup_names hphrase hother h

/-- Where one phrase matches and the others do not, its meaning is the only candidate. -/
theorem Candidate.ofSegment_eq_singleton {phrase : Phrase} {m : Match} {meant : Meaning.Meant}
    (hphrase : phrase ∈ table) (hothers : (others [phrase.name]).filterMap (·.match? s) = [])
    (hmatch : phrase.match? s = some m) (hmeant : Meaning.ofMatch? phrase.kind m = some meant) :
    ofSegment s = [⟨meant.order, meant.notes, Meaning.baseConfidence phrase.kind⟩] := by
  obtain ⟨before, after, htable⟩ := List.append_of_mem hphrase
  have hnames := nodup_names
  rw [htable, List.map_append, List.map_cons, List.nodup_middle, List.nodup_cons,
    ← List.map_append] at hnames
  have hnone : ∀ rival ∈ before ++ after, rival.match? s = none := by
    intro rival hrival
    refine List.filterMap_eq_nil_iff.mp hothers rival (List.mem_filter.mpr ⟨?_, ?_⟩)
    · rw [htable]
      exact (List.perm_middle.mem_iff).mpr (List.mem_cons_of_mem phrase hrival)
    · have hname : rival.name ≠ phrase.name := by
        intro heq
        exact hnames.1 (List.mem_map.mpr ⟨rival, hrival, heq⟩)
      simpa using hname
  have hcandidates : ∀ phrases : List Phrase, (∀ rival ∈ phrases, rival.match? s = none) →
      phrases.filterMap (fun phrase =>
        ((phrase.match? s).bind (Meaning.ofMatch? phrase.kind)).map fun meant =>
          (⟨meant.order, meant.notes, Meaning.baseConfidence phrase.kind⟩ : Candidate)) = [] := by
    intro phrases hphrases
    rw [List.filterMap_eq_nil_iff]
    intro rival hrival
    rw [hphrases rival hrival]
    rfl
  rw [ofSegment, htable, List.filterMap_append, List.filterMap_cons,
    hcandidates before fun rival hrival => hnone rival (List.mem_append_left after hrival),
    hcandidates after fun rival hrival => hnone rival (List.mem_append_right before hrival),
    hmatch, Option.bind_some, hmeant]
  rfl

theorem filterMap_others {phrase rival : Phrase} (hrival : rival ∈ table)
    (hnone : rival.match? s = none)
    (h : (others [phrase.name, rival.name]).filterMap (·.match? s) = []) :
    (others [phrase.name]).filterMap (·.match? s) = [] := by
  rw [List.filterMap_eq_nil_iff] at h ⊢
  intro other hother
  obtain ⟨hmem, hname⟩ := List.mem_filter.mp hother
  by_cases heq : other.name = rival.name
  · rw [Phrase.eq_of_name hmem hrival heq]
    exact hnone
  · refine h other (List.mem_filter.mpr ⟨hmem, ?_⟩)
    simpa [heq] using hname

theorem others_start (rest : List Char) :
    (others [waveStart.name]).filterMap (·.match? ("start wave ".toList ++ rest)) = [] := by
  cbv

theorem others_assign (rest : List Char) :
    (others [teamAssign.name, teamAssignInverse.name]).filterMap
      (·.match? ("assign teams ".toList ++ rest)) = [] := by
  cbv

theorem others_reassign (rest : List Char) :
    (others [taskReassign.name]).filterMap (·.match? ("reassign task ".toList ++ rest)) = [] := by
  cbv

theorem others_block (rest : List Char) :
    (others [teamBlock.name]).filterMap (·.match? ("block team ".toList ++ rest)) = [] := by
  cbv

theorem others_sync (rest : List Char) :
    (others [teamSync.name, teamSyncBare.name]).filterMap
      (·.match? ("sync teams ".toList ++ rest)) = [] := by
  cbv

theorem others_balance (rest : List Char) :
    (others [loadBalance.name]).filterMap
      (·.match? ("balance load across teams ".toList ++ rest)) = [] := by
  cbv

namespace Sentence

theorem ofSegment_chars (sentence : Sentence) : Candidate.ofSegment sentence.chars
    = [⟨sentence.order, [], Meaning.baseConfidence sentence.order.kind⟩] := by
  cases sentence with
  | startWave wave =>
    exact Candidate.ofSegment_eq_singleton (by simp [table]) (others_start _) (match?_startWave wave)
      (Meaning.waveStart_alone wave)
  | startWaveWith wave teams =>
    exact Candidate.ofSegment_eq_singleton (by simp [table]) (others_start _)
      (match?_startWaveWith wave teams) (Meaning.waveStart_with wave teams)
  | assignTeams teams tasks priority =>
    have hinverse := match?_teamAssignInverse teams
      (tasks.chars ++ (" with ".toList ++ (priority.name.toList ++ " priority".toList)))
    have hothers := filterMap_others (by simp [table]) hinverse (others_assign _)
    exact Candidate.ofSegment_eq_singleton (by simp [table]) hothers
      (match?_assignTeams teams tasks priority) (Meaning.teamAssignment_lists teams tasks priority)
  | reassignTask task team priority =>
    exact Candidate.ofSegment_eq_singleton (by simp [table]) (others_reassign _)
      (match?_reassignTask task team priority) (Meaning.taskAssignment_names task team priority)
  | blockUntil blocked blocking condition =>
    exact Candidate.ofSegment_eq_singleton (by simp [table]) (others_block _)
      (match?_block (.inl rfl) blocked blocking condition)
      (Meaning.blockingRelation_names (.inl rfl) blocked blocking condition)
  | blockWhen blocked blocking condition =>
    exact Candidate.ofSegment_eq_singleton (by simp [table]) (others_block _)
      (match?_block (.inr rfl) blocked blocking condition)
      (Meaning.blockingRelation_names (.inr rfl) blocked blocking condition)
  | syncTeams teams condition =>
    have hothers := filterMap_others (by simp [table]) (match?_teamSyncBare teams condition.chars)
      (others_sync _)
    exact Candidate.ofSegment_eq_singleton (by simp [table]) hothers (match?_syncTeams teams condition)
      (Meaning.syncPoint_list teams condition)
  | balanceLoad teams strategy bound =>
    exact Candidate.ofSegment_eq_singleton (by simp [table]) (others_balance _)
      (match?_balanceLoad teams strategy bound.toNat)
      (Meaning.balanceRequest_list teams strategy bound)

theorem ofList_chars (sentence : Sentence) : String.ofList sentence.chars = sentence.text := by
  rw [← sentence.toList_text, String.ofList_toList]

def command (sentence : Sentence) (actor : String) (now : Timestamp) : Command :=
  .new sentence.text actor now (.single sentence.order) (Meaning.baseConfidence sentence.order.kind)

theorem readSegment_chars (settings : Settings) (actor : String) (now : Timestamp)
    (sentence : Sentence) :
    readSegment settings actor now sentence.chars = .ok (sentence.command actor now, []) := by
  rw [readSegment_of_ofSegment_eq_singleton sentence.ofSegment_chars, ofList_chars]
  rfl

theorem segmentsOf_text {settings : Settings} (plain : settings.vocabulary = .empty)
    (sentence : Sentence) : Reading.segmentsOf settings sentence.text = [sentence.chars] := by
  rw [Reading.segmentsOf_eq, Comment.normalize_of_no_words plain, sentence.toList_text,
    fold_eq_self sentence.smooth, segments_eq_self sentence.smooth]

end Sentence

/-- A comment that is a sentence is read without complaint as the one command that is meant by it. -/
theorem Reading.ofComment_sentence (sentence : Sentence) (context : Context) (now : Timestamp) :
    let reading := Reading.ofComment .default context now sentence.text
    reading.errors = [] ∧ reading.warnings = [] ∧
      reading.commands = [sentence.command context.sender now] := by
  intro reading
  have hsegments : segmentsOf .default sentence.text = [sentence.chars] :=
    sentence.segmentsOf_text rfl
  have hparts : parts .default context now sentence.text
      = [⟨some (sentence.command context.sender now), none, []⟩] := by
    rw [parts, hsegments, List.map_singleton,
      Part.ofSegment_ok (sentence.readSegment_chars .default context.sender now)]
  have hreading : reading = ofParts context.sender now
      [⟨some (sentence.command context.sender now), none, []⟩] := by
    rw [← hparts]
    exact ofComment_of_segments (by rw [hsegments]; exact List.cons_ne_nil _ _)
  rw [hreading]
  exact ⟨rfl, rfl, rfl⟩

example :
    let wave := CleanName.ofText "to" (by decide)
    let first := CleanName.ofText "using" (by decide)
    let second := CleanName.ofText "on_then" (by decide)
    let sentence := Sentence.startWaveWith wave ⟨[first, second], by decide, by decide⟩
    sentence.text = "start wave to with teams using, on_then" ∧
      sentence.order.summary = "start wave to with team-using, team-on_then" := by
  decide

end TeamOrders
