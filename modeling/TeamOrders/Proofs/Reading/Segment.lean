import TeamOrders.Reading.Segment

/-!
# What a segment is read as

The rest of the theory reaches the reading of a segment through this module only. A segment is read
exactly when it has a candidate; what comes out is then one order, under the kind of that order, and
so are the alternatives. Otherwise the only complaint is that nothing matches.
-/

namespace TeamOrders

namespace Candidate

theorem choose_eq_none_iff {candidates : List Candidate} :
    choose candidates = none ↔ candidates = [] := by
  cases candidates with
  | nil => simp [choose]
  | cons first rest =>
    simp only [choose, reduceCtorEq, iff_false]
    split
    · simp
    · split <;> simp

theorem perm_of_choose {candidates others : List Candidate} {best : Candidate}
    (h : choose candidates = some (best, others)) : (best :: others).Perm candidates := by
  induction candidates generalizing best others with
  | nil => simp [choose] at h
  | cons first rest ih =>
    simp only [choose] at h
    split at h
    · rename_i hnone
      obtain ⟨rfl, rfl⟩ := h
      rw [choose_eq_none_iff.mp hnone]
    · rename_i hsome
      split at h
      · obtain ⟨rfl, rfl⟩ := h
        exact (List.Perm.swap _ _ _).trans ((ih hsome).cons _)
      · obtain ⟨rfl, rfl⟩ := h
        exact List.Perm.refl _

/-- A candidate is what a phrase of the table means that the segment is put in. -/
theorem exists_meant_of_mem_ofSegment {segment : List Char} {candidate : Candidate}
    (h : candidate ∈ ofSegment segment) :
    ∃ phrase ∈ Phrase.table, ∃ m meant, phrase.match? segment = some m ∧
      Meaning.ofMatch? phrase.kind m = some meant ∧
      candidate = ⟨meant.order, meant.notes, Meaning.baseConfidence phrase.kind⟩ := by
  obtain ⟨phrase, hphrase, hcandidate⟩ := List.mem_filterMap.mp h
  obtain ⟨meant, hmeant, rfl⟩ := Option.map_eq_some_iff.mp hcandidate
  obtain ⟨m, hmatch, hofMatch⟩ := Option.bind_eq_some_iff.mp hmeant
  exact ⟨phrase, hphrase, m, meant, hmatch, hofMatch, rfl⟩

theorem alternatives_nil (settings : Settings) (chosen : Candidate) :
    alternatives settings chosen [] = [] := by
  simp [alternatives, withNewOrders]

end Candidate

variable {settings : Settings} {actor : String} {now : Timestamp} {segment : List Char}

/-- Settings are usable if their threshold lies between zero and one and no word or meaning is blank. -/
theorem Settings.check_eq_ok_iff : settings.check = .ok () ↔
    (Double.zero.atMost settings.threshold = true ∧ settings.threshold.atMost .one = true) ∧
    ∀ entry ∈ settings.vocabulary.entries,
      Text.isBlankText entry.1 = false ∧ Text.isBlankText entry.2 = false := by
  rw [← Bool.and_eq_true, check]
  cases Double.zero.atMost settings.threshold && settings.threshold.atMost .one with
  | false => simp
  | true =>
    simp only [Bool.not_true, Bool.false_eq_true, if_false, true_and]
    split
    · rename_i word meaning hfind
      have hblank := List.find?_some hfind
      refine iff_of_false nofun fun hsaid => ?_
      obtain ⟨hword, hmeaning⟩ := hsaid _ (List.mem_of_find?_eq_some hfind)
      simp [hword, hmeaning] at hblank
    · rename_i hfind
      exact iff_of_true rfl (by simpa [List.find?_eq_none] using hfind)

theorem Settings.check_default : Settings.default.check = .ok () :=
  check_eq_ok_iff.mpr ⟨by decide +kernel, fun _ hentry => absurd hentry List.not_mem_nil⟩

/-- A command that has been read is the chosen candidate, with the kept ones beside it. -/
theorem readSegment_eq_ok_iff {command : Command} {notes : List String} :
    readSegment settings actor now segment = .ok (command, notes) ↔
      ∃ chosen others,
        Candidate.choose (Candidate.ofSegment segment) = some (chosen, others) ∧
        command = { chosen.toCommand (String.ofList segment) actor now with
          alternatives := (Candidate.alternatives settings chosen others).map
            (Candidate.toCommand (String.ofList segment) actor now) } ∧
        notes = chosen.notes := by
  unfold readSegment
  cases hchoose : Candidate.choose (Candidate.ofSegment segment) with
  | none => simp
  | some choice =>
    obtain ⟨chosen, others⟩ := choice
    simp only [Except.ok.injEq, Prod.mk.injEq, Option.some.injEq]
    constructor
    · rintro ⟨rfl, rfl⟩
      exact ⟨chosen, others, ⟨rfl, rfl⟩, rfl, rfl⟩
    · rintro ⟨_, _, ⟨rfl, rfl⟩, rfl, rfl⟩
      exact ⟨rfl, rfl⟩

theorem readSegment_of_ofSegment_eq_singleton {candidate : Candidate}
    (h : Candidate.ofSegment segment = [candidate]) (settings : Settings) (actor : String)
    (now : Timestamp) : readSegment settings actor now segment
      = .ok (candidate.toCommand (String.ofList segment) actor now, candidate.notes) := by
  refine readSegment_eq_ok_iff.mpr ⟨candidate, [], by rw [h]; rfl, ?_, rfl⟩
  rw [Candidate.alternatives_nil]
  rfl

theorem readSegment_eq_error_iff {e : ReadingError} :
    readSegment settings actor now segment = .error e ↔
      Candidate.ofSegment segment = [] ∧
      e = .noMatch (String.ofList segment) (Help.hints settings.nearMisses segment) := by
  unfold readSegment
  cases hchoose : Candidate.choose (Candidate.ofSegment segment) with
  | none => simp [Candidate.choose_eq_none_iff.mp hchoose, eq_comm]
  | some choice =>
    have hne : Candidate.ofSegment segment ≠ [] := by
      intro hnil
      rw [hnil] at hchoose
      simp [Candidate.choose] at hchoose
    simp [hne]

theorem exists_meant_of_readSegment {command : Command} {notes : List String}
    (h : readSegment settings actor now segment = .ok (command, notes)) :
    ∃ phrase ∈ Phrase.table, ∃ m meant, phrase.match? segment = some m ∧
      Meaning.ofMatch? phrase.kind m = some meant ∧ command.payload = .single meant.order ∧
      command.kind = meant.order.kind ∧ notes = meant.notes := by
  obtain ⟨chosen, others, hchoose, rfl, rfl⟩ := readSegment_eq_ok_iff.mp h
  have hmem := (Candidate.perm_of_choose hchoose).subset List.mem_cons_self
  obtain ⟨phrase, hphrase, m, meant, hmatch, hmeant, rfl⟩ :=
    Candidate.exists_meant_of_mem_ofSegment hmem
  exact ⟨phrase, hphrase, m, meant, hmatch, hmeant, rfl, rfl, rfl⟩

theorem readSegment_single {command : Command} {notes : List String}
    (h : readSegment settings actor now segment = .ok (command, notes)) :
    ∃ order, command.payload = .single order ∧ command.kind = order.kind := by
  obtain ⟨chosen, others, -, rfl, -⟩ := readSegment_eq_ok_iff.mp h
  exact ⟨chosen.order, rfl, rfl⟩

end TeamOrders
