import TeamOrders.Proofs.Comment.Junction
import TeamOrders.Proofs.Comment.Separators
import TeamOrders.Proofs.Reading.Parts
import TeamOrders.Proofs.Table
import TeamOrders.Proofs.Text.OneLine

/-!
# Normal forms are on one line

Every row of white space becomes a blank, so a normal form holds no line break, whatever the comment
holds. The vocabulary puts nothing into it but what the words mean. So no segment holds a line break.
-/

namespace TeamOrders

open Text

variable {settings : Settings} {s : List Char}

namespace Comment

theorem not_mem_squeeze (within : Bool) (s : List Char) : '\n' ∉ squeeze within s := by
  induction s generalizing within with
  | nil => exact List.not_mem_nil
  | cons c s ih =>
    cases hc : isBlank c with
    | false =>
      have hne : '\n' ≠ c := by
        rintro rfl
        exact absurd hc (by decide)
      rw [squeeze_of_not_blank within hc, List.mem_cons, not_or]
      exact ⟨hne, ih false⟩
    | true =>
      cases within with
      | true =>
        rw [squeeze_true_of_blank hc]
        exact ih true
      | false =>
        rw [squeeze_false_of_blank hc, List.mem_cons, not_or]
        exact ⟨by decide, ih true⟩

theorem not_mem_substitute_markedWord {word new : String} {mark : Char} (hnew : OneLine new)
    (h : '\n' ∉ s) : '\n' ∉ substitute (markedWord word mark new) s := fun hmem =>
  forall_mem_substitute_markedWord (P := (· ≠ '\n')) (fun _ hc heq => hnew (heq ▸ hc))
    (fun _ hc heq => h (heq ▸ hc)) _ hmem rfl

theorem not_mem_fold (s : List Char) : '\n' ∉ fold s :=
  not_mem_lower (not_mem_substitute_markedWord (by decide)
    (not_mem_substitute_markedWord (by decide) (not_mem_squeeze false _)))

theorem exists_entry_of_mem {words : Table String} {entry : List Char × List Char}
    (h : entry ∈ (Vocabulary.ofTable words).entries) :
    ∃ given ∈ words.entries, entry = (lower given.1.toList, lower given.2.toList) := by
  obtain ⟨small, hsmall, rfl⟩ := List.mem_map.mp h
  have hmem := Table.mem_of_mem_ofList ((List.mergeSort_perm _ _).subset hsmall)
  obtain ⟨given, hgiven, rfl⟩ := List.mem_map.mp hmem
  exact ⟨given, hgiven, by simp only [String.toList_ofList]⟩

theorem Vocabulary.exists_entry_of_hit {vocabulary : Vocabulary} {before : Option Char}
    {rest : List Char} {n : Nat} {put : List Char} (h : vocabulary.hit before rest = some (n, put)) :
    ∃ entry ∈ vocabulary.entries, entry.1 <+: rest ∧ n = entry.1.length ∧ put = entry.2 := by
  unfold Vocabulary.hit at h
  split at h
  · obtain ⟨entry, hfind, hput⟩ := Option.map_eq_some_iff.mp h
    obtain ⟨rfl, rfl⟩ := Prod.mk.inj hput
    have hfits := List.find?_some hfind
    rw [Bool.and_eq_true, List.isPrefixOf_iff_prefix] at hfits
    exact ⟨entry, List.mem_of_find?_eq_some hfind, hfits.1, rfl, rfl⟩
  · cases h

theorem not_mem_normalize (h : ∀ entry ∈ settings.vocabulary.entries, OneLine entry.2)
    (s : List Char) : '\n' ∉ normalize settings.words s := by
  unfold normalize Vocabulary.apply
  split
  · exact not_mem_fold s
  · have hall : ∀ c ∈ substitute settings.words.hit (fold s), c ≠ '\n' := by
      refine forall_mem_substitute (fun c hc heq => not_mem_fold s (heq ▸ hc)) ?_
      intro before rest n put hhit c hc heq
      obtain ⟨entry, hentry, -, -, rfl⟩ := Vocabulary.exists_entry_of_hit hhit
      obtain ⟨given, hgiven, rfl⟩ := exists_entry_of_mem hentry
      exact not_mem_lower (h given hgiven) (heq ▸ hc)
    exact fun hmem => hall _ hmem rfl

theorem mem_of_mem_segments {segment : List Char} (h : segment ∈ segments s) :
    ∀ c ∈ segment, c ∈ s := by
  obtain ⟨piece, hpiece, rfl⟩ := List.mem_map.mp (List.mem_filter.mp h).1
  exact fun c hc => (cuts_cut solid_separator s).mem_of_mem hpiece c ((trimBy_isInfix _ piece).subset hc)

end Comment

theorem Reading.not_mem_of_mem_segmentsOf (h : ∀ entry ∈ settings.vocabulary.entries, OneLine entry.2)
    {comment : String} {segment : List Char} (hsegment : segment ∈ segmentsOf settings comment) :
    '\n' ∉ segment := fun hmem =>
  Comment.not_mem_normalize h comment.toList (Comment.mem_of_mem_segments hsegment _ hmem)

end TeamOrders
