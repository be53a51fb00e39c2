import Mathlib.Data.List.Find
import TeamOrders.Proofs.Comment.Canonical
import TeamOrders.Proofs.Comment.Edges

/-!
# Words of the vocabulary in running text

A vocabulary whose words hold no white space looks at one word of a text at a time: no match goes over a
blank, and a blank is no word character, so words stand before and behind it as at the ends of a text. A word
is found between two word boundaries only. Where it stands alone there are such boundaries exactly if it
begins and ends with word characters.
-/

namespace TeamOrders.Comment

open Text

variable {vocabulary : Vocabulary} {before : Option Char} {s word meaning : List Char}

/-! ### Word by word -/

def spaced (texts : List (List Char)) : List Char := [' '].intercalate texts

theorem spaced_cons_cons (first second : List Char) (rest : List (List Char)) :
    spaced (first :: second :: rest) = first ++ ([' '] ++ spaced (second :: rest)) := by
  rw [spaced, List.intercalate_cons_cons, List.append_assoc]
  rfl

theorem prefix_append_blank_iff (h : ' ' ∉ word) (s t : List Char) :
    word <+: s ++ ' ' :: t ↔ word <+: s := by
  refine ⟨fun hstarts => ?_, fun hstarts => hstarts.trans (List.prefix_append s _)⟩
  rcases List.prefix_or_prefix_of_prefix hstarts (List.prefix_append s _) with hword | ⟨rest, rfl⟩
  · exact hword
  · have hrest : rest <+: ' ' :: t := (List.prefix_append_right_inj s).mp hstarts
    cases rest with
    | nil => simp
    | cons c rest =>
      obtain ⟨rfl, -⟩ := List.cons_prefix_cons.mp hrest
      exact absurd (List.mem_append_right s List.mem_cons_self) h

theorem startsInWord_append_blank (s t : List Char) :
    startsInWord (s ++ ' ' :: t) = startsInWord s := by
  refine startsInWord_append s fun c hc => ?_
  obtain rfl : ' ' = c := Option.some.inj hc
  decide

theorem hit_append_blank (hwords : ∀ entry ∈ vocabulary.entries, ' ' ∉ entry.1) (s t : List Char) :
    vocabulary.hit before (s ++ ' ' :: t) = vocabulary.hit before s := by
  have hfind : ∀ entry ∈ vocabulary.entries,
      (entry.1.isPrefixOf (s ++ ' ' :: t) &&
        isBoundary (entry.1.getLast?.or before) ((s ++ ' ' :: t).drop entry.1.length)) =
      (entry.1.isPrefixOf s && isBoundary (entry.1.getLast?.or before) (s.drop entry.1.length)) := by
    intro entry hentry
    have hsame : entry.1.isPrefixOf (s ++ ' ' :: t) = entry.1.isPrefixOf s := by
      rw [Bool.eq_iff_iff, List.isPrefixOf_iff_prefix, List.isPrefixOf_iff_prefix,
        prefix_append_blank_iff (hwords entry hentry)]
    rw [hsame]
    cases hstarts : entry.1.isPrefixOf s with
    | false => rfl
    | true =>
      have hle := (List.isPrefixOf_iff_prefix.mp hstarts).length_le
      rw [List.drop_append_of_le_length hle, isBoundary, isBoundary, startsInWord_append_blank]
  have hboundary : isBoundary before (s ++ ' ' :: t) = isBoundary before s := by
    rw [isBoundary, isBoundary, startsInWord_append_blank]
  rw [Vocabulary.hit, Vocabulary.hit, hboundary, List.find?_congr hfind]

theorem hit_behind_blank (s : List Char) : vocabulary.hit (some ' ') s = vocabulary.hit none s := by
  have hboundary : ∀ (last : Option Char) (t : List Char),
      isBoundary (last.or (some ' ')) t = isBoundary (last.or none) t := by
    intro last t
    have hblank : endsInWord (some ' ') = endsInWord none := by decide
    cases last with
    | none => rw [isBoundary, isBoundary, Option.none_or, Option.none_or, hblank]
    | some c => rfl
  have hstart := hboundary none s
  rw [Option.none_or, Option.none_or] at hstart
  simp only [Vocabulary.hit, hstart, hboundary]

/-- A vocabulary whose words hold no blanks is applied to every word of a text by itself. -/
theorem substitute_hit_spaced (hwords : ∀ entry ∈ vocabulary.entries, entry.1 ≠ [] ∧ ' ' ∉ entry.1)
    (texts : List (List Char)) :
    substitute vocabulary.hit (spaced texts) = spaced (texts.map (substitute vocabulary.hit)) := by
  have solid : Solid vocabulary.hit := hit_solid fun entry hentry => (hwords entry hentry).1
  have happend : ∀ before s t, vocabulary.hit before (s ++ ' ' :: t) = vocabulary.hit before s :=
    fun _ => hit_append_blank fun entry hentry => (hwords entry hentry).2
  have hgap : ∀ c ∈ [' '], ∀ before t, vocabulary.hit before (c :: t) = none := by
    intro c hc before t
    obtain rfl := List.mem_singleton.mp hc
    exact (happend before [] t).trans (solid.hit_nil before)
  induction texts with
  | nil => exact substituteFrom_nil solid 0 false none
  | cons first rest ih =>
    cases rest with
    | nil => simp [spaced]
    | cons second rest =>
      rw [spaced_cons_cons, List.map_cons, List.map_cons, spaced_cons_cons, ← List.map_cons, ← ih]
      exact substitute_append_gap solid (fun t before s _ => happend before s t) hgap
        (List.cons_ne_nil _ _) hit_behind_blank first (spaced (second :: rest))

/-! ### A single word -/

def Vocabulary.single (word meaning : List Char) : Vocabulary := ⟨[(word, meaning)]⟩

/-- Where the word stands alone there are word boundaries around it: it begins and ends with word
characters. -/
def isBounded (word : List Char) : Bool := startsInWord word && endsInWord word.getLast?

theorem hit_single_alone (word meaning : List Char) : (Vocabulary.single word meaning).hit none word =
    if isBounded word then some (word.length, meaning) else none := by
  have hstart : isBoundary none word = startsInWord word := Bool.false_bne _
  have hend : isBoundary word.getLast? [] = endsInWord word.getLast? := Bool.bne_false _
  cases hfirst : startsInWord word <;> cases hlast : endsInWord word.getLast? <;>
    simp [Vocabulary.hit, Vocabulary.single, isBounded, hstart, hend, hfirst, hlast]

theorem hit_single_eq_none (h : ¬ word <+: s) :
    (Vocabulary.single word meaning).hit before s = none := by
  cases hhit : (Vocabulary.single word meaning).hit before s with
  | none => rfl
  | some found =>
    obtain ⟨entry, hentry, hstarts, -, -⟩ := Vocabulary.exists_entry_of_hit hhit
    obtain rfl : entry = (word, meaning) := List.mem_singleton.mp hentry
    exact absurd hstarts h

/-- A word that stands alone is replaced if there are boundaries around it. -/
theorem substitute_single_alone (hne : word ≠ []) :
    substitute (Vocabulary.single word meaning).hit word = if isBounded word then meaning else word := by
  have solid : Solid (Vocabulary.single word meaning).hit := hit_solid fun entry hentry => by
    obtain rfl : entry = (word, meaning) := List.mem_singleton.mp hentry
    exact hne
  have hhit := hit_single_alone word meaning
  obtain ⟨c, rest, rfl⟩ := List.exists_cons_of_ne_nil hne
  split at hhit
  · rename_i hbounded
    have hskip : substituteFrom (Vocabulary.single (c :: rest) meaning).hit (c :: rest).length true none
        ((c :: rest) ++ []) = _ := substituteFrom_skip_append (c :: rest) true none [] hne
    rw [substituteFrom_nil solid, List.append_nil, List.length_cons, substituteFrom_skip] at hskip
    rw [substitute, substituteFrom_of_hit false hhit, hskip, List.append_nil, if_pos hbounded]
  · rename_i hbounded
    have hrest : substituteFrom (Vocabulary.single (c :: rest) meaning).hit 0 false (some c) rest
        = rest := by
      refine substituteFrom_eq_self (fun before part hpart => hit_single_eq_none fun hstarts => ?_) _ _
      have hshort := hstarts.length_le.trans hpart.length_le
      rw [List.length_cons] at hshort
      omega
    rw [substitute, substituteFrom_of_none false hhit, hrest, if_neg hbounded]

theorem substitute_single_eq_self (h : ¬ word <:+: s) :
    substitute (Vocabulary.single word meaning).hit s = s :=
  substitute_eq_self fun _ _ hrest => hit_single_eq_none fun hstarts =>
    h (hstarts.isInfix.trans hrest.isInfix)

/-- Between blanks the word is replaced wherever it stands alone, or nowhere. -/
theorem substitute_single_spaced {texts : List (List Char)} (hne : word ≠ []) (hblank : ' ' ∉ word)
    (hentire : ∀ text ∈ texts, word <:+: text → text = word) :
    substitute (Vocabulary.single word meaning).hit (spaced texts) =
      spaced (texts.map fun text =>
        if text = word then (if isBounded word then meaning else word) else text) := by
  have hwords : ∀ entry ∈ (Vocabulary.single word meaning).entries, entry.1 ≠ [] ∧ ' ' ∉ entry.1 := by
    intro entry hentry
    obtain rfl : entry = (word, meaning) := List.mem_singleton.mp hentry
    exact ⟨hne, hblank⟩
  rw [substitute_hit_spaced hwords]
  congr 1
  refine List.map_congr_left fun text hmem => ?_
  split
  · rename_i hsame
    rw [hsame, substitute_single_alone hne]
  · rename_i hother
    exact substitute_single_eq_self fun hstands => hother (hentire text hmem hstands)

theorem words_of_single {settings : Settings} {word meaning : String}
    (hentries : settings.vocabulary.entries = [(word, meaning)])
    (hword : lower word.toList = word.toList) (hmeaning : lower meaning.toList = meaning.toList) :
    settings.words = Vocabulary.single word.toList meaning.toList := by
  have htable : (Table.ofList [(word, meaning)]).entries = [(word, meaning)] := rfl
  simp only [Settings.words, Vocabulary.ofTable, hentries, List.map_cons, List.map_nil, hword, hmeaning,
    String.ofList_toList, htable, List.mergeSort_singleton, Vocabulary.single]

/-- The settings are accepted and have one word, which holds no white space, and in a text in normal form what
stands between blanks holds the word only by being it. Then each word becomes its meaning, if the word begins
and ends with word characters. If it does not, it is never found, and the text is kept. -/
theorem normalize_replaces_bounded_word {settings : Settings} {word meaning : String}
    {texts : List (List Char)} (accepted : settings.check = .ok ())
    (hentries : settings.vocabulary.entries = [(word, meaning)])
    (hword : lower word.toList = word.toList) (hmeaning : lower meaning.toList = meaning.toList)
    (hunbroken : ∀ c ∈ word.toList, isBlank c = false)
    (hnormal : normalized (spaced texts) = spaced texts)
    (hentire : ∀ text ∈ texts, word.toList <:+: text → text = word.toList) :
    (isBounded word.toList = true → normalize settings.words (spaced texts) =
      spaced (texts.map fun text => if text = word.toList then meaning.toList else text)) ∧
    (isBounded word.toList = false → normalize settings.words (spaced texts) = spaced texts) := by
  have hsaid : isBlankText word = false :=
    ((Settings.check_eq_ok_iff.mp accepted).2 (word, meaning) (by simp [hentries])).1
  have hblank : ' ' ∉ word.toList := fun hblank => absurd (hunbroken ' ' hblank) (by decide)
  have hall : normalize settings.words (spaced texts) = spaced (texts.map fun text =>
      if text = word.toList then (if isBounded word.toList then meaning.toList else word.toList)
      else text) := by
    rw [normalized_eq_fold] at hnormal
    rw [normalize, hnormal, words_of_single hentries hword hmeaning]
    exact substitute_single_spaced (ne_nil_of_not_blank hsaid) hblank hentire
  constructor
  · intro hbounded
    simpa [hbounded] using hall
  · intro hunbounded
    have hkept : ∀ text ∈ texts, (if text = word.toList then word.toList else text) = text := by
      intro text _
      split
      · rename_i hsame
        exact hsame.symm
      · rfl
    simp only [hunbounded, Bool.false_eq_true, if_false] at hall
    rw [hall, List.map_congr_left hkept, List.map_id']

/-- A word may hold a dash, since it need not be of word characters inside. -/
theorem normalize_replaces_bounded_word_with_dash :
    let settings := Settings.default.withSynonym "kick-off" "start"
    let texts := ["kick-off".toList, "wave".toList, "kick".toList, "kick-off".toList]
    settings.check = .ok () ∧ settings.vocabulary.entries = [("kick-off", "start")] ∧
      lower "kick-off".toList = "kick-off".toList ∧ lower "start".toList = "start".toList ∧
      ("kick-off".toList.all fun c => !isBlank c) = true ∧
      normalized (spaced texts) = spaced texts ∧
      (∀ text ∈ texts, "kick-off".toList <:+: text → text = "kick-off".toList) ∧
      isBounded "kick-off".toList = true ∧
      normalize settings.words (spaced texts) = "start wave kick start".toList := by
  intro settings texts
  have accepted : settings.check = .ok () := by decide +kernel
  have hentries : settings.vocabulary.entries = [("kick-off", "start")] := by decide +kernel
  have hword : lower "kick-off".toList = "kick-off".toList := by decide +kernel
  have hmeaning : lower "start".toList = "start".toList := by decide +kernel
  have hunbroken : ("kick-off".toList.all fun c => !isBlank c) = true := by decide +kernel
  have hnormal : normalized (spaced texts) = spaced texts := by decide +kernel
  have hentire : ∀ text ∈ texts, "kick-off".toList <:+: text → text = "kick-off".toList := by
    decide +kernel
  have hbounded : isBounded "kick-off".toList = true := by decide +kernel
  obtain ⟨hreplaced, -⟩ := normalize_replaces_bounded_word accepted hentries hword hmeaning
    (fun c hc => by simpa using List.all_eq_true.mp hunbroken c hc) hnormal hentire
  have htext : spaced (texts.map fun text => if text = "kick-off".toList then "start".toList else text)
      = "start wave kick start".toList := by decide +kernel
  exact ⟨accepted, hentries, hword, hmeaning, hunbroken, hnormal, hentire, hbounded,
    (hreplaced hbounded).trans htext⟩

/-- A word that ends in a sign is accepted and is the first word of the text, but it is not found. -/
theorem sign_keeps_word_from_being_found :
    let settings := Settings.default.withSynonym "go!" "start"
    let texts := ["go!".toList, "wave".toList, "3".toList]
    settings.check = .ok () ∧ settings.vocabulary.entries = [("go!", "start")] ∧
      lower "go!".toList = "go!".toList ∧ lower "start".toList = "start".toList ∧
      ("go!".toList.all fun c => !isBlank c) = true ∧ normalized "go!".toList = "go!".toList ∧
      normalized (spaced texts) = spaced texts ∧
      (∀ text ∈ texts, "go!".toList <:+: text → text = "go!".toList) ∧
      normalize settings.words (spaced texts) = "go! wave 3".toList ∧
      normalize settings.words (spaced texts)
        ≠ spaced (texts.map fun text => if text = "go!".toList then "start".toList else text) := by
  decide +kernel

end TeamOrders.Comment
