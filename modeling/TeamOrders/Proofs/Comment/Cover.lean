import TeamOrders.Proofs.Comment.Segments

/-!
# Segments and what stands between them

A text is its segments in their order, with white space and separators around them and a separator
between each two. Where a separator has been cut out, the text is cut at a boundary of words: so what is
left on its two sides starts and ends no word there that it did not start and end before, and no further
separator comes to light in a segment.
-/

namespace TeamOrders.Comment

open Text

variable {s t segment piece mark after rest : List Char} {before : Option Char} {n : Nat}

/-! ### Segments hold no separators -/

theorem startsInWord_of_blanks (hblanks : ∀ c ∈ s, isBlank c = true) (hne : s ≠ [])
    (t : List Char) : startsInWord (s ++ t) = false := by
  obtain ⟨c, rest, rfl⟩ := List.exists_cons_of_ne_nil hne
  exact isWord_of_isBlank (hblanks c List.mem_cons_self)

/-- In a part without matches, no separator comes to light when it is cut out at word boundaries and
trimmed. -/
theorem unseparated_trim (huncut : Uncut separator before piece after)
    (hstart : endsInWord before = false ∨ startsInWord piece = false)
    (hend : endsInWord piece.getLast? = false ∨ startsInWord after = false) :
    Unseparated (trim piece) := by
  obtain ⟨blanks, blanks', hblanks, hblanks', hpiece⟩ := exists_eq_append_trim piece
  generalize trim piece = segment at hpiece ⊢
  rintro front rest rfl
  by_contra hfound
  obtain ⟨n, hn⟩ := Option.ne_none_iff_exists'.mp hfound
  obtain ⟨mark, rest, rfl, -, hmark⟩ := exists_mark_of_separator hn
  have hsame : IsSeparator ((blanks ++ front).getLast?.or before) (rest ++ (blanks' ++ after)) mark := by
    refine hmark.move (fun hfront hword => ?_) (fun hword hrest => ?_)
    · rw [List.getLast?_append, Option.or_assoc]
      cases hlast : front.getLast? with
      | some c => rwa [hlast] at hfront
      | none =>
        obtain rfl := List.getLast?_eq_none_iff.mp hlast
        rw [Option.none_or]
        rcases eq_or_ne blanks [] with rfl | hne
        · refine hstart.resolve_right fun hpart => ?_
          rw [hpiece, List.nil_append, List.nil_append, startsInWord_append_left
            (List.append_ne_nil_of_left_ne_nil hmark.ne_nil rest), hword] at hpart
          cases hpart
        · exact endsInWord_of_blanks hblanks hne before
    · rcases eq_or_ne rest [] with rfl | hne
      · rw [List.nil_append]
        rcases eq_or_ne blanks' [] with rfl | hne
        · refine hend.resolve_left fun hpart => ?_
          rw [hpiece, List.append_nil, List.append_nil, ← List.append_assoc, List.getLast?_append,
            List.getLast?_eq_some_getLast hmark.ne_nil, Option.some_or,
            ← List.getLast?_eq_some_getLast, hword] at hpart
          cases hpart
        · exact startsInWord_of_blanks hblanks' hne after
      · rwa [startsInWord_append_left hne]
  refine separator_ne_none hsame ?_
  have hnone := huncut (blanks ++ front) (mark ++ rest ++ blanks') (by simp [hpiece])
    (by simp [hmark.ne_nil])
  simpa using hnone

/-! ### The layout of a text -/

/-- From a place on, a text is these segments in their order, with white space and separators around
them. `parted` says that no segment has stood there since the last separator, so that the next one may
start: between each two segments there is a separator. -/
inductive Laid : Bool → Option Char → List Char → List (List Char) → Prop
  | done {parted : Bool} {before : Option Char} : Laid parted before [] []
  | blank {parted : Bool} {before : Option Char} {c : Char} {rest : List Char}
      {segments : List (List Char)} :
    isBlank c = true → Laid parted (some c) rest segments → Laid parted before (c :: rest) segments
  | separator {parted : Bool} {before : Option Char} {mark rest : List Char}
      {segments : List (List Char)} :
    IsSeparator before rest mark → Laid true mark.getLast? rest segments →
      Laid parted before (mark ++ rest) segments
  | segment {before : Option Char} {segment rest : List Char} {segments : List (List Char)} :
    segment ≠ [] → Laid false segment.getLast? rest segments →
      Laid true before (segment ++ rest) (segment :: segments)

namespace Laid

variable {parted : Bool} {pieces : List (List Char)}

theorem blanks_append (hblanks : ∀ c ∈ s, isBlank c = true)
    (h : Laid parted (s.getLast?.or before) t pieces) : Laid parted before (s ++ t) pieces := by
  induction s generalizing before with
  | nil => exact h
  | cons c s ih =>
    obtain ⟨hc, hrest⟩ := List.forall_mem_cons.mp hblanks
    rw [getLast?_cons_or] at h
    exact .blank hc (ih hrest h)

theorem piece_append (h : ∀ parted, Laid parted (piece.getLast?.or before) rest pieces) :
    Laid true before (piece ++ rest) ([trim piece].filter (!·.isEmpty) ++ pieces) := by
  obtain ⟨blanks, blanks', hblanks, hblanks', hpiece⟩ := exists_eq_append_trim piece
  rcases eq_or_ne (trim piece) [] with hempty | hne
  · rw [hempty]
    exact blanks_append (trim_eq_nil_iff.mp hempty) (h true)
  · generalize trim piece = segment at hpiece hne ⊢
    obtain rfl := hpiece
    obtain ⟨last, hlast⟩ := Option.ne_none_iff_exists'.mp (mt List.getLast?_eq_none_iff.mp hne)
    have hkept : [segment].filter (!·.isEmpty) = [segment] := by simp [hne]
    rw [hkept, List.append_assoc, List.append_assoc]
    refine blanks_append hblanks (.segment hne (blanks_append hblanks' ?_))
    have hrest := h false
    rwa [List.getLast?_append, List.getLast?_append, hlast, Option.or_assoc, Option.some_or,
      Option.some_or, ← hlast] at hrest

end Laid

/-- Cut at its separators, a text is laid out as the segments that are left. -/
theorem laid_of_cuts {pieces : List (List Char)} (h : Cuts separator before s pieces) :
    Laid true before s ((pieces.map trim).filter (!·.isEmpty)) := by
  induction h with
  | @last before piece huncut =>
    have hlaid : Laid true before (piece ++ []) ([trim piece].filter (!·.isEmpty) ++ []) :=
      .piece_append fun _ => .done
    rwa [List.append_nil, List.append_nil] at hlaid
  | @more before piece mark rest pieces huncut hne hmatch _ ih =>
    obtain ⟨mark', rest', happend, hlength, hmark⟩ := exists_mark_of_separator hmatch
    obtain ⟨rfl, rfl⟩ := List.append_inj happend hlength.symm
    rw [List.map_cons, ← List.singleton_append, List.filter_append]
    exact .piece_append fun _ => .separator hmark ih

theorem unseparated_of_cuts {pieces : List (List Char)} (h : Cuts separator before s pieces)
    (hstart : endsInWord before = false ∨ startsInWord s = false) :
    ∀ piece ∈ pieces, Unseparated (trim piece) := by
  induction h with
  | last huncut =>
    rw [List.forall_mem_singleton]
    exact unseparated_trim huncut hstart (.inr rfl)
  | @more before piece mark rest pieces huncut hne hmatch _ ih =>
    obtain ⟨mark', rest', happend, hlength, hmark⟩ := exists_mark_of_separator hmatch
    obtain ⟨rfl, rfl⟩ := List.append_inj happend hlength.symm
    refine List.forall_mem_cons.mpr ⟨?_, ih hmark.ends_apart⟩
    rcases eq_or_ne piece [] with rfl | hpiece
    · exact unseparated_trim huncut (.inr rfl) (.inl rfl)
    · refine unseparated_trim huncut ?_ ?_
      · rwa [startsInWord_append_left hpiece] at hstart
      · have hends := hmark.starts_apart
        rwa [List.getLast?_eq_some_getLast hpiece, Option.some_or,
          ← List.getLast?_eq_some_getLast] at hends

/-- Nothing of a text is lost in its segments but white space and separators. Each segment is its own only
segment, and a semicolon between two texts parts their segments. -/
theorem segments_cover (s t : List Char) :
    Laid true none s (segments s) ∧
    (∀ segment ∈ segments s, segment ≠ [] ∧ IsTrimmed segment ∧ segments segment = [segment]) ∧
    segments (s ++ ';' :: t) = segments s ++ segments t := by
  have hcuts := cuts_cut solid_separator s
  refine ⟨laid_of_cuts hcuts, fun segment hsegment => ?_, segments_append_semicolon s t⟩
  obtain ⟨hmem, hkept⟩ := List.mem_filter.mp hsegment
  obtain ⟨piece, hpiece, rfl⟩ := List.mem_map.mp hmem
  have hne : trim piece ≠ [] := by simpa using hkept
  have htrimmed := isTrimmed_trim piece
  have hself := trim_eq_self htrimmed
  have hone := segments_of_unseparated (unseparated_of_cuts hcuts (.inl rfl) piece hpiece)
    (hself.symm ▸ hne)
  rw [hself] at hone
  exact ⟨hne, htrimmed, hone⟩

end TeamOrders.Comment
