import Mathlib.Data.List.Forall2
import TeamOrders.Proofs.Text.OneLine
import TeamOrders.Report.Markdown

/-!
# The lines of a comment that holds a response

The comment is put together line by line. As long as the texts of the response hold no line break, it is
cut at its line breaks into just these lines, so that each outcome, error and warning has one line, under
its own title.
-/

namespace TeamOrders

def cutLines (s : String) : List String := (s.toList.splitOn '\n').map String.ofList

theorem cutLines_cons {line : String} (h : OneLine line) (s : String) :
    cutLines (line ++ "\n" ++ s) = line :: cutLines s := by
  have hline : line.toList.splitOnP (· == '\n') = [line.toList] :=
    List.splitOnP_eq_singleton fun c hc => beq_eq_false_iff_ne.mpr fun heq => h (heq ▸ hc)
  have htext : (line ++ "\n" ++ s).toList = line.toList ++ '\n' :: s.toList := by
    rw [String.toList_append, String.toList_append, List.append_assoc]
    rfl
  have hcut : (line.toList ++ '\n' :: s.toList).splitOnP (· == '\n')
      = line.toList.splitOnP (· == '\n') ++ s.toList.splitOnP (· == '\n') :=
    List.splitOnP_append_cons _ _ rfl
  rw [cutLines, htext, List.splitOn, hcut, hline, List.map_append, List.map_singleton, String.ofList_toList]
  rfl

/-- Lines that are joined with a line break behind each of them are cut again as they were. -/
theorem cutLines_join {lines : List String} (h : ∀ line ∈ lines, OneLine line) :
    cutLines (String.join (lines.map (· ++ "\n"))) = lines ++ [""] := by
  induction lines with
  | nil => rfl
  | cons line lines ih =>
    obtain ⟨hline, hlines⟩ := List.forall_mem_cons.mp h
    rw [List.map_cons, String.join_cons, cutLines_cons hline, ih hlines, List.cons_append]

structure Outcome.OnOneLine (outcome : Outcome) : Prop where
  message : OneLine outcome.message
  error : ∀ error, outcome.error? = some error → OneLine error

namespace Response

structure OnOneLine (response : Response) : Prop where
  results : ∀ outcome ∈ response.results, outcome.OnOneLine
  errors : ∀ error ∈ response.errors, OneLine error
  warnings : ∀ warning ∈ response.warnings, OneLine warning

/-- A section of a comment. If there is nothing to list it is left out; else an empty line and the
title stand above the entries, each of which has one line, and which are numbered from one. -/
inductive Section {α : Type} (title : String) (Tells : Nat → α → String → Prop) :
    List α → List String → Prop
  | absent : Section title Tells [] []
  | present {entries : List α} {rows : List String} (nonempty : entries ≠ [])
      (tells : List.Forall₂ (fun entry row => Tells entry.2 entry.1 row) (entries.zipIdx 1) rows) :
      Section title Tells entries ("" :: ("**" ++ title ++ "**") :: rows)

/-- A line on an outcome starts with its number and the sign of its success. -/
def TellsOutcome (number : Nat) (outcome : Outcome) (row : String) : Prop :=
  ∃ rest, row = toString number ++ ". " ++ icon outcome.success ++ " " ++ rest

def TellsText (_ : Nat) (text row : String) : Prop := row = "- " ++ text

/-- The lines of a comment that holds a response: the heading, the summary, the sections, and the end of
the last line. -/
def LaidOut (response : Response) (lines : List String) : Prop :=
  ∃ results errors warnings,
    lines = ["## " ++ icon response.success ++
        (if response.success then " Commands processed" else " Commands failed"),
      "", "**Summary**", "- Total commands: " ++ toString response.total,
      "- Successful: " ++ toString response.successful,
      "- Processing time: " ++ response.milliseconds.fixed 2 ++ " ms"]
      ++ results ++ errors ++ warnings ++ [""] ∧
    Section "Results" TellsOutcome response.results results ∧
    Section "Errors" TellsText response.errors errors ∧
    Section "Warnings" TellsText response.warnings warnings

variable {response : Response}

/-! ### How the lines are laid out -/

theorem tellsOutcome_resultLine (number : Nat) (outcome : Outcome) :
    TellsOutcome number outcome (resultLine number outcome) := by
  unfold resultLine
  split
  · rename_i error _
    split
    · exact ⟨outcome.message, rfl⟩
    · refine ⟨outcome.message ++ " (" ++ error ++ ")", ?_⟩
      simp only [String.append_assoc]
  · exact ⟨outcome.message, rfl⟩

theorem forall₂_resultLines (number : Nat) (results : List Outcome) :
    List.Forall₂ (fun entry row => TellsOutcome entry.2 entry.1 row) (results.zipIdx number)
      (resultLines number results) := by
  induction results generalizing number with
  | nil => exact .nil
  | cons outcome rest ih =>
    rw [List.zipIdx_cons, resultLines]
    exact .cons (tellsOutcome_resultLine number outcome) (ih (number + 1))

theorem forall₂_items (number : Nat) (texts : List String) :
    List.Forall₂ (fun entry row => TellsText entry.2 entry.1 row) (texts.zipIdx number)
      (texts.map ("- " ++ ·)) := by
  induction texts generalizing number with
  | nil => exact .nil
  | cons text rest ih =>
    rw [List.zipIdx_cons, List.map_cons]
    exact .cons rfl (ih (number + 1))

theorem section_titled {α : Type} {title : String} {Tells : Nat → α → String → Prop}
    {entries : List α} {rows : List String}
    (tells : List.Forall₂ (fun entry row => Tells entry.2 entry.1 row) (entries.zipIdx 1) rows) :
    Section title Tells entries (titled title rows) := by
  cases entries with
  | nil =>
    cases tells
    exact .absent
  | cons entry rest =>
    have hrows : rows.isEmpty = false := by
      rw [List.zipIdx_cons] at tells
      cases tells
      rfl
    rw [titled, hrows]
    exact .present (List.cons_ne_nil entry rest) tells

theorem laidOut_lines (response : Response) : response.LaidOut (response.lines ++ [""]) := by
  refine ⟨_, _, _, ?_, section_titled (forall₂_resultLines 1 _), section_titled (forall₂_items 1 _),
    section_titled (forall₂_items 1 _)⟩
  unfold lines
  cases response.success <;> rfl

/-! ### No line is broken -/

theorem oneLine_resultLine {outcome : Outcome} (h : outcome.OnOneLine) (number : Nat) :
    OneLine (resultLine number outcome) := by
  have hicon : OneLine (icon outcome.success) := by
    cases outcome.success <;> decide
  have hstart : OneLine (toString number ++ ". " ++ icon outcome.success ++ " " ++ outcome.message) := by
    simp +decide only [oneLine_append, oneLine_nat, hicon, h.message, and_self]
  unfold resultLine
  split
  · rename_i error herror
    split
    · exact hstart
    · rw [oneLine_append, oneLine_append, oneLine_append]
      exact ⟨⟨⟨hstart, by decide⟩, h.error error herror⟩, by decide⟩
  · exact hstart

theorem oneLine_of_mem_resultLines {results : List Outcome}
    (h : ∀ outcome ∈ results, outcome.OnOneLine) (number : Nat) :
    ∀ line ∈ resultLines number results, OneLine line := by
  induction results generalizing number with
  | nil => exact nofun
  | cons outcome rest ih =>
    obtain ⟨houtcome, hrest⟩ := List.forall_mem_cons.mp h
    exact List.forall_mem_cons.mpr ⟨oneLine_resultLine houtcome number, ih hrest (number + 1)⟩

theorem oneLine_of_mem_items {texts : List String} (h : ∀ text ∈ texts, OneLine text) :
    ∀ line ∈ texts.map ("- " ++ ·), OneLine line :=
  List.forall_mem_map.mpr fun text htext => oneLine_append.mpr ⟨by decide, h text htext⟩

theorem oneLine_of_mem_titled {title : String} (htitle : OneLine title) {rows : List String}
    (h : ∀ row ∈ rows, OneLine row) : ∀ line ∈ titled title rows, OneLine line := by
  have hheading : OneLine ("**" ++ title ++ "**") := by
    simp +decide only [oneLine_append, htitle, and_self]
  unfold titled
  split
  · exact nofun
  · exact List.forall_mem_cons.mpr ⟨by decide, List.forall_mem_cons.mpr ⟨hheading, h⟩⟩

theorem oneLine_of_mem_lines (h : response.OnOneLine) : ∀ line ∈ response.lines, OneLine line := by
  have hheading : OneLine (if response.success then "## " ++ icon true ++ " Commands processed"
      else "## " ++ icon false ++ " Commands failed") := by
    cases response.success <;> decide
  have htotal : OneLine ("- Total commands: " ++ toString response.total) :=
    oneLine_append.mpr ⟨oneLine_ofList.mpr (by decide), oneLine_nat _⟩
  have hsuccessful : OneLine ("- Successful: " ++ toString response.successful) :=
    oneLine_append.mpr ⟨oneLine_ofList.mpr (by decide), oneLine_nat _⟩
  have htime : OneLine ("- Processing time: " ++ response.milliseconds.fixed 2 ++ " ms") := by
    rw [oneLine_append, oneLine_append]
    exact ⟨⟨oneLine_ofList.mpr (by decide), oneLine_fixed 2 _⟩, by decide⟩
  have hsummary : OneLine "**Summary**" := by decide
  have hnothing : OneLine "" := by decide
  simp only [lines, List.forall_mem_append, List.forall_mem_cons]
  exact ⟨⟨⟨⟨hheading, hnothing, hsummary, htotal, hsuccessful, htime, nofun⟩,
    oneLine_of_mem_titled (by decide) (oneLine_of_mem_resultLines h.results 1)⟩,
    oneLine_of_mem_titled (by decide) (oneLine_of_mem_items h.errors)⟩,
    oneLine_of_mem_titled (by decide) (oneLine_of_mem_items h.warnings)⟩

theorem laidOut_markdown (h : response.OnOneLine) :
    response.LaidOut (cutLines response.markdown) := by
  rw [markdown, cutLines_join (oneLine_of_mem_lines h)]
  exact laidOut_lines response

end Response

end TeamOrders
