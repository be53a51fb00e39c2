import TeamOrders.Proofs.Comment.Junction
import TeamOrders.Proofs.Comment.Segments
import TeamOrders.Proofs.Dispatch.Stamps

/-!
# Instructions in one comment are independent

Without a vocabulary, a comment of two parts with a semicolon between them has the segments of the one
part and then those of the other. A response is made up of the parts of a comment one by one, so it
joins what the two parts are answered by themselves. Only the warnings change places: those of the
reader come before those of the check.
-/

namespace TeamOrders

variable {settings : Settings} {context : Context} {now : Timestamp}

namespace Comment

open Text

theorem trim_ne_nil_of_segments {s : List Char} (h : segments (fold s) ≠ []) : trim s ≠ [] := by
  intro htrim
  apply h
  rw [fold_eq, htrim]
  rfl

theorem segments_fold_append (a b : List Char) (ha : segments (fold a) ≠ [])
    (hb : segments (fold b) ≠ []) :
    segments (fold (a ++ [';', ' '] ++ b)) = segments (fold a) ++ segments (fold b) := by
  obtain ⟨blank, hblank, hfold⟩ :=
    fold_append_semicolon a b (trim_ne_nil_of_segments ha) (trim_ne_nil_of_segments hb)
  have hsides : fold a ++ (blank ++ [';', ' '] ++ fold b)
      = (fold a ++ blank) ++ ';' :: (' ' :: fold b) := by simp
  have hfirst : segments (fold a ++ blank) = segments (fold a) := by
    rcases hblank with rfl | rfl
    · rw [List.append_nil]
    · exact segments_append_blank (fold a)
  rw [hfold, hsides, segments_append_semicolon, hfirst, segments_blank_append]

end Comment

namespace Reading

variable {a b : String}

theorem segmentsOf_append (plain : settings.vocabulary = .empty)
    (ha : segmentsOf settings a ≠ []) (hb : segmentsOf settings b ≠ []) :
    segmentsOf settings (a ++ "; " ++ b) = segmentsOf settings a ++ segmentsOf settings b := by
  have htext : (a ++ "; " ++ b).toList = a.toList ++ [';', ' '] ++ b.toList := by
    rw [String.toList_append, String.toList_append]
    rfl
  rw [segmentsOf_eq, Comment.normalize_of_no_words plain] at ha hb ⊢
  rw [segmentsOf_eq, segmentsOf_eq, Comment.normalize_of_no_words plain,
    Comment.normalize_of_no_words plain, htext, Comment.segments_fold_append _ _ ha hb]

theorem not_blank_of_segmentsOf (plain : settings.vocabulary = .empty)
    (h : segmentsOf settings a ≠ []) : Text.isBlankText a = false := by
  rw [segmentsOf_eq, Comment.normalize_of_no_words plain] at h
  rw [Bool.eq_false_iff]
  intro hblank
  apply Comment.trim_ne_nil_of_segments h
  rw [Text.trim_eq_nil_iff]
  exact List.all_eq_true.mp hblank

end Reading

namespace Dispatcher

variable {dispatcher : Dispatcher} {a b : String}

/-- A response without its parts changing places is that of the parts one after the other. -/
theorem ofParts_append (dispatcher : Dispatcher) (context : Context) (p q : List Reading.Part) :
    let whole := dispatcher.ofParts context (p ++ q)
    let first := dispatcher.ofParts context p
    let second := dispatcher.ofParts context q
    whole.results = first.results ++ second.results ∧
    whole.errors = first.errors ++ second.errors ∧
    whole.total = first.total + second.total ∧
    whole.successful = first.successful + second.successful ∧
    whole.warnings.Perm (first.warnings ++ second.warnings) := by
  intro whole first second
  have hresults : whole.results = first.results ++ second.results := by
    simp only [whole, first, second, ofParts, List.filterMap_append, List.map_append]
  refine ⟨hresults, ?_, ?_, ?_, ?_⟩
  · exact List.filterMap_append
  · have htotal := congrArg List.length hresults
    rw [List.length_append] at htotal
    exact htotal
  · have hsuccessful := congrArg (fun results => (results.filter (·.success)).length) hresults
    simp only [List.filter_append, List.length_append] at hsuccessful
    exact hsuccessful
  · simp only [whole, first, second, ofParts, List.filterMap_append, List.flatMap_append,
      List.append_assoc]
    apply List.Perm.append_left
    exact List.perm_append_comm_assoc _ _ _

/-- Two texts with a semicolon between them are answered as each by itself, at whatever times the
three answers are given. -/
theorem respond_append_semicolon (dispatcher : Dispatcher) (context : Context)
    (plain : dispatcher.settings.vocabulary = .empty) (usable : context.check = .ok ())
    (a b : String) (ha : Reading.segmentsOf dispatcher.settings a ≠ [])
    (hb : Reading.segmentsOf dispatcher.settings b ≠ []) (now nowA nowB stamp : Timestamp) :
    let whole := dispatcher.respond context now (a ++ "; " ++ b)
    let first := dispatcher.respond context nowA a
    let second := dispatcher.respond context nowB b
    whole.results.map (·.stamped stamp)
      = first.results.map (·.stamped stamp) ++ second.results.map (·.stamped stamp) ∧
    whole.errors = first.errors ++ second.errors ∧
    whole.total = first.total + second.total ∧
    whole.successful = first.successful + second.successful ∧
    whole.warnings.Perm (first.warnings ++ second.warnings) := by
  intro whole first second
  have hsegments := Reading.segmentsOf_append plain ha hb
  have hne : Reading.segmentsOf dispatcher.settings (a ++ "; " ++ b) ≠ [] := by
    rw [hsegments]
    exact List.append_ne_nil_of_left_ne_nil ha _
  have hparts : Reading.parts dispatcher.settings context stamp (a ++ "; " ++ b)
      = Reading.parts dispatcher.settings context stamp a
        ++ Reading.parts dispatcher.settings context stamp b := by
    rw [Reading.parts, hsegments, List.map_append]
    rfl
  have hjoined := ofParts_append dispatcher context
    (Reading.parts dispatcher.settings context stamp a)
    (Reading.parts dispatcher.settings context stamp b)
  rw [← hparts,
    ← respond_eq_ofParts (Reading.not_blank_of_segmentsOf plain hne) usable hne,
    ← respond_eq_ofParts (Reading.not_blank_of_segmentsOf plain ha) usable ha,
    ← respond_eq_ofParts (Reading.not_blank_of_segmentsOf plain hb) usable hb,
    ← respond_stamped dispatcher context now stamp, ← respond_stamped dispatcher context nowA stamp,
    ← respond_stamped dispatcher context nowB stamp] at hjoined
  exact hjoined

/-- A quotation that ends the first text, a capital sigma before the semicolon, and a second text that
cannot be read. -/
theorem respond_append_semicolon_of_quotation :
    let dispatcher : Dispatcher := ⟨.default, .any⟩
    let context := (Context.new "acme/platform" 7).withTeams ["team-a", "team-b"]
    let a := "block team a on team b until 'ΛΟΓΟΣ'"
    let b := "also fly"
    dispatcher.settings.vocabulary = .empty ∧ context.check = .ok () ∧
      (dispatcher.respond context .epoch (a ++ "; " ++ b)).results.length = 1 ∧
      (dispatcher.respond context .epoch (a ++ "; " ++ b)).errors
        = (dispatcher.respond context .epoch a).errors
          ++ (dispatcher.respond context .epoch b).errors ∧
      (dispatcher.respond context .epoch b).errors.length = 1 := by
  intro dispatcher context a b
  have usable : context.check = .ok () :=
    Context.check_eq_ok_iff.mpr ⟨by decide +kernel, by decide +kernel⟩
  have hlengthA : (Reading.segmentsOf dispatcher.settings a).length = 1 := by decide +kernel
  have hlengthB : (Reading.segmentsOf dispatcher.settings b).length = 1 := by decide +kernel
  have ha : Reading.segmentsOf dispatcher.settings a ≠ [] :=
    List.ne_nil_of_length_eq_add_one hlengthA
  have hb : Reading.segmentsOf dispatcher.settings b ≠ [] :=
    List.ne_nil_of_length_eq_add_one hlengthB
  have happend := respond_append_semicolon dispatcher context rfl usable a b ha hb
    .epoch .epoch .epoch .epoch
  exact ⟨rfl, usable, by decide +kernel, happend.2.1, by decide +kernel⟩

end Dispatcher

end TeamOrders
