import TeamOrders.Proofs.Comment.Junction
import TeamOrders.Proofs.Dispatch.Account
import TeamOrders.Proofs.Execution.Batch

/-!
# A batch as a whole and member by member

A comment of several commands can be carried out in two ways: the batch that the reader makes of it can
be carried out as a whole, or the dispatcher takes the batch apart and carries out each member. Where
the dispatcher accepts the context and all members are valid, both come to the same actions. The
dispatcher turns a context away that does not say where results go, before it looks at any command;
carrying out the batch does not ask.
-/

namespace TeamOrders

variable {settings : Settings} {context : Context} {now : Timestamp} {comment : String}

namespace Reading

theorem segmentsOf_of_blank (settings : Settings) (h : Text.isBlankText comment = true) :
    segmentsOf settings comment = [] := by
  have htrim : Text.trim comment.toList = [] :=
    Text.trim_eq_nil_iff.mpr (List.all_eq_true.mp h)
  have hfold : Comment.fold comment.toList = [] := by
    rw [Comment.fold_eq, htrim]
    rfl
  rw [segmentsOf, Comment.normalize, hfold, Comment.Vocabulary.apply]
  split
  · rfl
  · rfl

/-- A reading that is one batch is that of a comment with several commands, and they are its
members. -/
theorem members_eq_commandsOf {batch : Command} {members : List Command}
    (hbatch : (ofComment settings context now comment).commands = [batch])
    (hmembers : batch.payload = .batch members) :
    segmentsOf settings comment ≠ [] ∧ batch.kind = .batch ∧
      members = commandsOf settings context now comment ∧ 1 < members.length := by
  have hsegments : segmentsOf settings comment ≠ [] := by
    intro hnone
    rw [ofComment_of_no_segments hnone] at hbatch
    cases hbatch
  rw [ofComment_of_segments hsegments] at hbatch
  change wrap context.sender now (commandsOf settings context now comment) = [batch] at hbatch
  unfold wrap at hbatch
  split at hbatch
  · rename_i hseveral
    obtain rfl := List.singleton_inj.mp hbatch
    cases hmembers
    exact ⟨hsegments, rfl, rfl, hseveral⟩
  · have hmem : batch ∈ commandsOf settings context now comment := by
      rw [hbatch]
      exact List.mem_singleton_self batch
    obtain ⟨order, hpayload, -⟩ := single_of_mem_commandsOf hmem
    rw [hpayload] at hmembers
    cases hmembers

theorem commands_of_several (h : 1 < (commandsOf settings context now comment).length) :
    (ofComment settings context now comment).commands
      = [Command.ofMembers (commandsOf settings context now comment) context.sender now] := by
  have hsegments : segmentsOf settings comment ≠ [] := by
    intro hnone
    simp [commandsOf, parts, hnone] at h
  rw [ofComment_of_segments hsegments]
  exact if_pos h

theorem filter_isReady_commandsOf (settings : Settings) (context : Context) (now : Timestamp)
    (comment : String) : (commandsOf settings context now comment).filter (·.isReady)
      = commandsOf settings context now comment := by
  rw [List.filter_eq_self]
  intro command hcommand
  obtain ⟨order, hpayload, hkind⟩ := single_of_mem_commandsOf hcommand
  exact Execution.isReady_of_single hpayload hkind

end Reading

namespace Dispatcher

theorem results_of_valid (dispatcher : Dispatcher) (usable : context.check = .ok ())
    (hsegments : Reading.segmentsOf dispatcher.settings comment ≠ [])
    (valid : ∀ command ∈ Reading.commandsOf dispatcher.settings context now comment,
      (Validation.ofCommand dispatcher.settings context command).valid = true) :
    (dispatcher.respond context now comment).results
      = (Reading.commandsOf dispatcher.settings context now comment).map
          (Execution.outcome context) := by
  have notBlank : Text.isBlankText comment = false :=
    Bool.eq_false_iff.mpr fun hblank =>
      hsegments (Reading.segmentsOf_of_blank dispatcher.settings hblank)
  rw [respond_eq_ofParts notBlank usable hsegments]
  change (Reading.commandsOf dispatcher.settings context now comment).map _ = _
  apply List.map_congr_left
  intro command hcommand
  exact outcomeOf_of_valid (valid command hcommand)

/-- Carrying out a batch carries out its direct members that can be, and nothing else; so for a comment
that is read as a batch of valid members, in a usable context, it comes to the actions of the response
to the comment. -/
theorem batch_carries_out_members (dispatcher : Dispatcher) (context : Context) :
    (∀ command members, command.kind = .batch → command.payload = .batch members →
      (Execution.ofCommand context command = .error .emptyBatch ↔ members = []) ∧
      (members ≠ [] → ∃ whole, Execution.ofCommand context command = .ok whole ∧
        whole.command = command ∧ Execution.Combined context members whole)) ∧
    (context.check = .ok () → ∀ now comment batch members,
      (Reading.ofComment dispatcher.settings context now comment).commands = [batch] →
      batch.payload = .batch members →
      (∀ member ∈ members,
        (Validation.ofCommand dispatcher.settings context member).valid = true) →
      let response := dispatcher.respond context now comment
      ∃ whole, Execution.ofCommand context batch = .ok whole ∧
        whole.actions? = some (response.results.flatMap (·.actions)) ∧
        (members.filter (·.isReady)).length = response.total ∧
        members.length = response.total ∧
        whole.message = "Batch operation: " ++ toString response.total ++ "/"
          ++ toString response.total ++ " commands succeeded") := by
  constructor
  · intro command members hkind hpayload
    rw [Execution.ofCommand_of_batch hkind hpayload]
    exact ⟨Execution.ofBatch_eq_emptyBatch_iff context command,
      Execution.ofBatch_of_ne_nil context command⟩
  · intro usable now comment batch members hbatch hmembers valid response
    obtain ⟨hsegments, hkind, rfl, hseveral⟩ := Reading.members_eq_commandsOf hbatch hmembers
    have hready := Reading.filter_isReady_commandsOf dispatcher.settings context now comment
    have hresults : response.results = _ := results_of_valid dispatcher usable hsegments valid
    have htotal : response.total
        = (Reading.commandsOf dispatcher.settings context now comment).length := by
      rw [respond_total, hresults, List.length_map]
    have hne : Reading.commandsOf dispatcher.settings context now comment ≠ [] :=
      List.ne_nil_of_length_pos (Nat.zero_lt_of_lt hseveral)
    obtain ⟨whole, hwhole, -, hcombined⟩ := Execution.ofBatch_of_ne_nil context batch hne
    rw [← Execution.ofCommand_of_batch hkind hmembers] at hwhole
    have hmessage := hcombined.message_eq
    have hsuccess := hcombined.success_iff
    have hactions := hcombined.actions_of_success
    rw [hready] at hmessage hsuccess hactions ⊢
    refine ⟨whole, hwhole, ?_, htotal.symm, htotal.symm, ?_⟩
    · rw [hactions (hsuccess.mpr (Nat.zero_lt_of_lt hseveral)), hresults, List.flatMap_map]
    · rw [hmessage, htotal]

/-- A batch with a member that is carried out, one that is a batch again and one under a wrong kind,
and a comment of two commands. -/
theorem batch_carries_out_members_of_mixed :
    let dispatcher : Dispatcher := ⟨.default, .any⟩
    let context := (Context.new "acme/platform" 7).withTeams ["team-a"]
    let start : Order := .startWave { wave := "3", teams := ["team-a"] }
    let member := Command.new "start wave 3 with team a" "lee" .epoch (.single start) .one
    let members := [member, Command.ofMembers [member] "lee" .epoch,
      { member with kind := .teamSync }]
    let batch := Command.ofMembers members "lee" .epoch
    context.check = .ok () ∧ batch.kind = .batch ∧ batch.payload = .batch members ∧
      (∃ whole, Execution.ofCommand context batch = .ok whole ∧
        Execution.Combined context members whole) ∧
      members.map (·.isReady) = [true, false, false] ∧
      ∃ whole, Execution.ofCommand context
          (Command.ofMembers
            (Reading.commandsOf dispatcher.settings context .epoch "start wave 1; start wave 2")
            context.sender .epoch) = .ok whole ∧
        whole.actions? = some ((dispatcher.respond context .epoch
          "start wave 1; start wave 2").results.flatMap (·.actions)) := by
  intro dispatcher context start member members batch
  have usable : context.check = .ok () :=
    Context.check_eq_ok_iff.mpr ⟨by decide +kernel, by decide +kernel⟩
  have hbatch := batch_carries_out_members dispatcher context
  obtain ⟨whole, hwhole, -, hcombined⟩ := (hbatch.1 batch members rfl rfl).2 (by simp [members])
  have hseveral : 1 < (Reading.commandsOf dispatcher.settings context .epoch
      "start wave 1; start wave 2").length := by decide +kernel
  have hvalid : (Reading.commandsOf dispatcher.settings context .epoch
      "start wave 1; start wave 2").all (fun command =>
        (Validation.ofCommand dispatcher.settings context command).valid) = true := by
    decide +kernel
  obtain ⟨both, hboth, hactions, -⟩ := hbatch.2 usable .epoch "start wave 1; start wave 2" _ _
    (Reading.commands_of_several hseveral) rfl (List.all_eq_true.mp hvalid)
  exact ⟨usable, rfl, rfl, ⟨whole, hwhole, hcombined⟩, by decide +kernel, both, hboth, hactions⟩

/-- A batch can be carried out in a context without an issue number, where the comment that it was read
from is turned away. -/
theorem batch_runs_where_comment_is_refused :
    let dispatcher : Dispatcher := ⟨.default, .any⟩
    let context := Context.new "acme/platform" 0
    let comment := "start wave 1; start wave 2"
    let response := dispatcher.respond context .epoch comment
    ∃ batch members,
      (Reading.ofComment dispatcher.settings context .epoch comment).commands = [batch] ∧
      batch.payload = .batch members ∧
      (∀ member ∈ members,
        (Validation.ofCommand dispatcher.settings context member).valid = true) ∧
      ¬ ∃ whole, Execution.ofCommand context batch = .ok whole ∧
        whole.actions? = some (response.results.flatMap (·.actions)) ∧
        members.length = response.total := by
  intro dispatcher context comment response
  have hseveral : 1 < (Reading.commandsOf dispatcher.settings context .epoch comment).length := by
    decide +kernel
  have hvalid : (Reading.commandsOf dispatcher.settings context .epoch comment).all (fun command =>
      (Validation.ofCommand dispatcher.settings context command).valid) = true := by decide +kernel
  have htotal : response.total = 0 := by decide +kernel
  refine ⟨_, _, Reading.commands_of_several hseveral, rfl, List.all_eq_true.mp hvalid, ?_⟩
  rintro ⟨whole, -, -, hlength⟩
  omega

end Dispatcher

end TeamOrders
