import TeamOrders.Proofs.Dispatch.Response

/-!
# What a batch comes to

A member of a batch is carried out or refused, and which of the two is decided by its kind and the kind
of its payload alone: it must not state that it is a batch, and it must not state a kind that its payload
does not have. So a member that is carried out carries an order, and no command further down is ever
reached. Going through the members, the tally counts those that are carried out and appends the actions
that each of them has by itself.
-/

namespace TeamOrders

/-- The command does not state that it is a batch, and states the kind of its payload. -/
def Command.isReady (command : Command) : Bool :=
  command.kind ≠ .batch ∧ command.kind = command.payload.kind

namespace Execution

variable {context : Context} {command : Command} {members : List Command} {tally : Tally}

theorem single_of_isReady (h : command.isReady = true) :
    ∃ order, command.payload = .single order ∧ command.kind = order.kind := by
  simp only [Command.isReady, decide_eq_true_eq] at h
  obtain ⟨hnobatch, hagrees⟩ := h
  cases hpayload : command.payload with
  | single order =>
    rw [hpayload] at hagrees
    exact ⟨order, rfl, hagrees⟩
  | batch members =>
    rw [hpayload] at hagrees
    exact absurd hagrees hnobatch

theorem isReady_of_single {order : Order} (hpayload : command.payload = .single order)
    (hkind : command.kind = order.kind) : command.isReady = true := by
  have hnobatch : order.kind ≠ .batch := by
    cases order <;> simp [Order.kind]
  simp [Command.isReady, hpayload, hkind, hnobatch, Payload.kind]

/-! ### One member -/

theorem ofCommand_of_isReady (h : command.isReady = true) :
    ofCommand context command = .ok (outcome context command) := by
  obtain ⟨order, hpayload, hkind⟩ := single_of_isReady h
  have hexecutes : ofCommand context command = .ok (.succeeded command
      (ofOrder context order).message (ofOrder context order).actions) :=
    ofCommand_of_single hpayload hkind
  rw [outcome_of_ok hexecutes, hexecutes]

theorem ofMember_of_isReady (h : command.isReady = true) :
    ofMember context command = .ok (outcome context command) := by
  rw [← ofCommand_of_isReady h]
  obtain ⟨order, hpayload, -⟩ := single_of_isReady h
  simp only [Command.isReady, decide_eq_true_eq] at h
  rw [ofMember, ofCommand, if_neg h.1, hpayload]

theorem ofMember_of_not_isReady (context : Context) (h : command.isReady = false) :
    ∃ e, ofMember context command = .error e := by
  simp only [Command.isReady, decide_eq_false_iff_not, not_and] at h
  unfold ofMember
  split
  · exact ⟨_, rfl⟩
  · rename_i hnobatch
    rw [if_pos (h hnobatch)]
    exact ⟨_, rfl⟩

theorem add_of_isReady (h : command.isReady = true) : tally.add context command =
    { tally with
      successful := tally.successful + 1
      actions := tally.actions ++ (outcome context command).actions } := by
  rw [Tally.add, ofMember_of_isReady h]

theorem add_of_not_isReady (context : Context) (tally : Tally) (h : command.isReady = false) :
    ∃ failure, tally.add context command = { tally with failures := tally.failures ++ [failure] } := by
  obtain ⟨e, he⟩ := ofMember_of_not_isReady context h
  rw [Tally.add, he]
  exact ⟨_, rfl⟩

/-! ### All members -/

/-- The tally of a batch counts its ready members and holds their actions in order. -/
theorem foldl_add (context : Context) (members : List Command) (tally : Tally) :
    (members.foldl (Tally.add context) tally).successful
        = tally.successful + (members.filter (·.isReady)).length ∧
      (members.foldl (Tally.add context) tally).actions
        = tally.actions
          ++ (members.filter (·.isReady)).flatMap fun member => (outcome context member).actions := by
  induction members generalizing tally with
  | nil => simp
  | cons member rest ih =>
    rw [List.foldl_cons]
    obtain ⟨hsuccessful, hactions⟩ := ih (tally.add context member)
    cases hready : member.isReady with
    | true =>
      rw [List.filter_cons_of_pos hready, List.length_cons, List.flatMap_cons, hsuccessful,
        hactions, add_of_isReady hready, List.append_assoc]
      exact ⟨Nat.succ_add_eq_add_succ _ _, rfl⟩
    | false =>
      obtain ⟨failure, hadd⟩ := add_of_not_isReady context tally hready
      rw [List.filter_cons_of_neg (by simp [hready]), hsuccessful, hactions, hadd]
      exact ⟨rfl, rfl⟩

/-- What the outcome of a batch is made up of: its ready members, each carried out by itself, and
nothing from further down. -/
structure Combined (context : Context) (members : List Command) (whole : Outcome) : Prop where
  message_eq : whole.message = "Batch operation: "
    ++ toString (members.filter (·.isReady)).length ++ "/" ++ toString members.length
    ++ " commands succeeded"
  success_iff : whole.success = true ↔ 0 < (members.filter (·.isReady)).length
  members_run : ∀ member ∈ members.filter (·.isReady),
    ofCommand context member = .ok (outcome context member)
  actions_of_success : whole.success = true → whole.actions? = some
    ((members.filter (·.isReady)).flatMap fun member => (outcome context member).actions)
  actions_of_failure : whole.success = false → whole.actions? = none
  actions_direct : ∀ action ∈ whole.actions, ∃ member ∈ members, ∃ order,
    member.payload = .single order ∧ action ∈ (ofOrder context order).actions

theorem exists_order_of_mem_actions {action : Action}
    (h : action ∈ (members.filter (·.isReady)).flatMap fun member =>
      (outcome context member).actions) :
    ∃ member ∈ members, ∃ order, member.payload = .single order ∧
      action ∈ (ofOrder context order).actions := by
  obtain ⟨member, hmember, haction⟩ := List.mem_flatMap.mp h
  obtain ⟨hmem, hready⟩ := List.mem_filter.mp hmember
  obtain ⟨order, hpayload, hkind⟩ := single_of_isReady hready
  rw [outcome_of_ok (ofCommand_of_single hpayload hkind)] at haction
  exact ⟨member, hmem, order, hpayload, haction⟩

theorem ofBatch_of_ne_nil (context : Context) (command : Command) (hne : members ≠ []) :
    ∃ whole, ofBatch context command members = .ok whole ∧ whole.command = command ∧
      Combined context members whole := by
  have hmembers : members.isEmpty = false := by simpa using hne
  obtain ⟨hsuccessful, hactions⟩ := foldl_add context members ⟨0, [], []⟩
  rw [Nat.zero_add] at hsuccessful
  rw [List.nil_append] at hactions
  have hrun : ∀ member ∈ members.filter (·.isReady),
      ofCommand context member = .ok (outcome context member) :=
    fun member hmember => ofCommand_of_isReady (List.mem_filter.mp hmember).2
  simp only [ofBatch, hmembers, Bool.false_eq_true, if_false, hsuccessful]
  by_cases hsome : 0 < (members.filter (·.isReady)).length
  · rw [if_pos hsome]
    refine ⟨_, rfl, rfl, rfl, iff_of_true rfl hsome, hrun, fun _ => congrArg some hactions,
      fun hfailed => (by cases hfailed), fun action haction => ?_⟩
    rw [show (Outcome.succeeded command _ _).actions = _ from hactions] at haction
    exact exists_order_of_mem_actions haction
  · rw [if_neg hsome]
    exact ⟨_, rfl, rfl, rfl, iff_of_false Bool.false_ne_true hsome, hrun,
      fun hsucceeded => (by cases hsucceeded), fun _ => rfl, fun _ haction => (by cases haction)⟩

theorem ofBatch_eq_emptyBatch_iff (context : Context) (command : Command) :
    ofBatch context command members = .error .emptyBatch ↔ members = [] := by
  cases members with
  | nil => exact iff_of_true rfl rfl
  | cons member rest =>
    obtain ⟨whole, hwhole, -⟩ := ofBatch_of_ne_nil context command (List.cons_ne_nil member rest)
    simp [hwhole]

theorem ofCommand_of_batch (hkind : command.kind = .batch)
    (hpayload : command.payload = .batch members) :
    ofCommand context command = ofBatch context command members := by
  rw [ofCommand, hpayload, if_neg (not_not_intro (by rw [hkind]; rfl))]

end Execution

end TeamOrders
