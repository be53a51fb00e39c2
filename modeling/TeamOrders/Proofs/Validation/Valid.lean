import TeamOrders.Validation

/-!
# When an order is valid

A verdict starts out valid and stays so until an error is added, so validity follows the checks of
unknown teams and nothing else: warnings, suggestions and the settings have no part in it.
-/

namespace TeamOrders

namespace Verdict

@[simp] theorem clean_valid : clean.valid = true := rfl

@[simp] theorem withError_valid (verdict : Verdict) (message : String) :
    (verdict.withError message).valid = false := rfl

@[simp] theorem withWarning_valid (verdict : Verdict) (message : String) :
    (verdict.withWarning message).valid = verdict.valid := rfl

@[simp] theorem withSuggestion_valid (verdict : Verdict) (message : String) :
    (verdict.withSuggestion message).valid = verdict.valid := rfl

end Verdict

/-- What makes an order valid in a context: its teams are known, a team does not block itself, and
teams are not synchronised on nothing. -/
def Order.Sound (context : Context) : Order → Prop
  | .startWave p => ∀ team ∈ p.teams, context.hasTeam team = true
  | .assignTeams p => ∀ team ∈ p.teams, context.hasTeam team = true
  | .assignTask p => context.hasTeam p.team = true
  | .blockTeam p => Text.sameIgnoringCase p.blocked p.blocking = false ∧
      context.hasTeam p.blocked = true ∧ context.hasTeam p.blocking = true
  | .syncTeams p => Text.isBlankText p.condition = false ∧
      ∀ team ∈ p.teams, context.hasTeam team = true
  | .balanceLoad p => ∀ team ∈ p.teams, context.hasTeam team = true

namespace Validation

variable {settings : Settings} {context : Context}

@[simp] theorem checkTeam_valid (verdict : Verdict) (team : String) :
    (checkTeam settings context verdict team).valid
      = (verdict.valid && context.hasTeam team) := by
  unfold checkTeam
  cases context.hasTeam team with
  | true => simp
  | false =>
    simp only [Bool.false_eq_true, if_false, Bool.and_false]
    generalize (if settings.nearMisses = true then Spelling.suggest team context.teams.names
      else []) = close
    cases close <;> simp

@[simp] theorem checkTeams_valid (verdict : Verdict) (teams : List String) :
    (checkTeams settings context verdict teams).valid
      = (verdict.valid && teams.all context.hasTeam) := by
  unfold checkTeams
  induction teams generalizing verdict with
  | nil => simp
  | cons team rest ih => rw [List.foldl_cons, ih, checkTeam_valid, List.all_cons, Bool.and_assoc]

@[simp] theorem checkTask_valid (verdict : Verdict) (task : String) :
    (checkTask context verdict task).valid = verdict.valid := by
  unfold checkTask
  split <;> simp

/-- What the check of one task leaves alone, the check of them all does. -/
theorem checkTasks_unchanged {α : Type} {part : Verdict → α}
    (h : ∀ verdict task, part (checkTask context verdict task) = part verdict) (verdict : Verdict)
    (tasks : List String) : part (checkTasks context verdict tasks) = part verdict := by
  unfold checkTasks
  induction tasks generalizing verdict with
  | nil => rfl
  | cons task rest ih => rw [List.foldl_cons, ih, h]

@[simp] theorem checkTasks_valid (verdict : Verdict) (tasks : List String) :
    (checkTasks context verdict tasks).valid = verdict.valid :=
  checkTasks_unchanged checkTask_valid verdict tasks

@[simp] theorem checkConfidence_valid (confidence : Double) (rawText : String)
    (verdict : Verdict) :
    (checkConfidence settings confidence rawText verdict).valid = verdict.valid := by
  unfold checkConfidence
  split <;> simp

/-- An order is valid exactly if it is sound. -/
theorem ofOrder_valid_iff {order : Order} :
    (ofOrder settings context order).valid = true ↔ order.Sound context := by
  cases order with
  | startWave p =>
    simp only [ofOrder, Order.Sound]
    split <;> simp
  | assignTeams p => simp [ofOrder, Order.Sound]
  | assignTask p => simp [ofOrder, Order.Sound]
  | blockTeam p =>
    simp only [ofOrder, Order.Sound]
    split
    · rename_i hself
      simp [hself]
    · rename_i hother
      simp [hother]
  | syncTeams p =>
    simp only [ofOrder, Order.Sound]
    split
    · rename_i hblank
      simp [hblank]
    · rename_i hsaid
      simp [hsaid]
  | balanceLoad p =>
    simp only [ofOrder, Order.Sound]
    split <;> simp

theorem ofCommand_of_single {command : Command} {order : Order}
    (h : command.payload = .single order) :
    ofCommand settings context command = checkConfidence settings command.confidence command.rawText
      (ofOrder settings context order) := by
  obtain ⟨kind, rawText, actor, timestamp, payload, confidence, alternatives⟩ := command
  obtain rfl : payload = .single order := h
  rfl

/-- The verdict on a single order is valid exactly if the order is sound. -/
theorem ofCommand_valid_iff_of_single {command : Command} {order : Order}
    (h : command.payload = .single order) :
    (ofCommand settings context command).valid = true ↔ order.Sound context := by
  rw [ofCommand_of_single h, checkConfidence_valid, ofOrder_valid_iff]

end Validation

end TeamOrders
