import TeamOrders.Proofs.Validation.Valid

/-!
# What a command is faulted for

The errors of a verdict follow from the payload and the known teams alone. The kind that a command
states, its confidence and the settings have no part in them, however deep batches are nested.
`Payload.faults` lists them without a verdict being built, and there are none exactly if the payload is
sound. The flag of a verdict stays in step with its errors, and a suggestion always comes with one.
-/

namespace TeamOrders

/-! ### Verdicts in step -/

namespace Verdict

variable {verdict : Verdict} {message : String}

@[simp] theorem clean_errors : clean.errors = [] := rfl

@[simp] theorem withError_errors (verdict : Verdict) (message : String) :
    (verdict.withError message).errors = verdict.errors ++ [message] := rfl

@[simp] theorem withWarning_errors (verdict : Verdict) (message : String) :
    (verdict.withWarning message).errors = verdict.errors := rfl

@[simp] theorem withSuggestion_errors (verdict : Verdict) (message : String) :
    (verdict.withSuggestion message).errors = verdict.errors := rfl

@[simp] theorem merge_errors (first second : Verdict) :
    (first.merge second).errors = first.errors ++ second.errors := rfl

/-- The flag says whether there are errors, and nothing is suggested without one. -/
structure InStep (verdict : Verdict) : Prop where
  flag : verdict.valid = verdict.errors.isEmpty
  suggested : verdict.errors = [] → verdict.suggestions = []

theorem inStep_clean : clean.InStep := ⟨rfl, fun _ => rfl⟩

theorem InStep.withError (verdict : Verdict) (message : String) :
    (verdict.withError message).InStep := ⟨by simp, fun h => by simp at h⟩

theorem InStep.withWarning (h : verdict.InStep) (message : String) :
    (verdict.withWarning message).InStep := ⟨h.flag, h.suggested⟩

theorem InStep.withSuggestion (h : verdict.InStep) (hne : verdict.errors ≠ []) (message : String) :
    (verdict.withSuggestion message).InStep := ⟨h.flag, fun hnil => absurd hnil hne⟩

theorem InStep.merge {first second : Verdict} (hfirst : first.InStep) (hsecond : second.InStep) :
    (first.merge second).InStep := by
  refine ⟨rfl, fun hnil => ?_⟩
  obtain ⟨hfirstNil, hsecondNil⟩ := List.append_eq_nil_iff.mp hnil
  exact List.append_eq_nil_iff.mpr ⟨hfirst.suggested hfirstNil, hsecond.suggested hsecondNil⟩

end Verdict

/-! ### Faults -/

def unknownTeam (context : Context) (team : String) : List String :=
  if context.hasTeam team then [] else ["Unknown team: " ++ team]

/-- The faults of an order. A team that would block itself is looked up only once. -/
def Order.faults (context : Context) : Order → List String
  | .startWave p => p.teams.flatMap (unknownTeam context)
  | .assignTeams p => p.teams.flatMap (unknownTeam context)
  | .assignTask p => unknownTeam context p.team
  | .blockTeam p =>
    if Text.sameIgnoringCase p.blocked p.blocking then
      ("Team " ++ p.blocked ++ " cannot block itself") :: unknownTeam context p.blocked
    else unknownTeam context p.blocked ++ unknownTeam context p.blocking
  | .syncTeams p => p.teams.flatMap (unknownTeam context)
      ++ if Text.isBlankText p.condition then ["Sync condition must not be empty"] else []
  | .balanceLoad p => p.teams.flatMap (unknownTeam context)

mutual

def Payload.faults (context : Context) : Payload → List String
  | .single order => order.faults context
  | .batch members =>
    (if members.isEmpty then ["Batch operation contains no commands"] else [])
      ++ faultsOfMembers context members

/-- The faults of a command are those of its payload. -/
def Command.faults (context : Context) : Command → List String
  | ⟨_, _, _, _, payload, _, _⟩ => payload.faults context

def faultsOfMembers (context : Context) : List Command → List String
  | [] => []
  | command :: rest => command.faults context ++ faultsOfMembers context rest

end

/-- What makes a payload valid in a context. A batch holds commands, and each of them carries a payload
that is valid itself. -/
inductive Payload.Sound (context : Context) : Payload → Prop
  | single {order : Order} : order.Sound context → Sound context (.single order)
  | batch {members : List Command} : members ≠ [] →
      (∀ member ∈ members, Sound context member.payload) → Sound context (.batch members)

/-- What holds of commands that carry an order, and of batches if it holds of all members, holds of every
command. -/
theorem Command.inductionOnPayload {P : Command → Prop}
    (single : ∀ command order, command.payload = .single order → P command)
    (batch : ∀ command members, command.payload = .batch members → (∀ member ∈ members, P member) →
      P command) : (command : Command) → P command
  | ⟨kind, rawText, actor, timestamp, .single order, confidence, alternatives⟩ =>
    single ⟨kind, rawText, actor, timestamp, .single order, confidence, alternatives⟩ order rfl
  | ⟨kind, rawText, actor, timestamp, .batch members, confidence, alternatives⟩ =>
    batch ⟨kind, rawText, actor, timestamp, .batch members, confidence, alternatives⟩ members rfl
      fun member _ => Command.inductionOnPayload single batch member

variable {context larger : Context} {settings : Settings} {order : Order} {payload : Payload}
  {command : Command} {members : List Command}

theorem faultsOfMembers_eq_flatMap (context : Context) (members : List Command) :
    faultsOfMembers context members = members.flatMap fun member => member.payload.faults context := by
  induction members with
  | nil => rfl
  | cons member rest ih =>
    obtain ⟨kind, rawText, actor, timestamp, payload, confidence, alternatives⟩ := member
    rw [faultsOfMembers, Command.faults, ih, List.flatMap_cons]

namespace Validation

/-! ### The errors of a verdict -/

theorem checkTeam_of_known {team : String} (verdict : Verdict) (h : context.hasTeam team = true) :
    checkTeam settings context verdict team = verdict := if_pos h

theorem checkTeam_of_unknown (settings : Settings) {team : String} (verdict : Verdict)
    (h : context.hasTeam team = false) :
    let refused := verdict.withError ("Unknown team: " ++ team)
    checkTeam settings context verdict team = refused ∨
      ∃ hint, checkTeam settings context verdict team = refused.withSuggestion hint := by
  intro refused
  unfold checkTeam
  rw [h, if_neg Bool.false_ne_true]
  generalize (if settings.nearMisses = true then Spelling.suggest team context.teams.names
    else []) = close
  cases close with
  | nil => exact .inl rfl
  | cons first others => exact .inr ⟨_, rfl⟩

theorem checkTeam_errors (verdict : Verdict) (team : String) :
    (checkTeam settings context verdict team).errors
      = verdict.errors ++ unknownTeam context team := by
  unfold unknownTeam
  cases hteam : context.hasTeam team with
  | true => simp [checkTeam_of_known verdict hteam]
  | false =>
    rcases checkTeam_of_unknown settings verdict hteam with heq | ⟨hint, heq⟩ <;>
      simp [heq]

theorem checkTeams_errors (verdict : Verdict) (teams : List String) :
    (checkTeams settings context verdict teams).errors
      = verdict.errors ++ teams.flatMap (unknownTeam context) := by
  unfold checkTeams
  induction teams generalizing verdict with
  | nil => simp
  | cons team rest ih =>
    rw [List.foldl_cons, ih, checkTeam_errors, List.flatMap_cons, List.append_assoc]

theorem checkTask_errors (verdict : Verdict) (task : String) :
    (checkTask context verdict task).errors = verdict.errors := by
  unfold checkTask
  split <;> rfl

theorem checkTasks_errors (verdict : Verdict) (tasks : List String) :
    (checkTasks context verdict tasks).errors = verdict.errors :=
  checkTasks_unchanged checkTask_errors verdict tasks

theorem checkConfidence_errors (confidence : Double) (rawText : String) (verdict : Verdict) :
    (checkConfidence settings confidence rawText verdict).errors = verdict.errors := by
  unfold checkConfidence
  split <;> rfl

theorem ofOrder_errors (settings : Settings) (context : Context) (order : Order) :
    (ofOrder settings context order).errors = order.faults context := by
  cases order with
  | startWave p =>
    simp only [ofOrder, Order.faults]
    split <;> simp [checkTeams_errors]
  | assignTeams p => simp [ofOrder, Order.faults, checkTasks_errors, checkTeams_errors]
  | assignTask p => simp [ofOrder, Order.faults, checkTask_errors, checkTeam_errors]
  | blockTeam p =>
    simp only [ofOrder, Order.faults]
    split <;> simp [checkTeam_errors]
  | syncTeams p =>
    simp only [ofOrder, Order.faults]
    split <;> simp [checkTeams_errors]
  | balanceLoad p =>
    simp only [ofOrder, Order.faults]
    split <;> simp [checkTeams_errors]

/-- The verdict on a batch, before its members are looked at. -/
def ofCount (members : List Command) : Verdict :=
  if members.isEmpty then Verdict.clean.withError "Batch operation contains no commands" else .clean

theorem ofMembers_eq_foldl (verdict : Verdict) (members : List Command) :
    ofMembers settings context verdict members
      = members.foldl (fun verdict member => verdict.merge (ofCommand settings context member))
          verdict := by
  induction members generalizing verdict with
  | nil => rfl
  | cons member rest ih => rw [ofMembers, ih, List.foldl_cons]

theorem ofCommand_of_batch (h : command.payload = .batch members) :
    ofCommand settings context command = checkConfidence settings command.confidence command.rawText
      (members.foldl (fun verdict member => verdict.merge (ofCommand settings context member))
        (ofCount members)) := by
  obtain ⟨kind, rawText, actor, timestamp, payload, confidence, alternatives⟩ := command
  obtain rfl : payload = .batch members := h
  rw [ofCommand, ofPayload, ofMembers_eq_foldl]
  rfl

theorem foldl_merge_errors {faults : Command → List String} (verdict : Verdict)
    (h : ∀ member ∈ members, (ofCommand settings context member).errors = faults member) :
    (members.foldl (fun verdict member => verdict.merge (ofCommand settings context member))
      verdict).errors = verdict.errors ++ members.flatMap faults := by
  induction members generalizing verdict with
  | nil => simp
  | cons member rest ih =>
    obtain ⟨hmember, hrest⟩ := List.forall_mem_cons.mp h
    rw [List.foldl_cons, ih _ hrest, Verdict.merge_errors, hmember, List.flatMap_cons,
      List.append_assoc]

/-- The errors of a verdict are the faults of the payload, whatever else the command says and whatever
the settings are. -/
theorem ofCommand_errors (settings : Settings) (context : Context) (command : Command) :
    (ofCommand settings context command).errors = command.payload.faults context := by
  induction command using Command.inductionOnPayload with
  | single command order hpayload =>
    rw [ofCommand_of_single hpayload, checkConfidence_errors, ofOrder_errors, hpayload,
      Payload.faults]
  | batch command members hpayload ih =>
    rw [ofCommand_of_batch hpayload, checkConfidence_errors, foldl_merge_errors _ ih, hpayload,
      Payload.faults, faultsOfMembers_eq_flatMap, ofCount]
    split <;> rfl

/-! ### The flag of a verdict -/

theorem inStep_checkTeam {verdict : Verdict} (h : verdict.InStep) (team : String) :
    (checkTeam settings context verdict team).InStep := by
  cases hteam : context.hasTeam team with
  | true => rwa [checkTeam_of_known verdict hteam]
  | false =>
    have herror := Verdict.InStep.withError verdict ("Unknown team: " ++ team)
    rcases checkTeam_of_unknown settings verdict hteam with heq | ⟨hint, heq⟩
    · rw [heq]
      exact herror
    · rw [heq]
      exact herror.withSuggestion (by simp) hint

theorem inStep_checkTeams {verdict : Verdict} (h : verdict.InStep) (teams : List String) :
    (checkTeams settings context verdict teams).InStep :=
  List.foldlRecOn teams (checkTeam settings context) h fun _ hverdict team _ =>
    inStep_checkTeam hverdict team

theorem inStep_checkTask {verdict : Verdict} (h : verdict.InStep) (task : String) :
    (checkTask context verdict task).InStep := by
  unfold checkTask
  split
  · exact h
  · exact h.withWarning _

theorem inStep_checkTasks {verdict : Verdict} (h : verdict.InStep) (tasks : List String) :
    (checkTasks context verdict tasks).InStep :=
  List.foldlRecOn tasks (checkTask context) h fun _ hverdict task _ => inStep_checkTask hverdict task

theorem inStep_checkConfidence {verdict : Verdict} (h : verdict.InStep) (confidence : Double)
    (rawText : String) : (checkConfidence settings confidence rawText verdict).InStep := by
  unfold checkConfidence
  split
  · exact h.withWarning _
  · exact h

theorem inStep_ofOrder (settings : Settings) (context : Context) (order : Order) :
    (ofOrder settings context order).InStep := by
  have hclean := Verdict.inStep_clean
  cases order with
  | startWave p =>
    simp only [ofOrder]
    split
    · exact (inStep_checkTeams hclean p.teams).withWarning _
    · exact inStep_checkTeams hclean p.teams
  | assignTeams p => exact inStep_checkTasks (inStep_checkTeams hclean p.teams) p.tasks
  | assignTask p => exact inStep_checkTask (inStep_checkTeam hclean p.team) p.task
  | blockTeam p =>
    simp only [ofOrder]
    split
    · exact inStep_checkTeam (Verdict.InStep.withError _ _) p.blocked
    · exact inStep_checkTeam (inStep_checkTeam hclean p.blocked) p.blocking
  | syncTeams p =>
    simp only [ofOrder]
    split
    · exact Verdict.InStep.withError _ _
    · exact inStep_checkTeams hclean p.teams
  | balanceLoad p =>
    simp only [ofOrder]
    split
    · exact (inStep_checkTeams hclean p.teams).withWarning _
    · exact inStep_checkTeams hclean p.teams

theorem inStep_ofCommand (settings : Settings) (context : Context) (command : Command) :
    (ofCommand settings context command).InStep := by
  induction command using Command.inductionOnPayload with
  | single command order hpayload =>
    rw [ofCommand_of_single hpayload]
    exact inStep_checkConfidence (inStep_ofOrder settings context order) _ _
  | batch command members hpayload ih =>
    rw [ofCommand_of_batch hpayload]
    refine inStep_checkConfidence (List.foldlRecOn members _ ?_ fun verdict hverdict member hmember =>
      hverdict.merge (ih member hmember)) _ _
    unfold ofCount
    split
    · exact Verdict.InStep.withError _ _
    · exact Verdict.inStep_clean

end Validation

/-! ### Sound payloads -/

theorem Order.faults_eq_nil_iff : order.faults context = [] ↔ order.Sound context := by
  have hvalid : (Validation.ofOrder .default context order).valid = true ↔ order.Sound context :=
    Validation.ofOrder_valid_iff
  rw [← hvalid, ← Validation.ofOrder_errors .default,
    (Validation.inStep_ofOrder .default context order).flag, List.isEmpty_iff]

namespace Payload

theorem sound_single_iff : (Payload.single order).Sound context ↔ order.Sound context := by
  constructor
  · rintro (horder | _)
    exact horder
  · exact .single

theorem sound_batch_iff : (Payload.batch members).Sound context ↔
    members ≠ [] ∧ ∀ member ∈ members, member.payload.Sound context := by
  constructor
  · rintro (_ | ⟨hne, hmembers⟩)
    exact ⟨hne, hmembers⟩
  · rintro ⟨hne, hmembers⟩
    exact .batch hne hmembers

end Payload

theorem Command.faults_eq_nil_iff (context : Context) (command : Command) :
    command.payload.faults context = [] ↔ command.payload.Sound context := by
  induction command using Command.inductionOnPayload with
  | single command order hpayload =>
    rw [hpayload, Payload.faults, Order.faults_eq_nil_iff, Payload.sound_single_iff]
  | batch command members hpayload ih =>
    rw [hpayload, Payload.faults, faultsOfMembers_eq_flatMap, Payload.sound_batch_iff,
      List.append_eq_nil_iff, List.flatMap_eq_nil_iff, forall₂_congr ih]
    refine and_congr_left' ?_
    cases members <;> simp

theorem Context.hasTeam_mono (h : ∀ team ∈ context.teams.names, team ∈ larger.teams.names)
    {team : String} (hknown : context.hasTeam team = true) : larger.hasTeam team = true := by
  rw [hasTeam, List.any_eq_true] at hknown ⊢
  obtain ⟨name, hname, hsame⟩ := hknown
  exact ⟨name, h name hname, hsame⟩

theorem Order.Sound.mono (h : ∀ team ∈ context.teams.names, team ∈ larger.teams.names)
    (hsound : order.Sound context) : order.Sound larger := by
  cases order with
  | startWave p => exact fun team hteam => Context.hasTeam_mono h (hsound team hteam)
  | assignTeams p => exact fun team hteam => Context.hasTeam_mono h (hsound team hteam)
  | assignTask p => exact Context.hasTeam_mono h hsound
  | blockTeam p =>
    obtain ⟨hother, hblocked, hblocking⟩ := hsound
    exact ⟨hother, Context.hasTeam_mono h hblocked, Context.hasTeam_mono h hblocking⟩
  | syncTeams p =>
    obtain ⟨hsaid, hteams⟩ := hsound
    exact ⟨hsaid, fun team hteam => Context.hasTeam_mono h (hteams team hteam)⟩
  | balanceLoad p => exact fun team hteam => Context.hasTeam_mono h (hsound team hteam)

theorem Payload.Sound.mono (h : ∀ team ∈ context.teams.names, team ∈ larger.teams.names)
    (hsound : payload.Sound context) : payload.Sound larger := by
  induction hsound with
  | single horder => exact .single (horder.mono h)
  | batch hne _ ih => exact .batch hne ih

namespace Validation

theorem ofCommand_valid_iff_errors :
    (ofCommand settings context command).valid = true
      ↔ (ofCommand settings context command).errors = [] := by
  rw [(inStep_ofCommand settings context command).flag, List.isEmpty_iff]

/-- Whether a command is valid is decided by its payload and the known teams. The flag says that there
are no errors, which is when the payload is sound. The settings have no part in the errors, nothing is
suggested without one, and a command stays valid when more teams become known. -/
theorem ofCommand_valid_iff_sound (settings other : Settings) (context : Context)
    (command : Command) :
    let verdict := ofCommand settings context command
    (verdict.valid = true ↔ verdict.errors = []) ∧
    (verdict.valid = true ↔ command.payload.Sound context) ∧
    (ofCommand other context command).errors = verdict.errors ∧
    (verdict.suggestions ≠ [] → verdict.errors ≠ []) ∧
    ∀ larger : Context, (∀ team ∈ context.teams.names, team ∈ larger.teams.names) →
      verdict.valid = true → (ofCommand settings larger command).valid = true := by
  intro verdict
  have hsound : ∀ context, (ofCommand settings context command).valid = true
      ↔ command.payload.Sound context := fun context => by
    rw [ofCommand_valid_iff_errors, ofCommand_errors, Command.faults_eq_nil_iff]
  refine ⟨ofCommand_valid_iff_errors, hsound context, ?_, ?_, fun larger hteams hvalid => ?_⟩
  · rw [ofCommand_errors, ofCommand_errors]
  · exact mt (inStep_ofCommand settings context command).suggested
  · exact (hsound larger).mpr (((hsound context).mp hvalid).mono hteams)

/-- A batch within a batch, under a wrong kind and without any confidence, is valid where its teams are
known, whatever is suggested, and stays so when another team becomes known. -/
theorem ofCommand_valid_iff_sound_of_nested :
    let block := Command.new "block team a on team b" "ada" .epoch
      (.single (.blockTeam ⟨"team-a", "team-b", "completion", none⟩)) .one
    let sync := Command.new "sync team b on release" "ada" .epoch
      (.single (.syncTeams ⟨["team-b"], "release", .custom⟩)) .one
    let command := { Command.ofMembers [block, .ofMembers [sync] "ada" .epoch] "ada" .epoch with
      kind := .waveStart, confidence := .zero }
    let context := (Context.new "acme/platform" 7).withTeams ["Team-A", "team-b"]
    let verdict := ofCommand .default context command
    verdict.valid = true ∧ verdict.warnings.length = 1 ∧ command.payload.Sound context ∧
      (ofCommand { Settings.default with nearMisses := false } context command).errors = [] ∧
      (ofCommand .default (context.withTeams ["team-c"]) command).valid = true := by
  intro block sync command context verdict
  have hvalid : verdict.valid = true := by decide +kernel
  obtain ⟨herrors, hsound, hother, -, hlarger⟩ :=
    ofCommand_valid_iff_sound .default { Settings.default with nearMisses := false } context command
  have hteams : ∀ team ∈ context.teams.names, team ∈ (context.withTeams ["team-c"]).teams.names := by
    decide +kernel
  exact ⟨hvalid, by decide +kernel, hsound.mp hvalid, hother.trans (herrors.mp hvalid),
    hlarger _ hteams hvalid⟩

end Validation

end TeamOrders
