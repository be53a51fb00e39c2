import TeamOrders.Proofs.Reading.OneLine
import TeamOrders.Proofs.Spelling.Suggestions
import TeamOrders.Validation

/-!
# Verdicts are on one line

A verdict quotes the order, the text that it was read from, and names of known teams that a misspelt one
may have meant. If none of them holds a line break, no finding does.
-/

namespace TeamOrders

structure Verdict.OnOneLine (verdict : Verdict) : Prop where
  errors : ∀ error ∈ verdict.errors, OneLine error
  warnings : ∀ warning ∈ verdict.warnings, OneLine warning
  suggestions : ∀ suggestion ∈ verdict.suggestions, OneLine suggestion

namespace Verdict

variable {verdict : Verdict} {message : String}

theorem onOneLine_clean : clean.OnOneLine := ⟨nofun, nofun, nofun⟩

theorem OnOneLine.withError (h : verdict.OnOneLine) (hmessage : OneLine message) :
    (verdict.withError message).OnOneLine where
  errors := List.forall_mem_append.mpr ⟨h.errors, List.forall_mem_singleton.mpr hmessage⟩
  warnings := h.warnings
  suggestions := h.suggestions

theorem OnOneLine.withWarning (h : verdict.OnOneLine) (hmessage : OneLine message) :
    (verdict.withWarning message).OnOneLine where
  errors := h.errors
  warnings := List.forall_mem_append.mpr ⟨h.warnings, List.forall_mem_singleton.mpr hmessage⟩
  suggestions := h.suggestions

theorem OnOneLine.withSuggestion (h : verdict.OnOneLine) (hmessage : OneLine message) :
    (verdict.withSuggestion message).OnOneLine where
  errors := h.errors
  warnings := h.warnings
  suggestions := List.forall_mem_append.mpr ⟨h.suggestions, List.forall_mem_singleton.mpr hmessage⟩

end Verdict

namespace Validation

variable {context : Context} {verdict : Verdict}

theorem onOneLine_checkTeam (settings : Settings)
    (known : ∀ name ∈ context.teams.names, OneLine name) (h : verdict.OnOneLine) {team : String} (hteam : OneLine team) :
    (checkTeam settings context verdict team).OnOneLine := by
  have hunknown : (verdict.withError ("Unknown team: " ++ team)).OnOneLine :=
    h.withError (oneLine_append.mpr ⟨by decide, hteam⟩)
  have hclose : ∀ name ∈ (if settings.nearMisses then Spelling.suggest team context.teams.names
      else []), OneLine name := by
    split
    · exact fun name hname => known name (Spelling.mem_of_mem_suggest hname).1
    · exact nofun
  unfold checkTeam
  generalize (if settings.nearMisses then Spelling.suggest team context.teams.names else [])
    = close at hclose ⊢
  dsimp only
  split
  · exact h
  · split
    · exact hunknown
    · refine hunknown.withSuggestion ?_
      have hnames := oneLine_intercalate (by decide : OneLine " or ") hclose
      simp +decide only [oneLine_append, hnames, hteam, and_self]

theorem onOneLine_checkTeams (settings : Settings)
    (known : ∀ name ∈ context.teams.names, OneLine name) (h : verdict.OnOneLine) {teams : List String} (hteams : ∀ team ∈ teams, OneLine team) :
    (checkTeams settings context verdict teams).OnOneLine := by
  unfold checkTeams
  induction teams generalizing verdict with
  | nil => exact h
  | cons team rest ih =>
    obtain ⟨hteam, hrest⟩ := List.forall_mem_cons.mp hteams
    exact ih (onOneLine_checkTeam settings known h hteam) hrest

theorem onOneLine_checkTask (context : Context) (h : verdict.OnOneLine) {task : String}
    (htask : OneLine task) : (checkTask context verdict task).OnOneLine := by
  unfold checkTask
  split
  · exact h
  · refine h.withWarning ?_
    simp +decide only [oneLine_append, htask, and_self]

theorem onOneLine_checkTasks (context : Context) (h : verdict.OnOneLine) {tasks : List String}
    (htasks : ∀ task ∈ tasks, OneLine task) : (checkTasks context verdict tasks).OnOneLine := by
  unfold checkTasks
  induction tasks generalizing verdict with
  | nil => exact h
  | cons task rest ih =>
    obtain ⟨htask, hrest⟩ := List.forall_mem_cons.mp htasks
    exact ih (onOneLine_checkTask context h htask) hrest

theorem onOneLine_ofOrder (settings : Settings) (known : ∀ name ∈ context.teams.names, OneLine name)
    {order : Order} (h : ∀ text ∈ order.texts, OneLine text) :
    (ofOrder settings context order).OnOneLine := by
  have hclean := Verdict.onOneLine_clean
  cases order with
  | startWave p =>
    obtain ⟨hwave, hteams⟩ := List.forall_mem_cons.mp h
    have hchecked := onOneLine_checkTeams settings known hclean hteams
    simp only [ofOrder]
    split
    · refine hchecked.withWarning ?_
      simp +decide only [oneLine_append, hwave, and_self]
    · exact hchecked
  | assignTeams p =>
    obtain ⟨hteams, htasks⟩ := List.forall_mem_append.mp h
    exact onOneLine_checkTasks context (onOneLine_checkTeams settings known hclean hteams) htasks
  | assignTask p =>
    simp only [Order.texts, List.forall_mem_cons] at h
    exact onOneLine_checkTask context (onOneLine_checkTeam settings known hclean h.2.1) h.1
  | blockTeam p =>
    simp only [Order.texts, List.forall_mem_cons] at h
    obtain ⟨hblocked, hblocking, -, -⟩ := h
    simp only [ofOrder]
    split
    · refine onOneLine_checkTeam settings known (hclean.withError ?_) hblocked
      simp +decide only [oneLine_append, hblocked, and_self]
    · exact onOneLine_checkTeam settings known (onOneLine_checkTeam settings known hclean hblocked) hblocking
  | syncTeams p =>
    obtain ⟨-, hteams⟩ := List.forall_mem_cons.mp h
    have hchecked := onOneLine_checkTeams settings known hclean hteams
    simp only [ofOrder]
    split
    · exact hchecked.withError (oneLine_ofList.mpr (by decide))
    · exact hchecked
  | balanceLoad p =>
    have hchecked := onOneLine_checkTeams settings known hclean h
    simp only [ofOrder]
    split
    · refine hchecked.withWarning ?_
      simp +decide only [oneLine_append, oneLine_nat, and_self]
    · exact hchecked

theorem onOneLine_checkConfidence (settings : Settings) (h : verdict.OnOneLine) (confidence : Double)
    {rawText : String} (hrawText : OneLine rawText) :
    (checkConfidence settings confidence rawText verdict).OnOneLine := by
  unfold checkConfidence
  split
  · refine h.withWarning ?_
    simp +decide only [oneLine_append, oneLine_fixed, hrawText, and_self]
  · exact h

theorem onOneLine_ofCommand (settings : Settings)
    (known : ∀ name ∈ context.teams.names, OneLine name) {command : Command}
    (h : command.OnOneLine) : (ofCommand settings context command).OnOneLine := by
  obtain ⟨hrawText, order, hpayload, -, htexts⟩ := h
  obtain ⟨kind, rawText, actor, timestamp, payload, confidence, alternatives⟩ := command
  obtain rfl : payload = .single order := hpayload
  rw [ofCommand, ofPayload]
  exact onOneLine_checkConfidence settings (onOneLine_ofOrder settings known htexts) confidence
    hrawText

end Validation

end TeamOrders
