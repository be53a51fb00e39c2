import TeamOrders.Phrase.Table
import TeamOrders.Proofs.Phrase.Preference
import TeamOrders.Proofs.Text.Trim

/-!
# What slots hold

A match consumes characters that its pattern accepts, and a slot holds what the pattern around which it
stands has consumed. So the text in a slot is a part of the matched text, and the phrases of the table
put nothing but names into slots for names and nothing but lists into slots for lists. The slots of a
phrase are those of its pattern, and a slot on every way through the pattern is filled by every match.
-/

namespace TeamOrders

namespace Pattern

variable {σ : Type} {p : Pattern σ} {P : Char → Prop} {Q : σ → Char → Prop} {s rest : List Char}

/-- The pattern accepts no characters but those with a property. -/
def Within (P : Char → Prop) : Pattern σ → Prop
  | empty => True
  | char accepts | run accepts => ∀ c, accepts c = true → P c
  | seq first second | alt first second => first.Within P ∧ second.Within P
  | star item => item.Within P
  | slot _ body => body.Within P

/-- The slots of a pattern, each with the pattern around which it stands. -/
def bodies : Pattern σ → List (σ × Pattern σ)
  | empty | char _ | run _ => []
  | seq first second | alt first second => first.bodies ++ second.bodies
  | star item => item.bodies
  | slot name body => (name, body) :: body.bodies

/-- Every way through the pattern leads through the slot. -/
def Fills (name : σ) : Pattern σ → Prop
  | empty | char _ | run _ | star _ => False
  | seq first second => first.Fills name ∨ second.Fills name
  | alt first second => first.Fills name ∧ second.Fills name
  | slot role body => role = name ∨ body.Fills name

/-- The pattern puts no characters into a slot but those with the property of that slot. -/
def Keeps (Q : σ → Char → Prop) : Pattern σ → Prop
  | empty | char _ | run _ => True
  | seq first second | alt first second => first.Keeps Q ∧ second.Keeps Q
  | star item => item.Keeps Q
  | slot name body => body.Within (Q name) ∧ body.Keeps Q

/-! ### Consumed characters -/

/-- A match leaves an end of the text, and what it has consumed is accepted by the pattern. -/
theorem exists_taken_of_reaches (hp : p.Within P) (h : Reaches p s rest) :
    ∃ taken, s = taken ++ rest ∧ ∀ c ∈ taken, P c := by
  induction p generalizing s rest with
  | empty =>
    obtain rfl := reaches_empty.mp h
    exact ⟨[], rfl, by simp⟩
  | char accepts =>
    obtain ⟨c, hc, rfl⟩ := reaches_char.mp h
    exact ⟨[c], rfl, by simpa using hp c hc⟩
  | run accepts =>
    obtain ⟨taken, -, htaken, rfl⟩ := reaches_run.mp h
    exact ⟨taken, rfl, fun c hc => hp c (htaken c hc)⟩
  | seq first second ihFirst ihSecond =>
    obtain ⟨mid, hfirst, hsecond⟩ := reaches_seq.mp h
    obtain ⟨a, rfl, ha⟩ := ihFirst hp.1 hfirst
    obtain ⟨b, rfl, hb⟩ := ihSecond hp.2 hsecond
    exact ⟨a ++ b, by simp, List.forall_mem_append.mpr ⟨ha, hb⟩⟩
  | alt first second ihFirst ihSecond =>
    rcases reaches_alt.mp h with h | h
    · exact ihFirst hp.1 h
    · exact ihSecond hp.2 h
  | star item ih =>
    refine invariant_of_reaches_star (fun t => ∃ taken, s = taken ++ t ∧ ∀ c ∈ taken, P c) h
      ⟨[], rfl, by simp⟩ ?_
    rintro t u ⟨a, hs, ha⟩ hstep
    obtain ⟨b, rfl, hb⟩ := ih hp hstep
    exact ⟨a ++ b, by simp [hs], List.forall_mem_append.mpr ⟨ha, hb⟩⟩
  | slot name body ih => exact ih hp (reaches_slot.mp h)

theorem within_true (p : Pattern σ) : p.Within fun _ => True := by
  induction p with
  | empty => trivial
  | char _ | run _ => exact fun _ _ => trivial
  | seq _ _ ihFirst ihSecond | alt _ _ ihFirst ihSecond => exact ⟨ihFirst, ihSecond⟩
  | star _ ih | slot _ _ ih => exact ih

theorem suffix_of_reaches (h : Reaches p s rest) : rest <:+ s := by
  obtain ⟨taken, rfl, -⟩ := exists_taken_of_reaches (within_true p) h
  exact List.suffix_append taken rest

/-! ### Slots on the way -/

variable {name : σ} {span : Span} {reach : Reach σ}

/-- What is put into a slot over several turns, one of the turns has put there. -/
theorem exists_turn_of_mem_slots {item : Pattern σ} (h : reach ∈ (star item).ends s)
    (hslot : (name, span) ∈ reach.slots) :
    ∃ start turn, start <:+ s ∧ turn ∈ item.ends start ∧ (name, span) ∈ turn.slots := by
  rw [ends_star] at h
  generalize s.length = times at h
  induction times generalizing s reach with
  | zero =>
    obtain rfl := List.mem_singleton.mp h
    cases hslot
  | succ times ih =>
    simp only [iterate_succ, List.mem_append, List.mem_flatMap, List.mem_map,
      List.mem_singleton] at h
    rcases h with ⟨a, ha, b, hb, rfl⟩ | rfl
    · rcases List.mem_append.mp hslot with hslot | hslot
      · exact ⟨s, a, List.suffix_rfl, ha, hslot⟩
      · obtain ⟨start, turn, hsuffix, hturn, hslot⟩ := ih hslot hb
        exact ⟨start, turn, hsuffix.trans (suffix_of_reaches ⟨a.slots, ha⟩), hturn, hslot⟩
    · cases hslot

/-- What a match puts into a slot stands in the text, and a pattern around which the slot stands has
matched it there. -/
theorem exists_body_of_mem_slots (h : reach ∈ p.ends s) (hslot : (name, span) ∈ reach.slots) :
    span.start <:+ s ∧ ∃ body, (name, body) ∈ p.bodies ∧ Reaches body span.start span.stop := by
  induction p generalizing s reach with
  | empty =>
    obtain rfl := List.mem_singleton.mp h
    cases hslot
  | char accepts =>
    cases s with
    | nil => cases h
    | cons c s =>
      rw [ends_char_cons] at h
      split at h
      · obtain rfl := List.mem_singleton.mp h
        cases hslot
      · cases h
  | run accepts =>
    obtain ⟨t, -, rfl⟩ := List.mem_map.mp h
    cases hslot
  | seq first second ihFirst ihSecond =>
    simp only [ends_seq, List.mem_flatMap, List.mem_map] at h
    obtain ⟨a, ha, b, hb, rfl⟩ := h
    rcases List.mem_append.mp hslot with hslot | hslot
    · obtain ⟨hsuffix, body, hbody, hreaches⟩ := ihFirst ha hslot
      exact ⟨hsuffix, body, List.mem_append_left _ hbody, hreaches⟩
    · obtain ⟨hsuffix, body, hbody, hreaches⟩ := ihSecond hb hslot
      exact ⟨hsuffix.trans (suffix_of_reaches ⟨a.slots, ha⟩), body, List.mem_append_right _ hbody,
        hreaches⟩
  | alt first second ihFirst ihSecond =>
    rcases List.mem_append.mp h with h | h
    · obtain ⟨hsuffix, body, hbody, hreaches⟩ := ihFirst h hslot
      exact ⟨hsuffix, body, List.mem_append_left _ hbody, hreaches⟩
    · obtain ⟨hsuffix, body, hbody, hreaches⟩ := ihSecond h hslot
      exact ⟨hsuffix, body, List.mem_append_right _ hbody, hreaches⟩
  | star item ih =>
    obtain ⟨start, turn, hsuffix, hturn, hslot⟩ := exists_turn_of_mem_slots h hslot
    exact (ih hturn hslot).imp_left (·.trans hsuffix)
  | slot role body ih =>
    obtain ⟨a, ha, rfl⟩ := List.mem_map.mp h
    rcases List.mem_cons.mp hslot with heq | hslot
    · obtain ⟨rfl, rfl⟩ := Prod.mk.inj heq
      exact ⟨List.suffix_rfl, body, List.mem_cons_self, a.slots, ha⟩
    · obtain ⟨hsuffix, inner, hinner, hreaches⟩ := ih ha hslot
      exact ⟨hsuffix, inner, List.mem_cons_of_mem _ hinner, hreaches⟩

theorem keeps_iff : p.Keeps Q ↔ ∀ slot ∈ p.bodies, slot.2.Within (Q slot.1) := by
  induction p with
  | empty | char _ | run _ => exact iff_of_true trivial (List.forall_mem_nil _)
  | seq first second ihFirst ihSecond | alt first second ihFirst ihSecond =>
    exact (and_congr ihFirst ihSecond).trans List.forall_mem_append.symm
  | star item ih => exact ih
  | slot role body ih =>
    rw [bodies, List.forall_mem_cons, ← ih]
    rfl

theorem holds_of_mem_slots (hp : p.Keeps Q) (h : reach ∈ p.ends s)
    (hslot : (name, span) ∈ reach.slots) : ∀ c ∈ span.text, c ∈ s ∧ Q name c := by
  obtain ⟨start, stop⟩ := span
  obtain ⟨hsuffix, body, hbody, hreaches⟩ := exists_body_of_mem_slots h hslot
  dsimp only at hsuffix hreaches
  obtain ⟨taken, rfl, hall⟩ := exists_taken_of_reaches (keeps_iff.mp hp _ hbody) hreaches
  rw [Span.text_append]
  exact fun c hc => ⟨hsuffix.subset (List.mem_append_left stop hc), hall c hc⟩

theorem exists_span_of_fills (hp : p.Fills name) (h : reach ∈ p.ends s) :
    ∃ span, (name, span) ∈ reach.slots := by
  induction p generalizing s reach with
  | empty | char _ | run _ | star _ _ => exact hp.elim
  | seq first second ihFirst ihSecond =>
    simp only [ends_seq, List.mem_flatMap, List.mem_map] at h
    obtain ⟨a, ha, b, hb, rfl⟩ := h
    rcases hp with hp | hp
    · exact (ihFirst hp ha).imp fun span => List.mem_append_left _
    · exact (ihSecond hp hb).imp fun span => List.mem_append_right _
  | alt first second ihFirst ihSecond =>
    rcases List.mem_append.mp h with h | h
    · exact ihFirst hp.1 h
    · exact ihSecond hp.2 h
  | slot role body ih =>
    obtain ⟨a, ha, rfl⟩ := List.mem_map.mp h
    rcases hp with rfl | hp
    · exact ⟨_, List.mem_cons_self⟩
    · exact (ih hp ha).imp fun span => List.mem_cons_of_mem _

/-! ### Patterns built from others -/

theorem within_letters {word : List Char} (h : ∀ c ∈ word, P c) :
    (letters word : Pattern σ).Within P := by
  induction word with
  | nil => trivial
  | cons c word ih =>
    refine ⟨fun d hd => ?_, ih fun d hd => h d (List.mem_cons_of_mem c hd)⟩
    obtain rfl : d = c := by simpa using hd
    exact h d List.mem_cons_self

theorem within_optional (h : p.Within P) : (Pattern.optional p).Within P := ⟨h, trivial⟩

@[simp] theorem bodies_letters (word : List Char) : (letters word : Pattern σ).bodies = [] := by
  induction word with
  | nil => rfl
  | cons c word ih => exact ih

@[simp] theorem bodies_word (w : String) : (word w : Pattern σ).bodies = [] := bodies_letters w.toList

@[simp] theorem bodies_optional : (Pattern.optional p).bodies = p.bodies := List.append_nil _

@[simp] theorem bodies_run (accepts : Char → Bool) : (run accepts : Pattern σ).bodies = [] := rfl

@[simp] theorem bodies_char (accepts : Char → Bool) : (char accepts : Pattern σ).bodies = [] := rfl

@[simp] theorem bodies_star (p : Pattern σ) : (star p).bodies = p.bodies := rfl

@[simp] theorem bodies_slot (name : σ) (p : Pattern σ) :
    (slot name p).bodies = (name, p) :: p.bodies := rfl

@[simp] theorem bodies_blanks : (blanks : Pattern σ).bodies = [] := rfl

@[simp] theorem bodies_space : (space : Pattern σ).bodies = [] := rfl

/-- Patterns that are joined one by one have their bodies one behind the other. -/
theorem bodies_of_joined {join : List (Pattern σ) → Pattern σ} (hnil : (join []).bodies = [])
    (hone : ∀ p, join [p] = p)
    (hcons : ∀ p q patterns,
      (join (p :: q :: patterns)).bodies = p.bodies ++ (join (q :: patterns)).bodies)
    (patterns : List (Pattern σ)) : (join patterns).bodies = patterns.flatMap bodies := by
  induction patterns with
  | nil => exact hnil
  | cons p patterns ih =>
    cases patterns with
    | nil => rw [hone, List.flatMap_singleton]
    | cons q patterns => rw [hcons, ih, ← List.flatMap_cons]

@[simp] theorem bodies_all (patterns : List (Pattern σ)) :
    (Pattern.all patterns).bodies = patterns.flatMap bodies :=
  bodies_of_joined rfl (fun _ => rfl) (fun _ _ _ => rfl) patterns

@[simp] theorem bodies_choice (patterns : List (Pattern σ)) :
    (choice patterns).bodies = patterns.flatMap bodies :=
  bodies_of_joined rfl (fun _ => rfl) (fun _ _ _ => rfl) patterns

@[simp] theorem bodies_oneOf (words : List String) : (oneOf words : Pattern σ).bodies = [] := by
  simp [oneOf, List.flatMap_eq_nil_iff]

theorem fills_all {patterns : List (Pattern σ)} (hmem : p ∈ patterns) (hp : p.Fills name) :
    (Pattern.all patterns).Fills name := by
  induction patterns with
  | nil => cases hmem
  | cons first patterns ih =>
    cases patterns with
    | nil => exact List.mem_singleton.mp hmem ▸ hp
    | cons second patterns =>
      rcases List.mem_cons.mp hmem with rfl | hmem
      · exact .inl hp
      · exact .inr (ih hmem)

end Pattern

namespace Phrase

open Pattern

def isListChar (c : Char) : Bool :=
  isNameChar c || Text.isBlank c || c == '#' || c == ',' || c == '&'

def HoldsIn (role : Slot) (c : Char) : Prop :=
  match role with
  | .wave | .task => isNameChar c = true
  | .teams | .blockedTeams | .blockingTeams | .tasks => isListChar c = true
  | .maxPerTeam => Text.isDigit c = true
  | _ => True

/-! ### Lists -/

theorem within_introduced {w : String} (h : ∀ c ∈ w.toList, isListChar c = true) :
    (introduced w).Within fun c => isListChar c = true := by
  have hblanks : ∀ c, Text.isBlank c = true → isListChar c = true := fun c hc => by
    simp [isListChar, hc]
  exact within_optional
    ⟨⟨within_letters h, within_optional (within_letters (List.all_eq_true.mp rfl))⟩, hblanks⟩

theorem within_list {w : String} (h : ∀ c ∈ w.toList, isListChar c = true) :
    (list w).Within fun c => isListChar c = true := by
  have hblanks : (blanks : Pattern Slot).Within fun c => isListChar c = true := fun c hc => by
    simp [isListChar, hc]
  have hname : name?.Within fun c => isListChar c = true := fun c hc => by
    simp [isListChar, hc]
  have hword : ∀ w : String, w.toList.all isListChar = true →
      (word w : Pattern Slot).Within fun c => isListChar c = true :=
    fun w hw => within_letters (List.all_eq_true.mp hw)
  have hspace := within_optional hblanks
  have hitem : (item w).Within fun c => isListChar c = true :=
    ⟨within_introduced h, within_optional (hword "#" rfl), hname⟩
  exact ⟨hitem, ⟨⟨hspace, hword "," rfl, hspace⟩, ⟨hspace, hword "&" rfl, hspace⟩,
    hblanks, hword "and" rfl, hblanks⟩, hitem⟩

/-! ### The table -/

@[simp] theorem bodies_oneOrMany (w : String) : (oneOrMany w).bodies = [] := by simp [oneOrMany]

@[simp] theorem bodies_introduced (w : String) : (introduced w).bodies = [] := by simp [introduced]

@[simp] theorem bodies_name : name?.bodies = [] := rfl

@[simp] theorem bodies_list (w : String) : (list w).bodies = [] := by
  simp [list, item, listSeparator, numberSign]

/-- What stands around the slots of a role. -/
def StandsAround (role : Slot) (body : Pattern Slot) : Prop :=
  match role with
  | .teams | .blockedTeams | .blockingTeams => body = list "team"
  | .tasks => body = list "task"
  | .wave | .task => body = name?
  | .maxPerTeam => body = run Text.isDigit
  | _ => True

/-- The declared slots of a phrase are those of its pattern, in their order, and stand around what their
roles ask for. -/
theorem bodies_of_mem_table : ∀ phrase ∈ table,
    phrase.pattern.bodies.map Prod.fst = phrase.slots ∧
      ∀ slot ∈ phrase.pattern.bodies, StandsAround slot.1 slot.2 := by
  simp only [table, List.forall_mem_cons]
  simp [waveStart, waveStartPostfix, teamAssign, teamAssignInverse, taskReassign, taskTakeover,
    teamBlock, teamBlockRelation, teamSync, teamSyncBare, loadBalance, loadBalanceLevel, waveTeams,
    teamList, taskList, oneTask, priorityClause, conditionClause, strategyClause, maxClause, article,
    loadWords, syncWords, numberSign, joint, restOfLine, StandsAround]

theorem within_of_standsAround {role : Slot} {body : Pattern Slot} (h : StandsAround role body) :
    body.Within (HoldsIn role) := by
  have hlist : ∀ w : String, w.toList.all isListChar = true →
      (list w).Within fun c => isListChar c = true := fun w hw => within_list (List.all_eq_true.mp hw)
  cases role with
  | teams | blockedTeams | blockingTeams | tasks =>
    obtain rfl := h
    exact hlist _ rfl
  | wave | task | maxPerTeam =>
    obtain rfl := h
    exact fun c hc => hc
  | priority | connector | condition | strategy => exact within_true body

theorem keeps_of_mem_table : ∀ phrase ∈ table, phrase.pattern.Keeps HoldsIn :=
  fun phrase hphrase => keeps_iff.mpr fun slot hslot =>
    within_of_standsAround ((bodies_of_mem_table phrase hphrase).2 slot hslot)

/-! ### Matches -/

variable {phrase : Phrase} {m : Match} {role : Slot} {s text : List Char}

/-- What a match puts into a role, a pattern has matched that stands around it in the phrase. -/
theorem exists_body_of_mem_filled (hmatch : phrase.match? s = some m) (h : (role, text) ∈ m.filled) :
    ∃ body rest, (role, body) ∈ phrase.pattern.bodies ∧ Reaches body (text ++ rest) rest := by
  obtain ⟨slots, hslots, rfl⟩ := Option.map_eq_some_iff.mp hmatch
  obtain ⟨⟨name, start, stop⟩, hspan, heq⟩ := List.mem_map.mp h
  obtain ⟨rfl, rfl⟩ := Prod.mk.inj heq
  obtain ⟨reach, hreach, rfl⟩ := Option.map_eq_some_iff.mp hslots
  obtain ⟨-, body, hbody, hreaches⟩ :=
    exists_body_of_mem_slots (List.mem_of_find?_eq_some hreach) hspan
  dsimp only at hreaches
  obtain ⟨taken, rfl⟩ := suffix_of_reaches hreaches
  exact ⟨body, stop, hbody, by rwa [Span.text_append]⟩

theorem exists_mem_filled_of_fills (hmatch : phrase.match? s = some m)
    (h : phrase.pattern.Fills role) : ∃ text, (role, text) ∈ m.filled := by
  obtain ⟨slots, hslots, rfl⟩ := Option.map_eq_some_iff.mp hmatch
  obtain ⟨reach, hreach, rfl⟩ := Option.map_eq_some_iff.mp hslots
  obtain ⟨span, hspan⟩ := exists_span_of_fills h (List.mem_of_find?_eq_some hreach)
  exact ⟨span.text, List.mem_map_of_mem hspan⟩

theorem match?_eq_none (h : ¬ Reaches phrase.pattern s []) : phrase.match? s = none := by
  rw [match?, fullMatch?_eq_none h]
  rfl

theorem reaches_of_match? (h : phrase.match? s = some m) : Reaches phrase.pattern s [] := by
  by_contra hnot
  rw [match?_eq_none hnot] at h
  cases h

theorem holds_of_mem_filled (hphrase : phrase ∈ table) (hmatch : phrase.match? s = some m)
    (h : (role, text) ∈ m.filled) : ∀ c ∈ text, c ∈ s ∧ HoldsIn role c := by
  obtain ⟨slots, hslots, rfl⟩ := Option.map_eq_some_iff.mp hmatch
  obtain ⟨⟨name, span⟩, hspan, heq⟩ := List.mem_map.mp h
  obtain ⟨rfl, rfl⟩ := Prod.mk.inj heq
  obtain ⟨reach, hreach, rfl⟩ := Option.map_eq_some_iff.mp hslots
  exact holds_of_mem_slots (keeps_of_mem_table phrase hphrase) (List.mem_of_find?_eq_some hreach)
    hspan

/-- The text in a slot is not blank, it stands in the matched text, and the slot may hold it. -/
theorem holds_of_get? (hphrase : phrase ∈ table) (hmatch : phrase.match? s = some m)
    (h : m.get? role = some text) : text ≠ [] ∧ ∀ c ∈ text, c ∈ s ∧ HoldsIn role c := by
  obtain ⟨⟨name, whole⟩, hfind, rfl⟩ := Option.map_eq_some_iff.mp h
  obtain ⟨rfl, hblank⟩ : name = role ∧ Text.trim whole ≠ [] := by simpa using List.find?_some hfind
  refine ⟨hblank, fun c hc => ?_⟩
  exact holds_of_mem_filled hphrase hmatch (List.mem_of_find?_eq_some hfind) c
    ((Text.trimBy_isInfix _ whole).subset hc)

end Phrase

end TeamOrders
