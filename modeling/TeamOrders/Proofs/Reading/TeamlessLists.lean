import TeamOrders.Proofs.Reading.Segment
import TeamOrders.Proofs.Roster.Agreement

/-!
# Lists of teams that name no team

The pattern of lists takes the words that join and introduce items for names as well, and the taking
apart drops them. So a list of such words is a list in which no team is named. A phrase whose list of
teams is one has no meaning, except that the start of a wave is read without looking at the list: it
starts the wave for no teams listed, which is what a start for all teams looks like.
-/

namespace TeamOrders

open Phrase Text Roster

/-! ### Lists that name no team -/

namespace Roster

theorem countBetween_ne_nil (first last : Nat) : countBetween first last ≠ [] := by
  unfold countBetween
  split <;> simp

theorem range?_ne_nil {item : List Char} {numbers : List Nat} (h : range? item = some numbers) :
    numbers ≠ [] := by
  unfold range? at h
  split at h
  · cases h
  · split at h
    · split at h
      · cases h
        exact countBetween_ne_nil _ _
      · cases h
    · cases h

theorem teams_eq_nil_iff_items (s : List Char) : teams s = [] ↔ items teamWords s = [] := by
  rw [teams, List.flatMap_eq_nil_iff]
  constructor
  · intro h
    rw [List.eq_nil_iff_forall_not_mem]
    intro item hitem
    have hnone := h item hitem
    split at hnone
    · rename_i numbers hrange
      exact range?_ne_nil hrange (List.map_eq_nil_iff.mp hnone)
    · cases hnone
  · intro h
    rw [h]
    exact List.forall_mem_nil _

def emptyWords : List (List Char) := connectors ++ teamWords

theorem teams_name_eq_nil_iff {name : List Char} (hne : name ≠ [])
    (hname : ∀ c ∈ name, isNameChar c = true) : teams name = [] ↔ name ∈ emptyWords := by
  have hitem : ∀ c ∈ name, isItemChar c = true := fun c hc => isItemChar_of_isNameChar (hname c hc)
  have hquote : '"' ∉ name := fun hmem => (ne_of_isItemChar (hitem _ hmem)).2 rfl
  have hsign : ∀ c ∈ name.head?, (c == '#') = false := fun c hc =>
    beq_eq_false_iff_ne.mpr fun heq => absurd (hname c (List.mem_of_head? hc)) (by rw [heq]; decide)
  have hbare : bare name = name := by rw [bare_of_no_quote hquote, dropWhile_eq_self hsign]
  have hsmall : name.map Char.toLower = name :=
    (List.map_congr_left fun c hc => toLower_of_isItemChar (hitem c hc)).trans (List.map_id' name)
  have hunbroken : ∀ c ∈ name, separatesItems c = false := fun c hc =>
    not_separatesItems_of_isItemChar (hitem c hc)
  rw [teams_eq_nil_iff_items, items_eq_itemsWithin, itemsWithin_of_unbroken hunbroken, hbare,
    List.filter_eq_nil_iff, List.forall_mem_singleton, keeps, hsmall, emptyWords, List.mem_append]
  simp [hne, or_iff_not_imp_left]

end Roster

namespace WrittenList

theorem isTrimmed (list : WrittenList "team") : IsTrimmed list.chars := by
  have hname : ∀ {c : Char}, isNameChar c = true → isBlank c = false :=
    fun hc => not_isBlank_of_isItemChar (isItemChar_of_isNameChar hc)
  obtain ⟨sign, first, rest, hfirst, hsign, hfirstName⟩ := list.first.exists_first (.inl rfl)
  obtain ⟨front, last, hlast, hlastName⟩ := list.exists_last
  constructor
  · rw [chars, hfirst]
    rcases hsign with rfl | rfl
    · simpa using hname hfirstName
    · exact fun c hc => Option.some.inj hc ▸ rfl
  · rw [hlast]
    simpa using hname hlastName

/-- A list names no team if all its names are words that are dropped, and no ampersand makes another
word of two of them. -/
theorem teams_eq_nil_iff (list : WrittenList "team") :
    teams list.chars = [] ↔ list.IsApart ∧ ∀ name ∈ list.names, name ∈ emptyWords := by
  have hnames : (∀ name ∈ list.names, teams name = []) ↔ ∀ name ∈ list.names, name ∈ emptyWords :=
    forall₂_congr fun _ hname => by
      obtain ⟨item, rfl⟩ := exists_item_of_mem_names hname
      exact teams_name_eq_nil_iff item.nonempty item.named
  by_cases hapart : list.IsApart
  · have hteams : teams list.chars = list.names.flatMap teams :=
      namedBy_of_apart dropsWord_teamWords hapart
    rw [hteams, List.flatMap_eq_nil_iff, hnames, and_iff_right hapart]
  · obtain ⟨id, hid, -⟩ := keepsAmpersand_teams.exists_of_touching (list.isListChar rfl)
      (holdsTouching (.inl rfl) hapart)
    exact iff_of_false (List.ne_nil_of_mem hid) fun h => hapart h.1

end WrittenList

/-! ### Matched lists -/

namespace Phrase

variable {phrase : Phrase} {m : Match} {role : Slot} {segment text : List Char}

def teamRoles : List Slot := [.teams, .blockedTeams, .blockingTeams]

theorem exists_mem_filled_of_get? (h : m.get? role = some text) :
    ∃ whole, (role, whole) ∈ m.filled ∧ trim whole = text := by
  obtain ⟨⟨name, whole⟩, hfind, rfl⟩ := Option.map_eq_some_iff.mp h
  obtain ⟨rfl, -⟩ : name = role ∧ trim whole ≠ [] := by simpa using List.find?_some hfind
  exact ⟨whole, List.mem_of_find?_eq_some hfind, rfl⟩

theorem exists_list_of_get? (hphrase : phrase ∈ table) (hmatch : phrase.match? segment = some m)
    (hrole : role ∈ teamRoles) (h : m.get? role = some text) :
    role ∈ phrase.slots ∧ ∃ list : WrittenList "team", list.chars = text := by
  obtain ⟨whole, hfilled, rfl⟩ := exists_mem_filled_of_get? h
  obtain ⟨body, rest, hbody, hreaches⟩ := exists_body_of_mem_filled hmatch hfilled
  have hlist : body = Phrase.list "team" := by
    have haround := (bodies_of_mem_table phrase hphrase).2 _ hbody
    simp only [teamRoles, List.mem_cons, List.not_mem_nil, or_false] at hrole
    rcases hrole with rfl | rfl | rfl <;> exact haround
  refine ⟨(bodies_of_mem_table phrase hphrase).1 ▸ List.mem_map_of_mem hbody, ?_⟩
  rw [hlist] at hreaches
  obtain ⟨list, hwhole⟩ := WrittenList.reaches_list_iff.mp hreaches
  obtain rfl := List.append_cancel_right hwhole
  exact ⟨list, (trim_eq_self list.isTrimmed).symm⟩

/-- Only blocks have a blocked and a blocking side, and they have no other teams. -/
theorem role_of_mem_table : ∀ phrase ∈ table, ∀ role ∈ phrase.slots, role ∈ teamRoles →
    (role = .teams ↔ phrase.kind ≠ .teamBlock) := by decide

theorem fills_wave (hphrase : phrase ∈ table) (hkind : phrase.kind = .waveStart) :
    phrase.pattern.Fills .wave := by
  have hslot : (Pattern.slot Slot.wave name?).Fills .wave := .inl rfl
  have hmem : phrase ∈ ofKind .waveStart := List.mem_filter.mpr ⟨hphrase, beq_iff_eq.mpr hkind⟩
  have hstarts : ofKind .waveStart = [waveStart, waveStartPostfix] := rfl
  rw [hstarts, List.mem_cons, List.mem_singleton] at hmem
  rcases hmem with rfl | rfl <;> exact Pattern.fills_all (by simp) hslot

theorem exists_get?_wave (hphrase : phrase ∈ table) (hmatch : phrase.match? segment = some m)
    (hkind : phrase.kind = .waveStart) : ∃ wave, m.get? .wave = some wave := by
  obtain ⟨text, hfilled⟩ := exists_mem_filled_of_fills hmatch (fills_wave hphrase hkind)
  obtain ⟨body, rest, hbody, hreaches⟩ := exists_body_of_mem_filled hmatch hfilled
  obtain rfl : body = name? := (bodies_of_mem_table phrase hphrase).2 _ hbody
  obtain ⟨taken, hne, htaken, happend⟩ := Pattern.reaches_run.mp hreaches
  obtain rfl := List.append_cancel_right happend
  have hsaid : trim text ≠ [] := fun hnil => by
    obtain ⟨c, hc⟩ := List.exists_mem_of_ne_nil text hne
    have hblank := trim_eq_nil_iff.mp hnil c hc
    rw [not_isBlank_of_isItemChar (isItemChar_of_isNameChar (htaken c hc))] at hblank
    cases hblank
  rw [← Option.isSome_iff_exists, Match.get?, Option.isSome_map, List.find?_isSome]
  exact ⟨_, hfilled, by simpa using hsaid⟩

end Phrase

/-! ### Orders for no team -/

namespace Meaning

variable {phrase : Phrase} {m : Match} {role : Slot} {segment text : List Char}

theorem teamsIn_eq_nil_iff (h : m.get? role = some text) : teamsIn m role = [] ↔ teams text = [] := by
  rw [teamsIn, textIn, h, Option.getD_some, List.map_eq_nil_iff, List.eq_nil_iff_forall_not_mem,
    List.eq_nil_iff_forall_not_mem]
  simp only [mem_distinct]

/-- No order but the start of a wave can do without the teams in its slots. -/
theorem ofMatch?_eq_none (hphrase : phrase ∈ table) (hslot : role ∈ phrase.slots)
    (hrole : role ∈ teamRoles) (hnone : teamsIn m role = []) (hkind : phrase.kind ≠ .waveStart) :
    ofMatch? phrase.kind m = none := by
  have hteams := role_of_mem_table phrase hphrase role hslot hrole
  cases hk : phrase.kind with
  | waveStart => exact absurd hk hkind
  | batch => rfl
  | teamBlock =>
    have hside : role = .blockedTeams ∨ role = .blockingTeams := by
      simp only [hk, ne_eq, not_true_eq_false, iff_false] at hteams
      simpa [teamRoles, hteams] using hrole
    simp only [ofMatch?, blockingRelation]
    rcases hside with rfl | rfl
    · rw [hnone]
      rfl
    · rw [hnone]
      simp [singleTeam]
  | teamAssign =>
    obtain rfl := hteams.mpr (by simp [hk])
    simp [ofMatch?, teamAssignment, hnone]
  | taskAssign =>
    obtain rfl := hteams.mpr (by simp [hk])
    simp [ofMatch?, taskAssignment, hnone, singleTeam]
  | teamSync =>
    obtain rfl := hteams.mpr (by simp [hk])
    simp [ofMatch?, syncPoint, hnone]
  | loadBalance =>
    obtain rfl := hteams.mpr (by simp [hk])
    simp [ofMatch?, balanceRequest, hnone]

/-- A list of teams names no team exactly if it consists of words that are dropped. Then the phrase has no
meaning, unless it starts a wave: that it starts for the teams of the list, also if there are none. -/
theorem meaning_of_team_list (hphrase : phrase ∈ table) (hmatch : phrase.match? segment = some m)
    (hrole : role ∈ teamRoles) (hheld : m.get? role = some text) :
    (∃ list : WrittenList "team", list.chars = text ∧
      (teams text = [] ↔ list.IsApart ∧ ∀ name ∈ list.names, name ∈ emptyWords)) ∧
    (phrase.kind ≠ .waveStart → teams text = [] → ofMatch? phrase.kind m = none) ∧
    (phrase.kind = .waveStart → ∃ wave started,
      ofMatch? phrase.kind m = some ⟨.startWave ⟨wave, started⟩, []⟩ ∧
        (started = [] ↔ teams text = [])) := by
  obtain ⟨hslot, list, rfl⟩ := exists_list_of_get? hphrase hmatch hrole hheld
  refine ⟨⟨list, rfl, list.teams_eq_nil_iff⟩, fun hkind hnone => ?_, fun hkind => ?_⟩
  · exact ofMatch?_eq_none hphrase hslot hrole ((teamsIn_eq_nil_iff hheld).mpr hnone) hkind
  · obtain rfl : role = .teams :=
      (role_of_mem_table phrase hphrase role hslot hrole).mpr (by simp [hkind])
    obtain ⟨wave, hwave⟩ := exists_get?_wave hphrase hmatch hkind
    refine ⟨unsigned wave, teamsIn m .teams, ?_, teamsIn_eq_nil_iff hheld⟩
    simp [hkind, ofMatch?, waveStart, hwave]

/-- Teams are not brought into step if all that is said of them is `team` and `and`. -/
theorem meaning_of_sync_without_teams :
    ∃ m, teamSyncBare ∈ table ∧ teamSyncBare.match? "sync teams and, team".toList = some m ∧
      m.get? .teams = some "teams and, team".toList ∧ teams "teams and, team".toList = [] ∧
      ofMatch? teamSyncBare.kind m = none := by
  have hphrase : teamSyncBare ∈ table := by simp [table]
  have hfilled : (teamSyncBare.match? "sync teams and, team".toList).map (·.get? .teams)
      = some (some "teams and, team".toList) := by decide +kernel
  obtain ⟨m, hmatch, hheld⟩ := Option.map_eq_some_iff.mp hfilled
  have hnone : teams "teams and, team".toList = [] := by decide +kernel
  obtain ⟨-, hmeaning, -⟩ :=
    meaning_of_team_list hphrase hmatch (List.mem_cons_self : Slot.teams ∈ teamRoles) hheld
  exact ⟨m, hphrase, hmatch, hheld, hnone, hmeaning Kind.noConfusion hnone⟩

/-- A wave that is to start with a team, of which no name is given, starts for all teams. -/
theorem wave_starts_without_teams :
    let segment := "start wave 3 with team".toList
    ∃ m command, Phrase.waveStart ∈ table ∧ Phrase.waveStart.match? segment = some m ∧
      m.get? .teams = some "team".toList ∧ teams "team".toList = [] ∧
      ofMatch? Phrase.waveStart.kind m = some ⟨.startWave ⟨"3", []⟩, []⟩ ∧
      readSegment .default "ada" .epoch segment = .ok (command, []) ∧
      command.payload = .single (.startWave ⟨"3", []⟩) := by
  intro segment
  have hfilled : (Phrase.waveStart.match? segment).map
      (fun m => (m.get? .teams, ofMatch? Phrase.waveStart.kind m))
      = some (some "team".toList, some ⟨.startWave ⟨"3", []⟩, []⟩) := by decide +kernel
  obtain ⟨m, hmatch, hboth⟩ := Option.map_eq_some_iff.mp hfilled
  obtain ⟨hheld, hmeaning⟩ := Prod.mk.inj hboth
  have hcandidates : Candidate.ofSegment segment
      = [⟨.startWave ⟨"3", []⟩, [], baseConfidence .waveStart⟩] := by decide +kernel
  exact ⟨m, _, by simp [table], hmatch, hheld, by decide +kernel, hmeaning,
    readSegment_of_ofSegment_eq_singleton hcandidates .default "ada" .epoch, rfl⟩

end Meaning

end TeamOrders
