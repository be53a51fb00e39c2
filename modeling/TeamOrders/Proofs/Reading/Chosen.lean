import TeamOrders.Proofs.Reading.Choices

/-!
# The chosen command and its alternatives

The candidates for a segment are commands in the order of the phrases. The first of the surest is
chosen. The alternatives are found among the candidates again, each with its place, by one cut through
the ranking: what stands before the cut is listed, and what stands behind it is no surer than anything
listed. An order that is left out because it was met before is as sure as where it was met, so that
leaving it out loses nothing.
-/

namespace TeamOrders

theorem Settings.position_threshold {settings : Settings} (accepted : settings.check = .ok ()) :
    settings.threshold.position.isSome = true := by
  obtain ⟨i, j, -, hj, -⟩ := Double.atMost_iff.mp (Settings.check_eq_ok_iff.mp accepted).1.1
  rw [hj]
  rfl

theorem Meaning.clamp_baseConfidence (kind : Kind) :
    (baseConfidence kind).clamp .zero .one = baseConfidence kind := by
  cases kind <;> decide +kernel

namespace Candidate

variable {settings : Settings} {chosen candidate : Candidate} {candidates others : List Candidate}

theorem Regular.position (h : candidate.Regular) : candidate.confidence.position.isSome = true := by
  rw [h]
  exact Meaning.position_baseConfidence _

theorem Regular.confidence_toCommand (h : candidate.Regular) (text actor : String)
    (now : Timestamp) :
    (candidate.toCommand text actor now).confidence = candidate.confidence := by
  rw [toCommand, Command.new, h, Meaning.clamp_baseConfidence]

/-- What is surer than all before it, and no less sure than all behind it, is a surest one. -/
theorem atMost_of_split {earlier later : List Candidate} (regular : chosen.Regular)
    (hearlier : ∀ candidate ∈ earlier, candidate.confidence.below chosen.confidence = true)
    (hlater : ∀ candidate ∈ later, candidate.confidence.atMost chosen.confidence = true) :
    ∀ candidate ∈ earlier ++ chosen :: later,
      candidate.confidence.atMost chosen.confidence = true := by
  intro candidate hcandidate
  rw [List.mem_append, List.mem_cons] at hcandidate
  obtain hbefore | rfl | hbehind := hcandidate
  · exact Double.atMost_of_below (hearlier candidate hbefore)
  · obtain ⟨i, hi⟩ := Option.isSome_iff_exists.mp regular.position
    exact Double.atMost_iff.mpr ⟨i, i, hi, hi, Int.le_refl i⟩
  · exact hlater candidate hbehind

/-- What is chosen is surer than what stands before it, and no less sure than what stands behind. -/
theorem exists_split_of_choose (regular : ∀ candidate ∈ candidates, candidate.Regular)
    (h : choose candidates = some (chosen, others)) :
    ∃ earlier later, candidates = earlier ++ chosen :: later ∧ others = earlier ++ later ∧
      (∀ candidate ∈ earlier, candidate.confidence.below chosen.confidence = true) ∧
      ∀ candidate ∈ later, candidate.confidence.atMost chosen.confidence = true := by
  induction candidates generalizing chosen others with
  | nil => cases h
  | cons first rest ih =>
    obtain ⟨hfirst, hrest⟩ := List.forall_mem_cons.mp regular
    simp only [choose] at h
    split at h
    · rename_i hnone
      cases h
      exact ⟨[], [], by rw [choose_eq_none_iff.mp hnone]; rfl, rfl, by simp, by simp⟩
    · rename_i best others' hsome
      obtain ⟨earlier, later, hsplit, hothers, hearlier, hlater⟩ := ih hrest hsome
      have hbest : best ∈ rest := by simp [hsplit]
      split at h
      · rename_i hbelow
        cases h
        exact ⟨first :: earlier, later, by rw [hsplit]; rfl, by rw [hothers]; rfl,
          List.forall_mem_cons.mpr ⟨hbelow, hearlier⟩, hlater⟩
      · rename_i hnot
        cases h
        rw [Double.below_eq_not_atMost hfirst.position (hrest best hbest).position,
          Bool.not_eq_true', Bool.not_eq_false] at hnot
        refine ⟨[], rest, rfl, rfl, by simp, fun candidate hcandidate => ?_⟩
        rw [hsplit] at hcandidate
        exact Double.atMost_trans
          (atMost_of_split (hrest best hbest) hearlier hlater candidate hcandidate) hnot

/-! ### Orders that are new -/

theorem order_notMem_of_mem_withNewOrders {known : List Order}
    (h : candidate ∈ withNewOrders known candidates) : candidate.order ∉ known := by
  induction candidates generalizing known with
  | nil => cases h
  | cons first rest ih =>
    unfold withNewOrders at h
    split at h
    · exact ih h
    · rename_i hnew
      obtain rfl | h := List.mem_cons.mp h
      · exact hnew
      · exact fun hknown => ih h (List.mem_cons_of_mem first.order hknown)

theorem nodup_orders_withNewOrders (known : List Order) (candidates : List Candidate) :
    ((withNewOrders known candidates).map (·.order)).Nodup := by
  induction candidates generalizing known with
  | nil => exact List.nodup_nil
  | cons first rest ih =>
    unfold withNewOrders
    split
    · exact ih known
    · rw [List.map_cons, List.nodup_cons]
      refine ⟨fun hmem => ?_, ih _⟩
      obtain ⟨candidate, hcandidate, horder⟩ := List.mem_map.mp hmem
      exact order_notMem_of_mem_withNewOrders hcandidate (horder ▸ List.mem_cons_self)

/-- A new order is met, if not here, then before. -/
theorem exists_mem_withNewOrders {known : List Order} (h : candidate ∈ candidates)
    (new : candidate.order ∉ known) :
    ∃ met ∈ withNewOrders known candidates, met.order = candidate.order := by
  induction candidates generalizing known with
  | nil => cases h
  | cons first rest ih =>
    unfold withNewOrders
    split
    · rename_i hknown
      obtain rfl | h := List.mem_cons.mp h
      · exact absurd hknown new
      · exact ih h new
    · by_cases hsame : candidate.order = first.order
      · exact ⟨first, List.mem_cons_self, hsame.symm⟩
      · have hrest : candidate ∈ rest := by
          obtain rfl | h := List.mem_cons.mp h
          · exact absurd rfl hsame
          · exact h
        have hnew : candidate.order ∉ first.order :: known := by simp [hsame, new]
        obtain ⟨met, hmet, horder⟩ := ih hrest hnew
        exact ⟨met, List.mem_cons_of_mem first hmet, horder⟩

/-! ### The ranking and where it is cut -/

theorem perm_ranking (chosen : Candidate) (others : List Candidate) :
    (ranking chosen others).Perm (withNewOrders [chosen.order] others) :=
  List.mergeSort_perm _ _

theorem alternatives_sublist_ranking (regular : ∀ candidate ∈ others, candidate.Regular) :
    (alternatives settings chosen others).Sublist (ranking chosen others) := by
  rw [alternatives_eq regular]
  exact (List.take_sublist _ _).trans List.filter_sublist

/-- The ranking with the places that its candidates have among all: equally sure ones keep the order of
their places. -/
theorem exists_placed_ranking (regular : ∀ candidate ∈ others, candidate.Regular)
    (among : others.Sublist candidates) :
    ∃ placed : List (Candidate × Nat), placed.map Prod.fst = ranking chosen others ∧
      (∀ entry ∈ placed, entry ∈ candidates.zipIdx) ∧
      placed.Pairwise fun a b =>
        before a.1 b.1 = true ∧ (before b.1 a.1 = true → a.2 < b.2) := by
  have hnew : (withNewOrders [chosen.order] others).Sublist (candidates.zipIdx.map Prod.fst) := by
    rw [List.zipIdx_map_fst]
    exact (withNewOrders_sublist _ others).trans among
  obtain ⟨entries, hentries, hmap⟩ := List.sublist_map_iff.mp hnew
  have hplaces : entries.Pairwise fun a b => a.2 < b.2 := by
    have hrange : (candidates.zipIdx.map Prod.snd).Pairwise (· < ·) := by
      rw [List.zipIdx_map_snd]
      exact List.pairwise_lt_range'
    exact (List.pairwise_map.mp hrange).sublist hentries
  have hregular := regular_withNewOrders regular [chosen.order]
  have hentry : ∀ entry ∈ entries, entry.1.Regular := fun entry h =>
    hregular entry.1 (hmap ▸ List.mem_map_of_mem h)
  have hperm := List.mergeSort_perm entries fun a b => ranksBefore a.1 b.1
  refine ⟨entries.mergeSort fun a b => ranksBefore a.1 b.1, ?_, ?_, ?_⟩
  · rw [ranking, mergeSort_before hregular, hmap]
    exact List.map_mergeSort fun _ _ _ _ => rfl
  · exact fun entry h => hentries.subset (hperm.subset h)
  · have hstable := pairwise_mergeSort_stable (fun a b c => ranksBefore_trans a.1 b.1 c.1)
      (fun a b => ranksBefore_total a.1 b.1) hplaces
    refine hstable.imp_of_mem fun {a b} ha hb hab => ?_
    have hra := hentry a (hperm.subset ha)
    have hrb := hentry b (hperm.subset hb)
    rwa [before_eq_ranksBefore hra hrb, before_eq_ranksBefore hrb hra]

theorem nodup_orders_alternatives (regular : ∀ candidate ∈ others, candidate.Regular) :
    (chosen.order :: (alternatives settings chosen others).map (·.order)).Nodup := by
  have hsub : (alternatives settings chosen others).Sublist (ranking chosen others) :=
    alternatives_sublist_ranking regular
  have hperm := perm_ranking chosen others
  rw [List.nodup_cons]
  refine ⟨fun hmem => ?_, ?_⟩
  · obtain ⟨candidate, hcandidate, horder⟩ := List.mem_map.mp hmem
    exact order_notMem_of_mem_withNewOrders (hperm.subset (hsub.subset hcandidate))
      (horder ▸ List.mem_cons_self)
  · exact (hsub.map _).nodup
      ((hperm.map _).nodup_iff.mpr (nodup_orders_withNewOrders [chosen.order] others))

theorem isSure_of_mem_alternatives (h : candidate ∈ alternatives settings chosen others)
    (regular : ∀ candidate ∈ others, candidate.Regular) : isSure settings candidate = true := by
  rw [alternatives_eq regular] at h
  exact (List.mem_filter.mp ((List.take_sublist _ _).subset h)).2

/-- A sure candidate that means something else is listed, or what is listed is as many as are wanted and
no less sure. -/
theorem listed_or_full (regular : ∀ candidate ∈ others, candidate.Regular)
    (h : candidate ∈ others) (sure : isSure settings candidate = true)
    (new : candidate.order ≠ chosen.order) :
    candidate.order ∈ (alternatives settings chosen others).map (·.order) ∨
      (alternatives settings chosen others).length = settings.maxAlternatives ∧
        ∀ alternative ∈ alternatives settings chosen others,
          candidate.confidence.atMost alternative.confidence = true := by
  have hnew : candidate.order ∉ [chosen.order] := by simpa using new
  obtain ⟨met, hmet, horder⟩ := exists_mem_withNewOrders h hnew
  have hsame : met.confidence = candidate.confidence := by
    rw [regular_withNewOrders regular _ met hmet, regular candidate h, horder]
  have hcut : met ∈ (ranking chosen others).filter (isSure settings) := by
    refine List.mem_filter.mpr ⟨(perm_ranking chosen others).mem_iff.mpr hmet, ?_⟩
    rwa [isSure, hsame]
  have hsorted : ((ranking chosen others).filter (isSure settings)).Pairwise
      fun a b => before a b = true := (pairwise_ranking regular).filter (isSure settings)
  rw [alternatives_eq regular]
  generalize (ranking chosen others).filter (isSure settings) = cut at hcut hsorted
  rw [← List.take_append_drop settings.maxAlternatives cut] at hcut hsorted
  obtain hlisted | hbehind := List.mem_append.mp hcut
  · exact .inl (List.mem_map.mpr ⟨met, hlisted, horder⟩)
  · refine .inr ⟨?_, fun alternative halternative => ?_⟩
    · have hlength := List.length_pos_of_mem hbehind
      rw [List.length_drop] at hlength
      rw [List.length_take]
      omega
    · rw [← hsame]
      exact (List.pairwise_append.mp hsorted).2.2 alternative halternative met hbehind

end Candidate

/-- The commands that a segment may mean, in the order of the phrases. -/
def Reading.candidates (actor : String) (now : Timestamp) (segment : List Char) : List Command :=
  (Candidate.ofSegment segment).map (Candidate.toCommand (String.ofList segment) actor now)

/-- Of two commands with their places, the first is surer, or as sure and placed before. -/
def Command.PlacedBefore (a b : Command × Nat) : Prop :=
  b.1.confidence.atMost a.1.confidence = true ∧
    (a.1.confidence.atMost b.1.confidence = true → a.2 < b.2)

/-- The command is the first of the surest candidates. Its alternatives are the surest of the sure
candidates that mean something else, as many as are wanted. -/
structure Command.ChosenFrom (settings : Settings) (candidates : List Command) (command : Command) :
    Prop where
  first : ∃ earlier later, candidates = earlier ++ command.alone :: later ∧
    ∀ candidate ∈ earlier, candidate.confidence.below command.confidence = true
  surest : ∀ candidate ∈ candidates, candidate.confidence.atMost command.confidence = true
  ranked : ∃ listed : List (Command × Nat), listed.map Prod.fst = command.alternatives ∧
    (∀ entry ∈ listed, entry ∈ candidates.zipIdx) ∧ listed.Pairwise PlacedBefore
  few : command.alternatives.length ≤ settings.maxAlternatives
  sure : ∀ alternative ∈ command.alternatives,
    settings.threshold.below alternative.confidence = true
  different : (command.payload :: command.alternatives.map (·.payload)).Nodup
  complete : ∀ candidate ∈ candidates, settings.threshold.below candidate.confidence = true →
    candidate.payload ≠ command.payload →
    candidate.payload ∈ command.alternatives.map (·.payload) ∨
      command.alternatives.length = settings.maxAlternatives ∧
        ∀ alternative ∈ command.alternatives,
          candidate.confidence.atMost alternative.confidence = true

namespace Choice

variable {settings : Settings} {actor : String} {now : Timestamp} {segment : List Char}
  {chosen candidate : Candidate} {others : List Candidate}

theorem confidence_of_mem_ofSegment (h : candidate ∈ Candidate.ofSegment segment)
    (text actor : String) (now : Timestamp) :
    (candidate.toCommand text actor now).confidence = candidate.confidence :=
  (Candidate.regular_of_mem_ofSegment h).confidence_toCommand text actor now

/-- For an accepted threshold, to be sure enough is to lie above the threshold. -/
theorem below_eq_isSure (accepted : settings.check = .ok ()) (regular : candidate.Regular) :
    settings.threshold.below candidate.confidence = Candidate.isSure settings candidate :=
  Double.below_eq_not_atMost (Settings.position_threshold accepted) regular.position

section

variable (h : Candidate.choose (Candidate.ofSegment segment) = some (chosen, others))

include h

theorem sublist_of_choose : others.Sublist (Candidate.ofSegment segment) := by
  obtain ⟨earlier, later, hsplit, rfl, -⟩ :=
    Candidate.exists_split_of_choose (fun _ => Candidate.regular_of_mem_ofSegment) h
  rw [hsplit]
  exact (List.Sublist.refl earlier).append (List.sublist_cons_self chosen later)

theorem mem_ofSegment_of_mem_alternatives
    (hkept : candidate ∈ Candidate.alternatives settings chosen others) :
    candidate ∈ Candidate.ofSegment segment :=
  (sublist_of_choose h).subset (Candidate.mem_of_mem_alternatives hkept)

theorem exists_placed_alternatives :
    ∃ listed : List (Command × Nat),
      listed.map Prod.fst = (command settings actor now ⟨segment, chosen, others⟩).alternatives ∧
      (∀ entry ∈ listed, entry ∈ (Reading.candidates actor now segment).zipIdx) ∧
      listed.Pairwise Command.PlacedBefore := by
  have regular := Candidate.regular_of_choose h
  obtain ⟨placed, hmap, hplaced, hranked⟩ :
      ∃ placed : List (Candidate × Nat), placed.map Prod.fst = Candidate.ranking chosen others ∧ _ :=
    Candidate.exists_placed_ranking regular (sublist_of_choose h)
  have hsub : (Candidate.alternatives settings chosen others).Sublist (placed.map Prod.fst) :=
    hmap ▸ Candidate.alternatives_sublist_ranking regular
  obtain ⟨listed, hlisted, hmap⟩ := List.sublist_map_iff.mp hsub
  let toCommand := Candidate.toCommand (String.ofList segment) actor now
  have hsure : ∀ entry ∈ listed, (toCommand entry.1).confidence = entry.1.confidence := by
    intro entry hentry
    apply confidence_of_mem_ofSegment
    apply mem_ofSegment_of_mem_alternatives h
    exact hmap ▸ List.mem_map_of_mem hentry
  refine ⟨listed.map (Prod.map toCommand id), ?_, ?_, ?_⟩
  · rw [command, hmap, List.map_map, List.map_map]
    rfl
  · rw [List.forall_mem_map, Reading.candidates, List.zipIdx_map]
    exact fun entry hentry => List.mem_map_of_mem (hplaced entry (hlisted.subset hentry))
  · rw [List.pairwise_map]
    refine (hranked.sublist hlisted).imp_of_mem fun {a b} ha hb hab => ?_
    rw [Command.PlacedBefore, Prod.map_fst, Prod.map_fst, hsure a ha, hsure b hb]
    exact hab

theorem nodup_payloads :
    (Payload.single chosen.order ::
      (command settings actor now ⟨segment, chosen, others⟩).alternatives.map (·.payload)).Nodup := by
  have horders : (chosen.order ::
      (Candidate.alternatives settings chosen others).map (·.order)).Nodup :=
    Candidate.nodup_orders_alternatives (Candidate.regular_of_choose h)
  have hpayloads : ((chosen.order ::
      (Candidate.alternatives settings chosen others).map (·.order)).map Payload.single).Nodup :=
    List.Pairwise.map Payload.single (fun _ _ hne hsame => hne (Payload.single.inj hsame)) horders
  rw [List.map_cons, List.map_map] at hpayloads
  rwa [command, List.map_map]

/-- A candidate above the threshold that means something else is listed, unless there is no room for
it. -/
theorem listed_or_full (accepted : settings.check = .ok ())
    (hcandidate : candidate ∈ Candidate.ofSegment segment)
    (above : settings.threshold.below candidate.confidence = true)
    (new : candidate.order ≠ chosen.order) :
    Payload.single candidate.order
        ∈ (command settings actor now ⟨segment, chosen, others⟩).alternatives.map (·.payload) ∨
      (command settings actor now ⟨segment, chosen, others⟩).alternatives.length
          = settings.maxAlternatives ∧
        ∀ alternative ∈ (command settings actor now ⟨segment, chosen, others⟩).alternatives,
          candidate.confidence.atMost alternative.confidence = true := by
  have hother : candidate ∈ others := by
    have hmem := (Candidate.perm_of_choose h).mem_iff.mpr hcandidate
    exact (List.mem_cons.mp hmem).resolve_left fun hsame => new (congrArg Candidate.order hsame)
  rw [below_eq_isSure accepted (Candidate.regular_of_mem_ofSegment hcandidate)] at above
  obtain hlisted | ⟨hfull, hnoLess⟩ :=
    Candidate.listed_or_full (Candidate.regular_of_choose h) hother above new
  · left
    have hpayload := List.mem_map_of_mem (f := Payload.single) hlisted
    rw [List.map_map] at hpayload
    rwa [command, List.map_map]
  · right
    rw [command, List.length_map, List.forall_mem_map]
    refine ⟨hfull, fun alternative halternative => ?_⟩
    rw [confidence_of_mem_ofSegment (mem_ofSegment_of_mem_alternatives h halternative)]
    exact hnoLess alternative halternative

/-- The choice for a segment is one from its candidates. -/
theorem chosenFrom_command (accepted : settings.check = .ok ()) :
    Command.ChosenFrom settings (Reading.candidates actor now segment)
      (command settings actor now ⟨segment, chosen, others⟩) := by
  have hall : ∀ candidate ∈ Candidate.ofSegment segment, candidate.Regular :=
    fun _ => Candidate.regular_of_mem_ofSegment
  obtain ⟨earlier, later, hsplit, -, hearlier, hlater⟩ := Candidate.exists_split_of_choose hall h
  have hmem : chosen ∈ Candidate.ofSegment segment := by simp [hsplit]
  have hchosen : (command settings actor now ⟨segment, chosen, others⟩).confidence
      = chosen.confidence := confidence_of_mem_ofSegment hmem (String.ofList segment) actor now
  let toCommand := Candidate.toCommand (String.ofList segment) actor now
  refine ⟨⟨earlier.map toCommand, later.map toCommand, ?_, ?_⟩, ?_, exists_placed_alternatives h,
    ?_, ?_, nodup_payloads h, ?_⟩
  · rw [Reading.candidates, hsplit, List.map_append, List.map_cons]
    rfl
  · rw [List.forall_mem_map]
    intro candidate hcandidate
    have hsegment : candidate ∈ Candidate.ofSegment segment := by simp [hsplit, hcandidate]
    rw [hchosen, confidence_of_mem_ofSegment hsegment]
    exact hearlier candidate hcandidate
  · rw [Reading.candidates, List.forall_mem_map]
    intro candidate hcandidate
    rw [hchosen, confidence_of_mem_ofSegment hcandidate]
    exact Candidate.atMost_of_split (hall chosen hmem) hearlier hlater candidate
      (hsplit ▸ hcandidate)
  · rw [command, List.length_map, Candidate.alternatives]
    exact List.length_take_le _ _
  · rw [command, List.forall_mem_map]
    intro candidate hcandidate
    have hsegment := mem_ofSegment_of_mem_alternatives h hcandidate
    rw [confidence_of_mem_ofSegment hsegment, below_eq_isSure accepted (hall candidate hsegment)]
    exact Candidate.isSure_of_mem_alternatives hcandidate (Candidate.regular_of_choose h)
  · rw [Reading.candidates, List.forall_mem_map]
    intro candidate hcandidate above hnew
    rw [confidence_of_mem_ofSegment hcandidate] at above ⊢
    exact listed_or_full h accepted hcandidate above fun hsame =>
      hnew (congrArg Payload.single hsame)

end

end Choice

/-- A segment without candidates is not understood. Otherwise the command is the first of the surest
candidates, and its alternatives are the surest others above the threshold, each meaning something of
its own; none is left out but for want of room. -/
theorem readSegment_chosenFrom (settings : Settings) (accepted : settings.check = .ok ())
    (actor : String) (now : Timestamp) (segment : List Char) :
    (Reading.candidates actor now segment = [] →
      readSegment settings actor now segment = .error
        (.noMatch (String.ofList segment) (Help.hints settings.nearMisses segment))) ∧
    (Reading.candidates actor now segment ≠ [] →
      ∃ command notes, readSegment settings actor now segment = .ok (command, notes) ∧
        Command.ChosenFrom settings (Reading.candidates actor now segment) command) := by
  rw [Reading.candidates, ne_eq, List.map_eq_nil_iff, ← Candidate.choose_eq_none_iff]
  refine ⟨fun hnone => ?_, fun hsome => ?_⟩
  · exact readSegment_eq_error_iff.mpr ⟨Candidate.choose_eq_none_iff.mp hnone, rfl⟩
  · obtain ⟨⟨chosen, others⟩, hchoose⟩ := Option.ne_none_iff_exists'.mp hsome
    exact ⟨_, _, readSegment_eq_ok_iff.mpr ⟨chosen, others, hchoose, rfl, rfl⟩,
      Choice.chosenFrom_command hchoose accepted⟩

/-- One text may be a block of the team `sync` and a synchronisation of the team `waits`. -/
theorem readSegment_chosenFrom_ambiguous :
    let segment := "sync waits on team b".toList
    Settings.default.check = .ok () ∧
    (Reading.candidates "ada" .epoch segment).map (·.kind) = [.teamBlock, .teamSync] ∧
    ∃ command notes, readSegment .default "ada" .epoch segment = .ok (command, notes) ∧
      Command.ChosenFrom .default (Reading.candidates "ada" .epoch segment) command := by
  intro segment
  have hkinds : (Reading.candidates "ada" .epoch segment).map (·.kind) = [.teamBlock, .teamSync] := by
    decide +kernel
  have hsome : Reading.candidates "ada" .epoch segment ≠ [] := by
    intro hnone
    rw [hnone] at hkinds
    cases hkinds
  exact ⟨Settings.check_default, hkinds,
    (readSegment_chosenFrom .default Settings.check_default "ada" .epoch segment).2 hsome⟩

end TeamOrders
