import TeamOrders.Proofs.Distribution.Tasks
import TeamOrders.Proofs.Number.Digits
import TeamOrders.Proofs.Phrase.Slots
import TeamOrders.Proofs.Reading.Alternatives
import TeamOrders.Proofs.Table

/-!
# Bounds that comments state

A request to spread work may state how many tasks a team gets at most. The phrases take decimal digits of
every script and in any number. The request keeps the bound exactly if the digits are ASCII digits of a
number of 64 bits; then no team gets more tasks than the comment states. Any other bound is dropped without
a note, and the plan gives all tasks out.
-/

namespace TeamOrders

open Pattern Phrase Meaning Text

variable {phrase other : Phrase} {m n : Match} {segment digits : List Char} {meant : Meant}
  {settings : Settings} {actor : String} {now : Timestamp} {command : Command} {notes : List String}

/-! ### The phrase behind a request -/

theorem head?_of_loadBalance (h : loadBalance.match? segment = some m) :
    segment.head? ∈ [some 'b', some 'd', some 'r', some 's'] := by
  obtain ⟨mid, hverb, -⟩ := reaches_all_cons.mp (reaches_of_match? h)
  obtain ⟨verb, hmem, rfl⟩ := reaches_oneOf.mp hverb
  have hheads : ∀ verb ∈ ["balance", "distribute", "rebalance", "spread"],
      verb.toList.head? ∈ [some 'b', some 'd', some 'r', some 's'] := by decide
  have hhead := hheads verb hmem
  cases hverb : verb.toList with
  | nil => simp [hverb] at hhead
  | cons c rest => rwa [hverb] at hhead

theorem head?_of_loadBalanceLevel (h : loadBalanceLevel.match? segment = some m) :
    segment.head? ∈ [some 'e', some 'l'] := by
  obtain ⟨mid, hverb, -⟩ := reaches_all_cons.mp (reaches_of_match? h)
  rcases reaches_alt.mp hverb with heven | hlevel
  · obtain ⟨behind, heven, -⟩ := reaches_all_cons.mp heven
    rw [reaches_word.mp heven]
    exact List.mem_cons_self
  · rw [reaches_word.mp hlevel]
    exact List.mem_cons_of_mem _ List.mem_cons_self

theorem ofKind_loadBalance : ofKind .loadBalance = [loadBalance, loadBalanceLevel] := rfl

/-- No request is put in both phrases for spreading work: they start with different letters. -/
theorem eq_of_match?_ofKind (hphrase : phrase ∈ ofKind .loadBalance)
    (hother : other ∈ ofKind .loadBalance) (h : phrase.match? segment = some m)
    (h' : other.match? segment = some n) : other = phrase := by
  have hapart : ∀ letter ∈ [some 'b', some 'd', some 'r', some 's'],
      letter ∉ [some 'e', some 'l'] := by decide
  rw [ofKind_loadBalance, List.mem_pair] at hphrase hother
  rcases hphrase with rfl | rfl <;> rcases hother with rfl | rfl
  · rfl
  · exact absurd (head?_of_loadBalanceLevel h') (hapart _ (head?_of_loadBalance h))
  · exact absurd (head?_of_loadBalanceLevel h) (hapart _ (head?_of_loadBalance h'))
  · rfl

/-! ### The request -/

theorem find?_keptBound {request : BalanceRequest} {bound : Option Nat}
    (h : request.constraints = keptBound bound) :
    request.constraints.find? maxTasksKey = bound.map Json.nat := by
  rw [h]
  cases bound with
  | none => rfl
  | some bound => rw [keptBound, Table.find?_insert, if_pos rfl, Option.map_some]

theorem cap?_of_keptBound {request : BalanceRequest} {bound : Option Nat}
    (h : request.constraints = keptBound bound) : Distribution.cap? request = bound := by
  ext n
  have hkept : request.constraints.find? "max_tasks_per_team" = bound.map Json.nat := find?_keptBound h
  rw [Distribution.cap?_eq_some_iff, hkept]
  cases bound with
  | none => exact iff_of_false nofun nofun
  | some bound =>
    rw [Option.map_some, Json.nat, Option.some.injEq, Option.some.injEq, Json.int.injEq, Int.natCast_inj]

theorem exists_request_of_readSegment
    (read : readSegment settings actor now segment = .ok (command, notes))
    (kind : command.kind = .loadBalance) (put : phrase ∈ ofKind .loadBalance)
    (matched : phrase.match? segment = some m) (stated : m.get? .maxPerTeam = some digits) :
    ∃ request, command.payload = .single (.balanceLoad request) ∧ notes = [] ∧ request.teams ≠ [] ∧
      request.constraints = keptBound
        (if IsReadable Number.wordLimit digits then some (denoted digits) else none) := by
  obtain ⟨other, hother, n, meant, hmatch, hmeant, hpayload, hcommand, hnotes⟩ :=
    exists_meant_of_readSegment read
  have hkind : other.kind = .loadBalance :=
    (kind_of_ofMatch? hmeant).symm.trans (hcommand.symm.trans kind)
  have hofKind : other ∈ ofKind .loadBalance :=
    List.mem_filter.mpr ⟨hother, beq_iff_eq.mpr hkind⟩
  obtain rfl := eq_of_match?_ofKind put hofKind matched hmatch
  obtain rfl : m = n := Option.some.inj (matched.symm.trans hmatch)
  rw [hkind] at hmeant
  obtain ⟨hteams, rfl⟩ := balanceRequest_eq_some_iff.mp hmeant
  refine ⟨_, hpayload, hnotes, hteams, ?_⟩
  obtain ⟨hne, hdigits⟩ := holds_of_get? hother matched stated
  dsimp only
  rw [stated, Option.bind_some, readUnsigned_of_digits hne fun c hc => (hdigits c hc).2]

/-- A request that states a bound keeps it exactly if its digits are readable. Then no team gets more tasks
than stated; else nothing is said about it, and no task is left over. -/
theorem readSegment_keeps_bound_iff
    (read : readSegment settings actor now segment = .ok (command, notes))
    (kind : command.kind = .loadBalance) (put : phrase ∈ ofKind .loadBalance)
    (matched : phrase.match? segment = some m) (stated : m.get? .maxPerTeam = some digits) :
    ∃ request, command.payload = .single (.balanceLoad request) ∧
      (request.constraints.find? maxTasksKey = some (Json.nat (denoted digits)) ↔
        IsReadable Number.wordLimit digits) ∧
      (IsReadable Number.wordLimit digits → ∀ context,
        ∀ row ∈ (Distribution.plan request context).rows, row.tasks.length ≤ denoted digits) ∧
      (¬ IsReadable Number.wordLimit digits → request.constraints = .empty ∧ notes = [] ∧
        ∀ context, (Distribution.plan request context).unassigned = []) := by
  obtain ⟨request, hpayload, hnotes, hteams, hconstraints⟩ :=
    exists_request_of_readSegment read kind put matched stated
  have hcap := cap?_of_keptBound hconstraints
  refine ⟨request, hpayload, ?_, fun readable context => ?_, fun unreadable => ?_⟩
  · rw [find?_keptBound hconstraints]
    split
    · rename_i readable
      exact iff_of_true rfl readable
    · rename_i unreadable
      exact iff_of_false nofun unreadable
  · rw [if_pos readable] at hcap
    exact fun row hrow => (Distribution.places_plan request context).within row hrow _ hcap
  · rw [if_neg unreadable] at hconstraints hcap
    exact ⟨hconstraints, hnotes, Distribution.unassigned_plan_of_no_bound hteams hcap⟩

/-- Leading zeros do no harm to a bound. -/
theorem readSegment_keeps_bound_of_zeros :
    let segment := "level the load across teams a, b max 007 tasks per team".toList
    let context := (Context.new "acme/platform" 7).withTasks ["T1", "T2", "T3"]
    ∃ command notes m request,
      readSegment .default "ada" .epoch segment = .ok (command, notes) ∧
      command.kind = .loadBalance ∧ loadBalanceLevel ∈ ofKind .loadBalance ∧
      loadBalanceLevel.match? segment = some m ∧ m.get? .maxPerTeam = some "007".toList ∧
      denoted "007".toList = 7 ∧ command.payload = .single (.balanceLoad request) ∧
      request.constraints.find? maxTasksKey = some (Json.nat 7) ∧
      ∀ row ∈ (Distribution.plan request context).rows, row.tasks.length ≤ 7 := by
  intro segment context
  have hcandidates : Candidate.ofSegment segment
      = [⟨.balanceLoad ⟨["team-a", "team-b"], .roundRobin, keptBound (some 7)⟩, [],
        baseConfidence .loadBalance⟩] := by decide +kernel
  have hread := readSegment_of_ofSegment_eq_singleton hcandidates .default "ada" .epoch
  have hput : loadBalanceLevel ∈ ofKind .loadBalance := by simp [ofKind_loadBalance]
  have hfilled : (loadBalanceLevel.match? segment).map (·.get? .maxPerTeam)
      = some (some "007".toList) := by decide +kernel
  obtain ⟨m, hmatch, hstated⟩ := Option.map_eq_some_iff.mp hfilled
  have hreadable : IsReadable Number.wordLimit "007".toList := by decide +kernel
  have hdenoted : denoted "007".toList = 7 := by decide +kernel
  obtain ⟨request, hpayload, hkept, hplan, -⟩ :=
    readSegment_keeps_bound_iff hread rfl hput hmatch hstated
  have hbound := hkept.mpr hreadable
  have hrows := hplan hreadable context
  rw [hdenoted] at hbound hrows
  exact ⟨_, _, m, request, hread, rfl, hput, hmatch, hstated, hdenoted, hpayload, hbound, hrows⟩

/-- A bound in the digits of another script is dropped: no team is to have more than three tasks, and two
teams get four each. -/
theorem readSegment_drops_bound_in_other_script :
    let segment := "balance load across teams a, b max ٣ tasks per team".toList
    let context := (Context.new "acme/platform" 7).withTasks
      ["T1", "T2", "T3", "T4", "T5", "T6", "T7", "T8"]
    Settings.default.check = .ok () ∧
    ∃ command m request, readSegment .default "ada" .epoch segment = .ok (command, []) ∧
      command.kind = .loadBalance ∧ loadBalance ∈ ofKind .loadBalance ∧
      loadBalance.match? segment = some m ∧ m.get? .maxPerTeam = some "٣".toList ∧
      denoted "٣".toList = 3 ∧ command.payload = .single (.balanceLoad request) ∧
      request.constraints.find? maxTasksKey ≠ some (Json.nat 3) ∧
      (Distribution.plan request context).rows.map (·.tasks.length) = [4, 4] := by
  intro segment context
  have hcandidates : Candidate.ofSegment segment
      = [⟨.balanceLoad ⟨["team-a", "team-b"], .roundRobin, .empty⟩, [],
        baseConfidence .loadBalance⟩] := by decide +kernel
  have hread := readSegment_of_ofSegment_eq_singleton hcandidates .default "ada" .epoch
  have hfilled : (loadBalance.match? segment).map (·.get? .maxPerTeam)
      = some (some "٣".toList) := by decide +kernel
  obtain ⟨m, hmatch, hstated⟩ := Option.map_eq_some_iff.mp hfilled
  have hput : loadBalance ∈ ofKind .loadBalance := by simp [ofKind_loadBalance]
  exact ⟨Settings.check_default, _, m, _, hread, rfl, hput, hmatch, hstated, by decide +kernel, rfl,
    by decide +kernel, by decide +kernel⟩

end TeamOrders
