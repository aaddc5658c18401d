import HostPruning.Proofs.Kinship

/-!
# Runs look at nothing but identity

Two inventories are `Kindred` if they hold hosts of the same identifiers and each host is alike to
its counterpart: what else its record says, and how its facts are written, may differ. Runs over
them take steps that are alike, before recorders that come to hold events of the same hosts in
favour of the same survivors. A stop signal that goes by these, by the number of polls and by the
recorder's flag cannot tell the runs apart, and neither can the refusal of some hosts' events: so the
runs come equally far (`perform_akin`), and return the same.
-/

namespace HostPruning

open Pruning Rehearsal

/-- Inventories with the same policies, and hosts of the same identifiers, each alike to its
counterpart. -/
structure Inventory.Kindred (plan : Plan) (left right : Inventory) : Prop where
  ids : ∀ id, id ∈ left.hosts.map Host.id ↔ id ∈ right.hosts.map Host.id
  hosts : ∀ host ∈ left.hosts, ∀ other ∈ right.hosts, host.id = other.id → host.Alike plan other
  policies : left.policies = right.policies

/-- Inventories list their hosts by identifier, so counterparts stand in the same places. -/
theorem Inventory.Kindred.alike {plan : Plan} {left right : Inventory}
    (kindred : left.Kindred plan right) : left.Alike plan right := by
  have ascending : ∀ inventory : Inventory, (inventory.hosts.map Host.id).Pairwise (· < ·) :=
    fun inventory => List.pairwise_map.2 inventory.ascending
  have sameIds := eq_of_ascending_of_mem_iff (ascending left) (ascending right) kindred.ids
  have paired : ∀ {first second : List Host}, first.map Host.id = second.map Host.id →
      (∀ host ∈ first, ∀ other ∈ second, host.id = other.id → host.Alike plan other) →
        List.Forall₂ (Host.Alike plan) first second := by
    intro first
    induction first with
    | nil =>
        intro second same _
        obtain rfl := List.map_eq_nil_iff.1 same.symm
        exact .nil
    | cons head rest inductionHypothesis =>
        intro second same alike
        obtain ⟨other, others, rfl, sameHead, sameRest⟩ := List.map_eq_cons_iff.1 same.symm
        refine .cons (alike head List.mem_cons_self other List.mem_cons_self sameHead.symm) ?_
        exact inductionHypothesis sameRest.symm fun host present counterpart there =>
          alike host (List.mem_cons_of_mem _ present) counterpart (List.mem_cons_of_mem _ there)
  exact ⟨paired sameIds kindred.hosts, kindred.policies⟩

namespace Rehearsal.Recorder

/-- The hosts whose events a recorder holds, and the survivors the events name. -/
def pairs (recorder : Recorder) : List (HostId × HostId) :=
  recorder.events.map fun entry => (entry.1, entry.2.survivor)

/-- Recorders that hold events of the same hosts in favour of the same survivors. -/
structure Alike (left right : Recorder) : Prop where
  pairs : left.pairs = right.pairs
  refused : left.refused = right.refused
  stopAfter : left.stopAfter = right.stopAfter
  stopRaised : left.stopRaised = right.stopRaised

/-- An event is taken or refused by its host. -/
theorem Alike.emit {left right : Recorder} (alike : left.Alike right) (key : HostId)
    (leftEvent rightEvent : DeleteEvent) (survivor : leftEvent.survivor = rightEvent.survivor) :
    (Recorder.emit key leftEvent left).1 = (Recorder.emit key rightEvent right).1 ∧
      (Recorder.emit key leftEvent left).2.Alike (Recorder.emit key rightEvent right).2 := by
  have count : left.events.length = right.events.length := by
    simpa [Recorder.pairs] using congrArg List.length alike.pairs
  unfold Recorder.emit
  rw [alike.refused]
  split
  · exact ⟨rfl, alike⟩
  · refine ⟨rfl, ⟨?_, alike.refused, alike.stopAfter, ?_⟩⟩
    · have before := alike.pairs
      simp only [Recorder.pairs] at before
      simp [Recorder.pairs, Recorder.keep, before, survivor]
    · simp [Recorder.keep, Recorder.reached, alike.stopAfter, alike.stopRaised, count]

end Rehearsal.Recorder

namespace Pruning

/-- The host a decision removes and the one that stays in its place. -/
def Decision.pair (decision : Decision) : HostId × HostId :=
  (decision.duplicate.id, decision.survivor.id)

/-- A recorder, and a stop signal that goes by the number of polls, by the hosts whose events are
held, with their survivors, and by the recorder's flag. -/
def discreet (signal : Nat → List (HostId × HostId) → Bool → Bool)
    (eventTime : Nat → Recorder → Moment) : Outside (Audience Recorder) :=
  listening Recorder.emitter (fun polls recorder => signal polls recorder.pairs recorder.stopRaised)
    eventTime

/-- Passes that come to the same, over decisions that are alike. -/
structure Pass.Akin (plan : Plan) (left right : Pass (Audience Recorder)) : Prop where
  mail : left.world.mail.Alike right.world.mail
  polls : left.world.polls = right.world.polls
  summary : left.summary = right.summary
  decisions : List.Forall₂ (Decision.Alike plan) left.decisions right.decisions
  removals : List.Forall₂ (Decision.Alike plan) left.removals right.removals

section Performing

variable (signal : Nat → List (HostId × HostId) → Bool → Bool)
  (leftTime rightTime : Nat → Recorder → Moment) {plan : Plan}

theorem pairs_alike {left right : List Decision}
    (alike : List.Forall₂ (Decision.Alike plan) left right) :
    left.map Decision.pair = right.map Decision.pair := by
  induction alike with
  | nil => rfl
  | cons same _ inductionHypothesis =>
      rw [List.map_cons, List.map_cons, inductionHypothesis, Decision.pair, Decision.pair,
        same.duplicate.id, same.survivor.id]

/-- Counting the same keeps passes alike. -/
theorem Pass.Akin.count {left right : Pass (Audience Recorder)} (alike : left.Akin plan right)
    (change : Summary → Summary) : (left.count change).Akin plan (right.count change) :=
  ⟨alike.mail, alike.polls, congrArg change alike.summary, alike.decisions, alike.removals⟩

/-- Both are asked to stop, or neither is, and go on alike. -/
theorem unlessStopped_akin {left right : Pass (Audience Recorder)} (alike : left.Akin plan right)
    {leftFurther rightFurther :
      Pass (Audience Recorder) → Ending × Pass (Audience Recorder)}
    (further : ∀ {first second}, Pass.Akin plan first second →
      (leftFurther first).1 = (rightFurther second).1 ∧
        (leftFurther first).2.Akin plan (rightFurther second).2) :
    let leftResult := (discreet signal leftTime).unlessStopped leftFurther left
    let rightResult := (discreet signal rightTime).unlessStopped rightFurther right
    leftResult.1 = rightResult.1 ∧ leftResult.2.Akin plan rightResult.2 := by
  have asked : signal left.world.polls left.world.mail.pairs left.world.mail.stopRaised =
      signal right.world.polls right.world.mail.pairs right.world.mail.stopRaised := by
    rw [alike.polls, alike.mail.pairs, alike.mail.stopRaised]
  have polled : (left.inWorld { left.world with polls := left.world.polls + 1 }).Akin plan
      (right.inWorld { right.world with polls := right.world.polls + 1 }) :=
    ⟨alike.mail, congrArg (· + 1) alike.polls, alike.summary, alike.decisions, alike.removals⟩
  simp only [Outside.unlessStopped, discreet, listening, asked]
  cases signal right.world.polls right.world.mail.pairs right.world.mail.stopRaised with
  | true =>
      refine ⟨rfl, ?_⟩
      dsimp only
      exact polled.count _
  | false => exact further polled

/-- Carrying out decisions that are alike keeps passes alike. -/
theorem removeDuplicate_akin {left right : Pass (Audience Recorder)} (alike : left.Akin plan right)
    {leftDecision rightDecision : Decision} (same : leftDecision.Alike plan rightDecision) :
    let leftResult := removeDuplicate (discreet signal leftTime).unstocked plan leftDecision left
    let rightResult := removeDuplicate (discreet signal rightTime).unstocked plan rightDecision right
    leftResult.1 = rightResult.1 ∧ leftResult.2.Akin plan rightResult.2 := by
  have decisions := List.rel_append alike.decisions (.cons same .nil)
  have removals := List.rel_append alike.removals (.cons same .nil)
  cases dry : plan.options.dryRun with
  | true =>
      rw [Outside.removeDuplicate_unstocked, Outside.removeDuplicate_unstocked, if_pos dry, if_pos dry]
      refine ⟨rfl, alike.mail, alike.polls, ?_, decisions, alike.removals⟩
      simp only [Pass.decide, alike.summary]
  | false =>
      obtain ⟨answered, heard⟩ := alike.mail.emit rightDecision.duplicate.id
        (.ofDuplicate leftDecision.duplicate leftDecision.survivor.id
          (leftTime left.world.polls left.world.mail))
        (.ofDuplicate rightDecision.duplicate rightDecision.survivor.id
          (rightTime right.world.polls right.world.mail))
        same.survivor.id
      unfold discreet
      rw [removeDuplicate_listening dry, removeDuplicate_listening dry, same.duplicate.id, answered]
      refine ⟨rfl, heard, alike.polls, ?_, decisions, removals⟩
      simp only [Pass.decide, Pass.carryOut, Pass.inWorld, Pass.count, alike.summary]

theorem take_akin {left right : Pass (Audience Recorder)} (alike : left.Akin plan right)
    {leftStep rightStep : Step} (same : leftStep.Alike plan rightStep) :
    let leftResult := (discreet signal leftTime).take plan leftStep left
    let rightResult := (discreet signal rightTime).take plan rightStep right
    leftResult.1 = rightResult.1 ∧ leftResult.2.Akin plan rightResult.2 := by
  have counted : ∀ (change : Summary → Summary) {first second : Pass (Audience Recorder)},
      first.Akin plan second → (Ending.completed, first.count change).1 =
        (Ending.completed, second.count change).1 ∧
          Pass.Akin plan (Ending.completed, first.count change).2
            (Ending.completed, second.count change).2 := fun change _ _ same => ⟨rfl, same.count change⟩
  dsimp only [Outside.take]
  cases same with
  | enter => exact unlessStopped_akin signal leftTime rightTime alike (counted _)
  | scan => exact counted _ alike
  | malformed => exact counted _ alike
  | culled count => exact counted _ alike
  | remove decision =>
      exact unlessStopped_akin signal leftTime rightTime alike fun same =>
        removeDuplicate_akin signal leftTime rightTime same decision
  | fail failure => exact ⟨rfl, alike⟩

/-- Steps that are alike are performed alike. -/
theorem perform_akin {left right : Pass (Audience Recorder)} (alike : left.Akin plan right)
    {leftSteps rightSteps : List Step} (same : List.Forall₂ (Step.Alike plan) leftSteps rightSteps) :
    let leftResult := (discreet signal leftTime).perform plan leftSteps left
    let rightResult := (discreet signal rightTime).perform plan rightSteps right
    leftResult.1 = rightResult.1 ∧ leftResult.2.Akin plan rightResult.2 := by
  induction same generalizing left right with
  | nil => exact ⟨rfl, alike⟩
  | @cons leftStep rightStep _ _ step _ inductionHypothesis =>
      obtain ⟨endings, after⟩ := take_akin signal leftTime rightTime alike step
      simp only [Outside.perform]
      generalize (discreet signal leftTime).take plan leftStep left = leftTaken at endings after ⊢
      generalize (discreet signal rightTime).take plan rightStep right = rightTaken at endings after ⊢
      obtain ⟨leftEnding, leftPass⟩ := leftTaken
      obtain ⟨rightEnding, rightPass⟩ := rightTaken
      dsimp only at endings after
      subst endings
      cases leftEnding with
      | completed => exact inductionHypothesis after
      | interrupted => exact ⟨rfl, after⟩
      | failed failure => exact ⟨rfl, after⟩

end Performing

/-! ### Runs -/

section Runs

variable {plan : Plan} {left right : Inventory}

/-- Up to its flush a run over an inventory in memory decides what the performance of its steps
decides. -/
theorem performed_decides {World : Type} (outside : Outside World) (plan : Plan)
    (inventory : Inventory) (world : World) :
    (performed outside.custody.toSurroundings plan ⟨inventory, world⟩).2.decisions =
      (outside.perform plan (runSteps plan { inventory with pageSizes := [] })
        (Pass.blank plan world)).2.decisions :=
  congrArg (fun both => both.2.decisions) (performed_shelved outside plan ⟨inventory, world⟩)

/-- The outcome of a run depends on identity alone. Let two inventories in memory have the same
policies and hosts of the same identifiers, which agree with their counterparts in account, in the
instant of their modification, in the known facts up to the order and the repeats of entries, and, if
culled hosts are left alone, in kind and stale moment. Runs over them with the same plan, stop signal
and refused events return the same counts or fail alike, decide on the same hosts in favour of the
same survivors, and remove the same ones. -/
theorem run_discreet (signal : Nat → List (HostId × HostId) → Bool → Bool)
    (leftTime rightTime : Nat → Recorder → Moment) (kindred : left.Kindred plan right)
    (refused : List HostId) (stopAfter : Option Nat) :
    let leftCustody := (discreet signal leftTime).custody
    let rightCustody := (discreet signal rightTime).custody
    let leftShelf : Shelf (Audience Recorder) := ⟨left, ⟨.start refused stopAfter, 0⟩⟩
    let rightShelf : Shelf (Audience Recorder) := ⟨right, ⟨.start refused stopAfter, 0⟩⟩
    (run leftCustody.toSurroundings plan leftShelf).1 =
        (run rightCustody.toSurroundings plan rightShelf).1 ∧
      (performed leftCustody.toSurroundings plan leftShelf).2.decisions.map Decision.pair =
        (performed rightCustody.toSurroundings plan rightShelf).2.decisions.map Decision.pair ∧
      (removed leftCustody plan leftShelf).map Decision.pair =
        (removed rightCustody plan rightShelf).map Decision.pair := by
  intro leftCustody rightCustody leftShelf rightShelf
  have blank : (Pass.blank plan leftShelf.world).Akin plan (Pass.blank plan rightShelf.world) :=
    ⟨⟨rfl, rfl, rfl, rfl⟩, rfl, rfl, .nil, .nil⟩
  have alike : ({ left with pageSizes := [] } : Inventory).Alike plan { right with pageSizes := [] } :=
    ⟨kindred.alike.hosts, kindred.policies⟩
  obtain ⟨endings, after⟩ :=
    perform_akin signal leftTime rightTime blank (runSteps_alike alike)
  obtain ⟨leftEnding, leftRemovals, leftSummary, -⟩ :=
    performed_performs (discreet signal leftTime) plan left leftShelf.world
  obtain ⟨rightEnding, rightRemovals, rightSummary, -⟩ :=
    performed_performs (discreet signal rightTime) plan right rightShelf.world
  refine ⟨?_, ?_, ?_⟩
  · have returned : ∀ eventTime (shelf : Shelf (Audience Recorder)),
        (run (discreet signal eventTime).custody.toSurroundings plan shelf).1 =
          (performed (discreet signal eventTime).custody.toSurroundings plan shelf).1.outcome
            (performed (discreet signal eventTime).custody.toSurroundings plan shelf).2.summary := by
      intro eventTime shelf
      rw [discreet, run_shelved, finish_listening]
    dsimp only [leftCustody, rightCustody]
    rw [returned, returned, leftEnding, rightEnding, leftSummary, rightSummary, endings, after.summary]
  · rw [performed_decides, performed_decides]
    exact pairs_alike after.decisions
  · rw [removed, removed, leftRemovals, rightRemovals]
    exact pairs_alike after.removals

/-- A host with a list of addresses whose record says more, and other things, than the one of
`addressedHost`. -/
def annotatedHost (id : HostId) (addresses : List String) (offset : Int) : Host :=
  { addressedHost id addresses offset with
    displayName := some "spare"
    reporter := none
    kind := .edge
    facts := ("note", .string "moved") :: (addressedHost id addresses offset).facts }

/-- To a plan that includes culled hosts only the addresses count, in any order. -/
theorem addressedHost_alike (id : HostId) {first second : List String} (offset : Int)
    (included : plan.options.excludeCulled = false) (same : ∀ text, text ∈ first ↔ text ∈ second) :
    (addressedHost id first offset).Alike plan (annotatedHost id second offset) where
  id := rfl
  account := rfl
  modified := rfl
  lifecycle excluded := by
    rw [included] at excluded
    cases excluded
  facts := by
    intro key known
    have entries : ∀ item : Json, item ∈ first.map Json.string ↔ item ∈ second.map Json.string := by
      intro item
      rw [List.mem_map, List.mem_map]
      exact exists_congr fun text => and_congr_left' (same text)
    have unknown : key ≠ "note" := by
      rintro rfl
      revert known
      decide
    have leftStored : (addressedHost id first offset).facts.get? key =
        if key = "ip_addresses" then some (.array (first.map .string)) else none :=
      lookup_cons_eq "ip_addresses" key _ []
    have rightStored : (annotatedHost id second offset).facts.get? key =
        if key = "ip_addresses" then some (.array (second.map .string)) else none :=
      (lookup_cons_eq "note" key _ _).trans <|
        (if_neg unknown).trans (lookup_cons_eq "ip_addresses" key _ [])
    rw [leftStored, rightStored]
    split
    · exact .some (.of_entries entries)
    · exact .none

/-- Two hosts, of which the first has its addresses among those of the second. -/
def plainHosts : Inventory :=
  .ofHosts [addressedHost (smallId 1) ["10.0.0.1", "10.0.0.2"] 0,
    addressedHost (smallId 2) ["10.0.0.1", "10.0.0.2", "10.0.0.3"] 1]

/-- The same two hosts with other records and their addresses in another order. -/
def annotatedHosts : Inventory :=
  .ofHosts [annotatedHost (smallId 1) ["10.0.0.2", "10.0.0.1", "10.0.0.2"] 0,
    annotatedHost (smallId 2) ["10.0.0.3", "10.0.0.1", "10.0.0.2"] 1]

theorem plainHosts_kindred : plainHosts.Kindred (calmPlan 1) annotatedHosts where
  ids _ := Iff.rfl
  policies := rfl
  hosts := by
    have left : plainHosts.hosts = [addressedHost (smallId 1) ["10.0.0.1", "10.0.0.2"] 0,
        addressedHost (smallId 2) ["10.0.0.1", "10.0.0.2", "10.0.0.3"] 1] := rfl
    have right : annotatedHosts.hosts =
        [annotatedHost (smallId 1) ["10.0.0.2", "10.0.0.1", "10.0.0.2"] 0,
          annotatedHost (smallId 2) ["10.0.0.3", "10.0.0.1", "10.0.0.2"] 1] := rfl
    intro host present other counterpart sameId
    rw [left] at present
    rw [right] at counterpart
    simp only [List.mem_cons, List.not_mem_nil, or_false] at present counterpart
    rcases present with rfl | rfl <;> rcases counterpart with rfl | rfl
    · exact addressedHost_alike _ 0 rfl fun text => by
        simp only [List.mem_cons, List.not_mem_nil, or_false]
        tauto
    · exact absurd sameId (by decide)
    · exact absurd sameId (by decide)
    · exact addressedHost_alike _ 1 rfl fun text => by
        simp only [List.mem_cons, List.not_mem_nil, or_false]
        tauto

/-- Runs over the plain and the annotated hosts return the same, and both remove the first one in
favour of the second. -/
theorem plain_hosts_discreet :
    let custody := (discreet (fun _ _ raised => raised) fun _ _ => .ofUnixSeconds 0).custody
    let plain : Shelf (Audience Recorder) := ⟨plainHosts, ⟨.start [] none, 0⟩⟩
    let annotated : Shelf (Audience Recorder) := ⟨annotatedHosts, ⟨.start [] none, 0⟩⟩
    plainHosts.Kindred (calmPlan 1) annotatedHosts ∧
      (run custody.toSurroundings (calmPlan 1) plain).1 =
        (run custody.toSurroundings (calmPlan 1) annotated).1 ∧
      (removed custody (calmPlan 1) plain).map Decision.pair =
        (removed custody (calmPlan 1) annotated).map Decision.pair ∧
      (removed custody (calmPlan 1) plain).map Decision.pair =
        [(smallId 1, smallId 2)] := by
  intro custody plain annotated
  obtain ⟨returned, -, removals⟩ := run_discreet (fun _ _ raised => raised)
    (fun _ _ => .ofUnixSeconds 0) (fun _ _ => .ofUnixSeconds 0) plainHosts_kindred [] none
  exact ⟨plainHosts_kindred, returned, removals, by decide⟩

end Runs

end Pruning

end HostPruning
