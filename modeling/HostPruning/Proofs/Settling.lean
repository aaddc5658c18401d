import HostPruning.Proofs.Matching
import HostPruning.Proofs.Runs

/-!
# A finished run leaves nothing to do

Whoever is scanned and stays has one rival at most among those that stay: all others were
decided on, and later decisions only take rivals away. So after all decisions an inventory
calls for it is `Undisputed`, although acceptance is neither symmetric nor transitive. A host
that is culled stays culled, so later runs have no rivals either that were not there before.

`run_settles` puts this together: what a finished run leaves is settled, and a run after it,
with another store, emitter and clock reading, is idle.
-/

namespace HostPruning

namespace Lifecycle.Clock

theorem isCulled_iff {clock : Clock} {host : Host} : clock.isCulled host = true ↔
    (clock.boundaries host.staleTimestamp host.kind).culledAt ≤ clock.now := by
  unfold isCulled culledAt stateOf
  dsimp only
  split
  next passed => simp [passed]
  next before =>
    have notCulled : ∀ staleAt warningAt, classify clock.now staleAt warningAt ≠ .culled := by
      intro staleAt warningAt
      unfold classify
      split
      · exact State.noConfusion
      · split <;> exact State.noConfusion
    simp [before, notCulled]

/-- A culled host stays culled. -/
theorem isCulled_mono {earlier later : Clock} {host : Host} (policy : later.policy = earlier.policy)
    (passed : earlier.now ≤ later.now) (culled : earlier.isCulled host = true) :
    later.isCulled host = true := by
  rw [isCulled_iff] at culled ⊢
  have boundary : later.boundaries host.staleTimestamp host.kind =
      earlier.boundaries host.staleTimestamp host.kind := by
    rw [boundaries, boundaries, policy]
  rw [boundary, Moment.le_def]
  exact Int.le_trans culled passed

end Lifecycle.Clock

namespace Pruning

open Inventory

/-- Under the filter of a stored host two hosts never compete. -/
def Undisputed (plan : Plan) (inventory : Inventory) : Prop :=
  ∀ host ∈ inventory.hosts, ∀ basis filter,
    FactFilter.ofHostFacts host.facts = .ok (some (basis, filter)) →
      ∀ left ∈ rivals plan inventory host.account filter,
        ∀ right ∈ rivals plan inventory host.account filter, left = right

/-- An inventory in which pruning has nothing left to do. -/
structure Settled (plan : Plan) (inventory : Inventory) : Prop where
  /-- With culled hosts included, a filter accepts its own host and no other of the account. -/
  alone : plan.options.excludeCulled = false → ∀ host ∈ inventory.hosts, ∀ basis filter,
    FactFilter.ofHostFacts host.facts = .ok (some (basis, filter)) →
      ∀ other ∈ inventory.hosts, other.account = host.account →
        (filter.accepts other.facts = true ↔ other = host)
  /-- With culled hosts left alone, a filter accepts at most one host of the account that is not
  culled. -/
  atMostOne : plan.options.excludeCulled = true → ∀ host ∈ inventory.hosts, ∀ basis filter,
    FactFilter.ofHostFacts host.facts = .ok (some (basis, filter)) →
      ∀ left ∈ inventory.hosts, ∀ right ∈ inventory.hosts,
        left.account = host.account → right.account = host.account →
          filter.accepts left.facts = true → filter.accepts right.facts = true →
            (plan.clockFor inventory host.account).isCulled left = false →
              (plan.clockFor inventory host.account).isCulled right = false → left = right

variable {plan : Plan} {inventory : Inventory}

theorem Undisputed.settled (undisputed : Undisputed plan inventory) : Settled plan inventory where
  alone := by
    intro included host present basis filter made other otherPresent here
    have rival : ∀ host' ∈ inventory.hosts, host'.account = host.account →
        filter.accepts host'.facts = true → host' ∈ rivals plan inventory host.account filter := by
      intro host' stored same accepted
      refine mem_rivals.2 ⟨⟨stored, same⟩, accepted, fun excluded => ?_⟩
      rw [included] at excluded
      cases excluded
    have ownFilter := FactFilter.accepts_self made
    constructor
    · intro accepted
      exact undisputed host present basis filter made other (rival other otherPresent here accepted)
        host (rival host present rfl ownFilter)
    · rintro rfl
      exact ownFilter
  atMostOne := by
    intro _ host present basis filter made left leftIn right rightIn leftHere rightHere
      leftAccepted rightAccepted leftKept rightKept
    exact undisputed host present basis filter made
      left (mem_rivals.2 ⟨⟨leftIn, leftHere⟩, leftAccepted, fun _ => leftKept⟩)
      right (mem_rivals.2 ⟨⟨rightIn, rightHere⟩, rightAccepted, fun _ => rightKept⟩)

/-! ### After all decisions -/

/-- More decisions leave fewer rivals. -/
theorem mem_rivals_of_subset {fewer more : List Decision} {account : String} {filter : FactFilter}
    {host : Host} (within : duplicateIds fewer ⊆ duplicateIds more)
    (rival : host ∈ rivals plan (inventory.after more) account filter) :
    host ∈ rivals plan (inventory.after fewer) account filter := by
  obtain ⟨⟨stored, here⟩, accepted, kept⟩ := mem_rivals.1 rival
  obtain ⟨present, unnamed⟩ := mem_after.1 stored
  exact mem_rivals.2 ⟨⟨mem_after.2 ⟨present, fun named => unnamed (within named)⟩, here⟩,
    accepted, kept⟩

/-- A scan decides on all rivals but the survivor. -/
theorem eq_of_unnamed {scanned left right : Host} {basis : Facts.Basis} {filter : FactFilter}
    (made : FactFilter.ofHostFacts scanned.facts = .ok (some (basis, filter)))
    (leftRival : left ∈ rivals plan inventory scanned.account filter)
    (rightRival : right ∈ rivals plan inventory scanned.account filter)
    (leftKept : left.id ∉ duplicateIds (verdicts plan inventory scanned))
    (rightKept : right.id ∉ duplicateIds (verdicts plan inventory scanned)) : left = right := by
  rw [← mem_inSurvivorOrder] at leftRival rightRival
  simp only [verdicts, made] at leftKept rightKept
  cases sorted : inSurvivorOrder (rivals plan inventory scanned.account filter) with
  | nil =>
      rw [sorted] at leftRival
      cases leftRival
  | cons survivor duplicates =>
      rw [sorted] at leftRival rightRival leftKept rightKept
      have survives : ∀ host ∈ survivor :: duplicates,
          host.id ∉ duplicateIds (duplicates.map fun duplicate =>
            (⟨scanned, duplicate, survivor⟩ : Decision)) → host = survivor := by
        intro host present unnamed
        rcases List.mem_cons.1 present with same | behind
        · exact same
        · have decided : (⟨scanned, host, survivor⟩ : Decision) ∈ duplicates.map fun duplicate =>
              (⟨scanned, duplicate, survivor⟩ : Decision) := List.mem_map.2 ⟨host, behind, rfl⟩
          exact absurd (List.mem_map_of_mem decided) unnamed
      rw [survives left leftRival leftKept, survives right rightRival rightKept]

/-- A host that was scanned and stays has one rival at most among those that stay. The induction
is on the hosts still to be scanned; what comes after the host's own scan only takes rivals
away. -/
theorem foldl_judge_undisputed {pending : List Host} {decisions : List Decision} {host : Host}
    {basis : Facts.Basis} {filter : FactFilter} (scanned : host ∈ pending)
    (kept : host.id ∉ duplicateIds (pending.foldl (judge plan inventory) decisions))
    (made : FactFilter.ofHostFacts host.facts = .ok (some (basis, filter))) :
    ∀ left ∈ rivals plan (inventory.after (pending.foldl (judge plan inventory) decisions))
        host.account filter,
      ∀ right ∈ rivals plan (inventory.after (pending.foldl (judge plan inventory) decisions))
        host.account filter, left = right := by
  induction pending generalizing decisions with
  | nil => cases scanned
  | cons head rest inductionHypothesis =>
      rw [List.foldl_cons] at kept ⊢
      rcases List.mem_cons.1 scanned with rfl | later
      · have onward := prefix_foldl_judge plan inventory (judge plan inventory decisions host) rest
        have undecided : host.id ∉ duplicateIds decisions := fun named =>
          kept (mem_duplicateIds_mono ((prefix_judge plan inventory decisions host).trans onward) named)
        rw [judge, if_neg undecided] at kept onward ⊢
        have within : duplicateIds decisions ⊆ duplicateIds
            (rest.foldl (judge plan inventory)
              (decisions ++ verdicts plan (inventory.after decisions) host)) := fun id named =>
          mem_duplicateIds_mono ((List.prefix_append _ _).trans onward) named
        have unnamed : ∀ other ∈ rivals plan (inventory.after
            (rest.foldl (judge plan inventory)
              (decisions ++ verdicts plan (inventory.after decisions) host))) host.account filter,
            other.id ∉ duplicateIds (verdicts plan (inventory.after decisions) host) := by
          intro other rival named
          have present := (mem_rivals.1 rival).1.1
          refine (mem_after.1 present).2 (mem_duplicateIds_mono onward ?_)
          rw [duplicateIds_append]
          exact List.mem_append_right _ named
        intro left leftRival right rightRival
        exact eq_of_unnamed made (mem_rivals_of_subset within leftRival)
          (mem_rivals_of_subset within rightRival) (unnamed left leftRival) (unnamed right rightRival)
      · exact inductionHypothesis later kept

/-- After all decisions an inventory calls for nothing in it is disputed. -/
theorem undisputed_after (plan : Plan) (inventory : Inventory) :
    Undisputed plan (inventory.after (plan.decisions inventory)) := by
  intro host present basis filter made left leftRival right rightRival
  obtain ⟨stored, kept⟩ := mem_after.1 present
  have listed : host.account ∈ inventory.accounts := mem_accounts.2 ⟨host, stored, rfl⟩
  have within : duplicateIds (accountDecisions plan inventory host.account) ⊆
      duplicateIds (plan.decisions inventory) := by
    refine List.map_subset _ fun decision among => ?_
    exact List.mem_flatMap.2 ⟨host.account, listed, among⟩
  exact foldl_judge_undisputed (mem_hostsOf.2 ⟨stored, rfl⟩) (fun named => kept (within named)) made
    left (mem_rivals_of_subset within leftRival) right (mem_rivals_of_subset within rightRival)

/-! ### A later run -/

/-- Who competes later competed before: nobody is culled any less. -/
theorem mem_rivals_of_later {again : Plan} {next : Inventory} {account : String}
    {filter : FactFilter} {host : Host} (hosts : next.hosts = inventory.hosts)
    (policies : next.policies = inventory.policies)
    (excluded : again.options.excludeCulled = plan.options.excludeCulled)
    (policy : again.clock.policy = plan.clock.policy) (passed : plan.clock.now ≤ again.clock.now)
    (rival : host ∈ rivals again next account filter) :
    host ∈ rivals plan inventory account filter := by
  obtain ⟨⟨stored, here⟩, accepted, kept⟩ := mem_rivals.1 rival
  refine mem_rivals.2 ⟨⟨hosts ▸ stored, here⟩, accepted, fun exclude => ?_⟩
  have laterClock : (again.clockFor next account).policy = (plan.clockFor inventory account).policy ∧
      (plan.clockFor inventory account).now ≤ (again.clockFor next account).now := by
    unfold Plan.clockFor
    rw [policies]
    split
    · exact ⟨policy, passed⟩
    · exact ⟨rfl, passed⟩
  cases culled : (plan.clockFor inventory account).isCulled host with
  | false => rfl
  | true =>
      have stillCulled := Lifecycle.Clock.isCulled_mono laterClock.1 laterClock.2 culled
      rw [kept (excluded.trans exclude)] at stillCulled
      cases stillCulled

/-- A scan whose host has one rival at most decides nothing. -/
theorem verdicts_of_alone {host : Host}
    (alone : ∀ basis filter, FactFilter.ofHostFacts host.facts = .ok (some (basis, filter)) →
      ∀ left ∈ rivals plan inventory host.account filter,
        ∀ right ∈ rivals plan inventory host.account filter, left = right) :
    verdicts plan inventory host = [] := by
  rcases verdicts_cases plan inventory host with none | ⟨basis, filter, survivor, duplicates, made, sorted, all⟩
  · exact none
  · cases duplicates with
    | nil => exact all
    | cons duplicate rest =>
        have rival : ∀ other ∈ survivor :: duplicate :: rest,
            other ∈ rivals plan inventory host.account filter := by
          intro other among
          rw [← mem_inSurvivorOrder, sorted]
          exact among
        have same := alone basis filter made
          survivor (rival survivor List.mem_cons_self)
          duplicate (rival duplicate (List.mem_cons_of_mem _ List.mem_cons_self))
        have distinct := (rivals_distinct plan inventory host.account filter).perm
          (inSurvivorOrder_perm _).symm
        rw [sorted] at distinct
        exact absurd (congrArg Host.id same)
          ((List.pairwise_cons.1 distinct).1 duplicate List.mem_cons_self)

/-- Where no two hosts compete, scanning decides nothing. -/
theorem verdicts_of_undisputed (undisputed : Undisputed plan inventory) {host : Host}
    (present : host ∈ inventory.hosts) : verdicts plan inventory host = [] :=
  verdicts_of_alone fun basis filter made => undisputed host present basis filter made

/-- Where nothing is disputed, nothing is called for. -/
theorem decisions_of_undisputed (undisputed : Undisputed plan inventory) :
    plan.decisions inventory = [] := by
  refine List.flatMap_eq_nil_iff.2 fun account _ => ?_
  have stored : ∀ host ∈ inventory.hostsOf account, host ∈ inventory.hosts :=
    fun host present => (mem_hostsOf.1 present).1
  unfold accountDecisions
  generalize inventory.hostsOf account = pending at stored
  induction pending with
  | nil => rfl
  | cons host rest inductionHypothesis =>
      have first : judge plan inventory [] host = [] := by
        rw [judge, after_nil, verdicts_of_undisputed undisputed (stored host List.mem_cons_self)]
        exact ite_self _
      rw [List.foldl_cons, first]
      exact inductionHypothesis fun other later => stored other (List.mem_cons_of_mem _ later)

theorem Undisputed.later {again : Plan} {next : Inventory} (undisputed : Undisputed plan inventory)
    (hosts : next.hosts = inventory.hosts) (policies : next.policies = inventory.policies)
    (excluded : again.options.excludeCulled = plan.options.excludeCulled)
    (policy : again.clock.policy = plan.clock.policy) (passed : plan.clock.now ≤ again.clock.now) :
    Undisputed again next := by
  intro host present basis filter made left leftRival right rightRival
  exact undisputed host (hosts ▸ present) basis filter made
    left (mem_rivals_of_later hosts policies excluded policy passed leftRival)
    right (mem_rivals_of_later hosts policies excluded policy passed rightRival)

/-- A run that found nothing to do. -/
structure Idle {World : Type} (custody : Custody World) (plan : Plan) (world : World) : Prop where
  undecided : (performed custody.toSurroundings plan world).2.decisions = []
  unchanged : custody.held (run custody.toSurroundings plan world).2 = custody.held world
  /-- It made calls that only read, then perhaps a flush: it neither deleted nor emitted. -/
  onlyRead : ∃ last, Relation.ReflTransGen (Reading custody.toSurroundings) world last ∧
    ((run custody.toSurroundings plan world).2 = last ∨
      (run custody.toSurroundings plan world).2 = (custody.emitter.flush last).2)
  counts : ∀ summary, (run custody.toSurroundings plan world).1 = .ok summary →
    summary.duplicatesFound = 0 ∧ summary.hostsDeleted = 0 ∧ summary.eventsEmitted = 0 ∧
      summary.eventsFailed = 0
  /-- It fails only when a call of the store or the flush does, or for want of a page budget
  that takes in every account. -/
  excused : ∀ failure, (run custody.toSurroundings plan world).1 = .error failure →
    custody.store.Fails failure ∨ (∃ last, (custody.emitter.flush last).1 = .error failure) ∨
      failure = .pagesExhausted ∧ (plan.options.chunkSize = 0 ∨
        ∃ account, plan.pageBudget ≤ ((custody.held world).hostsOf account).length)

/-- A run on an inventory that calls for nothing, with valid policies, is idle. -/
theorem idle_of_decisions {World : Type} {custody : Custody World} {plan : Plan} {world : World}
    (nothing : plan.decisions (custody.held world) = [])
    (valid : ∀ account ∈ (custody.held world).accounts, ValidPolicy (custody.held world) account) :
    Idle custody plan world := by
  have follows := performed_follows custody plan world
  have undecided : (performed custody.toSurroundings plan world).2.decisions = [] := by
    have decided := follows.decided
    rw [nothing] at decided
    exact List.prefix_nil.1 decided
  have unremoved : (performed custody.toSurroundings plan world).2.removals = [] := by
    have within := performed_removals_subset custody.toSurroundings plan world
    rw [undecided] at within
    exact List.subset_nil.1 within
  exact
    { undecided := undecided
      unchanged := by
        rw [held_run, removed, unremoved, after_nil]
      onlyRead := ⟨(performed custody.toSurroundings plan world).2.world,
        performed_quiet undecided, run_world custody.toSurroundings plan world⟩
      counts := by
        intro summary returned
        obtain ⟨rfl, -⟩ := performed_of_run_ok returned
        obtain ⟨found, deleted, events⟩ := performed_tallied custody.toSurroundings plan world
        rw [undecided] at found
        rw [unremoved] at deleted events
        simp only [List.length_nil, Nat.add_eq_zero_iff] at found deleted events
        exact ⟨found, deleted, events⟩
      excused := by
        intro failure returned
        rcases performed_of_run_error returned with failed | flushFailed
        · have excuse := follows.failed failure failed
          rw [unremoved] at excuse
          cases excuse with
          | store fails => exact Or.inl fails
          | emission _ last _ => cases last
          | policy visited stored invalid =>
              rw [valid _ visited _ stored] at invalid
              cases invalid
          | pages short => exact Or.inr (Or.inr ⟨rfl, short.imp_right fun small => ⟨_, small⟩⟩)
        · exact Or.inr (Or.inl flushFailed) }

/-- A finished run leaves nothing to do: what it leaves is settled, and a run after it is idle,
with the same options and standard policy, at the same moment or later, on whatever store holds
the hosts and policies it left. -/
theorem run_settles {World : Type} (custody : Custody World) (plan : Plan) (world : World)
    {summary : Summary} (real : plan.options.dryRun = false)
    (returned : (run custody.toSurroundings plan world).1 = .ok summary)
    (uninterrupted : summary.interrupted = false) :
    Settled plan (custody.held (run custody.toSurroundings plan world).2) ∧
      ∀ {Later : Type} (later : Custody Later) (again : Plan) (restart : Later),
        again.options = plan.options → again.clock.policy = plan.clock.policy →
        plan.clock.now ≤ again.clock.now →
        (later.held restart).hosts = (custody.held (run custody.toSurroundings plan world).2).hosts →
        (later.held restart).policies =
          (custody.held (run custody.toSurroundings plan world).2).policies →
        Idle later again restart := by
  have carried := (decisions_of_run_ok returned uninterrupted).2
  have left := held_run custody plan world
  rw [carried, due_of_real (Bool.eq_false_iff.1 real)] at left
  have undisputed := undisputed_after plan (custody.held world)
  rw [← left] at undisputed
  refine ⟨undisputed.settled, ?_⟩
  intro Later later again restart options policy passed hosts policies
  have nothing : again.decisions (later.held restart) = [] := decisions_of_undisputed
    (undisputed.later hosts policies (congrArg Options.excludeCulled options) policy passed)
  refine idle_of_decisions nothing fun account listed => ?_
  obtain ⟨host, stored, owned⟩ := mem_accounts.1 listed
  rw [hosts, left] at stored
  have before : account ∈ (custody.held world).accounts :=
    mem_accounts.2 ⟨host, (mem_after.1 stored).1, owned⟩
  have valid := valid_of_run_ok returned uninterrupted account before
  rw [left] at policies
  rw [ValidPolicy, policies]
  exact valid

/-- A run over three hosts leaves one, and another run two days later is idle. -/
theorem three_hosts_settle :
    Settled (Rehearsal.calmPlan 1) (Rehearsal.calm.held
        (run Rehearsal.calm.toSurroundings (Rehearsal.calmPlan 1) Rehearsal.threeHostStage).2) ∧
      Idle Rehearsal.calm (Rehearsal.calmPlan 3)
        (run Rehearsal.calm.toSurroundings (Rehearsal.calmPlan 1) Rehearsal.threeHostStage).2 := by
  have settles := run_settles Rehearsal.calm (Rehearsal.calmPlan 1) Rehearsal.threeHostStage rfl rfl rfl
  exact ⟨settles.1, settles.2 Rehearsal.calm (Rehearsal.calmPlan 3) _ rfl rfl (by decide) rfl rfl⟩

end Pruning

end HostPruning
