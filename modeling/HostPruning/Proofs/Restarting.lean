import HostPruning.Proofs.Grouping
import HostPruning.Proofs.Refusals
import HostPruning.Proofs.Survival

/-!
# Runs that are stopped and started again

A stopped run has carried out the first decisions its inventory calls for, and a run after it
scans what is left from the start. Hosts that were scanned to the end decide nothing any more,
those behind the stop decide what they would have decided, and so does the host whose scan the
stop cut short, if it is still stored: it finds the duplicates the stop left in place
(`verdicts_resumed`, `accountDecisions_resumed`). Then both runs together make the decisions of
one run.

A host may decide on its own removal, though, and is then gone with the filter that found the
others. Matching is neither symmetric nor transitive, so nobody need find these again. Where it
is both, the others of the group find them: the removals differ, the hosts left do not
(`mem_duplicateIds_resumed`).
-/

namespace HostPruning.Pruning

open Inventory

/-! ### One scan -/

/-- Dropping hosts does not change the order of the others. -/
theorem inSurvivorOrder_filter {hosts : List Host} (distinct : DistinctIds hosts)
    (keep : Host → Bool) :
    inSurvivorOrder (hosts.filter keep) = (inSurvivorOrder hosts).filter keep := by
  refine List.Perm.eq_of_pairwise ?_
    (inSurvivorOrder_outranks (distinct.sublist List.filter_sublist))
    ((inSurvivorOrder_outranks distinct).filter keep)
    ((inSurvivorOrder_perm _).trans ((inSurvivorOrder_perm hosts).filter keep).symm)
  intro earlier later _ _ above below
  exact absurd (above.trans below) earlier.not_outranks_self

section Scans

variable {plan : Plan} {inventory : Inventory} {account : String}

theorem rivals_after (plan : Plan) (inventory : Inventory) (decisions : List Decision)
    (account : String) (filter : FactFilter) :
    rivals plan (inventory.after decisions) account filter =
      (rivals plan inventory account filter).filter fun host => host.id ∉ duplicateIds decisions := by
  have dropped : ∀ hosts : List Host,
      notCulled (plan.clockFor inventory account) plan.options
          (hosts.filter fun host => host.id ∉ duplicateIds decisions) =
        (notCulled (plan.clockFor inventory account) plan.options hosts).filter fun host =>
          host.id ∉ duplicateIds decisions := by
    intro hosts
    unfold notCulled
    split
    · simp only [List.filter_filter, Bool.and_comm]
    · rfl
  rw [rivals, rivals, clockFor_after, hostsOf_after, ← dropped]
  simp only [List.filter_filter, Bool.and_comm]

/-- A host whose scan was cut short decides, when it is scanned again, what was left of it. -/
theorem verdicts_resumed {scanned : Host} {made rest : List Decision}
    (split : verdicts plan inventory scanned = made ++ rest) :
    verdicts plan (inventory.after made) scanned = rest := by
  rcases verdicts_cases plan inventory scanned with
    none | ⟨basis, filter, survivor, duplicates, ofFacts, sorted, all⟩
  · obtain ⟨rfl, rfl⟩ := List.append_eq_nil_iff.1 (split.symm.trans none)
    rw [after_nil, none]
  · rw [all] at split
    obtain ⟨removed, left, rfl, rfl, rfl⟩ := List.map_eq_append_iff.1 split
    have ids : duplicateIds (removed.map fun duplicate => (⟨scanned, duplicate, survivor⟩ : Decision)) =
        removed.map Host.id := by simp [duplicateIds, Function.comp_def]
    have distinct : DistinctIds (survivor :: (removed ++ left)) := by
      rw [← sorted]
      exact (rivals_distinct plan inventory scanned.account filter).perm (inSurvivorOrder_perm _).symm
    obtain ⟨survivorApart, others⟩ := List.pairwise_cons.1 distinct
    obtain ⟨-, -, apart⟩ := List.pairwise_append.1 others
    -- Of the rivals in their order just the removed ones are missing.
    have survivorKept : survivor.id ∉ removed.map Host.id := by
      intro named
      obtain ⟨other, among, same⟩ := List.mem_map.1 named
      exact survivorApart other (List.mem_append_left _ among) same.symm
    have leftKept : left.filter (fun host => host.id ∉ removed.map Host.id) = left := by
      refine List.filter_eq_self.2 fun host among => decide_eq_true fun named => ?_
      obtain ⟨other, otherAmong, same⟩ := List.mem_map.1 named
      exact apart other otherAmong host among same
    have removedGone : removed.filter (fun host => host.id ∉ removed.map Host.id) = [] := by
      refine List.filter_eq_nil_iff.2 fun host among kept => ?_
      exact of_decide_eq_true kept (List.mem_map_of_mem among)
    have resorted : inSurvivorOrder (rivals plan
        (inventory.after (removed.map fun duplicate => ⟨scanned, duplicate, survivor⟩))
          scanned.account filter) = survivor :: left := by
      rw [rivals_after, ids, inSurvivorOrder_filter (rivals_distinct plan inventory _ _), sorted,
        List.filter_cons_of_pos (by simpa using survivorKept), List.filter_append, removedGone,
        leftKept, List.nil_append]
    simp only [verdicts, ofFacts, resorted]

/-- A host that was scanned to the end decides nothing when it is scanned again. -/
theorem verdicts_of_scanned {scanned : Host} {earlier later : List Decision}
    (ahead : earlier ++ verdicts plan (inventory.after earlier) scanned <+: later) :
    verdicts plan (inventory.after later) scanned = [] := by
  have within : duplicateIds earlier ⊆ duplicateIds later := fun id named =>
    mem_duplicateIds_mono ((List.prefix_append _ _).trans ahead) named
  have unnamed : ∀ filter, ∀ host ∈ rivals plan (inventory.after later) scanned.account filter,
      host.id ∉ duplicateIds (verdicts plan (inventory.after earlier) scanned) := by
    intro filter host rival named
    refine (mem_after.1 (mem_rivals.1 rival).1.1).2 (mem_duplicateIds_mono ahead ?_)
    rw [duplicateIds_append]
    exact List.mem_append_right _ named
  refine verdicts_of_alone fun basis filter made left leftRival right rightRival => ?_
  exact eq_of_unnamed made (mem_rivals_of_subset within leftRival)
    (mem_rivals_of_subset within rightRival) (unnamed filter left leftRival)
    (unnamed filter right rightRival)

/-! ### One account -/

/-- Judging what is left is judging everything behind the decisions made. -/
theorem foldl_judge_after (plan : Plan) (inventory : Inventory) (made decided : List Decision)
    (pending : List Host) :
    pending.foldl (judge plan inventory) (made ++ decided) =
      made ++ (pending.filter fun host => host.id ∉ duplicateIds made).foldl
        (judge plan (inventory.after made)) decided := by
  induction pending generalizing decided with
  | nil => rfl
  | cons host rest inductionHypothesis =>
      rw [List.foldl_cons]
      by_cases gone : host.id ∈ duplicateIds made
      · have named : host.id ∈ duplicateIds (made ++ decided) := by
          rw [duplicateIds_append]
          exact List.mem_append_left _ gone
        rw [judge_of_decided named, List.filter_cons_of_neg (by simp [gone]), inductionHypothesis]
      · have step : judge plan inventory (made ++ decided) host =
            made ++ judge plan (inventory.after made) decided host := by
          have alike : host.id ∈ duplicateIds (made ++ decided) ↔ host.id ∈ duplicateIds decided := by
            rw [duplicateIds_append, List.mem_append]
            exact or_iff_right gone
          by_cases named : host.id ∈ duplicateIds decided
          · rw [judge_of_decided named, judge_of_decided (alike.2 named)]
          · rw [judge, judge, if_neg (mt alike.1 named), if_neg named, after_append,
              List.append_assoc]
        rw [step, inductionHypothesis, List.filter_cons_of_pos (by simp [gone]), List.foldl_cons]

/-- Judging all hosts again behind the first decisions makes the others. The induction is on the
hosts; the decisions made lie behind what the hosts before decided (`started`) and go on beyond
the next one's, or end within them. -/
theorem foldl_judge_resumed {pending : List Host} {decided made : List Decision}
    (started : decided <+: made) (ahead : made <+: pending.foldl (judge plan inventory) decided)
    (kept : ∀ next rest, pending.foldl (judge plan inventory) decided = made ++ next :: rest →
      next.scanned.id ∉ duplicateIds made) :
    pending.foldl (judge plan inventory) made = pending.foldl (judge plan inventory) decided := by
  induction pending generalizing decided with
  | nil => exact ahead.eq_of_length_le started.length_le
  | cons host rest inductionHypothesis =>
      rw [List.foldl_cons] at ahead kept ⊢
      rw [List.foldl_cons]
      have onward := prefix_foldl_judge plan inventory (judge plan inventory decided host) rest
      by_cases beyond : judge plan inventory decided host <+: made
      · have nothing : judge plan inventory made host = made := by
          by_cases named : host.id ∈ duplicateIds made
          · exact judge_of_decided named
          · have undecided : host.id ∉ duplicateIds decided := fun earlier =>
              named (mem_duplicateIds_mono started earlier)
            rw [judge, if_neg undecided] at beyond
            rw [judge, if_neg named, verdicts_of_scanned beyond, List.append_nil]
        rw [nothing]
        exact inductionHypothesis beyond ahead kept
      · -- The decisions made end within those of this host.
        obtain ⟨others, whole⟩ :=
          (List.prefix_or_prefix_of_prefix onward ahead).resolve_left beyond
        obtain ⟨group, rfl⟩ := started
        have undecided : host.id ∉ duplicateIds decided := by
          intro named
          rw [judge_of_decided named] at beyond
          exact beyond (List.prefix_append _ _)
        have parts : verdicts plan (inventory.after decided) host = group ++ others := by
          rw [judge, if_neg undecided, List.append_assoc] at whole
          exact (List.append_cancel_left whole).symm
        cases others with
        | nil =>
            rw [List.append_nil] at whole
            exact absurd (whole ▸ List.prefix_rfl) beyond
        | cons next more =>
            have scanned : next.scanned = host :=
              scanned_of_verdicts (parts ▸ List.mem_append_right _ List.mem_cons_self)
            obtain ⟨later, behind⟩ := onward
            have present : host.id ∉ duplicateIds (decided ++ group) := by
              rw [← scanned]
              refine kept next (more ++ later) ?_
              rw [← behind, ← whole, List.append_assoc, List.cons_append]
            have same : judge plan inventory (decided ++ group) host =
                judge plan inventory decided host := by
              rw [judge, if_neg present, after_append, verdicts_resumed parts, whole]
            rw [same]

/-- Where the host whose scan was cut short is still stored, what is left of an account calls for
the decisions that were not made. -/
theorem accountDecisions_resumed {made : List Decision}
    (ahead : made <+: accountDecisions plan inventory account)
    (kept : ∀ next rest, accountDecisions plan inventory account = made ++ next :: rest →
      next.scanned.id ∉ duplicateIds made) :
    made ++ accountDecisions plan (inventory.after made) account =
      accountDecisions plan inventory account := by
  have resumed : (inventory.hostsOf account).foldl (judge plan inventory) made =
      accountDecisions plan inventory account := foldl_judge_resumed List.nil_prefix ahead kept
  have behind := foldl_judge_after plan inventory made [] (inventory.hostsOf account)
  rw [List.append_nil, ← hostsOf_after, resumed] at behind
  exact behind.symm

/-- In an account of groups what is left calls for the removal of the same hosts. -/
theorem mem_duplicateIds_resumed {made : List Decision} (grouped : inventory.Grouped account)
    (ahead : made <+: accountDecisions plan inventory account) (id : HostId) :
    id ∈ duplicateIds (made ++ accountDecisions plan (inventory.after made) account) ↔
      id ∈ duplicateIds (accountDecisions plan inventory account) := by
  rw [duplicateIds_append, List.mem_append]
  constructor
  · rintro (before | again)
    · exact mem_duplicateIds_mono ahead before
    · obtain ⟨decision, among, rfl⟩ := List.mem_map.1 again
      have remaining := (accountDecisions_within among).1
      obtain ⟨competes, other, otherLeft, matched, otherCompetes, above⟩ :=
        (mem_duplicateIds_iff (grouped.after made) remaining).1 again
      exact (mem_duplicateIds_iff grouped (mem_hostsOf_after.1 remaining).1).2
        ⟨competes, other, (mem_hostsOf_after.1 otherLeft).1, matched, otherCompetes, above⟩
  · intro named
    refine or_iff_not_imp_left.2 fun unnamed => ?_
    obtain ⟨decision, among, rfl⟩ := List.mem_map.1 named
    have present := (accountDecisions_within among).1
    obtain ⟨atHome, here⟩ := mem_hostsOf.1 present
    obtain ⟨competes, other, otherIn, matched, otherCompetes, above⟩ :=
      (mem_duplicateIds_iff grouped present).1 named
    -- The foremost of the group is never removed, so it is still there to outrank the host.
    subst here
    obtain ⟨leader, foremost⟩ := exists_foremost otherIn matched otherCompetes
    have leaderLeft := mem_hostsOf_after.2 ⟨foremost.stored, fun before =>
      foremost.kept grouped atHome (mem_duplicateIds_mono ahead before)⟩
    refine (mem_duplicateIds_iff (grouped.after made) (mem_hostsOf_after.2 ⟨present, unnamed⟩)).2
      ⟨competes, leader, leaderLeft, foremost.matched, foremost.competes, ?_⟩
    rcases foremost.above other otherIn matched otherCompetes with rfl | below
    · exact above
    · exact below.trans above

/-! ### All accounts -/

/-- Of an account that removals are about in part, these alone are missing. -/
theorem agree_of_own {removals own : List Decision} (within : own ⊆ removals)
    (rest : ∀ removal ∈ removals, removal.duplicate ∈ inventory.hosts ∧
      (removal.duplicate.account = account → removal ∈ own)) :
    (inventory.after removals).Agree account (inventory.after own) := by
  refine ⟨?_, rfl⟩
  rw [hostsOf_after, hostsOf_after]
  refine List.filter_congr fun host present => decide_eq_decide.2 (not_congr ?_)
  obtain ⟨stored, here⟩ := mem_hostsOf.1 present
  constructor
  · intro named
    obtain ⟨removal, among, same⟩ := List.mem_map.1 named
    obtain ⟨gone, owned⟩ := rest removal among
    obtain rfl := inventory.distinctIds.eq_of_id gone stored same
    exact List.mem_map_of_mem (owned here)
  · exact fun named => List.map_subset _ within named

/-- A place in the decisions an inventory calls for: in the middle of an account. -/
structure Cut (plan : Plan) (inventory : Inventory) (before : List String) (account : String)
    (others : List String) (inFront behind : List Decision) : Prop where
  accounts : inventory.accounts = before ++ account :: others
  decided : accountDecisions plan inventory account = inFront ++ behind

namespace Cut

variable {before others : List String} {inFront behind : List Decision}

/-- The decisions in front of a cut. -/
def made (plan : Plan) (inventory : Inventory) (before : List String) (inFront : List Decision) :
    List Decision :=
  before.flatMap (accountDecisions plan inventory) ++ inFront

theorem whole (cut : Cut plan inventory before account others inFront behind) :
    plan.decisions inventory = made plan inventory before inFront ++
      (behind ++ others.flatMap (accountDecisions plan inventory)) := by
  rw [Plan.decisions, cut.accounts, List.flatMap_append, List.flatMap_cons, cut.decided, made]
  simp only [List.append_assoc]

/-- Every decision in front of a cut was made for an account before, or is among the first of the
account of the cut. -/
theorem of_made (cut : Cut plan inventory before account others inFront behind)
    {decision : Decision} (among : decision ∈ made plan inventory before inFront) :
    decision.duplicate ∈ inventory.hosts ∧
      ((decision.duplicate.account ∈ before ∧
          decision ∈ accountDecisions plan inventory decision.duplicate.account) ∨
        (decision.duplicate.account = account ∧ decision ∈ inFront)) := by
  have owned : ∀ other, decision ∈ accountDecisions plan inventory other →
      decision.duplicate ∈ inventory.hosts ∧ decision.duplicate.account = other :=
    fun _ among => mem_hostsOf.1 (accountDecisions_within among).1
  rcases List.mem_append.1 among with earlier | front
  · obtain ⟨other, present, decided⟩ := List.mem_flatMap.1 earlier
    obtain ⟨stored, rfl⟩ := owned other decided
    exact ⟨stored, Or.inl ⟨present, decided⟩⟩
  · obtain ⟨stored, here⟩ := owned account (cut.decided ▸ List.mem_append_left _ front)
    exact ⟨stored, Or.inr ⟨here, front⟩⟩

theorem apart (cut : Cut plan inventory before account others inFront behind) :
    account ∉ before ∧ account ∉ others ∧ ∀ other ∈ others, other ∉ before := by
  have distinct : (before ++ account :: others).Nodup := cut.accounts ▸ ascendingDistinct_nodup _
  obtain ⟨-, rowDistinct, disjoint⟩ := List.nodup_append.1 distinct
  refine ⟨fun present => disjoint account present account List.mem_cons_self rfl,
    (List.nodup_cons.1 rowDistinct).1, fun other later present => ?_⟩
  exact disjoint other present other (List.mem_cons_of_mem _ later) rfl

/-- In front of a cut an account before it is done. -/
theorem agree_before (cut : Cut plan inventory before account others inFront behind)
    {other : String} (present : other ∈ before) :
    (inventory.after (made plan inventory before inFront)).Agree other
      (inventory.after (accountDecisions plan inventory other)) := by
  refine agree_of_own (fun decision among => List.mem_append_left _
    (List.mem_flatMap.2 ⟨other, present, among⟩)) fun decision among => ?_
  obtain ⟨stored, ⟨-, decided⟩ | ⟨here, -⟩⟩ := cut.of_made among
  · exact ⟨stored, fun same => same ▸ decided⟩
  · exact ⟨stored, fun same => absurd (here.symm.trans same ▸ present) cut.apart.1⟩

theorem agree_here (cut : Cut plan inventory before account others inFront behind) :
    (inventory.after (made plan inventory before inFront)).Agree account
      (inventory.after inFront) := by
  refine agree_of_own (List.subset_append_right _ _) fun decision among => ?_
  obtain ⟨stored, ⟨earlier, -⟩ | ⟨-, front⟩⟩ := cut.of_made among
  · exact ⟨stored, fun same => absurd (same ▸ earlier) cut.apart.1⟩
  · exact ⟨stored, fun _ => front⟩

/-- In front of a cut an account behind it is as it was. -/
theorem agree_behind (cut : Cut plan inventory before account others inFront behind)
    {other : String} (later : other ∈ others) :
    (inventory.after (made plan inventory before inFront)).Agree other inventory := by
  have foreign : Foreign inventory others (made plan inventory before inFront) := by
    intro decision among
    obtain ⟨stored, ⟨earlier, -⟩ | ⟨here, -⟩⟩ := cut.of_made among
    · exact ⟨stored, fun present => cut.apart.2.2 _ present earlier⟩
    · exact ⟨stored, here ▸ cut.apart.2.1⟩
  exact foreign.agree (List.Subset.refl _) later

/-- Where the decisions in front of a cut were made, nothing is called for in the accounts before,
the rest of the account of the cut, and all that is behind it. -/
theorem decisions_after (cut : Cut plan inventory before account others inFront behind) :
    plan.decisions (inventory.after (made plan inventory before inFront)) =
      accountDecisions plan (inventory.after inFront) account ++
        others.flatMap (accountDecisions plan inventory) := by
  have ahead : made plan inventory before inFront <+: plan.decisions inventory := ⟨_, cut.whole.symm⟩
  have done : ∀ other ∈ before,
      accountDecisions plan (inventory.after (made plan inventory before inFront)) other = [] := by
    intro other present
    have all : accountDecisions plan inventory other <+: accountDecisions plan inventory other :=
      List.prefix_rfl
    have nothing := accountDecisions_resumed all fun next rest both => by simp at both
    rw [accountDecisions_congr (cut.agree_before present)]
    exact List.append_right_eq_self.1 nothing
  have untouched : ∀ other ∈ others,
      accountDecisions plan (inventory.after (made plan inventory before inFront)) other =
        accountDecisions plan inventory other :=
    fun other later => accountDecisions_congr (cut.agree_behind later)
  rw [Plan.decisions, (outranked_of_ahead ahead).lossless.accounts, cut.accounts,
    List.flatMap_append, List.flatMap_cons, List.flatMap_eq_nil_iff.2 done, List.nil_append,
    accountDecisions_congr cut.agree_here, List.flatMap_congr untouched]

end Cut

/-- Decisions that are not the last ones end in an account. -/
theorem exists_cut {made rest : List Decision} {next : Decision}
    (split : plan.decisions inventory = made ++ next :: rest) :
    ∃ before account others inFront behind,
      Cut plan inventory before account others inFront (next :: behind) ∧
        made = Cut.made plan inventory before inFront ∧
        rest = behind ++ others.flatMap (accountDecisions plan inventory) := by
  obtain ⟨before, account, others, inFront, behind, accounts, decided, rfl⟩ := split_flatMap split
  have cut : Cut plan inventory before account others inFront (next :: behind) := ⟨accounts, decided⟩
  refine ⟨before, account, others, inFront, behind, cut, rfl, ?_⟩
  have both := List.append_cancel_left (split.symm.trans cut.whole)
  exact (List.cons.inj both).2

/-! ### A run after a stop -/

/-- The stop behind some decisions falls into the scan of a host that is removed by them. -/
def Orphaned (whole made : List Decision) : Prop :=
  ∃ next rest, whole = made ++ next :: rest ∧ next.scanned.id ∈ duplicateIds made

/-- A host that is gone before its scan is through was removed by that scan. -/
theorem exists_removal_of_orphaned {made rest : List Decision} {next : Decision}
    (split : plan.decisions inventory = made ++ next :: rest)
    (gone : next.scanned.id ∈ duplicateIds made) :
    ∃ removal ∈ made, removal.scanned = next.scanned ∧ removal.duplicate = next.scanned := by
  obtain ⟨earlier, group, filter, rfl, arises⟩ := exists_arises split
  obtain ⟨stored, kept⟩ := mem_after.1 arises.present
  rw [duplicateIds_append, List.mem_append] at gone
  obtain ⟨removal, among, same⟩ := List.mem_map.1 (gone.resolve_left kept)
  have present := ((outranked_of_ahead ⟨_, split.symm⟩).stored
    (List.mem_append_right earlier among)).1
  exact ⟨removal, List.mem_append_right _ among, (arises.alike removal among).1,
    inventory.distinctIds.eq_of_id present stored same⟩

/-- First decisions are all there are, and none come later, or another one is due. -/
theorem all_or_next {made : List Decision} (ahead : made <+: plan.decisions inventory) :
    (made = plan.decisions inventory ∧ plan.decisions (inventory.after made) = []) ∨
      ∃ next rest, plan.decisions inventory = made ++ next :: rest := by
  obtain ⟨rest, whole⟩ := ahead
  cases rest with
  | nil =>
      rw [List.append_nil] at whole
      subst whole
      exact Or.inl ⟨rfl, decisions_of_undisputed (undisputed_after plan inventory)⟩
  | cons next rest => exact Or.inr ⟨next, rest, whole.symm⟩

/-- Unless the host whose scan was cut short is gone, the decisions left are those not made. -/
theorem decisions_resumed {made : List Decision} (ahead : made <+: plan.decisions inventory)
    (kept : ¬ Orphaned (plan.decisions inventory) made) :
    made ++ plan.decisions (inventory.after made) = plan.decisions inventory := by
  rcases all_or_next ahead with ⟨all, none⟩ | ⟨next, rest, whole⟩
  · rw [none, List.append_nil, all]
  · obtain ⟨before, account, others, inFront, behind, cut, rfl, rfl⟩ := exists_cut whole
    have resumed : inFront ++ accountDecisions plan (inventory.after inFront) account =
        inFront ++ next :: behind := by
      rw [← cut.decided]
      refine accountDecisions_resumed ⟨_, cut.decided.symm⟩ fun further more split named => ?_
      obtain ⟨rfl, -⟩ := List.cons.inj (List.append_cancel_left (cut.decided.symm.trans split))
      exact kept ⟨next, _, whole, List.map_subset _ (List.subset_append_right _ _) named⟩
    rw [cut.decisions_after, List.append_cancel_left resumed, cut.whole]

/-- In an account of groups the same hosts are removed in the end. -/
theorem after_decisions_resumed {made : List Decision} (ahead : made <+: plan.decisions inventory)
    (grouped : ∀ next rest, plan.decisions inventory = made ++ next :: rest →
      inventory.Grouped next.scanned.account) :
    inventory.after (made ++ plan.decisions (inventory.after made)) =
      inventory.after (plan.decisions inventory) := by
  rcases all_or_next ahead with ⟨all, none⟩ | ⟨next, rest, whole⟩
  · rw [none, List.append_nil, all]
  · obtain ⟨before, account, others, inFront, behind, cut, rfl, rfl⟩ := exists_cut whole
    have among : next ∈ accountDecisions plan inventory account :=
      cut.decided ▸ List.mem_append_right _ List.mem_cons_self
    have here : next.scanned.account = account := (mem_hostsOf.1 (accountDecisions_within among).2).2
    have ahead : inFront <+: accountDecisions plan inventory account := ⟨_, cut.decided.symm⟩
    have sameHosts := mem_duplicateIds_resumed (here ▸ grouped next _ whole) ahead
    refine after_congr inventory fun id => ?_
    have own := sameHosts id
    rw [cut.decided] at own
    rw [cut.decisions_after, cut.whole, Cut.made]
    simp only [duplicateIds_append, List.mem_append] at own ⊢
    tauto

end Scans

/-! ### Two runs -/

/-- Removals after others are in favour of better hosts if they are so for what the others left. -/
theorem Outranked.append {inventory : Inventory} {first second : List Decision}
    (before : Outranked inventory first) (behind : Outranked (inventory.after first) second) :
    Outranked inventory (first ++ second) := by
  intro earlier removal later split
  rcases split_append split with ⟨between, here⟩ | ⟨between, rfl, there⟩
  · exact before earlier removal between here
  · rw [after_append]
    exact behind between removal later there

section Runs

open Rehearsal

variable {plan : Plan} {inventory : Inventory}

/-- The decisions called for go by the hosts and policies alone. -/
theorem decisions_of_same {left right : Inventory} (hosts : left.hosts = right.hosts)
    (policies : left.policies = right.policies) : plan.decisions left = plan.decisions right := by
  cases left
  cases right
  cases hosts
  cases policies
  rfl

/-- What a run leaves takes no more pages than what it met. -/
theorem Plan.Roomy.left {left : Inventory} {made : List Decision} (roomy : plan.Roomy inventory)
    (hosts : left.hosts = (inventory.after made).hosts) : plan.Roomy left := by
  have fewer : left.size ≤ inventory.size := by
    rw [Inventory.size, hosts]
    exact List.length_filter_le _ _
  exact ⟨roomy.positive, Nat.lt_of_le_of_lt fewer roomy.enough⟩

theorem ValidPolicies.left {left : Inventory} {made : List Decision} (valid : ValidPolicies inventory)
    (hosts : left.hosts = (inventory.after made).hosts) (policies : left.policies = inventory.policies) :
    ValidPolicies left := by
  intro account listed
  obtain ⟨host, stored, owned⟩ := mem_accounts.1 listed
  rw [hosts] at stored
  rw [ValidPolicy, policies]
  exact valid account (mem_accounts.2 ⟨host, (mem_after.1 stored).1, owned⟩)

/-- A run that nobody stops and whose events are all taken carries out all that is called for, and
leaves nothing to do. -/
theorem run_left (eventTime : Nat → Recorder → Moment) (roomy : plan.Roomy inventory)
    (valid : ValidPolicies inventory) (real : plan.options.dryRun = false) {left : Inventory}
    {made : List Decision} (hosts : left.hosts = (inventory.after made).hosts)
    (policies : left.policies = inventory.policies) :
    let custody := (unstopped eventTime).custody
    let shelf : Shelf (Audience Recorder) := ⟨left, .fresh []⟩
    let result := run custody.toSurroundings plan shelf
    (∃ summary, result.1 = .ok summary) ∧
      removed custody plan shelf = plan.decisions (inventory.after made) ∧
      result.2.inventory.hosts =
        (inventory.after (made ++ plan.decisions (inventory.after made))).hosts ∧
      Settled plan (custody.held result.2) := by
  intro custody shelf result
  have harmless : Harmless plan [] (plan.expected left) := Or.inr fun _ _ => List.not_mem_nil
  have roomyLeft := roomy.left hosts
  have validLeft := valid.left hosts policies
  have completed := performed_completed eventTime roomyLeft validLeft real harmless
  have follows := performed_follows custody plan shelf
  have carried : removed custody plan shelf = plan.decisions (custody.held shelf) := by
    have due := follows.carried fun failure failed => by simp [custody, shelf, completed] at failed
    rwa [follows.completed completed, due_of_real (Bool.eq_false_iff.1 real)] at due
  have held := held_run custody plan shelf
  rw [carried] at held
  have sameDecisions : plan.decisions (custody.held shelf) = plan.decisions (inventory.after made) :=
    decisions_of_same hosts policies
  refine ⟨(run_harmless eventTime roomyLeft validLeft real harmless).2,
    carried.trans sameDecisions, ?_, ?_⟩
  · have leftHosts := congrArg Inventory.hosts held
    rw [sameDecisions] at leftHosts
    rw [after_append]
    exact leftHosts.trans (congrArg (List.filter _) hosts)
  · dsimp only [result]
    rw [held]
    exact (undisputed_after plan _).settled

/-- What two runs did one after the other, beside what one run does. -/
structure Resumed (plan : Plan) (inventory left : Inventory) (made again whole : List Decision) :
    Prop where
  /-- The stopped run carried out the first decisions. -/
  ahead : made <+: whole
  /-- The run after it leaves nothing to do. -/
  settled : Settled plan left
  /-- Over both runs no machine is lost. -/
  lossless : Lossless inventory (made ++ again)
  /-- Unless the host whose scan was cut short is gone, the run after the stop finds the duplicates
  the stop left in place, by the same scans and in favour of the same survivors. -/
  continued : ¬ Orphaned whole made → made ++ again = whole
  /-- If that host is gone, its own scan decided so. -/
  orphaned : Orphaned whole made → ∃ next rest, whole = made ++ next :: rest ∧
    ∃ removal ∈ made, removal.scanned = next.scanned ∧ removal.duplicate = next.scanned

/-- A stopped run can be started again. Let a run over an inventory in memory with valid policies be
stopped by any signal that goes by the number of polls and by the recorder, and be followed by a run
with the same options and clock that nobody stops; no event is refused. Both return, they leave
nothing to do and lose no machine. They end with the hosts that one run ends with, if the host whose
scan was cut short is still stored, as it is when the stop falls between scans, or if matching is
symmetric and transitive in its account. -/
theorem run_resumed (signal : Nat → Recorder → Bool)
    (firstTime againTime calmTime : Nat → Recorder → Moment) (roomy : plan.Roomy inventory)
    (valid : ValidPolicies inventory) (real : plan.options.dryRun = false) (stopAfter : Option Nat) :
    let stopped := (listening Recorder.emitter signal firstTime).custody
    let shelf : Shelf (Audience Recorder) := ⟨inventory, ⟨.start [] stopAfter, 0⟩⟩
    let first := run stopped.toSurroundings plan shelf
    let restart : Shelf (Audience Recorder) := ⟨first.2.inventory, .fresh []⟩
    let again := run (unstopped againTime).custody.toSurroundings plan restart
    let once := run (unstopped calmTime).custody.toSurroundings plan ⟨inventory, .fresh []⟩
    let made := removed stopped plan shelf
    let whole := removed (unstopped calmTime).custody plan ⟨inventory, .fresh []⟩
    (∃ summary, first.1 = .ok summary) ∧ (∃ summary, again.1 = .ok summary) ∧
      (∃ summary, once.1 = .ok summary) ∧
      Resumed plan inventory ((unstopped againTime).custody.held again.2) made
        (removed (unstopped againTime).custody plan restart) whole ∧
      (¬ Orphaned whole made ∨
          (∀ next rest, whole = made ++ next :: rest → inventory.Grouped next.scanned.account) →
        again.2.inventory.hosts = once.2.inventory.hosts) := by
  intro stopped shelf first restart again once made whole
  have ahead : made <+: plan.decisions inventory := prefix_removed stopped plan shelf
  have harmless : Harmless plan [] (plan.expected inventory) := Or.inr fun _ _ => List.not_mem_nil
  have firstReturned := run_of_unfailed signal firstTime plan shelf
    (performed_unfailed signal firstTime roomy valid real harmless stopAfter)
  -- The run after the stop meets the inventory without the hosts removed.
  obtain ⟨hosts, policies⟩ : first.2.inventory.hosts = (inventory.after made).hosts ∧
      first.2.inventory.policies = inventory.policies :=
    inventory_run (listening Recorder.emitter signal firstTime) plan inventory shelf.world
  obtain ⟨againReturned, more, againHosts, settled⟩ :=
    run_left againTime roomy valid real hosts policies
  obtain ⟨onceReturned, all, onceHosts, -⟩ :=
    run_left calmTime roomy valid real (congrArg Inventory.hosts (after_nil inventory).symm) rfl
  rw [List.nil_append, after_nil] at onceHosts
  rw [after_nil] at all
  refine ⟨⟨_, firstReturned⟩, againReturned, onceReturned, ⟨?_, settled, ?_, ?_, ?_⟩, ?_⟩
  · dsimp only [whole]
    rw [all]
    exact ahead
  · dsimp only [restart, first]
    rw [more]
    exact ((outranked_of_ahead ahead).append (outranked_of_ahead List.prefix_rfl)).lossless
  · intro kept
    dsimp only [whole, restart, first] at kept ⊢
    rw [all] at kept ⊢
    rw [more]
    exact decisions_resumed ahead kept
  · rintro ⟨next, rest, split, gone⟩
    exact ⟨next, rest, split, exists_removal_of_orphaned (all.symm.trans split) gone⟩
  · intro either
    dsimp only [whole, again, once] at either ⊢
    rw [all] at either
    rw [againHosts, onceHosts]
    rcases either with kept | grouped
    · rw [decisions_resumed ahead kept]
    · rw [after_decisions_resumed ahead grouped]

/-- Of three hosts two are removed by one scan; stopped between the two, it is taken up again. -/
theorem three_hosts_resumed :
    let stopped :=
      (listening Recorder.emitter (fun _ recorder => recorder.stopRaised) fun _ _ => .ofUnixSeconds 0).custody
    let first := run stopped.toSurroundings (calmPlan 1) ⟨threeHosts, ⟨.start [] (some 1), 0⟩⟩
    let calm := (unstopped fun _ _ => .ofUnixSeconds 0).custody.toSurroundings
    (calmPlan 1).Roomy threeHosts ∧ ValidPolicies threeHosts ∧ (calmPlan 1).options.dryRun = false ∧
      first.2.inventory.hosts.map (fun host => host.id.value) = [1, 3] ∧
      (run calm (calmPlan 1) ⟨first.2.inventory, .fresh []⟩).2.inventory.hosts =
        (run calm (calmPlan 1) ⟨threeHosts, .fresh []⟩).2.inventory.hosts := by
  intro stopped first calm
  have roomy : (calmPlan 1).Roomy threeHosts := ⟨by decide, by decide⟩
  have valid : ValidPolicies threeHosts := validPolicies_ofHosts _
  obtain ⟨-, -, -, -, same⟩ := run_resumed (fun _ recorder => recorder.stopRaised)
    (fun _ _ => .ofUnixSeconds 0) (fun _ _ => .ofUnixSeconds 0) (fun _ _ => .ofUnixSeconds 0)
    roomy valid rfl (some 1)
  refine ⟨roomy, valid, rfl, by decide, same (Or.inl ?_)⟩
  -- Both removals are of the scan of the first host, which is not among the hosts removed.
  rintro ⟨next, rest, split, gone⟩
  have scanned : (removed (unstopped fun _ _ => .ofUnixSeconds 0).custody (calmPlan 1)
      ⟨threeHosts, .fresh []⟩).map (fun decision => decision.scanned.id.value) = [1, 1] := by decide
  have made : (duplicateIds (removed stopped (calmPlan 1)
      ⟨threeHosts, ⟨.start [] (some 1), 0⟩⟩)).map HostId.value = [2] := by decide
  have first : next.scanned.id.value ∈ [1, 1] := by
    rw [← scanned, split]
    exact List.mem_map.2 ⟨next, List.mem_append_right _ List.mem_cons_self, rfl⟩
  have second : next.scanned.id.value ∈ [2] := by
    rw [← made]
    exact List.mem_map_of_mem gone
  simp only [List.mem_cons, List.not_mem_nil, or_false, or_self] at first second
  omega

/-- Three hosts. The first one's address is an address of all, the second and the third have one
more of their own; the third is the newest and the second the oldest. -/
def linkedHosts : Inventory :=
  .ofHosts [addressedHost (smallId 1) ["10.0.0.1"] 1,
    addressedHost (smallId 2) ["10.0.0.1", "10.0.0.2"] 0,
    addressedHost (smallId 3) ["10.0.0.1", "10.0.0.3"] 2]

/-- Only the first host links the others. It is the first one that its own scan removes; stopped
behind that, the run is not made up for by another, which finds nothing to do and leaves two hosts
where one run leaves one. -/
theorem linked_hosts_not_resumed :
    let stopped :=
      (listening Recorder.emitter (fun _ recorder => recorder.stopRaised) fun _ _ => .ofUnixSeconds 0).custody
    let first := run stopped.toSurroundings (calmPlan 1) ⟨linkedHosts, ⟨.start [] (some 1), 0⟩⟩
    let calm := (unstopped fun _ _ => .ofUnixSeconds 0).custody.toSurroundings
    let again := run calm (calmPlan 1) ⟨first.2.inventory, .fresh []⟩
    let once := run calm (calmPlan 1) ⟨linkedHosts, .fresh []⟩
    (calmPlan 1).Roomy linkedHosts ∧ ValidPolicies linkedHosts ∧ (calmPlan 1).options.dryRun = false ∧
      again.2.inventory.hosts.map (fun host => host.id.value) = [2, 3] ∧
      once.2.inventory.hosts.map (fun host => host.id.value) = [3] ∧
      again.2.inventory.hosts ≠ once.2.inventory.hosts := by
  intro stopped first calm again once
  have left : again.2.inventory.hosts.map (fun host => host.id.value) = [2, 3] := by decide
  have expected : once.2.inventory.hosts.map (fun host => host.id.value) = [3] := by decide
  refine ⟨⟨by decide, by decide⟩, validPolicies_ofHosts _, rfl, left, expected, fun same => ?_⟩
  rw [same, expected] at left
  cases left

end Runs

end HostPruning.Pruning
