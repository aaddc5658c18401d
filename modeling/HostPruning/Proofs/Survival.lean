import Mathlib.Data.List.Basic
import HostPruning.Proofs.Runs

/-!
# No machine is lost

Every removal is in favour of a stored host of the account that outranks the removed one.
That survivor may be removed later on, in favour of one that outranks it in turn. Since a
survivor is never removed before its duplicate, following survivors comes to an end, and it
ends at a stored host (`Lossless.ends`). So the newest host of an account stays, and every
account that had a host keeps one.

`run_lossless` says this of every run in custody, whatever its options and however it ended.
-/

namespace HostPruning.Pruning

open Inventory

/-- Whether a host was removed in favour of another, by their identifiers. -/
def Replaced (removals : List Decision) (gone kept : HostId) : Prop :=
  ∃ removal ∈ removals, removal.duplicate.id = gone ∧ removal.survivor.id = kept

/-- Each removal takes away a stored host, in favour of a stored one of its account that
outranks it. -/
def Outranked (before : Inventory) (removals : List Decision) : Prop :=
  ∀ earlier removal later, removals = earlier ++ removal :: later →
    removal.duplicate ∈ (before.after earlier).hosts ∧
      removal.survivor ∈ (before.after earlier).hosts ∧
        removal.survivor.account = removal.duplicate.account ∧
          removal.survivor.Outranks removal.duplicate

/-- Removals that lose no machine. -/
structure Lossless (before : Inventory) (removals : List Decision) : Prop where
  outranked : Outranked before removals
  /-- No host is removed twice, so the survivor of a removed host is one host. -/
  once : (duplicateIds removals).Nodup
  /-- Nobody can follow survivors for ever. -/
  wellFounded : WellFounded fun kept gone => Replaced removals gone kept
  /-- Following survivors leads from a removed host to hosts of its account that outrank it,
  each of them still stored or with a survivor of its own. -/
  followed : ∀ removal ∈ removals, ∀ id,
    Relation.TransGen (Replaced removals) removal.duplicate.id id →
      ∃ host ∈ before.hosts, host.id = id ∧ host.account = removal.duplicate.account ∧
        host.Outranks removal.duplicate ∧
          (host ∈ (before.after removals).hosts ∨ ∃ next, Replaced removals id next)
  /-- Following survivors ends at a stored host of the account that outranks the removed one. -/
  ends : ∀ removal ∈ removals, ∃ host ∈ (before.after removals).hosts,
    Relation.TransGen (Replaced removals) removal.duplicate.id host.id ∧
      host.account = removal.duplicate.account ∧ host.Outranks removal.duplicate
  /-- A host that no host of its account outranks is still stored. -/
  newest : ∀ host ∈ before.hosts,
    (∀ other ∈ before.hosts, other.account = host.account → ¬ other.Outranks host) →
      host ∈ (before.after removals).hosts
  /-- The accounts that own a host are the same as before. -/
  accounts : (before.after removals).accounts = before.accounts

namespace Outranked

variable {before : Inventory} {removals : List Decision}

/-- What holds of a removal without regard to its place. -/
theorem stored (outranked : Outranked before removals) {removal : Decision}
    (among : removal ∈ removals) :
    removal.duplicate ∈ before.hosts ∧ removal.survivor ∈ before.hosts ∧
      removal.survivor.account = removal.duplicate.account ∧
        removal.survivor.Outranks removal.duplicate := by
  obtain ⟨earlier, later, split⟩ := List.append_of_mem among
  obtain ⟨duplicate, survivor, alike, above⟩ := outranked earlier removal later split
  exact ⟨(mem_after.1 duplicate).1, (mem_after.1 survivor).1, alike, above⟩

/-- A stored host that is no longer stored was removed. -/
theorem removal_of_gone (outranked : Outranked before removals) {host : Host}
    (present : host ∈ before.hosts) (gone : host ∉ (before.after removals).hosts) :
    ∃ removal ∈ removals, removal.duplicate = host := by
  have named : host.id ∈ duplicateIds removals :=
    Classical.byContradiction fun unnamed => gone (mem_after.2 ⟨present, unnamed⟩)
  obtain ⟨removal, among, sameId⟩ := List.mem_map.1 named
  exact ⟨removal, among,
    before.distinctIds.eq_of_id (outranked.stored among).1 present sameId⟩

theorem once (outranked : Outranked before removals) : (duplicateIds removals).Nodup := by
  refine nodup_of_fresh fun inFront id behind split => ?_
  obtain ⟨earlier, others, removalsEq, rfl, othersEq⟩ := List.map_eq_append_iff.1 split
  obtain ⟨removal, later, rfl, rfl, -⟩ := List.map_eq_cons_iff.1 othersEq
  exact (mem_after.1 (outranked earlier removal later removalsEq).1).2

/-- A survivor is removed later than its duplicate, if at all. -/
theorem wellFounded (outranked : Outranked before removals) :
    WellFounded fun kept gone => Replaced removals gone kept := by
  refine Subrelation.wf ?_ (measure fun id : HostId =>
    (duplicateIds removals).length - (duplicateIds removals).idxOf id).wf
  rintro kept gone ⟨removal, among, rfl, rfl⟩
  obtain ⟨earlier, later, split⟩ := List.append_of_mem among
  obtain ⟨duplicate, survivor, -, above⟩ := outranked earlier removal later split
  obtain ⟨duplicateStored, duplicateFresh⟩ := mem_after.1 duplicate
  obtain ⟨survivorStored, survivorFresh⟩ := mem_after.1 survivor
  have apart : removal.duplicate.id ≠ removal.survivor.id := by
    intro same
    have equal := before.distinctIds.eq_of_id duplicateStored survivorStored same
    rw [equal] at above
    exact removal.survivor.not_outranks_self above
  have ids : duplicateIds removals =
      duplicateIds earlier ++ removal.duplicate.id :: duplicateIds later := by
    rw [split, duplicateIds_append]
    rfl
  have goneAt : (duplicateIds removals).idxOf removal.duplicate.id =
      (duplicateIds earlier).length := by
    rw [ids, List.idxOf_append_of_notMem duplicateFresh, List.idxOf_cons_self, Nat.add_zero]
  have keptAt : (duplicateIds earlier).length < (duplicateIds removals).idxOf removal.survivor.id := by
    rw [ids, List.idxOf_append_of_notMem survivorFresh, List.idxOf_cons_ne _ apart]
    omega
  have within : (duplicateIds earlier).length < (duplicateIds removals).length := by
    rw [ids, List.length_append, List.length_cons]
    omega
  show (duplicateIds removals).length - (duplicateIds removals).idxOf removal.survivor.id <
    (duplicateIds removals).length - (duplicateIds removals).idxOf removal.duplicate.id
  omega

/-- Each step along survivors leads to a host of the account that outranks the one before. -/
theorem followed (outranked : Outranked before removals) {removal : Decision}
    (among : removal ∈ removals) {id : HostId}
    (path : Relation.TransGen (Replaced removals) removal.duplicate.id id) :
    ∃ host ∈ before.hosts, host.id = id ∧ host.account = removal.duplicate.account ∧
      host.Outranks removal.duplicate := by
  have step : ∀ host ∈ before.hosts, ∀ id, Replaced removals host.id id →
      ∃ next ∈ before.hosts, next.id = id ∧ next.account = host.account ∧ next.Outranks host := by
    rintro host present _ ⟨other, otherAmong, sameId, rfl⟩
    obtain ⟨duplicate, survivor, alike, above⟩ := outranked.stored otherAmong
    obtain rfl := before.distinctIds.eq_of_id duplicate present sameId
    exact ⟨other.survivor, survivor, rfl, alike, above⟩
  induction path with
  | single replaced => exact step _ (outranked.stored among).1 _ replaced
  | tail _ replaced inductionHypothesis =>
      obtain ⟨host, present, rfl, here, above⟩ := inductionHypothesis
      obtain ⟨next, nextPresent, sameId, nextHere, nextAbove⟩ := step host present _ replaced
      exact ⟨next, nextPresent, sameId, nextHere.trans here, nextAbove.trans above⟩

/-- The induction is along survivors: what replaced a host comes to an end by itself. -/
theorem ends (outranked : Outranked before removals) {removal : Decision}
    (among : removal ∈ removals) :
    ∃ host ∈ (before.after removals).hosts,
      Relation.TransGen (Replaced removals) removal.duplicate.id host.id := by
  obtain ⟨gone, same⟩ : ∃ gone, removal.duplicate.id = gone := ⟨_, rfl⟩
  induction gone using outranked.wellFounded.induction generalizing removal with
  | _ gone inductionHypothesis =>
    subst same
    have replaced : Replaced removals removal.duplicate.id removal.survivor.id :=
      ⟨removal, among, rfl, rfl⟩
    have stored := (outranked.stored among).2.1
    by_cases kept : removal.survivor ∈ (before.after removals).hosts
    · exact ⟨removal.survivor, kept, .single replaced⟩
    · obtain ⟨next, nextAmong, nextEq⟩ := outranked.removal_of_gone stored kept
      obtain ⟨host, present, path⟩ :=
        inductionHypothesis _ replaced nextAmong (congrArg Host.id nextEq)
      rw [nextEq] at path
      exact ⟨host, present, path.head replaced⟩

/-- Removals that are each in favour of a better host lose no machine. -/
theorem lossless (outranked : Outranked before removals) : Lossless before removals where
  outranked := outranked
  once := outranked.once
  wellFounded := outranked.wellFounded
  followed := by
    intro removal among id path
    obtain ⟨host, present, rfl, here, above⟩ := outranked.followed among path
    refine ⟨host, present, rfl, here, above, ?_⟩
    by_cases kept : host ∈ (before.after removals).hosts
    · exact Or.inl kept
    · obtain ⟨next, nextAmong, rfl⟩ := outranked.removal_of_gone present kept
      exact Or.inr ⟨next.survivor.id, next, nextAmong, rfl, rfl⟩
  ends := by
    intro removal among
    obtain ⟨host, kept, path⟩ := outranked.ends among
    obtain ⟨reached, present, sameId, here, above⟩ := outranked.followed among path
    obtain rfl := before.distinctIds.eq_of_id present (mem_after.1 kept).1 sameId
    exact ⟨reached, kept, path, here, above⟩
  newest := by
    intro host present best
    refine Classical.byContradiction fun gone => ?_
    obtain ⟨removal, among, rfl⟩ := outranked.removal_of_gone present gone
    obtain ⟨-, survivor, alike, above⟩ := outranked.stored among
    exact best removal.survivor survivor alike above
  accounts := by
    refine ascendingDistinct_congr fun account => ?_
    simp only [List.mem_map]
    constructor
    · rintro ⟨host, kept, rfl⟩
      exact ⟨host, (mem_after.1 kept).1, rfl⟩
    · rintro ⟨host, present, rfl⟩
      by_cases kept : host ∈ (before.after removals).hosts
      · exact ⟨host, kept, rfl⟩
      · obtain ⟨removal, among, rfl⟩ := outranked.removal_of_gone present kept
        obtain ⟨last, lastKept, path⟩ := outranked.ends among
        obtain ⟨reached, reachedIn, sameId, here, -⟩ := outranked.followed among path
        obtain rfl := before.distinctIds.eq_of_id reachedIn (mem_after.1 lastKept).1 sameId
        exact ⟨reached, lastKept, here⟩

end Outranked

/-- What an inventory calls for is in favour of better hosts, however far it is carried out. -/
theorem outranked_of_ahead {plan : Plan} {inventory : Inventory} {removals : List Decision}
    (ahead : removals <+: plan.decisions inventory) : Outranked inventory removals := by
  intro before removal after split
  obtain ⟨earlier, group, filter, rfl, arises⟩ := exists_arises_of_ahead ahead split
  exact ⟨arises.duplicate_present, arises.survivor_present,
    arises.survivor_account.trans arises.duplicate_account.symm, arises.outranks⟩

/-- A run in custody only removes hosts, and it loses no machine: with any options, under any
disturbance, and whether it completes, is interrupted or fails. -/
theorem run_lossless {World : Type} (custody : Custody World) (plan : Plan) (world : World) :
    (custody.held (run custody.toSurroundings plan world).2).hosts =
        ((custody.held world).hosts.filter fun host =>
          host.id ∉ duplicateIds (removed custody plan world)) ∧
      Lossless (custody.held world) (removed custody plan world) := by
  refine ⟨?_, (outranked_of_ahead (prefix_removed custody plan world)).lossless⟩
  rw [held_run]
  rfl

end HostPruning.Pruning
