import HostPruning.Inventory

/-!
# The order of survivors

Of two hosts the one modified later outranks the other, and of two modified at the same
instant the one with the larger identifier. Between hosts with distinct identifiers this
is a strict total order, so the survivor of a group does not depend on the order in which
a store answers: `inSurvivorOrder_congr` is what makes any answer as good as another.
-/

namespace HostPruning

/-- Modified later, or at the same instant and with the larger identifier. -/
def Host.Outranks (winner loser : Host) : Prop :=
  loser.modifiedOn < winner.modifiedOn ∨
    (loser.modifiedOn.unixNanos = winner.modifiedOn.unixNanos ∧ loser.id < winner.id)

namespace Host

/-- The order in terms of the numbers compared. -/
theorem outranks_iff {winner loser : Host} :
    winner.Outranks loser ↔ loser.modifiedOn.unixNanos < winner.modifiedOn.unixNanos ∨
      (loser.modifiedOn.unixNanos = winner.modifiedOn.unixNanos ∧
        loser.id.value < winner.id.value) :=
  Iff.rfl

theorem not_outranks_self (host : Host) : ¬ host.Outranks host := by
  rw [outranks_iff]
  omega

theorem Outranks.trans {first second third : Host} (upper : first.Outranks second)
    (lower : second.Outranks third) : first.Outranks third := by
  rw [outranks_iff] at upper lower ⊢
  omega

/-- Only a host with the same identifier can be neither above nor below another. -/
theorem outranks_total {left right : Host} (different : left.id ≠ right.id) :
    left.Outranks right ∨ right.Outranks left := by
  have values : left.id.value ≠ right.id.value := fun same => different (HostId.ext same)
  simp only [outranks_iff]
  omega

end Host

/-- A host comes first exactly when the other one does not outrank it. -/
theorem survivorFirst_iff {left right : Host} :
    survivorFirst left right = true ↔ ¬ right.Outranks left := by
  simp only [survivorFirst, Host.outranks_iff, Bool.or_eq_true, Bool.and_eq_true,
    Bool.not_eq_true', decide_eq_true_eq, decide_eq_false_iff_not, Moment.lt_def, HostId.lt_def]
  omega

/-- No two hosts of a list share an identifier. -/
def DistinctIds (hosts : List Host) : Prop :=
  hosts.Pairwise fun earlier later => earlier.id ≠ later.id

namespace DistinctIds

theorem sublist {fewer hosts : List Host} (distinct : DistinctIds hosts)
    (within : fewer.Sublist hosts) : DistinctIds fewer :=
  List.Pairwise.sublist within distinct

theorem perm {left right : List Host} (distinct : DistinctIds left) (same : left.Perm right) :
    DistinctIds right :=
  List.Pairwise.perm distinct same fun different => different.symm

/-- A host is known by its identifier. -/
theorem eq_of_id {hosts : List Host} (distinct : DistinctIds hosts) {left right : Host}
    (leftIn : left ∈ hosts) (rightIn : right ∈ hosts) (same : left.id = right.id) :
    left = right := by
  induction hosts with
  | nil => cases leftIn
  | cons head rest inductionHypothesis =>
      obtain ⟨headApart, restDistinct⟩ := List.pairwise_cons.1 distinct
      rcases List.mem_cons.1 leftIn with rfl | leftLater
      · rcases List.mem_cons.1 rightIn with rfl | rightLater
        · rfl
        · exact absurd same (headApart right rightLater)
      · rcases List.mem_cons.1 rightIn with rfl | rightLater
        · exact absurd same.symm (headApart left leftLater)
        · exact inductionHypothesis restDistinct leftLater rightLater

end DistinctIds

theorem insertSurvivor_perm (host : Host) (hosts : List Host) :
    (insertSurvivor host hosts).Perm (host :: hosts) := by
  induction hosts with
  | nil => exact List.Perm.refl [host]
  | cons head rest inductionHypothesis =>
      unfold insertSurvivor
      split
      · exact List.Perm.refl _
      · exact (inductionHypothesis.cons head).trans (List.Perm.swap host head rest)

theorem inSurvivorOrder_perm (hosts : List Host) : (inSurvivorOrder hosts).Perm hosts := by
  induction hosts with
  | nil => exact List.Perm.refl []
  | cons host rest inductionHypothesis =>
      exact (insertSurvivor_perm host _).trans (inductionHypothesis.cons host)

@[simp]
theorem mem_inSurvivorOrder {host : Host} {hosts : List Host} :
    host ∈ inSurvivorOrder hosts ↔ host ∈ hosts :=
  (inSurvivorOrder_perm hosts).mem_iff

/-- A host is put where nobody behind it outranks it and it outranks nobody in front of it. -/
theorem insertSurvivor_pairwise {host : Host} {hosts : List Host}
    (sorted : hosts.Pairwise fun earlier later => ¬ later.Outranks earlier) :
    (insertSurvivor host hosts).Pairwise fun earlier later => ¬ later.Outranks earlier := by
  induction hosts with
  | nil => exact List.pairwise_singleton _ host
  | cons head rest inductionHypothesis =>
      obtain ⟨headFirst, restSorted⟩ := List.pairwise_cons.1 sorted
      unfold insertSurvivor
      split
      next before =>
        rw [survivorFirst_iff] at before
        refine List.pairwise_cons.2 ⟨?_, sorted⟩
        intro other present above
        rcases List.mem_cons.1 present with rfl | later
        · exact before above
        · have notAbove := headFirst other later
          simp only [Host.outranks_iff] at before above notAbove
          omega
      next after =>
        rw [survivorFirst_iff, Classical.not_not] at after
        refine List.pairwise_cons.2 ⟨?_, inductionHypothesis restSorted⟩
        intro other present above
        rcases List.mem_cons.1 ((insertSurvivor_perm host rest).mem_iff.1 present) with rfl | later
        · exact head.not_outranks_self (after.trans above)
        · exact headFirst other later above

/-- Nobody outranks a host that stands in front of it. -/
theorem inSurvivorOrder_pairwise (hosts : List Host) :
    (inSurvivorOrder hosts).Pairwise fun earlier later => ¬ later.Outranks earlier := by
  induction hosts with
  | nil => exact List.Pairwise.nil
  | cons host rest inductionHypothesis => exact insertSurvivor_pairwise inductionHypothesis

/-- With distinct identifiers every host outranks those behind it. -/
theorem inSurvivorOrder_outranks {hosts : List Host} (distinct : DistinctIds hosts) :
    (inSurvivorOrder hosts).Pairwise Host.Outranks := by
  have apart := distinct.perm (inSurvivorOrder_perm hosts).symm
  refine (List.Pairwise.and apart (inSurvivorOrder_pairwise hosts)).imp ?_
  rintro earlier later ⟨different, notAbove⟩
  exact (Host.outranks_total different).resolve_right notAbove

/-- The survivor order of hosts does not depend on the order they come in. -/
theorem inSurvivorOrder_congr {left right : List Host} (distinct : DistinctIds left)
    (same : left.Perm right) : inSurvivorOrder left = inSurvivorOrder right := by
  have sorted : (inSurvivorOrder left).Perm (inSurvivorOrder right) :=
    (inSurvivorOrder_perm left).trans (same.trans (inSurvivorOrder_perm right).symm)
  refine List.Perm.eq_of_pairwise ?_ (inSurvivorOrder_outranks distinct)
    (inSurvivorOrder_outranks (distinct.perm same)) sorted
  intro earlier later _ _ above below
  exact absurd (above.trans below) earlier.not_outranks_self

end HostPruning
