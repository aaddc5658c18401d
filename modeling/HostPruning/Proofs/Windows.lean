import Mathlib.Logic.ExistsUnique
import HostPruning.Lifecycle

/-!
# Windows over stale moments

A state adds an offset to the stale moment of a host and compares with `now`; a window takes the
offset from `now` and compares with the stale moment. Both are moves on a wall clock, each on a
clock of its own, that stop at the last reading. As long as neither stops, moving the one moment
forth and moving the other back compare alike (`boundary_lt_iff`), so a host has reached a boundary
exactly when its stale moment is not after it.

`windows_partition` puts the three boundaries together: every stale moment lies in the window of
the host's state and in no other one. Boundaries may coincide; the window between them is empty
then, and no host is in that state.
-/

namespace HostPruning

namespace Moment

/-- Whether a moment can be moved by some seconds and not be stopped on the way. -/
def Reaches (moment : Moment) (seconds : Int) : Prop :=
  representable (moment.wall + seconds * nanosPerSecond) = true

instance (moment : Moment) (seconds : Int) : Decidable (moment.Reaches seconds) :=
  inferInstanceAs (Decidable (_ = true))

variable {moment now reference : Moment} {seconds far : Int}

theorem reaches_iff : moment.Reaches seconds ↔
    leastWall ≤ moment.wall + seconds * nanosPerSecond ∧
      moment.wall + seconds * nanosPerSecond ≤ greatestWall := by
  simp [Reaches, representable]

/-- A moment that can be moved far forth can be moved a part of the way. -/
theorem Reaches.forth (reaches : moment.Reaches far) (stays : moment.Reaches 0) (forth : 0 ≤ seconds)
    (part : seconds ≤ far) : moment.Reaches seconds := by
  rw [reaches_iff, nanosPerSecond] at *
  omega

/-- A moment that can be moved far back can be moved a part of the way. -/
theorem Reaches.back (reaches : moment.Reaches (-far)) (stays : moment.Reaches 0)
    (back : 0 ≤ seconds) (part : seconds ≤ far) : moment.Reaches (-seconds) := by
  rw [reaches_iff, nanosPerSecond] at *
  omega

/-- Moving `now` back or the reference forth, the two compare alike. -/
theorem boundary_lt_iff (back : now.Reaches (-seconds)) (forth : reference.Reaches seconds) :
    now.addSeconds (-seconds) < reference ↔ now < reference.addSeconds seconds := by
  rw [lt_def, lt_def, unixNanos_addSeconds back, unixNanos_addSeconds forth, nanosPerSecond]
  omega

theorem boundary_le_iff (back : now.Reaches (-seconds)) (forth : reference.Reaches seconds) :
    reference ≤ now.addSeconds (-seconds) ↔ reference.addSeconds seconds ≤ now := by
  rw [le_def, le_def, unixNanos_addSeconds back, unixNanos_addSeconds forth, nanosPerSecond]
  omega

/-- A larger offset leads to a later moment. -/
theorem addSeconds_le_addSeconds (moment : Moment) (part : seconds ≤ far) :
    moment.addSeconds seconds ≤ moment.addSeconds far := by
  simp only [le_def, unixNanos, addSeconds, saturate, nanosPerSecond]
  omega

end Moment

namespace Lifecycle

open Moment

/-- Both kinds of hosts have offsets without a defect under a valid policy. -/
theorem Policy.defect?_offsets {policy : Policy} (valid : policy.validate = .ok ()) (kind : HostKind) :
    (policy.offsets kind).defect? = none := by
  have unrefused : ∀ {label : String} {offsets : Offsets},
      offsets.validate label = .ok () → offsets.defect? = none := by
    intro label offsets accepted
    unfold Offsets.validate at accepted
    split at accepted
    · cases accepted
    · assumption
  unfold Policy.validate at valid
  split at valid
  next => cases valid
  next accepted =>
    cases kind with
    | conventional => exact unrefused accepted
    | edge => exact unrefused valid

namespace Clock

variable {clock : Clock} {kind : HostKind} {reference : Moment}

/-- The window over the stale moments of hosts in a state. -/
def window (clock : Clock) (kind : HostKind) : State → Window
  | .fresh => clock.fresh kind
  | .stale => clock.stale kind
  | .staleWarning => clock.staleWarning kind
  | .culled => clock.culled kind

/-- Whether no boundary of a host is cut off by the ends of either clock: those of `now` and of the
host's stale moment are readings, and so are the two with the longest offset taken and added. -/
structure Unclipped (clock : Clock) (kind : HostKind) (reference : Moment) : Prop where
  nowReads : clock.now.Reaches 0
  referenceReads : reference.Reaches 0
  back : clock.now.Reaches (-(clock.policy.offsets kind).delete)
  forth : reference.Reaches (clock.policy.offsets kind).delete

/-- Where no boundary is cut off, a boundary of windows lies before a stale moment exactly when the
host's own one lies after `now`. -/
theorem Unclipped.boundary_lt_iff (unclipped : clock.Unclipped kind reference) {seconds : Int}
    (positive : 0 ≤ seconds) (within : seconds ≤ (clock.policy.offsets kind).delete) :
    clock.boundary seconds < reference ↔ clock.now < reference.addSeconds seconds :=
  Moment.boundary_lt_iff (unclipped.back.back unclipped.nowReads positive within)
    (unclipped.forth.forth unclipped.referenceReads positive within)

theorem Unclipped.boundary_le_iff (unclipped : clock.Unclipped kind reference) {seconds : Int}
    (positive : 0 ≤ seconds) (within : seconds ≤ (clock.policy.offsets kind).delete) :
    reference ≤ clock.boundary seconds ↔ reference.addSeconds seconds ≤ clock.now :=
  Moment.boundary_le_iff (unclipped.back.back unclipped.nowReads positive within)
    (unclipped.forth.forth unclipped.referenceReads positive within)

/-- A stale moment lies in the window of a state exactly when its host is in that state. -/
theorem contains_window_iff (valid : clock.policy.validate = .ok ())
    (unclipped : clock.Unclipped kind reference) (state : State) :
    (clock.window kind state).contains reference = true ↔ clock.stateOf reference kind = state := by
  obtain ⟨positive, toWarning, toDelete, -⟩ :=
    Offsets.defect?_eq_none.1 (Policy.defect?_offsets valid kind)
  have inOrder := addSeconds_le_addSeconds reference toWarning
  have warningFirst := addSeconds_le_addSeconds reference toDelete
  have staleLt := unclipped.boundary_lt_iff (Int.le_of_lt positive) (Int.le_trans toWarning toDelete)
  have staleLe := unclipped.boundary_le_iff (Int.le_of_lt positive) (Int.le_trans toWarning toDelete)
  have warningLt := unclipped.boundary_lt_iff (by omega) toDelete
  have warningLe := unclipped.boundary_le_iff (by omega) toDelete
  have deleteLt := unclipped.boundary_lt_iff (by omega) (Int.le_refl _)
  have deleteLe := unclipped.boundary_le_iff (by omega) (Int.le_refl _)
  unfold stateOf classify
  -- What is left compares `now` with the host's three boundaries, which are in order.
  cases state with
  | fresh =>
      simp only [window, fresh, boundaries, Window.contains, Bool.and_true, decide_eq_true_eq, staleLt]
      simp only [lt_def, le_def] at inOrder warningFirst ⊢
      grind
  | stale =>
      simp only [window, Clock.stale, boundaries, Window.contains, Bool.and_eq_true,
        decide_eq_true_eq, warningLt, staleLe]
      simp only [lt_def, le_def] at inOrder warningFirst ⊢
      grind
  | staleWarning =>
      simp only [window, staleWarning, boundaries, Window.contains, Bool.and_eq_true,
        decide_eq_true_eq, deleteLt, warningLe]
      simp only [lt_def, le_def] at inOrder warningFirst ⊢
      grind
  | culled =>
      simp only [window, culled, boundaries, Window.contains, Bool.true_and, decide_eq_true_eq, deleteLe]
      simp only [lt_def, le_def] at inOrder warningFirst ⊢
      grind

/-- Under a valid policy, and where no boundary is cut off, exactly one of the four windows holds a
stale moment: that of its host's state. The window of hosts that are not culled holds it exactly
when its host is not. -/
theorem windows_partition (valid : clock.policy.validate = .ok ())
    (unclipped : clock.Unclipped kind reference) :
    (∃! state, (clock.window kind state).contains reference = true) ∧
      (clock.window kind (clock.stateOf reference kind)).contains reference = true ∧
      ((clock.notCulled kind).contains reference = true ↔ clock.culledAt reference kind = false) := by
  have named := contains_window_iff valid unclipped
  refine ⟨⟨_, (named _).2 rfl, fun state holds => ((named state).1 holds).symm⟩, (named _).2 rfl, ?_⟩
  -- Who is not culled lies above the only bound of the window of culled hosts.
  have complement : (clock.notCulled kind).contains reference =
      !(clock.window kind .culled).contains reference := by
    rw [Bool.eq_iff_iff]
    simp [notCulled, window, culled, Window.contains, lt_def, le_def]
  rw [complement, culledAt, Bool.not_eq_true', ← Bool.not_eq_true, named, decide_eq_false_iff_not]

/-- The start of 2026 at a clock two hours ahead of UTC, under offsets two of which coincide. -/
def abruptClock : Clock where
  now := ⟨1767225600000000000, 7200⟩
  policy := ⟨⟨3600, 3600, 7200⟩, .edge⟩

/-- A stale moment an hour before the start of 2026 there, read at a clock five hours behind UTC. -/
def staleWest : Moment := ⟨1767196800000000000, -18000⟩

/-- At the very moment of two boundaries that coincide, on two clocks: the host is about to be culled,
and no other window than that of such hosts holds it. -/
theorem coinciding_boundaries_partition :
    abruptClock.policy.validate = .ok () ∧ abruptClock.Unclipped .conventional staleWest ∧
      abruptClock.stateOf staleWest .conventional = .staleWarning ∧
      (abruptClock.staleWarning .conventional).contains staleWest = true ∧
      ∃! state, (abruptClock.window .conventional state).contains staleWest = true := by
  have valid : abruptClock.policy.validate = .ok () := rfl
  have unclipped : abruptClock.Unclipped .conventional staleWest :=
    ⟨by decide, by decide, by decide, by decide⟩
  have partitioned := windows_partition valid unclipped
  exact ⟨valid, unclipped, by decide, partitioned.2.1, partitioned.1⟩

end Clock

end Lifecycle

end HostPruning
