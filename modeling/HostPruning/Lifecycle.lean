import HostPruning.Host

/-!
# The lifecycle of a host

A host names the moment at which it may be taken for stale. Three offsets after that
moment mark the boundaries at which it is stale, about to be culled and culled. A
`Lifecycle.Clock` fixes `now` once, so that every boundary of a run agrees. States add
the offsets to the host's moment; windows subtract them from `now`, for use in a query
over the moments. Both are boundaries of the same partition.
-/

namespace HostPruning.Lifecycle

/-- Seconds after a host's stale moment at which it reaches each boundary. -/
structure Offsets where
  stale : Int
  warning : Int
  delete : Int
deriving DecidableEq

namespace Offsets

/-- The offsets of conventional hosts: 29 hours, 7 days and 14 days. -/
def conventional : Offsets := ⟨29 * 3600, 7 * 86400, 14 * 86400⟩

/-- The offsets of edge hosts: 2 days, 180 days and 730 days. -/
def edge : Offsets := ⟨2 * 86400, 180 * 86400, 730 * 86400⟩

/-- What is wrong with the offsets: they have to be positive, in order and bounded. The
first defect counts. -/
def defect? (offsets : Offsets) : Option OffsetsDefect :=
  if offsets.stale ≤ 0 then some .staleNotPositive
  else if offsets.warning < offsets.stale then some .warningBeforeStale
  else if offsets.delete < offsets.warning then some .deleteBeforeWarning
  else if greatestOffset < offsets.delete then some .deleteTooLate
  else none

/-- Refuse offsets with a defect; the label names the kind of hosts in the message. -/
def validate (label : String) (offsets : Offsets) : Except SettingDefect Unit :=
  match offsets.defect? with
  | some defect => .error (.offsets label defect)
  | none => .ok ()

/-- Offsets without a defect are positive, in order and bounded. -/
theorem defect?_eq_none {offsets : Offsets} :
    offsets.defect? = none ↔ 0 < offsets.stale ∧ offsets.stale ≤ offsets.warning ∧
      offsets.warning ≤ offsets.delete ∧ offsets.delete ≤ greatestOffset := by
  simp only [defect?]
  split
  · simp only [reduceCtorEq, false_iff]; omega
  · split
    · simp only [reduceCtorEq, false_iff]; omega
    · split
      · simp only [reduceCtorEq, false_iff]; omega
      · split
        · simp only [reduceCtorEq, false_iff]; omega
        · simp only [true_iff]; omega

/-- The names of the offsets, in their declared order. -/
def fieldNames : List String := ["time_to_stale", "time_to_stale_warning", "time_to_delete"]

open Json in
/-- Decode offsets; all three are required. -/
def ofJson (value : Json) : Option Offsets := do
  let fields ← fields? fieldNames value
  return ⟨← required signed64? fields 0, ← required signed64? fields 1, ← required signed64? fields 2⟩

/-- Encode offsets. -/
def toJson (offsets : Offsets) : Json :=
  .object
    [("time_to_stale", .ofInt offsets.stale), ("time_to_stale_warning", .ofInt offsets.warning),
     ("time_to_delete", .ofInt offsets.delete)]

end Offsets

/-- The offsets of both kinds of hosts. -/
structure Policy where
  conventional : Offsets
  immutable : Offsets
deriving DecidableEq

namespace Policy

/-- The policy in effect where nothing else is said. -/
def standard : Policy := ⟨.conventional, .edge⟩

instance : Inhabited Policy := ⟨standard⟩

/-- The offsets for a kind of hosts. -/
def offsets (policy : Policy) : HostKind → Offsets
  | .conventional => policy.conventional
  | .edge => policy.immutable

/-- Refuse a policy with defective offsets; those of conventional hosts are looked at first. -/
def validate (policy : Policy) : Except SettingDefect Unit :=
  match policy.conventional.validate "conventional" with
  | .error defect => .error defect
  | .ok () => policy.immutable.validate "immutable"

open Json in
/-- Decode a policy; offsets that are not given are the standard ones. -/
def ofJson (value : Json) : Option Policy := do
  let fields ← fields? ["conventional", "immutable"] value
  return ⟨← defaulted .conventional Offsets.ofJson fields 0, ← defaulted .edge Offsets.ofJson fields 1⟩

/-- Encode a policy. -/
def toJson (policy : Policy) : Json :=
  .object [("conventional", policy.conventional.toJson), ("immutable", policy.immutable.toJson)]

end Policy

/-- Where a host is in its lifecycle. -/
inductive State where
  | fresh
  | stale
  | staleWarning
  | culled
deriving DecidableEq

/-- The name of a state. -/
def State.name : State → String
  | .fresh => "fresh"
  | .stale => "stale"
  | .staleWarning => "stale_warning"
  | .culled => "culled"

/-- The state by the first two boundaries alone; a boundary belongs to the later state. -/
def classify (now staleAt warningAt : Moment) : State :=
  if now < staleAt then .fresh else if now < warningAt then .stale else .staleWarning

/-- The moments at which a host reaches its boundaries. -/
structure Boundaries where
  staleAt : Moment
  warningAt : Moment
  culledAt : Moment

/-- Encode boundaries; a moment without a text has no encoding. -/
def Boundaries.toJson (boundaries : Boundaries) : Option Json := do
  return .object
    [("stale_at", ← Json.ofMoment boundaries.staleAt),
     ("stale_warning_at", ← Json.ofMoment boundaries.warningAt),
     ("culled_at", ← Json.ofMoment boundaries.culledAt)]

/-- A range of stale moments: those after the first moment and up to the second; a side
without a moment is open. -/
structure Window where
  after : Option Moment
  upTo : Option Moment

/-- Whether a moment lies in a window. -/
def Window.contains (window : Window) (reference : Moment) : Bool :=
  (match window.after with | none => true | some bound => bound < reference) &&
    (match window.upTo with | none => true | some bound => reference ≤ bound)

/-- A policy at one instant. -/
structure Clock where
  now : Moment
  policy : Policy

namespace Clock

/-- The same instant under another policy. -/
def withPolicy (clock : Clock) (policy : Policy) : Clock := { clock with policy := policy }

/-- The boundaries of a host with a given stale moment. -/
def boundaries (clock : Clock) (reference : Moment) (kind : HostKind) : Boundaries :=
  let offsets := clock.policy.offsets kind
  { staleAt := reference.addSeconds offsets.stale
    warningAt := reference.addSeconds offsets.warning
    culledAt := reference.addSeconds offsets.delete }

/-- The state of a host with a given stale moment. Culling is looked at first. -/
def stateOf (clock : Clock) (reference : Moment) (kind : HostKind) : State :=
  let boundaries := clock.boundaries reference kind
  if boundaries.culledAt ≤ clock.now then .culled
  else classify clock.now boundaries.staleAt boundaries.warningAt

/-- Whether a host with a given stale moment is culled. -/
def culledAt (clock : Clock) (reference : Moment) (kind : HostKind) : Bool :=
  clock.stateOf reference kind = .culled

/-- Whether a host is culled. -/
def isCulled (clock : Clock) (host : Host) : Bool := clock.culledAt host.staleTimestamp host.kind

/-- The latest stale moment of hosts that have reached a boundary. -/
def boundary (clock : Clock) (seconds : Int) : Moment := clock.now.addSeconds (-seconds)

/-- The stale moments of fresh hosts. -/
def fresh (clock : Clock) (kind : HostKind) : Window :=
  ⟨some (clock.boundary (clock.policy.offsets kind).stale), none⟩

/-- The stale moments of stale hosts. -/
def stale (clock : Clock) (kind : HostKind) : Window :=
  ⟨some (clock.boundary (clock.policy.offsets kind).warning),
    some (clock.boundary (clock.policy.offsets kind).stale)⟩

/-- The stale moments of hosts about to be culled. -/
def staleWarning (clock : Clock) (kind : HostKind) : Window :=
  ⟨some (clock.boundary (clock.policy.offsets kind).delete),
    some (clock.boundary (clock.policy.offsets kind).warning)⟩

/-- The stale moments of culled hosts. -/
def culled (clock : Clock) (kind : HostKind) : Window :=
  ⟨none, some (clock.boundary (clock.policy.offsets kind).delete)⟩

/-- The stale moments of hosts that are not culled. -/
def notCulled (clock : Clock) (kind : HostKind) : Window :=
  ⟨some (clock.boundary (clock.policy.offsets kind).delete), none⟩

end Clock

end HostPruning.Lifecycle
