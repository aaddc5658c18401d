import HostPruning.Rehearsal.Stage

/-!
# Performances

A performance carries out one rehearsal: which accounts are pruned, by which plan, under
which disturbances, and into which recorder the events go.
-/

namespace HostPruning.Rehearsal

/-- Which accounts a performance prunes. -/
inductive Extent where
  | everyAccount
  | account (name : String)
  /-- One account, and no flush at the end. -/
  | accountOnly (name : String)

/-- What is rehearsed. -/
structure Performance where
  extent : Extent
  plan : Pruning.Plan
  script : Script
  recorder : Recorder

variable {State : Type}

/-- Prune the accounts of a performance. -/
def Extent.prune (extent : Extent) (around : Pruning.Surroundings World) (plan : Pruning.Plan) :
    Call World Pruning.Summary :=
  match extent with
  | .everyAccount => Pruning.run around plan
  | .account name => Pruning.runAccount around plan name
  | .accountOnly name => Pruning.resolveAccount around plan name

/-- Perform on a store; a plan that is not valid is refused before anything happens. Every event
gets the same moment. -/
def Performance.perform (performance : Performance) (store : HostStore State) (eventTime : Moment)
    (state : State) : Except Failure Pruning.Summary × Stage State :=
  let stage : Stage State := .start state performance.recorder
  match performance.plan.validate with
  | .error defect => (.error (.setting defect), stage)
  | .ok () =>
      performance.extent.prune (surroundings performance.script store eventTime) performance.plan stage

end HostPruning.Rehearsal
