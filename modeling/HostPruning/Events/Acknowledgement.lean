/-!
# Acknowledgements

A broker answers for every published event, or its connection fails. The tracker counts the
answers and keeps the first failure, because later ones are usually its consequences. To
wait is to ask whether enough answers have come; that they have come outweighs a failure.
-/

namespace HostPruning.Events

/-- What a broker's connection reports. -/
inductive Notice where
  | acknowledged
  | failed (message : String)
deriving DecidableEq

/-- What happens on a connection, as far as it counts: other packets are passed over. -/
inductive Arrival where
  | acknowledgement
  | disconnection
  | other
  | failure (reason : String)
deriving DecidableEq

/-- What a connection reports of what happens on it. It ends where it is left or fails. -/
def reports : List Arrival → List Notice
  | [] => []
  | .acknowledgement :: rest => .acknowledged :: reports rest
  | .disconnection :: _ => []
  | .other :: rest => reports rest
  | .failure reason :: _ => [.failed ("mqtt connection failed: " ++ reason)]

/-- What has been reported so far. -/
structure Tracker where
  acknowledged : Nat
  failure : Option String
deriving DecidableEq

/-- Why a wait was in vain. -/
inductive WaitFault where
  | failed (message : String)
  | timedOut (seconds acknowledged target : Nat)
deriving DecidableEq

/-- The wording of a wait in vain. -/
def WaitFault.message : WaitFault → String
  | .failed message => message
  | .timedOut seconds acknowledged target =>
      "timed out after " ++ toString seconds ++ "s with " ++ toString acknowledged ++ "/" ++
        toString target ++ " acknowledgements"

namespace Tracker

/-- Nothing has been reported. -/
def start : Tracker := ⟨0, none⟩

/-- Take a report into account. -/
def record (tracker : Tracker) : Notice → Tracker
  | .acknowledged => { tracker with acknowledged := tracker.acknowledged + 1 }
  | .failed message => { tracker with failure := tracker.failure.or (some message) }

/-- The end of a wait for some number of answers, by what has been reported until then. -/
def waitFor (target seconds : Nat) (tracker : Tracker) : Except WaitFault Nat :=
  if target ≤ tracker.acknowledged then .ok tracker.acknowledged
  else match tracker.failure with
    | some message => .error (.failed message)
    | none => .error (.timedOut seconds tracker.acknowledged target)

/-- The first failure stays. -/
theorem failure_record {tracker : Tracker} {message : String} (failed : tracker.failure = some message)
    (notice : Notice) : (tracker.record notice).failure = some message := by
  cases notice <;> simp [record, failed]

end Tracker

end HostPruning.Events
