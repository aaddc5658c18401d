import HostPruning.Pruning.Run
import HostPruning.Rehearsal.Recorder

/-!
# Rehearsing a run

A rehearsal runs the pruning of a real store with a recorder in place of the event
delivery and with disturbances that a script asks for: a stop signal at a given poll, calls
that fail, hosts that somebody else deletes first, a store that answers more than it was
asked for. The stage holds the store's state, the recorder and the counts of calls.
-/

namespace HostPruning.Rehearsal

/-- The calls of a host store. -/
inductive CallKind where
  | accounts
  | page
  | candidates
  | delete
  | policy
deriving DecidableEq

/-- The name of a call. -/
def CallKind.name : CallKind → String
  | .accounts => "list_accounts"
  | .page => "query_hosts"
  | .candidates => "query_candidates"
  | .delete => "delete_host"
  | .policy => "staleness_for"

/-- The calls in ascending order of their names. -/
def CallKind.all : List CallKind := [.delete, .accounts, .candidates, .page, .policy]

/-- The call a name stands for. -/
def CallKind.parse (name : String) : Option CallKind := CallKind.all.find? fun kind => kind.name = name

/-- The disturbances of a rehearsal. -/
structure Script where
  /-- The number of polls of the stop signal that are answered with no. -/
  stopPolls : Option Nat := none
  /-- Whether every flush fails. -/
  failFlush : Bool := false
  /-- Hosts that somebody else deletes just before the run does. -/
  vanishing : List HostId := []
  /-- Calls that fail: a kind and how many calls of it have been made by then. -/
  faults : List (CallKind × Int) := []
  /-- Whether the store knows no policies and the emitter needs no flush. -/
  bare : Bool := false
  /-- Whether the store answers candidates of all accounts and repeats accounts. -/
  leaking : Bool := false

/-- All that changes during a rehearsal. -/
structure Stage (State : Type) where
  state : State
  recorder : Recorder
  polls : Nat
  /-- The calls made, last one first. -/
  calls : List CallKind

namespace Stage

variable {State : Type}

/-- A stage on which nothing has happened yet. -/
def start (state : State) (recorder : Recorder) : Stage State := ⟨state, recorder, 0, []⟩

/-- How many calls of a kind have been made. -/
def made (stage : Stage State) (kind : CallKind) : Nat := stage.calls.count kind

/-- The counts of the calls made; kinds without a call are left out. -/
def callCounts (stage : Stage State) : List (CallKind × Nat) :=
  (CallKind.all.map fun kind => (kind, stage.made kind)).filter fun entry => 0 < entry.2

/-- Count a call and let it fail where the script says so. -/
def scripted {Answer : Type} (script : Script) (kind : CallKind) (call : Call State Answer) :
    Call (Stage State) Answer := fun stage =>
  let stage := { stage with calls := kind :: stage.calls }
  if script.faults.contains (kind, (stage.made kind : Int)) then
    (.error (.storage (.injected kind.name)), stage)
  else
    let (answer, state) := call stage.state
    (answer, { stage with state := state })

end Stage

variable {State : Type}

/-- The accounts in reverse, with the first of these again at the end. -/
def leakAccounts (store : HostStore State) : Call State (List String) := fun state =>
  match store.accounts state with
  | (.error failure, state) => (.error failure, state)
  | (.ok accounts, state) => (.ok (accounts.reverse ++ accounts.reverse.head?.toList), state)

/-- The candidates of some accounts, each account's in reverse. -/
def leakCandidatesOf (store : HostStore State) (filter : FactFilter) :
    List String → Call State (List Host)
  | [], state => (.ok [], state)
  | account :: rest, state =>
      match store.candidates account filter state with
      | (.error failure, state) => (.error failure, state)
      | (.ok candidates, state) =>
          match leakCandidatesOf store filter rest state with
          | (.error failure, state) => (.error failure, state)
          | (.ok others, state) => (.ok (candidates.reverse ++ others), state)

/-- The candidates of all accounts. -/
def leakCandidates (store : HostStore State) (filter : FactFilter) : Call State (List Host) := fun state =>
  match store.accounts state with
  | (.error failure, state) => (.error failure, state)
  | (.ok accounts, state) => leakCandidatesOf store filter accounts state

/-- Delete a host that may have been deleted by somebody else just before. -/
def deleteVanishing (script : Script) (store : HostStore State) (id : HostId) : Call State Removal :=
  fun state =>
    if script.vanishing.contains id then store.delete id (store.delete id state).2
    else store.delete id state

/-- A store as a script disturbs it. -/
def disturbedStore (script : Script) (store : HostStore State) : HostStore (Stage State) where
  accounts := Stage.scripted script .accounts
    (if script.leaking then leakAccounts store else store.accounts)
  page account after limit := Stage.scripted script .page (store.page account after limit)
  candidates account filter := Stage.scripted script .candidates
    (if script.leaking then leakCandidates store filter else store.candidates account filter)
  delete id := Stage.scripted script .delete (deleteVanishing script store id)
  policy account :=
    if script.bare then fun stage => (.ok none, stage)
    else Stage.scripted script .policy (store.policy account)

/-- The recorder as a script disturbs it. -/
def disturbedEmitter (script : Script) : Emitter (Stage State) where
  emit key event := (Recorder.emit key event).onPart Stage.recorder fun recorder stage =>
    { stage with recorder := recorder }
  flush stage :=
    if script.bare then (.ok (), stage)
    else
      let stage := { stage with recorder := (Recorder.flush stage.recorder).2 }
      if script.failFlush then (.error (.flush (.reported "injected flush failure")), stage)
      else (.ok (), stage)

/-- Ask whether to stop: from a given poll on, or once the recorder has raised its flag. -/
def pollStop (script : Script) (stage : Stage State) : Bool × Stage State :=
  let polled := match script.stopPolls with
    | none => false
    | some allowed => allowed ≤ stage.polls
  (polled || stage.recorder.stopRaised, { stage with polls := stage.polls + 1 })

/-- The surroundings of a rehearsal; every event gets the same moment. -/
def surroundings (script : Script) (store : HostStore State) (eventTime : Moment) :
    Pruning.Surroundings (Stage State) where
  store := disturbedStore script store
  emitter := disturbedEmitter script
  stopRequested := pollStop script
  eventTime _ := eventTime

end HostPruning.Rehearsal
