import HostPruning.CommandLine.Environment
import HostPruning.CommandLine.Invocation
import HostPruning.CommandLine.Outlet
import HostPruning.Database.Store
import HostPruning.Pruning.Run

/-!
# Pruning from the command line

A job prunes a database and lets its events leave through an outlet. The options come from
the settings, and what the command line says goes before them. The outlet is opened before
the options are looked at, so a job that is refused may have emptied the event file.
-/

namespace HostPruning.CommandLine

/-- What a job changes. -/
structure JobState where
  database : Database
  outlet : Outlet

/-- The options of a job: the settings, with what the request says instead. Culled hosts are
left alone when either asks for it. -/
def RunRequest.options (request : RunRequest) (settings : Settings) : Pruning.Options where
  chunkSize := request.chunkSize.getD settings.chunkSize
  emitFailure := request.emitFailure.getD settings.emitFailure
  dryRun := request.dryRun
  excludeCulled := settings.excludeCulled || request.excludeCulled

/-- The outlet of a job: none for a dry run, else the requested file, else the settings'. -/
def RunRequest.openOutlet (request : RunRequest) (settings : Settings) (directory : Directory) :
    Except SettingDefect (Outlet × Directory) :=
  if request.dryRun then .ok (.nowhere, directory)
  else match request.eventsOut with
    | some path => Outlet.openJournal path directory
    | none => Outlet.ofDelivery settings.delivery directory

/-- What a job meets. -/
def Environment.surroundings (environment : Environment) : Pruning.Surroundings JobState where
  store := Database.store.onPart JobState.database fun database state => { state with database := database }
  emitter :=
    let outlets := Outlet.emitter environment.brokerNotices
    let inState (call : Call Outlet Unit) : Call JobState Unit :=
      call.onPart JobState.outlet fun outlet state => { state with outlet := outlet }
    ⟨fun key event => inState (outlets.emit key event), inState outlets.flush⟩
  stopRequested state := (environment.stopRequested, state)
  eventTime _ := environment.now

/-- The plan of a job. A database that only this job changes is scanned within the budget. -/
def RunRequest.plan (request : RunRequest) (environment : Environment) (settings : Settings)
    (database : Database) : Pruning.Plan where
  options := request.options settings
  clock := ⟨environment.now, settings.policy⟩
  pageBudget := (database.hostCount?.getD 0) + 2

/-- Prune one account or all. -/
def RunRequest.prune (request : RunRequest) (environment : Environment) (plan : Pruning.Plan) :
    Call JobState Pruning.Summary :=
  match request.account with
  | some account => Pruning.runAccount environment.surroundings plan account
  | none => Pruning.run environment.surroundings plan

/-- The report of a job. -/
def jobReport (summary : Pruning.Summary) (options : Pruning.Options) (outlet : Outlet) : Json :=
  .object [("summary", summary.toJson), ("options", options.toJson), ("events", outlet.toJson)]

/-- Run a planned job, then close the outlet. -/
def RunRequest.carryOut (request : RunRequest) (environment : Environment) (plan : Pruning.Plan) :
    Call JobState Json := fun state =>
  match plan.validate with
  | .error defect => (.error (.setting defect), state)
  | .ok () =>
      match request.prune environment plan state with
      | (.error failure, state) => (.error failure, state)
      | (.ok summary, state) =>
          match state.outlet.close environment.brokerNotices with
          | .error failure => (.error failure, state)
          | .ok () => (.ok (jobReport summary plan.options state.outlet), state)

/-- Run a job on a migrated database. Whatever came of it, the database and the event file
stay as the job left them. -/
def RunRequest.run (request : RunRequest) (environment : Environment) (settings : Settings)
    (database : Database) (directory : Directory) : Except Failure Json × Database × Directory :=
  match request.openOutlet settings directory with
  | .error defect => (.error (.setting defect), database, directory)
  | .ok (outlet, directory) =>
      let plan := request.plan environment settings database
      let (answer, state) := request.carryOut environment plan ⟨database, outlet⟩
      (answer, state.database, state.outlet.keep directory)

end HostPruning.CommandLine
