import HostPruning.CommandLine.Job
import HostPruning.CommandLine.Report

/-!
# Carrying out a command

A command opens its database, changes it, and answers with a report. Commands on the tables
need no settings; the others load them before the database is opened, and migrate the
database before they do anything else. What a command changed stays changed when it fails
later on.
-/

namespace HostPruning.CommandLine

/-- What a command on a database comes to. -/
abbrev Result := Except CommandFault Json × Database

/-- A query as the end of a command. -/
def reporting (database : Database) (answer : Except DatabaseFault Json) : Result :=
  (answer.mapError .database, database)

/-- Migrate, and report where the database stood before and stands now. -/
def migrateReporting (database : Database) : Result :=
  let (before, database) := database.schemaStatus
  match database.migrate with
  | (.error fault, database) => (.error (.database fault), database)
  | (.ok (), database) =>
      let (after, database) := database.schemaStatus
      (.ok (migrationReport before after), database)

/-- Carry out a command on the tables. -/
def SchemaCommand.carryOut (command : SchemaCommand) (database : Database) : Result :=
  match command with
  | .version =>
      let (status, database) := database.schemaStatus
      (.ok (statusReport status), database)
  | .migrate true =>
      let (status, database) := database.schemaStatus
      (.ok (forecastReport status), database)
  | .migrate false => migrateReporting database
  | .integrityCheck =>
      let (report, database) := database.integrityCheck
      (.ok report.toJson, database)

/-- The lines of a file to import. A folder can be opened, but its first line cannot be read. -/
def importedLines (directory : Directory) (path : String) : Option (List Database.Line) :=
  if ! path.isEmpty && directory.isFolder path then some [none]
  else (directory.bytes? path).map Database.fileLines

/-- Import hosts from a file. -/
def importFrom (input : String) (skipExisting : Bool) (directory : Directory) (database : Database) :
    Result :=
  let (answer, database) := database.importFile input (importedLines directory input) skipExisting
  reporting database (answer.map (importReport input skipExisting))

/-- The policy of an account after a change; what is not given stays as it is stored, or as the
settings say. -/
def changedPolicy (settings : Settings) (stored : Option StoredPolicy)
    (conventional immutable : OffsetsChange) : Lifecycle.Policy :=
  let base := (stored.map StoredPolicy.policy).getD settings.policy
  ⟨conventional.apply base.conventional, immutable.apply base.immutable⟩

/-- Change the policy of an account. -/
def changePolicy (environment : Environment) (settings : Settings) (account : String)
    (conventional immutable : OffsetsChange) (database : Database) : Result :=
  match database.policyOf account with
  | .error fault => (.error (.database fault), database)
  | .ok stored =>
      let policy := changedPolicy settings stored conventional immutable
      match database.setPolicy account policy environment.stamp with
      | .error fault => (.error (.database fault), database)
      | .ok database => (.ok (policyReport account policy), database)

/-- The stored policies of one account, or of all. -/
def storedPolicies (account : Option String) (database : Database) :
    Except DatabaseFault (List (String × StoredPolicy)) :=
  match account with
  | none => database.listPolicies
  | some account =>
      (database.policyOf account).map fun stored => stored.toList.map fun stored => (account, stored)

/-- Carry out a command on the hosts and policies of a migrated database. -/
def InventoryCommand.carryOut (command : InventoryCommand) (environment : Environment)
    (settings : Settings) (database : Database) (directory : Directory) : Result × Directory :=
  match command with
  | .prune request =>
      let (answer, database, directory) := request.run environment settings database directory
      ((answer.mapError .run, database), directory)
  | .importHosts input skipExisting =>
      (importFrom input skipExisting directory database, directory)
  | .listHosts account =>
      (reporting database ((database.listHosts account).bind hostsReport), directory)
  | .hostStatus account =>
      (reporting database
        ((database.listHosts account).bind (lifecycleReport environment settings database)), directory)
  | .setPolicy account conventional immutable =>
      (changePolicy environment settings account conventional immutable database, directory)
  | .showPolicies account =>
      (reporting database ((storedPolicies account database).map (policiesReport settings)), directory)

/-- Migrate, then carry out a command on hosts and policies. -/
def InventoryCommand.migrateFirst (command : InventoryCommand) (environment : Environment)
    (settings : Settings) (database : Database) (directory : Directory) : Result × Directory :=
  match database.migrate with
  | (.error fault, database) => ((.error (.database fault), database), directory)
  | (.ok (), database) => command.carryOut environment settings database directory

/-- What came of a command, and the files afterwards. -/
abbrev Outcome := Except CommandFault Json × Directory

/-- Work on the database of a path, and store it again. It is lost when the work used its file for
something else. -/
def withDatabase (path : String) (directory : Directory)
    (work : Database → Directory → Result × Directory) : Outcome :=
  match directory.openDatabase path with
  | .error fault => (.error (.database fault), directory)
  | .ok database =>
      let ((answer, database), after) := work database directory
      (answer.map versioned,
        if after.supplants directory path then after else after.saveDatabase path database)

/-- Carry out a command. -/
def Invocation.carryOut (invocation : Invocation) (environment : Environment) (directory : Directory) :
    Outcome :=
  match invocation.command with
  | .schema command =>
      withDatabase invocation.database directory fun database directory =>
        (command.carryOut database, directory)
  | .inventory command =>
      match loadSettings environment directory invocation.settings with
      | .error fault => (.error fault, directory)
      | .ok settings =>
          withDatabase invocation.database directory (command.migrateFirst environment settings)

end HostPruning.CommandLine
