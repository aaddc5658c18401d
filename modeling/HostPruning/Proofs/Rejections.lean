import HostPruning.CommandLine.Execution
import HostPruning.Proofs.Validity

/-!
# Runs that are rejected for their settings

A run loads its settings before it touches anything, so one that finds them missing, unreadable or invalid
leaves all files as they are. The page size that the command line asks for is looked at last: behind the
migration, and behind the opening of the event file, which empties it. `rejected_run` says exactly what
such a run leaves. Hosts and policies are still there, unless the events were to go into the database's own
file, but the events of the run before are not (`rejected_run_empties`).
-/

namespace HostPruning.CommandLine

open Pruning Database

/-! ### Files -/

/-- What a file is after it was opened for events and nothing was written: empty, unless it is a device. -/
def FileEntry.emptied : Option FileEntry → FileEntry
  | some (.device room refusal) => .device room refusal
  | _ => .bytes []

theorem FileEntry.emptied_of_ordinary {entry : Option FileEntry}
    (ordinary : ∀ room refusal, entry ≠ some (.device room refusal)) : emptied entry = .bytes [] := by
  unfold emptied
  split
  next room refusal => exact absurd rfl (ordinary room refusal)
  next => rfl

namespace Directory

variable {before after directory : Directory} {path name : String}

theorem get?_put (directory : Directory) (name other : String) (entry : FileEntry) :
    (directory.put name entry).files.get? other =
      if other = name then some entry else directory.files.get? other :=
  Table.get?_insert directory.files name other entry

/-- Where a file is depends on the folders alone; files only decide why there is none. -/
theorem locate_eq_ok_iff : directory.locate path = .ok name ↔
    ((path.toList.any fun char => char.toNat = 0) = false ∧ path.isEmpty = false ∧
      ((components path).any fun component => longestComponent < component.utf8ByteSize) = false ∧
      directory.isFolder path = false ∧ directory.isFolder (parent path) = true ∧
      insistsOnFolder path = false) ∧ normal path = name := by
  unfold locate
  repeat' split
  all_goals simp_all

theorem locate_eq_ok_congr (folders : after.folders = before.folders) :
    after.locate path = .ok name ↔ before.locate path = .ok name := by
  rw [locate_eq_ok_iff, locate_eq_ok_iff, isFolder, isFolder, isFolder, isFolder, folders]

/-- What the opening of an event file leaves when nothing is written: it is empty, and the others are what
they were. -/
structure Emptied (file : Option String) (before after : Directory) : Prop where
  folders : after.folders = before.folders
  others : ∀ name, file ≠ some name → after.files.get? name = before.files.get? name
  emptied : ∀ name, file = some name →
    after.files.get? name = some (FileEntry.emptied (before.files.get? name))

theorem Emptied.refl (directory : Directory) : Emptied none directory directory where
  folders := rfl
  others _ _ := rfl
  emptied := by rintro name ⟨⟩

end Directory

/-! ### Event files -/

/-- The path of the event file that a run opens: none for a dry run, and none where events go to a broker. -/
def RunRequest.eventPath? (request : RunRequest) (settings : Settings) : Option String :=
  if request.dryRun then none
  else request.eventsOut.or <| match settings.delivery with
    | .journal path => some path
    | .broker _ => none

/-- Where the event file is that a run opens. -/
def RunRequest.eventFile? (request : RunRequest) (settings : Settings) (directory : Directory) :
    Option String :=
  (request.eventPath? settings).bind fun path => (directory.locate path).toOption

section Opening

variable {request : RunRequest} {settings : Settings} {directory next : Directory} {outlet : Outlet}
  {path : String}

theorem openJournal_emptied (opened : Outlet.openJournal path directory = .ok (outlet, next)) :
    Directory.Emptied (directory.locate path).toOption directory (outlet.keep next) := by
  unfold Outlet.openJournal at opened
  cases located : directory.locate path with
  | error fault =>
      rw [located] at opened
      cases opened
  | ok name =>
      rw [located] at opened
      dsimp only at opened
      split at opened
      next room refusal device =>
        cases opened
        simp only [Outlet.keep, device, Except.toOption]
        refine ⟨rfl, fun _ _ => rfl, ?_⟩
        rintro _ ⟨⟩
        rw [device, FileEntry.emptied]
      next ordinary =>
        cases opened
        simp only [Outlet.keep, Directory.get?_put, if_true, Except.toOption]
        refine ⟨rfl, fun other apart => ?_, ?_⟩
        · have different : other ≠ name := fun same => apart (congrArg some same.symm)
          rw [Directory.get?_put, if_neg different, Directory.get?_put, if_neg different]
        · rintro _ ⟨⟩
          rw [Directory.get?_put, if_pos rfl, FileEntry.emptied_of_ordinary ordinary]
          rfl

/-- A run that opens its outlet and closes it again empties its event file, if it has one. -/
theorem openOutlet_emptied (opened : request.openOutlet settings directory = .ok (outlet, next)) :
    Directory.Emptied (request.eventFile? settings directory) directory (outlet.keep next) := by
  unfold RunRequest.openOutlet at opened
  unfold RunRequest.eventFile? RunRequest.eventPath?
  split at opened
  next dry =>
    cases opened
    rw [if_pos dry]
    exact .refl directory
  next real =>
    rw [if_neg real]
    split at opened
    next path given =>
      rw [given]
      exact openJournal_emptied opened
    next notGiven =>
      rw [notGiven]
      cases delivered : settings.delivery with
      | journal path =>
          rw [delivered] at opened
          exact openJournal_emptied opened
      | broker broker =>
          rw [delivered, Outlet.ofDelivery] at opened
          cases started : Events.Publisher.start broker with
          | error defect =>
              rw [started] at opened
              cases opened
          | ok publisher =>
              rw [started] at opened
              cases opened
              exact .refl directory

/-- What keeps an outlet from opening is the event file or the broker, never the page size. -/
theorem openOutlet_ne_chunkSizeZero (request : RunRequest) (settings : Settings) (directory : Directory) :
    request.openOutlet settings directory ≠ .error .chunkSizeZero := by
  have journal : ∀ path, Outlet.openJournal path directory ≠ .error .chunkSizeZero := by
    intro path refused
    unfold Outlet.openJournal at refused
    split at refused
    next => cases refused
    next => split at refused <;> cases refused
  intro refused
  unfold RunRequest.openOutlet at refused
  split at refused
  next => cases refused
  next =>
    split at refused
    next path _ => exact journal path refused
    next =>
      unfold Outlet.ofDelivery at refused
      split at refused
      next path _ => exact journal path refused
      next broker _ =>
        unfold Events.Publisher.start Events.Broker.validate at refused
        split at refused <;> cases refused

end Opening

/-! ### Jobs -/

section Jobs

variable {request : RunRequest} {environment : Environment} {settings : Settings} {database : Database}
  {directory : Directory}

theorem validate_ne_chunkSizeZero (policy : Lifecycle.Policy) : policy.validate ≠ .error .chunkSizeZero := by
  have offsets : ∀ (offsets : Lifecycle.Offsets) label, offsets.validate label ≠ .error .chunkSizeZero := by
    intro offsets label refused
    unfold Lifecycle.Offsets.validate at refused
    split at refused <;> cases refused
  intro refused
  unfold Lifecycle.Policy.validate at refused
  split at refused
  next defect invalid =>
    cases refused
    exact offsets _ _ invalid
  next => exact offsets _ _ refused

/-- A run that has begun does not end with its page size. -/
theorem prune_ne_chunkSizeZero (request : RunRequest) (environment : Environment) (plan : Plan)
    (state : JobState) :
    (request.prune environment plan state).1 ≠ .error (.setting .chunkSizeZero) := by
  have proper : environment.surroundings.emitter.Proper := by
    obtain ⟨emits, flushes⟩ := Emitter.proper_outlet environment.brokerNotices
    exact ⟨fun key event state => emits key event state.outlet, fun state => flushes state.outlet⟩
  have keeps : environment.surroundings.Keeps fun _ => True :=
    ⟨fun _ _ => trivial, fun _ _ _ => trivial, fun _ _ _ _ => trivial⟩
  have foreign : ¬ Origin environment.surroundings (fun _ => True) (.setting .chunkSizeZero) := by
    intro origin
    obtain ⟨_, policy, _, _, _, invalid⟩ := defect_of_origin rfl proper origin
    exact validate_ne_chunkSizeZero policy invalid
  unfold RunRequest.prune
  intro ended
  cases named : request.account with
  | some account =>
      rw [named] at ended
      exact foreign (origin_of_runAccount keeps trivial ended)
  | none =>
      rw [named] at ended
      exact foreign (origin_of_run keeps trivial ended)

/-- A planned job ends with its page size only if the plan is refused for it, and then it does nothing. -/
theorem carryOut_rejected {plan : Plan} {state next : JobState}
    (ended : request.carryOut environment plan state = (.error (.setting .chunkSizeZero), next)) :
    plan.validate = .error .chunkSizeZero ∧ next = state := by
  unfold RunRequest.carryOut at ended
  split at ended
  next defect refused =>
    cases ended
    exact ⟨refused, rfl⟩
  next =>
    split at ended
    next failure _ failed =>
      cases ended
      exact absurd (congrArg Prod.fst failed) (prune_ne_chunkSizeZero request environment plan state)
    next summary last _ =>
      split at ended
      next failure unanswered =>
        cases ended
        unfold Outlet.close at unanswered
        split at unanswered
        next publisher _ =>
          obtain ⟨fault, different⟩ :=
            (Emitter.proper_publisher environment.brokerNotices).flushes publisher _ unanswered
          cases different
        next => cases unanswered
      next => cases ended

/-- A job that ends with its page size asked for pages of no host, and has done nothing but empty its event
file. -/
theorem run_rejected (valid : settings.validate = .ok ()) {next : Database} {after : Directory}
    (ended : request.run environment settings database directory =
      (.error (.setting .chunkSizeZero), next, after)) :
    request.chunkSize = some 0 ∧ next = database ∧
      Directory.Emptied (request.eventFile? settings directory) directory after := by
  unfold RunRequest.run at ended
  split at ended
  next defect refused =>
    cases ended
    exact absurd refused (openOutlet_ne_chunkSizeZero request settings directory)
  next outlet opening opened =>
    have planned := validate_of_valid valid request environment.now (database.hostCount?.getD 0 + 2)
    dsimp only at ended
    cases worked : request.carryOut environment (request.plan environment settings database)
        ⟨database, outlet⟩ with
    | mk answer state =>
        rw [worked] at ended
        cases ended
        obtain ⟨refused, rfl⟩ := carryOut_rejected worked
        rw [RunRequest.plan, planned] at refused
        split at refused
        next zero => exact ⟨zero, rfl, openOutlet_emptied opened⟩
        next => cases refused

end Jobs

/-! ### Commands -/

/-- Whether a fault says that the settings file is missing, cannot be read, or is invalid. -/
def CommandFault.ofSettings : CommandFault → Bool
  | .settingsMissing _ => true
  | .settingsUnreadable _ => true
  | .settingsInvalid _ => true
  | _ => false

/-- What a run that is rejected for its page size leaves of the files: the event file is empty, every
other file but the database's is what it was, and the database has the hosts and policies that it had. One
whose file the events were to go to is lost. -/
structure Rejected (database : String) (events : Option String) (before after : Directory) : Prop where
  folders : after.folders = before.folders
  others : ∀ name, events ≠ some name → before.locate database ≠ .ok name →
    after.files.get? name = before.files.get? name
  emptied : ∀ name, events = some name → before.locate database ≠ .ok name →
    after.files.get? name = some (FileEntry.emptied (before.files.get? name))
  stored : (∀ name, events = some name → before.locate database ≠ .ok name) →
    ∃ old new, before.openDatabase database = .ok old ∧ after.openDatabase database = .ok new ∧
      SameStored old new
  lost : ∀ name old, events = some name → before.locate database = .ok name →
    before.files.get? name = some (.database old) → after.files.get? name = some (.bytes [])

section Commands

variable {invocation : Invocation} {request : RunRequest} {environment : Environment}
  {before after : Directory} {database : String} {events : Option String}

theorem files_saveDatabase {directory : Directory} (content : Database) {name : String}
    (apart : directory.locate database ≠ .ok name) :
    (directory.saveDatabase database content).files.get? name = directory.files.get? name := by
  unfold Directory.saveDatabase
  split
  next => rfl
  next =>
    split
    next => rfl
    next own located =>
      rw [Directory.get?_put, if_neg]
      rintro rfl
      exact apart located

theorem folders_saveDatabase (directory : Directory) (content : Database) :
    (directory.saveDatabase database content).folders = directory.folders := by
  unfold Directory.saveDatabase
  split
  next => rfl
  next => split <;> rfl

/-- A database that was opened can be saved and opened again. -/
theorem openDatabase_saveDatabase {old : Database} (opened : before.openDatabase database = .ok old)
    (folders : after.folders = before.folders) (content : Database) :
    ∃ new, (after.saveDatabase database content).openDatabase database = .ok new ∧
      (new = content ∨ old = .empty ∧ new = .empty) := by
  unfold Directory.openDatabase at opened ⊢
  unfold Directory.saveDatabase
  split at opened
  next passing =>
    cases opened
    rw [if_pos passing]
    exact ⟨.empty, rfl, Or.inr ⟨rfl, rfl⟩⟩
  next kept =>
    cases located : before.locate database with
    | error fault =>
        rw [located] at opened
        cases opened
    | ok name =>
        have found := (Directory.locate_eq_ok_congr folders).2 located
        rw [if_neg kept, if_neg kept, found]
        dsimp only
        have same : (after.put name (.database content)).folders = after.folders := rfl
        rw [(Directory.locate_eq_ok_congr same).2 found]
        dsimp only
        rw [Directory.get?_put, if_pos rfl]
        exact ⟨content, rfl, Or.inl rfl⟩

/-- A database stays in its place when another file is opened for events. -/
theorem supplants_eq_false (emptied : Directory.Emptied events before after)
    (apart : ∀ name, events = some name → before.locate database ≠ .ok name) :
    after.supplants before database = false := by
  cases located : before.locate database with
  | error fault => simp [Directory.supplants, Directory.entry?, located]
  | ok name =>
      have found := (Directory.locate_eq_ok_congr emptied.folders).2 located
      have same := emptied.others name fun events => apart name events located
      simp only [Directory.supplants, Directory.entry?, located, found, same]
      split
      next stored bytes =>
        rw [stored] at bytes
        cases bytes
      next => rfl

/-- The database of a run that opened its event file and was rejected then is saved, migrated, if it is
still there. -/
theorem rejected_of_emptied {old : Database} (opened : before.openDatabase database = .ok old)
    (emptied : Directory.Emptied events before after) :
    Rejected database events before (if after.supplants before database then after
      else after.saveDatabase database old.migrate.2) := by
  -- Saving touches no file but the database's own.
  have kept : ∀ name, before.locate database ≠ .ok name →
      (if after.supplants before database then after
        else after.saveDatabase database old.migrate.2).files.get? name = after.files.get? name := by
    intro name apart
    split
    next => rfl
    next =>
      exact files_saveDatabase _ fun located => apart ((Directory.locate_eq_ok_congr emptied.folders).1 located)
  refine ⟨?_, fun name silent apart => ?_, fun name heard apart => ?_, fun apart => ?_, ?_⟩
  · split
    next => exact emptied.folders
    next => rw [folders_saveDatabase, emptied.folders]
  · rw [kept name apart, emptied.others name silent]
  · rw [kept name apart, emptied.emptied name heard]
  · rw [supplants_eq_false emptied apart]
    obtain ⟨new, reopened, same⟩ := openDatabase_saveDatabase opened emptied.folders old.migrate.2
    refine ⟨old, new, opened, reopened, ?_⟩
    rcases same with rfl | ⟨rfl, rfl⟩
    · exact sameStored_migrate old
    · exact ⟨rfl, rfl⟩
  · intro name content heard located stored
    have found := (Directory.locate_eq_ok_congr emptied.folders).2 located
    have empty : after.files.get? name = some (.bytes []) := by
      rw [emptied.emptied name heard, stored, FileEntry.emptied_of_ordinary (by rintro room refusal ⟨⟩)]
    have supplanted : after.supplants before database = true := by
      simp only [Directory.supplants, Directory.entry?, located, found, stored, empty]
    rw [supplanted]
    exact empty

theorem ofSettings_of_loadSettings {option : Option String} {fault : CommandFault}
    (failed : loadSettings environment before option = .error fault) : fault.ofSettings = true := by
  have ofFile {path : String} (unread : readSettings before path = .error fault) : fault.ofSettings = true := by
    unfold readSettings at unread
    split at unread
    next =>
      cases unread
      rfl
    next =>
      split at unread
      next =>
        cases unread
        rfl
      next => cases unread
  unfold loadSettings at failed
  split at failed
  next =>
    split at failed
    next => exact ofFile failed
    next =>
      cases failed
      rfl
  next =>
    split at failed
    next => exact ofFile failed
    next => cases failed

/-- Behind the settings a run fails with faults of other kinds. One that it ends with for its page size
comes after the migration and the opening of the event file. -/
theorem migrateFirst_rejected {settings : Settings} (valid : settings.validate = .ok ()) {old next : Database}
    {fault : CommandFault}
    (ended : (InventoryCommand.prune request).migrateFirst environment settings old before =
      ((.error fault, next), after)) :
    fault.ofSettings = false ∧ (fault = .run (.setting .chunkSizeZero) →
      request.chunkSize = some 0 ∧ next = old.migrate.2 ∧
        Directory.Emptied (request.eventFile? settings before) before after) := by
  unfold InventoryCommand.migrateFirst at ended
  split at ended
  next =>
    cases ended
    exact ⟨rfl, by rintro ⟨⟩⟩
  next migrated migrating =>
    unfold InventoryCommand.carryOut at ended
    dsimp only at ended
    cases worked : request.run environment settings migrated before with
    | mk answer rest =>
        rw [worked] at ended
        cases answer with
        | ok report => cases ended
        | error failure =>
            cases ended
            refine ⟨rfl, ?_⟩
            rintro ⟨⟩
            obtain ⟨zero, same, emptied⟩ := run_rejected valid worked
            exact ⟨zero, by rw [same, migrating], emptied⟩

/-- A run that fails for its settings file has touched nothing. One that fails for its page size was asked
for pages of no host, by the command line and not by the settings, and leaves what `Rejected` says. -/
theorem rejected_run {fault : CommandFault} (pruning : invocation.command = .inventory (.prune request))
    (ended : invocation.carryOut environment before = (.error fault, after)) :
    (fault.ofSettings = true → after = before) ∧
      (fault = .run (.setting .chunkSizeZero) → request.chunkSize = some 0 ∧
        ∃ settings, loadSettings environment before invocation.settings = .ok settings ∧
          Rejected invocation.database (request.eventFile? settings before) before after) := by
  unfold Invocation.carryOut at ended
  rw [pruning] at ended
  dsimp only at ended
  cases loaded : loadSettings environment before invocation.settings with
  | error unloaded =>
      rw [loaded] at ended
      cases ended
      refine ⟨fun _ => rfl, ?_⟩
      rintro rfl
      cases ofSettings_of_loadSettings loaded
  | ok settings =>
      rw [loaded] at ended
      dsimp only at ended
      unfold withDatabase at ended
      cases opened : before.openDatabase invocation.database with
      | error unopened =>
          rw [opened] at ended
          cases ended
          exact ⟨by rintro ⟨⟩, by rintro ⟨⟩⟩
      | ok old =>
          rw [opened] at ended
          dsimp only at ended
          cases worked : (InventoryCommand.prune request).migrateFirst environment settings old before with
          | mk result middle =>
              obtain ⟨answer, next⟩ := result
              rw [worked] at ended
              cases answer with
              | ok report => cases ended
              | error failure =>
                  cases ended
                  obtain ⟨other, refused⟩ := migrateFirst_rejected (validate_of_loadSettings loaded) worked
                  refine ⟨fun ofSettings => ?_, fun forSize => ?_⟩
                  · rw [other] at ofSettings
                    cases ofSettings
                  · obtain ⟨zero, rfl, emptied⟩ := refused forSize
                    exact ⟨zero, settings, rfl, rejected_of_emptied opened emptied⟩

end Commands

/-- What stands in the event file of an earlier run. -/
def undelivered : List UInt8 := Text.utf8 "\x7b\"key\":\"kept\"\x7d\n"

/-- A folder with the events of an earlier run. -/
def withUndelivered : Directory := Directory.standard.put Delivery.standardPath (.bytes undelivered)

/-- An environment in which nothing is said and nobody stops a run. -/
def plainEnvironment : Environment := ⟨.ofUnixSeconds 0, none, false, []⟩

/-- A command that fails, whatever it would have reported. -/
theorem eq_error_of_map {answer : Except CommandFault Json} {fault : CommandFault}
    (failed : (answer.map fun _ => ()) = .error fault) : answer = .error fault := by
  cases answer with
  | ok report => cases failed
  | error other => exact congrArg Except.error (Except.error.inj failed)

/-- A database with a host and a policy. A run that is asked for pages of no host leaves both, and one
that is told of settings that are not there leaves the events as well. -/
theorem stored_host_stays :
    let stored : Database := ⟨some [1, 2],
      some [HostRow.written (Inventory.exampleHost ⟨1, by decide⟩ "acct-1" (.object []) 0)],
      some (Table.empty.insert "acct-1" ⟨.standard, "2026-01-01T00:00:00Z"⟩)⟩
    let before := withUndelivered.put "host_inventory.sqlite3" (.database stored)
    let request : RunRequest := ⟨none, some 0, false, none, none, false⟩
    let rejected : Invocation := ⟨standardDatabase, none, .inventory (.prune request)⟩
    let misled : Invocation := ⟨standardDatabase, some "absent.yaml", .inventory (.prune request)⟩
    ((rejected.carryOut plainEnvironment before).1 = .error (.run (.setting .chunkSizeZero)) ∧
      Rejected standardDatabase (some Delivery.standardPath) before
        (rejected.carryOut plainEnvironment before).2) ∧
    (misled.carryOut plainEnvironment before).1 = .error (.settingsMissing "absent.yaml") ∧
      (misled.carryOut plainEnvironment before).2 = before := by
  intro stored before request rejected misled
  have refused : (rejected.carryOut plainEnvironment before).1 =
      .error (.run (.setting .chunkSizeZero)) := eq_error_of_map (by decide +kernel)
  have missed : (misled.carryOut plainEnvironment before).1 = .error (.settingsMissing "absent.yaml") :=
    eq_error_of_map (by decide +kernel)
  have plain : loadSettings plainEnvironment before none = .ok .standard := rfl
  obtain ⟨-, settings, loaded, left⟩ := (@rejected_run rejected request plainEnvironment before _ _ rfl
    (Prod.ext refused rfl)).2 rfl
  have standard : settings = .standard := Except.ok.inj (loaded.symm.trans plain)
  have file : request.eventFile? .standard before = some Delivery.standardPath := by decide +kernel
  rw [standard, file] at left
  exact ⟨⟨refused, left⟩, missed, (@rejected_run misled request plainEnvironment before _ _ rfl
    (Prod.ext missed rfl)).1 rfl⟩

/-- A run that is asked for pages of no host is refused for that, and the events of an earlier run, which
nobody has read yet, are gone. -/
theorem rejected_run_empties :
    ∃ invocation, Invocation.ofArguments ["dedup", "run", "--chunk-size", "0"] = .ok invocation ∧
      (invocation.carryOut plainEnvironment withUndelivered).1 = .error (.run (.setting .chunkSizeZero)) ∧
      withUndelivered.bytes? Delivery.standardPath = some undelivered ∧
      (invocation.carryOut plainEnvironment withUndelivered).2.bytes? Delivery.standardPath = some [] := by
  refine ⟨⟨standardDatabase, none, .inventory (.prune ⟨none, some 0, false, none, none, false⟩)⟩,
    ?_, ?_, ?_, ?_⟩
  · rfl
  · rfl
  · decide +kernel
  · decide +kernel

end HostPruning.CommandLine
