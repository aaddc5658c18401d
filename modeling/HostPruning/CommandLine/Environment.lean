import HostPruning.CommandLine.Directory
import HostPruning.Events.Acknowledgement
import HostPruning.Settings

/-!
# The environment of a command

A command works on files, and it meets a few things that are no files: the moment, the
settings file that the environment names, a stop signal, and what a broker's connection
reports. Settings are looked for in three places, and the first that names a file counts:
the option, the environment, and a standard name. Only a file of the standard name may be
missing.
-/

namespace HostPruning.CommandLine

/-- What a command meets outside its files. -/
structure Environment where
  now : Moment
  /-- The settings file named by the environment; an empty name counts as none. -/
  settingsFile : Option String
  /-- Whether a run is asked to stop before it begins. -/
  stopRequested : Bool
  /-- What a broker's connection reports while a run waits for answers. -/
  brokerNotices : List Events.Notice

/-- The text of the moment. -/
def Environment.stamp (environment : Environment) : String := (Time.rfc3339 environment.now).getD ""

/-- Why a command fails. -/
inductive CommandFault where
  | settingsMissing (path : String)
  | settingsUnreadable (path : String)
  | settingsInvalid (path : String)
  | database (fault : DatabaseFault)
  | run (failure : Failure)
deriving DecidableEq

/-- The wording of a command's fault. -/
def CommandFault.message : CommandFault → String
  | .settingsMissing path => "configuration file does not exist: " ++ path
  | .settingsUnreadable path => "failed to read configuration file " ++ path
  | .settingsInvalid path => "invalid configuration file " ++ path
  | .database fault => fault.message
  | .run failure => failure.message

/-- The settings file looked for where none is named. -/
def standardSettingsFile : String := "hostdedup.yaml"

/-- The settings file that an option or the environment names. -/
def Environment.namedSettings (environment : Environment) (option : Option String) : Option String :=
  option.or (environment.settingsFile.filter fun path => ! path.isEmpty)

/-- Read settings from a file. -/
def readSettings (directory : Directory) (path : String) : Except CommandFault Settings :=
  match directory.text? path with
  | none => .error (.settingsUnreadable path)
  | some text =>
      match Settings.ofText text with
      | .error _ => .error (.settingsInvalid path)
      | .ok settings => .ok settings

/-- Find and read the settings. A file that is named has to exist. -/
def loadSettings (environment : Environment) (directory : Directory) (option : Option String) :
    Except CommandFault Settings :=
  match environment.namedSettings option with
  | some path =>
      if directory.exists? path then readSettings directory path else .error (.settingsMissing path)
  | none =>
      if directory.exists? standardSettingsFile then readSettings directory standardSettingsFile
      else .ok .standard

/-- Settings that a command works under are valid. -/
theorem validate_of_loadSettings {environment : Environment} {directory : Directory}
    {option : Option String} {settings : Settings}
    (loaded : loadSettings environment directory option = .ok settings) :
    settings.validate = .ok () := by
  have ofFile {path : String} (read : readSettings directory path = .ok settings) :
      settings.validate = .ok () := by
    simp only [readSettings] at read
    split at read
    · cases read
    · split at read
      · cases read
      next valid =>
        cases read
        exact Settings.validate_of_ofText valid
  simp only [loadSettings] at loaded
  split at loaded
  · split at loaded
    · exact ofFile loaded
    · cases loaded
  · split at loaded
    · exact ofFile loaded
    · cases loaded
      rfl

end HostPruning.CommandLine
