import HostPruning.Database.Schema

/-!
# The working directory

The files a command works on, by their paths. Paths are compared component by component,
without empty components and single dots. A database is a file with tables; any other file
holds bytes, and an empty one can become a database. A device takes bytes and keeps none.
-/

namespace HostPruning.CommandLine

/-- What is stored under a path. -/
inductive FileEntry where
  | bytes (content : List UInt8)
  | database (content : Database)
  /-- A device with room for some bytes, and the reason it gives when it is full. -/
  | device (room : Option Nat) (refusal : String)

/-- Files and folders by their paths. The folder worked in is not listed. -/
structure Directory where
  files : Table String FileEntry
  folders : List String

/-- Why a path cannot be opened. -/
inductive PathFault where
  | missing
  | notFolder
  | folder
  | nulByte
  | tooLong
deriving DecidableEq

/-- The wording of a path fault. -/
def PathFault.message : PathFault → String
  | .missing => "No such file or directory (os error 2)"
  | .notFolder => "Not a directory (os error 20)"
  | .folder => "Is a directory (os error 21)"
  | .nulByte => "file name contained an unexpected NUL byte"
  | .tooLong => "File name too long (os error 36)"

namespace Directory

/-- The devices at their usual places: one that is always full, and one that takes everything. -/
def devices : List (String × FileEntry) :=
  [("/dev/full", .device (some 0) "No space left on device (os error 28)"), ("/dev/null", .device none "")]

/-- A folder without files, and the folders and devices around it. -/
def standard : Directory := ⟨Table.ofList devices, ["/", "/dev", ".."]⟩

/-- What stands between the slashes of a path. -/
def pieces (path : String) : List String := (path.toList.splitOn '/').map String.ofList

/-- The components of a path. -/
def components (path : String) : List String :=
  (pieces path).filter fun component => ! component.isEmpty && component ≠ "."

/-- Whether a path starts at the root. -/
def isAbsolute (path : String) : Bool := path.toList.head? = some '/'

/-- A path in the form in which paths are compared. -/
def normal (path : String) : String :=
  (if isAbsolute path then "/" else "") ++ Text.join "/" (components path)

/-- Whether a path insists on a folder by a slash or a dot at its end. -/
def insistsOnFolder (path : String) : Bool :=
  match (pieces path).getLast? with
  | some last => last.isEmpty || last = "."
  | none => false

/-- The most bytes a component may have. -/
def longestComponent : Nat := 255

/-- The folder a path lies in. -/
def parent (path : String) : String :=
  (if isAbsolute path then "/" else "") ++ Text.join "/" (components path).dropLast

/-- Whether a path is a folder. -/
def isFolder (directory : Directory) (path : String) : Bool :=
  (normal path).isEmpty || directory.folders.contains (normal path)

/-- The file of a path that can be opened, created or replaced: its normal path. -/
def locate (directory : Directory) (path : String) : Except PathFault String :=
  if path.toList.any fun char => char.toNat = 0 then .error .nulByte
  else if path.isEmpty then .error .missing
  else if (components path).any fun component => longestComponent < component.utf8ByteSize then
    .error .tooLong
  else if isFolder directory path then .error .folder
  else if ! isFolder directory (parent path) then
    .error (if (directory.files.get? (parent path)).isSome then .notFolder else .missing)
  else if insistsOnFolder path then
    .error (if (directory.files.get? (normal path)).isSome then .notFolder else .folder)
  else .ok (normal path)

/-- What is stored under a path. -/
def entry? (directory : Directory) (path : String) : Option FileEntry :=
  match directory.locate path with
  | .ok name => directory.files.get? name
  | .error _ => none

/-- Whether there is a file or a folder of a path. -/
def exists? (directory : Directory) (path : String) : Bool :=
  match directory.locate path with
  | .ok name => (directory.files.get? name).isSome
  | .error .folder => directory.isFolder path
  | .error _ => false

/-- A byte that no text starts with stands for the bytes of a database. -/
def databaseBytes : List UInt8 := [0xFF]

/-- The bytes of a file; none for a folder or a missing file. -/
def bytes? (directory : Directory) (path : String) : Option (List UInt8) :=
  match directory.entry? path with
  | some (.bytes content) => some content
  | some (.database _) => some databaseBytes
  | some (.device _ _) => some []
  | none => none

/-- The text of a file. -/
def text? (directory : Directory) (path : String) : Option String :=
  (directory.bytes? path).bind fun bytes => String.fromUTF8? ⟨bytes.toArray⟩

/-- Store a file. -/
def put (directory : Directory) (name : String) (entry : FileEntry) : Directory :=
  { directory with files := directory.files.insert name entry }

/-- Whether bytes were put in the place of a database that was stored under a path. -/
def supplants (after before : Directory) (path : String) : Bool :=
  match before.entry? path, after.entry? path with
  | some (.database _), some (.bytes _) => true
  | _, _ => false

/-- The name of a database that lives as long as one command. -/
def passingDatabase : String := ":memory:"

/-- Open a database: an empty or missing file becomes one. -/
def openDatabase (directory : Directory) (path : String) : Except DatabaseFault Database :=
  if path = passingDatabase then .ok .empty
  else match directory.locate path with
    | .error _ => .error (.cannotOpen path)
    | .ok name =>
        match directory.files.get? name with
        | none => .ok .empty
        | some (.bytes []) => .ok .empty
        | some (.database content) => .ok content
        | some _ => .error .notADatabase

/-- Store a database. -/
def saveDatabase (directory : Directory) (path : String) (database : Database) : Directory :=
  if path = passingDatabase then directory
  else match directory.locate path with
    | .error _ => directory
    | .ok name => directory.put name (.database database)

end Directory

end HostPruning.CommandLine
