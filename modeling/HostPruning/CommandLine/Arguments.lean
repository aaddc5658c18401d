/-!
# Command line arguments

A command line goes down a tree of commands. At each level options come before the name of
the next command, and an option belongs to its own level only. Arguments are looked at from
left to right: the first that cannot be accepted ends the reading, and so does a request for
help. What is missing shows only at the end.
-/

namespace HostPruning.CommandLine

/-- Why a command line is not carried out. -/
inductive Halt where
  /-- Help was asked for. -/
  | help
  /-- The command line is not well formed. -/
  | misuse
deriving DecidableEq

/-- A command: its options and the commands below it. -/
structure Level where
  /-- Options without a value. -/
  flags : List String
  /-- Options with a value, and which values they accept. -/
  valued : List (String × (String → Bool))
  /-- The commands below, by name. -/
  commands : List (String × Level)

/-- The options given at one level. -/
structure Given where
  flags : List String := []
  values : List (String × String) := []

namespace Given

/-- Whether an option without a value is given. -/
def has (given : Given) (name : String) : Bool := given.flags.contains name

/-- The value given for an option. -/
def value? (given : Given) (name : String) : Option String := given.values.lookup name

end Given

/-- Whether an argument looks like an option; a lone dash is a value. -/
def looksLikeOption (argument : String) : Bool :=
  match argument.toList with
  | ['-'] => false
  | '-' :: _ => true
  | _ => false

/-- The name of a long option and the value attached to it. -/
def splitOption (body : List Char) : String × Option String :=
  let name := String.ofList (body.takeWhile (· ≠ '='))
  match body.dropWhile (· ≠ '=') with
  | _ :: value => (name, some (String.ofList value))
  | [] => (name, none)

/-- Take an option without a value; it may be given once. -/
def takeFlag (name : String) (attached : Option String) (given : Given) : Except Halt Given :=
  if attached.isSome || given.has name then .error .misuse
  else .ok { given with flags := name :: given.flags }

/-- Take an option with a value that passes its test; it may be given once. -/
def takeValue (name value : String) (accepts : String → Bool) (given : Given) : Except Halt Given :=
  if (given.value? name).isSome || ! accepts value then .error .misuse
  else .ok { given with values := (name, value) :: given.values }

/-- The value of an option: attached, or the next argument unless that looks like an option. -/
def valueFor (attached : Option String) (rest : List String) : Except Halt (String × List String) :=
  match attached, rest with
  | some value, rest => .ok (value, rest)
  | none, next :: rest => if looksLikeOption next then .error .misuse else .ok (next, rest)
  | none, [] => .error .misuse

/-- What is asked with the command `help`: every further argument has to name a command. -/
def helpTopic : Level → List String → Halt
  | _, [] => .help
  | level, name :: rest =>
      match level.commands.lookup name with
      | some below => helpTopic below rest
      | none => if name = "help" && ! level.commands.isEmpty && rest.isEmpty then .help else .misuse
termination_by _ arguments => arguments.length

/-- Read the arguments of a level: the options given, and what is left from the name of the next
command on. The budget bounds the number of arguments. -/
def readLevel (level : Level) : Nat → List String → Given → Except Halt (Given × List String)
  | 0, _, _ => .error .misuse
  | _ + 1, [], given => if level.commands.isEmpty then .ok (given, []) else .error .misuse
  | budget + 1, argument :: rest, given =>
      match argument.toList with
      | ['-', '-'] =>
          if level.commands.isEmpty && rest.isEmpty then .ok (given, []) else .error .misuse
      | '-' :: '-' :: body =>
          let (name, attached) := splitOption body
          if name = "help" then .error (if attached.isSome then .misuse else .help)
          else if level.flags.contains name then
            match takeFlag name attached given with
            | .error halt => .error halt
            | .ok given => readLevel level budget rest given
          else match level.valued.lookup name with
            | none => .error .misuse
            | some accepts =>
                match valueFor attached rest with
                | .error halt => .error halt
                | .ok (value, rest) =>
                    match takeValue name value accepts given with
                    | .error halt => .error halt
                    | .ok given => readLevel level budget rest given
      | '-' :: 'h' :: _ => .error .help
      | other =>
          if other.head? = some '-' && 1 < other.length then .error .misuse
          else if (level.commands.lookup argument).isSome then .ok (given, argument :: rest)
          else if argument = "help" && ! level.commands.isEmpty then .error (helpTopic level rest)
          else .error .misuse

/-- Read the arguments of a level. -/
def Level.read (level : Level) (arguments : List String) : Except Halt (Given × List String) :=
  readLevel level (arguments.length + 1) arguments {}

end HostPruning.CommandLine
