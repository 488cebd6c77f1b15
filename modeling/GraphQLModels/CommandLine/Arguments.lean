import GraphQLModels.CommandLine.Pairs
import GraphQLModels.CommandLine.Parameter
import GraphQLModels.CommandLine.Place
import GraphQLModels.Text.Similarity

/-!
# Arguments

The arguments of a command are read into the options they give. A long name may be followed by an
equals sign and its value; short names may stand together, and the last of them may be followed by
its value. Two dashes end the options.
-/

namespace GraphQLModels.CommandLine

/-- What is wrong with a path. -/
inductive PathProblem where
  | missing | isFile | isDirectory
deriving DecidableEq, Repr

def PathProblem.label : PathProblem → String
  | .missing => "does not exist"
  | .isFile => "is a file"
  | .isDirectory => "is a directory"

/-- Why arguments are refused. -/
inductive UsageError where
  | noCommand
  | unknownCommand (name : String)
  | unknownOption (name : String) (similar : List String)
  | valueMissing (name : String)
  | valueUnwanted (name : String)
  | optionMissing (hint : String)
  | badPath (hint kind path : String) (problem : PathProblem)
  | unexpected (arguments : List String)
  | notOneSource
  | pair (e : PairError)
deriving DecidableEq, Repr

def UsageError.message : UsageError → String
  | .noCommand => "Missing command."
  | .unknownCommand name => s!"No such command {Text.quoted name}."
  | .unknownOption name [] => s!"No such option: {name}"
  | .unknownOption name [other] => s!"No such option: {name} Did you mean {other}?"
  | .unknownOption name similar =>
    let listed := ", ".intercalate (similar.mergeSort fun a b => a ≤ b)
    s!"No such option: {name} (Possible options: {listed})"
  | .valueMissing name => s!"Option {Text.quoted name} requires an argument."
  | .valueUnwanted name => s!"Option {Text.quoted name} does not take a value."
  | .optionMissing hint => s!"Missing option {hint}."
  | .badPath hint kind path problem =>
    s!"Invalid value for {hint}: {kind} {Text.quoted path} {problem.label}."
  | .unexpected [argument] => s!"Got unexpected extra argument ({argument})"
  | .unexpected arguments =>
    let listed := " ".intercalate arguments
    s!"Got unexpected extra arguments ({listed})"
  | .notOneSource => "Pass exactly one of --schema or --url."
  | .pair e => e.message

/-- The options that arguments give, in order, and the arguments that belong to none. -/
structure Given where
  values : List (Key × String) := []
  extra : List String := []
deriving DecidableEq, Repr

namespace Given

def last? (g : Given) (key : Key) : Option String := findKey? key g.values.reverse

def all (g : Given) (key : Key) : List String :=
  (g.values.filter fun entry => entry.1 == key).map (·.2)

def has (g : Given) (key : Key) : Bool := (g.last? key).isSome

/-- The same after some options that came before. -/
def after (g : Given) (values : List (Key × String)) : Given :=
  { g with values := values ++ g.values }

end Given

/-- What one argument gives: options with their values, and the option, under the name it was called
by, whose value is the next argument. -/
structure Reading where
  values : List (Key × String) := []
  awaiting : Option (Key × String) := none

def readShortNames (table : List Parameter) : List Char → Except UsageError Reading
  | [] => .ok {}
  | c :: rest =>
    let name := "-" ++ String.singleton c
    match table.find? fun p => p.names.contains name with
    | none => .error (.unknownOption name [])
    | some p =>
      if !p.takesValue then
        (readShortNames table rest).map fun r => { r with values := (p.key, "") :: r.values }
      -- What follows a name that takes a value is the value, whatever names its letters would be.
      else if rest.isEmpty then .ok { awaiting := some (p.key, name) }
      else .ok { values := [(p.key, String.ofList rest)] }

/-- Whether a name is a long one. -/
def isLongName (name : String) : Bool := Text.beginsWith name "--"

def longNames (table : List Parameter) : List String :=
  table.flatMap fun p => p.names.filter isLongName

/-- Reads an argument that starts with a dash. -/
def readOption (table : List Parameter) (argument : String) : Except UsageError Reading :=
  let (name, value?) := match Text.splitFirst '=' argument with
    | some (name, value) => (name, some value)
    | none => (argument, none)
  match table.find? fun p => (p.names.filter isLongName).contains name with
  | some p =>
    match p.takesValue, value? with
    | true, some value => .ok { values := [(p.key, value)] }
    | true, none => .ok { awaiting := some (p.key, name) }
    | false, some _ => .error (.valueUnwanted name)
    | false, none => .ok { values := [(p.key, "")] }
  | none =>
    if isLongName argument then
      .error (.unknownOption name (Text.closeMatches name (longNames table)))
    else readShortNames table (argument.toList.drop 1)

/-- Whether an argument is read as an option. -/
def isOption (argument : String) : Bool := Text.beginsWith argument "-" && argument != "-"

/-- Reads arguments among which options may stand anywhere. -/
def readArguments (table : List Parameter) : List String → Except UsageError Given
  | [] => .ok {}
  | argument :: rest =>
    if argument == "--" then .ok { extra := rest }
    else if isOption argument then do
      let reading ← readOption table argument
      match reading.awaiting, rest with
      | none, rest => return (← readArguments table rest).after reading.values
      -- The next argument is the value even if it starts with a dash itself.
      | some (key, _), value :: rest =>
        return (← readArguments table rest).after (reading.values ++ [(key, value)])
      | some (_, name), [] => throw (.valueMissing name)
    else do
      let given ← readArguments table rest
      return { given with extra := argument :: given.extra }
termination_by arguments => arguments.length

/-- Reads the arguments in front of a command, none of whose options takes a value. -/
def readLeading (table : List Parameter) : List String → Except UsageError Given
  | [] => .ok {}
  | argument :: rest =>
    if argument == "--" then .ok { extra := rest }
    else if isOption argument then do
      let reading ← readOption table argument
      return (← readLeading table rest).after reading.values
    else .ok { extra := argument :: rest }

/-- The options in the order in which they are checked: those that are given, as they first came,
then the others. -/
def checkOrder (table : List Parameter) (given : Given) : List Parameter :=
  let keys := (given.values.map (·.1)).eraseDups
  (keys.filterMap fun key => table.find? fun p => p.key == key) ++
    table.filter fun p => !keys.contains p.key

def checkParameter (place : Place) (given : Given) (p : Parameter) : Except UsageError Unit :=
  match given.last? p.key with
  | none => if p.key == .output then .error (.optionMissing p.hint) else .ok ()
  | some value =>
    match p.kind, place.entry value with
    | .existingFile, .missing => .error (.badPath p.hint "File" value .missing)
    | .existingFile, .directory => .error (.badPath p.hint "File" value .isDirectory)
    | .anyFile, .directory => .error (.badPath p.hint "File" value .isDirectory)
    | .existingDirectory, .missing => .error (.badPath p.hint "Directory" value .missing)
    | .existingDirectory, .file _ => .error (.badPath p.hint "Directory" value .isFile)
    | _, _ => .ok ()

/-- Checks the values of all options, and that nothing else is given. -/
def checkGiven (place : Place) (table : List Parameter) (given : Given) :
    Except UsageError Unit := do
  (checkOrder table given).forM (checkParameter place given)
  if !given.extra.isEmpty then throw (.unexpected given.extra)

end GraphQLModels.CommandLine
