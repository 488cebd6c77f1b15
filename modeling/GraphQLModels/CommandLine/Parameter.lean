/-!
# Parameters

The options of the command line: what each is for, its names, and what values it takes.
-/

namespace GraphQLModels.CommandLine

/-- What an option is for. -/
inductive Key where
  | schema | url | header | output | moduleName | scalar | override | enumsAsText | config
  | templates | fileHeader | verbose | help | version
deriving DecidableEq, Repr

/-- The values that an option takes. -/
inductive ValueKind where
  | none
  | text
  | existingFile
  | anyFile
  | existingDirectory
deriving DecidableEq, Repr

/-- An option of the command line. -/
structure Parameter where
  key : Key
  /-- The names, as they are shown. -/
  names : List String
  kind : ValueKind := .text
deriving DecidableEq, Repr

namespace Parameter

/-- Whether an option is followed by a value. -/
def takesValue (p : Parameter) : Bool := p.kind != .none

/-- The names of an option in an error. -/
def hint (p : Parameter) : String :=
  " / ".intercalate (p.names.map fun name => "'" ++ name ++ "'")

/-- The option that shows how a command is used. -/
def helpOption : Parameter := { key := .help, names := ["--help"], kind := .none }

/-- The options in front of a command. -/
def general : List Parameter :=
  [{ key := .version, names := ["--version"], kind := .none }, helpOption]

/-- The options of the command that generates a module. -/
def generation : List Parameter := [
  { key := .schema, names := ["--schema", "-s"], kind := .existingFile },
  { key := .url, names := ["--url", "-u"] },
  { key := .header, names := ["--header", "-H"] },
  { key := .output, names := ["--output", "-o"], kind := .anyFile },
  { key := .moduleName, names := ["--namespace", "-n"] },
  { key := .scalar, names := ["--scalar"] },
  { key := .override, names := ["--override"] },
  { key := .enumsAsText, names := ["--enums-as-string"], kind := .none },
  { key := .config, names := ["--config", "-c"], kind := .existingFile },
  { key := .templates, names := ["--template-dir"], kind := .existingDirectory },
  { key := .fileHeader, names := ["--file-header"] },
  { key := .verbose, names := ["--verbose", "-v"], kind := .none },
  helpOption]

end Parameter

end GraphQLModels.CommandLine
