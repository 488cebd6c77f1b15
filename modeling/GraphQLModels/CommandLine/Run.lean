import GraphQLModels.CommandLine.Arguments
import GraphQLModels.Text.Line

/-!
# Running the command

A run reads its arguments, gathers its settings, gets a document from a file or from a server, and
writes the module that is generated from it. It writes one file at the end or none at all.
-/

namespace GraphQLModels.CommandLine

def programName : String := "gql-typegen"

/-- The name of the command that generates a module. -/
def commandName : String := "generate"

/-- Why a module cannot be put in its file. -/
inductive OutputError where
  | parentIsFile
  | ancestorIsFile
  | isDirectory
deriving DecidableEq, Repr

/-- Why a run that was asked for properly fails. -/
inductive Failure where
  | config (e : ConfigError)
  | fetch (e : Endpoint.FetchError)
  | output (e : OutputError)

/-- The text of a failure; one without a text is a defect of the input that is not foreseen. -/
def Failure.message? : Failure → Option String
  | .config e => e.message?
  | .fetch e => e.message?
  | .output _ => none

/-- How a run ends. -/
inductive Ending where
  | done
  | informed (text : String)
  | refused (command : Bool) (e : UsageError)
  | failed (f : Failure)

/-- What a run does: the lines it prints, the events it tells, the requests it makes, the warnings
it issues, how it ends, and the file it writes. -/
structure Outcome where
  printed : List String := []
  events : List Event := []
  requests : List Endpoint.Request := []
  warnings : List Warning := []
  ending : Ending := .done
  written : Option (String × String) := none

namespace Ending

/-- How a command is used, in one line. -/
def usage (command : Bool) : String :=
  if command then s!"Usage: {programName} {commandName} [OPTIONS]"
  else s!"Usage: {programName} [OPTIONS] COMMAND [ARGS]..."

def hint (command : Bool) : String :=
  let called := if command then s!"{programName} {commandName}" else programName
  s!"Try '{called} --help' for help."

def exitCode : Ending → Nat
  | .done | .informed _ => 0
  | .refused _ _ => 2
  | .failed _ => 1

/-- What is printed to the errors at the end of a run. -/
def errorLines : Ending → List String
  | .done | .informed _ => []
  | .refused command e => [usage command, hint command, "", "Error: " ++ e.message]
  | .failed f => (f.message?.map ("Error: " ++ ·)).toList

end Ending

namespace Outcome

/-- All that a run prints to the errors. -/
def errorLines (o : Outcome) : List String := o.events.map Event.line ++ o.ending.errorLines

/-- The outcome after some lines that were printed before. -/
def afterLines (lines : List String) (o : Outcome) : Outcome :=
  { o with printed := lines ++ o.printed }

end Outcome

/-- A run that ends before it starts. -/
def refuse (command : Bool) (e : UsageError) : Outcome := { ending := .refused command e }

/-- What a run turns documents into modules with. -/
structure Tools where
  /-- The template for modules in a directory that has one. -/
  template : Place → String → Source.Template
  generate : Settings Json → Setup → Document.Origin → Report GenerationError String

/-- The name of the file with the template for modules. -/
def templateName : String := "models.py.j2"

/-- Tools whose templates have no place for anything but the name of the module. -/
def Tools.plain : Tools where
  template place directory :=
    Source.Template.ofText ((place.content? (Path.join directory templateName)).getD "")
  generate settings setup origin := GraphQLModels.generate settings.toOptions setup origin

/-- Where a document comes from. -/
inductive Source where
  | file (path : String)
  | server (url : String)
deriving DecidableEq, Repr

/-- What was asked for, once it is understood. -/
structure Order where
  source : Source
  headers : List (String × String)
  settings : Settings Json
  output : String
  templates : Option String
  fileHeader : Option String
  verbose : Bool

namespace Order

def setup (order : Order) (tools : Tools) (place : Place) : Setup where
  hooks := ((order.fileHeader.filter fun text => !text.isEmpty).map Hook.header).toList
  template := order.templates.bind fun directory =>
    -- Without a template of its own in the directory, the module is written as ever.
    (place.content? (Path.join directory templateName)).map fun _ => tools.template place directory

/-- The text of the module, and the requests that were made for it. -/
def text (order : Order) (tools : Tools) (place : Place) :
    List Endpoint.Request × Report Endpoint.FetchError String :=
  let generate := tools.generate order.settings (order.setup tools place)
  match order.source with
  | .file path =>
    ([], (generate (.file (place.content? path))).mapError Endpoint.FetchError.generation)
  | .server url =>
    let session : Endpoint.Session := { url, headers := order.headers, replies := place.replies }
    let (session, report) := session.compile generate
    (session.sent, report)

/-- What is printed before the document is read. -/
def preamble (order : Order) (place : Place) : List String :=
  let told := match order.source with
    | .file path => path
    | .server url => url
  let details := [s!"Source: {told}",
    s!"Output: {Path.resolve place.directory order.output}",
    s!"Namespace: {order.settings.moduleName.display}"]
  let start := match order.source with
    | .file _ => "Parsing schema..."
    | .server url => s!"Fetching introspection from {url}..."
  (if order.verbose then details else []) ++ [start]

/-- The number of classes in the text of a module. -/
def countClasses : List Char → Nat
  | [] => 0
  | c :: rest =>
    (if "\nclass ".toList.isPrefixOf (c :: rest) then 1 else 0) + countClasses rest

/-- What is printed about the text of a module. -/
def summary (order : Order) (text : String) : List String :=
  if order.verbose then
    [s!"  Lines: {(Text.lines text).length}", s!"  Classes: {countClasses text.toList}"]
  else []

/-- What stands in the way of making the directories above a file. -/
def obstacle? (place : Place) (target : String) : Option OutputError :=
  let isFile (path : String) : Bool :=
    match place.entry path with
    | .file _ => true
    | _ => false
  match Path.ancestors target.length target with
  | [] => none
  | parent :: above =>
    if isFile parent then some .parentIsFile
    else if above.any isFile then some .ancestorIsFile else none

def write (order : Order) (place : Place) (text : String) : Outcome :=
  let target := Path.resolve place.directory order.output
  match obstacle? place target with
  | some e => { ending := .failed (.output e) }
  | none =>
    let writing := s!"Writing to {target}..."
    match place.entry target with
    | .directory => { printed := [writing], ending := .failed (.output .isDirectory) }
    | _ =>
      { printed := [writing, s!"Done! Generated models in {target}"]
        written := some (target, text) }

def carryOut (order : Order) (tools : Tools) (place : Place) : Outcome :=
  let (requests, report) := order.text tools place
  let events := requests.map (fun request => Event.requested request.url) ++ report.events
  let outcome : Outcome := match report.outcome with
    | .ok text => (order.write place text).afterLines (order.summary text)
    | .error e => { ending := .failed (.fetch e) }
  { outcome.afterLines (order.preamble place) with
    requests, warnings := report.warnings
    events := if order.verbose then events else [] }

end Order

/-- The source that options name: a file or a server, and not both. -/
def Given.source? (given : Given) : Option Source :=
  let asked (key : Key) : Option String := (given.last? key).filter fun value => !value.isEmpty
  match asked .schema, asked .url with
  | some path, none => some (.file path)
  | none, some url => some (.server url)
  | _, _ => none

def Given.settings (given : Given) (place : Place) : Except SettingsError (Settings Json) :=
  let arguments : SettingArguments := {
    config := (given.last? .config).bind fun path => (place.content? path).map (path, ·)
    moduleName := given.last? .moduleName
    scalars := given.all .scalar
    overrides := given.all .override
    enumsAsText := given.has .enumsAsText }
  arguments.settings

/-- Generates the module that checked options ask for. -/
def generateGiven (tools : Tools) (place : Place) (given : Given) : Outcome :=
  match given.source?, given.settings place, readPairs "--header" ':' (given.all .header) with
  | none, _, _ => refuse true .notOneSource
  | _, .error (.pair e), _ => refuse true (.pair e)
  | _, .error (.config e), _ => { ending := .failed (.config e) }
  | _, _, .error e => refuse true (.pair e)
  | some source, .ok settings, .ok headers =>
    let order : Order := {
      source, headers, settings
      output := (given.last? .output).getD ""
      templates := given.last? .templates
      fileHeader := given.last? .fileHeader
      verbose := given.has .verbose }
    order.carryOut tools place

/-- Runs the command that generates a module. -/
def runGenerate (tools : Tools) (place : Place) (arguments : List String) : Outcome :=
  match readArguments Parameter.generation arguments with
  | .error e => refuse true e
  | .ok given =>
    if given.has .help then { ending := .informed (Ending.usage true) }
    else
      match checkGiven place Parameter.generation given with
      | .error e => refuse true e
      | .ok () => generateGiven tools place given

def run (tools : Tools) (place : Place) (arguments : List String) : Outcome :=
  match readLeading Parameter.general arguments with
  | .error e => refuse false e
  | .ok given =>
    if arguments.isEmpty || given.has .help || given.has .version then
      { ending := .informed (Ending.usage false) }
    else
      match given.extra with
      | [] => refuse false .noCommand
      | name :: rest =>
        if name == commandName then runGenerate tools place rest
        else refuse false (.unknownCommand name)

/-- The paths that a run may look up. -/
def namedPaths (directory : String) (arguments : List String) : List String :=
  match readArguments Parameter.generation (arguments.drop 1) with
  | .error _ => []
  | .ok given =>
    let target := Path.resolve directory ((given.last? .output).getD "")
    let files := [Key.schema, .config, .output, .templates].filterMap given.last?
    let template := (given.last? .templates).map fun path => Path.join path templateName
    files ++ template.toList ++ target :: Path.ancestors target.length target

end GraphQLModels.CommandLine
