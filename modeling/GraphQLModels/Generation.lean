import GraphQLModels.Emission
import GraphQLModels.Hook
import GraphQLModels.Schema.Document
import GraphQLModels.Source.Layout
import GraphQLModels.Source.Printer
import GraphQLModels.Source.Statement
import GraphQLModels.Source.Template

/-!
# Generation

From a document to the text of a module. The definitions pass the filters, are laid out and written,
and get their headers; a text that is no source in the generated language is refused. A run that
fails gives no text at all.
-/

namespace GraphQLModels

/-- Why definitions give no text. -/
inductive RenderError where
  | layout (e : Source.LayoutError)
  | template (message : Option String)
  | notWellFormed (filename : String)
deriving Repr, DecidableEq

/-- The text of an error, for those whose text is part of the answer. -/
def RenderError.message? : RenderError → Option String
  | .layout _ => none
  | .template message => message
  | .notWellFormed filename => some s!"Generated invalid Python for {filename}"

/-- Why a document gives no text. -/
inductive GenerationError where
  | document (e : DocumentError)
  | resolution (e : ResolutionError)
  | render (e : RenderError)
deriving Repr

/-- The text of an error, for those whose text is part of the answer. -/
def GenerationError.message? : GenerationError → Option String
  | .document e => e.message?
  | .resolution e => some e.message
  | .render e => e.message?

/-- What rendering has recourse to besides the definitions. -/
structure Setup where
  imports : ImportTable := .initial
  hooks : List Hook := []
  /-- A template in place of the one that is built in. -/
  template : Option Source.Template := none

namespace Module

def source (m : Module) (setup : Setup) : Except Source.LayoutError Source.Module :=
  if Hook.canFilter setup.hooks m.definitions then
    Source.layOut m.moduleName setup.imports (Hook.runFilters setup.hooks m.definitions)
  else .error .namelessDefinition

/-- The text of a module under the name of its file. -/
def render (m : Module) (setup : Setup) (filename : String) : Except RenderError String := do
  let source ← (m.source setup).mapError RenderError.layout
  let content ← match setup.template with
    | some template => (template source).mapError RenderError.template
    | none => pure source.text
  let text := Hook.runHeaders setup.hooks content
  if Source.isWellFormed text then return text else throw (.notWellFormed filename)

end Module

/-- The name of the file of a module. -/
def Options.filename (options : Options) : String := options.moduleName ++ ".py"

/-- The module that a document compiles to. -/
def compile (options : Options) (origin : Document.Origin) : Report GenerationError Module := do
  let schema ← origin.read.mapError GenerationError.document
  (emit options schema).mapError GenerationError.resolution

/-- The text that a document compiles to. -/
def generate (options : Options) (setup : Setup) (origin : Document.Origin) :
    Report GenerationError String := do
  let m ← compile options origin
  (m.render setup options.filename).mapError GenerationError.render

end GraphQLModels
