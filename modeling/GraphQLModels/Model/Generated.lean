import GraphQLModels.Generation
import GraphQLModels.Model.Loading

/-!
# Loading what was generated

The module that a document compiles to is loaded after its text has been accepted. Its first
statement besides the description has to stay the first one, so a header must not hold statements.
-/

namespace GraphQLModels.Model

/-- Why a document gives no loaded module. -/
inductive ModuleError where
  | generation (e : GenerationError)
  | misplacedImport
  | load (e : LoadError)
deriving Repr

/-- The failure of rendering as one of loading. -/
def renderFailure (e : RenderError) : ModuleError := .generation (.render e)

/-- Whether nothing but one description comes before the first import. -/
def startsWithImport : List Source.Token → Bool
  | .newline :: rest => startsWithImport rest
  | .literal _ _ :: rest =>
    match rest.dropWhile fun
      | .literal _ _ => true
      | _ => false with
    | .newline :: .word first :: _ => first == "from"
    | _ => false
  | _ => false

/-- Loads the module that a document compiles to in a world. -/
def loadGenerated (options : Options) (setup : Setup) (origin : Document.Origin)
    (world : World := .closed) : Report ModuleError Library := do
  let m ← (compile options origin).mapError ModuleError.generation
  let text ← (m.render setup options.filename).mapError renderFailure
  if !startsWithImport ((Source.tokens? text).getD []) then throw .misplacedImport
  let source ← (m.source setup).mapError fun e => renderFailure (.layout e)
  (load source world).mapError ModuleError.load

end GraphQLModels.Model
