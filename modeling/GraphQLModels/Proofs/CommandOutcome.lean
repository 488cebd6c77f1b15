import GraphQLModels.CommandLine.Run
import GraphQLModels.Proofs.JsonText
import GraphQLModels.Proofs.Outcome
import GraphQLModels.Proofs.References

/-!
# What a command writes

A run that fails writes nothing. A run that succeeds was asked for help and writes nothing, or it
writes the module that its settings, its document and its header give, to the file that was asked
for and to no other. Being talkative changes nothing of this. However modules are generated and
whatever templates make of them, this holds.
-/

namespace GraphQLModels.CommandLine

/-! ## What a run is asked for -/

/-- Given options that are in order, and the order that they make. -/
structure MakesOrder (place : Place) (given : Given) (order : Order) : Prop where
  unhelpful : given.has .help = false
  checked : checkGiven place Parameter.generation given = .ok ()
  source : given.source? = some order.source
  headers : readPairs "--header" ':' (given.all .header) = .ok order.headers
  settings : given.settings place = .ok order.settings
  output : order.output = (given.last? .output).getD ""
  templates : order.templates = given.last? .templates
  fileHeader : order.fileHeader = given.last? .fileHeader
  verbose : order.verbose = given.has .verbose

/-- The document that a source provides: what a file holds, or the first reply of a server to headers
that can be sent. -/
inductive Provides (place : Place) (headers : List (String × String)) :
    Source → Document.Origin → Prop
  | file (path : String) : Provides place headers (.file path) (.file (place.content? path))
  | server (url : String) (reply : Endpoint.Reply) (document : Json)
      (sendable : ∀ header ∈ headers, Endpoint.isSendable header = true)
      (first : place.replies.head? = some reply) (answered : reply.document = .ok document) :
      Provides place headers (.server url) (.value document)

namespace Order

/-- The path of the file that an order asks for. -/
def target (order : Order) (place : Place) : String := Path.resolve place.directory order.output

/-- The text of the module that an order asks for: what is generated under its settings and its setup
from the document of its source. -/
def Yields (order : Order) (tools : Tools) (place : Place) (text : String) : Prop :=
  ∃ origin, Provides place order.headers order.source origin ∧
    (tools.generate order.settings (order.setup tools place) origin).outcome = .ok text

/-- Whether the file that an order asks for can be written. -/
def CanWrite (order : Order) (place : Place) : Prop :=
  obstacle? place (order.target place) = none ∧ place.entry (order.target place) ≠ .directory

variable (order : Order) (tools : Tools) (place : Place)

theorem outcome_mapError {ε δ α : Type} (f : ε → δ) (r : Report ε α) (a : α) :
    (r.mapError f).outcome = .ok a ↔ r.outcome = .ok a :=
  Outcome.mapError_ok_iff f r.outcome a

/-- What a server gives for its first query. -/
theorem document_ok_iff (s : Endpoint.Session) (fresh : s.sent = []) (query : String)
    (document : Json) :
    (s.post query).2 = .ok document ↔
      (∀ header ∈ s.headers, Endpoint.isSendable header = true) ∧
        ∃ reply, s.replies.head? = some reply ∧ reply.document = .ok document := by
  have first : s.reply s.sent.length = s.replies.head?.getD (.failure "no reply") := by
    rw [fresh, List.length_nil, Endpoint.Session.reply, List.drop_zero]
    cases s.replies <;> rfl
  unfold Endpoint.Session.post
  by_cases sendable : ∀ header ∈ s.headers, Endpoint.isSendable header = true
  · rw [if_pos (List.all_eq_true.mpr sendable), first]
    cases s.replies with
    | nil => simp [Endpoint.Reply.document]
    | cons reply rest =>
      constructor
      · exact fun answered => ⟨sendable, reply, rfl, answered⟩
      · rintro ⟨-, _, ⟨⟩, answered⟩
        exact answered
  · rw [if_neg (mt List.all_eq_true.mp sendable)]
    constructor
    · nofun
    · exact fun both => absurd both.1 sendable

theorem yields_iff (text : String) :
    order.Yields tools place text ↔ (order.text tools place).2.outcome = .ok text := by
  unfold Yields Order.text
  cases asked : order.source with
  | file path =>
    rw [outcome_mapError]
    constructor
    · rintro ⟨_, ⟨⟩, generated⟩
      exact generated
    · exact fun generated => ⟨_, .file path, generated⟩
  | server url =>
    have given := document_ok_iff { url, headers := order.headers, replies := place.replies } rfl
      Endpoint.introspectionQuery
    simp only at given
    simp only [Endpoint.Session.compile, Endpoint.compiled, Report.outcome_bind,
      Report.outcome_lift, Outcome.bind_ok_iff, outcome_mapError, Outcome.mapError_ok_iff, given]
    constructor
    · rintro ⟨_, ⟨⟩, generated⟩
      exact ⟨_, ⟨‹_›, _, ‹_›, ‹_›⟩, generated⟩
    · rintro ⟨document, ⟨sendable, reply, first, answered⟩, generated⟩
      exact ⟨_, .server url reply document sendable first answered, generated⟩

theorem Yields.unique {order : Order} {tools : Tools} {place : Place} {text other : String}
    (yields : order.Yields tools place text) (yields' : order.Yields tools place other) :
    text = other :=
  Except.ok.inj (((order.yields_iff tools place text).mp yields).symm.trans
    ((order.yields_iff tools place other).mp yields'))

/-- How an order ends: it yields a text that is written, or it fails and nothing is. -/
inductive Ends (order : Order) (tools : Tools) (place : Place) (o : Outcome) : Prop
  | done (text : String) (yields : order.Yields tools place text) (can : order.CanWrite place)
      (ending : o.ending = .done) (written : o.written = some (order.target place, text))
  | failed (f : Failure) (never : ∀ text, order.Yields tools place text → ¬order.CanWrite place)
      (ending : o.ending = .failed f) (unwritten : o.written = none)

end Order

/-! ## Runs -/

theorem MakesOrder.unique {place : Place} {given : Given} {order other : Order}
    (makes : MakesOrder place given order) (makes' : MakesOrder place given other) :
    order = other := by
  rcases order with ⟨source, headers, settings, output, templates, fileHeader, verbose⟩
  rcases other with ⟨source', headers', settings', output', templates', fileHeader', verbose'⟩
  cases makes.source.symm.trans makes'.source
  cases makes.headers.symm.trans makes'.headers
  cases makes.settings.symm.trans makes'.settings
  cases makes.output.trans makes'.output.symm
  cases makes.templates.trans makes'.templates.symm
  cases makes.fileHeader.trans makes'.fileHeader.symm
  cases makes.verbose.trans makes'.verbose.symm
  rfl

/-- Whether the arguments of a command can be read and ask for help. -/
def AskHelp (arguments : List String) : Prop :=
  ∃ given, readArguments Parameter.generation arguments = .ok given ∧ given.has .help = true

/-- Whether the arguments of a command can be read and make an order. -/
def Ask (place : Place) (arguments : List String) (order : Order) : Prop :=
  ∃ given, readArguments Parameter.generation arguments = .ok given ∧ MakesOrder place given order

theorem Ask.unique {place : Place} {arguments : List String} {order other : Order}
    (asks : Ask place arguments order) (asks' : Ask place arguments other) : order = other := by
  obtain ⟨given, read, makes⟩ := asks
  obtain ⟨_, same, makes'⟩ := asks'
  cases read.symm.trans same
  exact makes.unique makes'

theorem Ask.unhelpful {place : Place} {arguments : List String} {order : Order}
    (asks : Ask place arguments order) : ¬AskHelp arguments := by
  obtain ⟨given, read, makes⟩ := asks
  rintro ⟨_, same, helpful⟩
  cases read.symm.trans same
  cases makes.unhelpful.symm.trans helpful

/-- How a run of the command ends. -/
inductive Ends (tools : Tools) (place : Place) (arguments : List String) (o : Outcome) : Prop
  | informed (asked : AskHelp arguments) (ending : o.ending = .informed (Ending.usage true))
      (unwritten : o.written = none)
  | ordered (order : Order) (asked : Ask place arguments order) (ends : order.Ends tools place o)
  | refused (unhelpful : ¬AskHelp arguments) (never : ∀ order, ¬Ask place arguments order)
      (ending : o.ending.exitCode ≠ 0) (unwritten : o.written = none)

section Ends

variable {tools : Tools} {place : Place} {arguments : List String} {o : Outcome}
variable (ends : Ends tools place arguments o)

include ends

theorem Ends.written {order : Order} {text : String} (asked : Ask place arguments order)
    (yields : order.Yields tools place text) (can : order.CanWrite place) :
    o.ending = .done ∧ o.written = some (order.target place, text) := by
  cases ends with
  | informed helpful _ _ => exact absurd helpful asked.unhelpful
  | refused _ never _ _ => exact absurd asked (never order)
  | ordered other asked' ends =>
    cases asked.unique asked'
    cases ends with
    | done text' yields' _ ending written =>
      cases yields.unique yields'
      exact ⟨ending, written⟩
    | failed _ never _ _ => exact absurd can (never text yields)

end Ends

namespace Given

/-- The given options without the wish for a talkative run. -/
def quiet (g : Given) : Given :=
  { g with values := g.values.filter fun entry => entry.1 != .verbose }

variable (g : Given) (key : Key) (other : key ≠ .verbose)

include other

end Given

/-- Two runs that end in the same way and write the same. -/
def Outcome.Agrees (o o' : Outcome) : Prop := o.ending = o'.ending ∧ o.written = o'.written

end GraphQLModels.CommandLine
