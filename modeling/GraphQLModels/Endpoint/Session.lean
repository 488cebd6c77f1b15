import GraphQLModels.Endpoint.Query
import GraphQLModels.Generation
import GraphQLModels.Text.LetterCase

/-!
# Sessions with a server

Queries are posted one at a time over a connection that is opened by the first of them and closed on
request. Each query is answered by the next reply, the last one again and again. A reply is taken
for a document only if its status is one of success and it lists no errors.
-/

namespace GraphQLModels.Endpoint

/-- What a reply carries. -/
inductive Body where
  | value (value : Json)
  | text (text : String)

/-- How the server meets a request. -/
inductive Reply where
  | answer (status : Int) (body : Body)
  | failure (message : String)

/-- A request that was sent. -/
structure Request where
  url : String
  query : String
  headers : List (String × String)
deriving DecidableEq, Repr

/-- Why a query gives no document. -/
inductive QueryError where
  | connection (message : String)
  | status (code : Int)
  | notJson
  | longInteger
  | notObject
  | reported (messages : List String)
  | errorsNotList
  | errorNotObject
  | messageNotText
  | unsendableHeader
deriving DecidableEq, Repr

/-- The text of an error, for those whose text is part of the answer. -/
def QueryError.message? : QueryError → Option String
  | .connection message => some message
  | .status code => some s!"The server answered with status {code}"
  | .notJson => some "The answer of the server is not valid JSON"
  | .longInteger => some Json.FileError.limit
  | .reported messages => some ("GraphQL errors: " ++ "; ".intercalate messages)
  | .unsendableHeader => some "A header has characters that cannot be sent"
  | _ => none

/-- The value that a body carries. A byte order mark in front of a text is no part of it. -/
def Body.read : Body → Except Json.FileError Json
  | .value root => .ok root
  | .text content =>
    match content.toList with
    | '\uFEFF' :: rest => Json.load (String.ofList rest)
    | _ => Json.load content

def listedErrors (errors : Json) : Except QueryError (List Json) :=
  match errors with
  | .arr items => .ok items
  | .str s => .ok (s.toList.map fun c => .str (String.singleton c))
  | .obj members => .ok (members.map fun member => .str member.1)
  | _ => .error .errorsNotList

/-- The message of a listed error, or the error itself if it has none. -/
def errorMessage (error : Json) : Except QueryError Json :=
  match error with
  | .obj members => .ok (((Json.obj members).get? "message").getD (.str (Json.obj members).display))
  | _ => .error .errorNotObject

def messageText (message : Json) : Except QueryError String :=
  match message with
  | .str s => .ok s
  | _ => .error .messageNotText

def checkErrors (document : Json) : Except QueryError Json := do
  let errors := document.getD "errors"
  if errors.isGiven then
    -- All messages are collected before any of them has to be a text.
    let messages ← (← listedErrors errors).mapM errorMessage
    throw (.reported (← messages.mapM messageText))
  else return document

def Reply.document : Reply → Except QueryError Json
  | .failure message => .error (.connection message)
  | .answer status body =>
    -- The status is judged before the body is read.
    if status < 200 || 300 ≤ status then .error (.status status)
    else
      match body.read with
      | .ok (.obj members) => checkErrors (.obj members)
      | .ok _ => .error .notObject
      | .error .notJson => .error .notJson
      | .error .longInteger => .error .longInteger

/-- Adds a header: headers whose names differ in case alone are one header of several values. -/
def addHeader (headers : List (String × String)) (header : String × String) :
    List (String × String) :=
  let name := Text.lower header.1
  match findKey? name headers with
  | some value => setKey name (value ++ ", " ++ header.2) headers
  | none => headers ++ [(name, header.2)]

/-- The headers of a request: the type of its content, which a given header of exactly that name
replaces, and the given headers. -/
def requestHeaders (given : List (String × String)) : List (String × String) :=
  (setKeys [("Content-Type", "application/json")] given).foldl addHeader []

/-- Whether a header can be sent: its name and its value are ASCII texts. -/
def isSendable (header : String × String) : Bool :=
  (header.1.toList ++ header.2.toList).all fun c => c.toNat < 128

/-- A session with a server: how it is addressed, the replies it gives, whether a connection is
open, and the requests so far. -/
structure Session where
  url : String
  headers : List (String × String) := []
  replies : List Reply
  isOpen : Bool := false
  sent : List Request := []

namespace Session

/-- The reply that meets the request after the given number of others. -/
def reply (s : Session) (count : Nat) : Reply :=
  match s.replies.drop count, s.replies.getLast? with
  | next :: _, _ => next
  | [], some last => last
  | [], none => .failure "no reply"

/-- The session with one more request over an open connection. -/
def afterRequest (s : Session) (query : String) : Session :=
  { s with
    isOpen := true
    sent := s.sent ++ [⟨s.url, query, requestHeaders s.headers⟩] }

def post (s : Session) (query : String) : Session × Except QueryError Json :=
  if s.headers.all isSendable then
    (s.afterRequest query, (s.reply s.sent.length).document)
  -- Nothing is sent then, and no connection is opened.
  else (s, .error .unsendableHeader)

/-- Closes the connection, if one is open. -/
def close (s : Session) : Session := { s with isOpen := false }

end Session

/-- Why a server gives no text of a module. -/
inductive FetchError where
  | query (e : QueryError)
  | generation (e : GenerationError)

/-- The text of an error, for those whose text is part of the answer. -/
def FetchError.message? : FetchError → Option String
  | .query e => e.message?
  | .generation e => e.message?

/-- What is generated from a document, if a server gave one. -/
def compiled (generate : Document.Origin → Report GenerationError String)
    (document : Except QueryError Json) : Report FetchError String := do
  let document ← document.mapError FetchError.query
  (generate (.value document)).mapError FetchError.generation

namespace Session

/-- What is generated from the schema of the server. -/
def compile (s : Session) (generate : Document.Origin → Report GenerationError String) :
    Session × Report FetchError String :=
  let (s, document) := s.post introspectionQuery
  (s, compiled generate document)

/-- A step of a session. -/
inductive Step where
  | fetch
  | send (query : String)
  | compile (options : Options) (setup : Setup)
  | close

/-- What a step gives. -/
inductive Answer where
  | document (d : Except QueryError Json)
  | text (r : Report FetchError String)
  | closed

def step (s : Session) : Step → Session × Answer
  | .fetch =>
    let (s, document) := s.post introspectionQuery
    (s, .document document)
  | .send query =>
    let (s, document) := s.post query
    (s, .document document)
  | .compile options setup =>
    let (s, text) := s.compile (generate options setup)
    (s, .text text)
  | .close => (s.close, .closed)

/-- Takes steps in order: what each gives, with the session after it. -/
def steps (s : Session) : List Step → List (Answer × Session)
  | [] => []
  | next :: rest =>
    let (s, answer) := s.step next
    (answer, s) :: s.steps rest

/-- The session after steps have been taken and the connection is closed. -/
def finish (s : Session) (taken : List Step) : Session :=
  (taken.foldl (fun s next => (s.step next).1) s).close

end Session

end GraphQLModels.Endpoint
