import GraphQLModels.Endpoint.Session
import GraphQLModels.Proofs.Mappings
import Mathlib.Data.List.Induction

/-!
# The life of a session

Every query of a session is one request, and it is met by the reply at its place among the queries,
whatever became of those before it. A connection is open exactly if a query was asked since the last
closing. Headers that cannot be sent leave a session as it was.
-/

namespace GraphQLModels.Endpoint

/-! ## Headers of a request -/

/-- Whether a request carries a header: the values of all headers of its name, in whatever case, are
joined under the name in lower case. -/
def Request.Carries (request : Request) (header : String × String) : Prop :=
  ∃ values, header.2 ∈ values ∧
    findKey? (Text.lower header.1) request.headers = some (", ".intercalate values)

/-- Values joined by commas, if there are any. -/
def joined? (values : List String) : Option String :=
  if values.isEmpty then none else some (", ".intercalate values)

theorem joined?_concat (values : List String) (last : String) :
    joined? (values ++ [last]) = some (match joined? values with
      | some joined => joined ++ ", " ++ last
      | none => last) := by
  unfold joined?
  cases values with
  | nil => simp
  | cons first rest =>
    rw [String.intercalate_append_of_ne_nil (List.cons_ne_nil first rest) (List.cons_ne_nil last []),
      String.intercalate_singleton]
    rfl

/-- The values of the headers that have a name in some case. -/
def valuesOf (name : String) (headers : List (String × String)) : List String :=
  (headers.filter fun header => Text.lower header.1 == name).map (·.2)

theorem findKey?_addHeader (headers : List (String × String)) (header : String × String)
    (name : String) :
    findKey? name (addHeader headers header) =
      if Text.lower header.1 == name then
        some (match findKey? name headers with
          | some joined => joined ++ ", " ++ header.2
          | none => header.2)
      else findKey? name headers := by
  unfold addHeader
  by_cases same : Text.lower header.1 = name
  · subst same
    cases found : findKey? (Text.lower header.1) headers with
    | some joined => simp [found, findKey?_setKey]
    | none =>
      simp only [findKey?_append, found]
      simp [findKey?]
  · have other : (Text.lower header.1 == name) = false := beq_false_of_ne same
    cases found : findKey? (Text.lower header.1) headers with
    | some joined => simp [found, findKey?_setKey, other]
    | none =>
      simp only [found, findKey?_append, other]
      cases findKey? name headers <;> simp [findKey?, other]

/-- Under a name stand the values of all headers that have it, in their order. -/
theorem findKey?_headers (headers : List (String × String)) (name : String) :
    findKey? name (headers.foldl addHeader []) = joined? (valuesOf name headers) := by
  induction headers using List.reverseRecOn with
  | nil => rfl
  | append_singleton headers header ih =>
    rw [List.foldl_append, List.foldl_cons, List.foldl_nil, findKey?_addHeader, ih]
    by_cases same : Text.lower header.1 = name
    · simp [valuesOf, same, ← joined?_concat]
    · simp [valuesOf, same]

/-- A given header is carried with its last value. -/
theorem requestHeaders_carry (url query : String) (given : List (String × String))
    (header : String × String) (isGiven : findKey? header.1 given.reverse = some header.2) :
    Request.Carries ⟨url, query, requestHeaders given⟩ header := by
  have kept : header ∈ setKeys [("Content-Type", "application/json")] given := by
    refine findKey?_mem header.1 header.2 _ ?_
    rw [findKey?_setKeys, isGiven]
    rfl
  have listed : header.2 ∈ valuesOf (Text.lower header.1)
      (setKeys [("Content-Type", "application/json")] given) :=
    List.mem_map.mpr ⟨header, List.mem_filter.mpr ⟨kept, beq_self_eq_true _⟩, rfl⟩
  refine ⟨_, listed, ?_⟩
  rw [requestHeaders, findKey?_headers, joined?, if_neg]
  simpa using List.ne_nil_of_mem listed

namespace Session

/-! ## Steps and their queries -/

/-- The query that a step asks, if it asks one. -/
def Step.query? : Step → Option String
  | .fetch | .compile _ _ => some introspectionQuery
  | .send query => some query
  | .close => none

/-- What a step gives for the document that its query is answered with. -/
def Step.answerWith (document : Except QueryError Json) : Step → Answer
  | .fetch | .send _ => .document document
  | .compile options setup => .text (compiled (generate options setup) document)
  | .close => .closed

/-- The queries of steps, in order. -/
def queries (taken : List Step) : List String := taken.filterMap Step.query?

/-- Whether a query was asked since the last closing. -/
def Queried (taken : List Step) : Prop :=
  ∃ front query back, taken = front ++ query :: back ∧ query.query? ≠ none ∧
    ∀ later ∈ back, later.query? ≠ none

/-- The session after steps have been taken. -/
def after (s : Session) (taken : List Step) : Session :=
  taken.foldl (fun s next => (s.step next).1) s

/-- The reply that meets the query after a number of others: the one at its place, or the last one
where the replies are used up. -/
def meeting? (replies : List Reply) (count : Nat) : Option Reply :=
  replies[min count (replies.length - 1)]?

theorem reply_eq (s : Session) (count : Nat) :
    s.reply count = (meeting? s.replies count).getD (.failure "no reply") := by
  unfold Session.reply meeting?
  -- Where the replies are used up, `min` stays at the place of the last one.
  by_cases within : count < s.replies.length
  · rw [Nat.min_eq_left (by omega), List.drop_eq_getElem_cons within,
      List.getElem?_eq_getElem within]
    rfl
  · rw [List.drop_eq_nil_of_le (by omega), Nat.min_eq_right (by omega),
      ← List.getLast?_eq_getElem?]
    cases s.replies.getLast? <;> rfl

theorem queried_concat_iff (taken : List Step) (next : Step) :
    Queried (taken ++ [next]) ↔ next.query? ≠ none := by
  constructor
  · rintro ⟨front, query, back, same, asked, later⟩
    -- The last step is the query itself, or one of the queries behind it.
    rcases List.eq_nil_or_concat back with rfl | ⟨others, last, rfl⟩
    · obtain ⟨-, last⟩ := List.append_inj' same rfl
      rwa [List.singleton_inj.mp last]
    · rw [List.concat_eq_append, ← List.cons_append, ← List.append_assoc] at same
      obtain ⟨-, same⟩ := List.append_inj' same rfl
      rw [List.singleton_inj.mp same]
      exact later last (by simp)
  · exact fun asked => ⟨taken, next, [], rfl, asked, by simp⟩

/-- A step that asks a query posts it, and any other one closes the connection. -/
theorem step_eq (s : Session) (next : Step) :
    s.step next = match next.query? with
      | some query => ((s.post query).1, next.answerWith (s.post query).2)
      | none => (s.close, .closed) := by
  cases next <;> rfl

/-! ## Runs -/

section Runs

variable (s : Session) (taken : List Step) (next : Step)

theorem after_concat : s.after (taken ++ [next]) = ((s.after taken).step next).1 := by
  rw [after, List.foldl_append]
  rfl

/-- What a run lists for a step: what the step gives in the session before it, and the session after
it. -/
theorem steps_concat : s.steps (taken ++ [next]) =
    s.steps taken ++ [(((s.after taken).step next).2, s.after (taken ++ [next]))] := by
  induction taken generalizing s with
  | nil => rfl
  | cons first rest ih =>
    rw [List.cons_append, steps, steps]
    dsimp only
    rw [ih, List.cons_append]
    rfl

/-- Nothing but the connection and the requests ever changes. -/
theorem after_keeps : (s.after taken).url = s.url ∧ (s.after taken).headers = s.headers ∧
    (s.after taken).replies = s.replies := by
  induction taken using List.reverseRecOn with
  | nil => exact ⟨rfl, rfl, rfl⟩
  | append_singleton taken next ih =>
    have kept : ∀ s : Session, (s.step next).1.url = s.url ∧
        (s.step next).1.headers = s.headers ∧ (s.step next).1.replies = s.replies := by
      intro s
      rw [step_eq]
      cases next.query? with
      | none => exact ⟨rfl, rfl, rfl⟩
      | some query =>
        unfold post
        dsimp only
        split <;> exact ⟨rfl, rfl, rfl⟩
    obtain ⟨url, headers, replies⟩ := kept (s.after taken)
    rw [after_concat, url, headers, replies]
    exact ih

end Runs

/-! ## Headers that can be sent -/

/-- The request that a query becomes. -/
def request (s : Session) (query : String) : Request := ⟨s.url, query, requestHeaders s.headers⟩

section Sendable

variable (s : Session) (sendable : ∀ header ∈ s.headers, isSendable header = true)

include sendable

/-- A query sends one request, opens the connection and is met by the next reply. -/
theorem post_sendable (query : String) :
    s.post query = ({ s with isOpen := true, sent := s.sent ++ [s.request query] },
      (s.reply s.sent.length).document) :=
  if_pos (List.all_eq_true.mpr sendable)

theorem step_sendable (next : Step) :
    (s.step next).1.sent = s.sent ++ (next.query?.map s.request).toList ∧
      (s.step next).1.isOpen = next.query?.isSome ∧
      (s.step next).2 = next.answerWith (s.reply s.sent.length).document := by
  rw [step_eq]
  cases asked : next.query? with
  | none =>
    refine ⟨(List.append_nil _).symm, rfl, ?_⟩
    cases next <;> cases asked
    rfl
  | some query =>
    dsimp only
    rw [s.post_sendable sendable query]
    exact ⟨rfl, rfl, rfl⟩

/-- After steps, exactly their queries have been sent. -/
theorem after_sent (taken : List Step) :
    (s.after taken).sent = s.sent ++ (queries taken).map s.request := by
  induction taken using List.reverseRecOn with
  | nil => exact (List.append_nil _).symm
  | append_singleton taken next ih =>
    obtain ⟨url, headers, -⟩ := s.after_keeps taken
    have one : (s.after taken).request = s.request := by
      funext query
      rw [request, request, url, headers]
    obtain ⟨sent, -, -⟩ := (s.after taken).step_sendable (headers ▸ sendable) next
    rw [after_concat, sent, ih, one, queries, queries, List.filterMap_append, List.map_append,
      List.append_assoc]
    cases asked : next.query? <;> simp [asked]

end Sendable

/-- How a session goes on with a step after others, if its headers can be sent. -/
structure Continues (start : Session) (taken : List Step) (next : Step) : Prop where
  /-- A query is one request, with the given headers. -/
  sends : ∀ query, next.query? = some query → ∃ request : Request,
    (start.after (taken ++ [next])).sent = (start.after taken).sent ++ [request] ∧
    request.url = start.url ∧ request.query = query ∧
    ∀ name value, findKey? name start.headers.reverse = some value → request.Carries (name, value)
  /-- Nothing else sends one. -/
  rests : next.query? = none → (start.after (taken ++ [next])).sent = (start.after taken).sent
  answers : ∀ reply, meeting? start.replies (queries taken).length = some reply →
    ((start.after taken).step next).2 = next.answerWith reply.document
  opens : (start.after (taken ++ [next])).isOpen = true ↔ Queried (taken ++ [next])
  /-- How many queries came before is all that matters of them, and the reply at this place all that
  matters of the replies: no other one, good or bad, changes what the step gives. -/
  independent : ∀ (others : List Step) (replies : List Reply),
    (queries others).length = (queries taken).length →
    meeting? replies (queries taken).length = meeting? start.replies (queries taken).length →
    (({ start with replies }.after others).step next).2 = ((start.after taken).step next).2

/-- What a step gives depends on its place among the queries and on the reply there. -/
theorem answer_eq (start : Session) (fresh : start.sent = [])
    (sendable : ∀ header ∈ start.headers, isSendable header = true) (taken : List Step)
    (next : Step) : ((start.after taken).step next).2 = next.answerWith
      ((meeting? start.replies (queries taken).length).getD (.failure "no reply")).document := by
  obtain ⟨-, headers, replies⟩ := start.after_keeps taken
  obtain ⟨-, -, answer⟩ := (start.after taken).step_sendable (headers ▸ sendable) next
  rw [answer, reply_eq, replies, start.after_sent sendable, fresh, List.nil_append, List.length_map]

theorem continues (start : Session) (fresh : start.sent = [])
    (sendable : ∀ header ∈ start.headers, isSendable header = true) (taken : List Step)
    (next : Step) : start.Continues taken next := by
  obtain ⟨-, headers, -⟩ := start.after_keeps taken
  obtain ⟨-, opened, -⟩ := (start.after taken).step_sendable (headers ▸ sendable) next
  -- What has been sent is the image of the queries, which grow by that of the next step.
  have sent : (start.after (taken ++ [next])).sent =
      (start.after taken).sent ++ (next.query?.map start.request).toList := by
    rw [start.after_sent sendable, start.after_sent sendable, List.append_assoc, queries,
      List.filterMap_append, List.map_append]
    cases asked : next.query? <;> simp [queries, asked]
  constructor
  case sends =>
    intro query asked
    rw [asked] at sent
    exact ⟨start.request query, sent, rfl, rfl, fun name value isGiven =>
      requestHeaders_carry start.url query start.headers (name, value) isGiven⟩
  case rests =>
    intro asked
    rw [sent, asked]
    exact List.append_nil _
  case answers =>
    intro reply meets
    rw [answer_eq start fresh sendable, meets]
    rfl
  case opens =>
    rw [after_concat, opened, queried_concat_iff]
    cases next.query? <;> simp
  case independent =>
    intro others replies asMany met
    rw [answer_eq start fresh sendable, answer_eq { start with replies } fresh sendable, asMany]
    dsimp only
    rw [met]

/-! ## Headers that cannot be sent -/

/-- How a session goes on with a step after others, if some header cannot be sent: it stays as it
was, and queries fail. -/
structure StaysMute (start : Session) (taken : List Step) (next : Step) : Prop where
  unchanged : start.after (taken ++ [next]) = start
  answers : ((start.after taken).step next).2 = next.answerWith (.error .unsendableHeader)

theorem staysMute (start : Session) (closed : start.isOpen = false)
    (header : String × String) (isGiven : header ∈ start.headers)
    (unsendable : isSendable header = false) (taken : List Step) (next : Step) :
    start.StaysMute taken next := by
  have refused : start.headers.all isSendable = false :=
    List.all_eq_false.mpr ⟨header, isGiven, by simp [unsendable]⟩
  have idle : ∀ next, start.step next = (start, next.answerWith (.error .unsendableHeader)) := by
    intro next
    cases next with
    | close =>
      obtain ⟨url, headers, replies, isOpen, sent⟩ := start
      cases closed
      rfl
    | fetch | send | compile => simp [step, Session.compile, post, refused, Step.answerWith]
  -- No step changes the session, so it is the same one that each step of a run begins with.
  have unchanged : ∀ taken, start.after taken = start := by
    intro taken
    induction taken with
    | nil => rfl
    | cons first rest ih =>
      rw [after, List.foldl_cons, idle first]
      exact ih
  exact ⟨unchanged _, by rw [unchanged, idle]⟩

/-! ## The life of a session -/

/-- **The life of a session.** A run lists what each step gives and the session after it. If the
headers can be sent, each query sends one request that carries them, closing sends none, the query
at a place is met by the reply there, a connection is open exactly if a query was asked since the
last closing, and no failure has an effect on what a later step gives; otherwise nothing is ever sent
and no connection opened. Closing twice is closing once, and a session that ends is closed. -/
theorem session_lifecycle (url : String) (headers : List (String × String)) (replies : List Reply)
    (taken : List Step) (next : Step) :
    let start : Session := { url, headers, replies }
    start.steps (taken ++ [next]) =
      start.steps taken ++ [(((start.after taken).step next).2, start.after (taken ++ [next]))] ∧
    ((∀ header ∈ headers, isSendable header = true) → start.Continues taken next) ∧
    ((∃ header ∈ headers, isSendable header = false) → start.StaysMute taken next) ∧
    (start.after (taken ++ [.close, .close])) = start.after (taken ++ [.close]) ∧
    (start.finish taken).isOpen = false := by
  intro start
  refine ⟨start.steps_concat taken next, fun sendable => start.continues rfl sendable taken next,
    ?_, ?_, rfl⟩
  · rintro ⟨header, isGiven, unsendable⟩
    exact start.staysMute rfl header isGiven unsendable taken next
  · rw [after, after, List.foldl_append, List.foldl_append]
    rfl

/-! ## A session with failures -/

def shopUrl : String := "https://shop.example.com/graphql"

/-- Bad luck twice, and an empty document from then on. -/
def shopReplies : List Reply :=
  [.answer 502 (.text "Bad gateway"), .failure "Connection refused", .answer 200 (.value (.obj []))]

/-- Two failures and a closing have no effect on a later query. -/
theorem session_lifecycle_shop :
    let start : Session := {
      url := shopUrl, headers := [("Authorization", "Bearer x")], replies := shopReplies }
    let last := (start.after [.fetch, .send "a", .close]).step (.send "b")
    last.2 = .document (.ok (.obj [])) ∧ last.1.isOpen = true ∧
      last.1.sent.map (·.query) = [introspectionQuery, "a", "b"] := by
  intro start last
  obtain ⟨-, continues, -⟩ := session_lifecycle shopUrl [("Authorization", "Bearer x")] shopReplies
    [.fetch, .send "a", .close] (.send "b")
  have goesOn := continues (by decide)
  have opened := goesOn.opens.mpr ⟨[.fetch, .send "a", .close], .send "b", [], rfl, nofun, nofun⟩
  obtain ⟨request, sent, -, query, -⟩ := goesOn.sends "b" rfl
  refine ⟨goesOn.answers (.answer 200 (.value (.obj []))) rfl, opened, ?_⟩
  have before : (start.after [.fetch, .send "a", .close]).sent.map (·.query) =
      [introspectionQuery, "a"] := rfl
  rw [after_concat] at sent
  rw [show last.1.sent = _ from sent, List.map_append, before, List.map_singleton, query]
  rfl

/-- A query need not be sent: a header may have characters that cannot. -/
theorem query_may_be_unsent :
    ¬∀ (url : String) (headers : List (String × String)) (replies : List Reply)
      (taken : List Step) (next : Step) (query : String), next.query? = some query →
      let start : Session := { url, headers, replies }
      ∃ request : Request,
        (start.after (taken ++ [next])).sent = (start.after taken).sent ++ [request] := by
  intro sends
  obtain ⟨request, sent⟩ := sends shopUrl [("X-Name", "é")] shopReplies [] .fetch _ rfl
  have none : (Session.after { url := shopUrl, headers := [("X-Name", "é")], replies := shopReplies }
      ([] ++ [.fetch])).sent = [] := by
    decide
  rw [none] at sent
  cases sent

end Session

end GraphQLModels.Endpoint
