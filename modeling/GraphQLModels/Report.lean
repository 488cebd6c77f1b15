import GraphQLModels.Event

/-!
# Reports

A computation that warns and tells events as it goes and may fail: its warnings and its events stand
in the order in which they came, whether it ends in a value or in an error.
-/

namespace GraphQLModels

/-- A defect of a schema that is dropped and not fatal. -/
inductive Warning where
  | repeatedType (name : String)
  | repeatedReference (owner : Option String) (relation name : String)
  | unknownReference (owner : Option String) (relation : String) (name : Option String)
  | edgeWithoutNode (connection edge : String)
deriving DecidableEq, Repr

def Warning.message : Warning → String
  | .repeatedType name => s!"Type '{name}' is listed more than once; keeping the first definition"
  | .repeatedReference owner relation name =>
    s!"{nameText owner}: {relation} lists '{name}' more than once"
  | .unknownReference owner relation name =>
    s!"{nameText owner}: {relation} references unknown type '{nameText name}'"
  | .edgeWithoutNode connection edge =>
    s!"{connection}: edge type '{edge}' has no 'node' field; ignoring its edges for pagination"

/-- The warnings and the events of a computation, and its outcome. -/
structure Report (ε α : Type) where
  warnings : List Warning := []
  events : List Event := []
  outcome : Except ε α

namespace Report

variable {ε α β : Type}

/-- Goes on with a value, after the warnings and the events so far. -/
def andThen (r : Report ε α) (f : α → Report ε β) : Report ε β :=
  match r.outcome with
  | .ok a => ⟨r.warnings ++ (f a).warnings, r.events ++ (f a).events, (f a).outcome⟩
  -- What was told before the error stays told.
  | .error e => ⟨r.warnings, r.events, .error e⟩

instance : Monad (Report ε) where
  pure a := ⟨[], [], .ok a⟩
  bind := andThen

instance : MonadExceptOf ε (Report ε) where
  throw e := ⟨[], [], .error e⟩
  tryCatch r handle :=
    match r.outcome with
    | .ok a => ⟨r.warnings, r.events, .ok a⟩
    | .error e =>
      ⟨r.warnings ++ (handle e).warnings, r.events ++ (handle e).events, (handle e).outcome⟩

instance : MonadLift (Except ε) (Report ε) where
  monadLift x := ⟨[], [], x⟩

def warn (w : Warning) : Report ε Unit := ⟨[w], [], .ok ()⟩

def tell (e : Event) : Report ε Unit := ⟨[], [e], .ok ()⟩

/-- The report under another type of errors. -/
def mapError {δ : Type} (f : ε → δ) (r : Report ε α) : Report δ α :=
  ⟨r.warnings, r.events, r.outcome.mapError f⟩

end Report

end GraphQLModels
