import GraphQLModels.Model.Problem
import GraphQLModels.Text.Quoted

/-!
# Failures

Why something cannot be done with the classes of a loaded module or with their values.
-/

namespace GraphQLModels.Model

/-- Why something cannot be done. -/
inductive Failure where
  /-- A document, a value or an assignment does not fit. -/
  | unfit (problems : List Problem)
  /-- A class refers to a name that its module does not bind. -/
  | undefined (name home : String)
  /-- The module binds no such name, or what it binds lacks an attribute. -/
  | noAttribute (name : String)
  /-- An object has no field to set. -/
  | noField (name : String)
  /-- A method refers to a name that is bound nowhere. -/
  | unbound (name : String)
  /-- No value was saved under a name. -/
  | unsaved (name : String)
  /-- Something is no class, cannot be called, or cannot be gone through. -/
  | wrongType
  /-- A connection does not say where its nodes are. -/
  | noSource
  /-- A type has no values that could be decoded. -/
  | noShape
  /-- The classes of a choice are not told apart by a tag. -/
  | noTag
  /-- A value has no form in a document. -/
  | noEncoding
deriving DecidableEq, Repr

/-- The text of a failure, for those whose text is part of the answer. -/
def Failure.message? : Failure → Option String
  | .undefined name home => some s!"{Text.quoted name} is not defined in module {Text.quoted home}"
  | _ => none

end GraphQLModels.Model
