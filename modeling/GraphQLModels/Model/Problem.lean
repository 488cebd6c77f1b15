/-!
# Problems

What is wrong with a document that does not fit a type, and where.
-/

namespace GraphQLModels.Model

/-- What is wrong with a value. -/
inductive ProblemKind where
  | jsonInvalid | modelType | dictType | listType | literalError | enum | noneRequired
  | tagNotFound | tagInvalid | stringType | intType | intParsing | intParsingSize | intFromFloat
  | finiteNumber | floatType | floatParsing | boolType | boolParsing | decimalType | decimalParsing
  | momentType | momentParsing | momentRange | dateType | dateParsing | dateInexact
  | clockType | clockParsing | uuidType | uuidParsing | noMembers | frozen
  /-- A problem that only a type from elsewhere has. -/
  | foreign (label : String)
deriving DecidableEq, Repr

def ProblemKind.label : ProblemKind → String
  | .jsonInvalid => "json_invalid"
  | .modelType => "model_type"
  | .dictType => "dict_type"
  | .listType => "list_type"
  | .literalError => "literal_error"
  | .enum => "enum"
  | .noneRequired => "none_required"
  | .tagNotFound => "union_tag_not_found"
  | .tagInvalid => "union_tag_invalid"
  | .stringType => "string_type"
  | .intType => "int_type"
  | .intParsing => "int_parsing"
  | .intParsingSize => "int_parsing_size"
  | .intFromFloat => "int_from_float"
  | .finiteNumber => "finite_number"
  | .floatType => "float_type"
  | .floatParsing => "float_parsing"
  | .boolType => "bool_type"
  | .boolParsing => "bool_parsing"
  | .decimalType => "decimal_type"
  | .decimalParsing => "decimal_parsing"
  | .momentType => "datetime_type"
  | .momentParsing => "datetime_from_date_parsing"
  | .momentRange => "datetime_parsing"
  | .dateType => "date_type"
  | .dateParsing => "date_from_datetime_parsing"
  | .dateInexact => "date_from_datetime_inexact"
  | .clockType => "time_type"
  | .clockParsing => "time_parsing"
  | .uuidType => "uuid_type"
  | .uuidParsing => "uuid_parsing"
  | .noMembers => "needs_python_object"
  | .frozen => "frozen_field"
  | .foreign label => label

/-- A step from a value into one of its parts. -/
inductive Step where
  | name (name : String)
  | index (index : Nat)
deriving DecidableEq, Repr

/-- A problem with the part of a value to which the steps lead. -/
structure Problem where
  kind : ProblemKind
  location : List Step := []
deriving DecidableEq, Repr

/-- What comes of decoding: all problems of a document, or a value. -/
abbrev Decoded (α : Type) := Except (List Problem) α

namespace Decoded

/-- A single problem with the value itself. -/
def problem (kind : ProblemKind) : Decoded α := .error [{ kind }]

/-- The problems of a part, seen from the whole. -/
def inside (step : Step) (r : Decoded α) : Decoded α :=
  r.mapError fun problems => problems.map fun p => { p with location := step :: p.location }

/-- All values, or the problems of all parts in order. -/
def all : List (Decoded α) → Decoded (List α)
  | [] => .ok []
  | r :: rest =>
    match r, all rest with
    | .ok a, .ok values => .ok (a :: values)
    | .ok _, .error problems => .error problems
    | .error problems, .ok _ => .error problems
    | .error problems, .error more => .error (problems ++ more)

end Decoded

end GraphQLModels.Model
