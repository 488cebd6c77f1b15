import GraphQLModels.Text.Blank

/-!
# Text for a docstring

A description is written between triple quotes: its backslashes are doubled and a run of three
quotes is escaped, so that only the closing quotes end the literal.
-/

namespace GraphQLModels.Text

def doubleBackslashes (cs : List Char) : List Char :=
  cs.flatMap fun c => if c == '\\' then ['\\', '\\'] else [c]

/-- Escapes each run of three quotes, from the left. -/
def escapeTripleQuotes : List Char → List Char
  | '"' :: '"' :: '"' :: rest =>
    '\\' :: '"' :: '\\' :: '"' :: '\\' :: '"' :: escapeTripleQuotes rest
  | c :: rest => c :: escapeTripleQuotes rest
  | [] => []

/-- The text to put between triple quotes; a space keeps a quote at the end from joining them. -/
def docstring (s : String) : String :=
  let cs := escapeTripleQuotes (doubleBackslashes (dropEndWhile (· == '\n') s.toList))
  String.ofList (if cs.getLast? == some '"' then cs ++ [' '] else cs)

end GraphQLModels.Text
