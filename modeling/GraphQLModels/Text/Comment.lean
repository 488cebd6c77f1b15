import GraphQLModels.Text.Blank

/-!
# Text for a comment

A description becomes one short line: asterisks go, each run of white space becomes one space, and
what is longer than a comment may be ends in an ellipsis.
-/

namespace GraphQLModels.Text

def commentWidth : Nat := 120

/-- Replaces each run of white space by one space. -/
def joinBlanks : List Char → List Char
  | [] => []
  | c :: rest =>
    if isBlank c then
      match rest with
      | next :: _ => if isBlank next then joinBlanks rest else ' ' :: joinBlanks rest
      | [] => [' ']
    else c :: joinBlanks rest

/-- Cuts a text to the width of a comment, the ellipsis included. -/
def shorten (cs : List Char) : List Char :=
  if cs.length > commentWidth then cs.take (commentWidth - 3) ++ ['.', '.', '.'] else cs

/-- The text as a comment on one line. -/
def comment (s : String) : String :=
  let kept := s.toList.filter fun c => c != '\r' && c != '*'
  trim (String.ofList (shorten (joinBlanks kept)))

end GraphQLModels.Text
