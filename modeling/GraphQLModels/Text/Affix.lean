/-!
# The ends of a text

Whether a text begins or ends with another one, and with how many underscores.
-/

namespace GraphQLModels.Text

def beginsWith (s start : String) : Bool := start.toList.isPrefixOf s.toList

def endsWith (s finish : String) : Bool := finish.toList.isSuffixOf s.toList

/-- The number of underscores that a text begins with. -/
def leadingMarks (s : String) : Nat := (s.toList.takeWhile (· == '_')).length

/-- The number of underscores that a text ends with. -/
def trailingMarks (s : String) : Nat := (s.toList.reverse.takeWhile (· == '_')).length

end GraphQLModels.Text
