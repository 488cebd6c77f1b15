import GraphQLModels.Text.LetterCase

/-!
# Words joined by underscores

Names written in capitalised words become lower-case words joined by underscores.
-/

namespace GraphQLModels.Text

/-- Puts an underscore before a capital that small letters follow, unless it begins a line. The
letters of a word that was set off begin no further word. -/
def setOffWords : List Char → List Char
  | [] => []
  | [c] => [c]
  | c :: upper :: rest =>
    -- The small letters are taken along with their capital, so the search goes on behind them.
    if c != '\n' && upper.isUpper && rest.head?.any Char.isLower then
      c :: '_' :: upper ::
        (rest.takeWhile Char.isLower ++ setOffWords (rest.dropWhile Char.isLower))
    else
      c :: setOffWords (upper :: rest)
termination_by cs => cs.length
decreasing_by
  · have : (rest.dropWhile Char.isLower).length ≤ rest.length :=
      (List.dropWhile_sublist _).length_le
    simp only [List.length_cons]; omega
  · simp only [List.length_cons]; omega

/-- Puts an underscore between a small letter or digit and the capital after it. -/
def setOffCapitals : List Char → List Char
  | [] => []
  | [c] => [c]
  | c :: upper :: rest =>
    if (c.isLower || c.isDigit) && upper.isUpper then
      -- The capital is used up: it cannot be the small letter or digit in front of another one.
      c :: '_' :: upper :: setOffCapitals rest
    else
      c :: setOffCapitals (upper :: rest)

/-- The name in lower-case words joined by underscores. -/
def snakeCase (name : String) : String :=
  lower (String.ofList (setOffCapitals (setOffWords name.toList)))

end GraphQLModels.Text
