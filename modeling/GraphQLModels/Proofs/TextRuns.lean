import GraphQLModels.Source.Lexer

/-!
# Runs of characters

A text is read as its longest runs of characters of some kind: identifiers if these are the
characters that go on with a word. Any other character separates what stands before and behind it.
-/

namespace GraphQLModels.Text

/-- The longest runs of characters of a kind in a text. -/
def runs (isKind : Char → Bool) (text : String) : List String :=
  ((text.toList.splitOnP fun c => !isKind c).filter (!·.isEmpty)).map String.ofList

variable {isKind : Char → Bool}

/-- A character of another kind separates the runs on both sides. -/
theorem runs_separated (front behind : String) (c : Char) (separates : isKind c = false) :
    runs isKind (front ++ String.singleton c ++ behind) =
      runs isKind front ++ runs isKind behind := by
  have letters : (front ++ String.singleton c ++ behind).toList =
      front.toList ++ c :: behind.toList := by
    rw [String.toList_append, String.toList_append, String.toList_singleton, List.append_assoc]
    rfl
  unfold runs
  rw [letters, List.splitOnP_append_cons _ _ (by rw [separates]; rfl), List.filter_append,
    List.map_append]

/-- A text of one kind is one run. -/
theorem runs_whole (text : String) (given : text ≠ "") (each : ∀ c ∈ text.toList, isKind c = true) :
    runs isKind text = [text] := by
  have unsplit : (text.toList.splitOnP fun c => !isKind c) = [text.toList] :=
    List.splitOnP_eq_singleton fun c member => by simp [each c member]
  have something : text.toList ≠ [] := fun empty => given (String.toList_inj.mp empty)
  rw [runs, unsplit, List.filter_cons_of_pos (by simpa using something), List.filter_nil,
    List.map_singleton, String.ofList_toList]

/-- The identifiers in a text. -/
def identifiersIn (text : String) : List String := runs Source.Lexer.isWordChar text

theorem identifiersIn_bracketed (front inner : String) :
    identifiersIn (front ++ "[" ++ inner ++ "]") = identifiersIn front ++ identifiersIn inner := by
  have opened : identifiersIn (front ++ "[" ++ inner) = identifiersIn front ++ identifiersIn inner :=
    runs_separated front inner '[' (by decide)
  have closed : identifiersIn (front ++ "[" ++ inner ++ "]" ++ "") =
      identifiersIn (front ++ "[" ++ inner) ++ identifiersIn "" :=
    runs_separated (front ++ "[" ++ inner) "" ']' (by decide)
  rw [String.append_empty, opened, show identifiersIn "" = [] by decide,
    List.append_nil] at closed
  exact closed

end GraphQLModels.Text
