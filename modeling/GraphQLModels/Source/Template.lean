import GraphQLModels.Source.Lexer
import GraphQLModels.Source.Module
import GraphQLModels.Text.Blank
import GraphQLModels.Text.Quoted

/-!
# Templates

Whatever a template makes of a laid-out module may stand in place of the module. The plainest ones are
texts in which the name of the module is inserted as it stands or between quotes.
-/

namespace GraphQLModels.Source

/-- What a template makes of a laid-out module: a text, or a failure that may have a text too. -/
abbrev Template := Module → Except (Option String) String

namespace Template

def placeholder? (title inner : String) : Option String :=
  match inner.toList.filter (fun c => !Text.isBlank c) with
  | ['n', 'a', 'm', 'e', 's', 'p', 'a', 'c', 'e'] => some title
  | ['n', 'a', 'm', 'e', 's', 'p', 'a', 'c', 'e', '|', 'r', 'e', 'p', 'r'] =>
    some (Text.quoted title)
  | _ => none

/-- Where a placeholder ends: what is inside and what comes behind. -/
def splitPlaceholder (seen : List Char) : List Char → Option (List Char × List Char)
  | '\x7d' :: '\x7d' :: rest => some (seen.reverse, rest)
  | c :: rest => splitPlaceholder (c :: seen) rest
  | [] => none

/-- Fills in the placeholders, at most as many as the first argument says. -/
def fillFrom (title : String) : Nat → List Char → List Char
  | 0, cs => cs
  | n + 1, cs =>
    let before := textBefore cs
    match cs.drop before.length with
    | [] => cs
    | rest =>
      match splitPlaceholder [] (rest.drop 2) with
      | none => cs
      | some (inner, after) =>
        let filled := (placeholder? title (String.ofList inner)).getD ""
        before ++ filled.toList ++ fillFrom title n after
where
  /-- The text in front of the next placeholder. -/
  textBefore : List Char → List Char
    | '\x7b' :: '\x7b' :: _ => []
    | c :: rest => c :: textBefore rest
    | [] => []

/-- The text of a template for a module with a name. -/
def fill (template title : String) : String :=
  let cs := unifyBreaks template.toList
  String.ofList (fillFrom title cs.length cs)

/-- The template that a text is. -/
def ofText (template : String) : Template := fun m => .ok (fill template m.title)

end Template

end GraphQLModels.Source
