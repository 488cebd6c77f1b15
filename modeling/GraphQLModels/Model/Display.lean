import GraphQLModels.Model.Class

/-!
# Values in displays

How a value reads when it is shown: texts and what is inside of others in quotes, objects by their
class and attributes.
-/

namespace GraphQLModels.Model.Library

/-- A time of day as an expression. -/
def clockParts (c : Time.Clock) : String :=
  let parts := [c.hour, c.minute] ++
    (if c.second != 0 || c.micro != 0 then [c.second] else []) ++
    (if c.micro != 0 then [c.micro] else [])
  let offset := match c.offset with
    | none => ""
    | some 0 => ", tzinfo=TzInfo(UTC)"
    | some offset => ", tzinfo=TzInfo(" ++ Time.Clock.offsetText offset ++ ")"
  ", ".intercalate (parts.map toString) ++ offset

def dateParts (d : Time.Date) : String := s!"{d.year}, {d.month}, {d.day}"

mutual

def inspect (lib : Library) : Value → String
  | .null => "None"
  | .bool true => "True"
  | .bool false => "False"
  | .int n => toString n
  | .float x => x.display
  | .text s => Text.quoted s
  | .decimal d => "Decimal('" ++ d.text ++ "')"
  | .moment m => "datetime.datetime(" ++ dateParts m.date ++ ", " ++ clockParts m.clock ++ ")"
  | .date d => "datetime.date(" ++ dateParts d ++ ")"
  | .clock c => "datetime.time(" ++ clockParts c ++ ")"
  | .uuid s => "UUID('" ++ s ++ "')"
  | .member enum name value => "<" ++ enum ++ "." ++ name ++ ": " ++ Text.quoted value ++ ">"
  | .list items => "[" ++ ", ".intercalate (lib.inspectItems items) ++ "]"
  | .dict members => "\x7b" ++ ", ".intercalate (lib.inspectMembers ": " true members) ++ "\x7d"
  | .object _ place attributes =>
    ((lib.class? place).map (·.name)).getD "" ++ "(" ++
      ", ".intercalate (lib.inspectMembers "=" false attributes) ++ ")"
  | .record name parts =>
    name ++ "(" ++ ", ".intercalate (lib.inspectMembers "=" false parts) ++ ")"
  | .type name => "<class '" ++ name ++ "'>"
  | .foreign _ content => content.inspect

def inspectItems (lib : Library) : List Value → List String
  | [] => []
  | item :: rest => lib.inspect item :: lib.inspectItems rest

/-- Named parts, with a text between each name and its value. -/
def inspectMembers (lib : Library) (between : String) (areQuoted : Bool) :
    List (String × Value) → List String
  | [] => []
  | (name, value) :: rest =>
    ((if areQuoted then Text.quoted name else name) ++ between ++ lib.inspect value) ::
      lib.inspectMembers between areQuoted rest

end

def display (lib : Library) : Value → String
  | .text s => s
  | .decimal d => d.text
  | .moment m => m.display
  | .date d => d.text
  | .clock c => c.display
  | .uuid s => s
  | value => lib.inspect value

end GraphQLModels.Model.Library
