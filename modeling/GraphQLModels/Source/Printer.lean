import GraphQLModels.Identifier
import GraphQLModels.Source.Module
import GraphQLModels.Text.Comment
import GraphQLModels.Text.Docstring
import GraphQLModels.Text.Line
import GraphQLModels.Text.Quoted

/-!
# Writing a module

The text of a generated module, statement by statement.
-/

namespace GraphQLModels.Source

open Text (quoted)

/-- The text of each item, one after the other. -/
def each (items : List α) (text : α → String) : String := String.join (items.map text)

/-- A name between quotes, or the word for a missing one. -/
def quotedName (name : Option String) : String := (name.map quoted).getD (nameText none)

/-- A text that is there and not empty, written out; nothing otherwise. -/
def whenGiven (text : Option String) (write : String → String) : String :=
  ((givenName? text).map write).getD ""

/-- The docstring of a class and an empty line. -/
def docstringText (description : Option String) : String :=
  whenGiven description fun text =>
    "    \"\"\"" ++ Text.indent (Text.docstring text) ++ "\"\"\"\n\n"

/-- The comment above a field or value. -/
def commentText (description : Option String) : String :=
  whenGiven description fun text => "    # " ++ Text.comment text ++ "\n"

def deprecationText (reason : Option String) : String :=
  whenGiven reason fun text => "    # Deprecated: " ++ Text.comment text ++ "\n"

namespace Module

/-- The docstring of the module, its imports and its exported names. -/
def headText (m : Module) : String :=
  "\"\"\"Generated GraphQL models for " ++ m.title ++ ".\n\n" ++
  "Do not edit by hand; regenerate from the schema instead.\n\"\"\"\n\n" ++
  "from __future__ import annotations\n\nfrom enum import Enum as _Enum\n" ++
  "from typing import (\n    Annotated as _Annotated,\n    ClassVar as _ClassVar,\n" ++
  "    List as _List,\n    Literal as _Literal,\n    Optional as _Optional,\n" ++
  "    Union as _Union,\n)\n" ++
  each m.imports (· ++ "\n") ++
  "\nfrom pydantic import Field as _Field\n\nfrom gql_typegen import runtime as _runtime\n" ++
  "from gql_typegen.runtime import PageInfo\n\n__all__ = [\n" ++
  each m.exported (fun name => "    " ++ quotedName name ++ ",\n") ++ "]\n"

end Module

def Member.text (m : Member) : String :=
  commentText m.description ++ deprecationText m.deprecation ++
    "    " ++ m.name ++ " = " ++ quoted m.value ++ "\n"

def Member.constantText (m : Member) : String :=
  deprecationText m.deprecation ++ "    " ++ m.constant ++ " = " ++ quoted m.value ++ "\n"

def EnumClass.companionText (e : EnumClass) : String :=
  if e.stringConstants then
    "\n\nclass " ++ nameText e.name ++ "StringValues:\n    \"\"\"Literal GraphQL values of " ++
      nameText e.name ++ ".\"\"\"\n\n" ++ each e.members Member.constantText
  else ""

def EnumClass.text (e : EnumClass) : String :=
  "\n\nclass " ++ nameText e.name ++ "(str, _Enum):\n" ++ docstringText e.description ++
    (if e.members.isEmpty then "    pass\n" else each e.members Member.text) ++ e.companionText

/-- The name of the class that adds a capability. -/
def capabilityClass : CapabilityKind → String
  | .nodes => "ConnectionWithNodes"
  | .edges => "ConnectionWithEdges"
  | .nodesAndEdges => "ConnectionWithNodesAndEdges"
  | .edge => "Edge"

def Base.text : Base → String
  | .contract name => name
  | .capability kind => "_runtime." ++ capabilityClass kind
  | .model => "_runtime.GraphQLObject"

def basesText (bases : List Base) : String := ", ".intercalate (bases.map Base.text)

namespace Attribute

/-- The options of a field beyond its default. -/
def options (a : Attribute) : List String :=
  (a.rename.map fun name => "alias=" ++ quoted name).toList ++
    (a.deprecation.map fun reason => "deprecated=" ++ (reason.map quoted).getD "True").toList ++
    (if a.readOnly then ["frozen=True"] else [])

/-- The default of a field with its options. -/
def defaultText (a : Attribute) : String :=
  if a.options.isEmpty then "None"
  else "_Field(default=None, " ++ ", ".intercalate a.options ++ ")"

/-- The statement of an attribute with its comment. -/
def text (a : Attribute) : String :=
  commentText a.description ++
    "    " ++ a.name ++ ": " ++ a.type.text ++ " = " ++ a.defaultText ++ "\n"

end Attribute

def Accessor.text (a : Accessor) : String :=
  "\n    def " ++ a.method ++ "(self) -> _Optional[" ++ a.target ++ "]:\n" ++
    "        return self if isinstance(self, " ++ a.target ++ ") else None\n"

def ContractClass.text (c : ContractClass) : String :=
  "\n\nclass " ++ c.name ++ "(" ++ basesText c.bases ++ "):\n" ++ docstringText c.description ++
    "    graphql_implementers: _ClassVar[tuple[str, ...]] = (" ++
    each c.implementers (fun name => quoted name ++ ", ") ++ ")\n" ++
    (if c.attributes.isEmpty then "" else "\n") ++ each c.attributes Attribute.text ++
    each c.accessors Accessor.text

def ObjectClass.text (c : ObjectClass) : String :=
  "\n\nclass " ++ nameText c.name ++ "(" ++ basesText c.bases ++ "):\n" ++
    docstringText c.description ++
    each c.classVariables (fun v =>
      "    " ++ v.name ++ ": _ClassVar[str] = " ++ quoted v.value ++ "\n") ++
    "    " ++ typenameField ++ ": _Literal[" ++ quotedName c.schemaName ++ "] = _Field(default=" ++
    quotedName c.schemaName ++ ", alias=" ++ quoted typenameAlias ++ ")\n" ++
    each c.attributes Attribute.text

def AliasValue.text : AliasValue → String
  | .one name => name
  | .tagged members =>
    "_Annotated[_Union[" ++ ", ".intercalate members ++ "], _Field(discriminator=" ++
      quoted typenameField ++ ")]"

namespace Module

def aliasesText (m : Module) : String :=
  if m.aliases.isEmpty then ""
  else "\n\n" ++ each m.aliases fun a => a.name ++ " = " ++ a.value.text ++ "\n"

/-- The loop that completes the models once all names are bound. -/
def rebuildText (m : Module) : String :=
  if m.models.isEmpty then ""
  else "\n\nfor _model in (\n" ++ each m.models (fun name => "    " ++ nameText name ++ ",\n") ++
    "):\n    _model.model_rebuild()\n"

def text (m : Module) : String :=
  m.headText ++ each m.enums EnumClass.text ++ each m.contracts ContractClass.text ++
    each m.objects ObjectClass.text ++ m.aliasesText ++ m.rebuildText

end Module

end GraphQLModels.Source
