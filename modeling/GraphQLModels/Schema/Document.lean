import GraphQLModels.Json.File
import GraphQLModels.Report
import GraphQLModels.Schema.Basic
import GraphQLModels.Text.Blank

/-!
# Introspection documents

A document is read into a schema: the answer of the introspection query with or without its data
envelope. A type name that is listed again is reported and its later entries are dropped. A value in
the place of a text is kept as it is, since only what is written in the end has to be one.
-/

namespace GraphQLModels

/-- Why a document is no schema. -/
inductive DocumentError where
  | unreadable
  | unusablePath
  | notJson
  | longInteger
  | notDocument
  | notObject
  | noSchema
  | noTypes
  | fieldWithoutType (name : Json)
  | unknownKind (kind name : Json)
  | entryNotObject
  | entryWithoutName
  | valueNotObject
  | notList
  | nameWithParts
deriving Repr

/-- The text of an error, for those whose text is part of the answer. -/
def DocumentError.message? : DocumentError → Option String
  | .unreadable => some "Cannot read introspection document"
  | .notJson => some "Introspection document is not valid JSON"
  | .longInteger => some Json.FileError.limit
  | .notObject => some "Introspection document must be a JSON object"
  | .noSchema => some "Introspection JSON missing data.__schema"
  | .noTypes => some "Introspection JSON missing __schema.types[]"
  | .fieldWithoutType name => some s!"Field '{name.display}' has no type"
  | .unknownKind kind name =>
    let place := if name.isGiven then s!" on type '{name.display}'" else ""
    some s!"Unexpected type kind '{kind.display}'{place}"
  | _ => none

namespace Document

/-- The items of a list that may be left out; the items of an object are its names and the items
of a text are its characters. -/
def listItems (value : Json) : Except DocumentError (List Json) :=
  if !value.isGiven then .ok []
  else
    match value with
    | .arr items => .ok items
    | .obj members => .ok (members.map fun member => .str member.1)
    | .str s => .ok (s.toList.map fun c => .str (String.singleton c))
    | _ => .error .notList

def optionalText : Json → Option String
  | .null => none
  | value => some value.asText

/-- What describes a part. A value that counts as false describes nothing. -/
def description (part : Json) : Option String :=
  match part.getD "description" with
  | .str s => some s
  | value => if value.isGiven then some value.asText else none

/-- What describes a field or a value of an enum. White space is cut from the end of its reason before
it is written, which fails for what is no text: such a reason stands in the place of the description,
where nothing can be written. -/
def describedWith (part : Json) : Option String :=
  match part.getD "deprecationReason" with
  | .null | .str _ => description part
  | reason => some reason.asText

def entryMembers : Json → Except DocumentError (List (String × Json))
  | .obj members => .ok members
  | _ => .error .entryNotObject

def readKind (kind name : Json) : Except DocumentError TypeKind :=
  match kind.str?.bind TypeKind.ofLabel? with
  | some kind => .ok kind
  | none => .error (.unknownKind kind name)

/-- Reads a value of an enum type. -/
def readEnumValue (value : Json) : Except DocumentError EnumValue :=
  match value with
  | .obj _ =>
    match value.get? "name" with
    | none => .error .entryWithoutName
    | some name => .ok {
        name := optionalText name
        description := describedWith value
        isDeprecated := (value.getD "isDeprecated").isGiven
        deprecationReason := optionalText (value.getD "deprecationReason") }
  | _ => .error .valueNotObject

mutual

/-- Reads a type entry; the first argument bounds how deep entries are nested. -/
def readType : Nat → Json → Except DocumentError SchemaType
  | 0, _ => .error .entryNotObject
  | fuel + 1, value => do
    let _ ← entryMembers value
    let kind ← readKind (value.getD "kind") (value.getD "name")
    let name := optionalText (value.getD "name")
    let description := description value
    let fields ← (← listItems (value.getD "fields")).mapM (readField fuel)
    let interfaces ← (← listItems (value.getD "interfaces")).mapM (readType fuel)
    let possibleTypes ← (← listItems (value.getD "possibleTypes")).mapM (readType fuel)
    let enumValues ← (← listItems (value.getD "enumValues")).mapM readEnumValue
    -- The fuel only bounds the nesting: `readEntry` starts with more than the depth of the value.
    let inner := value.getD "ofType"
    let ofType ← if inner.isGiven then some <$> readType fuel inner else pure none
    return { kind, name, description, fields, interfaces, possibleTypes, enumValues, ofType }

def readField : Nat → Json → Except DocumentError SchemaField
  | 0, _ => .error .entryNotObject
  | fuel + 1, value => do
    let _ ← entryMembers value
    let reference := value.getD "type"
    match reference, value.get? "name" with
    | .obj _, none => throw .entryWithoutName
    | .obj _, some name =>
      let type ← readType fuel reference
      return {
        name := optionalText name, type
        description := describedWith value
        isDeprecated := (value.getD "isDeprecated").isGiven
        deprecationReason := optionalText (value.getD "deprecationReason") }
    | _, _ => throw (.fieldWithoutType (value.getD "name"))

end

mutual

/-- How deep the values of a document are nested. -/
def depth : Json → Nat
  | .arr items => itemsDepth items + 1
  | .obj members => membersDepth members + 1
  | _ => 1

def itemsDepth : List Json → Nat
  | [] => 0
  | item :: rest => max (depth item) (itemsDepth rest)

def membersDepth : List (String × Json) → Nat
  | [] => 0
  | (_, value) :: rest => max (depth value) (membersDepth rest)

end

/-- Reads one entry of the type table. Its name is looked up, which only a list and an object are not
made for. -/
def readEntry (value : Json) : Except DocumentError SchemaType := do
  let t ← readType (depth value + 1) value
  match value.getD "name" with
  | .arr _ | .obj _ => throw .nameWithParts
  | _ => return t

/-- The object under `__schema`, inside the data envelope if there is one. -/
def schemaObject (root : Json) : Except DocumentError Json :=
  match root with
  | .obj _ =>
    let holder : Json := match root.getD "data" with
      -- Only an object counts as an envelope; with anything else the document itself is searched.
      | .obj members => .obj members
      | _ => root
    match holder.getD "__schema" with
    | .obj members => .ok (.obj members)
    | _ => .error .noSchema
  | _ => .error .notObject

/-- Reads the entries in order, given the types kept so far. -/
def readEntries (kept : List SchemaType) : List Json → Report DocumentError (List SchemaType)
  | [] => pure kept
  | value :: rest => do
    let t ← readEntry value
    match t.name with
    | some name =>
      if kept.any fun known => known.name == some name then
        Report.warn (.repeatedType name)
        readEntries kept rest
      else readEntries (kept ++ [t]) rest
    -- Entries without a name cannot repeat each other.
    | none => readEntries (kept ++ [t]) rest

def read (root : Json) : Report DocumentError Schema := do
  let schema ← schemaObject root
  match schema.getD "types" with
  | .arr entries =>
    let types ← readEntries [] entries
    Report.tell (.documentRead types.length)
    return ⟨types⟩
  | _ => throw .noTypes

def readText (text : String) : Report DocumentError Schema :=
  match Json.load text with
  | .ok root => read root
  | .error .notJson => throw .notJson
  | .error .longInteger => throw .longInteger

/-- Whether a text is JSON rather than the path of a file. -/
def isJsonText (text : String) : Bool :=
  match text.toList.dropWhile Text.isBlank with
  | c :: _ => c == '\x7b' || c == '[' || c == '"'
  | [] => false

/-- Where a document comes from. -/
inductive Origin where
  | value (root : Json)
  | text (text : String)
  | file (content : Option String)

/-- Reads a document given as a text. A text that is not JSON is the path of a file, and none is
there. -/
def readOrOpen (text : String) : Report DocumentError Schema :=
  if isJsonText text then readText text
  else if text.contains '\x00' then throw .unusablePath
  else throw .unreadable

/-- Reads a document from where it is. -/
def Origin.read : Origin → Report DocumentError Schema
  | .value (.obj members) => Document.read (.obj members)
  | .value (.str content) => readOrOpen content
  | .value _ => throw .notDocument
  | .text content => readOrOpen content
  | .file (some content) => readText content
  | .file none => throw .unreadable

end Document

end GraphQLModels
