import GraphQLModels.Text.Affix

/-!
# Identifiers of the generated source

A schema name is escaped where it would clash with a keyword or with an attribute that every
generated class has.
-/

namespace GraphQLModels

def keywords : List String :=
  ["False", "None", "True", "and", "as", "assert", "async", "await", "break", "class", "continue",
    "def", "del", "elif", "else", "except", "finally", "for", "from", "global", "if", "import",
    "in", "is", "lambda", "nonlocal", "not", "or", "pass", "raise", "return", "try", "while",
    "with", "yield"]

/-- The name under which every class keeps the name of its schema type. -/
def typenameField : String := "typename__"

/-- The name under which documents carry the name of a schema type. -/
def typenameAlias : String := "__typename"

def classAttributes : List String :=
  ["construct", "copy", "dict", "edge_type_name", "from_json", "from_orm", "get_cursor",
    "get_edge_type", "get_node", "get_node_type", "get_nodes", "get_page_info",
    "graphql_implementers", "json", "model_computed_fields", "model_config", "model_construct",
    "model_copy", "model_dump", "model_dump_json", "model_extra", "model_fields",
    "model_fields_set", "model_json_schema", "model_parametrized_name", "model_post_init",
    "model_rebuild", "model_validate", "model_validate_json", "model_validate_strings",
    "node_source", "node_type_name", "parse_file", "parse_obj", "parse_raw", "schema",
    "schema_json", "to_json", typenameField, "update_forward_refs", "validate"]

/-- The attributes of members of an enum of texts. -/
def memberAttributes : List String :=
  ["capitalize", "casefold", "center", "count", "encode", "endswith", "expandtabs", "find",
    "format", "format_map", "index", "isalnum", "isalpha", "isascii", "isdecimal", "isdigit",
    "isidentifier", "islower", "isnumeric", "isprintable", "isspace", "istitle", "isupper", "join",
    "ljust", "lower", "lstrip", "maketrans", "mro", "name", "partition", "removeprefix",
    "removesuffix", "replace", "rfind", "rindex", "rjust", "rpartition", "rsplit", "rstrip",
    "split", "splitlines", "startswith", "strip", "swapcase", "title", "translate", "upper",
    "value", "zfill"]

/-- What an identifier is used for. -/
inductive IdentifierUse where
  | field | enumMember | constant
deriving DecidableEq, Repr

namespace IdentifierUse

/-- The names that are not free for a use. -/
def reserved : IdentifierUse → List String
  | .field => keywords ++ classAttributes
  | .enumMember => keywords ++ memberAttributes
  | .constant => keywords

def ofLabel? : String → Option IdentifierUse
  | "field" => some .field
  | "enum_member" => some .enumMember
  | "constant" => some .constant
  | _ => none

/-- Whether a name is set between single underscores, as enums reserve for themselves. -/
def isSunder (name : String) : Bool :=
  let cs := name.toList
  2 < cs.length && cs.head? == some '_' && cs.getLast? == some '_'

/-- The identifier for a schema name: a field with an underscore in front is set off by a word, and
a name that is not free gets an underscore behind it. -/
def escape (use : IdentifierUse) (name : String) : String :=
  if use == .field && Text.beginsWith name "_" then "field" ++ name
  else if use.reserved.contains name then name ++ "_"
  else if use == .enumMember && isSunder name then name ++ "_"
  else name

end IdentifierUse

end GraphQLModels
