import GraphQLModels.Schema.Document
import GraphQLModels.Proofs.References
import Mathlib.Data.List.Forall2

/-!
# Reading what was written

A list of types is written as an introspection document in many ways: the keys stand in any order
and among others, the envelope may be missing, and an empty list may be null or missing too. Reading
any of them gives the types back, less those that repeat a name.
-/

namespace GraphQLModels

namespace Document

/-! ## How types are written -/

/-- How a list is written: item by item, and an empty one also as null or not at all. -/
inductive WritesList {α : Type} (writes : α → Json → Prop) : List α → Json → Prop
  | nothing : WritesList writes [] .null
  | items {values : List α} {items : List Json} (each : List.Forall₂ writes values items) :
      WritesList writes values (.arr items)

/-- How a value that may be missing is written: as null or not at all if it is. -/
inductive WritesOption {α : Type} (writes : α → Json → Prop) : Option α → Json → Prop
  | nothing : WritesOption writes none .null
  | given {a : α} {json : Json} (written : writes a json) : WritesOption writes (some a) json

/-- How a flag is written: one that is not set also as null or not at all. -/
inductive WritesFlag : Bool → Json → Prop
  | nothing : WritesFlag false .null
  | given (flag : Bool) : WritesFlag flag (.bool flag)

/-- How a value of an enum type is written. -/
structure WritesValue (value : EnumValue) (json : Json) : Prop where
  name : json.get? "name" = some (Json.ofOption value.name)
  description : json.getD "description" = Json.ofOption value.description
  isDeprecated : WritesFlag value.isDeprecated (json.getD "isDeprecated")
  deprecationReason : json.getD "deprecationReason" = Json.ofOption value.deprecationReason

mutual

/-- How a type is written. The keys stand in any order, and there may be others. -/
inductive Writes : SchemaType → Json → Prop
  | entry {t : SchemaType} {json : Json}
      (kind : json.getD "kind" = .str t.kind.label)
      (name : json.getD "name" = Json.ofOption t.name)
      (description : json.getD "description" = Json.ofOption t.description)
      (fields : WritesList WritesField t.fields (json.getD "fields"))
      (interfaces : WritesList Writes t.interfaces (json.getD "interfaces"))
      (possibleTypes : WritesList Writes t.possibleTypes (json.getD "possibleTypes"))
      (enumValues : WritesList WritesValue t.enumValues (json.getD "enumValues"))
      (ofType : WritesOption Writes t.ofType (json.getD "ofType")) : Writes t json

/-- How a field is written. -/
inductive WritesField : SchemaField → Json → Prop
  | field {field : SchemaField} {json : Json}
      (name : json.get? "name" = some (Json.ofOption field.name))
      (type : Writes field.type (json.getD "type"))
      (description : json.getD "description" = Json.ofOption field.description)
      (isDeprecated : WritesFlag field.isDeprecated (json.getD "isDeprecated"))
      (deprecationReason : json.getD "deprecationReason" = Json.ofOption field.deprecationReason) :
      WritesField field json

end

/-- How the types of a schema are written in the object that holds the schema. -/
structure WritesSchema (types : List SchemaType) (holder : Json) : Prop where
  table : ∃ schema items, holder.getD "__schema" = .obj schema ∧
    (Json.obj schema).getD "types" = .arr items ∧ List.Forall₂ Writes types items

/-- How a list of types is written as a document: inside the data envelope or without it. -/
inductive WritesDocument (types : List SchemaType) : Json → Prop
  | enveloped {root data : List (String × Json)} (envelope : (Json.obj root).getD "data" = .obj data)
      (holds : WritesSchema types (.obj data)) : WritesDocument types (.obj root)
  | bare {root : List (String × Json)} (none : ∀ data, (Json.obj root).getD "data" ≠ .obj data)
      (holds : WritesSchema types (.obj root)) : WritesDocument types (.obj root)

/-! ## Every list of types can be written -/

def writtenValue (value : EnumValue) : Json :=
  .obj [("name", .ofOption value.name), ("description", .ofOption value.description),
    ("isDeprecated", .bool value.isDeprecated),
    ("deprecationReason", .ofOption value.deprecationReason)]

mutual

/-- A type with all keys, in the order in which the introspection query asks for them. -/
def written : SchemaType → Json
  | ⟨kind, name, description, fields, interfaces, possibleTypes, enumValues, ofType⟩ =>
    .obj [("kind", .str kind.label), ("name", .ofOption name),
      ("description", .ofOption description), ("fields", .arr (writtenFields fields)),
      ("interfaces", .arr (writtenAll interfaces)),
      ("enumValues", .arr (enumValues.map writtenValue)),
      ("possibleTypes", .arr (writtenAll possibleTypes)), ("ofType", writtenOption ofType)]

def writtenField : SchemaField → Json
  | ⟨name, type, description, isDeprecated, deprecationReason⟩ =>
    .obj [("name", .ofOption name), ("description", .ofOption description),
      ("type", written type), ("isDeprecated", .bool isDeprecated),
      ("deprecationReason", .ofOption deprecationReason)]

def writtenAll : List SchemaType → List Json
  | [] => []
  | t :: rest => written t :: writtenAll rest

def writtenFields : List SchemaField → List Json
  | [] => []
  | field :: rest => writtenField field :: writtenFields rest

def writtenOption : Option SchemaType → Json
  | none => .null
  | some t => written t

end

/-- A document with these types. -/
def writtenDocument (types : List SchemaType) : Json :=
  .obj [("data", .obj [("__schema", .obj [("types", .arr (writtenAll types))])])]

theorem writtenValue_writes (value : EnumValue) : WritesValue value (writtenValue value) :=
  ⟨rfl, rfl, .given _, rfl⟩

mutual

theorem written_writes : ∀ t : SchemaType, Writes t (written t)
  | ⟨_, _, _, fields, interfaces, possibleTypes, _, ofType⟩ =>
    .entry rfl rfl rfl (.items (writtenFields_writes fields)) (.items (writtenAll_writes interfaces))
      (.items (writtenAll_writes possibleTypes))
      (.items (List.forall₂_map_right_iff.mpr
        (List.forall₂_same.mpr fun value _ => writtenValue_writes value)))
      (writtenOption_writes ofType)

theorem writtenField_writes : ∀ field : SchemaField, WritesField field (writtenField field)
  | ⟨_, type, _, _, _⟩ => .field rfl (written_writes type) rfl (.given _) rfl

theorem writtenAll_writes : ∀ types, List.Forall₂ Writes types (writtenAll types)
  | [] => .nil
  | t :: rest => .cons (written_writes t) (writtenAll_writes rest)

theorem writtenFields_writes : ∀ fields, List.Forall₂ WritesField fields (writtenFields fields)
  | [] => .nil
  | field :: rest => .cons (writtenField_writes field) (writtenFields_writes rest)

theorem writtenOption_writes : ∀ t, WritesOption Writes t (writtenOption t)
  | none => .nothing
  | some t => .given (written_writes t)

end

/-- Every list of types is written as a document. -/
theorem writtenDocument_writes (types : List SchemaType) :
    WritesDocument types (writtenDocument types) :=
  .enveloped rfl ⟨_, _, rfl, rfl, writtenAll_writes types⟩

/-! ## Reading one type -/

/-- A member of an object is nested less deep than the object. -/
theorem depth_get? (json value : Json) (key : String) (given : json.get? key = some value) :
    depth value < depth json := by
  cases json with
  | obj members =>
    obtain ⟨member, found, rfl⟩ := Option.map_eq_some_iff.mp given
    have present := List.mem_of_find?_eq_some found
    clear given found
    suffices depth member.2 ≤ membersDepth members by
      rw [depth]
      omega
    induction members with
    | nil => cases present
    | cons first rest ih =>
      rw [membersDepth]
      rcases List.mem_cons.mp present with rfl | later
      · exact Nat.le_max_left _ _
      · exact Nat.le_trans (ih later) (Nat.le_max_right _ _)
  | _ => cases given

theorem depth_getD (json : Json) (key : String) (given : json.getD key ≠ .null) :
    depth (json.getD key) < depth json := by
  unfold Json.getD at given ⊢
  cases found : json.get? key with
  | none => simp [found] at given
  | some value => exact depth_get? json value key found

theorem depth_item (items : List Json) (item : Json) (present : item ∈ items) :
    depth item < depth (.arr items) := by
  suffices depth item ≤ itemsDepth items by
    rw [depth]
    omega
  induction items with
  | nil => cases present
  | cons first rest ih =>
    rw [itemsDepth]
    rcases List.mem_cons.mp present with rfl | later
    · exact Nat.le_max_left _ _
    · exact Nat.le_trans (ih later) (Nat.le_max_right _ _)

@[simp] theorem optionalText_ofOption (text : Option String) :
    optionalText (Json.ofOption text) = text := by
  cases text <;> rfl

theorem description_ofOption (json : Json) (text : Option String)
    (written : json.getD "description" = Json.ofOption text) : description json = text := by
  rw [description, written]
  cases text <;> rfl

theorem describedWith_ofOption (json : Json) (text reason : Option String)
    (written : json.getD "description" = Json.ofOption text)
    (reasoned : json.getD "deprecationReason" = Json.ofOption reason) :
    describedWith json = text := by
  rw [describedWith, reasoned, ← description_ofOption json text written]
  cases reason <;> rfl

theorem readKind_label (kind : TypeKind) (name : Json) :
    readKind (.str kind.label) name = .ok kind := by
  cases kind <;> rfl

theorem WritesFlag.isGiven {flag : Bool} {json : Json} (written : WritesFlag flag json) :
    json.isGiven = flag := by
  cases written <;> rfl

/-- A list in an entry is read back if what is nested less deep than the entry is. -/
theorem WritesList.read {α : Type} {writes : α → Json → Prop} {values : List α} {json : Json}
    {key : String} (written : WritesList writes values (json.getD key))
    (readItem : Json → Except DocumentError α)
    (each : ∀ value item, writes value item → depth item < depth json →
      readItem item = .ok value) :
    (listItems (json.getD key) >>= fun items => items.mapM readItem) = .ok values := by
  generalize member : json.getD key = list at written
  cases written with
  | nothing => rfl
  | @items _ items written =>
    have deeper : depth (.arr items) < depth json := by
      rw [← member]
      exact depth_getD json key (member ▸ nofun)
    have below : List.Forall₂ (fun item value => depth item < depth (.arr items) ∧ writes value item)
        items values := (List.forall₂_and_left items values).mpr ⟨depth_item items, written.flip⟩
    have listed : listItems (.arr items) = .ok items := by
      cases items <;> rfl
    rw [listed, Outcome.ok_bind, Outcome.mapM_ok_iff]
    exact below.imp fun item value ⟨within, written⟩ =>
      each value item written (Nat.lt_trans within deeper)

theorem readEnumValue_written (value : EnumValue) (json : Json) (written : WritesValue value json) :
    readEnumValue json = .ok value := by
  obtain ⟨name, description, isDeprecated, deprecationReason⟩ := written
  cases json with
  | obj members =>
    simp only [readEnumValue, name, describedWith_ofOption _ _ _ description deprecationReason,
      deprecationReason, optionalText_ofOption, isDeprecated.isGiven]
  | _ => cases name

/-- What has a kind is an object that is not empty. -/
theorem isObject_of_kind (json : Json) (label : String) (kind : json.getD "kind" = .str label) :
    ∃ members, json = .obj members ∧ json.isGiven = true := by
  cases json with
  | obj members =>
    refine ⟨members, rfl, ?_⟩
    cases members with
    | nil => cases kind
    | cons first rest => rfl
  | _ => cases kind

/-- A type is written as an object that is not empty. -/
theorem Writes.isObject {t : SchemaType} {json : Json} (written : Writes t json) :
    ∃ members, json = .obj members ∧ json.isGiven = true := by
  obtain ⟨kind⟩ := written
  exact isObject_of_kind json _ kind

theorem WritesOption.cases {t : Option SchemaType} {json : Json}
    (written : WritesOption Writes t json) :
    (json.isGiven = false ∧ t = none) ∨ (json.isGiven = true ∧ ∃ inner, t = some inner ∧
      Writes inner json) := by
  cases written with
  | nothing => exact .inl ⟨rfl, rfl⟩
  | given written =>
    obtain ⟨_, -, given⟩ := written.isObject
    exact .inr ⟨given, _, rfl, written⟩

/-- A type in an entry is nested less deep than the entry. -/
theorem Writes.depth_lt {t : SchemaType} {json : Json} {key : String}
    (written : Writes t (json.getD key)) : depth (json.getD key) < depth json := by
  obtain ⟨members, object, -⟩ := written.isObject
  exact depth_getD json key (object ▸ nofun)

/-- A type is read back with any fuel that exceeds its depth, and so is a field. -/
theorem readType_written (fuel : Nat) :
    (∀ t json, Writes t json → depth json < fuel → readType fuel json = .ok t) ∧
    (∀ field json, WritesField field json → depth json < fuel →
      readField fuel json = .ok field) := by
  -- Types hold fields and fields hold types, so both are read back in one induction.
  induction fuel with
  | zero => exact ⟨fun _ _ _ => nofun, fun _ _ _ => nofun⟩
  | succ fuel ih =>
    obtain ⟨ihType, ihField⟩ := ih
    constructor
    · intro t json written within
      obtain ⟨members, rfl, -⟩ := written.isObject
      obtain ⟨kind, name, description, fields, interfaces, possibleTypes, enumValues, ofType⟩ :=
        written
      have below : ∀ item, depth item < depth (.obj members) → depth item < fuel :=
        fun item deeper => Nat.lt_of_lt_of_le deeper (Nat.le_of_lt_succ within)
      have types : ∀ t item, Writes t item → depth item < depth (.obj members) →
          readType fuel item = .ok t :=
        fun t item writes deeper => ihType t item writes (below item deeper)
      have fieldsRead := fields.read (readField fuel) fun field item writes deeper =>
        ihField field item writes (below item deeper)
      have interfacesRead := interfaces.read (readType fuel) types
      have possibleTypesRead := possibleTypes.read (readType fuel) types
      have enumValuesRead := enumValues.read readEnumValue fun value item writes _ =>
        readEnumValue_written value item writes
      rw [readType, entryMembers, kind, readKind_label, name, description_ofOption _ _ description,
        optionalText_ofOption]
      simp only [Outcome.ok_bind, ← bind_assoc, fieldsRead, interfacesRead, possibleTypesRead,
        enumValuesRead]
      rcases ofType.cases with ⟨nothing, same⟩ | ⟨given, inner, same, written⟩
      · rw [if_neg (by simp [nothing])]
        cases t
        cases same
        rfl
      · rw [if_pos given, types inner _ written written.depth_lt]
        cases t
        cases same
        rfl
    · rintro field json ⟨name, type, description, isDeprecated, deprecationReason⟩ within
      have read := ihType _ _ type (Nat.lt_of_lt_of_le type.depth_lt (Nat.le_of_lt_succ within))
      obtain ⟨reference, isReference, -⟩ := type.isObject
      rw [isReference] at read
      cases json with
      | obj members =>
        simp only [readField, entryMembers, isReference, name, read,
          describedWith_ofOption _ _ _ description deprecationReason, deprecationReason,
          isDeprecated.isGiven, optionalText_ofOption, Outcome.ok_bind]
        rfl
      | _ => cases name

theorem readEntry_written (t : SchemaType) (json : Json) (written : Writes t json) :
    readEntry json = .ok t := by
  rw [readEntry, (readType_written (depth json + 1)).1 t json written (Nat.lt_succ_self _),
    Outcome.ok_bind]
  obtain ⟨-, name⟩ := written
  rw [name]
  cases t.name <;> rfl

/-! ## Types that repeat a name -/

/-- Whether a type has the name of one before it. -/
def repeats (earlier : List SchemaType) (t : SchemaType) : Bool :=
  t.name.isSome && earlier.any fun known => known.name == t.name

/-- The types of a list that repeat no name, after those that stand before the list. -/
def withoutRepeats (earlier : List SchemaType) : List SchemaType → List SchemaType
  | [] => []
  | t :: rest =>
    if repeats earlier t then withoutRepeats (earlier ++ [t]) rest
    else t :: withoutRepeats (earlier ++ [t]) rest

/-- The names that the other types of the list repeat. -/
def repeatedNames (earlier : List SchemaType) : List SchemaType → List String
  | [] => []
  | t :: rest =>
    if repeats earlier t then t.name.toList ++ repeatedNames (earlier ++ [t]) rest
    else repeatedNames (earlier ++ [t]) rest

theorem repeats_of_none (earlier : List SchemaType) (t : SchemaType) (unnamed : t.name = none) :
    repeats earlier t = false := by
  rw [repeats, unnamed]
  rfl

theorem repeats_of_some (earlier : List SchemaType) (t : SchemaType) (name : String)
    (named : t.name = some name) :
    repeats earlier t = earlier.any fun known => known.name == some name := by
  rw [repeats, named]
  rfl

/-- A type that repeats a name adds none. -/
theorem any_of_repeats (earlier : List SchemaType) (t : SchemaType)
    (repeated : repeats earlier t = true) (name : String) :
    ((earlier ++ [t]).any fun known => known.name == some name) =
      earlier.any fun known => known.name == some name := by
  by_cases named : t.name = some name
  · rw [repeats_of_some earlier t name named] at repeated
    rw [List.any_append, repeated, Bool.true_or]
  · simp [named]

/-- What a list of types keeps and what it drops are as many as it has. -/
theorem withoutRepeats_length (earlier types : List SchemaType) :
    (withoutRepeats earlier types).length + (repeatedNames earlier types).length =
      types.length := by
  induction types generalizing earlier with
  | nil => rfl
  | cons t rest ih =>
    have rest := ih (earlier ++ [t])
    rw [withoutRepeats, repeatedNames]
    split
    · rename_i repeated
      obtain ⟨name, named⟩ := Option.isSome_iff_exists.mp (Bool.and_eq_true_iff.mp repeated).1
      simp only [named, Option.toList_some, List.length_append, List.length_cons, List.length_nil]
      omega
    · simp only [List.length_cons]
      omega

/-- A name leads to the first type that has it. -/
theorem find?_withoutRepeats (earlier types : List SchemaType) (name : String)
    (new : (earlier.any fun known => known.name == some name) = false) :
    (withoutRepeats earlier types).find? (fun t => t.name == some name) =
      types.find? fun t => t.name == some name := by
  induction types generalizing earlier with
  | nil => rfl
  | cons t rest ih =>
    rw [withoutRepeats, List.find?_cons]
    by_cases named : t.name = some name
    · have first : repeats earlier t = false := (repeats_of_some earlier t name named).trans new
      simp [first, named]
    · have other : (t.name == some name) = false := beq_false_of_ne named
      have later : ((earlier ++ [t]).any fun known => known.name == some name) = false := by
        simp [new, other]
      split <;> simp [other, ih (earlier ++ [t]) later]

/-- The names of the kept types are the names of all of them, each where it comes first. -/
theorem names_withoutRepeats (earlier types : List SchemaType) :
    (withoutRepeats earlier types).filterMap (·.name) =
      ((types.filterMap (·.name)).filter fun name =>
        !earlier.any fun known => known.name == some name).eraseDups := by
  induction types generalizing earlier with
  | nil => rfl
  | cons t rest ih =>
    rw [withoutRepeats]
    cases named : t.name with
    | none =>
      rw [repeats_of_none earlier t named]
      simp [named, ih]
    | some name =>
      rw [List.filterMap_cons_some named]
      split
      · rename_i repeated
        rw [ih, List.filter_cons_of_neg (by simp [← repeats_of_some earlier t name named, repeated])]
        simp only [any_of_repeats earlier t repeated]
      · rename_i first
        rw [List.filterMap_cons_some named, ih, List.filter_cons_of_pos
          (by simpa [← repeats_of_some earlier t name named] using first), List.eraseDups_cons,
          List.filter_filter]
        congr 3
        funext other
        simp [named, Bool.and_comm, BEq.comm (a := name)]

/-! ## Reading a document -/

/-- Reading a list of types keeps those that repeat no name and warns of the others, one by one, if
the types kept before have the names of all that came before. -/
theorem readEntries_written (types : List SchemaType) (items : List Json)
    (each : List.Forall₂ Writes types items) (kept earlier : List SchemaType)
    (same : ∀ name, (kept.any fun known => known.name == some name) =
      earlier.any fun known => known.name == some name) :
    readEntries kept items = ⟨(repeatedNames earlier types).map .repeatedType, [],
      .ok (kept ++ withoutRepeats earlier types)⟩ := by
  induction each generalizing kept earlier with
  | nil =>
    rw [withoutRepeats, List.append_nil]
    rfl
  | @cons t json rest _ written _ ih =>
    rw [readEntries, readEntry_written t json written, Report.lift_ok_bind, withoutRepeats,
      repeatedNames]
    have both : ∀ name, ((kept ++ [t]).any fun known => known.name == some name) =
        (earlier ++ [t]).any fun known => known.name == some name := by
      intro name
      rw [List.any_append, List.any_append, same name]
    cases named : t.name with
    | none =>
      rw [repeats_of_none earlier t named]
      simpa using ih (kept ++ [t]) (earlier ++ [t]) both
    | some name =>
      have new : repeats earlier t = kept.any fun known => known.name == some name :=
        (repeats_of_some earlier t name named).trans (same name).symm
      dsimp only
      rw [← new]
      split
      · rename_i repeated
        rw [ih kept (earlier ++ [t]) fun other =>
          (same other).trans (any_of_repeats earlier t repeated other).symm]
        rfl
      · simpa using ih (kept ++ [t]) (earlier ++ [t]) both

/-- Whether a document from somewhere is this value: given as it is, as a text or in a file. -/
inductive Origin.Holds : Origin → Json → Prop
  | value (members : List (String × Json)) : Holds (.value (.obj members)) (.obj members)
  | textValue {text : String} {root : Json} (isJson : isJsonText text = true)
      (loaded : Json.load text = .ok root) : Holds (.value (.str text)) root
  | text {text : String} {root : Json} (isJson : isJsonText text = true)
      (loaded : Json.load text = .ok root) : Holds (.text text) root
  | file {content : String} {root : Json} (loaded : Json.load content = .ok root) :
      Holds (.file (some content)) root

theorem Origin.read_of_holds (origin : Origin) (root : Json) (holds : origin.Holds root) :
    origin.read = Document.read root := by
  cases holds with
  | value members => rfl
  | textValue isJson loaded | text isJson loaded =>
    rw [Origin.read, readOrOpen, if_pos isJson, readText, loaded]
  | file loaded => rw [Origin.read, readText, loaded]

/-- Whether a document has these items in its type table, inside the data envelope or without it. -/
inductive HasTable (items : List Json) : Json → Prop
  | enveloped {root data schema : List (String × Json)}
      (envelope : (Json.obj root).getD "data" = .obj data)
      (located : (Json.obj data).getD "__schema" = .obj schema)
      (listed : (Json.obj schema).getD "types" = .arr items) : HasTable items (.obj root)
  | bare {root schema : List (String × Json)} (none : ∀ data, (Json.obj root).getD "data" ≠ .obj data)
      (located : (Json.obj root).getD "__schema" = .obj schema)
      (listed : (Json.obj schema).getD "types" = .arr items) : HasTable items (.obj root)

theorem HasTable.schemaObject {items : List Json} {root : Json} (hasTable : HasTable items root) :
    ∃ schema, schemaObject root = .ok (.obj schema) ∧
      (Json.obj schema).getD "types" = .arr items := by
  cases hasTable with
  | enveloped envelope located listed =>
    refine ⟨_, ?_, listed⟩
    simp only [Document.schemaObject, envelope, located]
  | @bare root schema none located listed =>
    refine ⟨schema, ?_, listed⟩
    unfold Document.schemaObject
    cases data : (Json.obj root).getD "data" with
    | obj members => exact absurd data (none members)
    | _ => simp only [located]

/-- The table of a written document is found inside the envelope or without it. -/
theorem schemaObject_written (types : List SchemaType) (root : Json)
    (written : WritesDocument types root) :
    ∃ schema items, schemaObject root = .ok (.obj schema) ∧
      (Json.obj schema).getD "types" = .arr items ∧ List.Forall₂ Writes types items := by
  cases written with
  | enveloped envelope holds =>
    obtain ⟨schema, items, located, listed, each⟩ := holds
    obtain ⟨found, same, table⟩ := (HasTable.enveloped envelope located listed).schemaObject
    exact ⟨found, items, same, table, each⟩
  | bare none holds =>
    obtain ⟨schema, items, located, listed, each⟩ := holds
    obtain ⟨found, same, table⟩ := (HasTable.bare none located listed).schemaObject
    exact ⟨found, items, same, table, each⟩

/-- **Reading a document that was written.** However a list of types is written, reading gives the
types that repeat no name, in their order, and warns of every other one. The names of the table are
the distinct names in the order in which they first come, and each leads to the first type that has
it. -/
theorem read_written (types : List SchemaType) (root : Json) (written : WritesDocument types root)
    (origin : Origin) (holds : origin.Holds root) :
    origin.read = ⟨(repeatedNames [] types).map .repeatedType,
      [.documentRead (withoutRepeats [] types).length], .ok ⟨withoutRepeats [] types⟩⟩ ∧
    (withoutRepeats [] types).length + (repeatedNames [] types).length = types.length ∧
    (Schema.mk (withoutRepeats [] types)).names = (types.filterMap (·.name)).eraseDups ∧
    ∀ name, (Schema.mk (withoutRepeats [] types)).find? name =
      types.find? fun t => t.name == some name := by
  refine ⟨?_, withoutRepeats_length [] types, ?_, fun name =>
    find?_withoutRepeats [] types name rfl⟩
  · obtain ⟨schema, items, located, listed, each⟩ := schemaObject_written types root written
    rw [origin.read_of_holds root holds, Document.read, located, Report.lift_ok_bind, listed]
    dsimp only
    rw [readEntries_written types items each [] [] fun _ => rfl]
    change Report.mk (_ ++ []) _ _ = _
    rw [List.append_nil]
    rfl
  · have distinct := names_withoutRepeats [] types
    simp only [List.any_nil, Bool.not_false, List.filter_true] at distinct
    rw [Schema.names, distinct, eraseDups_eq_iff]
    exact eraseDups_nodup _

/-! ## A document with a repeated name -/

def stationCode : SchemaField where
  name := some "code"
  type := { kind := .nonNull, ofType := some { kind := .scalar, name := some "ID" } }

/-- A type with one field that is never null, and one that repeats its name. -/
def stationTypes : List SchemaType := [
  { kind := .object, name := some "Station", fields := [stationCode] },
  { kind := .interface, name := some "Station" }]

def stationCodeEntry : Json :=
  .obj [("name", .str "code"), ("args", .arr []), ("type", .obj [("kind", .str "NON_NULL"),
    ("name", .null), ("ofType", .obj [("kind", .str "SCALAR"), ("name", .str "ID")])])]

/-- The types without an envelope, with empty lists in all three ways and with other keys. -/
def stationDocument : List (String × Json) := [
  ("__schema", .obj [("queryType", .null), ("types", .arr [
    .obj [("kind", .str "OBJECT"), ("name", .str "Station"), ("interfaces", .arr []),
      ("fields", .arr [stationCodeEntry])],
    .obj [("name", .str "Station"), ("kind", .str "INTERFACE"), ("fields", .null)]])])]

theorem stationCodeEntry_writes : WritesField stationCode stationCodeEntry := by
  refine .field rfl (.entry rfl rfl rfl .nothing .nothing .nothing .nothing (.given ?_)) rfl
    .nothing rfl
  exact .entry rfl rfl rfl .nothing .nothing .nothing .nothing .nothing

theorem stationDocument_writes : WritesDocument stationTypes (.obj stationDocument) := by
  refine .bare (fun _ => nofun) ⟨_, _, rfl, rfl, .cons ?_ (.cons ?_ .nil)⟩
  · exact .entry rfl rfl rfl (.items (.cons stationCodeEntry_writes .nil)) (.items .nil) .nothing
      .nothing .nothing
  · exact .entry rfl rfl rfl .nothing .nothing .nothing .nothing .nothing

/-- The first type of the name is kept. -/
theorem read_written_station :
    (Origin.value (.obj stationDocument)).read = ⟨[.repeatedType "Station"], [.documentRead 1],
      .ok ⟨stationTypes.take 1⟩⟩ :=
  (read_written stationTypes (.obj stationDocument) stationDocument_writes _
    (.value stationDocument)).1

end Document

end GraphQLModels
