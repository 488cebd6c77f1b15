import GraphQLModels.Proofs.Decoding
import GraphQLModels.Proofs.LoadedFields
import GraphQLModels.Proofs.Serialization

/-!
# Fields that classes keep

A loaded class has one field for each attribute of its statement and of the statements above it.
It keeps every field of the schema unless two of their names come to be one attribute.
-/

namespace GraphQLModels.Model

/-! ## The names of the fields of a class -/

/-- Whether a field is the mark with the name of the schema type. -/
def FieldOf.IsMark {σ : Type} (f : FieldOf σ) : Prop :=
  f.name = typenameField ∧ f.wire = typenameAlias

instance {σ : Type} (f : FieldOf σ) : Decidable f.IsMark := inferInstanceAs (Decidable (_ ∧ _))

/-- How the fields of the class at a place come from the schema names that belong to places: its own
names and those that belong to the classes above it. -/
structure ClassOf.HasNames {σ : Type} (names : Nat → List String) (place : Nat)
    (c : ClassOf σ) : Prop where
  itself : place ∈ c.order
  bounded : ∀ q ∈ c.order, q ≤ place
  apart : (c.fields.map (·.name)).Nodup
  escaped : ∀ f ∈ c.fields, f.IsMark ∨ f.name = IdentifierUse.field.escape f.wire ∧
    ∃ q ∈ c.order, f.wire ∈ names q
  present : ∀ q ∈ c.order, ∀ name ∈ names q, ∃ f ∈ c.fields,
    f.name = IdentifierUse.field.escape name
  declared : ∀ name ∈ names place, IdentifierUse.field.escape name ∈ c.declared
  own : ∀ f ∈ c.fields, f.name ∈ c.declared → f.IsMark ∨
    f.name = IdentifierUse.field.escape f.wire ∧ f.wire ∈ names place

/-- The schema names of the fields of a class of the foundation. -/
def foundationNames (place : Nat) : List String :=
  ((Foundation.classes[place]?).map fun c =>
    (c.fields.map (·.wire)).filter (· != typenameAlias)).getD []

theorem foundation_hasNames (place : Nat) (k : ClassOf Draft)
    (found : (Foundation.classes.map ClassOf.draft)[place]? = some k) :
    k.HasNames foundationNames place := by
  match place with
  | 0 | 1 | 2 | 3 | 4 | 5 | 6 =>
    cases found
    constructor <;> decide
  | _ + 7 => cases found

section

variable {sources : List ClassSource} {s : Loading} (step : ClassStep sources s)
  (names : Nat → List String)
  (own : names step.before.classes.length = step.source.attributes.map (·.fieldName))
  (escaped : ∀ a ∈ step.source.attributes, a.name = IdentifierUse.field.escape a.fieldName)

include own escaped

/-- A field that a statement declares is the mark or holds one of its names. -/
theorem ClassStep.declared_escaped (f : FieldOf Draft) (member : f ∈ step.declared) :
    f.IsMark ∨ f.name = IdentifierUse.field.escape f.wire ∧
      f.wire ∈ names step.before.classes.length := by
  rcases (Statement.declares _ _ _ step.makes.fields).source f member with
    ⟨text, -, rfl⟩ | ⟨a, isAttribute, gives⟩
  · exact .inl ⟨rfl, rfl⟩
  · rw [step.source.statement_attributes] at isAttribute
    obtain ⟨named, holds, -⟩ := Statement.field_ok _ _ a f gives
    rw [named, holds, own]
    exact .inr ⟨escaped a isAttribute, List.mem_map_of_mem isAttribute⟩

/-- A statement declares a field for each of its names. -/
theorem ClassStep.escape_declared (name : String)
    (isOwn : name ∈ names step.before.classes.length) :
    IdentifierUse.field.escape name ∈ step.declared.map (·.name) := by
  rw [own] at isOwn
  obtain ⟨a, isAttribute, rfl⟩ := List.mem_map.mp isOwn
  rw [← escaped a isAttribute]
  refine (Statement.declares _ _ _ step.makes.fields).attributes a ?_
  rw [step.source.statement_attributes]
  exact isAttribute

/-- A statement whose attributes hold the names of its place gives a class with these names. -/
theorem ClassStep.hasNames
    (earlier : ∀ q (k : ClassOf Draft), step.before.classes[q]? = some k → k.HasNames names q) :
    step.made.HasNames names step.before.classes.length := by
  have ofOwn := step.declared_escaped names own escaped
  have isDeclared := step.escape_declared names own escaped
  refine ⟨List.mem_cons_self, ?_, Statement.allFields_apart .., ?_, ?_, isDeclared, ?_⟩
  · intro q within
    rcases List.mem_cons.mp within with rfl | isAbove
    · exact Nat.le_refl _
    · obtain ⟨base, -, k, found, inOrder⟩ := (step.makes.mem_above q).mp isAbove
      have bound := (earlier base k found).bounded q inOrder
      have isPlace := (List.getElem?_eq_some_iff.mp found).choose
      omega
  · intro f member
    rcases Statement.allFields_from _ _ _ _ f member with
      isOwn | ⟨-, base, isBase, k, found, inherited⟩
    · exact (ofOwn f isOwn).imp_right fun both => ⟨both.1, _, List.mem_cons_self, both.2⟩
    · refine ((earlier base k found).escaped f inherited).imp_right ?_
      rintro ⟨named, q, inOrder, isName⟩
      refine ⟨named, q, List.mem_cons_of_mem _ ?_, isName⟩
      exact (step.makes.mem_above q).mpr ⟨base, isBase, k, found, inOrder⟩
  · -- A name of a class above is inherited from the base that has the class above it.
    intro q within name isName
    rcases List.mem_cons.mp within with rfl | isAbove
    · obtain ⟨f, isOwn, named⟩ := List.mem_map.mp (isDeclared name isName)
      have apart := (Statement.declares _ _ _ step.makes.fields).apart
      exact ⟨f, Statement.mem_allFields_own _ _ _ _ apart f isOwn, named⟩
    · obtain ⟨base, isBase, b, found, inOrder⟩ := (step.makes.mem_above q).mp isAbove
      obtain ⟨f, inherited, named⟩ := (earlier base b found).present q inOrder name isName
      have bound := (earlier base b found).bounded q inOrder
      have isPlace := (List.getElem?_eq_some_iff.mp found).choose
      obtain ⟨k, isClass⟩ : ∃ k, step.before.classes[q]? = some k :=
        ⟨_, List.getElem?_eq_getElem (by omega)⟩
      exact Statement.allFields_inherits _ _ _ _ q k isAbove isClass _
        ((earlier q k isClass).declared name isName) base b isBase found f inherited named
  · intro f member known
    rcases Statement.allFields_from _ _ _ _ f member with isOwn | ⟨other, -⟩
    · exact ofOwn f isOwn
    · exact absurd known other

end

theorem finishClass_hasNames (s : Loading) (k : ClassOf Draft) (c : Class)
    (names : Nat → List String) (place : Nat) (given : finishClass s k = .ok c)
    (before : k.HasNames names place) : c.HasNames names place := by
  have fieldNames := congrArg (List.map Prod.fst) (finishClass_names s k c given)
  rw [List.map_map, List.map_map] at fieldNames
  obtain ⟨finished, drafts⟩ := finishClass_fields s k c given
  obtain ⟨fields, rfl, -⟩ := finishClass_ok s k c given
  refine ⟨before.itself, before.bounded, fieldNames ▸ before.apart, fun g member => ?_, ?_,
    before.declared, fun g member isDeclared => ?_⟩
  · obtain ⟨f, isField, shape, -, rfl⟩ := drafts g member
    exact before.escaped f isField
  · intro q within name isName
    obtain ⟨f, isField, named⟩ := before.present q within name isName
    obtain ⟨shape, -, member⟩ := finished f isField
    exact ⟨_, member, named⟩
  · obtain ⟨f, isField, shape, -, rfl⟩ := drafts g member
    exact before.own f isField isDeclared

/-! ## Kept names -/

/-- Whether a class has a field for a schema name under the attribute to which it is escaped. -/
def ClassOf.Keeps {σ : Type} (c : ClassOf σ) (name : String) : Prop :=
  ∃ f ∈ c.fields, f.name = IdentifierUse.field.escape name ∧ f.wire = name

/-- Whether none of some schema names is what another is escaped to. -/
def NoClash (isName : String → Prop) : Prop :=
  ∀ one other, isName one → isName other → ¬IdentifierUse.field.Clashes one other

/-- A class that has an attribute for each of some names, and holds none but these under them, keeps
all of them exactly if they do not clash. -/
theorem keeps_all_iff {σ : Type} (c : ClassOf σ) (isName : String → Prop)
    (apart : (c.fields.map (·.name)).Nodup)
    (present : ∀ name, isName name → ∃ f ∈ c.fields, f.name = IdentifierUse.field.escape name)
    (holds : ∀ f ∈ c.fields, ∀ name, isName name → f.name = IdentifierUse.field.escape name →
      f.name = IdentifierUse.field.escape f.wire ∧ isName f.wire) :
    (∀ name, isName name → c.Keeps name) ↔ NoClash isName := by
  constructor
  · -- Names that clash would be held by one field.
    intro keeps one other isOne isOther clash
    obtain ⟨f, isField, named, rfl⟩ := keeps one isOne
    obtain ⟨g, isField', named', rfl⟩ := keeps other isOther
    have same : f.name = g.name := by rw [named, named', clash.escape_eq]
    exact clash.ne (congrArg FieldOf.wire (List.inj_on_of_nodup_map apart isField isField' same))
  · intro free name isNamed
    obtain ⟨f, isField, named⟩ := present name isNamed
    obtain ⟨escaped, isWire⟩ := holds f isField name isNamed named
    refine ⟨f, isField, named, ?_⟩
    by_contra different
    rcases (IdentifierUse.field.escape_eq_iff f.wire name different).mp (escaped ▸ named) with
      clash | clash
    · exact free _ _ isWire isNamed clash
    · exact free _ _ isNamed isWire clash

/-- No field holds its value under the attribute of the mark. -/
theorem not_isMark (f : FieldSpec) (name : String)
    (named : f.name = IdentifierUse.field.escape name) : ¬f.IsMark := by
  rintro ⟨isMark, -⟩
  refine IdentifierUse.field.escape_not_reserved name ?_
  rw [← named, isMark]
  simp [IdentifierUse.reserved, classAttributes]

section

variable {names : Nat → List String} {place : Nat} {c : Class} (has : c.HasNames names place)

include has

theorem keeps_own_iff :
    (∀ name ∈ names place, c.Keeps name) ↔ NoClash (· ∈ names place) := by
  refine keeps_all_iff c _ has.apart (has.present place has.itself) ?_
  intro f isField name isName named
  have isDeclared := has.declared name isName
  rcases has.own f isField (named ▸ isDeclared) with mark | own
  · exact absurd mark (not_isMark f name named)
  · exact own

theorem keeps_above_iff :
    (∀ name, (∃ q ∈ c.order, name ∈ names q) → c.Keeps name) ↔
      NoClash fun name => ∃ q ∈ c.order, name ∈ names q := by
  refine keeps_all_iff c _ has.apart ?_ fun f isField name isName named => ?_
  · rintro name ⟨q, within, isName⟩
    exact has.present q within name isName
  · rcases has.escaped f isField with mark | known
    · exact absurd mark (not_isMark f name named)
    · exact known

end

/-! ## Documents -/

namespace Library

/-- An object with a value for each field. -/
def objectWith (lib : Library) (place : Nat) (value : FieldSpec → Value) : Value :=
  .object none place ((lib.fieldsOf place).map fun f => (f.name, value f))

/-- A document that gives each field a value, or leaves it as it is initially, is decoded to the
object with these values. -/
theorem decode_objectWith (lib : Library) (form : Form) (place : Nat)
    (members : List (String × Json)) (value : FieldSpec → Value)
    (given : ∀ f ∈ lib.fieldsOf place, (∃ j, findKey? f.wire members = some j ∧
      lib.decode form j f.shape = .ok (value f)) ∨ held? members f = none ∧ value f = f.initial) :
    lib.decode form (.obj members) (.model place) = .ok (lib.objectWith place value) := by
  refine (decode_model_ok_iff lib form place _ _).mpr ⟨members, _, rfl, ?_, rfl⟩
  have each : ∀ f ∈ lib.fieldsOf place, ∀ b,
      decodeField (lib.memberDecoders form members) f = .ok b ↔
        True ∧ b = (f.name, value f) := by
    intro f isField b
    rw [true_and, Prod.ext_iff, decodeField_ok_iff]
    refine and_congr_right fun _ => ?_
    rcases given f isField with ⟨j, found, decoded⟩ | ⟨none, initial⟩
    · -- The name in documents is looked for first.
      obtain ⟨entry, first, rfl⟩ := Option.map_eq_some_iff.mp found
      have holds : held? members f = some entry := by rw [held?, first]; rfl
      rw [holds]
      dsimp only
      rw [decoded, Except.ok.injEq, eq_comm]
    · rw [none, initial]
  exact (Decoded.all_map_ok_iff _ (fun _ => True) _ _ each _).mpr ⟨fun _ _ => trivial, rfl⟩

/-- An object is encoded with the value of each field under its name in documents, those that are
null left out. -/
theorem encode_objectWith (lib : Library) (place : Nat)
    (apart : ((lib.fieldsOf place).map (·.name)).Nodup) (value : FieldSpec → Value)
    (shape : Shape) : lib.encode shape (lib.objectWith place value) =
      .obj (((lib.fieldsOf place).filter fun f => !(value f).isNull).map fun f =>
        (f.wire, lib.encode f.shape (value f))) := by
  have members : ∀ fields : List FieldSpec, (∀ f ∈ fields, lib.field? place f.name = some f) →
      (fields.map fun f => (f.name, value f)).filterMap (lib.memberFor? place) =
        (fields.filter fun f => !(value f).isNull).map fun f =>
          (f.wire, lib.encode f.shape (value f)) := by
    intro fields known
    induction fields with
    | nil => rfl
    | cons f rest ih =>
      rw [List.forall_mem_cons] at known
      rw [List.map_cons, List.filterMap_cons, memberFor?, known.1, List.filter_cons, ih known.2]
      cases null : (value f).isNull <;> simp
  rw [objectWith, encode, encodeAttributes_eq,
    members _ fun f isField => field?_of_apart lib place apart f isField]

end Library

/-! ## The classes of a module -/

/-- Only the names of a place and of those before it count. -/
theorem ClassOf.HasNames.congr {σ : Type} {names other : Nat → List String} {place : Nat}
    {c : ClassOf σ} (has : c.HasNames names place) (same : ∀ q ≤ place, names q = other q) :
    c.HasNames other place where
  itself := has.itself
  bounded := has.bounded
  apart := has.apart
  escaped f isField := (has.escaped f isField).imp_right fun ⟨named, q, within, isName⟩ =>
    ⟨named, q, within, same q (has.bounded q within) ▸ isName⟩
  present q within name isName :=
    has.present q within name (same q (has.bounded q within) ▸ isName)
  declared name isName := has.declared name (same place (Nat.le_refl _) ▸ isName)
  own f isField isDeclared := same place (Nat.le_refl _) ▸ has.own f isField isDeclared

/-- The schema names that belong to a place: those of the definition whose class has it. -/
def namesAt (definitions : List Definition) (place : Nat) : List String :=
  if place < Foundation.classes.length then foundationNames place
  else (((Source.classDefinitions definitions)[place - Foundation.classes.length]?).map
    Definition.fieldNames).getD []

theorem namesAt_class (definitions : List Definition) (i : Nat) (d : Definition)
    (listed : (Source.classDefinitions definitions)[i]? = some d) :
    namesAt definitions (Foundation.classes.length + i) = d.fieldNames := by
  rw [namesAt, if_neg (by omega), Nat.add_sub_cancel_left, listed]
  rfl

/-- **The classes of a loaded module have the names of their definitions.** -/
theorem library_hasNames {world : World} {imports : ImportTable} {definitions : List Definition}
    {source : Source.Module} (laysOut : Source.LaysOut imports definitions source)
    {lib : Library} (loaded : load source world = .ok lib) (place : Nat) (c : Class)
    (found : lib.class? place = some c) : c.HasNames (namesAt definitions) place := by
  obtain ⟨trace⟩ := load_trace source lib loaded
  obtain ⟨k, isClass, finishes⟩ := trace.class_finished place c found
  refine finishClass_hasNames _ k c _ place finishes ?_
  -- The induction is over the statements: a class has the names of those that are loaded before it.
  refine classes_induct trace.classes (fun place k => k.HasNames (namesAt definitions) place) ?_ ?_
    place k isClass
  · intro q k found
    rw [trace.withEnums_classes] at found
    refine (foundation_hasNames q k found).congr fun p low => ?_
    have within := (List.getElem?_eq_some_iff.mp found).choose
    rw [List.length_map] at within
    rw [namesAt, if_pos (by omega)]
  · intro step _ earlier
    obtain ⟨d, listed, isClass⟩ := laysOut.definition_of step.index step.source step.present
    refine step.hasNames _ ?_ isClass.escaped earlier
    rw [step.length, trace.length_withEnums, namesAt_class definitions step.index d listed,
      isClass.fieldNames]

end GraphQLModels.Model

namespace GraphQLModels

/-- Escaped names are apart from the mark and from each other exactly if they do not clash. -/
theorem attributes_nodup_iff (names : List String) (distinct : names.Nodup) :
    (typenameField :: names.map IdentifierUse.field.escape).Nodup ↔ Model.NoClash (· ∈ names) := by
  have unmarked : typenameField ∉ names.map IdentifierUse.field.escape := by
    intro marked
    obtain ⟨name, -, same⟩ := List.mem_map.mp marked
    refine IdentifierUse.field.escape_not_reserved name ?_
    rw [same]
    simp [IdentifierUse.reserved, classAttributes]
  rw [List.nodup_cons, IdentifierUse.map_escape_nodup_iff .field names distinct]
  constructor
  · exact fun apart one other isOne isOther => apart.2 one isOne other isOther
  · exact fun free => ⟨unmarked, fun one isOne other isOther => free one other isOne isOther⟩

/-- **Which fields a class keeps.** The attributes of a definition with different fields are
different if and only if no name is what another is escaped to; then, and only then, its class has a
field for each of them, and the same holds of all names that belong to the class and the classes
above it. Whatever fields a class has, it takes the value of each from a document and writes it back
under the name of the field. -/
theorem class_fields_kept_iff {world : Model.World} (m : Module) (setup : Setup)
    (source : Source.Module) (lib : Model.Library) (laidOut : m.source setup = .ok source)
    (loaded : Model.load source world = .ok lib) (i : Nat) (d : Definition)
    (listed : (Source.classDefinitions (Hook.runFilters setup.hooks m.definitions))[i]? = some d) :
    ∃ c, lib.class? (Model.Foundation.classes.length + i) = some c ∧ c.name = nameText d.name ∧
      (d.fieldNames.Nodup → ((typenameField ::
        d.fieldNames.map IdentifierUse.field.escape).Nodup ↔ Model.NoClash (· ∈ d.fieldNames))) ∧
      ((∀ name ∈ d.fieldNames, c.Keeps name) ↔ Model.NoClash (· ∈ d.fieldNames)) ∧
      ((∀ name, (∃ q ∈ c.order, name ∈ Model.namesAt
          (Hook.runFilters setup.hooks m.definitions) q) → c.Keeps name) ↔
        Model.NoClash fun name => ∃ q ∈ c.order, name ∈ Model.namesAt
          (Hook.runFilters setup.hooks m.definitions) q) ∧
      ∀ form members (value : Model.FieldSpec → Model.Value),
        (∀ f ∈ c.fields, (∃ j, findKey? f.wire members = some j ∧
            lib.decode form j f.shape = .ok (value f)) ∨
          Model.Library.held? members f = none ∧ value f = f.initial) →
        lib.decode form (.obj members) (.model (Model.Foundation.classes.length + i)) =
            .ok (lib.objectWith (Model.Foundation.classes.length + i) value) ∧
          ∀ shape, lib.encode shape (lib.objectWith (Model.Foundation.classes.length + i) value) =
            .obj ((c.fields.filter fun f => !(value f).isNull).map fun f =>
              (f.wire, lib.encode f.shape (value f))) := by
  have laysOut := source_laysOut m setup source laidOut
  obtain ⟨trace⟩ := Model.load_trace source lib loaded
  obtain ⟨cs, present, isClass⟩ := laysOut.class_of i d listed
  obtain ⟨step, -, rfl, c, found, finishes⟩ := trace.exists_class i cs present
  have has := Model.library_hasNames laysOut loaded _ c found
  have own := Model.namesAt_class _ i d listed
  have fields := lib.fieldsOf_eq _ c found
  have name : c.name = nameText d.name := by
    obtain ⟨fields, rfl, -⟩ := Model.finishClass_ok _ _ c finishes
    exact (step.source.statement_name step.places).trans isClass.spec.1
  refine ⟨c, found, name, attributes_nodup_iff d.fieldNames, ?_, ?_, ?_⟩
  · rw [← own]
    exact Model.keeps_own_iff has
  · exact Model.keeps_above_iff has
  · intro form members value given
    rw [← fields] at given ⊢
    exact ⟨lib.decode_objectWith form _ members value given,
      lib.encode_objectWith _ (fields ▸ has.apart) value⟩

/-! ## A field and the name to which it is escaped -/

/-- An object type with texts under given names. -/
def pairType (names : List String) : SchemaType where
  kind := .object
  name := "Pair"
  fields := names.map fun name =>
    { name := some name, type := { kind := .scalar, name := some "String" } }

def pairOptions : Options := { moduleName := "pairs" }

def pairModule (names : List String) : Module where
  moduleName := "pairs"
  definitions := [.object {
    name := some "Pair", schemaName := some "Pair"
    fields := names.map fun name =>
      { name := some name, type := .named (some "str") .scalar } }]

def pairSource (attributes : List Source.Attribute) : Source.Module where
  title := "pairs"
  imports := []
  enums := []
  contracts := []
  objects := [{
    name := some "Pair", schemaName := some "Pair", bases := [.model], description := none
    classVariables := [], attributes }]
  aliases := []

def pairLibrary (fields : List Model.FieldSpec) : Model.Library where
  classes := Model.Foundation.classes ++ [{
    name := "Pair", home := "generated_models", order := [7, 0]
    fields := Model.typenameSpec "Pair" :: fields
    declared := "typename__" :: fields.map (·.name) }]
  enums := []
  scope := setKey "Pair" (.cls 7) (setKeys Model.initialScope Model.importedScope)
  exported := ["Pair"]

/-- The attribute that holds a text. -/
def textAttribute (name : String) (rename : Option String) : Source.Attribute where
  name
  type := .optional (.name "str")
  rename

/-- The field that holds a text. -/
def textField (name wire : String) : Model.FieldSpec where
  name
  wire
  shape := .optional (.scalar .text)

/-- A class that keeps its fields, one of them under an escaped name. -/
theorem class_fields_kept_iff_pair : ∃ c,
    (pairLibrary [textField "from_" "from", textField "to" "to"]).class? 7 = some c ∧
      ∀ name ∈ ["from", "to"], c.Keeps name := by
  obtain ⟨c, found, -, -, kept, -⟩ := class_fields_kept_iff (pairModule ["from", "to"]) {}
    (pairSource [textAttribute "from_" (some "from"), textAttribute "to" none])
    (pairLibrary [textField "from_" "from", textField "to" "to"])
    (source_of_sorted _ _ _ rfl rfl) rfl 0 _ rfl
  have free : ∀ one ∈ ["from", "to"], ∀ other ∈ ["from", "to"],
      ¬IdentifierUse.field.Clashes one other := by
    decide
  exact ⟨c, found, kept.mpr fun one other isOne isOther => free one isOne other isOther⟩

/-- Different fields may be escaped to one attribute, and then one of them is lost. -/
theorem class_field_may_be_lost :
    ¬∀ (options : Options) (schema : Schema) (m : Module) (setup : Setup) (source : Source.Module)
      (lib : Model.Library), (emit options schema).outcome = .ok m → m.source setup = .ok source →
      Model.load source = .ok lib → ∀ t ∈ schema.types, t.kind = .object →
      (t.fields.map (·.name)).Nodup → ∀ place, lib.binding? (nameText t.name) = some (.cls place) →
      ∀ f ∈ t.fields, ∃ g ∈ lib.fieldsOf place, some g.wire = f.name := by
  intro keeps
  -- The field of the first name is replaced by that of the second.
  obtain ⟨g, isField, same⟩ := keeps pairOptions { types := [pairType ["from", "from_"]] }
    (pairModule ["from", "from_"]) {}
    (pairSource [textAttribute "from_" (some "from"), textAttribute "from_" none])
    (pairLibrary [textField "from_" "from_"]) rfl (source_of_sorted _ _ _ rfl rfl) rfl _
    (List.mem_singleton.mpr rfl) rfl (by decide) 7 rfl _ List.mem_cons_self
  have wires : ∀ g ∈ (pairLibrary [textField "from_" "from_"]).fieldsOf 7,
      some g.wire ≠ some "from" := by
    decide
  exact wires g isField same

end GraphQLModels
