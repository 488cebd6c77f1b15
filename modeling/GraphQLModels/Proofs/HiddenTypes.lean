import GraphQLModels.Proofs.ClassAttributes
import GraphQLModels.Proofs.Decoding
import GraphQLModels.Proofs.KeptFields
import GraphQLModels.Proofs.NullableFields
import GraphQLModels.Proofs.TextRuns

/-!
# Types that fields hide

The names in an annotation are looked up among the attributes of the class first. An attribute that
is called like a type in the class therefore hides the type: what stands behind the attribute is null,
and so is all that a field of the type can hold.

Escaping keeps attributes apart from keywords, from what all classes have and from names with an
underscore in front, under which the generated module knows its own types. It does not keep them
apart from the types that the fields of a schema refer to.
-/

namespace GraphQLModels

open Text (identifiersIn)

/-- An annotation has the identifiers of the name at its bottom and those that make it nullable or a
list. -/
theorem mem_identifiersIn_annotation (name : String) (type : FieldType) (identifier : String) :
    identifier ∈ identifiersIn (Source.nullableType name type).text ↔
      identifier = "_Optional" ∨ 0 < type.listDepth ∧ identifier = "_List" ∨
        identifier ∈ identifiersIn name := by
  have optional : ∀ inner, identifiersIn ("_Optional[" ++ inner ++ "]") =
      "_Optional" :: identifiersIn inner := fun inner =>
    (Text.identifiersIn_bracketed "_Optional" inner).trans
      (congrArg (· ++ identifiersIn inner)
        (show identifiersIn "_Optional" = ["_Optional"] by decide))
  have list : ∀ inner, identifiersIn ("_List[" ++ inner ++ "]") = "_List" :: identifiersIn inner :=
    fun inner => (Text.identifiersIn_bracketed "_List" inner).trans
      (congrArg (· ++ identifiersIn inner)
        (show identifiersIn "_List" = ["_List"] by decide))
  induction type with
  | leaf target kind nullable =>
    rw [Source.nullableType, Source.TypeExpr.text, optional, List.mem_cons]
    simp [Source.TypeExpr.text, FieldType.listDepth]
  | level inner nullable ih =>
    rw [Source.nullableType, Source.TypeExpr.text, Source.TypeExpr.text, optional, list]
    simp only [List.mem_cons, ih, FieldType.listDepth, Nat.zero_lt_succ, true_and]
    -- The lists inside add nothing to the identifiers of the list around them.
    constructor
    · rintro (here | here | here | ⟨-, here⟩ | below)
      · exact .inl here
      · exact .inr (.inl here)
      · exact .inl here
      · exact .inr (.inl here)
      · exact .inr (.inr below)
    · rintro (here | here | below)
      · exact .inl here
      · exact .inr (.inl here)
      · exact .inr (.inr (.inr (.inr below)))

/-- Whether a field of a definition has a type with an identifier that is an attribute of the
class. -/
def Definition.HidesType (ctx : Source.Context) (d : Definition) : Prop :=
  ∃ g ∈ d.fields, ∃ reference, Source.referenceName ctx g.type = .ok reference ∧
    ∃ identifier ∈ identifiersIn reference, d.HasAttribute identifier

namespace Source

variable {ctx : Context} {ancestors : Contract.Ancestors} {d : Definition} {c : Model.ClassSource}

/-- An attribute of a class is called like an identifier in an annotation of the class exactly if a
field of the definition has such a type. -/
theorem IsClassOf.hidesType_iff (isClass : IsClassOf ctx ancestors d c) :
    (∃ name ∈ c.attributeNames, ∃ a ∈ c.attributes, name ∈ identifiersIn a.type.text) ↔
      d.HidesType ctx := by
  obtain ⟨-, laidOut⟩ := isClass.spec
  constructor
  · rintro ⟨name, listed, a, isAttribute, occurs⟩
    obtain ⟨g, isField, gives⟩ := Outcome.mapM_from _ _ _ laidOut a isAttribute
    obtain ⟨-, -, reference, refers, typed⟩ := attributeOf_ok ctx g a gives
    rw [typed, mem_identifiersIn_annotation] at occurs
    have unmarked := isClass.attributeNames_unmarked name listed
    rcases occurs with rfl | ⟨-, rfl⟩ | occurs
    · exact absurd unmarked (by decide)
    · exact absurd unmarked (by decide)
    · exact ⟨g, isField, reference, refers, name, occurs, (isClass.mem_attributeNames name).mp listed⟩
  · rintro ⟨g, isField, reference, refers, name, occurs, has⟩
    obtain ⟨a, isAttribute, gives⟩ := Outcome.mapM_mem _ _ _ laidOut g isField
    obtain ⟨-, -, reference', refers', typed⟩ := attributeOf_ok ctx g a gives
    cases refers.symm.trans refers'
    refine ⟨name, (isClass.mem_attributeNames name).mpr has, a, isAttribute, ?_⟩
    rw [typed, mem_identifiersIn_annotation]
    exact .inr (.inr occurs)

end Source

/-! ## What a hidden type holds -/

/-- Whether a document has nothing but null and lists of it. -/
inductive Json.IsVoid : Json → Prop
  | null : IsVoid .null
  | arr {items : List Json} (each : ∀ item ∈ items, item.IsVoid) : IsVoid (.arr items)

namespace Model

/-- Over null, a type that is nullable at every level accepts nothing but null. -/
theorem Library.isVoid_of_decode (lib : Library) (form : Form) (type : FieldType) (j : Json)
    (v : Value) (read : lib.decode form j (nullableShape .null type) = .ok v) : j.IsVoid := by
  induction type generalizing j v with
  | leaf target kind nullable =>
    by_cases something : j = .null
    · exact something ▸ .null
    · rw [nullableShape, decode_optional lib form _ j something] at read
      exact absurd ((decode_null_ok_iff lib form j v).mp read).1 something
  | level inner nullable ih =>
    by_cases something : j = .null
    · exact something ▸ .null
    rw [nullableShape, decode_optional lib form _ j something] at read
    obtain ⟨items, values, rfl, all, -⟩ := (decode_list_ok_iff lib form _ j v).mp read
    obtain ⟨pairs, rfl, -, each⟩ := Decoded.all_map_ok _ _ _ all
    refine .arr fun item isItem => ?_
    obtain ⟨p, isPair, rfl⟩ := List.mem_map.mp isItem
    exact ih p.1 p.2 (each p isPair)

/-- In the body of a class, a name that is an attribute means the class itself, null, or no type. -/
theorem ClassSource.meaning?_attribute (c : ClassSource) (places : List Nat) (s : Loading)
    (name : String) (hidden : name ∈ c.attributeNames) (other : name ≠ c.name) :
    (c.statement places).meaning? s name = some .null ∨
      (c.statement places).meaning? s name = some .noType := by
  unfold Statement.meaning?
  rw [c.statement_name, if_neg (by simpa using other)]
  split
  · exact .inl rfl
  split
  · exact .inr rfl
  rename_i plain
  rcases List.mem_append.mp hidden with mark | held
  · obtain ⟨tag, isTag, rfl⟩ := Option.map_eq_some_iff.mp (Option.mem_toList.mp mark)
    exact absurd (by simp [c.statement_tag, isTag]) plain
  · obtain ⟨a, isAttribute, rfl⟩ := List.mem_map.mp held
    rw [c.statement_attributes]
    -- The last attribute of the name is the one that stands in the body, whatever its value.
    cases found : c.attributes.reverse.find? fun b => b.name == a.name with
    | none =>
      exact absurd (List.find?_eq_none.mp found a (List.mem_reverse.mpr isAttribute)) (by simp)
    | some b =>
      dsimp only
      split
      · exact .inl rfl
      · exact .inr rfl

/-- A field whose type is hidden has null at its bottom. -/
theorem ClassSource.field_hidden (c : ClassSource) (places : List Nat) (s : Loading)
    (a : Source.Attribute) (f : FieldOf Draft) (given : (c.statement places).field s a = .ok f)
    (name : String) (type : FieldType) (typed : a.type = Source.nullableType name type)
    (hidden : name ∈ c.attributeNames) (other : name ≠ c.name) :
    f.shape = .known (nullableShape .null type) := by
  obtain ⟨-, -, -, ⟨unknown, -⟩ | ⟨shape, understood, known⟩⟩ := Statement.field_ok _ s a f given
  · rw [typeShape?, typed, terminal_nullableType] at unknown
    rcases c.meaning?_attribute places s name hidden other with means | means <;>
      rw [means] at unknown <;> cases unknown
  · rw [typeShape?, typed, terminal_nullableType] at understood
    rcases c.meaning?_attribute places s name hidden other with means | means <;>
      rw [means] at understood <;> cases understood
    exact known.trans (congrArg Draft.known (shapeOver_nullableType .null name type))

end Model

/-- **Fields that hide types.** In a class of a laid-out module some attribute is called like an
identifier in an annotation of the class exactly if a field of the definition refers to a type by
such an identifier. Once the module is loaded, a field whose type is called like an attribute, and not
like the class, accepts nothing but null. -/
theorem class_hides_type_iff (m : Module) (setup : Setup) (source : Source.Module)
    (laidOut : m.source setup = .ok source) (i : Nat) (d : Definition)
    (listed : (Source.classDefinitions (Hook.runFilters setup.hooks m.definitions))[i]? = some d) :
    let ctx : Source.Context :=
      { imports := setup.imports, definitions := Hook.runFilters setup.hooks m.definitions }
    (∃ c, (Model.classSources source)[i]? = some c ∧ c.name = nameText d.name ∧
      ((∃ name ∈ c.attributeNames, ∃ a ∈ c.attributes, name ∈ identifiersIn a.type.text) ↔
        d.HidesType ctx)) ∧
    ∀ world lib, Model.load source world = .ok lib →
      ∃ k, lib.class? (Model.Foundation.classes.length + i) = some k ∧
        ∀ f ∈ k.fields, f.name ∈ k.declared → (∃ text, f = Model.typenameSpec text) ∨
          ∃ g ∈ d.fields, g.name = some f.wire ∧ ∀ reference,
            Source.referenceName ctx g.type = .ok reference → d.HasAttribute reference →
            reference ≠ nameText d.name → f.shape = Model.nullableShape .null g.type ∧
              ∀ form j v, lib.decode form j f.shape = .ok v → j.IsVoid := by
  intro ctx
  have laysOut := source_laysOut m setup source laidOut
  constructor
  · obtain ⟨c, present, isClass⟩ := laysOut.class_of i d listed
    exact ⟨c, present, isClass.spec.1, isClass.hidesType_iff⟩
  · intro world lib loaded
    obtain ⟨trace⟩ := Model.load_trace source lib loaded
    obtain ⟨step, -, isClass, k, found, finishes⟩ := laysOut.exists_step trace i d listed
    refine ⟨k, found, fun f member declared => ?_⟩
    rcases step.declared_made isClass _ k finishes f member declared with mark | ⟨g, isField, made⟩
    · exact .inl mark
    refine .inr ⟨g, isField, made.wire, fun reference refers has other => ?_⟩
    obtain ⟨a, draft, reference', refers', typed, gives, drafted⟩ := made.source
    cases refers.symm.trans refers'
    have hidden := (isClass.mem_attributeNames reference).mpr has
    rw [step.source.field_hidden _ _ a draft gives reference g.type typed hidden
      (isClass.spec.1 ▸ other)] at drafted
    have isVoid : f.shape = Model.nullableShape .null g.type := (Except.ok.inj drafted).symm
    rw [isVoid]
    exact ⟨rfl, fun form j v read => lib.isVoid_of_decode form g.type j v read⟩

/-! ## A text that is called like its type -/

/-- The field that can only be null, for all that its schema type is a text. -/
def hiddenField : Model.FieldSpec where
  name := "str"
  wire := "str"
  shape := .optional .null

theorem hiddenSource_laidOut :
    (pairModule ["str", "to"]).source {} =
      .ok (pairSource [textAttribute "str" none, textAttribute "to" none]) :=
  source_of_sorted _ _ _ rfl rfl

/-- A field called like the type of texts makes all texts of the class null. -/
theorem class_hides_type_iff_str :
    ∃ k, (pairLibrary [hiddenField, { hiddenField with name := "to", wire := "to" }]).class? 7 =
        some k ∧
      ∀ f ∈ k.fields, f.name ∈ k.declared → (∃ text, f = Model.typenameSpec text) ∨
        f.shape = .optional .null := by
  obtain ⟨-, held⟩ := class_hides_type_iff (pairModule ["str", "to"]) {} _ hiddenSource_laidOut 0 _
    rfl
  obtain ⟨k, found, fields⟩ := held _ _ (show Model.load (pairSource
    [textAttribute "str" none, textAttribute "to" none]) = .ok (pairLibrary
      [hiddenField, { hiddenField with name := "to", wire := "to" }]) from rfl)
  refine ⟨k, found, fun f member declared => (fields f member declared).imp_right ?_⟩
  rintro ⟨g, isField, -, only⟩
  have isText : g.type = .named (some "str") .scalar := by
    obtain ⟨name, -, rfl⟩ := List.mem_map.mp isField
    rfl
  rw [isText] at only
  exact (only "str" (by decide) (.free (by decide +kernel) (by decide)
    (by decide)) (by decide)).1

/-- Escaping does not keep the attributes of a class apart from the types of its fields. -/
theorem field_may_hide_type :
    ¬∀ (options : Options) (schema : Schema) (m : Module) (setup : Setup) (source : Source.Module),
      (emit options schema).outcome = .ok m → m.source setup = .ok source →
      ∀ c ∈ Model.classSources source, ∀ name ∈ c.attributeNames, ∀ a ∈ c.attributes,
        name ∉ identifiersIn a.type.text := by
  intro apart
  have free := apart pairOptions { types := [pairType ["str", "to"]] } (pairModule ["str", "to"]) {}
    _ rfl hiddenSource_laidOut _ (List.mem_singleton.mpr rfl) "str"
    (List.mem_cons_of_mem _ List.mem_cons_self) (textAttribute "str" none) List.mem_cons_self
  exact free (by decide)

end GraphQLModels
