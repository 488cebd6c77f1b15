import GraphQLModels.Proofs.KeptFields
import GraphQLModels.Proofs.Scope

/-!
# What a contract stands for

Wherever a contract is the type of something, the values are those of its possible types: of the
only one, or of one of several that is told by its mark. The contract itself, its alias and the
fields that have it as their type come to this in different ways.
-/

namespace GraphQLModels.Model

/-! ## Marked classes -/

/-- Whether the class at a place is the model that a name is bound to, and its objects are marked
with the name of a schema type. -/
structure Library.IsMarked (lib : Library) (place : Nat) (name mark : String) : Prop where
  bound : lib.binding? name = some (.cls place)
  model : lib.isModel place = true
  field : lib.field? place typenameField = some (typenameSpec mark)

theorem Library.IsMarked.tag {lib : Library} {place : Nat} {name mark : String}
    (marked : lib.IsMarked place name mark) :
    (lib.class? place).bind ClassOf.tag? = some mark := by
  obtain ⟨c, found, field⟩ := Option.bind_eq_some_iff.mp marked.field
  rw [found, Option.bind_some, ClassOf.tag?]
  change (c.field? typenameField).bind _ = _
  rw [field]
  rfl

theorem Library.IsMarked.resolve {lib : Library} {place : Nat} {name mark : String}
    (marked : lib.IsMarked place name mark) (contract : Nat) :
    lib.resolve contract name = .ok (.cls place) := by
  rw [Library.resolve, Library.found?, marked.bound]
  rfl

/-- The mark of a class statement is a field of its class. -/
theorem ClassStep.mark {sources : List ClassSource} {s : Loading} (step : ClassStep sources s)
    (text : String) (tagged : step.source.tag? = some text)
    (unmarked : ∀ a ∈ step.source.attributes, a.name ≠ typenameField) :
    (typenameSpec text).draft ∈ step.made.fields := by
  have declares := Statement.declares _ _ _ step.makes.fields
  refine Statement.mem_allFields_own _ _ _ _ declares.apart _ ?_
  have tag := (step.source.statement_tag step.places).trans tagged
  obtain ⟨f, isField, named⟩ := List.mem_map.mp (declares.tag (by rw [tag]; rfl))
  -- No attribute stands in the place of the mark.
  rcases declares.source f isField with ⟨other, same, rfl⟩ | ⟨a, isAttribute, gives⟩
  · rw [tag] at same
    cases same
    exact isField
  · rw [step.source.statement_attributes] at isAttribute
    have same := (Statement.field_ok _ _ a f gives).1
    exact absurd (same.symm.trans named) (unmarked a isAttribute)

section

variable {imports : ImportTable} {definitions : List Definition} {source : Source.Module}
  {lib : Library} (laysOut : Source.LaysOut imports definitions source) (trace : Trace source lib)
  (apart : NamesApart source)

include laysOut trace apart

/-- The class of a definition, and how it was made. -/
theorem exists_class_of (i : Nat) (e : Definition)
    (listed : (Source.classDefinitions definitions)[i]? = some e) :
    ∃ step : ClassStep (classSources source) trace.withEnums, step.index = i ∧
      Source.IsClassOf { imports, definitions } (Contract.ancestors (Contract.ordered
        (definitions.filterMap Definition.contract?))) e step.source ∧
      lib.binding? (nameText e.name) = some (.cls (Foundation.classes.length + i)) ∧
      ∃ k, lib.class? (Foundation.classes.length + i) = some k ∧
        finishClass trace.withAliases step.made = .ok k := by
  obtain ⟨step, rfl, isClass, made⟩ := laysOut.exists_step trace i e listed
  have bound := trace.binding?_class apart step.index step.source step.present
  rw [isClass.spec.1] at bound
  exact ⟨step, rfl, isClass, bound, made⟩

/-- The class of an object is marked with the schema name of the object. -/
theorem isMarked_of_object {world : World} (loaded : load source world = .ok lib) (i : Nat)
    (o : ObjectDef)
    (listed : (Source.classDefinitions definitions)[i]? = some (.object o)) :
    lib.IsMarked (Foundation.classes.length + i) (nameText o.name) (nameText o.schemaName) := by
  obtain ⟨step, -, isClass, bound, k, found, finishes⟩ :=
    exists_class_of laysOut trace apart i _ listed
  have unmarked : ∀ a ∈ step.source.attributes, a.name ≠ typenameField := by
    intro a isAttribute same
    refine IdentifierUse.field.escape_not_reserved a.fieldName ?_
    rw [← isClass.escaped a isAttribute, same]
    simp [IdentifierUse.reserved, classAttributes]
  obtain ⟨shape, drafted, isField⟩ :=
    (finishClass_fields _ _ k finishes).1 _ (step.mark _ isClass.ofObject.1 unmarked)
  cases drafted
  have fields := lib.fieldsOf_eq _ k found
  have has := library_hasNames laysOut loaded _ k found
  refine ⟨bound, ?_, lib.field?_of_apart _ (fields ▸ has.apart) _ (fields ▸ isField)⟩
  obtain ⟨fields, rfl, -⟩ := finishClass_ok _ _ k finishes
  rw [Library.isModel, found]
  rfl

/-- The class of a contract is a model that names its possible types. -/
theorem implementers_of_contract (i : Nat) (d : ContractDef)
    (listed : (Source.classDefinitions definitions)[i]? = some (.contract d)) :
    lib.isModel (Foundation.classes.length + i) = true ∧
      (lib.class? (Foundation.classes.length + i)).bind (·.implementers) =
        some (d.possibleTypes.map (·.2)) := by
  obtain ⟨step, -, isClass, -, k, found, finishes⟩ :=
    exists_class_of laysOut trace apart i _ listed
  obtain ⟨fields, rfl, -⟩ := finishClass_ok _ _ k finishes
  rw [Library.isModel, found]
  exact ⟨rfl, isClass.implementers step.places⟩

end

/-- The class of an object is a model without implementers of its own. -/
theorem implementers_of_object {imports : ImportTable} {definitions : List Definition}
    {source : Source.Module} {lib : Library} (laysOut : Source.LaysOut imports definitions source)
    (trace : Trace source lib) (i : Nat) (o : ObjectDef)
    (listed : (Source.classDefinitions definitions)[i]? = some (.object o)) :
    lib.isModel (Foundation.classes.length + i) = true ∧
      (lib.class? (Foundation.classes.length + i)).bind (·.implementers) = none := by
  obtain ⟨step, -, isClass, k, found, finishes⟩ := laysOut.exists_step trace i _ listed
  have none : step.made.implementers = none := by
    cases hs : step.source with
    | contract c =>
      rw [hs] at isClass
      cases isClass
    | object c => simp [ClassStep.made, Statement.made, ClassSource.statement, hs]
  obtain ⟨fields, rfl, -⟩ := finishClass_ok _ _ k finishes
  rw [Library.isModel, found]
  exact ⟨rfl, none⟩

/-! ## Documents and aliases -/

/-- The shape of the objects of some classes: of the only one, or of one of several. -/
def shapeOfPlaces : List Nat → Shape
  | [only] => .model only
  | places => .choice places

/-- What the alias for some classes is bound to. -/
def bindingOfPlaces : List Nat → Binding
  | [only] => .cls only
  | places => .choice places

/-- Whether places are those of the marked classes of possible types. -/
def Library.ArePossible (lib : Library) (possible : List (String × String)) (places : List Nat) :
    Prop :=
  List.Forall₂ (fun entry place => lib.IsMarked place entry.2 entry.1) possible places

namespace Library.ArePossible

variable {lib : Library} {possible : List (String × String)} {places : List Nat}
  (are : lib.ArePossible possible places)

include are

theorem areTagged : areTagged lib.classes places = true := by
  refine List.all_eq_true.mpr fun place member => ?_
  obtain ⟨entry, -, marked⟩ := Outcome.forall₂_right are place member
  have tag := marked.tag
  rw [Library.class?] at tag
  rw [tag]
  rfl

theorem documentShape (contract : Nat)
    (names : (lib.class? contract).bind (·.implementers) = some (possible.map (·.2)))
    (some : possible ≠ []) : lib.documentShape contract = .ok (shapeOfPlaces places) := by
  have resolved : (possible.map (·.2)).mapM (lib.resolve contract) = .ok (places.map .cls) := by
    rw [Outcome.mapM_ok_iff, List.forall₂_map_left_iff, List.forall₂_map_right_iff]
    exact are.imp fun _ _ marked => marked.resolve contract
  have classes : (places.map Binding.cls).mapM placeOf = .ok places := by
    rw [Outcome.mapM_ok_iff, List.forall₂_map_left_iff, List.forall₂_same]
    exact fun _ _ => rfl
  have tagged := are.areTagged
  rw [Library.documentShape, names, Option.getD_some]
  -- A single possible type is read without a choice.
  cases are with
  | nil => exact absurd rfl some
  | @cons entry place rest others marked related =>
    cases related with
    | nil =>
      change (lib.resolve contract entry.2 >>= lib.boundShape) = _
      rw [marked.resolve, Outcome.ok_bind, boundShape, if_pos marked.model, shapeOfPlaces]
    | @cons next second later places =>
      change (((entry :: next :: later).map (·.2)).mapM (lib.resolve contract) >>= fun bindings =>
        bindings.mapM placeOf >>= lib.choiceShape) = _
      rw [resolved, Outcome.ok_bind, classes, Outcome.ok_bind, choiceShape, if_pos tagged]
      rfl

/-- The alias of a contract is bound to its possible types. -/
theorem loadAlias (s s' : Loading) (d : ContractDef) (same : d.possibleTypes = possible)
    (some : possible ≠ [])
    (bound : ∀ entry ∈ possible, findKey? entry.2 s.scope = lib.binding? entry.2)
    (given : loadAlias s (Source.contractAlias d) = .ok s') :
    s' = s.bind (d.name ++ Source.aliasSuffix) (bindingOfPlaces places) := by
  have binding : List.Forall₂ (fun entry place => s.binding? entry.2 = Option.some (.cls place))
      possible places := by
    refine List.Forall₂.imp ?_ ((List.forall₂_and_left _ _).mpr ⟨bound, are⟩)
    rintro entry place ⟨same, marked⟩
    rw [Loading.binding?, same, marked.bound]
    rfl
  have found : (possible.map (·.2)).mapM (aliasPlace s) = .ok (places.map Option.some) := by
    rw [Outcome.mapM_ok_iff, List.forall₂_map_left_iff, List.forall₂_map_right_iff]
    refine binding.imp fun entry place same => ?_
    rw [aliasPlace, same]
  have all : ∀ places : List Nat, (places.map Option.some).mapM id = Option.some places := by
    intro places
    induction places with
    | nil => rfl
    | cons place rest ih => simp only [List.map_cons, List.mapM_cons, ih, id]; rfl
  rw [Source.contractAlias, same] at given
  -- The alias of a single possible type is its class itself.
  cases binding with
  | nil => exact absurd rfl some
  | @cons entry place rest others first related =>
    cases related with
    | nil =>
      simp only [Model.loadAlias, List.map_cons, List.map_nil, first] at given
      cases given
      rfl
    | @cons next second later places =>
      change ((List.mapM (aliasPlace s) ((entry :: next :: later).map (·.2))) >>= fun places =>
        .ok (s.bind (d.name ++ Source.aliasSuffix)
          (((places.mapM id).map Binding.choice).getD .mixture))) = _ at given
      rw [found, Outcome.ok_bind, all] at given
      cases given
      rfl

end Library.ArePossible

/-- Whether the possible types of a contract are objects that become classes, each under its schema
name. -/
def HasObjects (definitions : List Definition) (d : ContractDef) : Prop :=
  d.possibleTypes ≠ [] ∧ ∀ entry ∈ d.possibleTypes, ∃ o : ObjectDef, .object o ∈ definitions ∧
    o.schemaName = some entry.1 ∧ o.name = some entry.2

/-- **What a contract stands for.** Its documents have the shape of its possible types, and its
alias is bound to them. -/
theorem contract_standsFor {world : World} {imports : ImportTable} {definitions : List Definition}
    {source : Source.Module} {lib : Library}
    (laysOut : Source.LaysOut imports definitions source) (loaded : load source world = .ok lib)
    (apart : NamesApart source) (i : Nat) (d : ContractDef)
    (listed : (Source.classDefinitions definitions)[i]? = some (.contract d))
    (objects : HasObjects definitions d) :
    ∃ places, lib.ArePossible d.possibleTypes places ∧
      lib.documentShape (Foundation.classes.length + i) = .ok (shapeOfPlaces places) ∧
      lib.binding? (d.name ++ Source.aliasSuffix) = some (bindingOfPlaces places) := by
  obtain ⟨trace⟩ := load_trace source lib loaded
  -- Each possible type is an object with a class of its own.
  have classOf : ∀ entry ∈ d.possibleTypes, ∃ (j : Nat) (o : ObjectDef),
      (Source.classDefinitions definitions)[j]? = some (.object o) ∧
        o.schemaName = some entry.1 ∧ o.name = some entry.2 := by
    intro entry member
    obtain ⟨o, isObject, schemaName, name⟩ := objects.2 entry member
    obtain ⟨j, present⟩ := List.mem_iff_getElem?.mp
      (Source.mem_classDefinitions_object definitions o isObject)
    exact ⟨j, o, present, schemaName, name⟩
  have each : ∀ entry ∈ d.possibleTypes, ∃ place, lib.IsMarked place entry.2 entry.1 := by
    intro entry member
    obtain ⟨j, o, present, schemaName, name⟩ := classOf entry member
    have marked := isMarked_of_object laysOut trace apart loaded j o present
    rw [name, schemaName] at marked
    exact ⟨_, marked⟩
  obtain ⟨places, are⟩ : ∃ places, lib.ArePossible d.possibleTypes places :=
    Outcome.forall₂_exists _ each
  have names := (implementers_of_contract laysOut trace apart i d listed).2
  refine ⟨places, are, are.documentShape _ names objects.1, ?_⟩
  have isAlias := laysOut.mem_aliases i d listed
  -- When the alias is bound, all classes are there under their names.
  obtain ⟨s, s', given, bound, classes⟩ := trace.binding?_alias apart _ isAlias
  have same := are.loadAlias s s' d rfl objects.1 (fun entry member => by
    obtain ⟨j, o, present, -, name⟩ := classOf entry member
    obtain ⟨c, isSource, isClass⟩ := laysOut.class_of j _ present
    have named : c.name = entry.2 := isClass.spec.1.trans (congrArg nameText name)
    exact named ▸ classes c (List.mem_of_getElem? isSource)) given
  rw [same, Loading.bind, findKey?_setKey] at bound
  exact bound.trans (if_pos (beq_self_eq_true _))

end GraphQLModels.Model
