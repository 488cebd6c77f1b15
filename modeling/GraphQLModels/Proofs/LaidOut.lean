import GraphQLModels.Generation
import GraphQLModels.Proofs.Hierarchy
import GraphQLModels.Proofs.LoadedClasses

/-!
# Laid-out modules

A laid-out module has one class statement for each contract and object, contracts first, and each of
its attributes holds one field under an escaped name.
-/

namespace GraphQLModels

/-- The fields of a definition. -/
def Definition.fields : Definition → List Field
  | .enum _ => []
  | .contract d => d.fields
  | .object d => d.fields

/-- The schema names of the fields of a definition. -/
def Definition.fieldNames (d : Definition) : List String := d.fields.filterMap (·.name)

namespace Source

/-- The schema name of the field that an attribute holds. -/
def Attribute.fieldName (a : Attribute) : String := a.rename.getD a.name

/-- The definitions that become classes, in the order of their statements. -/
def classDefinitions (definitions : List Definition) : List Definition :=
  (Contract.ordered (definitions.filterMap Definition.contract?)).map .contract ++
    (definitions.filterMap Definition.object?).map .object

theorem mem_classDefinitions_object (definitions : List Definition) (o : ObjectDef)
    (member : .object o ∈ definitions) : .object o ∈ classDefinitions definitions :=
  List.mem_append_right _ (List.mem_map.mpr ⟨o, List.mem_filterMap.mpr ⟨_, member, rfl⟩, rfl⟩)

theorem mem_of_classDefinitions (definitions : List Definition) (e : Definition)
    (listed : e ∈ classDefinitions definitions) : e ∈ definitions := by
  rcases List.mem_append.mp listed with contract | object
  · obtain ⟨c, isContract, rfl⟩ := List.mem_map.mp contract
    obtain ⟨e, member, same⟩ := List.mem_filterMap.mp (Contract.ordered_mem _ c isContract)
    cases e <;> cases same
    exact member
  · obtain ⟨o, isObject, rfl⟩ := List.mem_map.mp object
    obtain ⟨e, member, same⟩ := List.mem_filterMap.mp isObject
    cases e <;> cases same
    exact member

theorem contract_listed (definitions : List Definition) (i : Nat) (d : ContractDef)
    (listed : (classDefinitions definitions)[i]? = some (.contract d)) :
    i < (Contract.ordered (definitions.filterMap Definition.contract?)).length ∧
      d ∈ Contract.ordered (definitions.filterMap Definition.contract?) := by
  -- Contracts come first, and no object is among them.
  rw [classDefinitions, List.getElem?_append, List.length_map] at listed
  split at listed
  · rename_i within
    obtain ⟨other, member, same⟩ := List.mem_map.mp (List.mem_of_getElem? listed)
    cases same
    exact ⟨within, member⟩
  · obtain ⟨o, -, same⟩ := List.mem_map.mp (List.mem_of_getElem? listed)
    cases same

theorem object_listed (definitions : List Definition) (i : Nat) (o : ObjectDef)
    (listed : (classDefinitions definitions)[i]? = some (.object o)) :
    (Contract.ordered (definitions.filterMap Definition.contract?)).length ≤ i := by
  rw [classDefinitions, List.getElem?_append, List.length_map] at listed
  split at listed
  · obtain ⟨c, -, same⟩ := List.mem_map.mp (List.mem_of_getElem? listed)
    cases same
  · omega

/-- An object derives from contracts of its own, capabilities and the model. -/
theorem objectBases_cases (ancestors : Contract.Ancestors) (o : ObjectDef) (base : Base)
    (member : base ∈ objectBases ancestors o) :
    (∃ name ∈ o.contracts, base = .contract name) ∨ (∃ kind, base = .capability kind) ∨
      base = .model := by
  unfold objectBases at member
  rcases List.mem_append.mp member with first | last
  · rcases List.mem_append.mp first with contract | capability
    · obtain ⟨name, kept, rfl⟩ := List.mem_map.mp contract
      exact .inl ⟨name, (Contract.reduceBases_sublist ancestors o.contracts).subset kept, rfl⟩
    · obtain ⟨c, -, rfl⟩ := List.mem_map.mp capability
      exact .inr (.inl ⟨c.kind, rfl⟩)
  · split at last
    · exact .inr (.inr (List.mem_singleton.mp last))
    · cases last

theorem attributeOf_ok (ctx : Context) (f : Field) (a : Attribute)
    (given : attributeOf ctx f = .ok a) :
    f.name = some a.fieldName ∧ a.name = IdentifierUse.field.escape a.fieldName ∧
      ∃ reference, referenceName ctx f.type = .ok reference ∧
        a.type = nullableType reference f.type := by
  unfold attributeOf at given
  split at given
  swap
  · cases given
  rename_i name named
  obtain ⟨reference, refers, made⟩ := (Outcome.bind_ok_iff _ _ _).mp given
  cases made
  -- The schema name is kept either in the rename or in the attribute itself.
  have holds : (if (IdentifierUse.field.escape name == name) = true then none else some name).getD
      (IdentifierUse.field.escape name) = name := by
    split
    · rename_i same
      exact eq_of_beq same
    · rfl
  unfold Attribute.fieldName
  rw [holds]
  exact ⟨named, rfl, reference, refers, rfl⟩

theorem attributes_ok (ctx : Context) (fields : List Field) (attributes : List Attribute)
    (given : fields.mapM (attributeOf ctx) = .ok attributes) :
    attributes.map Attribute.fieldName = fields.filterMap (·.name) ∧
      ∀ a ∈ attributes, ∃ f ∈ fields, attributeOf ctx f = .ok a := by
  refine ⟨?_, fun a member => Outcome.mapM_from _ _ _ given a member⟩
  have related := (Outcome.mapM_ok_iff _ _ _).mp given
  clear given
  induction related with
  | nil => rfl
  | @cons f a _ _ made _ ih =>
    rw [List.map_cons, List.filterMap_cons_some (attributeOf_ok ctx f a made).1, ih]

/-- How a module is laid out from definitions. -/
structure LaysOut (imports : ImportTable) (definitions : List Definition) (m : Module) :
    Prop where
  contracts : (Contract.ordered (definitions.filterMap Definition.contract?)).mapM
    (contractClass { imports, definitions } (Contract.ancestors
      (Contract.ordered (definitions.filterMap Definition.contract?)))) = .ok m.contracts
  objects : (definitions.filterMap Definition.object?).mapM
    (objectClass { imports, definitions } (Contract.ancestors
      (Contract.ordered (definitions.filterMap Definition.contract?)))) = .ok m.objects
  enums : (definitions.filterMap Definition.enum?).mapM enumClass = .ok m.enums
  aliases : m.aliases =
    (Contract.ordered (definitions.filterMap Definition.contract?)).map contractAlias

/-- The module has the alias of each contract. -/
theorem LaysOut.mem_aliases {imports : ImportTable} {definitions : List Definition} {m : Module}
    (laysOut : LaysOut imports definitions m) (i : Nat) (d : ContractDef)
    (listed : (classDefinitions definitions)[i]? = some (.contract d)) :
    contractAlias d ∈ m.aliases := by
  rw [laysOut.aliases]
  exact List.mem_map_of_mem (contract_listed definitions i d listed).2

theorem layOut_ok (title : String) (imports : ImportTable) (definitions : List Definition)
    (m : Module) (given : layOut title imports definitions = .ok m) :
    LaysOut imports definitions m := by
  obtain ⟨contracts, ofContracts, given⟩ := (Outcome.bind_ok_iff _ _ _).mp given
  obtain ⟨objects, ofObjects, given⟩ := (Outcome.bind_ok_iff _ _ _).mp given
  obtain ⟨enums, ofEnums, given⟩ := (Outcome.bind_ok_iff _ _ _).mp given
  cases given
  exact ⟨ofContracts, ofObjects, ofEnums, rfl⟩

/-- The class of a contract has its name, and the bases that are left of its parents. -/
theorem LaysOut.contractHeads {imports : ImportTable} {definitions : List Definition} {m : Module}
    (laysOut : LaysOut imports definitions m) :
    let contracts := Contract.ordered (definitions.filterMap Definition.contract?)
    m.contracts.map (fun c => (c.name, c.bases)) =
      contracts.map fun d => (d.name, contractBases (Contract.ancestors contracts) d) := by
  apply Outcome.mapM_map _ _ _ _ _ _ laysOut.contracts
  intro d c made
  obtain ⟨attributes, -, same⟩ := (Outcome.bind_ok_iff _ _ _).mp made
  cases same
  rfl

theorem LaysOut.objectHeads {imports : ImportTable} {definitions : List Definition} {m : Module}
    (laysOut : LaysOut imports definitions m) :
    let contracts := Contract.ordered (definitions.filterMap Definition.contract?)
    m.objects.map (fun c => (c.name, c.bases)) =
      (definitions.filterMap Definition.object?).map fun d =>
        (d.name, objectBases (Contract.ancestors contracts) d) := by
  apply Outcome.mapM_map _ _ _ _ _ _ laysOut.objects
  intro d c made
  obtain ⟨attributes, -, same⟩ := (Outcome.bind_ok_iff _ _ _).mp made
  cases same
  rfl

/-- Whether a class statement is that of a definition. -/
inductive IsClassOf (ctx : Context) (ancestors : Contract.Ancestors) :
    Definition → Model.ClassSource → Prop
  | contract (d : ContractDef) (c : ContractClass) (made : contractClass ctx ancestors d = .ok c) :
    IsClassOf ctx ancestors (.contract d) (.contract c)
  | object (d : ObjectDef) (c : ObjectClass) (made : objectClass ctx ancestors d = .ok c) :
    IsClassOf ctx ancestors (.object d) (.object c)

/-- The class statements of a laid-out module are those of the definitions. -/
theorem LaysOut.classes {imports : ImportTable} {definitions : List Definition} {m : Module}
    (laysOut : LaysOut imports definitions m) :
    List.Forall₂ (IsClassOf { imports, definitions } (Contract.ancestors
      (Contract.ordered (definitions.filterMap Definition.contract?))))
      (classDefinitions definitions) (Model.classSources m) := by
  refine List.rel_append ?_ ?_
  · rw [List.forall₂_map_left_iff, List.forall₂_map_right_iff]
    exact ((Outcome.mapM_ok_iff _ _ _).mp laysOut.contracts).imp .contract
  · rw [List.forall₂_map_left_iff, List.forall₂_map_right_iff]
    exact ((Outcome.mapM_ok_iff _ _ _).mp laysOut.objects).imp .object

theorem LaysOut.definition_of {imports : ImportTable} {definitions : List Definition} {m : Module}
    (laysOut : LaysOut imports definitions m) (i : Nat) (c : Model.ClassSource)
    (present : (Model.classSources m)[i]? = some c) :
    ∃ d, (classDefinitions definitions)[i]? = some d ∧ IsClassOf { imports, definitions }
      (Contract.ancestors (Contract.ordered (definitions.filterMap Definition.contract?))) d c := by
  obtain ⟨within, rfl⟩ := List.getElem?_eq_some_iff.mp present
  have length := laysOut.classes.length_eq
  exact ⟨_, List.getElem?_eq_getElem (length ▸ within),
    laysOut.classes.get (length ▸ within) within⟩

theorem LaysOut.class_of {imports : ImportTable} {definitions : List Definition} {m : Module}
    (laysOut : LaysOut imports definitions m) (i : Nat) (d : Definition)
    (listed : (classDefinitions definitions)[i]? = some d) :
    ∃ c, (Model.classSources m)[i]? = some c ∧ IsClassOf { imports, definitions }
      (Contract.ancestors (Contract.ordered (definitions.filterMap Definition.contract?))) d c := by
  obtain ⟨within, rfl⟩ := List.getElem?_eq_some_iff.mp listed
  have length := laysOut.classes.length_eq
  exact ⟨_, List.getElem?_eq_getElem (length ▸ within),
    laysOut.classes.get within (length ▸ within)⟩

/-- The class of a definition is in the library, made by the step of its statement. -/
theorem LaysOut.exists_step {imports : ImportTable} {definitions : List Definition} {m : Module}
    (laysOut : LaysOut imports definitions m) {lib : Model.Library} (trace : Model.Trace m lib)
    (i : Nat) (d : Definition) (listed : (classDefinitions definitions)[i]? = some d) :
    ∃ step : Model.ClassStep (Model.classSources m) trace.withEnums, step.index = i ∧
      IsClassOf { imports, definitions } (Contract.ancestors
        (Contract.ordered (definitions.filterMap Definition.contract?))) d step.source ∧
      ∃ k, lib.class? (Model.Foundation.classes.length + i) = some k ∧
        Model.finishClass trace.withAliases step.made = .ok k := by
  obtain ⟨c, present, isClass⟩ := laysOut.class_of i d listed
  obtain ⟨step, index, rfl, made⟩ := trace.exists_class i c present
  exact ⟨step, index, isClass, made⟩

/-- A class statement has the name, the fields and the mark of its definition. -/
theorem IsClassOf.spec {ctx : Context} {ancestors : Contract.Ancestors} {d : Definition}
    {c : Model.ClassSource} (isClass : IsClassOf ctx ancestors d c) :
    c.name = nameText d.name ∧ d.fields.mapM (attributeOf ctx) = .ok c.attributes := by
  cases isClass with
  | contract d c made =>
    obtain ⟨attributes, laidOut, given⟩ := (Outcome.bind_ok_iff _ _ _).mp made
    cases given
    exact ⟨rfl, laidOut⟩
  | object d c made =>
    obtain ⟨attributes, laidOut, given⟩ := (Outcome.bind_ok_iff _ _ _).mp made
    cases given
    exact ⟨rfl, laidOut⟩

/-- The class statement of a contract names its possible types. -/
theorem IsClassOf.implementers {ctx : Context} {ancestors : Contract.Ancestors} {d : ContractDef}
    {c : Model.ClassSource} (isClass : IsClassOf ctx ancestors (.contract d) c)
    (places : List Nat) :
    (c.statement places).implementers = some (d.possibleTypes.map (·.2)) := by
  cases isClass with
  | contract _ c made =>
    obtain ⟨attributes, -, given⟩ := (Outcome.bind_ok_iff _ _ _).mp made
    cases given
    rfl

/-- The class statement of a contract has its bases. -/
theorem IsClassOf.ofContract {ctx : Context} {ancestors : Contract.Ancestors} {d : ContractDef}
    {c : Model.ClassSource} (isClass : IsClassOf ctx ancestors (.contract d) c) :
    c.bases = contractBases ancestors d := by
  cases isClass with
  | contract _ c made =>
    obtain ⟨attributes, -, given⟩ := (Outcome.bind_ok_iff _ _ _).mp made
    cases given
    rfl

/-- The class statement of an object has its mark and its bases. -/
theorem IsClassOf.ofObject {ctx : Context} {ancestors : Contract.Ancestors} {o : ObjectDef}
    {c : Model.ClassSource} (isClass : IsClassOf ctx ancestors (.object o) c) :
    c.tag? = some (nameText o.schemaName) ∧ c.bases = objectBases ancestors o := by
  cases isClass with
  | object _ c made =>
    obtain ⟨attributes, -, given⟩ := (Outcome.bind_ok_iff _ _ _).mp made
    cases given
    exact ⟨rfl, rfl⟩

theorem IsClassOf.escaped {ctx : Context} {ancestors : Contract.Ancestors} {d : Definition}
    {c : Model.ClassSource} (isClass : IsClassOf ctx ancestors d c) :
    ∀ a ∈ c.attributes, a.name = IdentifierUse.field.escape a.fieldName := by
  intro a member
  obtain ⟨f, -, gives⟩ := (attributes_ok ctx d.fields c.attributes isClass.spec.2).2 a member
  exact (attributeOf_ok ctx f a gives).2.1

theorem IsClassOf.fieldNames {ctx : Context} {ancestors : Contract.Ancestors} {d : Definition}
    {c : Model.ClassSource} (isClass : IsClassOf ctx ancestors d c) :
    c.attributes.map Attribute.fieldName = d.fieldNames :=
  (attributes_ok ctx d.fields c.attributes isClass.spec.2).1

end Source

/-- A module is laid out from the definitions that the filters leave. -/
theorem source_laysOut (m : Module) (setup : Setup) (source : Source.Module)
    (laidOut : m.source setup = .ok source) :
    Source.LaysOut setup.imports (Hook.runFilters setup.hooks m.definitions) source := by
  unfold Module.source at laidOut
  split at laidOut
  · exact Source.layOut_ok _ _ _ source laidOut
  · cases laidOut

/-- A module is laid out without imports if none are left after sorting. -/
theorem source_of_sorted (m : Module) (setup : Setup) (source : Source.Module)
    (needless : source.imports = [])
    (laidOut : m.source setup = .ok { source with
      imports := (([] : List String).mergeSort fun a b => a ≤ b).eraseDups }) :
    m.source setup = .ok source := by
  rw [laidOut, List.mergeSort_nil, List.eraseDups_nil, ← needless]

end GraphQLModels
