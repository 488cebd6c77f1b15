import GraphQLModels.Proofs.UnionMembership
import Mathlib.Data.List.Perm.Basic

/-!
# The order of a schema

The types of a schema are looked up by name, so where all have different names their order makes no
difference to what a type leads to. It shows in two places only: definitions stand in the order of
their types, and so do the contracts of the unions that a class is a member of.
-/

namespace GraphQLModels

namespace Schema

/-! ## What stands in schema order -/

/-- The contracts of the unions that list a type, save those that are among its interfaces. -/
def unionContracts (schema : Schema) (t : SchemaType) (interfaces : List String) : List String :=
  ((schema.types.filter fun u => u.kind == .union &&
      u.possibleTypes.any fun reference => reference.name == t.name).map
    fun u => contractName u.name).filter (· ∉ interfaces)

end Schema

/-- Whether a definition is the one of a type: it is of the type's kind and has its names. -/
def Definition.IsOf (d : Definition) (t : SchemaType) : Prop :=
  t.kind.definitionKind? = some d.kind ∧ d.name = d.kind.targetName t.name ∧ d.schemaName = t.name

/-- Whether two definitions are the same, save that the contracts of a class stand in the order of
one schema or another: its interfaces come first in both, then the other unions that list it. -/
inductive Definition.Reorders (options : Options) (schema other : Schema) :
    Definition → Definition → Prop where
  | enum (d : EnumDef) : Reorders options schema other (.enum d) (.enum d)
  | contract (d : ContractDef) : Reorders options schema other (.contract d) (.contract d)
  | object (d : ObjectDef) (t : SchemaType) (listed : t ∈ schema.types)
      (named : d.schemaName = t.name) (interfaces : List String)
      (stated : targetNames options (schema.parentsOf t) = .ok interfaces)
      (contracts : d.contracts = interfaces ++ schema.unionContracts t interfaces) :
      Reorders options schema other (.object d)
        (.object { d with contracts := interfaces ++ other.unionContracts t interfaces })

/-! ## Look-ups by name -/

namespace Schema

section

variable {schema other : Schema}

theorem IsNamed.perm (isNamed : schema.IsNamed) (reordered : other.types.Perm schema.types) :
    other.IsNamed where
  named t listed := isNamed.named t (reordered.mem_iff.mp listed)
  distinct := ((reordered.map _).nodup_iff).mpr isNamed.distinct

theorem IsNamed.find?_eq_some_iff (isNamed : schema.IsNamed) (name : String) (t : SchemaType) :
    schema.find? name = some t ↔ t ∈ schema.types ∧ t.name = some name := by
  constructor
  · exact fun found => (schema.find?_some name t found).symm
  · rintro ⟨listed, named⟩
    rw [find?, ← named]
    exact find?_of_distinct (·.name) isNamed.distinct listed

variable (isNamed : schema.IsNamed) (reordered : other.types.Perm schema.types)

include isNamed reordered

theorem find?_reordered : other.find? = schema.find? := by
  funext name
  refine Option.ext fun t => ?_
  rw [isNamed.find?_eq_some_iff, (isNamed.perm reordered).find?_eq_some_iff, reordered.mem_iff]

theorem resolve?_reordered : other.resolve? = schema.resolve? := by
  funext reference
  rw [resolve?, resolve?, find?_reordered isNamed reordered]

theorem resolveFrom_reordered : other.resolveFrom = schema.resolveFrom := by
  funext owner relation seen references
  induction references generalizing seen with
  | nil => rfl
  | cons reference rest ih =>
    simp only [resolveFrom, resolve?_reordered isNamed reordered, ih]

end

end Schema

section

variable {schema other : Schema} (isNamed : schema.IsNamed)
  (reordered : other.types.Perm schema.types) (options : Options) (t : SchemaType)

include isNamed reordered

/-! ## Definitions that do not depend on the order -/

theorem emitUnion_reordered : emitUnion options other t = emitUnion options schema t := by
  simp only [emitUnion, Schema.possibleTypesOf, Schema.resolveReferences,
    Schema.resolveFrom_reordered isNamed reordered]

theorem emitInterface_reordered :
    emitInterface options other t = emitInterface options schema t := by
  simp only [emitInterface, Schema.possibleTypesOf, Schema.interfacesOf, Schema.resolveReferences,
    Schema.resolveFrom_reordered isNamed reordered]

theorem capabilities_reordered : capabilities options other t = capabilities options schema t := by
  simp only [capabilities, connectionCapability, Schema.resolve?_reordered isNamed reordered]

theorem parentsOf_reordered : other.parentsOf t = schema.parentsOf t := by
  rw [Schema.parentsOf, Schema.parentsOf, Schema.resolveFrom_reordered isNamed reordered]

end

/-! ## Classes -/

/-- The contracts of a class are those of its interfaces, then those of its other unions in schema
order. -/
theorem contractsOf_eq_unionContracts {schema : Schema} (isNamed : schema.IsNamed) (t : SchemaType)
    (listed : t ∈ schema.types) (interfaces : List String) :
    contractsOf schema t interfaces = interfaces ++ schema.unionContracts t interfaces := by
  obtain ⟨name, named⟩ := isNamed.named t listed
  rw [contractsOf_eq, named, Option.map_some, Option.getD_some,
    foldl_addAbsent_filter _ _ (unionContracts_nodup isNamed name), unionsOf_eq,
    Schema.unionContracts, named]

section

variable {schema other : Schema} (isNamed : schema.IsNamed)
  (reordered : other.types.Perm schema.types) (options : Options) (t : SchemaType)
  (listed : t ∈ schema.types)

include isNamed reordered listed

theorem emitObject_reordered (d : ObjectDef)
    (made : (emitObject options schema t).outcome = .ok d) :
    ∃ d', (emitObject options other t).outcome = .ok d' ∧
      Definition.Reorders options schema other (.object d) (.object d') := by
  obtain ⟨interfaces, stated, fields, emitted, found, implied, rfl⟩ :=
    (emitObject_ok_iff options schema t d).mp made
  refine ⟨_, (emitObject_ok_iff options other t _).mpr
    ⟨interfaces, ?_, fields, emitted, found, ?_, rfl⟩, ?_⟩
  · rw [parentsOf_reordered isNamed reordered, stated]
  · rw [capabilities_reordered isNamed reordered, implied]
  · rw [contractsOf_eq_unionContracts isNamed t listed,
      contractsOf_eq_unionContracts (isNamed.perm reordered) t (reordered.mem_iff.mpr listed)]
    exact .object _ t listed rfl interfaces stated rfl

/-- A type gives the same definition in both orders, save for the order of the unions of a class. -/
theorem emits_reordered (d : Definition) (emits : Emits options schema t d) :
    ∃ d', Emits options other t d' ∧ Definition.Reorders options schema other d d' := by
  cases d with
  | «enum» d =>
    exact ⟨.enum d, (emits_enum_iff options other t d).mpr
      ((emits_enum_iff options schema t d).mp emits), .enum d⟩
  | contract d =>
    refine ⟨.contract d, (emits_contract_iff options other t d).mpr ?_, .contract d⟩
    rw [emitInterface_reordered isNamed reordered, emitUnion_reordered isNamed reordered]
    exact (emits_contract_iff options schema t d).mp emits
  | object d =>
    obtain ⟨kind, kept, made⟩ := (emits_object_iff options schema t d).mp emits
    obtain ⟨d', made', reorders⟩ := emitObject_reordered isNamed reordered options t listed d made
    exact ⟨.object d', (emits_object_iff options other t d').mpr ⟨kind, kept, made'⟩, reorders⟩

end

/-! ## Modules -/

theorem emit_module (options : Options) (schema : Schema) (m : Module)
    (emitted : (emit options schema).outcome = .ok m) :
    m.moduleName = options.moduleName ∧ m.enumsAsText = options.enumsAsText := by
  rw [emit_outcome, Outcome.map_ok_iff] at emitted
  obtain ⟨found, -, rfl⟩ := emitted
  exact ⟨rfl, rfl⟩

/-- Emission gives a module exactly if every type gives a definition or none. -/
theorem emit_ok_iff (options : Options) (schema : Schema) :
    (∃ m, (emit options schema).outcome = .ok m) ↔
      ∀ t ∈ schema.types, ∃ found, (emitType options schema t).outcome = .ok found := by
  simp only [emit_outcome, Outcome.map_ok_iff, Outcome.mapM_ok_iff]
  constructor
  · rintro ⟨_, found, given, -⟩ t listed
    obtain ⟨definition, -, made⟩ := Outcome.forall₂_left given t listed
    exact ⟨definition, made⟩
  · intro each
    obtain ⟨found, given⟩ := Outcome.forall₂_exists _ each
    exact ⟨_, found, given, rfl⟩

theorem emit_ok_reordered {schema other : Schema} (isNamed : schema.IsNamed)
    (reordered : other.types.Perm schema.types) (options : Options)
    (given : ∃ m, (emit options schema).outcome = .ok m) :
    ∃ m, (emit options other).outcome = .ok m := by
  rw [emit_ok_iff] at given ⊢
  intro t listed
  have listed' := reordered.mem_iff.mp listed
  obtain ⟨found, made⟩ := given t listed'
  cases found with
  | none => exact ⟨none, (emitType_none_iff options other t).mpr
      ((emitType_none_iff options schema t).mp made)⟩
  | some d =>
    obtain ⟨d', emits, -⟩ := emits_reordered isNamed reordered options t listed' d made
    exact ⟨some d', emits⟩

theorem definitions_reordered {schema other : Schema} (isNamed : schema.IsNamed)
    (reordered : other.types.Perm schema.types) (options : Options) (m m' : Module)
    (emitted : (emit options schema).outcome = .ok m)
    (emitted' : (emit options other).outcome = .ok m') :
    ∃ definitions, definitions.Perm m'.definitions ∧
      List.Forall₂ (Definition.Reorders options schema other) m.definitions definitions := by
  have types : (schema.definedTypes options).Perm (other.definedTypes options) :=
    reordered.symm.filter _
  obtain ⟨definitions, given, same⟩ :=
    List.perm_comp_forall₂ types (definitions_inOrder options other m' emitted')
  refine ⟨definitions, same,
    Outcome.forall₂_through (definitions_inOrder options schema m emitted) given ?_⟩
  intro t defined d d' emits emits'
  -- What the type gives in the other order is known already, and it gives only one definition.
  obtain ⟨again, made, reorders⟩ := emits_reordered isNamed reordered options t
    (List.mem_of_mem_filter defined) d emits
  cases emits'.symm.trans made
  exact reorders

theorem definitions_areOf (options : Options) (schema : Schema) (m : Module)
    (emitted : (emit options schema).outcome = .ok m) :
    List.Forall₂ Definition.IsOf m.definitions (schema.definedTypes options) :=
  ((definitions_inOrder options schema m emitted).imp (emits_named options schema)).flip

/-- **The order of a schema is the order of its definitions.** Where all types have different names,
emission succeeds in every order of the types or in none, and gives the same definitions, save that
the contracts of the unions of a class stand in the order of the schema. -/
theorem schema_order {schema other : Schema} (isNamed : schema.IsNamed)
    (reordered : other.types.Perm schema.types) (options : Options) :
    ((∃ m, (emit options schema).outcome = .ok m) ↔ ∃ m, (emit options other).outcome = .ok m) ∧
      ∀ m m', (emit options schema).outcome = .ok m → (emit options other).outcome = .ok m' →
        (∃ definitions, definitions.Perm m'.definitions ∧
          List.Forall₂ (Definition.Reorders options schema other) m.definitions definitions) ∧
        m.moduleName = m'.moduleName ∧ m.enumsAsText = m'.enumsAsText ∧
        List.Forall₂ Definition.IsOf m.definitions (schema.definedTypes options) ∧
        List.Forall₂ Definition.IsOf m'.definitions (other.definedTypes options) := by
  refine ⟨⟨emit_ok_reordered isNamed reordered options,
    emit_ok_reordered (isNamed.perm reordered) reordered.symm options⟩, ?_⟩
  intro m m' emitted emitted'
  obtain ⟨named, spelled⟩ := emit_module options schema m emitted
  obtain ⟨named', spelled'⟩ := emit_module options other m' emitted'
  exact ⟨definitions_reordered isNamed reordered options m m' emitted emitted',
    named.trans named'.symm, spelled.trans spelled'.symm,
    definitions_areOf options schema m emitted, definitions_areOf options other m' emitted'⟩

/-- A painting that belongs to two unions. -/
def museumSchema : Schema where
  types := [
    { kind := .object, name := some "Painting" },
    { kind := .union, name := some "Work", possibleTypes := [objectNamed "Painting"] },
    { kind := .union, name := some "Item", possibleTypes := [objectNamed "Painting"] }]

def turnedSchema : Schema := { types := museumSchema.types.reverse }

def museumOptions : Options := { moduleName := "museum" }

def paintingClass (contracts : List String) : Definition :=
  .object { name := some "Painting", schemaName := some "Painting", fields := [], contracts }

def paintingUnion (name : String) : Definition :=
  .contract {
    kind := .union, name := contractName name, schemaName := some name, fields := []
    possibleTypes := [("Painting", "Painting")], accessors := ["Painting"] }

def museumModule : Module where
  moduleName := "museum"
  definitions := [paintingClass ["IWork", "IItem"], paintingUnion "Work", paintingUnion "Item"]

theorem museumSchema_isNamed : museumSchema.IsNamed where
  named := by simp [museumSchema]
  distinct := by decide

/-- Where the unions change places, they do so among the contracts of the class. -/
theorem schema_order_museum :
    museumSchema.IsNamed ∧ turnedSchema.types.Perm museumSchema.types ∧
      (emit museumOptions museumSchema).outcome = .ok museumModule ∧
      ∃ m, (emit museumOptions turnedSchema).outcome = .ok m ∧
        paintingClass ["IItem", "IWork"] ∈ m.definitions := by
  have turned : turnedSchema.types.Perm museumSchema.types := List.reverse_perm _
  obtain ⟨succeeds, same⟩ := schema_order museumSchema_isNamed turned museumOptions
  obtain ⟨m, emitted⟩ := succeeds.mp ⟨museumModule, rfl⟩
  obtain ⟨⟨definitions, reordered, related⟩, -⟩ := same museumModule m rfl emitted
  refine ⟨museumSchema_isNamed, turned, rfl, m, emitted, reordered.mem_iff.mp ?_⟩
  obtain ⟨_, member, reorders⟩ :=
    Outcome.forall₂_left related (paintingClass ["IWork", "IItem"]) (by decide)
  cases reorders with
  | object _ t listed named interfaces stated _ =>
    simp only [museumSchema, List.mem_cons, List.not_mem_nil, or_false] at listed
    rcases listed with rfl | rfl | rfl
    · cases stated
      exact member
    · exact absurd named (by decide)
    · exact absurd named (by decide)

end GraphQLModels
