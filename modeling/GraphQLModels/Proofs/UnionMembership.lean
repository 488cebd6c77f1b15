import GraphQLModels.Proofs.References

/-!
# Members of unions and unions of members

The members of a union are found from the union, through the table of types; the unions of an object
are found from an index that never looks at the table. Where the types have different names, both
ways find the same pairs: the contract of a union stands among the contracts of a class exactly if
the class is a key of the union's discriminator map, and exactly if the union narrows to it.
-/

namespace GraphQLModels

namespace Schema

/-! ## Schemas with different names -/

/-- Whether all types of a schema have names, and different ones. -/
structure IsNamed (schema : Schema) : Prop where
  named : ∀ t ∈ schema.types, ∃ name, t.name = some name
  distinct : (schema.types.map (·.name)).Nodup

/-- Whether references of types lead to types of one kind, if they lead anywhere. -/
def LeadsTo (schema : Schema) (references : SchemaType → List SchemaType) (kind : TypeKind) :
    Prop :=
  ∀ t ∈ schema.types, ∀ reference ∈ references t, ∀ full,
    schema.resolve? reference = some full → full.kind = kind

section

variable {schema : Schema}

/-- Types whose names read the same are the same. -/
theorem IsNamed.unique (isNamed : schema.IsNamed) (t u : SchemaType) (first : t ∈ schema.types)
    (second : u ∈ schema.types) (same : nameText t.name = nameText u.name) : t = u := by
  obtain ⟨name, named⟩ := isNamed.named t first
  obtain ⟨name', named'⟩ := isNamed.named u second
  rw [named, named'] at same
  have equal : name = name' := same
  apply List.inj_on_of_nodup_map isNamed.distinct first second
  rw [named, named', equal]

theorem LeadsTo.membersOf (leads : schema.LeadsTo (·.possibleTypes) .object) (t : SchemaType)
    (listed : t ∈ schema.types) : ∀ member ∈ schema.membersOf t, member.kind = .object := by
  intro member isMember
  obtain ⟨reference, isReference, found⟩ := schema.resolve?_of_mem_membersOf t member isMember
  exact leads t listed reference isReference member found

theorem LeadsTo.parentsOf (leads : schema.LeadsTo (·.interfaces) .interface) (t : SchemaType)
    (listed : t ∈ schema.types) : ∀ parent ∈ schema.parentsOf t, parent.kind = .interface := by
  intro parent isParent
  obtain ⟨reference, isReference, found⟩ := schema.resolve?_of_mem_parentsOf t parent isParent
  exact leads t listed reference isReference parent found

end

/-! ## The index of unions -/

/-- The index and the members agree on every name of the table. -/
theorem mem_unionsOf_iff_knownNames (schema : Schema) (name : String)
    (known : (schema.find? name).isSome) (u : SchemaType) :
    u ∈ schema.unionsOf name ↔ u ∈ schema.types ∧ u.kind = .union ∧
      name ∈ schema.knownNames u.possibleTypes := by
  simp [mem_unionsOf, mem_knownNames, known]

end Schema

/-! ## Members -/

/-- A discriminator map of types with different names leads from each name to its target. -/
theorem discriminatorMap_eq (implementers : List SchemaType) (targets : List String)
    (distinct : (implementers.map fun t => nameText t.name).Nodup) :
    discriminatorMap implementers targets =
      (implementers.map fun t => nameText t.name).zip targets := by
  refine setKeys_distinct [] _ (distinct.sublist ?_)
  rw [List.nil_append]
  generalize implementers.map (fun t => nameText t.name) = names
  induction names generalizing targets with
  | nil => exact List.Sublist.refl _
  | cons name rest ih =>
    cases targets with
    | nil => exact List.nil_sublist _
    | cons target others => exact (ih others).cons_cons name

/-- The names of the members of a type read as its known names. -/
theorem nameTexts_membersOf (schema : Schema) (t : SchemaType) :
    (schema.membersOf t).map (fun member => nameText member.name) =
      schema.knownNames t.possibleTypes := by
  have names := congrArg (List.map nameText) (schema.names_membersOf t)
  rw [List.map_map, List.map_map] at names
  exact names.trans (List.map_id _)

/-- The discriminator map of the members of a type leads from their known names to their target
names. -/
theorem discriminatorMap_membersOf (options : Options) (schema : Schema) (t : SchemaType)
    (targets : List String) (named : targetNames options (schema.membersOf t) = .ok targets) :
    (discriminatorMap (schema.membersOf t) targets).map (·.1) = schema.knownNames t.possibleTypes ∧
      (discriminatorMap (schema.membersOf t) targets).map (·.2) = targets := by
  have texts := nameTexts_membersOf schema t
  have length := ((Outcome.mapM_ok_iff _ _ _).mp named).length_eq
  have distinct : ((schema.membersOf t).map fun member => nameText member.name).Nodup :=
    texts ▸ schema.knownNames_nodup t.possibleTypes
  rw [discriminatorMap_eq _ targets distinct]
  constructor
  · rw [List.map_fst_zip (by simp [length]), texts]
  · rw [List.map_snd_zip (by simp [length])]

/-- The target names of objects are their known names. -/
theorem targetNames_objects (options : Options) (schema : Schema) (t : SchemaType)
    (targets : List String) (objects : ∀ member ∈ schema.membersOf t, member.kind = .object)
    (named : targetNames options (schema.membersOf t) = .ok targets) :
    targets = schema.knownNames t.possibleTypes := by
  rw [← nameTexts_membersOf schema t]
  refine targetNames_eq options _ targets _ (fun member isMember => ?_) named
  obtain ⟨name, -, found⟩ := (schema.mem_membersOf t member).mp isMember
  simp [Options.plainTypeName, Options.typeName, objects member isMember,
    (schema.find?_some name member found).1, nameText]

/-- The contract of a union of objects has one key and one accessor for each known name. -/
theorem union_members (options : Options) (schema : Schema) (t : SchemaType) (u : ContractDef)
    (objects : ∀ member ∈ schema.membersOf t, member.kind = .object)
    (made : (emitUnion options schema t).outcome = .ok u) :
    u.possibleTypes.map (·.1) = schema.knownNames t.possibleTypes ∧
      u.accessors = schema.knownNames t.possibleTypes := by
  obtain ⟨_, targets, _, _, named, _, _, possible, _, _, accessors⟩ :=
    emitUnion_ok options schema t u made
  rw [possible, accessors]
  exact ⟨(discriminatorMap_membersOf options schema t targets named).1,
    targetNames_objects options schema t targets objects named⟩

/-! ## Contracts of a class -/

theorem unionsOf_eq (schema : Schema) (name : String) :
    schema.unionsOf name = schema.types.filter fun u => u.kind == .union &&
      u.possibleTypes.any fun reference => reference.name == some name := by
  rw [Schema.unionsOf, Schema.ofKind, List.filter_filter]
  simp only [Bool.and_comm]

/-- The contracts of the unions of a name are different. -/
theorem unionContracts_nodup {schema : Schema} (isNamed : schema.IsNamed) (name : String) :
    ((schema.unionsOf name).map fun u => contractName u.name).Nodup := by
  -- The unions are types of the table, whose names are different.
  have areTypes : (schema.unionsOf name).Sublist schema.types :=
    List.filter_sublist.trans List.filter_sublist
  refine List.Nodup.map_on ?_ ((List.Nodup.of_map _ isNamed.distinct).sublist areTypes)
  intro u first v second same
  apply isNamed.unique u v (areTypes.subset first) (areTypes.subset second)
  exact (contractName_inj _ _).mp same

section

variable {schema : Schema} (isNamed : schema.IsNamed)
  (interfaces : schema.LeadsTo (·.interfaces) .interface) (t : SchemaType)
  (listed : t ∈ schema.types)

include isNamed interfaces listed

/-- No interface that a type states has the contract of a union. -/
theorem parent_ne_union (p : SchemaType) (above : p ∈ schema.parentsOf t) (u : SchemaType)
    (isType : u ∈ schema.types) (union : u.kind = .union) :
    contractName p.name ≠ contractName u.name := by
  intro same
  have interface := interfaces.parentsOf t listed p above
  obtain ⟨known, -, found⟩ := (schema.mem_parentsOf t p).mp above
  -- Types with one contract have one name, but no type is an interface and a union at once.
  have equal := isNamed.unique p u (schema.find?_some known p found).2 isType
    ((contractName_inj _ _).mp same)
  rw [← equal, interface] at union
  cases union

/-- The contracts of the interfaces and of the unions of a type are all different. -/
theorem contracts_nodup (name : String) :
    ((schema.parentsOf t).map (fun p => contractName p.name) ++
      (schema.unionsOf name).map fun u => contractName u.name).Nodup := by
  refine List.nodup_append.mpr
    ⟨parentNames_nodup schema t, unionContracts_nodup isNamed name, ?_⟩
  rintro _ isParent _ isUnion rfl
  obtain ⟨p, above, rfl⟩ := List.mem_map.mp isParent
  obtain ⟨u, lists, same⟩ := List.mem_map.mp isUnion
  obtain ⟨isType, union, -⟩ := (schema.mem_unionsOf name u).mp lists
  exact parent_ne_union isNamed interfaces t listed p above u isType union same.symm

/-- The contracts of an emitted class: those of its interfaces, then those of its unions. -/
theorem object_contracts_eq (options : Options) (name : String) (named : t.name = some name)
    (c : ObjectDef) (made : (emitObject options schema t).outcome = .ok c) :
    c.contracts = (schema.parentsOf t).map (fun p => contractName p.name) ++
      (schema.unionsOf name).map fun u => contractName u.name := by
  obtain ⟨above, targets, contracts, -⟩ := emitObject_ok options schema t c made
  have parents := targetNames_interfaces options _ above (interfaces.parentsOf t listed) targets
  have joined := foldl_addAbsent_eq _ _ (contracts_nodup isNamed interfaces t listed name)
  rw [contracts, contractsOf_eq, named, Option.map_some, Option.getD_some, parents, joined]

/-- A union has its contract among those of a type exactly if it is a union of the type. -/
theorem unionContract_mem_iff (name : String) (u : SchemaType) (isType : u ∈ schema.types)
    (union : u.kind = .union) :
    contractName u.name ∈ (schema.parentsOf t).map (fun p => contractName p.name) ++
        (schema.unionsOf name).map (fun u => contractName u.name) ↔ u ∈ schema.unionsOf name := by
  rw [List.mem_append]
  constructor
  · rintro (isParent | isUnion)
    · obtain ⟨p, above, same⟩ := List.mem_map.mp isParent
      exact absurd same (parent_ne_union isNamed interfaces t listed p above u isType union)
    · obtain ⟨v, lists, same⟩ := List.mem_map.mp isUnion
      have isEntry := ((schema.mem_unionsOf name v).mp lists).1
      cases isNamed.unique v u isEntry isType ((contractName_inj _ _).mp same)
      exact lists
  · exact fun lists => .inr (List.mem_map_of_mem lists)

end

/-- Whether a class has the contracts of its interfaces, each once in the order in which its type
states them, and behind them those of the unions that list its type, in schema order. -/
def ListsContracts (schema : Schema) (t : SchemaType) (c : ObjectDef) : Prop :=
  c.contracts = (schema.knownNames t.interfaces).map (fun name => contractName (some name)) ++
    (schema.types.filter fun u => u.kind == .union &&
      u.possibleTypes.any fun reference => reference.name == t.name).map fun u =>
        contractName u.name

/-- **Members and unions know each other.** For every emitted class and every emitted union of a
schema whose types have different names: the class has the contract of the union exactly if the union
has the class as a key of its discriminator map, and exactly if it narrows to the class. The contracts
of a class are all different: first those of its interfaces as they are stated, then those of its
unions in schema order. References may be repeated and may lead nowhere. -/
theorem union_membership_symmetric (options : Options) (schema : Schema) (m : Module)
    (isNamed : schema.IsNamed) (interfaces : schema.LeadsTo (·.interfaces) .interface)
    (members : schema.LeadsTo (·.possibleTypes) .object)
    (emitted : (emit options schema).outcome = .ok m) (c : ObjectDef)
    (isClass : .object c ∈ m.definitions) :
    ∃ name target, c.schemaName = some name ∧ c.name = some target ∧
      (∀ u : ContractDef, .contract u ∈ m.definitions → u.kind = .union →
        (u.name ∈ c.contracts ↔ name ∈ u.possibleTypes.map (·.1)) ∧
          (name ∈ u.possibleTypes.map (·.1) ↔ target ∈ u.accessors)) ∧
      c.contracts.Nodup ∧ ∃ t ∈ schema.types, t.name = some name ∧ ListsContracts schema t c := by
  obtain ⟨t, listed, emits⟩ := (mem_definitions_iff options schema m emitted _).mp isClass
  obtain ⟨_, _, made⟩ := (emits_object_iff options schema t c).mp emits
  obtain ⟨name, named⟩ := isNamed.named t listed
  obtain ⟨_, _, _, _, _, target, schemaName⟩ := emitObject_ok options schema t c made
  have contracts := object_contracts_eq isNamed interfaces t listed options name named c made
  refine ⟨name, name, schemaName.trans named, target.trans named, ?_, ?_, t, listed, named, ?_⟩
  · intro u isContract isUnion
    obtain ⟨v, isType, emits⟩ := (mem_definitions_iff options schema m emitted _).mp isContract
    obtain ⟨_, union, made⟩ := (emits_union_iff options schema v u).mp ⟨emits, isUnion⟩
    obtain ⟨keys, accessors⟩ := union_members options schema v u (members.membersOf v isType) made
    obtain ⟨_, _, _, _, _, _, _, _, contract, _⟩ := emitUnion_ok options schema v u made
    rw [keys, accessors, contracts, contract,
      unionContract_mem_iff isNamed interfaces t listed name v isType union]
    refine ⟨?_, Iff.rfl⟩
    -- The type itself is in the table, so the index knows its name as the references do.
    have known := schema.find?_isSome t listed name named
    simp [schema.mem_unionsOf_iff_knownNames name known, isType, union]
  · rw [contracts]
    exact contracts_nodup isNamed interfaces t listed name
  · rw [ListsContracts, contracts, parentNames_eq, unionsOf_eq, named]

/-! ## A union that repeats a member -/

/-- A reference to an object type. -/
def objectNamed (name : String) : SchemaType := { kind := .object, name := some name }

/-- A union that lists a book twice and a film that is not in the table, and a book that states its
interface twice. -/
def shelfSchema : Schema where
  types := [
    { kind := .union, name := some "Result"
      possibleTypes := [objectNamed "Book", objectNamed "Film", objectNamed "Book", { kind := .object },
        objectNamed "Song"] },
    { kind := .interface, name := some "Titled" },
    { kind := .object, name := some "Book"
      interfaces := [
        { kind := .interface, name := some "Titled" }, { kind := .interface, name := some "Lost" },
        { kind := .interface, name := some "Titled" }] },
    { kind := .object, name := some "Song" }]

def shelfOptions : Options := { moduleName := "shelf" }

def bookClass : ObjectDef where
  name := some "Book"
  schemaName := some "Book"
  fields := []
  contracts := ["ITitled", "IResult"]

def shelfUnion : ContractDef where
  kind := .union
  name := "IResult"
  schemaName := some "Result"
  fields := []
  possibleTypes := [("Book", "Book"), ("Song", "Song")]
  accessors := ["Book", "Song"]

def shelfModule : Module where
  moduleName := "shelf"
  definitions := [
    .contract shelfUnion,
    .contract { kind := .interface, name := "ITitled", schemaName := some "Titled", fields := [] },
    .object bookClass,
    .object { name := some "Song", schemaName := some "Song", fields := [], contracts := ["IResult"] }]

theorem shelfSchema_isNamed : shelfSchema.IsNamed where
  named := by simp [shelfSchema]
  distinct := by decide

theorem shelfSchema_leads : shelfSchema.LeadsTo (·.interfaces) .interface ∧
    shelfSchema.LeadsTo (·.possibleTypes) .object := by
  have leads : ∀ t ∈ shelfSchema.types,
      (∀ r ∈ t.interfaces, (shelfSchema.resolve? r).all fun full => full.kind == .interface) ∧
        ∀ r ∈ t.possibleTypes, (shelfSchema.resolve? r).all fun full => full.kind == .object := by
    decide
  constructor
  · intro t listed r isReference full found
    simpa [found] using (leads t listed).1 r isReference
  · intro t listed r isReference full found
    simpa [found] using (leads t listed).2 r isReference

/-- The class of a book has the contract of the union, whose members hold it once. -/
theorem union_membership_symmetric_book :
    "IResult" ∈ bookClass.contracts ∧ "Book" ∈ shelfUnion.possibleTypes.map (·.1) ∧
      "Book" ∈ shelfUnion.accessors ∧ bookClass.contracts.Nodup := by
  obtain ⟨name, target, schemaName, isTarget, agrees, distinct, -⟩ :=
    union_membership_symmetric shelfOptions shelfSchema shelfModule shelfSchema_isNamed
      shelfSchema_leads.1 shelfSchema_leads.2 rfl bookClass (by decide)
  cases schemaName
  cases isTarget
  obtain ⟨first, second⟩ := agrees shelfUnion (by decide) rfl
  have contract : "IResult" ∈ bookClass.contracts := by decide
  exact ⟨contract, first.mp contract, second.mp (first.mp contract), distinct⟩

end GraphQLModels
