import GraphQLModels.Emission
import GraphQLModels.Proofs.Mappings
import GraphQLModels.Proofs.Resolution

/-!
# What emission gives

A module holds one definition for each type that gives one. The references of a type lead to table
entries, each name once; the fields that types share are those with one key in all of them.
-/

namespace GraphQLModels

/-! ## References -/

namespace Schema

theorem find?_some (schema : Schema) (name : String) (t : SchemaType)
    (found : schema.find? name = some t) : t.name = some name ∧ t ∈ schema.types := by
  refine ⟨?_, List.mem_of_find?_eq_some found⟩
  simpa using List.find?_some found

/-- The table entries that the possible types of a type name, each once. -/
def membersOf (schema : Schema) (t : SchemaType) : List SchemaType :=
  (schema.resolveFrom t.name .possibleTypes [] t.possibleTypes).2

/-- The table entries that the interfaces of a type name, each once. -/
def parentsOf (schema : Schema) (t : SchemaType) : List SchemaType :=
  (schema.resolveFrom t.name .interfaces [] t.interfaces).2

@[simp] theorem outcome_possibleTypesOf {ε : Type} (schema : Schema) (t : SchemaType) :
    (schema.possibleTypesOf t : Report ε _).outcome = .ok (schema.membersOf t) := rfl

@[simp] theorem outcome_interfacesOf {ε : Type} (schema : Schema) (t : SchemaType) :
    (schema.interfacesOf t : Report ε _).outcome = .ok (schema.parentsOf t) := rfl

theorem resolveFrom_cons (schema : Schema) (owner : Option String) (relation : Relation)
    (seen : List String) (reference : SchemaType) (rest : List SchemaType) :
    (schema.resolveFrom owner relation seen (reference :: rest)).2 =
      match schema.resolve? reference, reference.name with
      | some full, some name =>
        if name ∈ seen then (schema.resolveFrom owner relation seen rest).2
        else full :: (schema.resolveFrom owner relation (name :: seen) rest).2
      | _, _ => (schema.resolveFrom owner relation seen rest).2 := by
  rw [resolveFrom]
  cases resolved : schema.resolve? reference with
  | none => cases reference.name <;> rfl
  | some full =>
    cases named : reference.name with
    | none => rfl
    | some name =>
      by_cases old : name ∈ seen
      · simp [old]
      · simp [old]

/-- Which table entries a list of references leads to. -/
theorem mem_resolveFrom (schema : Schema) (owner : Option String) (relation : Relation)
    (seen : List String) (references : List SchemaType) (full : SchemaType) :
    full ∈ (schema.resolveFrom owner relation seen references).2 ↔
      ∃ name, name ∉ seen ∧ (∃ reference ∈ references, reference.name = some name) ∧
        schema.find? name = some full := by
  -- What has been seen grows by the name of each entry that is found.
  induction references generalizing seen with
  | nil => simp [resolveFrom]
  | cons reference rest ih =>
    rw [resolveFrom_cons]
    cases resolved : schema.resolve? reference with
    | none =>
      simp only [ih, List.exists_mem_cons_iff]
      constructor
      · rintro ⟨name, fresh, named, found⟩
        exact ⟨name, fresh, .inr named, found⟩
      · rintro ⟨name, fresh, same | named, found⟩
        · rw [resolve?, same, Option.bind_some, found] at resolved
          cases resolved
        · exact ⟨name, fresh, named, found⟩
    | some first =>
      obtain ⟨name, given, found⟩ := Option.bind_eq_some_iff.mp resolved
      simp only [given]
      by_cases old : name ∈ seen
      · rw [if_pos old]
        simp only [ih, List.exists_mem_cons_iff]
        constructor
        · rintro ⟨other, fresh, named, found⟩
          exact ⟨other, fresh, .inr named, found⟩
        · rintro ⟨other, fresh, same | named, found⟩
          · rw [given] at same
            cases same
            exact absurd old fresh
          · exact ⟨other, fresh, named, found⟩
      · rw [if_neg old, List.mem_cons, ih]
        constructor
        · rintro (rfl | ⟨other, fresh, ⟨r, member, same⟩, found⟩)
          · exact ⟨name, old, ⟨reference, List.mem_cons_self, given⟩, found⟩
          · exact ⟨other, fun h => fresh (List.mem_cons_of_mem _ h),
              ⟨r, List.mem_cons_of_mem _ member, same⟩, found⟩
        · rintro ⟨other, fresh, ⟨r, member, same⟩, found'⟩
          by_cases equal : other = name
          · subst equal
            exact .inl (Option.some.inj (found'.symm.trans found))
          · rcases List.mem_cons.mp member with rfl | later
            · exact absurd (Option.some.inj (same.symm.trans given)) equal
            · exact .inr ⟨other, by simp [equal, fresh], ⟨r, later, same⟩, found'⟩

theorem mem_membersOf (schema : Schema) (t full : SchemaType) :
    full ∈ schema.membersOf t ↔ ∃ name, (∃ reference ∈ t.possibleTypes,
      reference.name = some name) ∧ schema.find? name = some full := by
  simp [membersOf, mem_resolveFrom]

theorem mem_parentsOf (schema : Schema) (t full : SchemaType) :
    full ∈ schema.parentsOf t ↔ ∃ name, (∃ reference ∈ t.interfaces,
      reference.name = some name) ∧ schema.find? name = some full := by
  simp [parentsOf, mem_resolveFrom]

theorem resolve?_of_mem_membersOf (schema : Schema) (t full : SchemaType)
    (member : full ∈ schema.membersOf t) :
    ∃ reference ∈ t.possibleTypes, schema.resolve? reference = some full := by
  obtain ⟨name, ⟨reference, isReference, named⟩, found⟩ := (schema.mem_membersOf t full).mp member
  exact ⟨reference, isReference, by rw [resolve?, named, Option.bind_some, found]⟩

theorem resolve?_of_mem_parentsOf (schema : Schema) (t full : SchemaType)
    (member : full ∈ schema.parentsOf t) :
    ∃ reference ∈ t.interfaces, schema.resolve? reference = some full := by
  obtain ⟨name, ⟨reference, isReference, named⟩, found⟩ := (schema.mem_parentsOf t full).mp member
  exact ⟨reference, isReference, by rw [resolve?, named, Option.bind_some, found]⟩

end Schema

/-! ## Shared fields -/

theorem fieldKey_ok_iff (options : Options) (field : SchemaField) (key : FieldKey) :
    fieldKey options field = .ok key ↔
      field.type.resolvedName options = .ok key.1 ∧ field.name = key.2 := by
  unfold fieldKey
  rw [Outcome.bind_ok_iff]
  constructor
  · rintro ⟨name, resolved, same⟩
    cases (Outcome.pure_ok_iff _ _).mp same
    exact ⟨resolved, rfl⟩
  · rintro ⟨resolved, same⟩
    exact ⟨key.1, resolved, by rw [same]; rfl⟩

theorem mem_keyedFields (options : Options) (fields : List SchemaField)
    (keyed : List (FieldKey × SchemaField)) (given : keyedFields options fields = .ok keyed)
    (key : FieldKey) (field : SchemaField) :
    (key, field) ∈ keyed ↔ field ∈ fields ∧ fieldKey options field = .ok key := by
  constructor
  · intro member
    obtain ⟨source, present, made⟩ := Outcome.mapM_from _ _ _ given _ member
    obtain ⟨found, resolved, same⟩ := (Outcome.bind_ok_iff _ _ _).mp made
    cases (Outcome.pure_ok_iff _ _).mp same
    exact ⟨present, resolved⟩
  · rintro ⟨present, resolved⟩
    obtain ⟨entry, member, made⟩ := Outcome.mapM_mem _ _ _ given field present
    obtain ⟨found, again, same⟩ := (Outcome.bind_ok_iff _ _ _).mp made
    cases (Outcome.pure_ok_iff _ _).mp same
    cases resolved.symm.trans again
    exact member

theorem firstByKey_subset (seen : List FieldKey) (entries : List (FieldKey × SchemaField)) :
    firstByKey seen entries ⊆ entries := by
  induction entries generalizing seen with
  | nil => exact List.Subset.refl _
  | cons entry rest ih =>
    rcases entry with ⟨key, field⟩
    unfold firstByKey
    split
    · exact fun e member => List.mem_cons_of_mem _ (ih seen member)
    · intro e member
      rcases List.mem_cons.mp member with rfl | later
      · exact List.mem_cons_self
      · exact List.mem_cons_of_mem _ (ih (key :: seen) later)

theorem sharedWith_ok (options : Options) (shared result : List (FieldKey × SchemaField))
    (types : List SchemaType) (given : sharedWith options shared types = .ok result)
    (entry : FieldKey × SchemaField) (member : entry ∈ result) :
    entry ∈ shared ∧ ∀ t ∈ types, ∃ field ∈ t.fields, fieldKey options field = .ok entry.1 := by
  induction types generalizing shared with
  | nil =>
    cases given
    exact ⟨member, by simp⟩
  | cons t rest ih =>
    obtain ⟨keyed, first, later⟩ := (Outcome.bind_ok_iff _ _ _).mp given
    obtain ⟨kept, others⟩ := ih _ later
    obtain ⟨present, known⟩ := List.mem_filter.mp kept
    refine ⟨present, ?_⟩
    intro other among
    rcases List.mem_cons.mp among with rfl | among
    · obtain ⟨⟨key, field⟩, listed, same⟩ :=
        List.mem_map.mp (List.contains_iff_mem.mp known)
      cases same
      exact ⟨field, (mem_keyedFields options _ keyed first _ field).mp listed⟩
    · exact others other among

/-- A shared field belongs to the first type, and every type has a field with its key. -/
theorem commonFields_ok (options : Options) (first : SchemaType) (rest : List SchemaType)
    (shared : List SchemaField) (given : commonFields options (first :: rest) = .ok shared)
    (field : SchemaField) (member : field ∈ shared) :
    field ∈ first.fields ∧ ∃ key, fieldKey options field = .ok key ∧
      ∀ t ∈ first :: rest, ∃ own ∈ t.fields, fieldKey options own = .ok key := by
  obtain ⟨keyed, firstKeyed, given⟩ := (Outcome.bind_ok_iff _ _ _).mp given
  obtain ⟨entries, filtered, same⟩ := (Outcome.bind_ok_iff _ _ _).mp given
  cases (Outcome.pure_ok_iff _ _).mp same
  obtain ⟨⟨key, field⟩, listed, rfl⟩ := List.mem_map.mp member
  obtain ⟨early, others⟩ := sharedWith_ok options _ entries rest filtered _ listed
  obtain ⟨present, resolved⟩ := (mem_keyedFields options _ keyed firstKeyed key field).mp
    (firstByKey_subset [] keyed early)
  refine ⟨present, key, resolved, ?_⟩
  intro t among
  rcases List.mem_cons.mp among with rfl | among
  · exact ⟨field, present, resolved⟩
  · exact others t among

/-- Every shared field is a field of some member. -/
theorem commonFields_from (options : Options) (types : List SchemaType)
    (shared : List SchemaField) (given : commonFields options types = .ok shared) :
    ∀ f ∈ shared, ∃ t ∈ types, f ∈ t.fields := by
  intro f isShared
  cases types with
  | nil =>
    cases given
    cases isShared
  | cons first rest =>
    exact ⟨first, List.mem_cons_self, (commonFields_ok options first rest shared given f isShared).1⟩

/-! ## Capabilities -/

/-- A type gives the capability of a connection, of an edge, or both, as its name ends. -/
theorem outcome_capabilities (options : Options) (schema : Schema) (t : SchemaType) :
    (capabilities options schema t).outcome =
      (if Text.endsWith (t.name.getD "") "Connection" then
        (connectionCapability options schema t).outcome else .ok none) >>= fun connection =>
      (if Text.endsWith (t.name.getD "") "Edge" then edgeCapability options t
        else .ok none) >>= fun edge => pure (connection.toList ++ edge.toList) := by
  unfold capabilities
  by_cases connection : Text.endsWith (t.name.getD "") "Connection" = true <;>
    by_cases edge : Text.endsWith (t.name.getD "") "Edge" = true <;>
    simp only [connection, edge, Report.outcome_bind, Report.outcome_lift, Report.outcome_pure,
      Outcome.ok_bind, if_true, Bool.false_eq_true, if_false] <;>
    rfl

/-- The capabilities of a type are at most one by the convention for connections and one by the
convention for edges. -/
theorem capabilities_ok (options : Options) (schema : Schema) (t : SchemaType)
    (found : List Capability) (given : (capabilities options schema t).outcome = .ok found) :
    ∃ connection edge, found = connection.toList ++ edge.toList ∧
      (∀ c, connection = some c → (connectionCapability options schema t).outcome = .ok (some c)) ∧
      ∀ c, edge = some c → edgeCapability options t = .ok (some c) := by
  rw [outcome_capabilities, Outcome.bind_ok_iff] at given
  obtain ⟨connection, first, given⟩ := given
  obtain ⟨edge, second, made⟩ := (Outcome.bind_ok_iff _ _ _).mp given
  cases made
  refine ⟨connection, edge, rfl, ?_, ?_⟩
  · rintro c rfl
    split at first
    · exact first
    · cases first
  · rintro c rfl
    split at second
    · exact second
    · cases second

/-! ## Definitions -/

theorem emitField_ok (options : Options) (type : Option String) (readOnly : Bool)
    (source : SchemaField) (field : Field)
    (given : emitField options type readOnly source = .ok field) :
    field.name = source.name ∧ source.type.resolve options type source.name = .ok field.type := by
  obtain ⟨resolved, same, made⟩ := (Outcome.bind_ok_iff _ _ _).mp given
  cases (Outcome.pure_ok_iff _ _).mp made
  exact ⟨rfl, same⟩

theorem mem_discriminatorMap (implementers : List SchemaType) (targets : List String)
    (name target : String) (member : (name, target) ∈ discriminatorMap implementers targets) :
    ∃ t ∈ implementers, nameText t.name = name := by
  rcases mem_setKeys _ _ _ member with impossible | listed
  · cases impossible
  · obtain ⟨t, present, same⟩ := List.mem_map.mp (List.of_mem_zip listed).1
    exact ⟨t, present, same⟩

theorem emitUnion_ok (options : Options) (schema : Schema) (t : SchemaType) (contract : ContractDef)
    (given : (emitUnion options schema t).outcome = .ok contract) :
    ∃ shared targets, commonFields options (schema.membersOf t) = .ok shared ∧
      emitFields options t.name false shared = .ok contract.fields ∧
      targetNames options (schema.membersOf t) = .ok targets ∧
      contract.kind = .union ∧ contract.schemaName = t.name ∧
      contract.possibleTypes = discriminatorMap (schema.membersOf t) targets ∧
      contract.name = contractName t.name ∧ contract.parents = [] ∧
      contract.accessors = targets := by
  simp only [emitUnion, Report.outcome_bind, Schema.outcome_possibleTypesOf, Report.outcome_lift,
    Report.outcome_pure, Outcome.bind_ok_iff] at given
  obtain ⟨_, members, shared, common, fields, emitted, targets, named, made⟩ := given
  cases members
  cases made
  exact ⟨shared, targets, common, emitted, named, rfl, rfl, rfl, rfl, rfl, rfl⟩

theorem emitInterface_ok (options : Options) (schema : Schema) (t : SchemaType)
    (contract : ContractDef) (given : (emitInterface options schema t).outcome = .ok contract) :
    ∃ targets,
      emitFields options t.name true (ownFields t (schema.parentsOf t)) = .ok contract.fields ∧
      targetNames options (schema.parentsOf t) = .ok contract.parents ∧
      targetNames options (schema.membersOf t) = .ok targets ∧
      contract.kind = .interface ∧
      contract.possibleTypes = discriminatorMap (schema.membersOf t) targets ∧
      contract.name = contractName t.name ∧ contract.schemaName = t.name ∧
      contract.accessors = if (schema.parentsOf t).isEmpty then targets else [] := by
  simp only [emitInterface, Report.outcome_bind, Schema.outcome_possibleTypesOf,
    Schema.outcome_interfacesOf, Outcome.bind_ok_iff] at given
  obtain ⟨_, parents, _, members, given⟩ := given
  cases parents
  cases members
  -- The accessors come first, but a contract with parents has none.
  split at given
  · rename_i alone
    simp only [Report.outcome_bind, Report.outcome_lift, Report.outcome_pure,
      Outcome.bind_ok_iff] at given
    obtain ⟨accessors, first, fields, emitted, parentNames, above, targets, named, made⟩ := given
    cases made
    cases first.symm.trans named
    exact ⟨accessors, emitted, above, first, rfl, rfl, rfl, rfl, (if_pos alone).symm⟩
  · rename_i below
    simp only [Report.outcome_bind, Report.outcome_lift, Report.outcome_pure,
      Outcome.bind_ok_iff] at given
    obtain ⟨accessors, none, fields, emitted, parentNames, above, targets, named, made⟩ := given
    cases made
    cases none
    exact ⟨targets, emitted, above, named, rfl, rfl, rfl, rfl, (if_neg below).symm⟩

namespace Schema

theorem mem_unionMembers (schema : Schema) (name : String) :
    name ∈ schema.unionMembers ↔ schema.unionsOf name ≠ [] := by
  rw [← List.isEmpty_eq_false_iff, List.isEmpty_eq_false_iff_exists_mem]
  simp [unionMembers, unionsOf, ofKind, and_assoc, and_left_comm, and_comm]

/-- Looked up in the index, a name leads to its unions; one that is not there has none. -/
theorem findKey?_unionMembership (schema : Schema) (name : String) :
    (findKey? name schema.unionMembership).getD [] = schema.unionsOf name := by
  rw [findKey?, unionMembership, List.find?_map, Option.map_map]
  cases found : schema.unionMembers.find? ((fun entry => entry.1 == name) ∘ fun known =>
      (known, schema.unionsOf known)) with
  | none =>
    have absent : name ∉ schema.unionMembers := fun member => by
      simpa using List.find?_eq_none.mp found name member
    exact (not_not.mp (mt (schema.mem_unionMembers name).mpr absent)).symm
  | some known =>
    have same : known = name := by simpa using List.find?_some found
    rw [same]
    rfl

/-- The unions that a type is given by its name, if it has one. -/
theorem unions_of_name (schema : Schema) (name : Option String) :
    (name.bind fun name => findKey? name schema.unionMembership).getD [] =
      (name.map schema.unionsOf).getD [] := by
  cases name with
  | none => rfl
  | some name => exact schema.findKey?_unionMembership name

end Schema

/-- The contracts of a class with some interfaces, each once: the interfaces, then the unions that
list the type. -/
def contractsOf (schema : Schema) (t : SchemaType) (interfaces : List String) : List String :=
  ((t.name.map schema.unionsOf).getD []).foldl (fun known union =>
    if known.contains (contractName union.name) then known
    else known ++ [contractName union.name]) interfaces

theorem emitObject_ok_iff (options : Options) (schema : Schema) (t : SchemaType)
    (object : ObjectDef) :
    (emitObject options schema t).outcome = .ok object ↔
      ∃ interfaces, targetNames options (schema.parentsOf t) = .ok interfaces ∧
      ∃ fields, emitFields options t.name false t.fields = .ok fields ∧
      ∃ found, (capabilities options schema t).outcome = .ok found ∧
        { name := t.name, schemaName := t.name, fields
          contracts := contractsOf schema t interfaces, capabilities := found
          description := t.description } = object := by
  simp only [emitObject, Report.outcome_bind, Schema.outcome_interfacesOf, Report.outcome_lift,
    Report.outcome_pure, Outcome.ok_bind, Outcome.bind_ok_iff, Except.ok.injEq,
    schema.unions_of_name]
  rfl

theorem emitObject_ok (options : Options) (schema : Schema) (t : SchemaType) (object : ObjectDef)
    (given : (emitObject options schema t).outcome = .ok object) :
    ∃ interfaces, targetNames options (schema.parentsOf t) = .ok interfaces ∧
      object.contracts = contractsOf schema t interfaces ∧
      emitFields options t.name false t.fields = .ok object.fields ∧
      (capabilities options schema t).outcome = .ok object.capabilities ∧
      object.name = t.name ∧ object.schemaName = t.name := by
  obtain ⟨interfaces, above, fields, emitted, found, implied, rfl⟩ :=
    (emitObject_ok_iff options schema t object).mp given
  exact ⟨interfaces, above, rfl, emitted, implied, rfl, rfl⟩

theorem emitNext_outcome (options : Options) (schema : Schema) (t : SchemaType) :
    (emitNext options schema t).outcome = (emitType options schema t).outcome := by
  rw [emitNext, Report.outcome_bind]
  cases (emitType options schema t).outcome with
  | error e => rfl
  | ok found => cases found <;> rfl

/-- Emission fails exactly if some type of the table does; otherwise the module holds what the types
give. -/
theorem emit_outcome (options : Options) (schema : Schema) :
    (emit options schema).outcome =
      (schema.types.mapM fun t => (emitType options schema t).outcome).map fun found =>
        { moduleName := options.moduleName, definitions := found.filterMap id,
          enumsAsText := options.enumsAsText } := by
  simp only [emit, Report.outcome_bind, Report.outcome_mapM, emitNext_outcome]
  cases schema.types.mapM fun t => (emitType options schema t).outcome with
  | error e => rfl
  | ok found => rfl

/-- Whether a type gives a definition. -/
def Emits (options : Options) (schema : Schema) (t : SchemaType) (d : Definition) : Prop :=
  (emitType options schema t).outcome = .ok (some d)

/-- A module holds the definitions that the types of the table give. -/
theorem mem_definitions_iff (options : Options) (schema : Schema) (m : Module)
    (emitted : (emit options schema).outcome = .ok m) (d : Definition) :
    d ∈ m.definitions ↔ ∃ t ∈ schema.types, Emits options schema t d := by
  rw [emit_outcome, Outcome.map_ok_iff] at emitted
  obtain ⟨found, each, rfl⟩ := emitted
  simp only [List.mem_filterMap, id_eq, exists_eq_right]
  constructor
  · intro member
    obtain ⟨t, present, made⟩ := Outcome.mapM_from _ _ _ each _ member
    exact ⟨t, present, made⟩
  · rintro ⟨t, present, made⟩
    obtain ⟨other, member, again⟩ := Outcome.mapM_mem _ _ _ each t present
    cases made.symm.trans again
    exact member

/-- Only an object that is not skipped gives a class, namely its own. -/
theorem emits_object_iff (options : Options) (schema : Schema) (t : SchemaType) (d : ObjectDef) :
    Emits options schema t (.object d) ↔ t.kind = .object ∧ options.skips t.name = false ∧
      (emitObject options schema t).outcome = .ok d := by
  unfold Emits emitType
  cases kind : t.kind <;> cases skipped : options.skips t.name <;>
    simp [Outcome.fmap_ok_iff]

/-- Only an enum that is not skipped gives an enum, namely its own. -/
theorem emits_enum_iff (options : Options) (schema : Schema) (t : SchemaType) (d : EnumDef) :
    Emits options schema t (.enum d) ↔ t.kind = .enum ∧ options.skips t.name = false ∧
      emitEnum options t = d := by
  unfold Emits emitType
  cases kind : t.kind <;> cases skipped : options.skips t.name <;>
    simp [Outcome.fmap_ok_iff]

/-- An interface or union that is not skipped gives its contract, and nothing else gives one. -/
theorem emits_contract_iff (options : Options) (schema : Schema) (t : SchemaType)
    (d : ContractDef) :
    Emits options schema t (.contract d) ↔ options.skips t.name = false ∧
      (t.kind = .interface ∧ (emitInterface options schema t).outcome = .ok d ∨
        t.kind = .union ∧ (emitUnion options schema t).outcome = .ok d) := by
  unfold Emits emitType
  cases kind : t.kind <;> cases skipped : options.skips t.name <;>
    simp [Outcome.fmap_ok_iff]

/-- Only a union that is not skipped gives the contract of a union. -/
theorem emits_union_iff (options : Options) (schema : Schema) (t : SchemaType) (d : ContractDef) :
    Emits options schema t (.contract d) ∧ d.kind = .union ↔ options.skips t.name = false ∧
      t.kind = .union ∧ (emitUnion options schema t).outcome = .ok d := by
  rw [emits_contract_iff]
  constructor
  · rintro ⟨⟨kept, ⟨_, made⟩ | ⟨kind, made⟩⟩, union⟩
    · obtain ⟨_, _, _, _, interface, _⟩ := emitInterface_ok options schema t d made
      rw [interface] at union
      cases union
    · exact ⟨kept, kind, made⟩
  · rintro ⟨kept, kind, made⟩
    obtain ⟨_, _, _, _, _, union, _⟩ := emitUnion_ok options schema t d made
    exact ⟨⟨kept, .inr ⟨kind, made⟩⟩, union⟩

/-! ## Definitions of types -/

/-- The kind of the definition that a type of a kind gives. -/
def TypeKind.definitionKind? : TypeKind → Option DefinitionKind
  | .enum => some .enum
  | .interface => some .interface
  | .union => some .union
  | .object => some .object
  | .scalar | .inputObject | .list | .nonNull => none

/-- The target name of the definition that a type of some name gives. -/
def DefinitionKind.targetName (kind : DefinitionKind) (name : Option String) : Option String :=
  match kind with
  | .interface | .union => some (contractName name)
  | .enum | .object => name

/-- A definition is of the kind of its type and has its names. -/
theorem emits_named (options : Options) (schema : Schema) (t : SchemaType) (d : Definition)
    (emits : Emits options schema t d) :
    t.kind.definitionKind? = some d.kind ∧ d.name = d.kind.targetName t.name ∧
      d.schemaName = t.name := by
  cases d with
  | «enum» d =>
    obtain ⟨kind, -, rfl⟩ := (emits_enum_iff options schema t d).mp emits
    rw [kind]
    exact ⟨rfl, rfl, rfl⟩
  | object d =>
    obtain ⟨kind, -, made⟩ := (emits_object_iff options schema t d).mp emits
    obtain ⟨_, -, -, -, -, named, schemaName⟩ := emitObject_ok options schema t d made
    rw [kind]
    exact ⟨rfl, named, schemaName⟩
  | contract d =>
    obtain ⟨-, ⟨kind, made⟩ | ⟨kind, made⟩⟩ := (emits_contract_iff options schema t d).mp emits
    · obtain ⟨_, -, -, -, isInterface, -, named, schemaName, -⟩ :=
        emitInterface_ok options schema t d made
      rw [kind, Definition.kind, isInterface]
      exact ⟨rfl, congrArg some named, schemaName⟩
    · obtain ⟨_, _, -, -, -, isUnion, schemaName, -, named, -⟩ :=
        emitUnion_ok options schema t d made
      rw [kind, Definition.kind, isUnion]
      exact ⟨rfl, congrArg some named, schemaName⟩

/-- Only the kind and the name of a type decide that it gives no definition. -/
theorem emitType_none_iff (options : Options) (schema : Schema) (t : SchemaType) :
    (emitType options schema t).outcome = .ok none ↔
      t.kind = .scalar ∨ t.kind = .inputObject ∨ options.skips t.name = true := by
  unfold emitType
  cases kind : t.kind <;> cases skipped : options.skips t.name <;>
    simp [Outcome.fmap_ok_iff]

/-- The types that give definitions: enums, interfaces, unions and objects that are not skipped. -/
def Schema.definedTypes (schema : Schema) (options : Options) : List SchemaType :=
  schema.types.filter fun t => t.kind.definitionKind?.isSome && !options.skips t.name

/-- The definitions of a module are those of the types that give one, in order. -/
theorem definitions_inOrder (options : Options) (schema : Schema) (m : Module)
    (emitted : (emit options schema).outcome = .ok m) :
    List.Forall₂ (Emits options schema) (schema.definedTypes options) m.definitions := by
  rw [emit_outcome, Outcome.map_ok_iff] at emitted
  obtain ⟨found, each, rfl⟩ := emitted
  have given := (Outcome.mapM_ok_iff _ _ _).mp each
  -- What each type gives depends on the whole table, but the induction is on a part of it.
  rw [Schema.definedTypes]
  generalize schema.types = types at given
  clear each
  induction given with
  | nil => exact .nil
  | @cons t definition types found first _ ih =>
    cases definition with
    | none =>
      have none : (t.kind.definitionKind?.isSome && !options.skips t.name) = false := by
        rcases (emitType_none_iff options schema t).mp first with kind | kind | skipped
        · rw [kind]; rfl
        · rw [kind]; rfl
        · rw [skipped, Bool.not_true, Bool.and_false]
      rw [List.filter_cons_of_neg (by simp [none])]
      exact ih
    | some d =>
      obtain ⟨gives, -, -⟩ := emits_named options schema t d first
      have kept : options.skips t.name = false := by
        refine Bool.eq_false_iff.mpr fun skipped => ?_
        cases first.symm.trans ((emitType_none_iff options schema t).mpr (.inr (.inr skipped)))
      rw [List.filter_cons_of_pos (by simp [gives, kept])]
      exact .cons first ih

/-- A type that is not skipped gives its definition, under its target name. -/
theorem definition_emitted (options : Options) (schema : Schema) (m : Module)
    (emitted : (emit options schema).outcome = .ok m) (t : SchemaType) (listed : t ∈ schema.types)
    (kept : options.skips t.name = false) (kind : DefinitionKind)
    (gives : t.kind.definitionKind? = some kind) :
    ∃ d ∈ m.definitions, d.kind = kind ∧ d.name = kind.targetName t.name := by
  have defined : t ∈ schema.definedTypes options :=
    List.mem_filter.mpr ⟨listed, by rw [gives, kept]; rfl⟩
  obtain ⟨d, member, emits⟩ :=
    Outcome.forall₂_left (definitions_inOrder options schema m emitted) t defined
  obtain ⟨isKind, named, -⟩ := emits_named options schema t d emits
  cases isKind.symm.trans gives
  exact ⟨d, member, rfl, named⟩

/-- A contract is emitted from an interface or a union, and has its name. -/
theorem contract_emitted (options : Options) (schema : Schema) (m : Module)
    (emitted : (emit options schema).outcome = .ok m) (c : ContractDef)
    (isContract : .contract c ∈ m.definitions) :
    ∃ t ∈ schema.types, c.name = contractName t.name ∧ c.schemaName = t.name ∧
      (t.kind = .interface ∧ (emitInterface options schema t).outcome = .ok c ∨
        t.kind = .union ∧ (emitUnion options schema t).outcome = .ok c) := by
  obtain ⟨t, listed, emits⟩ := (mem_definitions_iff options schema m emitted _).mp isContract
  obtain ⟨-, made⟩ := (emits_contract_iff options schema t c).mp emits
  refine ⟨t, listed, ?_⟩
  rcases made with ⟨kind, made⟩ | ⟨kind, made⟩
  · obtain ⟨_, -, -, -, -, -, named, schemaName, -⟩ := emitInterface_ok options schema t c made
    exact ⟨named, schemaName, .inl ⟨kind, made⟩⟩
  · obtain ⟨_, _, -, -, -, -, schemaName, -, named, -⟩ := emitUnion_ok options schema t c made
    exact ⟨named, schemaName, .inr ⟨kind, made⟩⟩

end GraphQLModels
