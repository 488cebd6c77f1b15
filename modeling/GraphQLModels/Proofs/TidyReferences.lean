import GraphQLModels.Proofs.References

/-!
# Malformed references

A reference that has no name, that names nothing in the table, or that repeats an earlier one is
reported and has no other effect. To tidy a schema is to remove such references from every list;
emission then gives what it gave before, with the warnings about references left out.
-/

namespace GraphQLModels

/-! ## Reports without the warnings about references -/

/-- Whether a warning is about a reference that was dropped. -/
def Warning.isReference : Warning → Bool
  | .repeatedReference _ _ _ | .unknownReference _ _ _ => true
  | .repeatedType _ | .edgeWithoutNode _ _ => false

namespace Report

variable {ε α β : Type}

/-- The report without its warnings about references. -/
def quiet (r : Report ε α) : Report ε α :=
  { r with warnings := r.warnings.filter fun w => !w.isReference }

@[simp] theorem quiet_pure (a : α) : (pure a : Report ε α).quiet = pure a := rfl

@[simp] theorem quiet_throw (e : ε) : (throw e : Report ε α).quiet = throw e := rfl

@[simp] theorem quiet_lift (x : Except ε α) :
    (liftM x : Report ε α).quiet = (liftM x : Report ε α) := rfl

@[simp] theorem quiet_tell (e : Event) : (tell e : Report ε Unit).quiet = tell e := rfl

@[simp] theorem quiet_warn_edgeWithoutNode (connection edge : String) :
    (warn (.edgeWithoutNode connection edge) : Report ε Unit).quiet =
      warn (.edgeWithoutNode connection edge) := rfl

@[simp] theorem quiet_bind (r : Report ε α) (f : α → Report ε β) :
    (r >>= f).quiet = r.quiet >>= fun a => (f a).quiet := by
  rcases r with ⟨warnings, events, outcome⟩
  cases outcome with
  | error e => rfl
  | ok a => simp [bind, andThen, quiet]

@[simp] theorem quiet_map (f : α → β) (r : Report ε α) : (f <$> r).quiet = f <$> r.quiet := by
  rw [map_eq_pure_bind, map_eq_pure_bind, quiet_bind]
  rfl

@[simp] theorem quiet_mapM (f : α → Report ε β) (xs : List α) :
    (xs.mapM f).quiet = xs.mapM fun x => (f x).quiet := by
  induction xs with
  | nil => rfl
  | cons x xs ih =>
    rw [List.mapM_cons, List.mapM_cons, quiet_bind]
    simp only [quiet_bind, ih, quiet_pure]

@[simp] theorem quiet_ite (condition : Prop) [Decidable condition] (r s : Report ε α) :
    (if condition then r else s).quiet = if condition then r.quiet else s.quiet :=
  apply_ite quiet condition r s

@[simp] theorem lift_map (f : α → β) (x : Except ε α) :
    (liftM (f <$> x) : Report ε β) = f <$> (liftM x : Report ε α) := by
  cases x <;> rfl

end Report

/-! ## Tidy schemas -/

namespace Schema

/-- The references that are kept after those whose names are seen: those to a table entry that
repeat no earlier one. -/
def keptFrom (schema : Schema) (seen : List String) : List SchemaType → List SchemaType
  | [] => []
  | reference :: rest =>
    match reference.name with
    | some name =>
      if (schema.find? name).isSome && !seen.contains name then
        reference :: schema.keptFrom (name :: seen) rest
      else schema.keptFrom seen rest
    | none => schema.keptFrom seen rest

mutual

/-- A type or a reference with every list of references in it reduced to those that are kept. -/
def tidy (schema : Schema) : SchemaType → SchemaType
  | ⟨kind, name, description, fields, interfaces, possibleTypes, enumValues, ofType⟩ =>
    { kind, name, description, fields := schema.tidyFields fields
      interfaces := schema.keptFrom [] (schema.tidyAll interfaces)
      possibleTypes := schema.keptFrom [] (schema.tidyAll possibleTypes)
      enumValues, ofType := schema.tidyInner ofType }
termination_by structural t => t

def tidyField (schema : Schema) : SchemaField → SchemaField
  | ⟨name, type, description, isDeprecated, deprecationReason⟩ =>
    ⟨name, schema.tidy type, description, isDeprecated, deprecationReason⟩
termination_by structural field => field

def tidyFields (schema : Schema) : List SchemaField → List SchemaField
  | [] => []
  | field :: rest => schema.tidyField field :: schema.tidyFields rest
termination_by structural fields => fields

def tidyAll (schema : Schema) : List SchemaType → List SchemaType
  | [] => []
  | t :: rest => schema.tidy t :: schema.tidyAll rest
termination_by structural types => types

def tidyInner (schema : Schema) : Option SchemaType → Option SchemaType
  | none => none
  | some t => some (schema.tidy t)
termination_by structural inner => inner

end

/-- The schema whose lists hold each reference to a table entry once and no others. -/
def tidied (schema : Schema) : Schema := ⟨schema.types.map schema.tidy⟩

variable (schema : Schema)

theorem tidyFields_eq (fields : List SchemaField) :
    schema.tidyFields fields = fields.map schema.tidyField := by
  induction fields with
  | nil => rfl
  | cons field rest ih => rw [tidyFields, ih, List.map_cons]

theorem tidyAll_eq (types : List SchemaType) : schema.tidyAll types = types.map schema.tidy := by
  induction types with
  | nil => rfl
  | cons t rest ih => rw [tidyAll, ih, List.map_cons]

@[simp] theorem tidy_kind (t : SchemaType) : (schema.tidy t).kind = t.kind := by
  cases t; rfl

@[simp] theorem tidy_name (t : SchemaType) : (schema.tidy t).name = t.name := by
  cases t; rfl

@[simp] theorem tidy_description (t : SchemaType) :
    (schema.tidy t).description = t.description := by
  cases t; rfl

@[simp] theorem tidy_enumValues (t : SchemaType) :
    (schema.tidy t).enumValues = t.enumValues := by
  cases t; rfl

@[simp] theorem tidy_fields (t : SchemaType) :
    (schema.tidy t).fields = t.fields.map schema.tidyField := by
  rw [← tidyFields_eq]
  cases t; rfl

@[simp] theorem tidy_ofType (t : SchemaType) :
    (schema.tidy t).ofType = t.ofType.map schema.tidy := by
  rcases t with ⟨_, _, _, _, _, _, _, ofType⟩
  cases ofType <;> rfl

@[simp] theorem tidyField_name (field : SchemaField) :
    (schema.tidyField field).name = field.name := by
  cases field; rfl

@[simp] theorem tidyField_type (field : SchemaField) :
    (schema.tidyField field).type = schema.tidy field.type := by
  cases field; rfl

/-- What is kept of a list does not depend on what is inside its references. -/
theorem keptFrom_map (seen : List String) (references : List SchemaType) :
    schema.keptFrom seen (references.map schema.tidy) =
      (schema.keptFrom seen references).map schema.tidy := by
  induction references generalizing seen with
  | nil => rfl
  | cons reference rest ih =>
    rw [List.map_cons, keptFrom, keptFrom, tidy_name]
    cases reference.name with
    | none => exact ih seen
    | some name =>
      dsimp only
      split
      · rw [ih, List.map_cons]
      · exact ih seen

@[simp] theorem tidy_interfaces (t : SchemaType) :
    (schema.tidy t).interfaces = (schema.keptFrom [] t.interfaces).map schema.tidy := by
  rw [← keptFrom_map, ← tidyAll_eq]
  cases t; rfl

@[simp] theorem tidy_possibleTypes (t : SchemaType) :
    (schema.tidy t).possibleTypes = (schema.keptFrom [] t.possibleTypes).map schema.tidy := by
  rw [← keptFrom_map, ← tidyAll_eq]
  cases t; rfl

/-- Which names are among the references that are kept. -/
theorem mem_keptFrom (seen : List String) (references : List SchemaType) (name : String) :
    (∃ reference ∈ schema.keptFrom seen references, reference.name = some name) ↔
      name ∉ seen ∧ (schema.find? name).isSome ∧
        ∃ reference ∈ references, reference.name = some name := by
  -- What has been seen grows by the name of each reference that is kept.
  induction references generalizing seen with
  | nil => simp [keptFrom]
  | cons reference rest ih =>
    rw [keptFrom]
    cases named : reference.name with
    | none => simp [ih, named]
    | some other =>
      dsimp only
      by_cases kept : (schema.find? other).isSome && !seen.contains other
      · have ⟨known, fresh⟩ : (schema.find? other).isSome ∧ other ∉ seen := by simpa using kept
        rw [if_pos kept, List.exists_mem_cons_iff, List.exists_mem_cons_iff, ih, named]
        by_cases same : other = name
        · subst same
          simp [known, fresh]
        · simp [same, Ne.symm same]
      · rw [if_neg kept, List.exists_mem_cons_iff, ih, named]
        have dropped : (schema.find? other).isSome → other ∈ seen := by simpa using kept
        constructor
        · rintro ⟨fresh, known, among⟩
          exact ⟨fresh, known, .inr among⟩
        · rintro ⟨fresh, known, same | among⟩
          · cases same
            exact absurd (dropped known) fresh
          · exact ⟨fresh, known, among⟩

/-! ## References in a tidy schema -/

theorem find?_tidied (name : String) :
    schema.tidied.find? name = (schema.find? name).map schema.tidy := by
  simp only [tidied, find?, List.find?_map, Function.comp_def, tidy_name]

@[simp] theorem resolve?_tidied (reference : SchemaType) :
    schema.tidied.resolve? (schema.tidy reference) =
      (schema.resolve? reference).map schema.tidy := by
  rw [resolve?, resolve?, tidy_name]
  cases reference.name with
  | none => rfl
  | some name => exact schema.find?_tidied name

/-- The references that are kept lead to the same entries as the whole list, without a warning. -/
theorem resolveFrom_tidied (owner : Option String) (relation : Relation) (seen : List String)
    (references : List SchemaType) :
    schema.tidied.resolveFrom owner relation seen
        ((schema.keptFrom seen references).map schema.tidy) =
      ([], (schema.resolveFrom owner relation seen references).2.map schema.tidy) := by
  induction references generalizing seen with
  | nil => rfl
  | cons reference rest ih =>
    rw [keptFrom, resolveFrom_cons, resolve?]
    cases named : reference.name with
    | none => exact ih seen
    | some name =>
      rw [Option.bind_some]
      cases found : schema.find? name with
      | none => simpa [found] using ih seen
      | some full =>
        by_cases old : name ∈ seen
        · simpa [found, old] using ih seen
        · have resolved : schema.tidied.resolve? (schema.tidy reference) =
              some (schema.tidy full) := by
            rw [resolve?_tidied, resolve?, named, Option.bind_some, found, Option.map_some]
          simp [resolveFrom, resolved, named, found, old, ih]

/-- All warnings that references give are about references. -/
theorem resolveFrom_warnings (owner : Option String) (relation : Relation) (seen : List String)
    (references : List SchemaType) :
    ∀ w ∈ (schema.resolveFrom owner relation seen references).1, w.isReference = true := by
  induction references generalizing seen with
  | nil => simp [resolveFrom]
  | cons reference rest ih =>
    rw [resolveFrom]
    split
    · split
      · exact List.forall_mem_cons.mpr ⟨rfl, ih seen⟩
      · exact ih _
    · exact List.forall_mem_cons.mpr ⟨rfl, ih seen⟩

/-- A list of references gives the same types in a tidy schema, and no warning. -/
theorem resolveReferences_tidied {ε : Type} (owner : Option String) (relation : Relation)
    (references : List SchemaType) :
    (schema.tidied.resolveReferences owner relation
        ((schema.keptFrom [] references).map schema.tidy) : Report ε _) =
      List.map schema.tidy <$> (schema.resolveReferences owner relation references).quiet := by
  have silent : (schema.resolveFrom owner relation [] references).1.filter
      (fun w => !w.isReference) = [] := by
    apply List.filter_eq_nil_iff.mpr
    intro w warned
    simp [schema.resolveFrom_warnings owner relation [] references w warned]
  simp only [resolveReferences, resolveFrom_tidied, Report.quiet, silent]
  rfl

@[simp] theorem interfacesOf_tidied {ε : Type} (t : SchemaType) :
    (schema.tidied.interfacesOf (schema.tidy t) : Report ε _) =
      List.map schema.tidy <$> (schema.interfacesOf t).quiet := by
  rw [interfacesOf, tidy_interfaces, tidy_name, resolveReferences_tidied]
  rfl

@[simp] theorem possibleTypesOf_tidied {ε : Type} (t : SchemaType) :
    (schema.tidied.possibleTypesOf (schema.tidy t) : Report ε _) =
      List.map schema.tidy <$> (schema.possibleTypesOf t).quiet := by
  rw [possibleTypesOf, tidy_possibleTypes, tidy_name, resolveReferences_tidied]
  rfl

/-- A type of the table belongs to the same unions, since no reference to it is lost. -/
theorem unionsOf_tidied (name : String) (known : (schema.find? name).isSome) :
    schema.tidied.unionsOf name = (schema.unionsOf name).map schema.tidy := by
  have kinds : schema.tidied.ofKind .union = (schema.ofKind .union).map schema.tidy := by
    simp only [ofKind, tidied, List.filter_map, Function.comp_def, tidy_kind]
  rw [unionsOf, unionsOf, kinds, List.filter_map]
  congr 1
  apply List.filter_congr
  intro union _
  rw [Bool.eq_iff_iff]
  have kept := schema.mem_keptFrom [] union.possibleTypes name
  simpa [known] using kept

end Schema

/-! ## Fields in a tidy schema -/

variable (options : Options) (schema : Schema)

namespace SchemaType

@[simp] theorem typeName_tidy (t : SchemaType) (type field : Option String) :
    options.typeName (schema.tidy t) type field = options.typeName t type field := by
  simp only [Options.typeName, Schema.tidy_kind, Schema.tidy_name]

@[simp] theorem plainTypeName_tidy (t : SchemaType) :
    options.plainTypeName (schema.tidy t) = options.plainTypeName t :=
  typeName_tidy options schema t none none

@[simp] theorem resolve_tidy (type field : Option String) (t : SchemaType) :
    (schema.tidy t).resolve options type field = t.resolve options type field := by
  induction t using unwrapping with
  | named t kind =>
    have kind' : (schema.tidy t).kind.isWrapper = false := by rw [Schema.tidy_kind, kind]
    rw [resolve_named options type field t kind, resolve_named options type field _ kind',
      Schema.tidy_kind, typeName_tidy]
  | opened t kind nothing =>
    rcases t with ⟨k, _, _, _, _, _, _, ofType⟩
    cases nothing
    rcases (isWrapper_iff k).mp kind with rfl | rfl <;> rfl
  | wrapped t inner kind wraps ih =>
    have wraps' : (schema.tidy t).ofType = some (schema.tidy inner) := by
      rw [Schema.tidy_ofType, wraps, Option.map_some]
    have kind' := schema.tidy_kind t
    rcases (isWrapper_iff t.kind).mp kind with nonNull | list
    · rw [resolve_nonNull options _ _ t inner nonNull wraps,
        resolve_nonNull options _ _ _ _ (kind'.trans nonNull) wraps', ih]
    · rw [resolve_list options _ _ t inner list wraps,
        resolve_list options _ _ _ _ (kind'.trans list) wraps', ih]

@[simp] theorem namedType_tidy (t : SchemaType) :
    (schema.tidy t).namedType = schema.tidy <$> t.namedType := by
  induction t using unwrapping with
  | named t kind =>
    rcases t with ⟨k, name, _, _, _, _, _, ofType⟩
    cases name with
    | some name => rfl
    | none =>
      cases ofType with
      | none => rfl
      | some inner =>
        simp only [namedType, Schema.tidy, Schema.tidyInner]
        rw [if_neg (Bool.eq_false_iff.mp kind), if_neg (Bool.eq_false_iff.mp kind)]
        rfl
  | opened t kind nothing =>
    rcases t with ⟨k, name, _, _, _, _, _, ofType⟩
    cases nothing
    cases name <;> rfl
  | wrapped t inner kind wraps ih =>
    have wraps' : (schema.tidy t).ofType = some (schema.tidy inner) := by
      rw [Schema.tidy_ofType, wraps, Option.map_some]
    have name' := schema.tidy_name t
    cases named : t.name with
    | some name =>
      rw [namedType_of_name t name named,
        namedType_of_name (schema.tidy t) name (name'.trans named)]
      rfl
    | none =>
      have kind' : (schema.tidy t).kind.isWrapper = true := by rw [Schema.tidy_kind, kind]
      rw [namedType_of_wrapper t inner kind named wraps,
        namedType_of_wrapper (schema.tidy t) _ kind' (name'.trans named) wraps', ih]

@[simp] theorem field?_tidy (t : SchemaType) (name : String) :
    (schema.tidy t).field? name = (t.field? name).map schema.tidyField := by
  simp only [field?, Schema.tidy_fields, List.find?_map, Function.comp_def, Schema.tidyField_name]

@[simp] theorem hasField_tidy (t : SchemaType) (name : String) :
    (schema.tidy t).hasField name = t.hasField name := by
  rw [hasField, field?_tidy, Option.isSome_map]
  rfl

end SchemaType

@[simp] theorem emitField_tidyField (type : Option String) (readOnly : Bool)
    (field : SchemaField) :
    emitField options type readOnly (schema.tidyField field) =
      emitField options type readOnly field := by
  rcases field with ⟨name, fieldType, _, _, _⟩
  simp only [emitField, Schema.tidyField, SchemaType.resolve_tidy]

@[simp] theorem emitFields_map_tidyField (type : Option String) (readOnly : Bool)
    (fields : List SchemaField) :
    emitFields options type readOnly (fields.map schema.tidyField) =
      emitFields options type readOnly fields := by
  simp only [emitFields, List.mapM_map, Function.comp_def, emitField_tidyField]

@[simp] theorem fieldKey_tidyField (field : SchemaField) :
    fieldKey options (schema.tidyField field) = fieldKey options field := by
  simp [fieldKey, SchemaType.resolvedName]

/-- A field with its key, tidied. -/
def tidyEntry (entry : FieldKey × SchemaField) : FieldKey × SchemaField :=
  (entry.1, schema.tidyField entry.2)

@[simp] theorem tidyEntry_fst (entry : FieldKey × SchemaField) :
    (tidyEntry schema entry).1 = entry.1 := rfl

@[simp] theorem tidyEntry_snd (entry : FieldKey × SchemaField) :
    (tidyEntry schema entry).2 = schema.tidyField entry.2 := rfl

theorem keyedFields_map_tidyField (fields : List SchemaField) :
    keyedFields options (fields.map schema.tidyField) =
      List.map (tidyEntry schema) <$> keyedFields options fields := by
  induction fields with
  | nil => rfl
  | cons field rest ih =>
    simp only [keyedFields, List.map_cons, List.mapM_cons, fieldKey_tidyField] at ih ⊢
    rw [ih]
    simp [tidyEntry]

theorem firstByKey_map_tidyEntry (seen : List FieldKey) (entries : List (FieldKey × SchemaField)) :
    firstByKey seen (entries.map (tidyEntry schema)) =
      (firstByKey seen entries).map (tidyEntry schema) := by
  induction entries generalizing seen with
  | nil => rfl
  | cons entry rest ih =>
    rcases entry with ⟨key, field⟩
    rw [List.map_cons, firstByKey, tidyEntry, firstByKey]
    by_cases old : seen.contains key
    · rw [if_pos old, if_pos old, ih]
    · rw [if_neg old, if_neg old, ih]
      rfl

theorem sharedWith_map_tidy (shared : List (FieldKey × SchemaField)) (types : List SchemaType) :
    sharedWith options (shared.map (tidyEntry schema)) (types.map schema.tidy) =
      List.map (tidyEntry schema) <$> sharedWith options shared types := by
  induction types generalizing shared with
  | nil => rfl
  | cons t rest ih =>
    -- The keys of the further type are the same, and so is what is kept of the shared fields.
    have kept (keys : List FieldKey) :
        (shared.map (tidyEntry schema)).filter (fun entry => keys.contains entry.1) =
          (shared.filter fun entry => keys.contains entry.1).map (tidyEntry schema) :=
      List.filter_map
    simp only [List.map_cons, sharedWith, Schema.tidy_fields, keyedFields_map_tidyField,
      bind_map_left, map_bind, List.map_map, Function.comp_def, tidyEntry_fst, kept, ih]

theorem commonFields_map_tidy (types : List SchemaType) :
    commonFields options (types.map schema.tidy) =
      List.map schema.tidyField <$> commonFields options types := by
  cases types with
  | nil => rfl
  | cons first rest =>
    simp only [List.map_cons, commonFields, Schema.tidy_fields, keyedFields_map_tidyField,
      bind_map_left, map_bind, firstByKey_map_tidyEntry, sharedWith_map_tidy, List.map_map,
      Function.comp_def, tidyEntry_snd, map_pure]

theorem ownFields_tidy (t : SchemaType) (parents : List SchemaType) :
    ownFields (schema.tidy t) (parents.map schema.tidy) =
      (ownFields t parents).map schema.tidyField := by
  have inherited : inheritedNames (parents.map schema.tidy) = inheritedNames parents := by
    simp only [inheritedNames, List.flatMap_map, Schema.tidy_fields, List.map_map,
      Function.comp_def, Schema.tidyField_name]
  simp only [ownFields, inherited, Schema.tidy_fields, List.filter_map, Function.comp_def,
    Schema.tidyField_name]

@[simp] theorem targetNames_map_tidy (types : List SchemaType) :
    targetNames options (types.map schema.tidy) = targetNames options types := by
  simp only [targetNames, List.mapM_map, Function.comp_def, SchemaType.plainTypeName_tidy]

@[simp] theorem discriminatorMap_map_tidy (types : List SchemaType) (targets : List String) :
    discriminatorMap (types.map schema.tidy) targets = discriminatorMap types targets := by
  simp only [discriminatorMap, List.map_map, Function.comp_def, Schema.tidy_name]

/-! ## Capabilities in a tidy schema -/

@[simp] theorem nodeName_tidyField (field : SchemaField) :
    nodeName options (schema.tidyField field) = nodeName options field := by
  simp only [nodeName, Schema.tidyField_type, SchemaType.namedType_tidy, bind_map_left,
    SchemaType.plainTypeName_tidy]

theorem nodesCapability_tidy (t : SchemaType) :
    nodesCapability options (schema.tidy t) = (nodesCapability options t).quiet := by
  rw [nodesCapability, nodesCapability, SchemaType.field?_tidy]
  cases t.field? "nodes" with
  | none => simp
  | some nodes => simp

theorem connectionCapability_tidied (t : SchemaType) :
    connectionCapability options schema.tidied (schema.tidy t) =
      (connectionCapability options schema t).quiet := by
  rw [connectionCapability, connectionCapability, SchemaType.field?_tidy]
  cases t.field? "edges" with
  | none => exact nodesCapability_tidy options schema t
  | some edges =>
    simp only [Option.map_some, Schema.tidyField_type, SchemaType.namedType_tidy, Report.lift_map,
      bind_map_left, Report.quiet_bind, Report.quiet_lift, Schema.resolve?_tidied]
    congr 1
    funext reference
    -- The edge type is found under the same name, and has a node if it had one.
    cases schema.resolve? reference with
    | none => simp [nodesCapability_tidy]
    | some edge =>
      cases node : edge.field? "node" with
      | none => simp [node, nodesCapability_tidy]
      | some node => simp [node]

theorem edgeCapability_tidy (t : SchemaType) :
    edgeCapability options (schema.tidy t) = edgeCapability options t := by
  rw [edgeCapability, edgeCapability, SchemaType.field?_tidy]
  cases t.field? "node" with
  | none => rfl
  | some node => simp

theorem capabilities_tidied (t : SchemaType) :
    capabilities options schema.tidied (schema.tidy t) =
      (capabilities options schema t).quiet := by
  simp only [capabilities, connectionCapability_tidied, edgeCapability_tidy, Schema.tidy_name]
  split <;> split <;> simp

/-! ## Definitions of a tidy schema -/

theorem emitUnion_tidied (t : SchemaType) :
    emitUnion options schema.tidied (schema.tidy t) = (emitUnion options schema t).quiet := by
  simp [emitUnion, commonFields_map_tidy]

theorem emitInterface_tidied (t : SchemaType) :
    emitInterface options schema.tidied (schema.tidy t) =
      (emitInterface options schema t).quiet := by
  simp [emitInterface, ownFields_tidy]

/-- The class of a table entry. The name of an entry is in the table, so no union loses it. -/
theorem emitObject_tidied (t : SchemaType) (listed : t ∈ schema.types) :
    emitObject options schema.tidied (schema.tidy t) = (emitObject options schema t).quiet := by
  have unions : (t.name.map schema.tidied.unionsOf).getD [] =
      ((t.name.map schema.unionsOf).getD []).map schema.tidy := by
    cases named : t.name with
    | none => rfl
    | some name => exact schema.unionsOf_tidied name (schema.find?_isSome t listed name named)
  simp [emitObject, capabilities_tidied, Schema.unions_of_name, unions, List.foldl_map]

theorem emitType_tidied (t : SchemaType) (listed : t ∈ schema.types) :
    emitType options schema.tidied (schema.tidy t) = (emitType options schema t).quiet := by
  unfold emitType
  rw [Schema.tidy_kind, Schema.tidy_name]
  cases t.kind with
  | scalar | inputObject => rfl
  | enum => simp [emitEnum]
  | object => simp [emitObject_tidied options schema t listed]
  | interface => simp [emitInterface_tidied]
  | union => simp [emitUnion_tidied]
  | list | nonNull => simp

theorem emitNext_tidied (t : SchemaType) (listed : t ∈ schema.types) :
    emitNext options schema.tidied (schema.tidy t) = (emitNext options schema t).quiet := by
  simp only [emitNext, emitType_tidied options schema t listed, Report.quiet_bind]
  congr 1
  funext definition
  cases definition <;> simp

/-- Emission of a tidy schema is emission of the schema without the warnings about references. -/
theorem emit_tidied : emit options schema.tidied = (emit options schema).quiet := by
  have each : schema.tidied.types.mapM (emitNext options schema.tidied) =
      (schema.types.mapM (emitNext options schema)).quiet := by
    rw [Schema.tidied, List.mapM_map, Report.quiet_mapM]
    exact Outcome.mapM_congr _ _ _ (emitNext_tidied options schema)
  simp [emit, each]

/-- **Malformed references are harmless.** A schema whose references without a name, to unknown types
and to types that are listed already have been removed from every list is emitted to the same outcome
with the same events. Its warnings are those of the schema as it was, save that none is about a
reference. -/
theorem malformed_references_harmless :
    (emit options schema.tidied).outcome = (emit options schema).outcome ∧
      (emit options schema.tidied).events = (emit options schema).events ∧
      (emit options schema.tidied).warnings =
        (emit options schema).warnings.filter (fun w => !w.isReference) ∧
      ∀ w ∈ (emit options schema.tidied).warnings, w.isReference = false := by
  rw [emit_tidied]
  refine ⟨rfl, rfl, rfl, ?_⟩
  intro w warned
  have kept := (List.mem_filter.mp warned).2
  simpa using kept

end GraphQLModels
