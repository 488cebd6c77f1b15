import GraphQLModels.Proofs.ClassOrder
import GraphQLModels.Proofs.UnionMembership

/-!
# What the contracts of interfaces leave to their parents

The contract of an interface leaves out the fields that the types of its parents declare, and with
any parent at all it leaves out its accessors. A parent may leave the same things out in turn. But
interfaces that form no cycle end in one without parents, so whatever is left out is found on some
contract above.
-/

namespace GraphQLModels

namespace Schema

/-! ## Layered interfaces -/

/-- Whether references of interfaces lead to types of one kind, if they lead anywhere. -/
def InterfacesLeadTo (schema : Schema) (references : SchemaType → List SchemaType)
    (kind : TypeKind) : Prop :=
  ∀ t ∈ schema.types, t.kind = .interface → ∀ reference ∈ references t, ∀ full,
    schema.resolve? reference = some full → full.kind = kind

/-- Whether types have different names, and interfaces are emitted, form no cycle, and state nothing
but interfaces and names that are not in the table. -/
structure IsLayered (schema : Schema) (options : Options) : Prop where
  isNamed : schema.IsNamed
  kept : ∀ t ∈ schema.types, t.kind = .interface → options.skips t.name = false
  leads : schema.InterfacesLeadTo (·.interfaces) .interface
  acyclic : ∀ name, ¬Relation.TransGen schema.IsSubtype name name

section

variable {schema : Schema} {options : Options} (layered : schema.IsLayered options)

include layered

theorem IsLayered.parent (t : SchemaType) (listed : t ∈ schema.types) (kind : t.kind = .interface)
    (p : SchemaType) (above : p ∈ schema.parentsOf t) : p ∈ schema.types ∧ p.kind = .interface := by
  obtain ⟨name, -, found⟩ := (schema.mem_parentsOf t p).mp above
  obtain ⟨reference, isReference, resolved⟩ := schema.resolve?_of_mem_parentsOf t p above
  exact ⟨(schema.find?_some name p found).2, layered.leads t listed kind reference isReference p
    resolved⟩

theorem IsLayered.statesInterfaces : schema.StatesInterfaces :=
  fun t listed kind p above => (layered.parent t listed kind p above).2

/-- A fact can be proved of an interface from the same fact of the interfaces that it states. -/
theorem IsLayered.wellFounded : WellFounded fun p t : SchemaType =>
    t ∈ schema.types ∧ t.kind = .interface ∧ p ∈ schema.parentsOf t := by
  apply wellFounded_of_acyclic _ schema.types
  · exact fun _ _ step => step.1
  · intro t cycle
    -- A cycle of interfaces would be one of their names.
    apply layered.acyclic (nameText t.name)
    apply Relation.transGen_swap.mp
    apply Relation.TransGen.lift (fun t : SchemaType => nameText t.name) _ _ _ cycle
    rintro p u ⟨listed, kind, above⟩
    exact ⟨u, listed, kind, rfl, p, above, rfl⟩

end

end Schema

/-! ## Contracts of interfaces -/

section Contracts

variable {options : Options} {schema : Schema} {m : Module}
  (emitted : (emit options schema).outcome = .ok m) (layered : schema.IsLayered options)
  (t : SchemaType) (listed : t ∈ schema.types) (kind : t.kind = .interface)

include emitted layered listed kind

/-- The contract of an interface is the one of its name. -/
theorem interface_of_name (c : ContractDef) (isContract : .contract c ∈ m.definitions)
    (named : c.name = contractName t.name) : (emitInterface options schema t).outcome = .ok c := by
  obtain ⟨u, isType, named', -, made⟩ := contract_emitted options schema m emitted c isContract
  cases layered.isNamed.unique u t isType listed
    ((contractName_inj _ _).mp (named'.symm.trans named))
  rcases made with ⟨-, made⟩ | ⟨union, -⟩
  · exact made
  · rw [kind] at union
    cases union

theorem interface_of_schemaName (c : ContractDef) (isContract : .contract c ∈ m.definitions)
    (named : c.schemaName = t.name) : (emitInterface options schema t).outcome = .ok c := by
  apply interface_of_name emitted layered t listed kind c isContract
  obtain ⟨u, -, isName, schemaName, -⟩ := contract_emitted options schema m emitted c isContract
  rw [isName, ← schemaName, named]

theorem exists_interface : ∃ c, .contract c ∈ m.definitions ∧ c.kind = .interface ∧
    c.name = contractName t.name ∧ c.schemaName = t.name ∧
    (emitInterface options schema t).outcome = .ok c := by
  obtain ⟨c, isContract, isInterface, named⟩ :=
    interface_emitted options schema m emitted t listed kind (layered.kept t listed kind)
  have made := interface_of_name emitted layered t listed kind c isContract named
  obtain ⟨_, -, -, -, -, -, -, schemaName, -⟩ := emitInterface_ok options schema t c made
  exact ⟨c, isContract, isInterface, named, schemaName, made⟩

/-- The parents of the contract of an interface are the contracts of the interfaces it states. -/
theorem isChild_iff (name : String) :
    Contract.IsChild (contractsOfModule m) (contractName t.name) name ↔
      ∃ p ∈ schema.parentsOf t, contractName p.name = name := by
  have parents : ∀ c, (emitInterface options schema t).outcome = .ok c →
      c.parents = (schema.parentsOf t).map fun p => contractName p.name := by
    intro c made
    obtain ⟨_, -, above, -⟩ := emitInterface_ok options schema t c made
    exact targetNames_interfaces options _ _ (layered.statesInterfaces t listed kind) above
  constructor
  · rintro ⟨c, isContract, named, isParent⟩
    have made := interface_of_name emitted layered t listed kind c
      ((mem_contractsOfModule m c).mp isContract) named
    rw [parents c made] at isParent
    exact List.mem_map.mp isParent
  · intro above
    obtain ⟨c, isContract, -, named, -, made⟩ := exists_interface emitted layered t listed kind
    refine ⟨c, (mem_contractsOfModule m c).mpr isContract, named, ?_⟩
    rw [parents c made]
    exact List.mem_map.mpr above

/-- What each interface has on its contract, or hands on to an interface that it states, is found on
some contract that is reached from its own. -/
theorem exists_above (holds : SchemaType → Prop) (found : ContractDef → Prop)
    (step : ∀ t ∈ schema.types, t.kind = .interface → holds t → ∀ c,
      (emitInterface options schema t).outcome = .ok c →
      found c ∨ ∃ p ∈ schema.parentsOf t, holds p)
    (given : holds t) :
    ∃ d, .contract d ∈ m.definitions ∧ Relation.ReflTransGen
      (Contract.IsChild (contractsOfModule m)) (contractName t.name) d.name ∧ found d := by
  induction t using layered.wellFounded.induction with
  | _ t ih =>
    obtain ⟨c, isContract, -, named, -, made⟩ := exists_interface emitted layered t listed kind
    rcases step t listed kind given c made with here | ⟨p, above, handed⟩
    · exact ⟨c, isContract, by rw [named], here⟩
    · obtain ⟨isType, isInterface⟩ := layered.parent t listed kind p above
      obtain ⟨d, isAbove, path, there⟩ := ih p ⟨listed, kind, above⟩ isType isInterface handed
      have up := (isChild_iff emitted layered t listed kind _).mpr ⟨p, above, rfl⟩
      exact ⟨d, isAbove, .head up path, there⟩

end Contracts

/-! ## Fields -/

theorem mem_ownFields (t : SchemaType) (parents : List SchemaType) (field : SchemaField) :
    field ∈ ownFields t parents ↔
      field ∈ t.fields ∧ ∀ p ∈ parents, ∀ other ∈ p.fields, other.name ≠ field.name := by
  simp [ownFields, inheritedNames]

/-- Whether a generated field shows a field of a type, to be read only. -/
structure Field.Shows (options : Options) (t : SchemaType) (f : Field) (source : SchemaField) :
    Prop where
  name : f.name = source.name
  type : source.type.resolve options t.name source.name = .ok f.type
  description : f.description = source.description
  isDeprecated : f.isDeprecated = source.isDeprecated
  deprecationReason : f.deprecationReason = cleanReason source.deprecationReason
  readOnly : f.readOnly = true

theorem emitField_shows (options : Options) (t : SchemaType) (f : Field) (source : SchemaField)
    (given : emitField options t.name true source = .ok f) : f.Shows options t source := by
  obtain ⟨type, resolved, made⟩ := (Outcome.bind_ok_iff _ _ _).mp given
  cases made
  exact ⟨rfl, resolved, rfl, rfl, rfl, rfl⟩

/-- Whether interfaces have fields of all the names of the interfaces that they state. -/
def Schema.RepeatsFields (schema : Schema) : Prop :=
  ∀ t ∈ schema.types, t.kind = .interface → ∀ p ∈ schema.parentsOf t, ∀ field ∈ p.fields,
    ∃ own ∈ t.fields, own.name = field.name

/-- How the contract of an interface shares the fields with those above it: each is on a contract
that is reached from it; its own are fields of the interface in their order, and no parent has one
of their names; and where interfaces repeat the fields of others, no contract above it has one. -/
structure Module.SharesFields (m : Module) (options : Options) (schema : Schema) (t : SchemaType)
    (c : ContractDef) : Prop where
  covered : ∀ source ∈ t.fields, ∃ d, .contract d ∈ m.definitions ∧
    Relation.ReflTransGen (Contract.IsChild (contractsOfModule m)) c.name d.name ∧
    source.name ∈ d.fields.map (·.name)
  own : ∃ sources, sources.Sublist t.fields ∧ List.Forall₂ (Field.Shows options t) c.fields sources
  apart : ∀ p ∈ schema.parentsOf t, ∀ source ∈ p.fields, ∀ f ∈ c.fields, f.name ≠ source.name
  once : schema.RepeatsFields → ∀ d, .contract d ∈ m.definitions →
    Relation.TransGen (Contract.IsChild (contractsOfModule m)) c.name d.name →
    ∀ g ∈ d.fields, ∀ f ∈ c.fields, f.name ≠ g.name

section Fields

variable {options : Options} {schema : Schema} {m : Module}

/-- The fields on the contract of an interface are those that no parent has. -/
theorem interface_fields (t : SchemaType) (c : ContractDef)
    (made : (emitInterface options schema t).outcome = .ok c) :
    List.Forall₂ (Field.Shows options t) c.fields (ownFields t (schema.parentsOf t)) := by
  obtain ⟨_, fields, -⟩ := emitInterface_ok options schema t c made
  have related := (Outcome.mapM_ok_iff _ _ _).mp fields
  exact (related.imp fun source f given => emitField_shows options t f source given).flip

theorem interface_field (t : SchemaType) (c : ContractDef)
    (made : (emitInterface options schema t).outcome = .ok c) (f : Field) (isField : f ∈ c.fields) :
    ∃ source ∈ ownFields t (schema.parentsOf t), f.name = source.name := by
  obtain ⟨source, isOwn, shows⟩ := Outcome.forall₂_left (interface_fields t c made) f isField
  exact ⟨source, isOwn, shows.name⟩

variable (emitted : (emit options schema).outcome = .ok m) (layered : schema.IsLayered options)
  (t : SchemaType) (listed : t ∈ schema.types) (kind : t.kind = .interface)

include emitted layered listed kind

/-- A field of an interface is on its contract or on one above. -/
theorem field_above (source : SchemaField) (isField : source ∈ t.fields) :
    ∃ d, .contract d ∈ m.definitions ∧ Relation.ReflTransGen
      (Contract.IsChild (contractsOfModule m)) (contractName t.name) d.name ∧
      source.name ∈ d.fields.map (·.name) := by
  apply exists_above emitted layered t listed kind
    (fun u => ∃ field ∈ u.fields, field.name = source.name)
    (fun d => source.name ∈ d.fields.map (·.name)) _ ⟨source, isField, rfl⟩
  rintro u - - ⟨field, isField, same⟩ c made
  by_cases inherited : ∃ p ∈ schema.parentsOf u, ∃ other ∈ p.fields, other.name = source.name
  · exact .inr inherited
  · left
    have isOwn : field ∈ ownFields u (schema.parentsOf u) := by
      rw [mem_ownFields, same]
      refine ⟨isField, fun p above other isOther named => ?_⟩
      exact inherited ⟨p, above, other, isOther, named⟩
    obtain ⟨f, isShown, shows⟩ := Outcome.forall₂_right (interface_fields u c made) field isOwn
    exact List.mem_map.mpr ⟨f, isShown, shows.name.trans same⟩

/-- Where interfaces repeat the fields of others, an interface has all fields of contracts above. -/
theorem has_fields_above (repeats : schema.RepeatsFields) (d : ContractDef)
    (isContract : .contract d ∈ m.definitions)
    (path : Relation.ReflTransGen (Contract.IsChild (contractsOfModule m)) (contractName t.name)
      d.name) (f : Field) (isField : f ∈ d.fields) : ∃ own ∈ t.fields, own.name = f.name := by
  induction t using layered.wellFounded.induction with
  | _ t ih =>
    rcases path.cases_head with same | ⟨next, isChild, above⟩
    · have made := interface_of_name emitted layered t listed kind d isContract same.symm
      obtain ⟨source, isOwn, named⟩ := interface_field t d made f isField
      exact ⟨source, ((mem_ownFields _ _ _).mp isOwn).1, named.symm⟩
    · obtain ⟨p, isParent, rfl⟩ := (isChild_iff emitted layered t listed kind next).mp isChild
      obtain ⟨isType, isInterface⟩ := layered.parent t listed kind p isParent
      obtain ⟨other, isOther, named⟩ := ih p ⟨listed, kind, isParent⟩ isType isInterface above
      obtain ⟨own, isOwn, same⟩ := repeats t listed kind p isParent other isOther
      exact ⟨own, isOwn, same.trans named⟩

theorem interface_sharesFields (c : ContractDef) (named : c.name = contractName t.name)
    (made : (emitInterface options schema t).outcome = .ok c) :
    m.SharesFields options schema t c := by
  have apart : ∀ p ∈ schema.parentsOf t, ∀ source ∈ p.fields, ∀ f ∈ c.fields,
      f.name ≠ source.name := by
    intro p above source isSource f isField same
    obtain ⟨own, isOwn, shows⟩ := interface_field t c made f isField
    exact ((mem_ownFields _ _ _).mp isOwn).2 p above source isSource (same.symm.trans shows)
  constructor
  case covered =>
    rw [named]
    exact field_above emitted layered t listed kind
  case own =>
    exact ⟨ownFields t (schema.parentsOf t), List.filter_sublist, interface_fields t c made⟩
  case apart => exact apart
  case once =>
    intro repeats d isContract path g isField f isOwn
    rw [named] at path
    obtain ⟨next, isChild, above⟩ := Relation.TransGen.head'_iff.mp path
    obtain ⟨p, isParent, rfl⟩ := (isChild_iff emitted layered t listed kind next).mp isChild
    obtain ⟨isType, isInterface⟩ := layered.parent t listed kind p isParent
    -- The parent has a field of this name, and what a parent has is left out.
    obtain ⟨source, isSource, same⟩ :=
      has_fields_above emitted layered p isType isInterface repeats d isContract above g isField
    rw [← same]
    exact apart p isParent source isSource f isOwn

end Fields

/-- **No field of an interface is lost.** Where interfaces are emitted and form no cycle, each has a
contract of its name. Every field name of the interface is on that contract or on one above it. The
contract has only fields of the interface, in order and to be read only, and none of a parent. -/
theorem interface_fields_kept (options : Options) (schema : Schema) (m : Module)
    (layered : schema.IsLayered options) (emitted : (emit options schema).outcome = .ok m)
    (t : SchemaType) (listed : t ∈ schema.types) (kind : t.kind = .interface) :
    (∃ c, .contract c ∈ m.definitions ∧ c.schemaName = t.name) ∧
      ∀ c, .contract c ∈ m.definitions → c.schemaName = t.name →
        m.SharesFields options schema t c := by
  constructor
  · obtain ⟨c, isContract, -, -, schemaName, -⟩ := exists_interface emitted layered t listed kind
    exact ⟨c, isContract, schemaName⟩
  · intro c isContract schemaName
    have made := interface_of_schemaName emitted layered t listed kind c isContract schemaName
    obtain ⟨_, -, -, -, -, -, named, -⟩ := emitInterface_ok options schema t c made
    exact interface_sharesFields emitted layered t listed kind c named made

/-! ## Concerts -/

/-- An interface of concerts with fields of text. -/
def concertInterface (name : String) (fields interfaces : List String) : SchemaType where
  kind := .interface
  name := some name
  fields := fields.map fun field =>
    { name := some field, type := { kind := .scalar, name := some "String" } }
  interfaces := interfaces.map fun interface => { kind := .interface, name := some interface }
  possibleTypes := [objectNamed "Concert"]

/-- Events state two interfaces that state a third, one of them twice, and one that is not there. -/
def concertSchema : Schema where
  types := [
    concertInterface "Node" ["id"] [], concertInterface "Timed" ["id", "at"] ["Node"],
    concertInterface "Named" ["name", "id"] ["Node"],
    concertInterface "Event" ["at", "place", "id", "name"] ["Timed", "Lost", "Named", "Timed"],
    statingType .object "Concert" ["Event", "Timed", "Named", "Node"]]

def concertOptions : Options := { moduleName := "concerts" }

/-- The contract of an interface of concerts. -/
def concertContract (name : String) (fields parents accessors : List String) : ContractDef where
  kind := .interface
  name := contractName name
  schemaName := name
  fields := fields.map fun field =>
    { name := some field, type := .named (some "str") .scalar, readOnly := true }
  parents
  possibleTypes := [("Concert", "Concert")]
  accessors

def concertModule : Module where
  moduleName := "concerts"
  definitions := [
    .contract (concertContract "Node" ["id"] [] ["Concert"]),
    .contract (concertContract "Timed" ["at"] ["INode"] []),
    .contract (concertContract "Named" ["name"] ["INode"] []),
    .contract (concertContract "Event" ["place"] ["ITimed", "INamed"] []),
    .object {
      name := some "Concert", schemaName := some "Concert", fields := []
      contracts := ["IEvent", "ITimed", "INamed", "INode"] }]

theorem concertModule_emitted :
    (emit concertOptions concertSchema).outcome = .ok concertModule := rfl

theorem concertSchema_isLayered : concertSchema.IsLayered concertOptions where
  isNamed := ⟨by simp [concertSchema, concertInterface, statingType], by decide⟩
  kept := by decide
  leads := by
    have leads : ∀ t ∈ concertSchema.types, ∀ reference ∈ t.interfaces,
        (concertSchema.resolve? reference).all fun full => full.kind == .interface := by
      decide
    intro t listed _ reference isReference full found
    simpa [found] using leads t listed reference isReference
  acyclic := Schema.acyclic_of_rank concertSchema
    (fun name => if name = "Concert" then 3 else if name = "Event" then 2
      else if name = "Node" then 0 else 1)
    (by decide)

/-- The contract of an event leaves all but the place to those above it. -/
theorem interface_fields_kept_event :
    (∃ d, .contract d ∈ concertModule.definitions ∧ Relation.ReflTransGen
      (Contract.IsChild (contractsOfModule concertModule)) "IEvent" d.name ∧
      some "id" ∈ d.fields.map (·.name)) ∧
    ∀ d, .contract d ∈ concertModule.definitions → Relation.TransGen
      (Contract.IsChild (contractsOfModule concertModule)) "IEvent" d.name →
      ∀ g ∈ d.fields, some "place" ≠ g.name := by
  obtain ⟨-, each⟩ := interface_fields_kept concertOptions concertSchema concertModule
    concertSchema_isLayered concertModule_emitted
    (concertInterface "Event" ["at", "place", "id", "name"] ["Timed", "Lost", "Named", "Timed"])
    (by simp [concertSchema]) rfl
  have shares := each (concertContract "Event" ["place"] ["ITimed", "INamed"] []) (by decide) rfl
  constructor
  · exact shares.covered { name := some "id", type := { kind := .scalar, name := some "String" } }
      (by simp [concertInterface])
  · intro d isContract path g isField
    have repeats : concertSchema.RepeatsFields := by
      unfold Schema.RepeatsFields
      decide
    exact shares.once repeats d isContract path g isField
      { name := some "place", type := .named (some "str") .scalar, readOnly := true } (by decide)

/-! ## Accessors -/

/-- Whether whatever implements an interface implements the interfaces that it states. -/
def Schema.SharesMembers (schema : Schema) : Prop :=
  ∀ t ∈ schema.types, t.kind = .interface → ∀ p ∈ schema.parentsOf t, ∀ member ∈ schema.membersOf t,
    member ∈ schema.membersOf p

/-- Whether a contract has each implementer once, and accessors for all of them or for none. -/
structure ContractDef.NarrowsOnce (c : ContractDef) : Prop where
  implementers : (c.possibleTypes.map (·.1)).Nodup
  accessors : c.accessors = [] ∨ c.accessors = c.possibleTypes.map (·.2)

/-- The implementers of a contract are the members of its type, under their target names. -/
theorem contract_implementers (options : Options) (schema : Schema) (m : Module)
    (emitted : (emit options schema).outcome = .ok m) (c : ContractDef)
    (isContract : .contract c ∈ m.definitions) :
    ∃ t ∈ schema.types, c.name = contractName t.name ∧ c.schemaName = t.name ∧
      c.possibleTypes.map (·.1) = schema.knownNames t.possibleTypes ∧
      targetNames options (schema.membersOf t) = .ok (c.possibleTypes.map (·.2)) ∧
      ((c.kind = .interface ∧ t.kind = .interface ∧ c.accessors =
        if (schema.parentsOf t).isEmpty then c.possibleTypes.map (·.2) else []) ∨
        c.kind = .union ∧ t.kind = .union ∧ c.accessors = c.possibleTypes.map (·.2)) := by
  obtain ⟨t, listed, named, schemaName, ⟨kind, made⟩ | ⟨kind, made⟩⟩ :=
    contract_emitted options schema m emitted c isContract
  · obtain ⟨targets, -, -, members, isInterface, possible, -, -, accessors⟩ :=
      emitInterface_ok options schema t c made
    obtain ⟨keys, values⟩ := discriminatorMap_membersOf options schema t targets members
    rw [possible, keys, values]
    exact ⟨t, listed, named, schemaName, rfl, members, .inl ⟨isInterface, kind, accessors⟩⟩
  · obtain ⟨_, targets, -, -, members, isUnion, -, possible, -, -, accessors⟩ :=
      emitUnion_ok options schema t c made
    obtain ⟨keys, values⟩ := discriminatorMap_membersOf options schema t targets members
    rw [possible, keys, values]
    exact ⟨t, listed, named, schemaName, rfl, members, .inr ⟨isUnion, kind, accessors⟩⟩

/-- A contract has each implementer once, and if they are all objects then each accessor as well. -/
theorem contract_narrowsOnce (options : Options) (schema : Schema) (m : Module)
    (emitted : (emit options schema).outcome = .ok m) (c : ContractDef)
    (isContract : .contract c ∈ m.definitions) :
    c.NarrowsOnce ∧ ((∀ t ∈ schema.types, t.name = c.schemaName →
      ∀ member ∈ schema.membersOf t, member.kind = .object) → c.accessors.Nodup) := by
  obtain ⟨t, listed, -, schemaName, keys, members, kinds⟩ :=
    contract_implementers options schema m emitted c isContract
  have accessors : c.accessors = [] ∨ c.accessors = c.possibleTypes.map (·.2) := by
    rcases kinds with ⟨-, -, same⟩ | ⟨-, -, same⟩
    · by_cases alone : (schema.parentsOf t).isEmpty = true
      · exact .inr (same.trans (if_pos alone))
      · exact .inl (same.trans (if_neg alone))
    · exact .inr same
  refine ⟨⟨keys ▸ schema.knownNames_nodup t.possibleTypes, accessors⟩, fun objects => ?_⟩
  have values := targetNames_objects options schema t _ (objects t listed schemaName.symm) members
  rcases accessors with none | all
  · rw [none]
    exact List.nodup_nil
  · rw [all, values]
    exact schema.knownNames_nodup t.possibleTypes

section Narrowing

variable {options : Options} {schema : Schema} {m : Module}
  (emitted : (emit options schema).outcome = .ok m) (layered : schema.IsLayered options)
  (objects : schema.InterfacesLeadTo (·.possibleTypes) .object) (shares : schema.SharesMembers)

include objects

theorem interface_members (t : SchemaType) (listed : t ∈ schema.types)
    (kind : t.kind = .interface) : ∀ member ∈ schema.membersOf t, member.kind = .object := by
  intro member isMember
  obtain ⟨reference, isReference, found⟩ := schema.resolve?_of_mem_membersOf t member isMember
  exact objects t listed kind reference isReference member found

include emitted layered shares

/-- Whatever implements an interface is an accessor of its contract or of one above. -/
theorem accessor_above (t : SchemaType) (listed : t ∈ schema.types) (kind : t.kind = .interface)
    (name : String) (known : name ∈ schema.knownNames t.possibleTypes) :
    ∃ d, .contract d ∈ m.definitions ∧ Relation.ReflTransGen
      (Contract.IsChild (contractsOfModule m)) (contractName t.name) d.name ∧
      name ∈ d.accessors := by
  apply exists_above emitted layered t listed kind
    (fun u => name ∈ schema.knownNames u.possibleTypes) (fun d => name ∈ d.accessors) _ known
  intro u isType isInterface isKnown c made
  obtain ⟨targets, -, -, members, -, -, -, -, accessors⟩ := emitInterface_ok options schema u c made
  have values := targetNames_objects options schema u targets
    (interface_members objects u isType isInterface) members
  cases parents : schema.parentsOf u with
  | nil =>
    left
    rw [accessors, parents, List.isEmpty_nil, if_pos rfl, values]
    exact isKnown
  | cons p rest =>
    -- Any parent will do: what implements the interface implements all of them.
    have above : p ∈ schema.parentsOf u := parents ▸ List.mem_cons_self
    refine .inr ⟨p, List.mem_cons_self, ?_⟩
    rw [← nameTexts_membersOf] at isKnown ⊢
    obtain ⟨member, isMember, rfl⟩ := List.mem_map.mp isKnown
    exact List.mem_map_of_mem (shares u isType isInterface p above member isMember)

end Narrowing

/-- **Narrowing reaches every implementer.** Where interfaces are emitted and form no cycle, have
objects as their implementers and share them with the interfaces that they state, each implementer
of the contract of an interface is an accessor of that contract or of one above it. A contract, also
that of a union, lists no implementer twice and none that is not its own: implementers are told apart
by their schema names, and accessors are the target names of all of them in order, or there are none.
The target names are different as well, unless a union has members that are not objects. -/
theorem narrowing_covered (options : Options) (schema : Schema) (m : Module)
    (layered : schema.IsLayered options)
    (objects : schema.InterfacesLeadTo (·.possibleTypes) .object) (shares : schema.SharesMembers)
    (emitted : (emit options schema).outcome = .ok m) :
    (∀ k, .contract k ∈ m.definitions → k.kind = .interface → k.accessors.Nodup ∧
      ∀ entry ∈ k.possibleTypes, ∃ d, .contract d ∈ m.definitions ∧
        Relation.ReflTransGen (Contract.IsChild (contractsOfModule m)) k.name d.name ∧
        entry.2 ∈ d.accessors) ∧
    ∀ c, .contract c ∈ m.definitions → c.NarrowsOnce ∧
      ((∀ t ∈ schema.types, t.name = c.schemaName →
        ∀ member ∈ schema.membersOf t, member.kind = .object) → c.accessors.Nodup) := by
  have once := contract_narrowsOnce options schema m emitted
  refine ⟨fun k isContract isInterface => ?_, once⟩
  obtain ⟨t, listed, named, schemaName, -, members, ⟨-, kind, -⟩ | ⟨isUnion, -⟩⟩ :=
    contract_implementers options schema m emitted k isContract
  · have areObjects := interface_members objects t listed kind
    constructor
    · apply (once k isContract).2
      intro u isType same
      -- No other type has the name that the contract was emitted from.
      cases layered.isNamed.unique u t isType listed (by rw [same, schemaName])
      exact areObjects
    · intro entry isEntry
      rw [named]
      apply accessor_above emitted layered objects shares t listed kind
      rw [← targetNames_objects options schema t _ areObjects members]
      exact List.mem_map_of_mem isEntry
  · rw [isInterface] at isUnion
    cases isUnion

theorem concertSchema_sharesMembers : concertSchema.SharesMembers := by
  have listed : ∀ t ∈ concertSchema.types, ∀ p ∈ concertSchema.parentsOf t,
      ∀ reference ∈ t.possibleTypes, ∃ own ∈ p.possibleTypes, own.name = reference.name := by
    decide
  intro t isType _ p above member isMember
  obtain ⟨name, ⟨reference, isReference, named⟩, found⟩ :=
    (concertSchema.mem_membersOf t member).mp isMember
  obtain ⟨own, isOwn, same⟩ := listed t isType p above reference isReference
  exact (concertSchema.mem_membersOf p member).mpr ⟨name, ⟨own, isOwn, same.trans named⟩, found⟩

/-- An event is narrowed to a concert by a contract above its own. -/
theorem narrowing_covered_event :
    ∃ d, .contract d ∈ concertModule.definitions ∧ Relation.ReflTransGen
      (Contract.IsChild (contractsOfModule concertModule)) "IEvent" d.name ∧
      "Concert" ∈ d.accessors := by
  have objects : concertSchema.InterfacesLeadTo (·.possibleTypes) .object := by
    have leads : ∀ t ∈ concertSchema.types, ∀ reference ∈ t.possibleTypes,
        (concertSchema.resolve? reference).all fun full => full.kind == .object := by
      decide
    intro t listed _ reference isReference full found
    simpa [found] using leads t listed reference isReference
  obtain ⟨covered, -⟩ := narrowing_covered concertOptions concertSchema concertModule
    concertSchema_isLayered objects concertSchema_sharesMembers concertModule_emitted
  obtain ⟨-, narrows⟩ :=
    covered (concertContract "Event" ["place"] ["ITimed", "INamed"] []) (by decide) rfl
  exact narrows ("Concert", "Concert") (by decide)

/-- A union of two scalars that have one target. -/
def keySchema : Schema where
  types := [
    { kind := .union, name := "Key"
      possibleTypes := [{ kind := .scalar, name := "String" }, { kind := .scalar, name := "ID" }] },
    { kind := .scalar, name := "String" },
    { kind := .scalar, name := "ID" }]

def keyModule : Module where
  moduleName := "concerts"
  definitions := [.contract {
    kind := .union, name := "IKey", schemaName := some "Key", fields := []
    possibleTypes := [("String", "str"), ("ID", "str")], accessors := ["str", "str"] }]

/-- The accessors of a union need not be different: two of its members may have one target. -/
theorem accessor_may_repeat :
    ¬∀ (options : Options) (schema : Schema) (m : Module), schema.IsLayered options →
      schema.InterfacesLeadTo (·.possibleTypes) .object → schema.SharesMembers →
      (emit options schema).outcome = .ok m →
      ∀ c, .contract c ∈ m.definitions → c.accessors.Nodup := by
  intro once
  have noInterface : ∀ t ∈ keySchema.types, t.kind ≠ .interface := by
    decide
  have layered : keySchema.IsLayered concertOptions := {
    isNamed := ⟨by simp [keySchema], by decide⟩
    kept := by decide
    leads := fun t listed kind => absurd kind (noInterface t listed)
    acyclic := Schema.acyclic_of_rank keySchema (fun _ => 0) (by decide) }
  have repeated := once concertOptions keySchema keyModule layered
    (fun t listed kind => absurd kind (noInterface t listed))
    (fun t listed kind => absurd kind (noInterface t listed)) rfl _ List.mem_cons_self
  exact absurd repeated (by decide)

end GraphQLModels
