import GraphQLModels.Generation
import GraphQLModels.Proofs.ClassHeaders
import GraphQLModels.Proofs.LaidOut

/-!
# The order of generated classes

Where interfaces form no cycle and lead to interfaces that are emitted, every base that is an
interface is bound before it is used, and no class names a base twice. What is left to chance is
whether the orders of the bases and the list of the bases can be kept together: types list their
interfaces independently of each other.
-/

namespace GraphQLModels

/-! ## Interfaces of a schema -/

namespace Schema

/-- Whether an interface of the first name states one of the second. -/
def IsSubtype (schema : Schema) (child parent : String) : Prop :=
  ∃ t ∈ schema.types, t.kind = .interface ∧ nameText t.name = child ∧
    ∃ p ∈ schema.parentsOf t, nameText p.name = parent

/-- Whether the interfaces that types state form no cycle and are interfaces that are emitted. -/
structure HasHierarchy (schema : Schema) (options : Options) : Prop where
  leads : ∀ t ∈ schema.types, t.kind = .interface ∨ t.kind = .object → ∀ reference ∈ t.interfaces,
    ∃ parent, schema.resolve? reference = some parent ∧ parent.kind = .interface ∧
      options.skips parent.name = false
  acyclic : ∀ name, ¬Relation.TransGen schema.IsSubtype name name

/-- Whether the interfaces of a schema state nothing but interfaces, wherever a reference leads. -/
def StatesInterfaces (schema : Schema) : Prop :=
  ∀ t ∈ schema.types, t.kind = .interface → ∀ p ∈ schema.parentsOf t, p.kind = .interface

/-- Whether a type that states an interface also states the interfaces of that interface. -/
def IsClosed (schema : Schema) : Prop :=
  ∀ t ∈ schema.types, t.kind = .interface ∨ t.kind = .object → ∀ p ∈ schema.parentsOf t,
    ∀ q ∈ schema.parentsOf p, q ∈ schema.parentsOf t

/-- A rank that falls from an interface to those it states excludes cycles. -/
theorem acyclic_of_rank (schema : Schema) (rank : String → Nat)
    (falls : ∀ t ∈ schema.types, ∀ p ∈ schema.parentsOf t,
      rank (nameText p.name) < rank (nameText t.name)) :
    ∀ name, ¬Relation.TransGen schema.IsSubtype name name := by
  have falls' : ∀ child parent, Relation.TransGen schema.IsSubtype child parent →
      rank parent < rank child := by
    intro child parent path
    induction path with
    | single step =>
      obtain ⟨t, listed, _, rfl, p, isParent, rfl⟩ := step
      exact falls t listed p isParent
    | tail _ step ih =>
      obtain ⟨t, listed, _, rfl, p, isParent, rfl⟩ := step
      exact Nat.lt_trans (falls t listed p isParent) ih
  exact fun name cycle => absurd (falls' name name cycle) (Nat.lt_irrefl _)

theorem mem_parentsOf_kept (schema : Schema) (options : Options)
    (given : schema.HasHierarchy options) (t : SchemaType) (listed : t ∈ schema.types)
    (kind : t.kind = .interface ∨ t.kind = .object) (p : SchemaType)
    (member : p ∈ schema.parentsOf t) :
    p ∈ schema.types ∧ p.kind = .interface ∧ options.skips p.name = false := by
  obtain ⟨name, ⟨reference, isReference, named⟩, found⟩ := (schema.mem_parentsOf t p).mp member
  obtain ⟨parent, resolved, isInterface, kept⟩ := given.leads t listed kind reference isReference
  rw [resolve?, named, Option.bind_some, found] at resolved
  cases resolved
  exact ⟨(schema.find?_some name p found).2, isInterface, kept⟩

theorem HasHierarchy.statesInterfaces {schema : Schema} {options : Options}
    (given : schema.HasHierarchy options) : schema.StatesInterfaces :=
  fun t listed kind p above =>
    (schema.mem_parentsOf_kept options given t listed (.inl kind) p above).2.1

end Schema

/-! ## Emitted contracts and classes -/

section Emitted

variable (options : Options) (schema : Schema) (m : Module)

/-- The parents of an emitted interface are the interfaces that its type states. -/
theorem contract_parents (states : schema.StatesInterfaces)
    (emitted : (emit options schema).outcome = .ok m) (c : ContractDef)
    (member : .contract c ∈ m.definitions) :
    ∃ t ∈ schema.types, c.name = contractName t.name ∧
      (c.kind = .union ∧ c.parents = [] ∨ c.kind = .interface ∧ t.kind = .interface ∧
        c.parents = (schema.parentsOf t).map fun p => contractName p.name) := by
  obtain ⟨t, listed, named, -, ⟨kind, made⟩ | ⟨kind, made⟩⟩ :=
    contract_emitted options schema m emitted c member
  · obtain ⟨_, _, above, _, isInterface, -⟩ := emitInterface_ok options schema t c made
    have parents := targetNames_interfaces options _ _ (states t listed kind) above
    exact ⟨t, listed, named, .inr ⟨isInterface, kind, parents⟩⟩
  · obtain ⟨_, _, _, _, _, isUnion, _, _, _, none, -⟩ := emitUnion_ok options schema t c made
    exact ⟨t, listed, named, .inl ⟨isUnion, none⟩⟩

/-- An interface that is not skipped has its contract in the module. -/
theorem interface_emitted (emitted : (emit options schema).outcome = .ok m) (t : SchemaType)
    (listed : t ∈ schema.types) (kind : t.kind = .interface)
    (kept : options.skips t.name = false) :
    ∃ c, .contract c ∈ m.definitions ∧ c.kind = .interface ∧ c.name = contractName t.name := by
  obtain ⟨d, defined, isKind, named⟩ := definition_emitted options schema m emitted t listed kept
    .interface (by rw [kind]; rfl)
  cases d with
  | «enum» d => cases isKind
  | object d => cases isKind
  | contract c =>
    refine ⟨c, defined, ?_, Option.some.inj named⟩
    cases ofKind : c.kind with
    | interface => rfl
    | union => simp [Definition.kind, ofKind] at isKind

/-- The contracts of a module, as they are laid out. -/
def contractsOfModule (m : Module) : List ContractDef :=
  m.definitions.filterMap Definition.contract?

theorem mem_contractsOfModule (c : ContractDef) :
    c ∈ contractsOfModule m ↔ .contract c ∈ m.definitions := by
  constructor
  · intro member
    obtain ⟨d, isDefinition, same⟩ := List.mem_filterMap.mp member
    cases d with
    | contract c' =>
      cases same
      exact isDefinition
    | «enum» d => cases same
    | object d => cases same
  · intro member
    exact List.mem_filterMap.mpr ⟨_, member, rfl⟩

/-- A contract is a child of another only if its interface states that of the other. -/
theorem isSubtype_of_isChild (states : schema.StatesInterfaces)
    (emitted : (emit options schema).outcome = .ok m) (child parent : String)
    (isChild : Contract.IsChild (contractsOfModule m) child parent) :
    ∃ a b, child = "I" ++ a ∧ parent = "I" ++ b ∧ schema.IsSubtype a b := by
  obtain ⟨c, member, rfl, isParent⟩ := isChild
  obtain ⟨t, listed, named, ⟨_, none⟩ | ⟨_, kind, parents⟩⟩ :=
    contract_parents options schema m states emitted c ((mem_contractsOfModule m c).mp member)
  · rw [none] at isParent
    cases isParent
  · rw [parents] at isParent
    obtain ⟨p, above, rfl⟩ := List.mem_map.mp isParent
    exact ⟨nameText t.name, nameText p.name, named, rfl, t, listed, kind, rfl, p, above, rfl⟩

/-- The contracts of a module form no cycle. -/
theorem contracts_acyclic (states : schema.StatesInterfaces)
    (acyclic : ∀ name, ¬Relation.TransGen schema.IsSubtype name name)
    (emitted : (emit options schema).outcome = .ok m) :
    Contract.Acyclic (contractsOfModule m) := by
  -- A path between contracts is one between the interfaces that they are made from.
  have lifts : ∀ child parent, Relation.TransGen (Contract.IsChild (contractsOfModule m)) child
      parent → ∃ a b, child = "I" ++ a ∧ parent = "I" ++ b ∧
        Relation.TransGen schema.IsSubtype a b := by
    intro child parent path
    induction path with
    | single step =>
      obtain ⟨a, b, first, second, above⟩ :=
        isSubtype_of_isChild options schema m states emitted _ _ step
      exact ⟨a, b, first, second, .single above⟩
    | tail _ step ih =>
      obtain ⟨a, b, first, second, path⟩ := ih
      obtain ⟨b', c, third, fourth, above⟩ :=
        isSubtype_of_isChild options schema m states emitted _ _ step
      cases (String.append_right_inj "I").mp (second.symm.trans third)
      exact ⟨a, c, first, fourth, path.tail above⟩
  intro name cycle
  obtain ⟨a, b, first, second, path⟩ := lifts name name cycle
  cases (String.append_right_inj "I").mp (first.symm.trans second)
  exact acyclic a path

end Emitted

/-! ## Heads of a generated module -/

section Heads

/-- The ancestors by which the bases of a module's classes are thinned out. -/
def ancestorsOfModule (m : Module) : Contract.Ancestors :=
  Contract.ancestors (Contract.ordered (contractsOfModule m))

def contractHeader (m : Module) (c : ContractDef) : Model.Header where
  name := c.name
  bases := Source.contractBases (ancestorsOfModule m) c

def objectHeader (m : Module) (d : ObjectDef) : Model.Header where
  name := nameText d.name
  bases := Source.objectBases (ancestorsOfModule m) d

/-- The heads of a laid-out module are those of its contracts in their order and of its classes. -/
theorem headers_of_layOut (m : Module) (title : String) (imports : ImportTable)
    (source : Source.Module) (laidOut : Source.layOut title imports m.definitions = .ok source) :
    Model.headers source = (Contract.ordered (contractsOfModule m)).map (contractHeader m) ++
      m.objects.map (objectHeader m) := by
  have laysOut := Source.layOut_ok title imports m.definitions source laidOut
  have contractHeads := congrArg (List.map fun (name, bases) => Model.Header.mk name bases)
    laysOut.contractHeads
  have objectHeads := congrArg (List.map fun (name, bases) => Model.Header.mk (nameText name) bases)
    laysOut.objectHeads
  rw [List.map_map, List.map_map] at contractHeads objectHeads
  exact congrArg₂ (· ++ ·) contractHeads objectHeads

/-- Without hooks the heads of a module are those of its contracts in their order and of its
classes. -/
theorem headers_of_source (m : Module) (setup : Setup) (source : Source.Module)
    (plain : setup.hooks = []) (laidOut : m.source setup = .ok source) :
    Model.headers source = (Contract.ordered (contractsOfModule m)).map (contractHeader m) ++
      m.objects.map (objectHeader m) := by
  simp only [Module.source, plain] at laidOut
  exact headers_of_layOut m m.moduleName setup.imports source laidOut

theorem contractBases_nodup (ancestors : Contract.Ancestors) (c : ContractDef)
    (distinct : c.parents.Nodup) : (Source.contractBases ancestors c).Nodup := by
  have thinned := distinct.sublist (Contract.reduceBases_sublist ancestors c.parents)
  unfold Source.contractBases
  split
  · simp
  · exact thinned.map_on fun one _ other _ same => Source.Base.contract.inj same

theorem nodesCapability_kind (options : Options) (t : SchemaType) (c : Capability)
    (given : (nodesCapability options t).outcome = .ok (some c)) : c.kind = .nodes := by
  unfold nodesCapability at given
  split at given
  · simp at given
  · simp only [Report.outcome_bind, Report.outcome_lift, Report.outcome_pure,
      Outcome.bind_ok_iff] at given
    obtain ⟨name, _, same⟩ := given
    cases same
    rfl

theorem connectionCapability_kind (options : Options) (schema : Schema) (t : SchemaType)
    (c : Capability) (given : (connectionCapability options schema t).outcome = .ok (some c)) :
    c.kind ≠ .edge := by
  unfold connectionCapability at given
  split at given
  · simp [nodesCapability_kind options t c given]
  · simp only [Report.outcome_bind, Report.outcome_lift, Outcome.bind_ok_iff] at given
    obtain ⟨reference, _, given⟩ := given
    split at given
    · simp only [Report.outcome_bind, Report.outcome_lift, Report.outcome_pure,
        Outcome.bind_ok_iff] at given
      obtain ⟨_, _, _, _, same⟩ := given
      cases same
      split <;> simp
    · simp only [Report.outcome_bind, Report.outcome_warn, Outcome.ok_bind] at given
      simp [nodesCapability_kind options t c given]

theorem edgeCapability_kind (options : Options) (t : SchemaType) (c : Capability)
    (given : edgeCapability options t = .ok (some c)) : c.kind = .edge := by
  unfold edgeCapability at given
  split at given
  · cases given
  · obtain ⟨name, _, same⟩ := (Outcome.bind_ok_iff _ _ _).mp given
    cases same
    rfl

theorem capabilities_kinds (options : Options) (schema : Schema) (t : SchemaType)
    (found : List Capability) (given : (capabilities options schema t).outcome = .ok found) :
    (found.map (·.kind)).Nodup := by
  -- The capability of a connection is never that of an edge.
  obtain ⟨connection, edge, rfl, first, second⟩ := capabilities_ok options schema t found given
  have ofConnection := fun c isSome => connectionCapability_kind options schema t c (first c isSome)
  have ofEdge := fun c isSome => edgeCapability_kind options t c (second c isSome)
  cases connection with
  | none => cases edge <;> simp
  | some c =>
    cases edge with
    | none => simp
    | some e => simpa [ofEdge e rfl] using ofConnection c rfl

theorem objectBases_nodup (ancestors : Contract.Ancestors) (d : ObjectDef)
    (contracts : d.contracts.Nodup) (kinds : (d.capabilities.map (·.kind)).Nodup) :
    (Source.objectBases ancestors d).Nodup := by
  have thinned := (contracts.sublist (Contract.reduceBases_sublist ancestors d.contracts)).map_on
    (f := Source.Base.contract) fun one _ other _ same => Source.Base.contract.inj same
  have mixed : (d.capabilities.map fun c => Source.Base.capability c.kind).Nodup := by
    have split : (d.capabilities.map fun c => Source.Base.capability c.kind) =
        (d.capabilities.map (·.kind)).map Source.Base.capability := by simp
    rw [split]
    exact kinds.map_on fun one _ other _ same => Source.Base.capability.inj same
  -- Bases of the three sorts are never equal to each other.
  unfold Source.objectBases
  refine List.nodup_append.mpr ⟨List.nodup_append.mpr ⟨thinned, mixed, ?_⟩, ?_, ?_⟩
  · intro one first other second same
    obtain ⟨_, _, rfl⟩ := List.mem_map.mp first
    obtain ⟨_, _, rfl⟩ := List.mem_map.mp second
    cases same
  · split <;> simp
  · intro one first other second same
    have isModel : other = .model := by
      split at second
      · simpa using second
      · cases second
    rw [isModel] at same
    rcases List.mem_append.mp first with first | first <;>
      obtain ⟨_, _, rfl⟩ := List.mem_map.mp first <;> cases same

end Heads

/-! ## Accepted modules -/

section Accepted

variable (options : Options) (schema : Schema) (m : Module)

theorem contractName_ne_pageInfo (name : Option String) : contractName name ≠ "PageInfo" := by
  intro same
  have first := congrArg (fun s : String => s.toList.head?) same
  simp [contractName] at first

/-- Whether a name is that of the contract of an emitted interface or of some union. -/
def NamesContract (name : String) : Prop :=
  (∃ c ∈ contractsOfModule m, c.kind = .interface ∧ c.name = name) ∨
    ∃ u ∈ schema.types, u.kind = .union ∧ name = contractName u.name

theorem parent_namesContract (given : schema.HasHierarchy options)
    (emitted : (emit options schema).outcome = .ok m) (t : SchemaType) (listed : t ∈ schema.types)
    (kind : t.kind = .interface ∨ t.kind = .object) (name : String)
    (isParent : name ∈ (schema.parentsOf t).map fun p => contractName p.name) :
    NamesContract schema m name := by
  obtain ⟨p, above, rfl⟩ := List.mem_map.mp isParent
  obtain ⟨isType, isInterface, kept⟩ :=
    schema.mem_parentsOf_kept options given t listed kind p above
  obtain ⟨c, defined, kind, named⟩ :=
    interface_emitted options schema m emitted p isType isInterface kept
  exact .inl ⟨c, (mem_contractsOfModule m c).mpr defined, kind, named⟩

theorem NamesContract.isContractName (given : schema.HasHierarchy options)
    (emitted : (emit options schema).outcome = .ok m) (name : String)
    (names : NamesContract schema m name) : ∃ t : Option String, name = contractName t := by
  rcases names with ⟨c, member, _, rfl⟩ | ⟨u, _, _, same⟩
  · obtain ⟨t, _, named, _⟩ := contract_parents options schema m given.statesInterfaces emitted c
      ((mem_contractsOfModule m c).mp member)
    exact ⟨t.name, named⟩
  · exact ⟨u.name, same⟩

/-- The contracts of an emitted class are different and are those of interfaces and unions. -/
theorem object_contracts (given : schema.HasHierarchy options)
    (emitted : (emit options schema).outcome = .ok m) (d : ObjectDef)
    (member : .object d ∈ m.definitions) :
    d.contracts.Nodup ∧ (∀ name ∈ d.contracts, NamesContract schema m name) ∧
      (d.capabilities.map (·.kind)).Nodup := by
  obtain ⟨t, listed, emits⟩ := (mem_definitions_iff options schema m emitted _).mp member
  obtain ⟨kind, _, made⟩ := (emits_object_iff options schema t d).mp emits
  obtain ⟨interfaces, above, contracts, _, implied, _⟩ := emitObject_ok options schema t d made
  have named := targetNames_interfaces options (schema.parentsOf t) interfaces
    (fun p isParent => (schema.mem_parentsOf_kept options given t listed (.inr kind) p isParent).2.1)
    above
  have distinct := contractsOf_nodup schema t interfaces (named ▸ parentNames_nodup schema t)
  rw [contracts]
  refine ⟨distinct, fun name isContract => ?_, capabilities_kinds options schema t _ implied⟩
  rcases contractsOf_from schema t interfaces name isContract with isInterface | isUnion
  · rw [named] at isInterface
    exact parent_namesContract options schema m given emitted t listed (.inr kind) name isInterface
  · exact .inr isUnion

theorem mem_contractBases (ancestors : Contract.Ancestors) (c : ContractDef) (name : String)
    (member : .contract name ∈ Source.contractBases ancestors c) : name ∈ c.parents := by
  unfold Source.contractBases at member
  split at member
  · simp at member
  · obtain ⟨parent, kept, same⟩ := List.mem_map.mp member
    cases same
    exact (Contract.reduceBases_sublist ancestors c.parents).subset kept

theorem mem_objectBases (ancestors : Contract.Ancestors) (d : ObjectDef) (name : String)
    (member : .contract name ∈ Source.objectBases ancestors d) : name ∈ d.contracts := by
  rcases Source.objectBases_cases ancestors d _ member with ⟨_, isContract, same⟩ | ⟨_, same⟩ | same
  · cases same
    exact isContract
  · cases same
  · cases same

theorem mem_objects (d : ObjectDef) : d ∈ m.objects ↔ .object d ∈ m.definitions := by
  simp [Module.objects]

/-- No statement names a base twice, and its contracts are those of interfaces and unions. -/
theorem heads_distinct (setup : Setup) (source : Source.Module) (plain : setup.hooks = [])
    (laidOut : m.source setup = .ok source) (given : schema.HasHierarchy options)
    (emitted : (emit options schema).outcome = .ok m) :
    ∀ h ∈ Model.headers source, h.bases.Nodup ∧
      ∀ name, .contract name ∈ h.bases → NamesContract schema m name := by
  rw [headers_of_source m setup source plain laidOut]
  have acyclic := contracts_acyclic options schema m given.statesInterfaces given.acyclic emitted
  obtain ⟨known, _⟩ := Contract.ordered_spec _ acyclic
  intro h member
  -- A head is that of a contract, with its parents, or that of a class, with all its contracts.
  rcases List.mem_append.mp member with member | member
  · obtain ⟨c, isContract, rfl⟩ := List.mem_map.mp member
    have parents : c.parents.Nodup ∧ ∀ name ∈ c.parents, NamesContract schema m name := by
      obtain ⟨t, listed, _, ⟨_, none⟩ | ⟨_, kind, above⟩⟩ :=
        contract_parents options schema m given.statesInterfaces emitted c
          ((mem_contractsOfModule m c).mp (known c isContract))
      · simp [none]
      · rw [above]
        exact ⟨parentNames_nodup schema t,
          parent_namesContract options schema m given emitted t listed (.inl kind)⟩
    exact ⟨contractBases_nodup _ c parents.1, fun name derives =>
      parents.2 name (mem_contractBases _ c name derives)⟩
  · obtain ⟨d, isObject, rfl⟩ := List.mem_map.mp member
    obtain ⟨contracts, named, kinds⟩ := object_contracts options schema m given emitted d
      ((mem_objects m d).mp isObject)
    exact ⟨objectBases_nodup _ d contracts kinds, fun name derives =>
      named name (mem_objectBases _ d name derives)⟩

/-- The contract of an interface is bound wherever a statement derives from it. -/
theorem interface_bound (setup : Setup) (source : Source.Module) (plain : setup.hooks = [])
    (laidOut : m.source setup = .ok source) (given : schema.HasHierarchy options)
    (emitted : (emit options schema).outcome = .ok m) (before after : List Model.Header)
    (h : Model.Header) (w : Model.Walk) (split : Model.headers source = before ++ h :: after)
    (walked : Model.Walk.start.run before = some w) (name : String)
    (derives : .contract name ∈ h.bases) (c : ContractDef) (isContract : c ∈ contractsOfModule m)
    (named : c.name = name) : ∃ place, w.place? (.contract name) = some place := by
  have acyclic := contracts_acyclic options schema m given.statesInterfaces given.acyclic emitted
  obtain ⟨_, _, placed, parentsFirst⟩ := Contract.ordered_spec _ acyclic
  obtain ⟨bound, _⟩ := Model.Walk.run_binds _ w before walked
  -- It is enough that a statement for the name comes before.
  have enough : name ∈ before.map (·.name) → ∃ place, w.place? (.contract name) = some place := by
    intro early
    obtain ⟨other, member, rfl⟩ := List.mem_map.mp early
    exact bound other member
  apply enough
  have known : name ∈ Contract.names (contractsOfModule m) := named ▸ List.mem_map_of_mem isContract
  have all : ∀ rest, before = (Contract.ordered (contractsOfModule m)).map (contractHeader m) ++ rest →
      name ∈ before.map (·.name) := by
    rintro rest rfl
    obtain ⟨other, isOther, same⟩ := List.mem_map.mp ((placed name).mpr known)
    rw [List.map_append]
    refine List.mem_append_left _ (List.mem_map.mpr ⟨contractHeader m other, ?_, same⟩)
    exact List.mem_map_of_mem isOther
  rw [headers_of_source m setup source plain laidOut] at split
  rcases List.append_eq_append_iff.mp split with ⟨rest, isBefore, _⟩ | ⟨rest, contracts, isAfter⟩
  · exact all rest isBefore
  · cases rest with
    | nil => exact all [] (by simpa using contracts.symm)
    | cons first rest =>
      -- The statement is that of a contract, whose parents are placed before it.
      obtain ⟨rfl, _⟩ := List.cons.inj isAfter
      obtain ⟨early, late, ordered, rfl, others⟩ := List.map_eq_append_iff.mp contracts
      obtain ⟨own, later, rfl, rfl, _⟩ := List.map_eq_cons_iff.mp others
      have above := parentsFirst early own later ordered name
        (mem_contractBases _ own name derives) known
      obtain ⟨other, isOther, same⟩ := List.mem_map.mp above
      refine List.mem_map.mpr ⟨contractHeader m other, List.mem_map_of_mem isOther, same⟩

/-- **Accepted class statements.** Where the interfaces of a schema form no cycle and are emitted,
the statements of its contracts and classes are accepted exactly if, at each of them, the unions it
derives from are bound and the orders of its bases and their list are compatible. Loading accepts
no others and refuses none of these for want of an order. -/
theorem class_statements_accepted_iff (setup : Setup) (source : Source.Module)
    (emitted : (emit options schema).outcome = .ok m) (plain : setup.hooks = [])
    (laidOut : m.source setup = .ok source) (given : schema.HasHierarchy options) :
    ((∃ w, Model.Walk.start.run (Model.headers source) = some w) ↔
      ∀ before h after w, Model.headers source = before ++ h :: after →
        Model.Walk.start.run before = some w →
        (∀ u ∈ schema.types, u.kind = .union → .contract (contractName u.name) ∈ h.bases →
          ∃ place, w.place? (.contract (contractName u.name)) = some place) ∧
        Model.Compatible (w.ordersFor h)) ∧
      (∀ world lib, Model.load source world = .ok lib →
        ∃ w, Model.Walk.start.run (Model.headers source) = some w) ∧
      ∀ world name, Model.load source world = .error (.noOrder name) →
        Model.Walk.start.run (Model.headers source) = none := by
  have heads := heads_distinct options schema m setup source plain laidOut given emitted
  have derive : ∀ h ∈ Model.headers source, Model.MayDerive h.bases := fun h member derives => by
    obtain ⟨t, same⟩ := NamesContract.isContractName options schema m given emitted _
      ((heads h member).2 _ derives)
    exact contractName_ne_pageInfo t same.symm
  have follows := fun world => Model.load_follows_headers source world derive
  refine ⟨?_, fun world => (follows world).1, fun world => (follows world).2⟩
  rw [Model.Walk.run_isSome_iff _ Model.Walk.start_isSound _ fun h member => (heads h member).1]
  constructor
  · intro each before h after w split walked
    obtain ⟨bound, compatible⟩ := each before h after w split walked
    exact ⟨fun u _ _ derives => bound _ derives, compatible⟩
  · intro each before h after w split walked
    obtain ⟨unions, compatible⟩ := each before h after w split walked
    refine ⟨fun base isBase => ?_, compatible⟩
    cases base with
    | model => exact ⟨_, rfl⟩
    | capability kind => exact ⟨_, rfl⟩
    | contract name =>
      have member : h ∈ Model.headers source := by simp [split]
      rcases (heads h member).2 name isBase with ⟨c, isContract, _, named⟩ | ⟨u, listed, kind, rfl⟩
      · exact interface_bound options schema m setup source plain laidOut given emitted before after
          h w split walked name isBase c isContract named
      · exact unions u listed kind isBase

end Accepted

/-! ## Interfaces that are listed in two orders -/

/-- A type that states interfaces. -/
def statingType (kind : TypeKind) (name : String) (interfaces : List String) : SchemaType where
  kind
  name := some name
  interfaces := interfaces.map fun interface => { kind := .interface, name := some interface }

/-- Two interfaces that two others state in different orders, and a class with all of them. -/
def meetingSchema : Schema where
  types := [
    statingType .interface "Node" [], statingType .interface "Timed" [],
    statingType .interface "Post" ["Node", "Timed"],
    statingType .interface "Event" ["Timed", "Node"],
    statingType .object "Meeting" ["Post", "Event", "Node", "Timed"]]

def meetingOptions : Options := { moduleName := "meetings" }

/-- The contract of an interface without fields. -/
def bareContract (name : String) (parents : List String) : ContractDef where
  kind := .interface
  name := contractName name
  schemaName := name
  fields := []
  parents

def meetingModule : Module where
  moduleName := "meetings"
  definitions := [
    .contract (bareContract "Node" []), .contract (bareContract "Timed" []),
    .contract (bareContract "Post" ["INode", "ITimed"]),
    .contract (bareContract "Event" ["ITimed", "INode"]),
    .object {
      name := some "Meeting", schemaName := some "Meeting", fields := []
      contracts := ["IPost", "IEvent", "INode", "ITimed"] }]

theorem meetingModule_emitted :
    (emit meetingOptions meetingSchema).outcome = .ok meetingModule := rfl

/-- The class of a contract without fields. -/
def bareContractClass (name : String) (bases : List Source.Base) : Source.ContractClass where
  name
  bases
  description := none
  implementers := []
  attributes := []
  accessors := []

def meetingSource : Source.Module where
  title := "meetings"
  imports := []
  enums := []
  contracts := [
    bareContractClass "INode" [.model], bareContractClass "ITimed" [.model],
    bareContractClass "IPost" [.contract "INode", .contract "ITimed"],
    bareContractClass "IEvent" [.contract "ITimed", .contract "INode"]]
  objects := [{
    name := some "Meeting", schemaName := some "Meeting"
    bases := [.contract "IPost", .contract "IEvent"]
    description := none, classVariables := [], attributes := [] }]
  aliases := [
    ⟨"INodeValue", .one "INode"⟩, ⟨"ITimedValue", .one "ITimed"⟩, ⟨"IPostValue", .one "IPost"⟩,
    ⟨"IEventValue", .one "IEvent"⟩]

theorem meetingSource_laidOut : meetingModule.source {} = .ok meetingSource :=
  source_of_sorted _ _ _ rfl rfl

theorem meeting_refused : Model.Walk.start.run (Model.headers meetingSource) = none := by
  rfl

theorem meeting_unordered : Model.load meetingSource = .error (.noOrder "Meeting") := by
  rfl

theorem meetingSchema_hasHierarchy : meetingSchema.HasHierarchy meetingOptions where
  leads := by
    have resolved : ∀ t ∈ meetingSchema.types, ∀ reference ∈ t.interfaces,
        (meetingSchema.resolve? reference).any (fun parent =>
          parent.kind == .interface && !meetingOptions.skips parent.name) = true := by
      decide
    intro t listed _ reference isReference
    have known := resolved t listed reference isReference
    cases found : meetingSchema.resolve? reference with
    | none => simp [found] at known
    | some parent => exact ⟨parent, rfl, by simpa [found] using known⟩
  acyclic := Schema.acyclic_of_rank meetingSchema
    (fun name => if name = "Meeting" then 2 else if name = "Post" ∨ name = "Event" then 1 else 0)
    (by decide)

theorem meetingSchema_isClosed : meetingSchema.IsClosed := by
  have stated : ∀ t ∈ meetingSchema.types, ∀ p ∈ meetingSchema.parentsOf t,
      ∀ reference ∈ p.interfaces, ∃ own ∈ t.interfaces, own.name = reference.name := by
    decide
  intro t listed _ p isParent q above
  obtain ⟨name, ⟨reference, isReference, named⟩, found⟩ := (meetingSchema.mem_parentsOf p q).mp above
  obtain ⟨own, isOwn, same⟩ := stated t listed p isParent reference isReference
  exact (meetingSchema.mem_parentsOf t q).mpr ⟨name, ⟨own, isOwn, same.trans named⟩, found⟩

/-- Which statement of the meetings is refused. -/
theorem class_statements_accepted_iff_meeting :
    ¬∀ before h after w, Model.headers meetingSource = before ++ h :: after →
      Model.Walk.start.run before = some w →
      (∀ u ∈ meetingSchema.types, u.kind = .union → .contract (contractName u.name) ∈ h.bases →
        ∃ place, w.place? (.contract (contractName u.name)) = some place) ∧
      Model.Compatible (w.ordersFor h) := by
  intro each
  obtain ⟨accepted, _⟩ := class_statements_accepted_iff meetingOptions meetingSchema meetingModule {}
    meetingSource meetingModule_emitted rfl meetingSource_laidOut meetingSchema_hasHierarchy
  obtain ⟨w, walked⟩ := accepted.mpr each
  cases meeting_refused.symm.trans walked

/-- Interfaces that form no cycle and are all stated may still give a class that has no order, and a
module that cannot be loaded. -/
theorem class_statements_may_be_refused :
    ¬∀ (options : Options) (schema : Schema) (m : Module) (setup : Setup) (source : Source.Module),
      (emit options schema).outcome = .ok m → setup.hooks = [] → m.source setup = .ok source →
      schema.HasHierarchy options → schema.IsClosed →
      (∃ w, Model.Walk.start.run (Model.headers source) = some w) ∨
        ∀ name, Model.load source ≠ .error (.noOrder name) := by
  intro accepts
  rcases accepts meetingOptions meetingSchema meetingModule {} meetingSource meetingModule_emitted
    rfl meetingSource_laidOut meetingSchema_hasHierarchy meetingSchema_isClosed with
    ⟨w, walked⟩ | loads
  · cases meeting_refused.symm.trans walked
  · exact loads "Meeting" meeting_unordered

end GraphQLModels
