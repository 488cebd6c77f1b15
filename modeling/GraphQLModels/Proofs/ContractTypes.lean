import GraphQLModels.Proofs.Dispatch

/-!
# The type of a contract

The type of the values of a contract is decided twice: its alias is written with the names of the
possible types and means what these mean where it stands, and the class of the contract keeps the
same names and looks them up when a document is read. Both come to the same type, unless a possible
type is null, which counts as unknown when it is looked up.
-/

namespace GraphQLModels.Model

/-! ## Types of contracts -/

/-- The type of the values of a contract: what one name means, or a choice between several things
that are told by a field. -/
inductive ContractType where
  | one (binding : Binding)
  | tagged (discriminator : String) (members : List Binding)
deriving DecidableEq, Repr

/-- Whether a type is made from names: the only one, or a choice that is told by the mark of the
schema type. Without names it is what stands there alone. -/
inductive ContractType.IsMade (Means : String → Binding → Prop) (alone : Binding) :
    List String → ContractType → Prop
  | none : IsMade Means alone [] (.one alone)
  | single (name : String) (binding : Binding) (means : Means name binding) :
    IsMade Means alone [name] (.one binding)
  | several (first second : String) (rest : List String) (members : List Binding)
    (mean : List.Forall₂ Means (first :: second :: rest) members) :
    IsMade Means alone (first :: second :: rest) (.tagged typenameField members)

namespace ContractType

/-- Names that mean as much in another way make the same type. -/
theorem IsMade.imp {Means Means' : String → Binding → Prop} {alone : Binding} {names : List String}
    {type : ContractType} (made : IsMade Means alone names type)
    (also : ∀ name ∈ names, ∀ binding, Means name binding → Means' name binding) :
    IsMade Means' alone names type := by
  cases made with
  | none => exact .none
  | single name binding means => exact .single name binding (also name (by simp) binding means)
  | several first second rest members mean =>
    refine .several first second rest members ?_
    exact ((List.forall₂_and_left _ _).mpr ⟨also, mean⟩).imp fun _ _ both => both.1 _ both.2

/-- Names that make the same type in two ways mean the same in both. -/
theorem IsMade.both {Means Means' : String → Binding → Prop} {alone alone' : Binding}
    {names : List String} {type : ContractType} (made : IsMade Means alone names type)
    (made' : IsMade Means' alone' names type) :
    ∀ name ∈ names, ∃ binding, Means name binding ∧ Means' name binding := by
  cases made with
  | none => exact fun _ member => absurd member List.not_mem_nil
  | single name binding means =>
    cases made' with
    | single _ _ means' => exact List.forall_mem_singleton.mpr ⟨binding, means, means'⟩
  | several first second rest members mean =>
    cases made' with
    | several _ _ _ _ mean' => exact Outcome.forall₂_both mean mean'

/-- The place of the class that a name is bound to, if it is bound to one. -/
def placeOf? : Binding → Option Nat
  | .cls place => some place
  | _ => none

/-- What the alias of a contract with a type is bound to. -/
def binding : ContractType → Binding
  | .one binding => binding
  | .tagged _ members => (((members.map placeOf?).mapM id).map Binding.choice).getD .mixture

end ContractType

/-! ## Types of aliases -/

/-- Whether the value of an alias means a type. -/
inductive AliasMeans (Means : String → Binding → Prop) : Source.AliasValue → ContractType → Prop
  | one (name : String) (binding : Binding) (means : Means name binding) :
    AliasMeans Means (.one name) (.one binding)
  | tagged (names : List String) (members : List Binding) (mean : List.Forall₂ Means names members) :
    AliasMeans Means (.tagged names) (.tagged typenameField members)

/-- The place in an alias is that of the class to which its name is bound, if it is bound to one. -/
theorem aliasPlace_ok (s : Loading) (name : String) (place : Option Nat)
    (given : aliasPlace s name = .ok place) :
    ∃ binding, s.binding? name = some binding ∧ ContractType.placeOf? binding = place := by
  unfold aliasPlace at given
  cases found : s.binding? name with
  | none => simp [found] at given
  | some binding =>
    refine ⟨binding, rfl, ?_⟩
    rw [found] at given
    cases binding <;> cases given <;> rfl

/-- An alias is bound to the type that its value means where it stands. -/
theorem loadAlias_means (s s' : Loading) (a : Source.Alias) (given : loadAlias s a = .ok s') :
    ∃ type, AliasMeans (fun name binding => s.binding? name = some binding) a.value type ∧
      s' = s.bind a.name type.binding := by
  obtain ⟨_, value⟩ := a
  cases value with
  | one name =>
    unfold loadAlias at given
    cases found : s.binding? name with
    | none => simp [found] at given
    | some binding =>
      refine ⟨_, .one name binding found, ?_⟩
      simp only [found, Except.ok.injEq] at given
      exact given.symm
  | tagged names =>
    obtain ⟨places, placed, given⟩ := (Outcome.bind_ok_iff _ _ _).mp given
    cases given
    obtain ⟨members, mean, same⟩ := Outcome.forall₂_between
      (((Outcome.mapM_ok_iff _ _ _).mp placed).imp fun name place => aliasPlace_ok s name place)
    refine ⟨_, .tagged names members mean, ?_⟩
    have classes : members.map ContractType.placeOf? = places := by
      rw [← List.forall₂_eq_eq_eq, List.forall₂_map_left_iff]
      exact same
    rw [ContractType.binding, classes]

/-! ## Types that are looked up -/

namespace Library

/-- What a name means in the end, in the module or among the built-in names. -/
def meaning? (lib : Library) (name : String) : Option Binding :=
  (lib.binding? name).orElse fun _ => builtinBinding? name

/-- The type of documents for the class at a place, by the possible types that the class itself
names. -/
def contractType (lib : Library) (place : Nat) : Except Failure ContractType :=
  match ((lib.class? place).bind (·.implementers)).getD [] with
  | [] => .ok (.one (.cls place))
  | [name] => (lib.resolve place name).map .one
  | names => (names.mapM (lib.resolve place)).map (.tagged typenameField)

/-- The shape of the values of a type. -/
def shapeOfType (lib : Library) : ContractType → Except Failure Shape
  | .one binding => lib.boundShape binding
  | .tagged _ members => do lib.choiceShape (← members.mapM placeOf)

/-- The shape of documents for a model is that of their type. -/
theorem documentShape_eq (lib : Library) (place : Nat) (model : lib.isModel place = true) :
    lib.documentShape place = lib.contractType place >>= lib.shapeOfType := by
  unfold documentShape contractType
  generalize ((lib.class? place).bind (·.implementers)).getD [] = names
  match names with
  | [] =>
    dsimp only
    rw [Outcome.ok_bind, shapeOfType, boundShape, if_pos model]
    rfl
  | [name] =>
    dsimp only
    cases lib.resolve place name <;> rfl
  | first :: second :: rest =>
    dsimp only
    cases (first :: second :: rest).mapM (lib.resolve place) <;> rfl

theorem contractType_ok_iff (lib : Library) (place : Nat) (type : ContractType) :
    lib.contractType place = .ok type ↔
      ContractType.IsMade (fun name binding => lib.resolve place name = .ok binding) (.cls place)
        (((lib.class? place).bind (·.implementers)).getD []) type := by
  unfold contractType
  generalize ((lib.class? place).bind (·.implementers)).getD [] = names
  match names with
  | [] =>
    constructor
    · intro given
      cases given
      exact .none
    · rintro ⟨⟩
      rfl
  | [name] =>
    dsimp only
    rw [Outcome.map_ok_iff]
    constructor
    · rintro ⟨binding, means, rfl⟩
      exact .single name binding means
    · rintro ⟨⟩
      exact ⟨_, by assumption, rfl⟩
  | first :: second :: rest =>
    dsimp only
    rw [Outcome.map_ok_iff]
    constructor
    · rintro ⟨members, mean, rfl⟩
      exact .several first second rest members ((Outcome.mapM_ok_iff _ _ _).mp mean)
    · rintro ⟨⟩
      exact ⟨_, (Outcome.mapM_ok_iff _ _ _).mpr (by assumption), rfl⟩

/-- What is found is not null. -/
theorem resolve_ne_null (lib : Library) (place : Nat) (name : String) :
    lib.resolve place name ≠ .ok .null := by
  intro given
  unfold resolve at given
  split at given
  · rename_i binding found
    cases given
    have ruledOut : ∀ bound : Option Binding, bound.filter (· != .null) ≠ some .null :=
      fun bound same => absurd (Option.filter_eq_some_iff.mp same).2 (by decide)
    rw [found?] at found
    cases first : (lib.binding? name).filter (· != .null) with
    | none =>
      rw [first] at found
      exact ruledOut _ found
    | some bound =>
      rw [first] at found
      cases found
      exact ruledOut _ first
  · cases given

/-- What a name means is found, but for null. -/
theorem resolve_meaning (lib : Library) (place : Nat) (name : String) (binding : Binding)
    (means : lib.meaning? name = some binding) (given : binding ≠ .null) :
    lib.resolve place name = .ok binding := by
  have kept : (binding != .null) = true := by simpa using given
  have found : lib.found? name = some binding := by
    unfold meaning? at means
    unfold found?
    cases bound : lib.binding? name with
    | none =>
      rw [bound] at means
      change builtinBinding? name = some binding at means
      simp [means, kept]
    | some _ =>
      rw [bound] at means
      cases means
      simp [kept]
  rw [resolve, found]

end Library

/-! ## Names where an alias stands -/

/-- Whether the value of an alias of a module means a type in the place of its statement, where all
statements before it have been loaded. -/
def MeansInPlace (source : Source.Module) (world : World) (a : Source.Alias)
    (type : ContractType) : Prop :=
  ∃ before after start s, binders source = before ++ .synonym a :: after ∧
    Loading.start source.imports world = .ok start ∧ before.foldlM Binder.load start = .ok s ∧
    AliasMeans (fun name binding => s.binding? name = some binding) a.value type

/-- The alias of a contract means the type that the possible types make, if the contract's own name
means its class. -/
theorem AliasMeans.isMade {Means : String → Binding → Prop} {d : ContractDef} {type : ContractType}
    (means : AliasMeans Means (Source.contractAlias d).value type) (place : Nat)
    (itself : ∀ binding, Means d.name binding → binding = .cls place) :
    ContractType.IsMade Means (.cls place) (d.possibleTypes.map (·.2)) type := by
  unfold Source.contractAlias at means
  dsimp only at means
  generalize d.possibleTypes.map (·.2) = names at means ⊢
  match names with
  | [] =>
    cases means with
    | one _ binding own =>
      obtain rfl := itself binding own
      exact .none
  | [name] =>
    cases means with
    | one _ binding own => exact .single name binding own
  | first :: second :: rest =>
    cases means with
    | tagged _ members own => exact .several first second rest members own

/-- What a name means where an alias stands is what it means in the end, if no name is exported
twice. -/
theorem Trace.exists_alias {m : Source.Module} {lib : Library} (trace : Trace m lib)
    (spares : lib.world.Spares m) (distinct : (m.exported.map nameText).Nodup)
    (fresh : ∀ a ∈ m.aliases, a.name ∉ givenNames) (a : Source.Alias) (isAlias : a ∈ m.aliases) :
    ∃ before after s s', binders m = before ++ .synonym a :: after ∧
      before.foldlM Binder.load trace.started = .ok s ∧ loadAlias s a = .ok s' ∧
      lib.binding? a.name = findKey? a.name s'.scope ∧
      ∀ name binding, s.binding? name = some binding → lib.meaning? name = some binding := by
  obtain ⟨first, last, listed⟩ := List.append_of_mem isAlias
  obtain ⟨before, whole⟩ : ∃ before : List Binder,
      binders m = before ++ .synonym a :: last.map .synonym :=
    ⟨m.enums.map .enum ++ ((classSources m).map .cls ++ first.map .synonym),
      by simp [binders, listed]⟩
  have given := trace.foldlM_binders
  rw [whole, List.foldlM_append] at given
  obtain ⟨s, reached, rest⟩ := (Outcome.bind_ok_iff _ _ _).mp given
  have first' := rest
  rw [List.foldlM_cons] at first'
  obtain ⟨s', loaded, later⟩ := (Outcome.bind_ok_iff _ _ _).mp first'
  -- Each name is bound by one statement at most.
  have once := (exported_perm_binders m).nodup_iff.mp distinct
  rw [whole, List.flatMap_append, List.nodup_append] at once
  obtain ⟨-, behind, apart⟩ := once
  refine ⟨before, _, s, s', whole, reached, loaded, ?_, fun name binding found => ?_⟩
  · rw [List.flatMap_cons, List.nodup_append] at behind
    rw [Library.binding?, trace.libraryScope]
    exact foldlM_elsewhere _ _ _ later a.name fun again =>
      behind.2.2 _ List.mem_cons_self _ again rfl
  · by_cases late : name ∈ (Binder.synonym a :: last.map .synonym).flatMap Binder.names
    · -- An alias that is still to come means nothing yet.
      obtain ⟨other, isOther, rfl⟩ : ∃ other ∈ m.aliases, other.name = name := by
        rw [← List.map_cons, names_synonym] at late
        obtain ⟨other, isLate, same⟩ := List.mem_map.mp late
        exact ⟨other, listed ▸ List.mem_append_right _ isLate, same⟩
      have unbound : findKey? other.name s.scope = none := by
        rw [foldlM_elsewhere _ _ _ reached other.name fun early => apart _ early _ late rfl]
        exact Loading.start_unbound _ _ trace.start _ (fresh other isOther)
          (spares.imports _ (alias_exported isOther))
      rw [Loading.binding?, unbound] at found
      exact absurd (builtinBinding?_given _ binding found) (fresh other isOther)
    · rw [Library.meaning?, Library.binding?, trace.libraryScope,
        foldlM_elsewhere _ _ _ rest name late]
      exact found

/-! ## The two types of a contract -/

/-- How the type of a contract comes about in a loaded module, where fields that refer to the
contract are annotated with its alias. -/
structure Library.HasType (lib : Library) (source : Source.Module) (definitions : List Definition)
    (d : ContractDef) (place : Nat) (type : ContractType) : Prop where
  named : lib.binding? d.name = some (.cls place)
  made : ContractType.IsMade (fun name binding => lib.meaning? name = some binding) (.cls place)
    (d.possibleTypes.map (·.2)) type
  inPlace : MeansInPlace source lib.world (Source.contractAlias d) type
  bound : lib.binding? (d.name ++ Source.aliasSuffix) = some type.binding
  annotated : ∀ (i : Nat) (e : Definition), (Source.classDefinitions definitions)[i]? = some e →
    ∃ c, (classSources source)[i]? = some c ∧ ∀ g ∈ e.fields, RefersTo g.type d →
      ∃ a ∈ c.attributes, g.name = some a.fieldName ∧
        a.type = Source.nullableType (d.name ++ Source.aliasSuffix) g.type
  single : ∀ text, lib.fromJson d.name text =
    lib.contractType place >>= lib.shapeOfType >>= fun shape => lib.readAs shape text
  items : ∀ asList text, lib.deserialize d.name asList text =
    lib.contractType place >>= lib.shapeOfType >>= fun shape =>
      lib.readAs (if asList then .list shape else shape) text

section

variable {world : World} {imports : ImportTable} {definitions : List Definition}
  {source : Source.Module} {lib : Library} (laysOut : Source.LaysOut imports definitions source)

include laysOut

/-- Fields that refer to a contract are annotated with its alias. -/
theorem annotated_alias (d : ContractDef) (i : Nat) (e : Definition)
    (listed : (Source.classDefinitions definitions)[i]? = some e) :
    ∃ c, (classSources source)[i]? = some c ∧ ∀ g ∈ e.fields, RefersTo g.type d →
      ∃ a ∈ c.attributes, g.name = some a.fieldName ∧
        a.type = Source.nullableType (d.name ++ Source.aliasSuffix) g.type := by
  obtain ⟨c, present, isClass⟩ := laysOut.class_of i e listed
  refine ⟨c, present, fun g isField refers => ?_⟩
  obtain ⟨a, isAttribute, laidOut⟩ :=
    Outcome.forall₂_left ((Outcome.mapM_ok_iff _ _ _).mp isClass.spec.2) g isField
  obtain ⟨named, -, reference, refersTo, typed⟩ := Source.attributeOf_ok _ g a laidOut
  cases refersTo.symm.trans (refers.referenceName _)
  exact ⟨a, isAttribute, named, typed⟩

variable (loaded : load source world = .ok lib)

include loaded

/-- The class of an object is its own type, whatever contracts it is derived from. -/
theorem contractType_object (i : Nat) (o : ObjectDef)
    (listed : (Source.classDefinitions definitions)[i]? = some (.object o)) :
    lib.contractType (Foundation.classes.length + i) =
      .ok (.one (.cls (Foundation.classes.length + i))) := by
  obtain ⟨trace⟩ := load_trace source lib loaded
  rw [Library.contractType, (implementers_of_object laysOut trace i o listed).2]
  rfl

variable (spares : world.Spares source) (distinct : (source.exported.map nameText).Nodup)

include spares distinct

/-- A contract has a type, which is found exactly if no possible type means null. -/
theorem contract_hasType (i : Nat) (d : ContractDef)
    (listed : (Source.classDefinitions definitions)[i]? = some (.contract d)) :
    ∃ type, lib.HasType source definitions d (Foundation.classes.length + i) type ∧
      (lib.contractType (Foundation.classes.length + i) = .ok type ↔
        ∀ entry ∈ d.possibleTypes, lib.meaning? entry.2 ≠ some .null) := by
  obtain ⟨trace⟩ := load_trace source lib loaded
  have apart := namesApart source distinct
  have named : lib.binding? d.name = some (.cls (Foundation.classes.length + i)) := by
    obtain ⟨-, -, -, named, -⟩ := exists_class_of laysOut trace apart i _ listed
    exact named
  obtain ⟨model, names⟩ := implementers_of_contract laysOut trace apart i d listed
  have fresh : ∀ a ∈ source.aliases, a.name ∉ givenNames := by
    intro a isAlias
    rw [laysOut.aliases] at isAlias
    obtain ⟨e, -, rfl⟩ := List.mem_map.mp isAlias
    exact alias_not_given e.name
  obtain ⟨before, after, s, s', whole, reached, given, bound, meanings⟩ :=
    trace.exists_alias (load_world loaded ▸ spares) distinct fresh _ (laysOut.mem_aliases i d listed)
  obtain ⟨type, means, rfl⟩ := loadAlias_means s s' _ given
  -- Where the alias stands, the name of the contract means its class already.
  have itself : ∀ binding, s.binding? d.name = some binding →
      binding = .cls (Foundation.classes.length + i) := by
    intro binding found
    have same := meanings d.name binding found
    rw [Library.meaning?, named] at same
    exact (Option.some.inj same).symm
  have made := (means.isMade _ itself).imp fun name _ binding => meanings name binding
  obtain ⟨single, items⟩ := lib.reads_model d.name _ named model
  rw [lib.documentShape_eq _ model] at single items
  refine ⟨type, ⟨named, made, ⟨before, after, trace.started, s, whole, trace.start, reached, means⟩,
    ?_, annotated_alias laysOut d, single, items⟩, ?_⟩
  · refine bound.trans ?_
    rw [Loading.bind, findKey?_setKey]
    exact if_pos (beq_self_eq_true _)
  · rw [Library.contractType_ok_iff, names, Option.getD_some]
    constructor
    · intro found entry member null
      -- The type tells null in the place of the name, which is not what is found there.
      obtain ⟨binding, means, resolved⟩ := made.both found entry.2 (List.mem_map_of_mem member)
      cases means.symm.trans null
      exact lib.resolve_ne_null _ _ resolved
    · intro noNull
      refine made.imp fun name isName binding means => ?_
      obtain ⟨entry, member, rfl⟩ := List.mem_map.mp isName
      refine lib.resolve_meaning _ _ binding means fun null => noNull entry member ?_
      rw [means, null]

end

/-- The names that a module needs for itself and does not export: those that its statements are
written with, that of the loop that completes its classes, and two that mean something else when
they are looked up in a module, whatever it binds them to. -/
def helperNames : List String :=
  ["_Enum", "_Annotated", "_ClassVar", "_List", "_Literal", "_Optional", "_Union", "_Field",
    "_runtime", "_model", "__class__", "__dict__"]

end GraphQLModels.Model

namespace GraphQLModels

/-- **Both types of a contract agree.** In a module whose names are distinct, the alias of a contract
means the type that its possible types make, and this is the type as which documents for the
contract are read, exactly if no possible type means null. The class of an object is its own type,
whatever contracts it is derived from. -/
theorem contract_types_agree_iff (m : Module) (setup : Setup) (source : Source.Module)
    (world : Model.World) (spares : world.Spares source) (lib : Model.Library)
    (laidOut : m.source setup = .ok source) (loaded : Model.load source world = .ok lib)
    (distinct : (lib.exported ++ Model.helperNames).Nodup) :
    (∀ d : ContractDef, .contract d ∈ Source.classDefinitions
        (Hook.runFilters setup.hooks m.definitions) →
      ∃ place type, lib.HasType source (Hook.runFilters setup.hooks m.definitions) d place type ∧
        (lib.contractType place = .ok type ↔
          ∀ entry ∈ d.possibleTypes, lib.meaning? entry.2 ≠ some .null)) ∧
    ∀ o : ObjectDef, .object o ∈ Hook.runFilters setup.hooks m.definitions →
      ∃ place, lib.binding? (nameText o.name) = some (.cls place) ∧
        lib.contractType place = .ok (.one (.cls place)) := by
  have laysOut := source_laysOut m setup source laidOut
  obtain ⟨trace⟩ := Model.load_trace source lib loaded
  have once : (source.exported.map nameText).Nodup :=
    trace.exported ▸ (List.nodup_append.mp distinct).1
  constructor
  · intro d isContract
    obtain ⟨i, listed⟩ := List.mem_iff_getElem?.mp isContract
    exact ⟨_, Model.contract_hasType laysOut loaded spares once i d listed⟩
  · intro o isObject
    obtain ⟨i, listed⟩ := List.mem_iff_getElem?.mp
      (Source.mem_classDefinitions_object _ o isObject)
    obtain ⟨-, -, -, named, -⟩ :=
      Model.exists_class_of laysOut trace (Model.namesApart source once) i _ listed
    exact ⟨_, named, Model.contractType_object laysOut loaded i o listed⟩

/-- A contract with two possible types. -/
theorem contract_types_agree_iff_zoo : ∃ place type,
    zooLibrary.HasType (zooSource "as_i_pet" "as_dog")
      (Hook.runFilters zooSetup.hooks zooModule.definitions) zooContract place type ∧
    zooLibrary.contractType place = .ok type := by
  obtain ⟨place, type, has, agrees⟩ :=
    (contract_types_agree_iff zooModule zooSetup (zooSource "as_i_pet" "as_dog") .closed
      (Model.World.closed_spares _) zooLibrary zooSource_laidOut zooLibrary_loaded
      (by decide)).1 zooContract (by decide)
  exact ⟨place, type, has, agrees.mpr (by decide)⟩

/-! ## A union of a scalar that is null -/

def replyContract : ContractDef where
  kind := .union
  name := "IReply"
  schemaName := some "Reply"
  fields := []
  possibleTypes := [("Void", "None")]
  accessors := ["None"]

def replyModule : Module where
  moduleName := "replies"
  definitions := [.contract replyContract]

/-- How the module is laid out, with the name of its accessor. -/
def replySource (accessor : String) : Source.Module where
  title := "replies"
  imports := []
  enums := []
  contracts := [{
    name := "IReply", bases := [.model], description := none, implementers := ["None"]
    attributes := [], accessors := [⟨accessor, "None"⟩] }]
  objects := []
  aliases := [⟨"IReplyValue", .one "None"⟩]

theorem replySource_laidOut : replyModule.source {} = .ok (replySource "as_none") := by
  have laidOut : replyModule.source {} = .ok (replySource ("as_" ++ Text.snakeCase "None")) :=
    source_of_sorted _ _ _ rfl rfl
  have none : Text.snakeCase "None" = "none" := by decide +kernel
  rw [laidOut, none]
  rfl

def replyLibrary : Model.Library where
  classes := Model.Foundation.classes ++ [{
    name := "IReply", home := "generated_models", order := [7, 0], implementers := some ["None"]
    methods := [("as_none", .narrow "None")] }]
  enums := []
  scope := setKeys (setKeys Model.initialScope Model.importedScope)
    [("IReply", .cls 7), ("IReplyValue", .null)]
  exported := ["IReply", "IReplyValue"]

theorem replyLibrary_loaded : Model.load (replySource "as_none") = .ok replyLibrary := by
  rfl

/-- The type that an alias means need not be found. -/
theorem contract_types_may_differ :
    ¬∀ (m : Module) (setup : Setup) (source : Source.Module) (lib : Model.Library),
      m.source setup = .ok source → Model.load source = .ok lib →
      (lib.exported ++ Model.helperNames).Nodup →
      ∀ d : ContractDef, .contract d ∈ Source.classDefinitions
        (Hook.runFilters setup.hooks m.definitions) →
      ∀ place type, lib.HasType source (Hook.runFilters setup.hooks m.definitions) d place type →
        lib.contractType place = .ok type := by
  intro agree
  obtain ⟨type, has, found⟩ := Model.contract_hasType
    (source_laysOut replyModule {} _ replySource_laidOut) replyLibrary_loaded
    (Model.World.closed_spares _) (by decide) 0 replyContract rfl
  have same := agree replyModule {} _ replyLibrary replySource_laidOut replyLibrary_loaded
    (by decide) replyContract (by decide) _ type has
  exact found.mp same ("Void", "None") List.mem_cons_self rfl

end GraphQLModels
