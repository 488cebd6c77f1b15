import GraphQLModels.Model.Loading
import GraphQLModels.Proofs.Linearization
import GraphQLModels.Proofs.Outcome

/-!
# Loaded classes

Each class statement of a module adds one class to the table, whose place is the number of classes
before it. What every statement keeps of the table therefore holds of all loaded classes.
-/

namespace GraphQLModels.Model

/-! ## Imports -/

/-- What an import statement binds: the name of a known type, a built-in name, or names that the
world tells. -/
inductive Imports (world : World) (statement : String) : List (String × Binding) → Prop
  | known {binding : Binding}
      (found : findKey? (importParts statement) importedNames = some binding) :
      Imports world statement [((importParts statement).2, binding)]
  | builtin {binding : Binding} (origin : (importParts statement).1 = "builtins")
      (listed : (importParts statement).2 ∈ builtinNames)
      (found : builtinBinding? (importParts statement).2 = some binding) :
      Imports world statement [((importParts statement).2, binding)]
  | foreign {names : List String} (told : world.imports statement = some names) :
      Imports world statement
        (names.map fun name => (name, .foreign (.imported statement name)))

theorem builtinBinding?_ne_none {name : String} (isBuiltin : name ∈ builtinNames) :
    builtinBinding? name ≠ none := by
  unfold builtinBinding?
  split <;> simp_all

/-- An import statement fails only if neither it nor its module is known. -/
theorem importBindings_cases (world : World) (statement : String) :
    (∃ bindings, importBindings world statement = .ok bindings ∧
        Imports world statement bindings) ∨
      importBindings world statement = .error (.unknownImport statement) ∨
      importBindings world statement = .error (.unknownModule statement) := by
  unfold importBindings
  dsimp only
  split
  · rename_i found
    exact .inl ⟨_, rfl, .known found⟩
  · split
    · rename_i isBuiltin
      rw [Bool.and_eq_true, beq_iff_eq, List.contains_eq_mem, decide_eq_true_eq] at isBuiltin
      refine .inl ?_
      cases found : builtinBinding? (importParts statement).2 with
      | none => exact absurd found (builtinBinding?_ne_none isBuiltin.2)
      | some binding => exact ⟨_, rfl, .builtin isBuiltin.1 isBuiltin.2 found⟩
    · split
      · rename_i told
        exact .inl ⟨_, rfl, .foreign told⟩
      · split
        · exact .inr (.inl rfl)
        · exact .inr (.inr rfl)

theorem importBindings_ok {world : World} {statement : String} {bindings : List (String × Binding)}
    (given : importBindings world statement = .ok bindings) : Imports world statement bindings := by
  rcases importBindings_cases world statement with ⟨_, same, imports⟩ | failed | failed
  · cases given.symm.trans same
    exact imports
  · cases given.symm.trans failed
  · cases given.symm.trans failed

/-- What is bound at the start of a module is bound by one of its imports, or by every module. -/
theorem Loading.start_ok {world : World} {imports : List String} {s : Loading}
    (given : Loading.start imports world = .ok s) :
    ∃ bindings, s = {
        classes := Foundation.classes.map ClassOf.draft
        scope := setKeys (setKeys initialScope bindings) importedScope
        world } ∧
      ∀ entry ∈ bindings, ∃ statement ∈ imports, ∃ own, Imports world statement own ∧
        entry ∈ own := by
  obtain ⟨bindings, imported, made⟩ := (Outcome.bind_ok_iff _ _ _).mp given
  refine ⟨bindings.flatten, ((Outcome.pure_ok_iff _ _).mp made).symm, fun entry isBound => ?_⟩
  obtain ⟨own, isOwn, isEntry⟩ := List.mem_flatten.mp isBound
  obtain ⟨statement, isImport, gives⟩ := Outcome.mapM_from _ _ _ imported own isOwn
  exact ⟨statement, isImport, own, importBindings_ok gives, isEntry⟩

/-! ## Class statements -/

/-- A class statement as it stands in a module. -/
inductive ClassSource where
  | contract (c : Source.ContractClass)
  | object (c : Source.ObjectClass)

namespace ClassSource

/-- The name that a class statement binds. -/
def name : ClassSource → String
  | .contract c => c.name
  | .object c => nameText c.name

/-- What a class statement derives its class from. -/
def bases : ClassSource → List Source.Base
  | .contract c => c.bases
  | .object c => c.bases

/-- The attributes in the body of a class statement. -/
def attributes : ClassSource → List Source.Attribute
  | .contract c => c.attributes
  | .object c => c.attributes

/-- The name of the schema type that marks the objects of a class. -/
def tag? : ClassSource → Option String
  | .contract _ => none
  | .object c => some (nameText c.schemaName)

/-- The class statement once its bases are found. -/
def statement (places : List Nat) : ClassSource → Statement
  | .contract c => {
    name := c.name, bases := places, attributes := c.attributes
    implementers := some c.implementers
    methods := setKeys []
      (c.accessors.map fun a => (a.method, .narrow (keptName c.name a.target))) }
  | .object c => {
    name := nameText c.name, bases := places, attributes := c.attributes
    classVariables := setKeys [] (c.classVariables.map fun v => (v.name, v.value))
    tag := some (nameText c.schemaName) }

theorem statement_name (c : ClassSource) (places : List Nat) :
    (c.statement places).name = c.name := by
  cases c <;> rfl

theorem statement_bases (c : ClassSource) (places : List Nat) :
    (c.statement places).bases = places := by
  cases c <;> rfl

theorem statement_attributes (c : ClassSource) (places : List Nat) :
    (c.statement places).attributes = c.attributes := by
  cases c <;> rfl

theorem statement_tag (c : ClassSource) (places : List Nat) :
    (c.statement places).tag = c.tag? := by
  cases c <;> rfl

end ClassSource

def classSources (m : Source.Module) : List ClassSource :=
  m.contracts.map .contract ++ m.objects.map .object

def loadClass (s : Loading) (c : ClassSource) : Except LoadError Loading := do
  (c.statement (← c.bases.mapM (basePlace s))).load s

/-- Contracts and objects are loaded by one loop over all class statements. -/
theorem foldlM_loadClass (m : Source.Module) (s : Loading) :
    (classSources m).foldlM loadClass s =
      (m.contracts.foldlM loadContract s >>= fun s => m.objects.foldlM loadObject s) := by
  have contracts : ∀ (cs : List Source.ContractClass) s,
      (cs.map ClassSource.contract).foldlM loadClass s = cs.foldlM loadContract s := by
    intro cs s
    rw [List.foldlM_map]
    rfl
  have objects : ∀ (cs : List Source.ObjectClass) s,
      (cs.map ClassSource.object).foldlM loadClass s = cs.foldlM loadObject s := by
    intro cs s
    rw [List.foldlM_map]
    rfl
  simp only [classSources, List.foldlM_append, contracts, objects]

/-! ## One statement -/

namespace Statement

/-- The class that a statement adds, given the classes above it and its own fields. -/
def made (d : Statement) (s : Loading) (above : List Nat) (declared : List (FieldOf Draft)) :
    ClassOf Draft where
  name := d.name
  home := "generated_models"
  order := s.classes.length :: above
  fields := d.allFields s above declared
  declared := declared.map (·.name)
  implementers := d.implementers
  classVariables := d.classVariables
  methods := d.methods

/-- Whether the classes above a statement are those of its bases, and its own fields are
understood. -/
structure Makes (d : Statement) (s : Loading) (above : List Nat)
    (declared : List (FieldOf Draft)) : Prop where
  mem_above : ∀ q, q ∈ above ↔ ∃ base ∈ d.bases, ∃ k, s.classes[base]? = some k ∧ q ∈ k.order
  fields : d.declaredFields s = .ok declared

/-- A statement that is loaded adds its class at the end of the table and binds its name to it. -/
theorem load_ok (d : Statement) (s s' : Loading) (given : d.load s = .ok s') :
    ∃ above declared, d.Makes s above declared ∧
      s' = { s with classes := s.classes ++ [d.made s above declared] }.bind d.name
        (.cls s.classes.length) := by
  unfold load at given
  split at given
  · cases given
  dsimp only at given
  split at given
  swap
  · cases given
  rename_i order merged
  obtain ⟨declared, fields, made⟩ := (Outcome.bind_ok_iff _ _ _).mp given
  -- The order is the new place in front of a merge of the orders of the bases.
  obtain ⟨above, rfl, -, keeps, comes⟩ := linearize_some _ _ order merged
  cases made
  refine ⟨above, declared, ⟨fun q => ?_, fields⟩, rfl⟩
  constructor
  · intro isAbove
    obtain ⟨baseOrder, listed, within⟩ := comes q isAbove
    obtain ⟨base, isBase, rfl⟩ := List.mem_map.mp listed
    cases found : s.classes[base]? with
    | none => simp [found] at within
    | some k => exact ⟨base, isBase, k, found, by simpa [found] using within⟩
  · rintro ⟨base, isBase, k, found, within⟩
    refine (keeps (((s.classes[base]?).map (·.order)).getD [])
      (List.mem_map.mpr ⟨base, isBase, rfl⟩)).subset ?_
    simpa [found] using within

end Statement

/-! ## A run over the statements -/

/-- How one statement is loaded among others: what was loaded before it, and what its class is made
from. -/
structure ClassStep (sources : List ClassSource) (s : Loading) where
  index : Nat
  source : ClassSource
  before : Loading
  places : List Nat
  above : List Nat
  declared : List (FieldOf Draft)
  present : sources[index]? = some source
  reached : (sources.take index).foldlM loadClass s = .ok before
  length : before.classes.length = s.classes.length + index
  bases : source.bases.mapM (basePlace before) = .ok places
  makes : (source.statement places).Makes before above declared

namespace ClassStep

variable {sources : List ClassSource} {s : Loading}

def made (step : ClassStep sources s) : ClassOf Draft :=
  (step.source.statement step.places).made step.before step.above step.declared

def after (step : ClassStep sources s) : Loading :=
  { step.before with classes := step.before.classes ++ [step.made] }.bind step.source.name
    (.cls step.before.classes.length)

theorem after_classes (step : ClassStep sources s) :
    step.after.classes = step.before.classes ++ [step.made] :=
  rfl

theorem after_placed (step : ClassStep sources s) :
    step.after.classes[step.before.classes.length]? = some step.made := by
  rw [after_classes, List.getElem?_append_right (Nat.le_refl _), Nat.sub_self,
    List.getElem?_cons_zero]

end ClassStep

/-- The statements from a step on are loaded after those before it. -/
theorem ClassStep.rest {sources : List ClassSource} {s s' : Loading} (step : ClassStep sources s)
    (given : sources.foldlM loadClass s = .ok s') :
    (sources.drop step.index).foldlM loadClass step.before = .ok s' := by
  rw [← List.take_append_drop step.index sources, List.foldlM_append, step.reached,
    Outcome.ok_bind] at given
  exact given

/-- Loading a statement is a step, if the statements before it have each added a class. -/
theorem loadClass_step {sources : List ClassSource} {s t u : Loading} {i : Nat} {c : ClassSource}
    (present : sources[i]? = some c) (reached : (sources.take i).foldlM loadClass s = .ok t)
    (length : t.classes.length = s.classes.length + i) (given : loadClass t c = .ok u) :
    ∃ step : ClassStep sources s, step.index = i ∧ step.source = c ∧ step.before = t ∧
      u = step.after := by
  obtain ⟨places, bases, loaded⟩ := (Outcome.bind_ok_iff _ _ _).mp given
  obtain ⟨above, declared, makes, rfl⟩ := Statement.load_ok _ t u loaded
  refine ⟨⟨i, c, t, places, above, declared, present, reached, length, bases, makes⟩, rfl, rfl,
    rfl, ?_⟩
  rw [c.statement_name]
  rfl

theorem take_succ_foldlM {sources : List ClassSource} {s u : Loading} {i : Nat} {c : ClassSource}
    (present : sources[i]? = some c) (given : (sources.take (i + 1)).foldlM loadClass s = .ok u) :
    ∃ t, (sources.take i).foldlM loadClass s = .ok t ∧ loadClass t c = .ok u := by
  rw [List.take_add_one, present, List.foldlM_append] at given
  obtain ⟨t, reached, given⟩ := (Outcome.bind_ok_iff _ _ _).mp given
  obtain ⟨last, step, same⟩ := (Outcome.bind_ok_iff _ _ _).mp given
  cases same
  exact ⟨t, reached, step⟩

theorem length_take_foldlM {sources : List ClassSource} {s t : Loading} (i : Nat)
    (within : i ≤ sources.length) (given : (sources.take i).foldlM loadClass s = .ok t) :
    t.classes.length = s.classes.length + i := by
  induction i generalizing t with
  | zero =>
    cases given
    rfl
  | succ i ih =>
    obtain ⟨c, present⟩ : ∃ c, sources[i]? = some c := ⟨_, List.getElem?_eq_getElem within⟩
    obtain ⟨before, reached, loaded⟩ := take_succ_foldlM present given
    have length := ih (Nat.le_of_succ_le within) reached
    obtain ⟨step, -, -, rfl, rfl⟩ := loadClass_step present reached length loaded
    simp only [ClassStep.after, Loading.bind, List.length_append, List.length_singleton, length]
    omega

theorem classes_prefix {sources : List ClassSource} {s s' : Loading}
    (given : sources.foldlM loadClass s = .ok s') : s.classes <+: s'.classes := by
  refine Outcome.foldlM_preserves (fun t => s.classes <+: t.classes) loadClass sources s s'
    (List.prefix_refl _) given fun c _ t u kept loaded => ?_
  obtain ⟨places, -, loaded⟩ := (Outcome.bind_ok_iff _ _ _).mp loaded
  obtain ⟨above, declared, -, rfl⟩ := Statement.load_ok _ t u loaded
  exact kept.trans (List.prefix_append _ _)

theorem class_kept {sources : List ClassSource} {s s' : Loading}
    (given : sources.foldlM loadClass s = .ok s') (q : Nat) (k : ClassOf Draft)
    (found : s.classes[q]? = some k) : s'.classes[q]? = some k := by
  obtain ⟨rest, same⟩ := classes_prefix given
  rw [← same, List.getElem?_append_left (List.getElem?_eq_some_iff.mp found).choose, found]

/-- **What every statement keeps holds of every class.** It holds of the classes that are there
already, and of the class of each statement as far as it holds of those before. -/
theorem classes_induct {sources : List ClassSource} {s s' : Loading}
    (given : sources.foldlM loadClass s = .ok s') (holds : Nat → ClassOf Draft → Prop)
    (initial : ∀ q k, s.classes[q]? = some k → holds q k)
    (each : ∀ step : ClassStep sources s,
      s'.classes[step.before.classes.length]? = some step.made →
      (∀ q k, step.before.classes[q]? = some k → holds q k) →
      holds step.before.classes.length step.made) :
    ∀ q k, s'.classes[q]? = some k → holds q k := by
  -- The induction is on how many statements have been loaded.
  have some : ∀ i, i ≤ sources.length → ∀ t, (sources.take i).foldlM loadClass s = .ok t →
      (sources.drop i).foldlM loadClass t = .ok s' →
      ∀ q k, t.classes[q]? = some k → holds q k := by
    intro i
    induction i with
    | zero =>
      intro _ t reached _
      cases reached
      exact initial
    | succ i ih =>
      intro within u reached later
      obtain ⟨c, present⟩ : ∃ c, sources[i]? = some c := ⟨_, List.getElem?_eq_getElem within⟩
      obtain ⟨t, earlier, loaded⟩ := take_succ_foldlM present reached
      have length := length_take_foldlM i (Nat.le_of_succ_le within) earlier
      obtain ⟨step, rfl, rfl, rfl, rfl⟩ := loadClass_step present earlier length loaded
      have old := ih (Nat.le_of_succ_le within) _ earlier (step.rest given)
      intro q k found
      -- The place is one of those before, that of the statement, or behind the table.
      rcases Nat.lt_trichotomy q step.before.classes.length with less | rfl | more
      · rw [step.after_classes, List.getElem?_append_left less] at found
        exact old q k found
      · rw [step.after_placed] at found
        cases found
        exact each step (class_kept later _ _ step.after_placed) old
      · rw [step.after_classes, List.getElem?_eq_none (by simp; omega)] at found
        cases found
  exact some sources.length (Nat.le_refl _) s' (by rwa [List.take_length])
    (by rw [List.drop_length]; rfl)

theorem loadClass_enums (c : ClassSource) (s s' : Loading) (given : loadClass s c = .ok s') :
    s'.enums = s.enums := by
  obtain ⟨places, -, loaded⟩ := (Outcome.bind_ok_iff _ _ _).mp given
  obtain ⟨above, declared, -, rfl⟩ := Statement.load_ok _ s s' loaded
  rfl

/-- The class of each statement is at its place. -/
theorem exists_step {sources : List ClassSource} {s s' : Loading}
    (given : sources.foldlM loadClass s = .ok s') (i : Nat) (c : ClassSource)
    (present : sources[i]? = some c) :
    ∃ step : ClassStep sources s, step.index = i ∧ step.source = c ∧
      s'.classes[s.classes.length + i]? = some step.made ∧
      (sources.drop (i + 1)).foldlM loadClass step.after = .ok s' := by
  obtain ⟨t, u, reached, loaded, later⟩ :=
    Outcome.foldlM_at loadClass sources s s' given i c present
  have within : i ≤ sources.length :=
    Nat.le_of_lt (List.getElem?_eq_some_iff.mp present).choose
  have length := length_take_foldlM i within reached
  obtain ⟨step, rfl, rfl, rfl, rfl⟩ := loadClass_step present reached length loaded
  exact ⟨step, rfl, rfl, length ▸ class_kept later _ _ step.after_placed, later⟩

/-! ## A module -/

/-- What has been loaded at each point of loading a module. -/
structure Trace (m : Source.Module) (lib : Library) where
  started : Loading
  withEnums : Loading
  withClasses : Loading
  withAliases : Loading
  start : Loading.start m.imports lib.world = .ok started
  enums : m.enums.foldlM loadEnum started = .ok withEnums
  classes : (classSources m).foldlM loadClass withEnums = .ok withClasses
  aliases : m.aliases.foldlM loadAlias withClasses = .ok withAliases
  finished : finishClasses withAliases = .ok lib.classes
  libraryEnums : lib.enums = withAliases.enums
  libraryScope : lib.scope = withAliases.scope
  exported : lib.exported = m.exported.map nameText

theorem load_trace {world : World} (m : Source.Module) (lib : Library)
    (given : load m world = .ok lib) : Nonempty (Trace m lib) := by
  obtain ⟨s₀, started, given⟩ := (Outcome.bind_ok_iff _ _ _).mp given
  obtain ⟨s₁, withEnums, given⟩ := (Outcome.bind_ok_iff _ _ _).mp given
  obtain ⟨s₂, withContracts, given⟩ := (Outcome.bind_ok_iff _ _ _).mp given
  obtain ⟨s₃, withObjects, given⟩ := (Outcome.bind_ok_iff _ _ _).mp given
  obtain ⟨s₄, withAliases, given⟩ := (Outcome.bind_ok_iff _ _ _).mp given
  obtain ⟨classes, finished, given⟩ := (Outcome.bind_ok_iff _ _ _).mp given
  cases given
  refine ⟨⟨s₀, s₁, s₃, s₄, started, withEnums, ?_, withAliases, finished, rfl, rfl, rfl⟩⟩
  rw [foldlM_loadClass, withContracts, Outcome.ok_bind]
  exact withObjects

/-- A library keeps the world that its module is loaded in. -/
theorem load_world {world : World} {m : Source.Module} {lib : Library}
    (given : load m world = .ok lib) : lib.world = world := by
  obtain ⟨_, _, given⟩ := (Outcome.bind_ok_iff _ _ _).mp given
  obtain ⟨_, _, given⟩ := (Outcome.bind_ok_iff _ _ _).mp given
  obtain ⟨_, _, given⟩ := (Outcome.bind_ok_iff _ _ _).mp given
  obtain ⟨_, _, given⟩ := (Outcome.bind_ok_iff _ _ _).mp given
  obtain ⟨_, _, given⟩ := (Outcome.bind_ok_iff _ _ _).mp given
  obtain ⟨_, _, given⟩ := (Outcome.bind_ok_iff _ _ _).mp given
  cases given
  rfl

theorem loadEnum_classes (s s' : Loading) (e : Source.EnumClass) (given : loadEnum s e = .ok s') :
    s'.classes = s.classes := by
  obtain ⟨members, -, given⟩ := (Outcome.bind_ok_iff _ _ _).mp given
  split at given
  · obtain ⟨constants, -, given⟩ := (Outcome.bind_ok_iff _ _ _).mp given
    cases given
    rfl
  · cases given
    rfl

/-- An alias binds its name and changes nothing else. -/
theorem loadAlias_ok (s s' : Loading) (a : Source.Alias) (given : loadAlias s a = .ok s') :
    ∃ binding, s' = s.bind a.name binding := by
  unfold loadAlias at given
  split at given
  · split at given
    · cases given
      exact ⟨_, rfl⟩
    · cases given
  · obtain ⟨places, -, given⟩ := (Outcome.bind_ok_iff _ _ _).mp given
    cases given
    exact ⟨_, rfl⟩

/-- A class is finished by understanding the types that its fields were left with. -/
theorem finishClass_ok (s : Loading) (k : ClassOf Draft) (c : Class)
    (given : finishClass s k = .ok c) :
    ∃ fields, c = { k with fields } ∧ List.Forall₂ (fun f g => ∃ shape,
      finishDraft s k.name f.shape = .ok shape ∧ g = { f with shape }) k.fields fields := by
  obtain ⟨fields, made, given⟩ := (Outcome.bind_ok_iff _ _ _).mp given
  cases given
  refine ⟨fields, rfl, ((Outcome.mapM_ok_iff _ _ _).mp made).imp fun f g finishes => ?_⟩
  obtain ⟨shape, drafted, same⟩ := (Outcome.bind_ok_iff _ _ _).mp finishes
  exact ⟨shape, drafted, ((Outcome.pure_ok_iff _ _).mp same).symm⟩

/-- The fields of a finished class are those of its draft, each with a shape. -/
theorem finishClass_fields (s : Loading) (k : ClassOf Draft) (c : Class)
    (given : finishClass s k = .ok c) :
    (∀ f ∈ k.fields, ∃ shape, finishDraft s k.name f.shape = .ok shape ∧
      { f with shape } ∈ c.fields) ∧
      ∀ g ∈ c.fields, ∃ f ∈ k.fields, ∃ shape, finishDraft s k.name f.shape = .ok shape ∧
        g = { f with shape } := by
  obtain ⟨fields, rfl, related⟩ := finishClass_ok s k c given
  constructor
  · intro f isField
    obtain ⟨g, listed, shape, drafted, rfl⟩ := Outcome.forall₂_left related f isField
    exact ⟨shape, drafted, listed⟩
  · intro g isField
    obtain ⟨f, listed, shape, drafted, rfl⟩ := Outcome.forall₂_right related g isField
    exact ⟨f, listed, shape, drafted, rfl⟩

/-- The fields of a finished class have the names of its draft, in order. -/
theorem finishClass_names (s : Loading) (k : ClassOf Draft) (c : Class)
    (given : finishClass s k = .ok c) :
    c.fields.map (fun g => (g.name, g.wire)) = k.fields.map fun f => (f.name, f.wire) := by
  obtain ⟨fields, rfl, related⟩ := finishClass_ok s k c given
  refine Outcome.forall₂_map _ _ (fun f g finishes => ?_) related
  obtain ⟨shape, -, rfl⟩ := finishes
  rfl

namespace Trace

variable {m : Source.Module} {lib : Library} (trace : Trace m lib)

theorem withEnums_classes : trace.withEnums.classes = Foundation.classes.map ClassOf.draft := by
  refine Outcome.foldlM_preserves (fun s => s.classes = Foundation.classes.map ClassOf.draft)
    loadEnum m.enums _ _ ?_ trace.enums fun e _ s s' same loaded =>
      (loadEnum_classes s s' e loaded).trans same
  obtain ⟨bindings, -, made⟩ := (Outcome.bind_ok_iff _ _ _).mp trace.start
  rw [← (Outcome.pure_ok_iff _ _).mp made]

theorem length_withEnums : trace.withEnums.classes.length = Foundation.classes.length := by
  rw [withEnums_classes, List.length_map]

theorem withAliases_classes : trace.withAliases.classes = trace.withClasses.classes := by
  refine Outcome.foldlM_preserves (fun s => s.classes = trace.withClasses.classes)
    loadAlias m.aliases _ _ rfl trace.aliases fun a _ s s' same loaded => ?_
  obtain ⟨binding, rfl⟩ := loadAlias_ok s s' a loaded
  exact same

theorem withAliases_enums : trace.withAliases.enums = trace.withEnums.enums := by
  have classes : trace.withClasses.enums = trace.withEnums.enums :=
    Outcome.foldlM_preserves (fun s => s.enums = trace.withEnums.enums) loadClass _ _ _ rfl
      trace.classes fun c _ s s' same loaded => (loadClass_enums c s s' loaded).trans same
  refine Outcome.foldlM_preserves (fun s => s.enums = trace.withEnums.enums)
    loadAlias m.aliases _ _ classes trace.aliases fun a _ s s' same loaded => ?_
  obtain ⟨binding, rfl⟩ := loadAlias_ok s s' a loaded
  exact same

theorem finished_classes :
    List.Forall₂ (fun k c => finishClass trace.withAliases k = .ok c) trace.withClasses.classes
      lib.classes := by
  obtain ⟨classes, made, checked⟩ := (Outcome.bind_ok_iff _ _ _).mp trace.finished
  have same : classes = lib.classes := by
    split at checked
    · cases checked
    · cases checked
      rfl
  rw [← same, ← trace.withAliases_classes]
  exact (Outcome.mapM_ok_iff _ _ _).mp made

/-- The class at a place of the library is finished from the loaded one. -/
theorem class_finished (q : Nat) (c : Class) (found : lib.class? q = some c) :
    ∃ k, trace.withClasses.classes[q]? = some k ∧ finishClass trace.withAliases k = .ok c := by
  obtain ⟨within, rfl⟩ := List.getElem?_eq_some_iff.mp found
  have related := trace.finished_classes
  have length := related.length_eq
  have within' : q < trace.withClasses.classes.length := length ▸ within
  exact ⟨_, List.getElem?_eq_getElem within', related.get within' within⟩

/-- Every loaded class is finished in the library. -/
theorem finished_class (q : Nat) (k : ClassOf Draft)
    (found : trace.withClasses.classes[q]? = some k) :
    ∃ c, lib.class? q = some c ∧ finishClass trace.withAliases k = .ok c := by
  obtain ⟨within, rfl⟩ := List.getElem?_eq_some_iff.mp found
  have related := trace.finished_classes
  have within' : q < lib.classes.length := related.length_eq ▸ within
  exact ⟨_, List.getElem?_eq_getElem within', related.get within within'⟩

/-- The class of each statement is in the library, behind the foundation. -/
theorem exists_class (i : Nat) (c : ClassSource) (present : (classSources m)[i]? = some c) :
    ∃ step : ClassStep (classSources m) trace.withEnums, step.index = i ∧ step.source = c ∧
      ∃ k, lib.class? (Foundation.classes.length + i) = some k ∧
        finishClass trace.withAliases step.made = .ok k := by
  obtain ⟨step, index, source, found, -⟩ := exists_step trace.classes i c present
  rw [trace.length_withEnums] at found
  exact ⟨step, index, source, trace.finished_class _ _ found⟩

end Trace

end GraphQLModels.Model
