import GraphQLModels.Proofs.BoundNames
import GraphQLModels.Proofs.ClassAttributes
import GraphQLModels.Proofs.ContractFields
import GraphQLModels.Proofs.ImportStatements
import GraphQLModels.Proofs.References

/-!
# Imports of scalars

A module imports what the scalar targets of its fields and node types need, each statement once.
A dotted target is cut to its last part there, so two targets may be written alike, and a definition
may be called like a target. What is bound later then takes the name of both.
-/

namespace GraphQLModels

open Source (boundNames)

namespace Source

/-! ## Needed imports -/

/-- The imports of every module in front of those of its scalars. -/
def openingImports : List String := [
  "from __future__ import annotations",
  "from enum import Enum as _Enum",
  "from typing import (\n    Annotated as _Annotated,\n    ClassVar as _ClassVar,\n" ++
    "    List as _List,\n    Literal as _Literal,\n    Optional as _Optional,\n" ++
    "    Union as _Union,\n)"]

/-- The imports of every module behind those of its scalars. -/
def closingImports : List String := [
  "from pydantic import Field as _Field",
  "from gql_typegen import runtime as _runtime",
  "from gql_typegen.runtime import PageInfo"]

/-- The names that every module imports. -/
def ownNames : List String := ["annotations", "_Enum", "_Annotated", "_ClassVar", "_List", "_Literal",
  "_Optional", "_Union", "_Field", "_runtime", "PageInfo"]

theorem ownNames_eq : (openingImports ++ closingImports).flatMap boundNames = ownNames := by
  simp only [openingImports, closingImports, List.cons_append, List.nil_append, List.flatMap_cons,
    List.flatMap_nil, boundNames, Text.words, Text.runs, String.toList_append,
    Text.toList_of_eq rfl]
  decide

/-- The names that the import statements of a module bind, in their order. -/
def Module.importNames (m : Module) : List String :=
  (openingImports ++ m.imports ++ closingImports).flatMap boundNames

/-- Whether a scalar target is referred to: a field has it at the bottom of its type, or it is a node
type that no definition has the name of. -/
inductive Context.Refers (ctx : Context) (target : String) : Prop
  | field {d : Definition} {f : Field} (isClass : d ∈ classDefinitions ctx.definitions)
      (held : f ∈ d.fields) (scalar : scalarReference? ctx f.type = some (some target))
  | node {o : ObjectDef} {c : Capability} (isClass : .object o ∈ ctx.definitions)
      (has : c ∈ o.capabilities) (named : c.nodeType = target)
      (undefined : ctx.defines target = false)

/-- Whether an import statement is needed for a target that is referred to. -/
def Context.Needs (ctx : Context) (target statement : String) : Prop :=
  ctx.Refers target ∧ (ctx.imports.resolve target).2 = some statement ∧ statement ≠ ""

def Context.IsNeeded (ctx : Context) (statement : String) : Prop :=
  ∃ target, ctx.Needs target statement

theorem typeImport?_eq_some_iff (ctx : Context) (type : FieldType) (statement : String) :
    typeImport? ctx type = some statement ↔ ∃ target,
      scalarReference? ctx type = some (some target) ∧
        (ctx.imports.resolve target).2 = some statement := by
  unfold typeImport?
  rcases scalarReference? ctx type with _ | _ | target <;> simp

theorem nodeReference_eq_some_iff (ctx : Context) (target statement : String) :
    (nodeReference ctx target).2 = some statement ↔
      ctx.defines target = false ∧ (ctx.imports.resolve target).2 = some statement := by
  unfold nodeReference
  cases ctx.defines target <;> simp

theorem mem_neededImports (ctx : Context) (statement : String) :
    statement ∈ neededImports ctx
        (Contract.ordered (ctx.definitions.filterMap Definition.contract?))
        (ctx.definitions.filterMap Definition.object?) ↔
      ctx.IsNeeded statement := by
  -- The fields of contracts and then those of objects are those of the classes in their order.
  have fields : (Contract.ordered (ctx.definitions.filterMap Definition.contract?)).flatMap
      (·.fields) ++ (ctx.definitions.filterMap Definition.object?).flatMap (·.fields) =
      (classDefinitions ctx.definitions).flatMap Definition.fields := by
    rw [classDefinitions, List.flatMap_append, List.flatMap_map, List.flatMap_map]
    rfl
  unfold neededImports
  dsimp only
  rw [fields, List.mem_eraseDups, List.mem_mergeSort, List.mem_filter, List.mem_append,
    List.mem_filterMap, List.mem_filterMap]
  constructor
  · rintro ⟨typed | named, given⟩
    · obtain ⟨f, listed, imports⟩ := typed
      obtain ⟨d, isClass, held⟩ := List.mem_flatMap.mp listed
      obtain ⟨target, scalar, needed⟩ := (typeImport?_eq_some_iff ctx f.type statement).mp imports
      exact ⟨target, .field isClass held scalar, needed, by simpa using given⟩
    · obtain ⟨target, listed, imports⟩ := named
      obtain ⟨o, isObject, isNode⟩ := List.mem_flatMap.mp listed
      obtain ⟨c, has, named⟩ := List.mem_map.mp isNode
      obtain ⟨undefined, needed⟩ := (nodeReference_eq_some_iff ctx target statement).mp imports
      obtain ⟨e, isDefined, same⟩ := List.mem_filterMap.mp isObject
      cases e <;> cases same
      exact ⟨target, .node isDefined has named undefined, needed, by simpa using given⟩
  · rintro ⟨target, refers, needed, given⟩
    refine ⟨?_, by simpa using given⟩
    cases refers with
    | @field d f isClass held scalar =>
      exact .inl ⟨f, List.mem_flatMap.mpr ⟨d, isClass, held⟩,
        (typeImport?_eq_some_iff ctx f.type statement).mpr ⟨target, scalar, needed⟩⟩
    | @node o c isClass has named undefined =>
      refine .inr ⟨target, List.mem_flatMap.mpr ⟨o, ?_, ?_⟩,
        (nodeReference_eq_some_iff ctx target statement).mpr ⟨undefined, needed⟩⟩
      · exact List.mem_filterMap.mpr ⟨_, isClass, rfl⟩
      · exact List.mem_map.mpr ⟨c, has, named⟩

/-- The imports of a laid-out module are those that its definitions need, each once. -/
theorem layOut_imports (title : String) (imports : ImportTable) (definitions : List Definition)
    (m : Module) (given : layOut title imports definitions = .ok m) :
    m.imports.Nodup ∧ ∀ statement, statement ∈ m.imports ↔
      Context.IsNeeded { imports, definitions } statement := by
  obtain ⟨contracts, -, given⟩ := (Outcome.bind_ok_iff _ _ _).mp given
  obtain ⟨objects, -, given⟩ := (Outcome.bind_ok_iff _ _ _).mp given
  obtain ⟨enums, -, given⟩ := (Outcome.bind_ok_iff _ _ _).mp given
  cases given
  exact ⟨eraseDups_nodup _, mem_neededImports { imports, definitions }⟩

/-! ## Imports that are apart -/

/-- Whether the imports that definitions need are apart from each other, from those of every module
and from what the module exports: no statement binds a name that another one binds. -/
structure Context.ImportsApart (ctx : Context) (exported : List String) : Prop where
  once : ∀ statement, ctx.IsNeeded statement → (boundNames statement).Nodup
  unlike : ∀ s s', ctx.IsNeeded s → ctx.IsNeeded s' → ∀ name ∈ boundNames s, name ∈ boundNames s' →
    s = s'
  free : ∀ statement, ctx.IsNeeded statement → ∀ name ∈ boundNames statement,
    name ∉ ownNames ∧ name ∉ exported
  own : ∀ name ∈ ownNames, name ∉ exported

theorem importNames_perm (m : Module) :
    m.importNames.Perm (ownNames ++ m.imports.flatMap boundNames) := by
  rw [← ownNames_eq, Module.importNames, List.flatMap_append, List.flatMap_append,
    List.flatMap_append, List.append_assoc, List.append_assoc]
  exact List.perm_append_comm.append_left _

/-- What different items give is all different exactly if each gives no two of a kind and no two give
the same. -/
theorem nodup_flatMap_iff {α β : Type} (f : α → List β) (items : List α) (distinct : items.Nodup) :
    (items.flatMap f).Nodup ↔ (∀ x ∈ items, (f x).Nodup) ∧
      ∀ x ∈ items, ∀ y ∈ items, ∀ b ∈ f x, b ∈ f y → x = y := by
  rw [List.nodup_flatMap]
  refine and_congr_right fun _ => ⟨fun unlike x listed y listed' b gives gives' => ?_, fun same => ?_⟩
  · by_contra different
    have symmetric : Std.Symm (Function.onFun List.Disjoint f) :=
      ⟨fun _ _ disjoint => disjoint.symm⟩
    exact unlike.forall listed listed' different gives gives'
  · exact distinct.pairwise_of_forall_ne fun x listed y listed' different b gives gives' =>
      different (same x listed y listed' b gives gives')

theorem importNames_apart_iff (m : Module) (ctx : Context) (distinct : m.imports.Nodup)
    (needed : ∀ statement, statement ∈ m.imports ↔ ctx.IsNeeded statement)
    (exported : List String) :
    (m.importNames.Nodup ∧ ∀ name ∈ m.importNames, name ∉ exported) ↔
      ctx.ImportsApart exported := by
  have perm := importNames_perm m
  rw [perm.nodup_iff, List.nodup_append, nodup_flatMap_iff boundNames m.imports distinct]
  simp only [perm.mem_iff, needed]
  constructor
  · rintro ⟨⟨-, ⟨once, unlike⟩, apart⟩, free⟩
    refine ⟨once, fun s s' isNeeded isNeeded' => unlike s isNeeded s' isNeeded', ?_, ?_⟩
    · intro statement isNeeded name binds
      have listed : name ∈ m.imports.flatMap boundNames :=
        List.mem_flatMap.mpr ⟨statement, (needed statement).mpr isNeeded, binds⟩
      exact ⟨fun isOwn => apart name isOwn name listed rfl,
        free name (List.mem_append_right _ listed)⟩
    · intro name isOwn
      exact free name (List.mem_append_left _ isOwn)
  · intro apart
    have bound : ∀ name ∈ m.imports.flatMap boundNames, name ∉ ownNames ∧ name ∉ exported := by
      intro name listed
      obtain ⟨statement, isImport, binds⟩ := List.mem_flatMap.mp listed
      exact apart.free statement ((needed statement).mp isImport) name binds
    refine ⟨⟨by decide, ⟨apart.once, fun s isNeeded s' => apart.unlike s s' isNeeded⟩, ?_⟩, ?_⟩
    · rintro name isOwn _ listed rfl
      exact (bound name listed).1 isOwn
    · intro name listed
      rcases List.mem_append.mp listed with isOwn | isBound
      · exact apart.own name isOwn
      · exact (bound name isBound).2

end Source

/-! ## What imported names mean -/

namespace Model

/-- What every module imports is what it binds before its statements, its list of exported names
apart. -/
theorem ownNames_bound : Source.ownNames ++ ["__all__"] =
    initialScope.map (·.1) ++ importedScope.map (·.1) :=
  rfl

/-- Whether an import statement binds a name in a world, and to what. -/
def World.Brings (world : World) (statement name : String) (binding : Binding) : Prop :=
  ∃ bindings, importBindings world statement = .ok bindings ∧ (name, binding) ∈ bindings

theorem World.Brings.isBound {world : World} {statement name : String} {binding : Binding}
    (brings : world.Brings statement name binding) (binds : world.BindsAsWritten) :
    name ∈ boundNames statement := by
  obtain ⟨bindings, loads, isBound⟩ := brings
  rw [← (importBindings_ok loads).names_eq binds]
  exact List.mem_map_of_mem isBound

/-- Whether a library has a name from an import statement, and from nothing else. -/
structure Library.Keeps (lib : Library) (statement name : String) (binding : Binding) : Prop where
  loads : lib.world.Brings statement name binding
  bound : lib.binding? name = some binding

/-- Whether nothing in a module binds the name of an import anew. -/
structure ImportsKept (m : Source.Module) : Prop where
  once : m.importNames.Nodup
  free : ∀ name ∈ m.importNames, name ∉ m.exported.map nameText

/-- The names that the imports of a module bind are those that the statements are read as. -/
theorem keys_of_imports {world : World} (binds : world.BindsAsWritten) (imports : List String)
    (bindings : List (List (String × Binding)))
    (made : imports.mapM (importBindings world) = .ok bindings) :
    bindings.flatten.map (·.1) = imports.flatMap boundNames := by
  have related := (Outcome.mapM_ok_iff _ _ _).mp made
  clear made
  induction related with
  | nil => rfl
  | cons loads _ ih =>
    rw [List.flatten_cons, List.map_append, List.flatMap_cons, ih,
      (importBindings_ok loads).names_eq binds]

/-- No import takes over the list of exported names. -/
theorem World.Brings.ne_all {world : World} {statement name : String} {binding : Binding}
    (brings : world.Brings statement name binding) : name ≠ "__all__" := by
  rintro rfl
  obtain ⟨bindings, loads, isBound⟩ := brings
  have isName : "__all__" ∈ bindings.map (·.1) := List.mem_map_of_mem isBound
  rcases (importBindings_ok loads).cases with ⟨_, -, name, isOpen, -, only⟩ | told
  · rw [only, List.mem_singleton] at isName
    have never : "__all__" ∉ openNames := by
      decide
    exact never (isName ▸ isOpen)
  · exact world.keepsNames statement _ told _ isName (by decide)

/-- The name that stands for null is bound to nothing else. -/
theorem World.Brings.null {world : World} {statement : String} {binding : Binding}
    (brings : world.Brings statement "None" binding) : binding = .null := by
  obtain ⟨bindings, loads, isBound⟩ := brings
  cases importBindings_ok loads with
  | known found =>
    obtain ⟨named, rfl⟩ := Prod.mk.inj (List.mem_singleton.mp isBound)
    have isKey := List.mem_map_of_mem (f := fun entry => entry.1.2) (findKey?_mem _ _ _ found)
    have none : "None" ∉ importedNames.map fun entry => entry.1.2 := by
      decide
    exact absurd (named ▸ isKey) none
  | builtin _ _ found =>
    obtain ⟨named, rfl⟩ := Prod.mk.inj (List.mem_singleton.mp isBound)
    rw [← named] at found
    exact (Option.some.inj found).symm
  | foreign told =>
    obtain ⟨name, isName, same⟩ := List.mem_map.mp isBound
    have never := world.keepsNames statement _ told name isName
    exact absurd (by decide) ((Prod.mk.inj same).1 ▸ never)

namespace Trace

variable {m : Source.Module} {lib : Library} (trace : Trace m lib) (binds : lib.world.BindsAsWritten)
  (kept : ImportsKept m)

include binds kept

/-- Before the first statement, the name of an import means what the import brings. -/
theorem started_import (statement name : String) (binding : Binding)
    (listed : statement ∈ m.imports) (brings : lib.world.Brings statement name binding) :
    findKey? name trace.started.scope = some binding := by
  obtain ⟨bindings, made, given⟩ := (Outcome.bind_ok_iff _ _ _).mp trace.start
  have scope := congrArg Loading.scope ((Outcome.pure_ok_iff _ _).mp given)
  have once := (Source.importNames_perm m).nodup_iff.mp kept.once
  rw [List.nodup_append] at once
  obtain ⟨-, apart, unlike⟩ := once
  have isBound : name ∈ m.imports.flatMap boundNames :=
    List.mem_flatMap.mpr ⟨statement, listed, brings.isBound binds⟩
  -- The names that are imported behind it are others.
  have later : name ∉ importedScope.reverse.map (·.1) := by
    intro isLater
    have isOwn : name ∈ Source.ownNames ++ ["__all__"] := by
      rw [ownNames_bound]
      exact List.mem_append_right _ (by simpa using isLater)
    rcases List.mem_append.mp isOwn with own | last
    · exact unlike name own name isBound rfl
    · exact brings.ne_all (List.mem_singleton.mp last)
  have distinct : (bindings.flatten.map (·.1)).Nodup := by
    rw [keys_of_imports binds _ _ made]
    exact apart
  have found : findKey? name bindings.flatten.reverse = some binding := by
    rw [findKey?_reverse name _ distinct, findKey?_eq_some_iff name binding _ distinct]
    obtain ⟨own, loads, isOwn⟩ := brings
    obtain ⟨listedOwn, isListed, loads'⟩ := Outcome.mapM_mem _ _ _ made statement listed
    cases loads.symm.trans loads'
    exact List.mem_flatten.mpr ⟨own, isListed, isOwn⟩
  rw [← scope]
  change findKey? name (setKeys (setKeys initialScope bindings.flatten) importedScope) = some binding
  rw [findKey?_setKeys, (findKey?_eq_none_iff _ _).mpr later, findKey?_setKeys, found]
  rfl

omit binds kept in
/-- A name that is not exported means throughout what it means before the first statement. -/
theorem binding?_unexported (name : String) (free : name ∉ m.exported.map nameText) :
    lib.binding? name = findKey? name trace.started.scope ∧
      ∀ step : ClassStep (classSources m) trace.withEnums,
        findKey? name step.before.scope = findKey? name trace.started.scope := by
  have elsewhere : name ∉ (binders m).flatMap Binder.names :=
    fun isBound => free ((exported_perm_binders m).mem_iff.mpr isBound)
  constructor
  · rw [Library.binding?, trace.libraryScope]
    exact foldlM_elsewhere _ _ _ trace.foldlM_binders name elsewhere
  · intro step
    rw [flatMap_names, List.mem_append, List.mem_append, not_or, not_or] at elsewhere
    obtain ⟨enums, classes, -⟩ := elsewhere
    have before := foldlM_elsewhere _ _ _ ((foldlM_classes _ _ _).mpr step.reached) name
      fun isClass => classes (by
        rw [names_cls, List.map_take] at isClass
        exact List.mem_of_mem_take isClass)
    rw [before, foldlM_elsewhere _ _ _ ((foldlM_enums _ _ _).mpr trace.enums) name enums]

/-- **The name of an import means what the import brings**, throughout the module. -/
theorem keeps_import (statement name : String) (binding : Binding)
    (listed : statement ∈ m.imports) (brings : lib.world.Brings statement name binding) :
    lib.Keeps statement name binding ∧ name ∉ m.exported.map nameText ∧
      ∀ step : ClassStep (classSources m) trace.withEnums,
        findKey? name step.before.scope = some binding := by
  have isBound : name ∈ m.importNames := by
    rw [(Source.importNames_perm m).mem_iff]
    exact List.mem_append_right _
      (List.mem_flatMap.mpr ⟨statement, listed, brings.isBound binds⟩)
  have free := kept.free name isBound
  have started := trace.started_import binds kept statement name binding listed brings
  obtain ⟨bound, before⟩ := trace.binding?_unexported name free
  exact ⟨⟨brings, bound.trans started⟩, free, fun step => (before step).trans started⟩

include trace in
/-- A module that is loaded has bindings for each of its imports, and keeps them. -/
theorem import_kept (statement : String) (listed : statement ∈ m.imports) :
    ∃ bindings, importBindings lib.world statement = .ok bindings ∧
      bindings.map (·.1) = boundNames statement ∧
      (∀ entry ∈ bindings, lib.Keeps statement entry.1 entry.2) ∧
      (lib.world.imports statement = none → ∃ entry, bindings = [entry]) := by
  obtain ⟨all, made, -⟩ := (Outcome.bind_ok_iff _ _ _).mp trace.start
  obtain ⟨bindings, -, loads⟩ := Outcome.mapM_mem _ _ _ made statement listed
  have names := (importBindings_ok loads).names_eq binds
  refine ⟨bindings, loads, names, fun entry isBound => ?_, fun untold => ?_⟩
  · exact (trace.keeps_import binds kept statement _ _ listed ⟨bindings, loads, isBound⟩).1
  · rcases (importBindings_ok loads).cases with ⟨_, -, _, -, -, only⟩ | told
    · obtain ⟨entry, same, -⟩ := List.map_eq_singleton_iff.mp only
      exact ⟨entry, same⟩
    · cases untold.symm.trans told

end Trace

/-- The shape of the values of a scalar or of a type that the world tells. -/
def Binding.leaf? (world : World) : Binding → Option Shape
  | .scalar type => some (.scalar type)
  | .foreign of => if world.isType of then some (.foreign of) else none
  | _ => none

theorem shapeOfMeaning_leaf {σ : Type} {world : World} (classes : List (ClassOf σ)) (name : String)
    {binding : Binding} {leaf : Shape} (isLeaf : binding.leaf? world = some leaf) :
    shapeOfMeaning world classes name (.bound binding) = .ok leaf := by
  cases binding with
  | scalar type => exact congrArg Except.ok (Option.some.inj isLeaf)
  | foreign of =>
    obtain ⟨isType, same⟩ := Option.ite_none_right_eq_some.mp isLeaf
    exact (if_pos isType).trans (congrArg Except.ok (Option.some.inj same))
  | _ => cases isLeaf

/-- In the body of a class, a name that is bound means what it is bound to unless an attribute hides
it. -/
theorem Statement.meaning?_bound (d : Statement) (s : Loading) (name : String) (binding : Binding)
    (other : name ≠ d.name) (something : name ≠ "None")
    (bound : findKey? name s.scope = some binding) :
    d.meaning? s name = some .noType ∨
      (d.meaning? s name = some .null ∧ ∃ a ∈ d.attributes, a.name = name) ∨
      d.meaning? s name = some (.bound binding) := by
  have means : s.binding? name = some binding := by
    rw [Loading.binding?, bound]
    rfl
  unfold meaning?
  rw [if_neg (by simpa using other), if_neg (by simpa using something)]
  split
  · exact .inl rfl
  split
  · rename_i a found
    have isAttribute := List.mem_reverse.mp (List.mem_of_find?_eq_some found)
    split
    · exact .inr (.inl ⟨rfl, a, isAttribute, by simpa using List.find?_some found⟩)
    · exact .inl rfl
  · rw [means]
    exact .inr (.inr rfl)

/-- A field over the name of a leaf has the leaf at its bottom, or null where an attribute hides the
name. -/
theorem Statement.field_leaf (d : Statement) (s : Loading) (a : Source.Attribute)
    (f : FieldOf Draft) (given : d.field s a = .ok f) (name : String) (type : FieldType)
    (binding : Binding) (leaf : Shape) (isLeaf : binding.leaf? s.world = some leaf)
    (typed : a.type = Source.nullableType name type) (other : name ≠ d.name)
    (something : name ≠ "None") (bound : findKey? name s.scope = some binding) :
    f.shape = .known (nullableShape leaf type) ∨
      f.shape = .known (nullableShape .null type) ∧ ∃ b ∈ d.attributes, b.name = name := by
  have shape? : typeShape? s.world s.classes (d.meaning? s) a.type =
      (d.meaning? s name).map fun m =>
        (shapeOfMeaning s.world s.classes name m).map fun bottom => nullableShape bottom type := by
    rw [typeShape?, typed, terminal_nullableType]
    simp only [shapeOver_nullableType]
  obtain ⟨-, -, -, understood⟩ := Statement.field_ok d s a f given
  rw [shape?] at understood
  rcases d.meaning?_bound s name binding other something bound with
    means | ⟨means, hidden⟩ | means <;> rw [means] at understood
  · rcases understood with ⟨unknown, -⟩ | ⟨shape, meant, -⟩
    · cases unknown
    · cases meant
  · rcases understood with ⟨unknown, -⟩ | ⟨shape, meant, known⟩
    · cases unknown
    · cases meant
      exact .inr ⟨known, hidden⟩
  · rw [Option.map_some, shapeOfMeaning_leaf _ _ isLeaf] at understood
    rcases understood with ⟨unknown, -⟩ | ⟨shape, meant, known⟩
    · cases unknown
    · cases meant
      exact .inl known

/-- A field that a class declares for a scalar has the leaf that the import of its target brings at
its bottom, or null where an attribute hides the name. -/
theorem declared_scalar_field {world : World} (binds : world.BindsAsWritten) {imports : ImportTable}
    {definitions : List Definition} {source : Source.Module} {lib : Library}
    (laysOut : Source.LaysOut imports definitions source) (loaded : load source world = .ok lib)
    (kept : ImportsKept source) (i : Nat) (d : Definition)
    (listed : (Source.classDefinitions definitions)[i]? = some d) :
    ∃ k, lib.class? (Foundation.classes.length + i) = some k ∧
      ∀ f ∈ k.fields, f.name ∈ k.declared → (∃ text, f = typenameSpec text) ∨
        ∃ g ∈ d.fields, g.name = some f.wire ∧ ∀ target statement binding leaf,
          Source.scalarReference? { imports, definitions } g.type = some (some target) →
          statement ∈ source.imports → world.Brings statement (imports.resolve target).1 binding →
          binding.leaf? world = some leaf →
          f.shape = nullableShape leaf g.type ∨
            f.shape = nullableShape .null g.type ∧ d.HasAttribute (imports.resolve target).1 := by
  obtain ⟨trace⟩ := load_trace source lib loaded
  obtain rfl := load_world loaded
  obtain ⟨step, -, isClass, k, found, finishes⟩ := laysOut.exists_step trace i d listed
  refine ⟨k, found, fun f member declared => ?_⟩
  rcases step.declared_made isClass _ k finishes f member declared with mark | ⟨g, isField, made⟩
  · exact .inl mark
  refine .inr ⟨g, isField, made.wire, fun target statement binding leaf isScalar isImport brings
    isLeaf => ?_⟩
  obtain ⟨a, draft, reference, refers, typed, gives, drafted⟩ := made.source
  simp only [Source.referenceName, isScalar] at refers
  cases refers
  obtain ⟨-, free, before⟩ := trace.keeps_import binds kept statement _ _ isImport brings
  -- The class would hide the name behind itself, but it is exported and the import is not.
  have other : (imports.resolve target).1 ≠ (step.source.statement step.places).name := by
    rw [step.source.statement_name]
    exact fun same => free (same ▸ class_exported (List.mem_of_getElem? step.present))
  have something : (imports.resolve target).1 ≠ "None" := by
    intro isNull
    rw [isNull] at brings
    cases brings.null
    cases isLeaf
  rw [← trace.before_world step] at isLeaf
  rcases Statement.field_leaf _ _ a draft gives _ g.type binding leaf isLeaf typed other something
    (before step) with known | ⟨known, b, isOther, hides⟩ <;> rw [known] at drafted
  · exact .inl (Except.ok.inj drafted).symm
  · refine .inr ⟨(Except.ok.inj drafted).symm, (isClass.mem_attributeNames _).mp ?_⟩
    rw [step.source.statement_attributes] at isOther
    exact List.mem_append_right _ (hides ▸ List.mem_map_of_mem isOther)

end Model

/-- Of imports that are apart, no two dotted paths are written alike. -/
theorem Source.Context.ImportsApart.written_apart {ctx : Source.Context} {exported : List String}
    (apart : ctx.ImportsApart exported) (one other : String) (refers : ctx.Refers one)
    (refers' : ctx.Refers other) (dotted : IsDottedPath one) (dotted' : IsDottedPath other)
    (different : one ≠ other) : (ctx.imports.resolve one).1 ≠ (ctx.imports.resolve other).1 := by
  obtain ⟨path, last, rfl, isPath, isName, isLast⟩ := dotted
  obtain ⟨path', last', rfl, isPath', isName', isLast'⟩ := dotted'
  have resolved := ctx.imports.resolve_dotted path last isLast
  have resolved' := ctx.imports.resolve_dotted path' last' isLast'
  rw [resolved, resolved']
  rintro rfl
  have isNeeded : ctx.IsNeeded ("from " ++ path ++ " import " ++ last) :=
    ⟨_, refers, by rw [resolved], by simp⟩
  have isNeeded' : ctx.IsNeeded ("from " ++ path' ++ " import " ++ last) :=
    ⟨_, refers', by rw [resolved'], by simp⟩
  have same := apart.unlike _ _ isNeeded isNeeded' last
    (Source.boundNames_from path last isPath isName ▸ List.mem_cons_self)
    (Source.boundNames_from path' last isPath' isName ▸ List.mem_cons_self)
  rw [String.append_left_inj, String.append_left_inj, String.append_right_inj] at same
  exact different (same ▸ rfl)

/-- The imports of a module are laid out from its definitions. -/
theorem source_imports (m : Module) (setup : Setup) (source : Source.Module)
    (laidOut : m.source setup = .ok source) :
    source.imports.Nodup ∧ ∀ statement, statement ∈ source.imports ↔
      Source.Context.IsNeeded ⟨setup.imports, Hook.runFilters setup.hooks m.definitions⟩
        statement := by
  unfold Module.source at laidOut
  split at laidOut
  · exact Source.layOut_imports _ _ _ source laidOut
  · cases laidOut

/-- **Imports that are apart.** The import statements of a laid-out module bind different names, and
none that the module exports, exactly if no import that its definitions need binds a name that another
one, every module or an exported definition has. Then different dotted paths are written differently.
In the loaded module each import is kept, under the name that is written for its target, and a
field of the target has the scalar or the type of the world that the import brings at its bottom, or
null where an attribute of its class is called like it. -/
theorem imports_apart_iff (m : Module) (setup : Setup) (source : Source.Module)
    (laidOut : m.source setup = .ok source) :
    let definitions := Hook.runFilters setup.hooks m.definitions
    let ctx : Source.Context := { imports := setup.imports, definitions }
    let exported := source.exported.map nameText
    ((source.importNames.Nodup ∧ ∀ name ∈ source.importNames, name ∉ exported) ↔
      ctx.ImportsApart exported) ∧
    (ctx.ImportsApart exported →
      (∀ one other, ctx.Refers one → ctx.Refers other → IsDottedPath one → IsDottedPath other →
        one ≠ other → (setup.imports.resolve one).1 ≠ (setup.imports.resolve other).1) ∧
      ∀ (world : Model.World) lib, world.BindsAsWritten → Model.load source world = .ok lib →
        (∀ target statement, ctx.Needs target statement → ∃ bindings,
          Model.importBindings world statement = .ok bindings ∧
            bindings.map (·.1) = boundNames statement ∧
            (∀ entry ∈ bindings, lib.Keeps statement entry.1 entry.2) ∧
            (world.imports statement = none → ∃ entry, bindings = [entry]) ∧
            (setup.imports.IsTruthful →
              world.imports statement = none ∨ '.' ∉ target.toList ∨ IsDottedPath target →
              boundNames statement = [(setup.imports.resolve target).1])) ∧
        ∀ i d, (Source.classDefinitions definitions)[i]? = some d → ∃ k,
          lib.class? (Model.Foundation.classes.length + i) = some k ∧
          ∀ f ∈ k.fields, f.name ∈ k.declared → (∃ text, f = Model.typenameSpec text) ∨
            ∃ g ∈ d.fields, g.name = some f.wire ∧ ∀ target statement binding leaf,
              Source.scalarReference? ctx g.type = some (some target) →
              ctx.Needs target statement →
              world.Brings statement (setup.imports.resolve target).1 binding →
              binding.leaf? world = some leaf →
              f.shape = Model.nullableShape leaf g.type ∨
                f.shape = Model.nullableShape .null g.type ∧
                  d.HasAttribute (setup.imports.resolve target).1) := by
  intro definitions ctx exported
  have laysOut := source_laysOut m setup source laidOut
  obtain ⟨distinct, needed⟩ := source_imports m setup source laidOut
  have apart_iff := Source.importNames_apart_iff source ctx distinct needed exported
  -- Everything else follows from the imports being kept, which is one side of the equivalence.
  refine ⟨apart_iff, fun apart => ⟨apart.written_apart, fun world lib binds loaded => ?_⟩⟩
  have kept : Model.ImportsKept source := ⟨(apart_iff.mpr apart).1, (apart_iff.mpr apart).2⟩
  constructor
  · intro target statement needs
    obtain ⟨trace⟩ := Model.load_trace source lib loaded
    obtain rfl := Model.load_world loaded
    obtain ⟨bindings, loads, names, keeps, single⟩ :=
      trace.import_kept binds kept statement ((needed statement).mpr ⟨target, needs⟩)
    refine ⟨bindings, loads, names, keeps, single, fun truthful plain => ?_⟩
    rw [← names]
    exact truthful.resolve_eq binds target statement bindings needs.2.1 needs.2.2 loads plain
  · intro i d listed
    obtain ⟨k, found, each⟩ := Model.declared_scalar_field binds laysOut loaded kept i d listed
    refine ⟨k, found, fun f member declared => (each f member declared).imp_right ?_⟩
    rintro ⟨g, isField, named, known⟩
    exact ⟨g, isField, named, fun target statement binding leaf isScalar needs brings isLeaf =>
      known target statement binding leaf isScalar ((needed statement).mpr ⟨target, needs⟩) brings
        isLeaf⟩

/-! ## A definition that is called like a scalar -/

def invoiceOptions : Options where
  moduleName := "invoices"
  scalars := [("Money", "decimal.Decimal")]

/-- An object with an amount of money, and another one. -/
def invoiceSchema (other : String) : Schema where
  types := [
    bareType other,
    { kind := .object, name := "Invoice"
      fields := [{ name := some "total", type := { kind := .scalar, name := some "Money" } }] }]

def invoiceModule (other : String) : Module where
  moduleName := "invoices"
  definitions := [
    .object { name := some other, schemaName := some other, fields := [] },
    .object {
      name := some "Invoice", schemaName := some "Invoice"
      fields := [{ name := some "total", type := .named (some "decimal.Decimal") .scalar }] }]

def invoiceSource (other : String) : Source.Module where
  title := "invoices"
  imports := ["from decimal import Decimal"]
  enums := []
  contracts := []
  objects := [
    { name := some other, schemaName := some other, bases := [.model], description := none
      classVariables := [], attributes := [] },
    { name := some "Invoice", schemaName := some "Invoice", bases := [.model], description := none
      classVariables := []
      attributes := [{ name := "total", type := .optional (.name "Decimal") }] }]
  aliases := []

theorem invoiceSource_laidOut (other : String) :
    (invoiceModule other).source {} = .ok (invoiceSource other) := by
  have laidOut : (invoiceModule other).source {} = .ok { invoiceSource other with
      imports := (["from decimal import Decimal"].mergeSort fun a b => a ≤ b).eraseDups } := by
    rfl
  rw [laidOut, List.mergeSort_singleton]
  rfl

theorem invoice_importNames (other : String) :
    (invoiceSource other).importNames.Perm (Source.ownNames ++ ["Decimal"]) := by
  have binds : boundNames "from decimal import Decimal" = ["Decimal"] := by
    decide
  have names := Source.importNames_perm (invoiceSource other)
  rw [invoiceSource, List.flatMap_cons, List.flatMap_nil, binds] at names
  exact names

/-- What is loaded next to an object of another name. -/
def invoiceLibrary : Model.Library where
  classes := Model.Foundation.classes ++ [
    { name := "Item", home := "generated_models", order := [7, 0]
      fields := [Model.typenameSpec "Item"], declared := ["typename__"] },
    { name := "Invoice", home := "generated_models", order := [8, 0]
      fields := [Model.typenameSpec "Invoice",
        { name := "total", wire := "total", shape := .optional (.scalar .decimal) }]
      declared := ["typename__", "total"] }]
  enums := []
  scope := setKeys (setKeys (setKeys Model.initialScope [("Decimal", .scalar .decimal)])
    Model.importedScope) [("Item", .cls 7), ("Invoice", .cls 8)]
  exported := ["Item", "Invoice"]

theorem invoiceLibrary_loaded : Model.load (invoiceSource "Item") = .ok invoiceLibrary := by
  rfl

/-- A library that keeps the import of its only scalar. -/
theorem imports_apart_iff_invoice :
    invoiceLibrary.Keeps "from decimal import Decimal" "Decimal" (.scalar .decimal) := by
  obtain ⟨apart_iff, consequences⟩ :=
    imports_apart_iff (invoiceModule "Item") {} _ (invoiceSource_laidOut "Item")
  have names := invoice_importNames "Item"
  have free : ∀ name ∈ Source.ownNames ++ ["Decimal"], name ∉ ["Item", "Invoice"] := by
    decide
  have apart := apart_iff.mp
    ⟨names.nodup_iff.mpr (by decide), fun name listed => free name (names.mem_iff.mp listed)⟩
  obtain ⟨-, kept⟩ := consequences apart
  obtain ⟨means, -⟩ :=
    kept .closed invoiceLibrary Model.World.closed_bindsAsWritten invoiceLibrary_loaded
  have refers : Source.Context.Refers ⟨.initial, (invoiceModule "Item").definitions⟩
      "decimal.Decimal" :=
    .field (List.mem_cons_of_mem _ List.mem_cons_self) List.mem_cons_self rfl
  obtain ⟨bindings, loads, -, keeps, -, -⟩ :=
    means "decimal.Decimal" "from decimal import Decimal" ⟨refers, rfl, by decide⟩
  have brings : Model.importBindings .closed "from decimal import Decimal" =
      .ok [("Decimal", .scalar .decimal)] := by
    decide
  cases loads.symm.trans brings
  exact keeps _ List.mem_cons_self

/-- A definition may have the name that an import binds. -/
theorem imports_may_clash :
    ¬∀ (options : Options) (schema : Schema) (m : Module) (setup : Setup) (source : Source.Module),
      (emit options schema).outcome = .ok m → m.source setup = .ok source →
      source.importNames.Nodup ∧
        ∀ name ∈ source.importNames, name ∉ source.exported.map nameText := by
  intro apart
  obtain ⟨-, free⟩ := apart invoiceOptions (invoiceSchema "Decimal") (invoiceModule "Decimal") {} _
    rfl (invoiceSource_laidOut "Decimal")
  exact free "Decimal" ((invoice_importNames "Decimal").mem_iff.mpr (by decide)) (by decide)

end GraphQLModels
