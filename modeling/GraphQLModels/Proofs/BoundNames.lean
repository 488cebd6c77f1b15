import GraphQLModels.Proofs.Emission
import GraphQLModels.Proofs.Filters
import GraphQLModels.Proofs.Hierarchy
import GraphQLModels.Proofs.Scope
import Mathlib.Data.List.Pairwise

/-!
# Names that a module exports

The names of enums and objects stand as they are in the schema, those of contracts, aliases and
classes of constants are made from others. A made name can be the name of another definition, or
made from another one.
-/

namespace GraphQLModels

namespace Definition

/-- The name of an enum or an object, which stands as it is in the schema. -/
def plainName? : Definition → Option String
  | .enum d => some (nameText d.name)
  | .contract _ => none
  | .object d => some (nameText d.name)

/-- The names that the statements of a definition bind. -/
def binds : Definition → List String
  | .enum d => nameText d.name ::
    (if d.stringConstants then [Source.Module.companionName d.name] else [])
  | .contract d => [d.name, d.name ++ Source.aliasSuffix]
  | .object d => [nameText d.name]

/-- Whether a definition is named as its schema type demands. -/
def IsNamed : Definition → Prop
  | .enum _ => True
  | .contract d => d.name = contractName d.schemaName
  | .object d => d.name = d.schemaName

theorem binds_nodup (d : Definition) : d.binds.Nodup := by
  have pair : ∀ name suffix : String, suffix ≠ "" → [name, name ++ suffix].Nodup := by
    intro name suffix given
    have apart : name ≠ name ++ suffix := fun same =>
      given (String.append_eq_left_iff.mp same.symm)
    exact List.nodup_cons.mpr ⟨by simpa using apart, List.nodup_singleton _⟩
  cases d with
  | enum d =>
    cases asked : d.stringConstants with
    | false => simp [binds, asked]
    | true =>
      rw [binds, if_pos asked]
      exact pair (nameText d.name) "StringValues" (by decide)
  | contract d => exact pair d.name "Value" (by decide)
  | object d => exact List.nodup_singleton (nameText d.name)

/-- Whether a name that is made for the first definition is that of the second, or made for it in
another way. -/
inductive TakesName : Definition → Definition → Prop
  | asContract (c : ContractDef) (other : Definition)
      (same : other.plainName? = some (contractName c.schemaName)) : TakesName (.contract c) other
  | asAlias (c : ContractDef) (other : Definition)
      (same : other.plainName? = some (contractName c.schemaName ++ "Value")) :
      TakesName (.contract c) other
  | contractAsAlias (c other : ContractDef)
      (same : nameText other.schemaName = nameText c.schemaName ++ "Value") :
      TakesName (.contract c) (.contract other)
  | asConstants (e : EnumDef) (other : Definition) (asked : e.stringConstants = true)
      (same : other.plainName? = some (nameText e.name ++ "StringValues")) :
      TakesName (.enum e) other
  | contractAsConstants (e : EnumDef) (c : ContractDef) (asked : e.stringConstants = true)
      (same : contractName c.schemaName = nameText e.name ++ "StringValues") :
      TakesName (.enum e) (.contract c)

/-- The names that a definition binds, and where each comes from. -/
theorem mem_binds (d : Definition) (named : d.IsNamed) (name : String) :
    name ∈ d.binds ↔ d.plainName? = some name ∨
      (∃ e, d = .enum e ∧ e.stringConstants = true ∧ name = nameText e.name ++ "StringValues") ∨
      ∃ c, d = .contract c ∧
        (name = contractName c.schemaName ∨ name = contractName c.schemaName ++ "Value") := by
  have flip : ∀ own : String, some own = some name ↔ name = own := fun own => by
    rw [Option.some.injEq, eq_comm]
  cases d with
  | enum e =>
    cases asked : e.stringConstants <;>
      simp [binds, plainName?, asked, Source.Module.companionName, flip]
  | contract c =>
    have same : c.name = contractName c.schemaName := named
    simp [binds, plainName?, same, Source.aliasSuffix]
  | object o => simp [binds, plainName?, flip]

theorem plainName?_eq (d : Definition) (named : d.IsNamed) (name : String)
    (plain : d.plainName? = some name) : nameText d.schemaName = name := by
  cases d with
  | enum e => exact Option.some.inj plain
  | contract c => cases plain
  | object o =>
    have same : o.name = o.schemaName := named
    rw [plainName?, same] at plain
    exact Option.some.inj plain

/-- No alias is named as a class of constants is. -/
theorem alias_ne_constants (one other : String) : one ++ "Value" ≠ other ++ "StringValues" := by
  intro same
  have ends := congrArg (fun s => s.toList.getLast?) same
  simp at ends

/-- What takes the name of another shares it. -/
theorem TakesName.shares {one other : Definition} (takes : TakesName one other)
    (named : one.IsNamed) (named' : other.IsNamed) :
    ∃ name, name ∈ one.binds ∧ name ∈ other.binds := by
  cases takes with
  | asContract c _ same =>
    exact ⟨_, (mem_binds _ named _).mpr (.inr (.inr ⟨c, rfl, .inl rfl⟩)),
      (mem_binds _ named' _).mpr (.inl same)⟩
  | asAlias c _ same =>
    exact ⟨_, (mem_binds _ named _).mpr (.inr (.inr ⟨c, rfl, .inr rfl⟩)),
      (mem_binds _ named' _).mpr (.inl same)⟩
  | contractAsAlias c d same =>
    refine ⟨_, (mem_binds _ named _).mpr (.inr (.inr ⟨c, rfl, .inr rfl⟩)),
      (mem_binds _ named' _).mpr (.inr (.inr ⟨d, rfl, .inl ?_⟩))⟩
    rw [contractName, contractName, same, String.append_assoc]
  | asConstants e _ asked same =>
    exact ⟨_, (mem_binds _ named _).mpr (.inr (.inl ⟨e, rfl, asked, rfl⟩)),
      (mem_binds _ named' _).mpr (.inl same)⟩
  | contractAsConstants e c asked same =>
    exact ⟨_, (mem_binds _ named _).mpr (.inr (.inl ⟨e, rfl, asked, rfl⟩)),
      (mem_binds _ named' _).mpr (.inr (.inr ⟨c, rfl, .inl same.symm⟩))⟩

/-- **Definitions of different types share a name** exactly if one of them takes the name of the
other. -/
theorem shares_iff (one other : Definition) (named : one.IsNamed) (named' : other.IsNamed)
    (different : nameText one.schemaName ≠ nameText other.schemaName) :
    (∃ name, name ∈ one.binds ∧ name ∈ other.binds) ↔
      TakesName one other ∨ TakesName other one := by
  have contract : ∀ c d : ContractDef, contractName c.schemaName = contractName d.schemaName →
      nameText c.schemaName = nameText d.schemaName := fun c d same =>
    (String.append_right_inj "I").mp same
  have aliasOf : ∀ c d : ContractDef,
      contractName c.schemaName = contractName d.schemaName ++ "Value" →
      nameText c.schemaName = nameText d.schemaName ++ "Value" := by
    intro c d same
    rw [contractName, contractName, String.append_assoc] at same
    exact (String.append_right_inj "I").mp same
  constructor
  swap
  · rintro (takes | takes)
    · exact takes.shares named named'
    · obtain ⟨name, first, second⟩ := takes.shares named' named
      exact ⟨name, second, first⟩
  -- The name comes from each definition in one of three ways.
  rintro ⟨name, ofOne, ofOther⟩
  rcases (mem_binds one named name).mp ofOne with plain | ⟨e, rfl, asked, rfl⟩ | ⟨c, rfl, made⟩
  · rcases (mem_binds other named' name).mp ofOther with
      plain' | ⟨e, rfl, asked, rfl⟩ | ⟨c, rfl, rfl | rfl⟩
    · refine absurd ?_ different
      rw [plainName?_eq one named name plain, plainName?_eq other named' name plain']
    · exact .inr (.asConstants e one asked plain)
    · exact .inr (.asContract c one plain)
    · exact .inr (.asAlias c one plain)
  · rcases (mem_binds other named' _).mp ofOther with
      plain' | ⟨e', rfl, asked', same⟩ | ⟨c, rfl, same | same⟩
    · exact .inl (.asConstants e other asked plain')
    · exact absurd ((String.append_left_inj _).mp same) different
    · exact .inl (.contractAsConstants e c asked same.symm)
    · exact absurd same.symm (alias_ne_constants _ _)
  · rcases (mem_binds other named' name).mp ofOther with
      plain' | ⟨e, rfl, asked, rfl⟩ | ⟨c', rfl, made'⟩
    · rcases made with rfl | rfl
      · exact .inl (.asContract c other plain')
      · exact .inl (.asAlias c other plain')
    · rcases made with same | same
      · exact .inr (.contractAsConstants e c asked same.symm)
      · exact absurd same.symm (alias_ne_constants _ _)
    · rcases made with rfl | rfl <;> rcases made' with same | same
      · exact absurd (contract c c' same) different
      · exact .inr (.contractAsAlias c' c (aliasOf c c' same))
      · exact .inl (.contractAsAlias c c' (aliasOf c' c same.symm))
      · exact absurd (contract c c' ((String.append_left_inj _).mp same)) different

/-- No definition takes its own name. -/
theorem TakesName.different {one other : Definition} (takes : TakesName one other) :
    one ≠ other := by
  rintro rfl
  cases takes with
  | asContract c _ same => cases same
  | asAlias c _ same => cases same
  | contractAsAlias c _ same => exact absurd (String.append_eq_left_iff.mp same.symm) (by decide)
  | asConstants e _ asked same =>
    exact absurd (String.append_eq_left_iff.mp (Option.some.inj same).symm) (by decide)

end Definition

/-! ## Definitions of a schema -/

theorem Emits.isNamed {options : Options} {schema : Schema} {t : SchemaType} {d : Definition}
    (emits : Emits options schema t d) : d.schemaName = t.name ∧ d.IsNamed := by
  obtain ⟨-, name, schemaName⟩ := emits_named options schema t d emits
  refine ⟨schemaName, ?_⟩
  cases d with
  | enum e => trivial
  | object o => exact name.trans schemaName.symm
  | contract c =>
    have made : (Definition.contract c).kind.targetName t.name = some (contractName t.name) := by
      cases kind : c.kind <;> rw [Definition.kind, kind] <;> rfl
    exact (Option.some.inj (name.trans made)).trans (congrArg contractName schemaName.symm)

/-- The definitions of a schema have the names of different types, and are named for them. -/
theorem definitions_named (options : Options) (schema : Schema) (m : Module)
    (emitted : (emit options schema).outcome = .ok m) :
    (m.definitions.map Definition.schemaName).Sublist (schema.types.map (·.name)) ∧
      ∀ d ∈ m.definitions, d.IsNamed := by
  refine ⟨?_, fun d member => ?_⟩
  · have names := Outcome.forall₂_map Definition.schemaName (·.name)
      (fun t d emits => (Emits.isNamed emits).1) (definitions_inOrder options schema m emitted)
    rw [names]
    exact List.filter_sublist.map _
  · obtain ⟨t, -, emits⟩ := (mem_definitions_iff options schema m emitted d).mp member
    exact emits.isNamed.2

namespace Hook

/-- Filters leave some definitions, each with its names. -/
theorem names_of_runFilters (hooks : List Hook) (definitions : List Definition) :
    ((runFilters hooks definitions).map Definition.schemaName).Sublist
        (definitions.map Definition.schemaName) ∧
      ((∀ d ∈ definitions, d.IsNamed) → ∀ d ∈ runFilters hooks definitions, d.IsNamed) := by
  unfold runFilters
  generalize hooks.filterMap filter? = filters
  -- The induction is on the filters, each of which runs on what those before it left.
  induction filters generalizing definitions with
  | nil => exact ⟨List.Sublist.refl _, id⟩
  | cons f rest ih =>
    obtain ⟨kept, named⟩ := ih (f.run definitions)
    refine ⟨kept.trans (NameFilter.map_run _ Definition.schemaName_without f definitions),
      fun given => named fun d member => ?_⟩
    obtain ⟨e, isKept, rfl⟩ := List.mem_map.mp member
    have isNamed := given e (List.mem_of_mem_filter isKept)
    cases e <;> exact isNamed

end Hook

/-! ## Exported names -/

/-- The definitions of a module, sorted by kind. -/
theorem kinds_perm (definitions : List Definition) :
    ((definitions.filterMap Definition.enum?).map Definition.enum ++
      ((definitions.filterMap Definition.contract?).map Definition.contract ++
        (definitions.filterMap Definition.object?).map Definition.object)).Perm definitions := by
  induction definitions with
  | nil => exact .refl _
  | cons d rest ih =>
    cases d with
    | enum e => exact ih.cons _
    | contract c =>
      refine List.Perm.trans ?_ (ih.cons _)
      exact List.perm_middle
    | object o =>
      refine List.Perm.trans ?_ (ih.cons _)
      rw [← List.append_assoc, ← List.append_assoc]
      exact List.perm_middle

theorem contracts_perm (contracts : List ContractDef) :
    (contracts.map (·.name) ++ contracts.map fun d => d.name ++ Source.aliasSuffix).Perm
      ((contracts.map Definition.contract).flatMap Definition.binds) := by
  have second : contracts.map (fun d => d.name ++ Source.aliasSuffix) =
      contracts.flatMap fun d => [d.name ++ Source.aliasSuffix] := List.map_eq_flatMap
  rw [List.flatMap_map, second]
  exact List.map_append_flatMap_perm contracts (·.name) fun d => [d.name ++ Source.aliasSuffix]

section

variable {imports : ImportTable} {definitions : List Definition} {source : Source.Module}
  (laysOut : Source.LaysOut imports definitions source)

include laysOut

theorem enums_names : (source.enums.map Model.Binder.enum).flatMap Model.Binder.names =
    ((definitions.filterMap Definition.enum?).map Definition.enum).flatMap Definition.binds := by
  rw [List.flatMap_map, List.flatMap_map, List.flatMap_def, List.flatMap_def]
  congr 1
  refine Outcome.mapM_map Source.enumClass _ _ (fun d c made => ?_) _ _ laysOut.enums
  obtain ⟨members, -, given⟩ := (Outcome.bind_ok_iff _ _ _).mp made
  cases given
  rfl

theorem classes_names : (Model.classSources source).map Model.ClassSource.name =
    (Source.classDefinitions definitions).map fun d => nameText d.name :=
  Outcome.forall₂_map _ _ (fun _ _ isClass => isClass.spec.1) laysOut.classes

theorem aliases_names : source.aliases.map (·.name) =
    (Contract.ordered (definitions.filterMap Definition.contract?)).map
      fun d => d.name ++ Source.aliasSuffix := by
  rw [laysOut.aliases, List.map_map]
  rfl

/-- A module exports the names that its definitions bind. -/
theorem exported_perm
    (distinct : ((definitions.filterMap Definition.contract?).map (·.name)).Nodup) :
    (source.exported.map nameText).Perm (definitions.flatMap Definition.binds) := by
  have sorted := Contract.ordered_perm (definitions.filterMap Definition.contract?) distinct
  have objects : ((definitions.filterMap Definition.object?).map Definition.object).flatMap
      Definition.binds =
      (definitions.filterMap Definition.object?).map fun d => nameText d.name := by
    rw [List.flatMap_map]
    exact List.map_eq_flatMap.symm
  have kinds := (kinds_perm definitions).flatMap_right Definition.binds
  rw [List.flatMap_append, List.flatMap_append, objects] at kinds
  refine (Model.exported_perm_binders source).trans ?_
  rw [Model.flatMap_names, enums_names laysOut, classes_names laysOut, aliases_names laysOut,
    Source.classDefinitions, List.map_append, List.map_map, List.map_map, List.append_assoc]
  -- The aliases stand behind the objects, and the contracts in an order of their own.
  refine List.Perm.trans (List.Perm.append_left _ ?_) kinds
  refine (List.perm_append_comm.append_left _).trans ?_
  rw [← List.append_assoc]
  exact (((sorted.map _).append (sorted.map _)).trans (contracts_perm _)).append_right _

end

/-- Definitions of different types that are named for them share no name exactly if none takes the
name of another. -/
theorem binds_nodup_iff (definitions : List Definition)
    (distinct : (definitions.map fun d => nameText d.schemaName).Nodup)
    (named : ∀ d ∈ definitions, d.IsNamed) :
    (definitions.flatMap Definition.binds).Nodup ↔
      ∀ one ∈ definitions, ∀ other ∈ definitions, ¬Definition.TakesName one other := by
  have apart : definitions.Pairwise fun one other =>
      nameText one.schemaName ≠ nameText other.schemaName := List.pairwise_map.mp distinct
  rw [List.nodup_flatMap]
  constructor
  · rintro ⟨-, disjoint⟩ one isOne other isOther takes
    -- Disjointness is known in the order of the definitions only, but it is symmetric.
    have symmetric : Std.Symm (Function.onFun List.Disjoint Definition.binds) :=
      ⟨fun _ _ given _ first second => given second first⟩
    have different := takes.different
    have schemaNames : nameText one.schemaName ≠ nameText other.schemaName := fun same =>
      different (List.inj_on_of_nodup_map distinct isOne isOther same)
    obtain ⟨name, first, second⟩ := (Definition.shares_iff one other (named one isOne)
      (named other isOther) schemaNames).mpr (.inl takes)
    exact disjoint.forall isOne isOther different first second
  · intro free
    refine ⟨fun d _ => d.binds_nodup, ?_⟩
    refine apart.imp_of_mem fun {one other} isOne isOther different name first second => ?_
    rcases (Definition.shares_iff one other (named one isOne) (named other isOther) different).mp
      ⟨name, first, second⟩ with takes | takes
    · exact free one isOne other isOther takes
    · exact free other isOther one isOne takes

/-- Contracts of different types have different names. -/
theorem contractNames_nodup (definitions : List Definition)
    (distinct : (definitions.map fun d => nameText d.schemaName).Nodup)
    (named : ∀ d ∈ definitions, d.IsNamed) :
    ((definitions.filterMap Definition.contract?).map (·.name)).Nodup := by
  have apart : definitions.Pairwise fun one other =>
      nameText one.schemaName ≠ nameText other.schemaName := List.pairwise_map.mp distinct
  rw [List.Nodup, List.pairwise_map, List.pairwise_filterMap]
  refine apart.imp_of_mem fun {one other} isOne isOther different c isContract d isContract' => ?_
  intro same
  cases one with
  | enum | object => cases isContract
  | contract c =>
    cases other with
    | enum | object => cases isContract'
    | contract d =>
      cases isContract
      cases isContract'
      have first : c.name = contractName c.schemaName := named _ isOne
      have second : d.name = contractName d.schemaName := named _ isOther
      rw [first, second] at same
      exact different ((String.append_right_inj "I").mp same)

/-- **A module exports no name twice** exactly if none of its definitions takes the name of another.
Then no statement replaces what another bound a name to. -/
theorem exported_nodup_iff (options : Options) (schema : Schema) (m : Module) (setup : Setup)
    (source : Source.Module) (emitted : (emit options schema).outcome = .ok m)
    (laidOut : m.source setup = .ok source)
    (distinct : (schema.types.map fun t => nameText t.name).Nodup) :
    ((source.exported.map nameText).Nodup ↔
      ∀ one ∈ Hook.runFilters setup.hooks m.definitions,
        ∀ other ∈ Hook.runFilters setup.hooks m.definitions, ¬Definition.TakesName one other) ∧
    ((source.exported.map nameText).Nodup → ∀ world lib, Model.load source world = .ok lib →
      Model.KeepsBindings source lib) := by
  obtain ⟨fromTypes, named⟩ := definitions_named options schema m emitted
  obtain ⟨kept, keptNamed⟩ := Hook.names_of_runFilters setup.hooks m.definitions
  have laysOut := source_laysOut m setup source laidOut
  -- Filters leave definitions of different types, each still named for its own.
  generalize Hook.runFilters setup.hooks m.definitions = definitions at kept keptNamed laysOut ⊢
  have schemaNames : (definitions.map fun d => nameText d.schemaName).Nodup := by
    have sub := (kept.trans fromTypes).map nameText
    rw [List.map_map, List.map_map] at sub
    exact distinct.sublist sub
  have perm := exported_perm laysOut
    (contractNames_nodup definitions schemaNames (keptNamed named))
  exact ⟨perm.nodup_iff.trans (binds_nodup_iff definitions schemaNames (keptNamed named)),
    fun once world lib loaded => Model.keepsBindings source lib loaded once⟩

/-- A union of one object. -/
def petType : SchemaType where
  kind := .union
  name := "Pet"
  possibleTypes := [{ kind := .object, name := "Dog" }]

/-- An object without fields. -/
def bareType (name : String) : SchemaType where
  kind := .object
  name := name

def petOptions : Options := { moduleName := "pets" }

/-- The union and its member next to another object. -/
def petSchema (other : String) : Schema := { types := [petType, bareType "Dog", bareType other] }

def petModule (other : String) : Module where
  moduleName := "pets"
  definitions := [
    .contract {
      kind := .union, name := "IPet", schemaName := some "Pet", fields := []
      possibleTypes := [("Dog", "Dog")], accessors := ["Dog"] },
    .object { name := some "Dog", schemaName := some "Dog", fields := [], contracts := ["IPet"] },
    .object { name := some other, schemaName := some other, fields := [] }]

def petSource (other : String) : Source.Module where
  title := "pets"
  imports := []
  enums := []
  contracts := [{
    name := "IPet", bases := [.model], description := none, implementers := ["Dog"]
    attributes := [], accessors := [⟨"as_" ++ Text.snakeCase "Dog", "Dog"⟩] }]
  objects := [
    { name := some "Dog", schemaName := some "Dog", bases := [.contract "IPet"]
      description := none, classVariables := [], attributes := [] },
    { name := some other, schemaName := some other, bases := [.model], description := none
      classVariables := [], attributes := [] }]
  aliases := [⟨"IPetValue", .one "Dog"⟩]

/-- A module whose names are all different. -/
theorem exported_nodup_iff_cat : ∃ lib, Model.load (petSource "Cat") = .ok lib ∧
    Model.KeepsBindings (petSource "Cat") lib := by
  obtain ⟨-, keeps⟩ := exported_nodup_iff petOptions (petSchema "Cat") (petModule "Cat") {}
    (petSource "Cat") rfl (source_of_sorted _ _ _ rfl rfl) (by decide)
  exact ⟨_, rfl, keeps (by decide) _ _ rfl⟩

/-- The name that is made for an alias may be the name of an object. -/
theorem exported_may_repeat :
    ¬∀ (options : Options) (schema : Schema) (m : Module) (setup : Setup) (source : Source.Module),
      (emit options schema).outcome = .ok m → m.source setup = .ok source →
      (schema.types.map fun t => nameText t.name).Nodup →
      (source.exported.map nameText).Nodup := by
  intro never
  have once := never petOptions (petSchema "IPetValue") (petModule "IPetValue") {}
    (petSource "IPetValue") rfl (source_of_sorted _ _ _ rfl rfl) (by decide)
  revert once
  decide

end GraphQLModels
