import GraphQLModels.Proofs.Characters
import GraphQLModels.Proofs.LaidOut
import GraphQLModels.Proofs.Mappings
import Mathlib.Data.List.Perm.Basic

/-!
# The scope of a module

A statement binds its own names and no others. What it binds a name to is therefore what the name
means in the end, if no other statement binds it, and until then the name means what it meant before
the first statement.
-/

namespace GraphQLModels.Model

/-! ## Statements and their names -/

/-- A statement of a module. -/
inductive Binder where
  | enum (e : Source.EnumClass)
  | cls (c : ClassSource)
  | synonym (a : Source.Alias)

namespace Binder

/-- The names that a statement binds. -/
def names : Binder → List String
  | .enum e => nameText e.name ::
    (if e.stringConstants then [Source.Module.companionName e.name] else [])
  | .cls c => [c.name]
  | .synonym a => [a.name]

/-- Loads a statement. -/
def load (s : Loading) : Binder → Except LoadError Loading
  | .enum e => loadEnum s e
  | .cls c => loadClass s c
  | .synonym a => loadAlias s a

end Binder

/-- The statements of a module in order. -/
def binders (m : Source.Module) : List Binder :=
  m.enums.map .enum ++ ((classSources m).map .cls ++ m.aliases.map .synonym)

/-- Names of which some are followed by another are the same as all names before these others. -/
theorem map_append_filter_perm {α β : Type} (first second : α → β) (has : α → Bool) (xs : List α) :
    (xs.map first ++ (xs.filter has).map second).Perm
      (xs.flatMap fun x => first x :: if has x then [second x] else []) := by
  have seconds : (xs.filter has).map second = xs.flatMap fun x =>
      if has x then [second x] else [] := by
    induction xs with
    | nil => rfl
    | cons x rest ih => cases asked : has x <;> simp [asked, ih]
  rw [seconds]
  exact List.map_append_flatMap_perm xs first _

theorem names_cls (sources : List ClassSource) :
    (sources.map Binder.cls).flatMap Binder.names = sources.map ClassSource.name := by
  rw [List.flatMap_map]
  exact List.map_eq_flatMap.symm

theorem names_synonym (aliases : List Source.Alias) :
    (aliases.map Binder.synonym).flatMap Binder.names = aliases.map (·.name) := by
  rw [List.flatMap_map]
  exact List.map_eq_flatMap.symm

theorem flatMap_names (m : Source.Module) :
    (binders m).flatMap Binder.names = (m.enums.map Binder.enum).flatMap Binder.names ++
      ((classSources m).map ClassSource.name ++ m.aliases.map (·.name)) := by
  rw [binders, List.flatMap_append, List.flatMap_append, names_cls, names_synonym]

/-- A module exports the names that its statements bind. -/
theorem exported_perm_binders (m : Source.Module) :
    (m.exported.map nameText).Perm ((binders m).flatMap Binder.names) := by
  have classes : m.models.map nameText = (classSources m).map ClassSource.name := by
    simp only [classSources, Source.Module.models, List.map_append, List.map_map]
    rfl
  have aliases : (m.aliases.map fun a => some a.name).map nameText = m.aliases.map (·.name) := by
    rw [List.map_map]
    rfl
  rw [flatMap_names, Source.Module.exported, List.append_assoc, List.map_append, List.map_append,
    List.map_append, classes, aliases, List.map_map, List.map_map, List.flatMap_map]
  exact (map_append_filter_perm _ _ _ m.enums).append_right _

theorem class_exported {m : Source.Module} {c : ClassSource} (isClass : c ∈ classSources m) :
    c.name ∈ m.exported.map nameText := by
  rw [(exported_perm_binders m).mem_iff, flatMap_names]
  exact List.mem_append_right _ (List.mem_append_left _ (List.mem_map_of_mem isClass))

theorem alias_exported {m : Source.Module} {a : Source.Alias} (isAlias : a ∈ m.aliases) :
    a.name ∈ m.exported.map nameText := by
  rw [(exported_perm_binders m).mem_iff, flatMap_names]
  exact List.mem_append_right _ (List.mem_append_right _ (List.mem_map_of_mem isAlias))

/-- How the names of a module are apart that exports none twice. -/
structure NamesApart (m : Source.Module) : Prop where
  classes : ((classSources m).map ClassSource.name).Nodup
  aliases : (m.aliases.map (·.name)).Nodup
  class_ne_alias : ∀ c ∈ classSources m, ∀ a ∈ m.aliases, c.name ≠ a.name
  alias_not_enum : ∀ a ∈ m.aliases, a.name ∉ (m.enums.map Binder.enum).flatMap Binder.names

theorem namesApart (m : Source.Module) (distinct : (m.exported.map nameText).Nodup) :
    NamesApart m := by
  have once := (exported_perm_binders m).nodup_iff.mp distinct
  rw [flatMap_names, List.nodup_append, List.nodup_append] at once
  obtain ⟨-, ⟨classes, aliases, apart⟩, enums⟩ := once
  refine ⟨classes, aliases, fun c isClass a isAlias => ?_, fun a isAlias isEnum => ?_⟩
  · exact apart _ (List.mem_map_of_mem isClass) _ (List.mem_map_of_mem isAlias)
  · exact enums _ isEnum _ (List.mem_append_right _ (List.mem_map_of_mem isAlias)) rfl

/-! ## Names that a statement leaves as they are -/

theorem findKey?_bind (s : Loading) (name other : String) (binding : Binding)
    (different : other ≠ name) :
    findKey? other (s.bind name binding).scope = findKey? other s.scope := by
  rw [Loading.bind, findKey?_setKey, if_neg (by simpa using different.symm)]

/-- A statement changes only what its own names mean. -/
theorem Binder.load_elsewhere (s s' : Loading) (b : Binder) (given : b.load s = .ok s')
    (name : String) (other : name ∉ b.names) : findKey? name s'.scope = findKey? name s.scope := by
  cases b with
  | enum e =>
    -- An enum may have a companion, which is bound after it.
    obtain ⟨members, -, given⟩ := (Outcome.bind_ok_iff _ _ _).mp given
    rw [names, List.mem_cons, not_or] at other
    split at given
    · rename_i asked
      obtain ⟨constants, -, given⟩ := (Outcome.bind_ok_iff _ _ _).mp given
      cases given
      rw [if_pos asked, List.mem_singleton] at other
      rw [findKey?_bind _ _ _ _ other.2, findKey?_bind _ _ _ _ other.1]
    · cases given
      rw [findKey?_bind _ _ _ _ other.1]
  | cls c =>
    obtain ⟨places, -, given⟩ := (Outcome.bind_ok_iff _ _ _).mp given
    obtain ⟨above, declared, -, rfl⟩ := Statement.load_ok _ s s' given
    rw [names, List.mem_singleton] at other
    rw [findKey?_bind _ _ _ _ (c.statement_name places ▸ other)]
  | synonym a =>
    obtain ⟨binding, rfl⟩ := loadAlias_ok s s' a given
    exact findKey?_bind _ _ _ _ (by simpa [names] using other)

/-- No statement changes the world. -/
theorem Binder.load_world (s s' : Loading) (b : Binder) (given : b.load s = .ok s') :
    s'.world = s.world := by
  cases b with
  | enum e =>
    obtain ⟨members, -, given⟩ := (Outcome.bind_ok_iff _ _ _).mp given
    split at given
    · obtain ⟨constants, -, given⟩ := (Outcome.bind_ok_iff _ _ _).mp given
      cases given
      rfl
    · cases given
      rfl
  | cls c =>
    obtain ⟨places, -, given⟩ := (Outcome.bind_ok_iff _ _ _).mp given
    obtain ⟨above, declared, -, rfl⟩ := Statement.load_ok _ s s' given
    rfl
  | synonym a =>
    obtain ⟨binding, rfl⟩ := loadAlias_ok s s' a given
    rfl

theorem foldlM_world (bs : List Binder) (s s' : Loading) (given : bs.foldlM Binder.load s = .ok s') :
    s'.world = s.world :=
  Outcome.foldlM_preserves (fun t => t.world = s.world) Binder.load bs s s' rfl given
    fun b _ t u same loaded => (b.load_world t u loaded).trans same

theorem foldlM_elsewhere (bs : List Binder) (s s' : Loading)
    (given : bs.foldlM Binder.load s = .ok s') (name : String)
    (other : name ∉ bs.flatMap Binder.names) : findKey? name s'.scope = findKey? name s.scope := by
  refine Outcome.foldlM_preserves (fun t => findKey? name t.scope = findKey? name s.scope)
    Binder.load bs s s' rfl given fun b member t u same loaded => ?_
  refine (b.load_elsewhere t u loaded name fun isOwn => other ?_).trans same
  exact List.mem_flatMap.mpr ⟨b, member, isOwn⟩

theorem foldlM_enums (s s' : Loading) (enums : List Source.EnumClass) :
    (enums.map Binder.enum).foldlM Binder.load s = .ok s' ↔ enums.foldlM loadEnum s = .ok s' := by
  rw [List.foldlM_map]
  rfl

theorem foldlM_classes (s s' : Loading) (sources : List ClassSource) :
    (sources.map Binder.cls).foldlM Binder.load s = .ok s' ↔
      sources.foldlM loadClass s = .ok s' := by
  rw [List.foldlM_map]
  rfl

theorem foldlM_aliases (s s' : Loading) (aliases : List Source.Alias) :
    (aliases.map Binder.synonym).foldlM Binder.load s = .ok s' ↔
      aliases.foldlM loadAlias s = .ok s' := by
  rw [List.foldlM_map]
  rfl

/-! ## Names that a module is given -/

/-- The names that may be bound before the first statement of a module. -/
def givenNames : List String :=
  initialScope.map (·.1) ++ importedScope.map (·.1) ++ importedNames.map (·.1.2) ++ builtinNames ++
    ["str", "int", "float", "bool", "object"]

/-- Whether one of some imports binds a name that only the world tells. -/
def World.Tells (world : World) (imports : List String) (name : String) : Prop :=
  ∃ statement ∈ imports, ∃ names, world.imports statement = some names ∧ name ∈ names

/-- Whether a world leaves the names that a module exports to the module. -/
structure World.Spares (world : World) (m : Source.Module) : Prop where
  imports : ∀ name ∈ m.exported.map nameText, ¬world.Tells m.imports name
  written : ∀ className, ∀ name ∈ m.exported.map nameText,
    world.isType (.written className name) = false

theorem World.closed_spares (m : Source.Module) : World.closed.Spares m where
  imports := by
    rintro _ _ ⟨_, _, _, told, _⟩
    cases told
  written _ _ _ := rfl

/-- What an import statement binds is given to every module, or told by the world. -/
theorem Imports.given {world : World} {statement : String} {bindings : List (String × Binding)}
    (imports : Imports world statement bindings) (entry : String × Binding)
    (isBound : entry ∈ bindings) :
    entry.1 ∈ givenNames ∨ ∃ names, world.imports statement = some names ∧ entry.1 ∈ names := by
  simp only [givenNames, List.mem_append]
  cases imports with
  | known found =>
    cases List.mem_singleton.mp isBound
    exact .inl (.inl (.inl (.inr (List.mem_map.mpr ⟨_, findKey?_mem _ _ _ found, rfl⟩))))
  | builtin origin listed found =>
    cases List.mem_singleton.mp isBound
    exact .inl (.inl (.inr listed))
  | foreign told =>
    obtain ⟨name, isName, rfl⟩ := List.mem_map.mp isBound
    exact .inr ⟨_, told, isName⟩

theorem builtinBinding?_given (name : String) (binding : Binding)
    (given : builtinBinding? name = some binding) : name ∈ givenNames := by
  simp only [givenNames, List.mem_append]
  unfold builtinBinding? at given
  split at given
  case h_6 => exact .inl (.inr (by decide))
  case h_7 =>
    split at given
    · rename_i builtin
      exact .inl (.inr (by simpa using builtin))
    · cases given
  all_goals exact .inr (by decide)

/-- A name that is neither given nor told is unbound before the first statement. -/
theorem Loading.start_unbound {world : World} (imports : List String) (s : Loading)
    (given : Loading.start imports world = .ok s) (name : String) (fresh : name ∉ givenNames)
    (untold : ¬world.Tells imports name) : findKey? name s.scope = none := by
  obtain ⟨bindings, rfl, imported⟩ := Loading.start_ok given
  rw [findKey?_eq_none_iff]
  -- What is bound at the start is there at first, imported, or part of the foundation.
  intro listed
  refine absurd ?_ fresh
  rcases (mem_keys_setKeys _ _ _).mp listed with early | late
  · rcases (mem_keys_setKeys _ _ _).mp early with first | isImport
    · simp only [givenNames, List.mem_append]
      exact .inl (.inl (.inl (.inl first)))
    · obtain ⟨entry, isBinding, rfl⟩ := List.mem_map.mp isImport
      obtain ⟨statement, isImport, own, imports, isOwn⟩ := imported entry isBinding
      rcases imports.given entry isOwn with isGiven | ⟨names, told, isName⟩
      · exact isGiven
      · exact absurd ⟨statement, isImport, names, told, isName⟩ untold
  · simp only [givenNames, List.mem_append]
    exact .inl (.inl (.inl (.inr late)))

set_option maxRecDepth 4000 in
/-- No given name ends as the aliases of contracts do. -/
theorem alias_not_given (name : String) : name ++ Source.aliasSuffix ∉ givenNames := by
  intro isGiven
  have none : (givenNames.all fun known =>
      !Source.aliasSuffix.toList.isSuffixOf known.toList) = true := by
    simp only [givenNames, initialScope, importedScope, importedNames, builtinNames,
      Source.aliasSuffix, List.map_cons, List.map_nil, List.cons_append, List.nil_append,
      List.all_cons, List.all_nil, Text.toList_of_eq rfl]
    decide
  have other := List.all_eq_true.mp none _ isGiven
  have ends : Source.aliasSuffix.toList <:+ (name ++ Source.aliasSuffix).toList :=
    String.toList_append ▸ List.suffix_append _ _
  rw [List.isSuffixOf_iff_suffix.mpr ends] at other
  cases other

/-! ## What names mean in the end -/

namespace Trace

variable {m : Source.Module} {lib : Library} (trace : Trace m lib)

/-- A module is loaded statement by statement. -/
theorem foldlM_binders : (binders m).foldlM Binder.load trace.started = .ok trace.withAliases := by
  rw [binders, List.foldlM_append, (foldlM_enums _ _ _).mpr trace.enums, Outcome.ok_bind,
    List.foldlM_append, (foldlM_classes _ _ _).mpr trace.classes, Outcome.ok_bind,
    (foldlM_aliases _ _ _).mpr trace.aliases]

theorem started_world : trace.started.world = lib.world := by
  obtain ⟨bindings, same, -⟩ := Loading.start_ok trace.start
  exact congrArg Loading.world same

theorem withEnums_world : trace.withEnums.world = lib.world :=
  (foldlM_world _ _ _ ((foldlM_enums _ _ _).mpr trace.enums)).trans trace.started_world

/-- Every class is loaded in the world of the module. -/
theorem before_world (step : ClassStep (classSources m) trace.withEnums) :
    step.before.world = lib.world :=
  (foldlM_world _ _ _ ((foldlM_classes _ _ _).mpr step.reached)).trans trace.withEnums_world

/-- **What a statement binds its names to is what they mean in the end**, if no name is exported
twice. -/
theorem binding?_kept (distinct : (m.exported.map nameText).Nodup) (i : Nat) (b : Binder)
    (present : (binders m)[i]? = some b) :
    ∃ s s', ((binders m).take i).foldlM Binder.load trace.started = .ok s ∧ b.load s = .ok s' ∧
      ∀ name ∈ b.names, lib.binding? name = findKey? name s'.scope ∧
        findKey? name s.scope = findKey? name trace.started.scope := by
  obtain ⟨s, s', reached, loaded, later⟩ :=
    Outcome.foldlM_at Binder.load (binders m) _ _ trace.foldlM_binders i b present
  refine ⟨s, s', reached, loaded, fun name isOwn => ?_⟩
  -- The statements before this one and behind it bind other names.
  have once := (exported_perm_binders m).nodup_iff.mp distinct
  obtain ⟨within, rfl⟩ := List.getElem?_eq_some_iff.mp present
  rw [← List.take_append_drop i (binders m), List.drop_eq_getElem_cons within,
    List.flatMap_append, List.flatMap_cons, List.nodup_append] at once
  obtain ⟨-, behind, apart⟩ := once
  rw [List.nodup_append] at behind
  refine ⟨?_, ?_⟩
  · rw [Library.binding?, trace.libraryScope]
    exact foldlM_elsewhere _ _ _ later name fun isLater => behind.2.2 _ isOwn _ isLater rfl
  · exact foldlM_elsewhere _ _ _ reached name fun isEarlier =>
      apart _ isEarlier _ (List.mem_append_left _ isOwn) rfl

end Trace

/-- No later statement has the name of a class. -/
theorem NamesApart.not_later {m : Source.Module} (apart : NamesApart m) (i j : Nat)
    (earlier : i < j) (c : ClassSource) (present : (classSources m)[i]? = some c) :
    c.name ∉ ((classSources m).drop j).map ClassSource.name := by
  intro later
  obtain ⟨other, member, same⟩ := List.mem_map.mp later
  obtain ⟨k, found⟩ := List.mem_iff_getElem?.mp member
  rw [List.getElem?_drop] at found
  -- In a list without repetition two places of one name are the same.
  have within : i < ((classSources m).map ClassSource.name).length := by
    simpa using (List.getElem?_eq_some_iff.mp present).choose
  have index : i = j + k := by
    refine (List.getElem?_inj within apart.classes).mp ?_
    rw [List.getElem?_map, List.getElem?_map, present, found]
    exact congrArg some same.symm
  omega

namespace Trace

variable {m : Source.Module} {lib : Library} (trace : Trace m lib) (apart : NamesApart m)

include trace apart

/-- The name of a class means in the end what it means after its statement and some others. -/
theorem binding?_after (s : Loading) (i : Nat)
    (later : ((classSources m).drop i).foldlM loadClass s = .ok trace.withClasses)
    (c : ClassSource) (isClass : c ∈ classSources m)
    (done : c.name ∉ ((classSources m).drop i).map ClassSource.name) :
    lib.binding? c.name = findKey? c.name s.scope := by
  -- Neither the classes that are left nor the aliases bind the name.
  have classes : findKey? c.name trace.withClasses.scope = findKey? c.name s.scope :=
    foldlM_elsewhere _ _ _ ((foldlM_classes _ _ _).mpr later) c.name (names_cls _ ▸ done)
  have aliases : findKey? c.name trace.withAliases.scope =
      findKey? c.name trace.withClasses.scope :=
    foldlM_elsewhere _ _ _ ((foldlM_aliases _ _ _).mpr trace.aliases) c.name fun isAlias => by
      obtain ⟨a, member, same⟩ := List.mem_map.mp (names_synonym _ ▸ isAlias)
      exact apart.class_ne_alias c isClass a member same.symm
  rw [Library.binding?, trace.libraryScope, aliases, classes]

/-- While a class is loaded, the names of those before it mean what they mean in the end. -/
theorem binding?_class_at (step : ClassStep (classSources m) trace.withEnums) (i : Nat)
    (earlier : i < step.index) (c : ClassSource) (present : (classSources m)[i]? = some c) :
    findKey? c.name step.before.scope = lib.binding? c.name :=
  (trace.binding?_after apart step.before step.index (step.rest trace.classes) c
    (List.mem_of_getElem? present) (apart.not_later i step.index earlier c present)).symm

/-- The name of a class means the class. -/
theorem binding?_class (i : Nat) (c : ClassSource) (present : (classSources m)[i]? = some c) :
    lib.binding? c.name = some (.cls (Foundation.classes.length + i)) := by
  obtain ⟨step, rfl, rfl, -, later⟩ := exists_step trace.classes i c present
  rw [trace.binding?_after apart step.after (step.index + 1) later step.source
    (List.mem_of_getElem? present) (apart.not_later _ _ (Nat.lt_succ_self _) _ present),
    ClassStep.after, Loading.bind, findKey?_setKey, if_pos (beq_self_eq_true _), step.length,
    trace.length_withEnums]

/-- While a class is loaded, the name of an alias means what it means at the start. -/
theorem alias_before (step : ClassStep (classSources m) trace.withEnums) (a : Source.Alias)
    (isAlias : a ∈ m.aliases) :
    findKey? a.name step.before.scope = findKey? a.name trace.started.scope := by
  have enums : findKey? a.name trace.withEnums.scope = findKey? a.name trace.started.scope :=
    foldlM_elsewhere _ _ _ ((foldlM_enums _ _ _).mpr trace.enums) a.name
      (apart.alias_not_enum a isAlias)
  have classes : findKey? a.name step.before.scope = findKey? a.name trace.withEnums.scope :=
    foldlM_elsewhere _ _ _ ((foldlM_classes _ _ _).mpr step.reached) a.name fun isClass => by
      obtain ⟨c, member, same⟩ := List.mem_map.mp (names_cls _ ▸ isClass)
      exact apart.class_ne_alias c (List.mem_of_mem_take member) a isAlias same
  rw [classes, enums]

/-- The name of an alias means what its statement binds it to, when the names of all classes mean
what they mean in the end. -/
theorem binding?_alias (a : Source.Alias) (isAlias : a ∈ m.aliases) :
    ∃ s s', loadAlias s a = .ok s' ∧ lib.binding? a.name = findKey? a.name s'.scope ∧
      ∀ c ∈ classSources m, findKey? c.name s.scope = lib.binding? c.name := by
  obtain ⟨i, present⟩ := List.mem_iff_getElem?.mp isAlias
  obtain ⟨s, s', reached, loaded, later⟩ :=
    Outcome.foldlM_at loadAlias m.aliases _ _ trace.aliases i a present
  obtain ⟨within, rfl⟩ := List.getElem?_eq_some_iff.mp present
  have distinct := apart.aliases
  -- No alias behind this one has its name, and none before it has the name of a class.
  rw [← List.take_append_drop i m.aliases, List.drop_eq_getElem_cons within, List.map_append,
    List.map_cons, List.nodup_append, List.nodup_cons] at distinct
  refine ⟨s, s', loaded, ?_, fun c isClass => ?_⟩
  · rw [Library.binding?, trace.libraryScope]
    refine foldlM_elsewhere _ _ _ ((foldlM_aliases _ _ _).mpr later) _ fun again => ?_
    exact distinct.2.1.1 (names_synonym _ ▸ again)
  · have classes : findKey? c.name s.scope = findKey? c.name trace.withClasses.scope :=
      foldlM_elsewhere _ _ _ ((foldlM_aliases _ _ _).mpr reached) c.name fun again => by
        obtain ⟨other, member, same⟩ := List.mem_map.mp (names_synonym _ ▸ again)
        exact apart.class_ne_alias c isClass other (List.mem_of_mem_take member) same.symm
    rw [classes]
    refine (trace.binding?_after apart trace.withClasses (classSources m).length ?_ c isClass
      ?_).symm
    · rw [List.drop_length]
      rfl
    · simp

end Trace

/-- Whether no name that a statement binds comes to mean anything else. -/
def KeepsBindings (m : Source.Module) (lib : Library) : Prop :=
  ∀ i b, (binders m)[i]? = some b → ∃ start s s', Loading.start m.imports lib.world = .ok start ∧
    ((binders m).take i).foldlM Binder.load start = .ok s ∧ b.load s = .ok s' ∧
    ∀ name ∈ b.names, lib.binding? name = findKey? name s'.scope

theorem keepsBindings {world : World} (m : Source.Module) (lib : Library)
    (loaded : load m world = .ok lib) (distinct : (m.exported.map nameText).Nodup) :
    KeepsBindings m lib := by
  obtain ⟨trace⟩ := load_trace m lib loaded
  intro i b present
  obtain ⟨s, s', reached, given, kept⟩ := trace.binding?_kept distinct i b present
  exact ⟨trace.started, s, s', trace.start, reached, given, fun name isOwn => (kept name isOwn).1⟩

end GraphQLModels.Model
