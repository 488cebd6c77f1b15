import GraphQLModels.Hook
import GraphQLModels.Proofs.EscapedNames
import GraphQLModels.Proofs.Outcome
import Mathlib.Data.List.Nodup
import Mathlib.Tactic.MkIffOfInductiveProp

/-!
# Filters

A run of filters keeps the definitions that every one of them includes, in order. Each filter knows
only the classes that it drops itself and takes those out of the contracts; what the whole run takes
out are the classes that any of them drops. So neither the order of the filters nor a repetition
makes a difference, and no contract that is left leads to a class that is gone.
-/

namespace GraphQLModels

/-! ## Names that are included -/

/-- Whether a name passes a test if one is asked for: an empty text asks for nothing, and a missing
name passes no test. -/
def PassesIfAsked (part : Option String) (test : String → String → Prop) (name : Option String) :
    Prop :=
  ∀ text, part = some text → text ≠ "" → ∃ given, name = some given ∧ test given text

namespace NameFilter

/-- Whether a filter includes a name, by how it begins and ends. -/
@[mk_iff]
structure Includes (f : NameFilter) (name : Option String) : Prop where
  notStart : PassesIfAsked f.excludedStart (fun given start => ¬∃ rest, given = start ++ rest) name
  notEnd : PassesIfAsked f.excludedEnd (fun given finish => ¬∃ stem, given = stem ++ finish) name
  start : PassesIfAsked f.requiredStart (fun given start => ∃ rest, given = start ++ rest) name
  finish : PassesIfAsked f.requiredEnd (fun given finish => ∃ stem, given = stem ++ finish) name

theorem asked_iff (part : Option String) (holds : String → Bool) :
    asked part holds = true ↔ ∃ text, part = some text ∧ text ≠ "" ∧ holds text = true := by
  cases part <;> simp [asked]

theorem passesIfAsked_some {part : Option String} {test : String → String → Prop} {name : String}
    {fails : String → Bool} (exact : ∀ text, fails text = true ↔ ¬test name text) :
    PassesIfAsked part test (some name) ↔ asked part fails = false := by
  rw [← Bool.not_eq_true, asked_iff]
  simp [PassesIfAsked, exact]

theorem passesIfAsked_none {part : Option String} {test : String → String → Prop} :
    PassesIfAsked part test none ↔ asked part (fun _ => true) = false := by
  rw [← Bool.not_eq_true, asked_iff]
  simp [PassesIfAsked]

theorem keeps_iff (f : NameFilter) (name : String) :
    f.keeps name = true ↔ f.Includes (some name) := by
  simp only [includes_iff, keeps, Bool.and_eq_true, Bool.not_eq_true', and_assoc]
  refine and_congr (passesIfAsked_some fun start => ?_).symm
    (and_congr (passesIfAsked_some fun finish => ?_).symm
      (and_congr (passesIfAsked_some fun start => ?_).symm
        (passesIfAsked_some fun finish => ?_).symm))
  · rw [Text.beginsWith_iff, not_not]
  · rw [Text.endsWith_iff, not_not]
  · rw [Bool.not_eq_true', ← Bool.not_eq_true, Text.beginsWith_iff]
  · rw [Bool.not_eq_true', ← Bool.not_eq_true, Text.endsWith_iff]

theorem asksNothing_iff (f : NameFilter) : f.asksNothing = true ↔ f.Includes none := by
  simp [includes_iff, passesIfAsked_none, asksNothing]

/-- A filter keeps the definitions whose schema names it includes. -/
theorem keepsDefinition_iff (f : NameFilter) (d : Definition) :
    f.keepsDefinition d = true ↔ f.Includes d.schemaName := by
  unfold keepsDefinition
  cases d.schemaName with
  | some name => exact f.keeps_iff name
  | none => exact f.asksNothing_iff

end NameFilter

/-! ## Contracts without the classes that are gone -/

namespace Definition

/-- What a definition loses with the classes that are gone: a contract the entries of its
discriminator map and the accessors that target one of them, any other definition nothing. -/
inductive Loses (gone : List String) : Definition → Definition → Prop where
  | enum (d : EnumDef) : Loses gone (.enum d) (.enum d)
  | object (d : ObjectDef) : Loses gone (.object d) (.object d)
  | contract (d : ContractDef) : Loses gone (.contract d) (.contract
      { d with
        possibleTypes := d.possibleTypes.filter fun entry => entry.2 ∉ gone
        accessors := d.accessors.filter (· ∉ gone) })

theorem loses_without (gone : List String) (d : Definition) : d.Loses gone (d.without gone) := by
  cases d with
  | enum d => exact .enum d
  | object d => exact .object d
  | contract d => simpa [without, ContractDef.without] using Loses.contract d

@[simp]
theorem name_without (gone : List String) (d : Definition) : (d.without gone).name = d.name := by
  cases d <;> rfl

@[simp]
theorem schemaName_without (gone : List String) (d : Definition) :
    (d.without gone).schemaName = d.schemaName := by
  cases d <;> rfl

@[simp]
theorem without_eq_object {gone : List String} {d : Definition} {o : ObjectDef} :
    d.without gone = .object o ↔ d = .object o := by
  cases d <;> simp [without]

theorem without_nil (d : Definition) : d.without [] = d := by
  cases d <;> simp [without, ContractDef.without]

theorem without_without (first next : List String) (d : Definition) :
    (d.without first).without next = d.without (first ++ next) := by
  cases d with
  | enum d => rfl
  | object d => rfl
  | contract d => simp [without, ContractDef.without, List.filter_filter, Bool.and_comm]

theorem without_congr {gone others : List String} (same : ∀ target, target ∈ gone ↔ target ∈ others)
    (d : Definition) : d.without gone = d.without others := by
  cases d with
  | enum d => rfl
  | object d => rfl
  | contract d => simp [without, ContractDef.without, same]

end Definition

namespace NameFilter

/-! ## A run of filters as one pass -/

/-- Whether every filter keeps a definition. -/
def allKeep (filters : List NameFilter) (d : Definition) : Bool :=
  filters.all fun f => f.keepsDefinition d

/-- The names of the classes that some filter drops. -/
def droppedByAny (filters : List NameFilter) (definitions : List Definition) : List String :=
  let objects := definitions.filterMap Definition.object?
  (objects.filter fun o => !allKeep filters (.object o)).filterMap (·.name)

theorem allKeep_nil : allKeep [] = fun _ => true :=
  rfl

theorem allKeep_cons (f : NameFilter) (rest : List NameFilter) :
    allKeep (f :: rest) = fun d => f.keepsDefinition d && allKeep rest d :=
  rfl

theorem allKeep_iff {filters : List NameFilter} {d : Definition} :
    allKeep filters d = true ↔ ∀ f ∈ filters, f.Includes d.schemaName := by
  simp [allKeep, keepsDefinition_iff]

theorem allKeep_without (filters : List NameFilter) (gone : List String) (d : Definition) :
    allKeep filters (d.without gone) = allKeep filters d := by
  rw [Bool.eq_iff_iff, allKeep_iff, allKeep_iff, Definition.schemaName_without]

theorem mem_droppedByAny {filters : List NameFilter} {definitions : List Definition}
    {target : String} :
    target ∈ droppedByAny filters definitions ↔
      ∃ o, .object o ∈ definitions ∧ allKeep filters (.object o) = false ∧ o.name = some target := by
  simp [droppedByAny, and_assoc]

/-- With distinct names, a filter drops the classes that it does not keep. -/
theorem mem_dropped {f : NameFilter} {definitions : List Definition}
    (distinct : (definitions.map Definition.name).Nodup) {target : String} :
    target ∈ f.dropped definitions ↔
      ∃ o, .object o ∈ definitions ∧ f.keepsDefinition (.object o) = false ∧
        o.name = some target := by
  simp only [dropped, List.mem_filter, List.mem_filterMap, Bool.not_eq_true',
    List.contains_eq_mem, decide_eq_false_iff_not, Definition.object?_eq_some, exists_eq_right]
  constructor
  · rintro ⟨⟨o, listed, named⟩, none⟩
    refine ⟨o, listed, ?_, named⟩
    exact Bool.eq_false_iff.mpr fun keeps => none ⟨_, ⟨listed, keeps⟩, named⟩
  · rintro ⟨o, listed, drops, named⟩
    refine ⟨⟨o, listed, named⟩, ?_⟩
    -- A kept definition of the same name would be the class itself.
    rintro ⟨d, ⟨other, keeps⟩, same⟩
    rw [List.inj_on_of_nodup_map distinct other listed (same.trans named.symm), drops] at keeps
    cases keeps

theorem object_mem_run {f : NameFilter} {definitions : List Definition} {o : ObjectDef} :
    .object o ∈ f.run definitions ↔
      .object o ∈ definitions ∧ f.keepsDefinition (.object o) = true := by
  simp [run, and_comm]

/-- A filter leaves some of what definitions have that does not change with the classes that are
gone. -/
theorem map_run {α : Type} (read : Definition → α)
    (unchanged : ∀ gone (d : Definition), read (d.without gone) = read d) (f : NameFilter)
    (definitions : List Definition) :
    ((f.run definitions).map read).Sublist (definitions.map read) := by
  have same : read ∘ Definition.without (f.dropped definitions) = read :=
    funext fun d => unchanged _ d
  rw [run, List.map_map, same]
  exact List.filter_sublist.map read

/-- The classes that a run drops are those that its first filter drops and those that the others
drop of what is left. -/
theorem mem_droppedByAny_cons {f : NameFilter} {rest : List NameFilter}
    {definitions : List Definition} (distinct : (definitions.map Definition.name).Nodup)
    (target : String) :
    target ∈ f.dropped definitions ++ droppedByAny rest (f.run definitions) ↔
      target ∈ droppedByAny (f :: rest) definitions := by
  simp only [List.mem_append, mem_dropped distinct, mem_droppedByAny, object_mem_run,
    allKeep_cons, Bool.and_eq_false_iff]
  constructor
  · rintro (⟨o, listed, drops, named⟩ | ⟨o, ⟨listed, _⟩, drops, named⟩)
    · exact ⟨o, listed, .inl drops, named⟩
    · exact ⟨o, listed, .inr drops, named⟩
  · rintro ⟨o, listed, drops, named⟩
    cases keeps : f.keepsDefinition (.object o) with
    | false => exact .inl ⟨o, listed, keeps, named⟩
    | true => exact .inr ⟨o, ⟨listed, keeps⟩, by simpa [keeps] using drops, named⟩

/-- A run of filters is one pass, which keeps what all of them keep and takes out what any of them
drops. -/
theorem foldl_run (filters : List NameFilter) (definitions : List Definition)
    (distinct : (definitions.map Definition.name).Nodup) :
    filters.foldl (fun definitions f => f.run definitions) definitions =
      (definitions.filter (allKeep filters)).map
        (Definition.without (droppedByAny filters definitions)) := by
  -- The first filter changes the definitions that the others see, but none of their names, so the
  -- others still keep and drop the same ones.
  induction filters generalizing definitions with
  | nil =>
    have gone : droppedByAny [] definitions = [] :=
      List.eq_nil_iff_forall_not_mem.mpr fun target => by simp [mem_droppedByAny, allKeep_nil]
    have same : Definition.without [] = id := funext Definition.without_nil
    simp [gone, same, allKeep_nil]
  | cons f rest ih =>
    have distinctLeft := (map_run _ Definition.name_without f definitions).nodup distinct
    have kept : (f.run definitions).filter (allKeep rest) =
        (definitions.filter (allKeep (f :: rest))).map
          (Definition.without (f.dropped definitions)) := by
      simp [run, List.filter_map, Function.comp_def, allKeep_without, List.filter_filter,
        allKeep_cons, Bool.and_comm]
    rw [List.foldl_cons, ih _ distinctLeft, kept, List.map_map]
    refine List.map_congr_left fun d _ => ?_
    rw [Function.comp_apply, Definition.without_without]
    exact Definition.without_congr (mem_droppedByAny_cons distinct) d

end NameFilter

/-! ## What filters leave -/

/-- What is left of definitions after filters have run over them: the definitions that every filter
includes, in order, without the entries that target a class that is gone. -/
structure Filtered (hooks : List Hook) (definitions kept : List Definition) (gone : List String)
    (left : List Definition) : Prop where
  inOrder : kept.Sublist definitions
  included : ∀ d, d ∈ kept ↔
    d ∈ definitions ∧ ∀ f, Hook.filter f ∈ hooks → f.Includes d.schemaName
  dropped : ∀ target, target ∈ gone ↔
    ∃ o, .object o ∈ definitions ∧ .object o ∉ kept ∧ o.name = some target
  lost : List.Forall₂ (Definition.Loses gone) kept left

namespace Hook

theorem mem_filters {hooks : List Hook} {f : NameFilter} :
    f ∈ hooks.filterMap filter? ↔ .filter f ∈ hooks := by
  have isFilter (hook : Hook) : hook.filter? = some f ↔ hook = .filter f := by
    cases hook <;> simp [filter?]
  simp [isFilter]

theorem runFilters_filtered (hooks : List Hook) {definitions : List Definition}
    (distinct : (definitions.map Definition.name).Nodup) :
    ∃ kept gone, Filtered hooks definitions kept gone (runFilters hooks definitions) := by
  let filters := hooks.filterMap filter?
  refine ⟨definitions.filter (NameFilter.allKeep filters),
    NameFilter.droppedByAny filters definitions, List.filter_sublist, fun d => ?_, fun target => ?_,
    ?_⟩
  · simp only [filters, List.mem_filter, NameFilter.allKeep_iff, mem_filters]
  · rw [NameFilter.mem_droppedByAny]
    refine exists_congr fun o => and_congr_right fun listed => ?_
    simp [listed]
  · rw [runFilters, NameFilter.foldl_run _ _ distinct, List.forall₂_map_right_iff]
    exact List.forall₂_same.mpr fun d _ => d.loses_without _

/-- Only which filters there are makes a difference. -/
theorem runFilters_congr {hooks others : List Hook} {definitions : List Definition}
    (distinct : (definitions.map Definition.name).Nodup)
    (same : ∀ f, .filter f ∈ others ↔ .filter f ∈ hooks) :
    runFilters others definitions = runFilters hooks definitions := by
  have keep : NameFilter.allKeep (others.filterMap filter?) =
      NameFilter.allKeep (hooks.filterMap filter?) := by
    funext d
    rw [Bool.eq_iff_iff]
    simp only [NameFilter.allKeep_iff, mem_filters, same]
  simp only [runFilters, NameFilter.foldl_run _ _ distinct, NameFilter.droppedByAny, keep]

theorem canFilter_of_named (hooks : List Hook) {definitions : List Definition}
    (named : ∀ d ∈ definitions, d.schemaName.isSome) : canFilter hooks definitions = true := by
  have all := List.all_eq_true.mpr named
  exact List.all_eq_true.mpr fun f _ => by rw [NameFilter.applies, all, Bool.or_true]

end Hook

namespace ContractDef

/-- Whether the discriminator map or an accessor of a contract targets a name. -/
def Targets (c : ContractDef) (target : String) : Prop :=
  target ∈ c.accessors ∨ ∃ name, (name, target) ∈ c.possibleTypes

end ContractDef

/-- A class that a contract still targets is left itself. -/
theorem Filtered.target_left {hooks : List Hook} {definitions kept left : List Definition}
    {gone : List String} (filtered : Filtered hooks definitions kept gone left) {c : ContractDef}
    (isLeft : .contract c ∈ left) {o : ObjectDef} (given : .object o ∈ definitions)
    {target : String} (named : o.name = some target) (targets : c.Targets target) :
    .object o ∈ left := by
  have stays : target ∉ gone := by
    obtain ⟨_, _, ⟨⟩⟩ := Outcome.forall₂_right filtered.lost _ isLeft
    rcases targets with listed | ⟨name, listed⟩
    · exact of_decide_eq_true (List.mem_filter.mp listed).2
    · exact of_decide_eq_true (List.mem_filter.mp listed).2
  have isKept : .object o ∈ kept := by
    by_contra drops
    exact stays ((filtered.dropped target).mpr ⟨o, given, drops, named⟩)
  obtain ⟨_, listed, ⟨⟩⟩ := Outcome.forall₂_left filtered.lost _ isKept
  exact listed

/-- Filters that run one after the other leave what all of them include, without references to the
classes that are gone, in whatever order and however often each of them runs. -/
theorem filters_compose (hooks : List Hook) (definitions : List Definition)
    (distinct : (definitions.map Definition.name).Nodup) :
    (∃ kept gone, Filtered hooks definitions kept gone (Hook.runFilters hooks definitions)) ∧
      (∀ others, (∀ f, Hook.filter f ∈ others ↔ .filter f ∈ hooks) →
        Hook.runFilters others definitions = Hook.runFilters hooks definitions) ∧
      (∀ c o target, .contract c ∈ Hook.runFilters hooks definitions → c.Targets target →
        .object o ∈ definitions → o.name = some target →
        .object o ∈ Hook.runFilters hooks definitions) ∧
      ((∀ d ∈ definitions, d.schemaName.isSome) → Hook.canFilter hooks definitions = true) := by
  obtain ⟨kept, gone, filtered⟩ := Hook.runFilters_filtered hooks distinct
  exact ⟨⟨kept, gone, filtered⟩, fun _ => Hook.runFilters_congr distinct,
    fun _ _ _ isLeft targets given named => filtered.target_left isLeft given named targets,
    Hook.canFilter_of_named hooks⟩

/-- What an archive holds: a book, and a map and a film that two filters take out. -/
def archiveUnion : ContractDef where
  kind := .union
  name := "Item"
  schemaName := some "Item"
  fields := []
  possibleTypes := [("Book", "Book"), ("OldFilm", "OldFilm"), ("MapDraft", "MapDraft")]
  accessors := ["Book", "OldFilm", "MapDraft"]

def archiveClass (name : String) : Definition :=
  .object { name := some name, schemaName := some name, fields := [] }

def archive : List Definition :=
  [archiveClass "Book", .contract archiveUnion, archiveClass "OldFilm", archiveClass "MapDraft"]

def archiveFilters : List Hook :=
  [.filter { excludedStart := some "Old" }, .filter { excludedEnd := some "Draft" }]

/-- The filters leave the book and its entries, also when they run in the other order and twice. -/
theorem filters_compose_archive :
    (archive.map Definition.name).Nodup ∧
      Hook.runFilters archiveFilters archive =
        [archiveClass "Book", .contract
          { archiveUnion with possibleTypes := [("Book", "Book")], accessors := ["Book"] }] ∧
      Hook.runFilters (archiveFilters.reverse ++ .header "Archive" :: archiveFilters) archive =
        Hook.runFilters archiveFilters archive := by
  have distinct : (archive.map Definition.name).Nodup := by decide
  refine ⟨distinct, by decide, (filters_compose archiveFilters archive distinct).2.1 _ fun f => ?_⟩
  simp

end GraphQLModels
